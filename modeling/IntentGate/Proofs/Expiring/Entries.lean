import IntentGate.Expiring
import IntentGate.Proofs.Table

/-!
# Entries of an expiring store

`kept?` is the view of a store that its runs are followed through: what a key holds, expired or not.
What each operation does to it is said here, once per operation. Whatever is true of all kept values
stays true as long as it is true of the values that are stored (`AllKept.store`): no other operation
puts anything into a store.
-/

namespace IntentGate

variable {α : Type}

namespace Kept

theorem isExpired_mono {k : Kept α} {now later : Nat} (h : k.isExpired now = true)
    (hle : now ≤ later) : k.isExpired later = true := by
  rw [isExpired] at h ⊢
  cases he : k.expiresAt with
  | none =>
    rw [he] at h
    cases h
  | some e =>
    rw [he] at h
    exact decide_eq_true (Nat.le_trans (of_decide_eq_true h) hle)

/-- An entry lives until its lifetime has passed, and for good if the clock never gets there. -/
theorem isExpired_expiry?_eq_false_iff {r : Retention} {value : α} {t now : Nat} :
    (⟨value, r.expiry? t⟩ : Kept α).isExpired now = false ↔
      ∀ ttl ∈ r.lifetime, clockHorizon ≤ t + ttl ∨ now < t + ttl := by
  cases hr : r.lifetime with
  | none => simp [isExpired, Retention.expiry?, hr]
  | some ttl =>
    by_cases h : t + ttl < clockHorizon
    · simp [isExpired, Retention.expiry?, hr, h, Nat.not_le_of_lt h]
    · simp [isExpired, Retention.expiry?, hr, h, Nat.le_of_not_lt h]

end Kept

namespace Expiring

/-- What a key holds, expired or not. -/
def kept? (s : Expiring α) (key : String) : Option (Kept α) :=
  s.entries.find? key

theorem kept?_sweep (s : Expiring α) (now : Nat) (key : String) :
    (s.sweep now).kept? key = (s.kept? key).filter fun k => !k.isExpired now :=
  Table.find?_filter ..

/-- A sweep leaves what is live. -/
theorem kept?_sweep_eq_some_iff {s : Expiring α} {now : Nat} {key : String} {e : Kept α} :
    (s.sweep now).kept? key = some e ↔ s.kept? key = some e ∧ e.isExpired now = false := by
  rw [kept?_sweep, Option.filter_eq_some_iff, Bool.not_eq_true']

theorem kept?_remove (s : Expiring α) (key k : String) :
    (s.remove key).kept? k = if k = key then none else s.kept? k :=
  Table.find?_erase ..

theorem lookup_of_none {s : Expiring α} {key : String} (h : s.kept? key = none) (now : Nat) :
    s.lookup now key = (none, s) := by
  rw [kept?] at h
  rw [lookup, h]

theorem lookup_of_expired {s : Expiring α} {key : String} {k : Kept α} (h : s.kept? key = some k)
    {now : Nat} (hk : k.isExpired now = true) : s.lookup now key = (none, s.remove key) := by
  rw [kept?] at h
  rw [lookup, h]
  exact if_pos hk

theorem lookup_of_live {s : Expiring α} {key : String} {k : Kept α} (h : s.kept? key = some k)
    {now : Nat} (hk : k.isExpired now = false) : s.lookup now key = (some k.value, s) := by
  rw [kept?] at h
  rw [lookup, h]
  exact if_neg (by rw [hk]; decide)

/-- A lookup drops the entry of its key if that is expired, and nothing else. -/
theorem kept?_lookup (s : Expiring α) (now : Nat) (key k : String) :
    (s.lookup now key).2.kept? k =
      if k = key then (s.kept? key).filter fun k => !k.isExpired now else s.kept? k := by
  cases h : s.kept? key with
  | none =>
    rw [lookup_of_none h]
    by_cases hk : k = key
    · rw [if_pos hk, hk, h, Option.filter_none]
    · rw [if_neg hk]
  | some e =>
    cases he : e.isExpired now with
    | true =>
      rw [lookup_of_expired h he, kept?_remove, Option.filter_some_neg (by simp [he])]
    | false =>
      rw [lookup_of_live h he, Option.filter_some_pos (by simp [he])]
      by_cases hk : k = key
      · rw [if_pos hk, hk, h]
      · rw [if_neg hk]

/-- What a lookup finds is the value of a live entry. -/
theorem lookup_eq_some_iff {s : Expiring α} {now : Nat} {key : String} {value : α} :
    (s.lookup now key).1 = some value ↔
      ∃ k, s.kept? key = some k ∧ k.isExpired now = false ∧ k.value = value := by
  cases h : s.kept? key with
  | none => simp [lookup_of_none h]
  | some e =>
    cases he : e.isExpired now with
    | true => simp [lookup_of_expired h he, he]
    | false => simp [lookup_of_live h he, he]

/-- Where a lookup finds nothing it leaves nothing under the key. -/
theorem kept?_of_lookup_eq_none {s : Expiring α} {now : Nat} {key : String}
    (hnone : (s.lookup now key).1 = none) : (s.lookup now key).2.kept? key = none := by
  cases h : s.kept? key with
  | none => rw [lookup_of_none h, h]
  | some e =>
    cases he : e.isExpired now with
    | true => rw [lookup_of_expired h he, kept?_remove, if_pos rfl]
    | false => simp [lookup_of_live h he] at hnone

/-- The store that takes an entry, after the sweep if one is due. -/
def prepared (s : Expiring α) (r : Retention) (now : Nat) : Expiring α :=
  if r.sweepSize ≤ s.size then s.sweep now else s

theorem kept?_store (s : Expiring α) (r : Retention) (now : Nat) (key k : String) (value : α) :
    (s.store r now key value).kept? k =
      if k = key then some ⟨value, r.expiry? now⟩ else (s.prepared r now).kept? k :=
  Table.find?_put ..

/-- What a lookup leaves was there before. -/
theorem kept?_of_kept?_lookup {s : Expiring α} {now : Nat} {key k : String} {e : Kept α}
    (h : (s.lookup now key).2.kept? k = some e) : s.kept? k = some e := by
  rw [kept?_lookup] at h
  split at h
  · next heq =>
    rw [Option.filter_eq_some_iff] at h
    exact heq ▸ h.1
  · exact h

/-- What is there after an entry was stored is this entry, or it was there before. -/
theorem kept?_of_kept?_store {s : Expiring α} {r : Retention} {now : Nat} {key k : String}
    {value : α} {e : Kept α} (h : (s.store r now key value).kept? k = some e) :
    k = key ∧ e = ⟨value, r.expiry? now⟩ ∨ s.kept? k = some e := by
  rw [kept?_store] at h
  split at h
  · next heq => exact .inl ⟨heq, (Option.some.inj h).symm⟩
  · right
    unfold prepared at h
    split at h
    · exact (kept?_sweep_eq_some_iff.1 h).1
    · exact h

/-! ## What is true of all kept values -/

/-- Every kept value, live or not, is in a relation with its key. -/
def AllKept (p : String → α → Prop) (s : Expiring α) : Prop :=
  ∀ key k, s.kept? key = some k → p key k.value

namespace AllKept

variable {p : String → α → Prop} {s : Expiring α}

theorem empty : AllKept p (.empty : Expiring α) := by
  intro key k h
  cases h

theorem sweep (h : AllKept p s) (now : Nat) : AllKept p (s.sweep now) := by
  intro key k hk
  exact h key k (kept?_sweep_eq_some_iff.1 hk).1

theorem evict (h : AllKept p s) (now : Nat) : AllKept p (s.evict now).2 :=
  h.sweep now

theorem lookup (h : AllKept p s) (now : Nat) (key : String) : AllKept p (s.lookup now key).2 :=
  fun key' k hk => h key' k (kept?_of_kept?_lookup hk)

theorem of_lookup (h : AllKept p s) {now : Nat} {key : String} {value : α}
    (hfound : (s.lookup now key).1 = some value) : p key value := by
  obtain ⟨k, hk, -, rfl⟩ := lookup_eq_some_iff.1 hfound
  exact h key k hk

theorem store (h : AllKept p s) (r : Retention) (now : Nat) {key : String} {value : α}
    (hvalue : p key value) : AllKept p (s.store r now key value) := by
  intro key' k hk
  obtain ⟨rfl, rfl⟩ | hkept := kept?_of_kept?_store hk
  · exact hvalue
  · exact h key' k hkept

end AllKept

end Expiring

end IntentGate
