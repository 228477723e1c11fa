import IntentGate.Inference.Provider
import IntentGate.Inference.Remembered
import IntentGate.Proofs.Expiring.Entries
import Mathlib.Data.List.Induction

/-!
# Last writes

An expiring store drops entries in three places, each at its own time: where it looks one up, where
it is swept, and where it has grown to the sweep size. None of this shows. `lookup_last_write` says
that a lookup finds the value that was written last to its key, if that is still standing and its
lifetime has not passed; so lookups and sweeps, and the size from which on a store is swept, are
nothing to the lookups after them. This holds of the embeddings that a provider remembers
(`Provider.retention`) and of the intents that a model remembers (`Model.retention`).

What is followed through a run is the relation `Stands` between what a key holds and what was last
written to it. It lasts because readings do not decrease, so that what has expired stays expired.
-/

namespace IntentGate

variable {α : Type}

namespace Expiring

/-- What a store is asked to do. -/
inductive Operation (α : Type) where
  | store (now : Nat) (key : String) (value : α)
  | lookup (now : Nat) (key : String)
  | remove (key : String)
  | evict (now : Nat)
  | clear
deriving DecidableEq, Repr

namespace Operation

/-- The clock reading that an operation brings along. -/
def reading? : Operation α → Option Nat
  | store now _ _ => some now
  | lookup now _ => some now
  | remove _ => none
  | evict now => some now
  | clear => none

/-- Whether an operation says what a store is to hold. -/
def isWrite : Operation α → Bool
  | store _ _ _ => true
  | lookup _ _ => false
  | remove _ => true
  | evict _ => false
  | clear => true

/-- Whether an operation says what a key is to hold. -/
def settles (key : String) : Operation α → Prop
  | store _ k _ => k = key
  | lookup _ _ => False
  | remove k => k = key
  | evict _ => False
  | clear => True

end Operation

/-- Performs an operation. -/
def perform (r : Retention) (s : Expiring α) : Operation α → Expiring α
  | .store now key value => s.store r now key value
  | .lookup now key => (s.lookup now key).2
  | .remove key => s.remove key
  | .evict now => (s.evict now).2
  | .clear => .empty

/-- The store after some operations on an empty one. -/
def after (r : Retention) (ops : List (Operation α)) : Expiring α :=
  ops.foldl (perform r) .empty

/-- No clock reading is smaller than one before it. -/
def Chronological (ops : List (Operation α)) : Prop :=
  (ops.filterMap Operation.reading?).Pairwise (· ≤ ·)

instance (ops : List (Operation α)) : Decidable (Chronological ops) :=
  inferInstanceAs (Decidable ((ops.filterMap Operation.reading?).Pairwise (· ≤ ·)))

/-- The last write to a key stored a value at a reading, and is still standing. -/
def LastWrite (ops : List (Operation α)) (key : String) (value : α) (t : Nat) : Prop :=
  ∃ earlier later, ops = earlier ++ .store t key value :: later ∧ ∀ o ∈ later, ¬o.settles key

/-! ## What is written -/

/-- What is written to a key after an operation, with the reading, if `written` was before. -/
def Operation.write (key : String) (written : Option (α × Nat)) :
    Operation α → Option (α × Nat)
  | store now k value => if key = k then some (value, now) else written
  | lookup _ _ => written
  | remove k => if key = k then none else written
  | evict _ => written
  | clear => none

/-- What was last written to a key, with the reading. -/
def written? (key : String) (ops : List (Operation α)) : Option (α × Nat) :=
  ops.foldl (Operation.write key) none

theorem Operation.write_of_not_settles {key : String} {o : Operation α} (h : ¬o.settles key)
    (written : Option (α × Nat)) : o.write key written = written := by
  cases o with
  | store now k value => exact if_neg fun hkey => h hkey.symm
  | lookup now k => rfl
  | remove k => exact if_neg fun hkey => h hkey.symm
  | evict now => rfl
  | clear => exact absurd trivial h

theorem foldl_write_of_not_settles {key : String} {ops : List (Operation α)}
    (h : ∀ o ∈ ops, ¬o.settles key) (written : Option (α × Nat)) :
    ops.foldl (Operation.write key) written = written := by
  induction ops with
  | nil => rfl
  | cons o rest ih =>
    obtain ⟨ho, hrest⟩ := List.forall_mem_cons.1 h
    rw [List.foldl_cons, o.write_of_not_settles ho]
    exact ih hrest

theorem written?_append_singleton (key : String) (ops : List (Operation α)) (o : Operation α) :
    written? key (ops ++ [o]) = o.write key (written? key ops) :=
  List.foldl_append

theorem lastWrite_of_written? {key : String} {ops : List (Operation α)} {value : α} {t : Nat}
    (h : written? key ops = some (value, t)) : LastWrite ops key value t := by
  induction ops using List.reverseRecOn with
  | nil => cases h
  | append_singleton ops o ih =>
    rw [written?_append_singleton] at h
    by_cases ho : o.settles key
    · cases o with
      | store now k v =>
        obtain rfl : k = key := ho
        obtain ⟨rfl, rfl⟩ := Prod.mk.inj (Option.some.inj ((if_pos rfl).symm.trans h))
        exact ⟨ops, [], rfl, nofun⟩
      | lookup now k => exact ho.elim
      | remove k => cases (if_pos (Eq.symm ho)).symm.trans h
      | evict now => exact ho.elim
      | clear => cases h
    · rw [o.write_of_not_settles ho] at h
      obtain ⟨earlier, later, rfl, hlater⟩ := ih h
      exact ⟨earlier, later ++ [o], List.append_assoc .., List.forall_mem_append.2
        ⟨hlater, List.forall_mem_singleton.2 ho⟩⟩

/-- The last write to a key is what was written last. -/
theorem written?_eq_some_iff {key : String} {ops : List (Operation α)} {value : α} {t : Nat} :
    written? key ops = some (value, t) ↔ LastWrite ops key value t := by
  refine ⟨lastWrite_of_written?, ?_⟩
  rintro ⟨earlier, later, rfl, hlater⟩
  rw [written?, List.foldl_append, List.foldl_cons, foldl_write_of_not_settles hlater]
  exact if_pos rfl

/-- Nothing but writes says what is written. -/
theorem written?_filter_isWrite (key : String) (ops : List (Operation α)) :
    written? key (ops.filter Operation.isWrite) = written? key ops := by
  rw [written?, written?, List.foldl_filter]
  congr 1
  funext written o
  cases o <;> rfl

/-! ## What is held -/

/-- A key holds what was written to it last. It holds nothing if nothing was, or if that had expired
at the reading `now`. -/
def Stands (r : Retention) (now : Nat) : Option (Kept α) → Option (α × Nat) → Prop
  | none, none => True
  | none, some (value, t) => (⟨value, r.expiry? t⟩ : Kept α).isExpired now = true
  | some _, none => False
  | some k, some (value, t) => k = ⟨value, r.expiry? t⟩

namespace Stands

variable {r : Retention} {now : Nat} {k : Option (Kept α)} {w : Option (α × Nat)}

theorem mono (h : Stands r now k w) {later : Nat} (hle : now ≤ later) : Stands r later k w := by
  cases k <;> cases w
  · trivial
  · exact Kept.isExpired_mono h hle
  · exact h
  · exact h

/-- Dropping what has expired does not show. -/
theorem filter (h : Stands r now k w) : Stands r now (k.filter fun k => !k.isExpired now) w := by
  cases k with
  | none => exact h
  | some k =>
    cases w with
    | none => exact h.elim
    | some w =>
      obtain rfl : k = ⟨w.1, r.expiry? w.2⟩ := h
      cases hexpired : (⟨w.1, r.expiry? w.2⟩ : Kept α).isExpired now with
      | true =>
        rw [Option.filter_some_neg (by simp [hexpired])]
        exact hexpired
      | false =>
        rw [Option.filter_some_pos (by simp [hexpired])]
        exact rfl

/-- The sweep that may come before an entry is stored does not show. -/
theorem prepared {s : Expiring α} {key : String} (h : Stands r now (s.kept? key) w) :
    Stands r now ((s.prepared r now).kept? key) w := by
  unfold Expiring.prepared
  split
  · rw [kept?_sweep]
    exact h.filter
  · exact h

/-- An operation makes of what a key holds what it makes of what was written last. -/
theorem perform {s : Expiring α} {key : String} (h : Stands r now (s.kept? key) w)
    {o : Operation α} (hnow : ∀ n ∈ o.reading?, now ≤ n) :
    Stands r (o.reading?.getD now) ((Expiring.perform r s o).kept? key) (o.write key w) := by
  cases o with
  | store n k value =>
    change Stands r n ((s.store r n k value).kept? key) (if key = k then some (value, n) else w)
    rw [kept?_store]
    by_cases hkey : key = k
    · rw [if_pos hkey, if_pos hkey]
      exact rfl
    · rw [if_neg hkey, if_neg hkey]
      exact (h.mono (hnow n rfl)).prepared
  | lookup n k =>
    change Stands r n ((s.lookup n k).2.kept? key) w
    have h := h.mono (hnow n rfl)
    rw [kept?_lookup]
    by_cases hkey : key = k
    · rw [if_pos hkey, ← hkey]
      exact h.filter
    · rw [if_neg hkey]
      exact h
  | remove k =>
    change Stands r now ((s.remove k).kept? key) (if key = k then none else w)
    rw [kept?_remove]
    by_cases hkey : key = k
    · rw [if_pos hkey, if_pos hkey]
      trivial
    · rw [if_neg hkey, if_neg hkey]
      exact h
  | evict n =>
    change Stands r n ((s.sweep n).kept? key) w
    rw [kept?_sweep]
    exact (h.mono (hnow n rfl)).filter
  | clear => trivial

theorem foldl_perform {key : String} {later : Nat} {ops : List (Operation α)} :
    ∀ {s : Expiring α} {now : Nat} {w : Option (α × Nat)}, Stands r now (s.kept? key) w →
      now ≤ later → (∀ n ∈ ops.filterMap Operation.reading?, now ≤ n ∧ n ≤ later) →
      Chronological ops →
      Stands r later ((ops.foldl (Expiring.perform r) s).kept? key)
        (ops.foldl (Operation.write key) w) := by
  induction ops with
  | nil =>
    intro s now w h hle _ _
    exact h.mono hle
  | cons o rest ih =>
    intro s now w h hle hreadings hops
    cases ho : o.reading? with
    | none =>
      rw [Chronological, List.filterMap_cons_none ho] at hops
      rw [List.filterMap_cons_none ho] at hreadings
      have hnext := h.perform (o := o) (by rw [ho]; nofun)
      rw [ho] at hnext
      exact ih hnext hle hreadings hops
    | some n =>
      rw [Chronological, List.filterMap_cons_some ho] at hops
      rw [List.filterMap_cons_some ho, List.forall_mem_cons] at hreadings
      obtain ⟨hfirst, hrest⟩ := List.pairwise_cons.1 hops
      have hnext := h.perform (o := o) (by rw [ho]; rintro _ ⟨⟩; exact hreadings.1.1)
      rw [ho] at hnext
      exact ih hnext hreadings.1.2 (fun m hm => ⟨hfirst m hm, (hreadings.2 m hm).2⟩) hrest

theorem lookup_eq_some_iff {s : Expiring α} {key : String} (h : Stands r now (s.kept? key) w)
    {value : α} : (s.lookup now key).1 = some value ↔
      ∃ t, w = some (value, t) ∧ (⟨value, r.expiry? t⟩ : Kept α).isExpired now = false := by
  rw [Expiring.lookup_eq_some_iff]
  constructor
  · rintro ⟨k, hk, hlive, rfl⟩
    rw [hk] at h
    cases w with
    | none => exact h.elim
    | some w =>
      obtain rfl : k = ⟨w.1, r.expiry? w.2⟩ := h
      exact ⟨w.2, rfl, hlive⟩
  · rintro ⟨t, rfl, hlive⟩
    cases hk : s.kept? key with
    | none =>
      rw [hk] at h
      exact absurd (hlive.symm.trans h) (by decide)
    | some k =>
      rw [hk] at h
      obtain rfl : k = ⟨value, r.expiry? t⟩ := h
      exact ⟨_, rfl, hlive, rfl⟩

end Stands

theorem stands_after (r : Retention) {ops : List (Operation α)} {now : Nat} {key : String}
    (h : Chronological (ops ++ [.lookup now key])) :
    Stands r now ((after r ops).kept? key) (written? key ops) := by
  rw [Chronological, List.filterMap_append, List.pairwise_append] at h
  obtain ⟨hops, -, hlast⟩ := h
  have hempty : Stands r 0 ((empty : Expiring α).kept? key) none := trivial
  exact hempty.foldl_perform (Nat.zero_le now)
    (fun n hn => ⟨Nat.zero_le n, hlast n hn now List.mem_cons_self⟩) hops

theorem lookup_after_eq_some_iff (r : Retention) {ops : List (Operation α)} {now : Nat}
    {key : String} (h : Chronological (ops ++ [.lookup now key])) {value : α} :
    ((after r ops).lookup now key).1 = some value ↔
      ∃ t, written? key ops = some (value, t) ∧
        ∀ ttl ∈ r.lifetime, clockHorizon ≤ t + ttl ∨ now < t + ttl := by
  rw [(stands_after r h).lookup_eq_some_iff]
  simp only [Kept.isExpired_expiry?_eq_false_iff]

/-- In a run on an empty store a lookup finds a value exactly if it is the one of the last write to
its key that is still standing, and its lifetime has not passed: there is none, its end is not to be
represented by the clock, or it ends after the reading. So lookups, sweeps and the sweep size
change no later lookup: runs with the same writes and lifetime agree on it. -/
theorem lookup_last_write (r : Retention) {ops : List (Operation α)} {now : Nat} {key : String}
    (h : Chronological (ops ++ [.lookup now key])) :
    (∀ value, ((after r ops).lookup now key).1 = some value ↔
      ∃ t, LastWrite ops key value t ∧
        ∀ ttl ∈ r.lifetime, clockHorizon ≤ t + ttl ∨ now < t + ttl) ∧
    ∀ (r' : Retention) (ops' : List (Operation α)), r'.lifetime = r.lifetime →
      ops'.filter Operation.isWrite = ops.filter Operation.isWrite →
      Chronological (ops' ++ [.lookup now key]) →
      ((after r' ops').lookup now key).1 = ((after r ops).lookup now key).1 := by
  refine ⟨fun value => ?_, fun r' ops' hlifetime hwrites h' => Option.ext fun value => ?_⟩
  · rw [lookup_after_eq_some_iff r h]
    simp only [written?_eq_some_iff]
  · rw [lookup_after_eq_some_iff r h, lookup_after_eq_some_iff r' h', hlifetime,
      ← written?_filter_isWrite key ops', hwrites, written?_filter_isWrite]

/-- A store that is swept when it takes its third entry and once more later, and two with the
retentions of models and providers and without lookups and sweeps between. -/
theorem lookup_last_write_across_sweeps :
    let ops : List (Operation Nat) := [.store 0 "a" 1, .store 3 "b" 2, .store 5 "c" 3,
      .lookup 6 "a", .evict 8, .store 8 "b" 4, .remove "c"]
    let unswept : List (Operation Nat) :=
      [.store 0 "a" 1, .store 3 "b" 2, .store 5 "c" 3, .store 8 "b" 4, .remove "c"]
    (after ⟨some 5, 2⟩ ops).size = 1 ∧ (after (Model.retention (some 5)) unswept).size = 2 ∧
    ((after ⟨some 5, 2⟩ ops).lookup 12 "b").1 = some 4 ∧
    (∀ r ∈ [Model.retention (some 5), Provider.retention (some 5)],
      ((after r unswept).lookup 12 "b").1 = ((after ⟨some 5, 2⟩ ops).lookup 12 "b").1) ∧
    ((after ⟨some 5, 2⟩ ops).lookup 13 "b").1 = none := by
  intro ops unswept
  have hlast : LastWrite ops "b" 4 8 := ⟨ops.take 5, [.remove "c"], rfl, by simp [Operation.settles]⟩
  obtain ⟨hlookup, hagree⟩ := lookup_last_write ⟨some 5, 2⟩
    (show Chronological (ops ++ [.lookup 12 "b"]) by decide)
  refine ⟨by decide +kernel, by decide +kernel, (hlookup 4).2 ⟨8, hlast, by decide +kernel⟩,
    fun r hr => ?_, by decide +kernel⟩
  have hlifetime : r.lifetime = some 5 := by
    simp only [List.mem_cons, List.not_mem_nil, or_false] at hr
    rcases hr with rfl | rfl <;> rfl
  exact hagree r unswept hlifetime rfl (by decide)

end Expiring

end IntentGate
