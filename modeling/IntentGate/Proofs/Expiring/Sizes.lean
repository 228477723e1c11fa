import IntentGate.Proofs.Expiring.LastWrite

/-!
# Sizes of expiring stores

Expired entries stay in a store until something drops them, so its size says little about what is
live in it. It is bounded nevertheless. Only where an entry is stored does a store grow, and one
that has grown to its sweep size first drops all that is expired: after that it holds the new entry
and the other live ones (`size_store_le`). No other operation adds anything (`size_perform_le`), so
this bound lasts until the next entry is stored. Nothing is assumed of the readings, which may come
in any order, nor of the lifetime; the new entry stays even if it has none.

`sizes_bounded_by_live` says this of the embeddings that a provider remembers and of the intents
that a model remembers, in all their runs.
-/

namespace IntentGate.Expiring

variable {α : Type} {r : Retention}

/-- How many entries of other keys are live at a reading. -/
def liveOthers (s : Expiring α) (now : Nat) (key : String) : Nat :=
  s.entries.rows.countP fun row => row.1 ≠ key ∧ row.2.isExpired now = false

def Operation.isStore : Operation α → Bool
  | store _ _ _ => true
  | lookup _ _ => false
  | remove _ => false
  | evict _ => false
  | clear => false

/-! ## One operation -/

theorem size_sweep_le (s : Expiring α) (now : Nat) : (s.sweep now).size ≤ s.size :=
  Table.size_filter_le ..

theorem size_remove_le (s : Expiring α) (key : String) : (s.remove key).size ≤ s.size :=
  Table.size_filter_le ..

theorem size_lookup_le (s : Expiring α) (now : Nat) (key : String) :
    (s.lookup now key).2.size ≤ s.size := by
  cases h : s.kept? key with
  | none => exact Nat.le_of_eq (congrArg (fun looked => looked.2.size) (lookup_of_none h now))
  | some k =>
    cases hk : k.isExpired now with
    | true =>
      rw [lookup_of_expired h hk]
      exact s.size_remove_le key
    | false => exact Nat.le_of_eq (congrArg (fun looked => looked.2.size) (lookup_of_live h hk))

theorem size_perform_le (s : Expiring α) {o : Operation α} (ho : o.isStore = false) :
    (s.perform r o).size ≤ s.size := by
  cases o with
  | store now key value => cases ho
  | lookup now key => exact s.size_lookup_le now key
  | remove key => exact s.size_remove_le key
  | evict now => exact s.size_sweep_le now
  | clear => exact Nat.zero_le _

theorem size_foldl_perform_le {ops : List (Operation α)} (hops : ∀ o ∈ ops, o.isStore = false)
    (s : Expiring α) : (ops.foldl (perform r) s).size ≤ s.size := by
  induction ops generalizing s with
  | nil => exact Nat.le_refl _
  | cons o rest ih =>
    obtain ⟨ho, hrest⟩ := List.forall_mem_cons.1 hops
    exact Nat.le_trans (ih hrest (s.perform r o)) (s.size_perform_le ho)

/-- A sweep leaves the other live entries, next to what the key holds. -/
theorem size_remove_sweep (s : Expiring α) (now : Nat) (key : String) :
    ((s.sweep now).remove key).size = s.liveOthers now key := by
  change ((s.entries.rows.filter _).filter _).length = _
  rw [List.filter_filter, ← List.countP_eq_length_filter, liveOthers]
  simp only [Bool.decide_and, Bool.decide_eq_false, ne_eq]

/-- A store that has taken an entry is within its sweep size, or it holds nothing else than what is
live. -/
theorem size_store_le (s : Expiring α) (r : Retention) (now : Nat) (key : String) (value : α) :
    (s.store r now key value).size ≤ max r.sweepSize (1 + s.liveOthers now key) := by
  change ((s.prepared r now).remove key).size + 1 ≤ _
  rw [prepared]
  by_cases hfull : r.sweepSize ≤ s.size
  · -- the sweep comes before the new entry, so all that is left beside it is live
    rw [if_pos hfull, size_remove_sweep]
    omega
  · have hremoved := s.size_remove_le key
    rw [if_neg hfull]
    omega

/-- Storing an entry neither drops nor adds a live one of another key. -/
theorem kept?_store_iff_of_live (s : Expiring α) {now : Nat} {key k : String} {value : α}
    {e : Kept α} (hk : k ≠ key) (hlive : e.isExpired now = false) :
    (s.store r now key value).kept? k = some e ↔ s.kept? k = some e := by
  rw [kept?_store, if_neg hk, prepared]
  split
  · exact kept?_sweep_eq_some_iff.trans (and_iff_left hlive)
  · exact Iff.rfl

/-- Dropping entries does not show if they are expired or the key's own. -/
theorem liveOthers_filter (s : Expiring α) {now : Nat} {key : String}
    {keep : String → Kept α → Bool}
    (hkeep : ∀ k e, k ≠ key → e.isExpired now = false → keep k e = true) :
    liveOthers ⟨s.entries.filter keep⟩ now key = s.liveOthers now key := by
  change (s.entries.rows.filter _).countP _ = s.entries.rows.countP _
  rw [List.countP_filter]
  refine List.countP_congr fun row _ => ?_
  rw [Bool.and_eq_true, decide_eq_true_iff]
  exact and_iff_left_of_imp fun hlive => hkeep row.1 row.2 hlive.1 hlive.2

theorem liveOthers_store (s : Expiring α) (r : Retention) (now : Nat) (key : String) (value : α) :
    (s.store r now key value).liveOthers now key = s.liveOthers now key := by
  have hprepared : (s.prepared r now).liveOthers now key = s.liveOthers now key := by
    rw [prepared]
    split
    · exact s.liveOthers_filter fun k e _ hlive => by rw [hlive]; rfl
    · rfl
  calc (s.store r now key value).liveOthers now key
      = ((s.prepared r now).remove key).liveOthers now key :=
        List.countP_cons_of_neg fun h => (of_decide_eq_true h).1 rfl
    _ = (s.prepared r now).liveOthers now key :=
        (s.prepared r now).liveOthers_filter fun k e hk _ => decide_eq_true hk
    _ = s.liveOthers now key := hprepared

theorem evict_add_size (s : Expiring α) (now : Nat) :
    (s.evict now).1 + (s.evict now).2.size = s.size :=
  Nat.sub_add_cancel (s.size_sweep_le now)

/-! ## Runs -/

theorem after_append (r : Retention) (ops ops' : List (Operation α)) :
    after r (ops ++ ops') = ops'.foldl (perform r) (after r ops) :=
  List.foldl_append ..

/-- What is said of the size of a store that some operations leave, with `limit` for its sweep
size. -/
structure BoundedByLive (r : Retention) (limit : Nat) (ops : List (Operation α)) : Prop where
  /-- Since an entry was stored, the size is at most the limit, or one more than there were other
  live entries then. -/
  size_le : ∀ earlier now key value later, ops = earlier ++ .store now key value :: later →
    (∀ o ∈ later, o.isStore = false) →
      (after r ops).size ≤ max limit (1 + (after r earlier).liveOthers now key) ∧
      (after r (earlier ++ [.store now key value])).liveOthers now key =
        (after r earlier).liveOthers now key
  /-- An entry that is stored is there, and so are all of other keys that were live. -/
  kept : ∀ now key value, let stored := after r (ops ++ [.store now key value])
    stored.kept? key = some ⟨value, r.expiry? now⟩ ∧
      ∀ k ≠ key, ∀ e : Kept α, e.isExpired now = false →
        (stored.kept? k = some e ↔ (after r ops).kept? k = some e)
  /-- No other operation makes the store larger. -/
  size_le_of_not_store : ∀ o : Operation α, o.isStore = false →
    (after r (ops ++ [o])).size ≤ (after r ops).size
  /-- Evicting leaves what is live and says how much it has dropped. -/
  evict : ∀ now, ((after r ops).evict now).1 + (after r (ops ++ [.evict now])).size =
      (after r ops).size ∧
    ∀ key e, (after r (ops ++ [.evict now])).kept? key = some e ↔
      (after r ops).kept? key = some e ∧ e.isExpired now = false

theorem boundedByLive (r : Retention) (ops : List (Operation α)) :
    BoundedByLive r r.sweepSize ops where
  size_le := by
    rintro earlier now key value later rfl hlater
    have hstored : after r (earlier ++ [.store now key value]) =
        (after r earlier).store r now key value := after_append ..
    refine ⟨?_, by rw [hstored, liveOthers_store]⟩
    rw [after_append, List.foldl_cons]
    exact Nat.le_trans (size_foldl_perform_le hlater _) (size_store_le ..)
  kept := by
    intro now key value stored
    have hstored : stored = (after r ops).store r now key value := after_append ..
    rw [hstored]
    exact ⟨by rw [kept?_store, if_pos rfl],
      fun k hk e hlive => kept?_store_iff_of_live _ hk hlive⟩
  size_le_of_not_store := by
    intro o ho
    rw [after_append]
    exact size_perform_le _ ho
  evict := by
    intro now
    rw [after_append]
    exact ⟨evict_add_size .., fun key e => kept?_sweep_eq_some_iff⟩

/-- In every run, with any lifetime and any readings, what a provider remembers is bounded by 4096
entries or by those that were live when the last one was stored, and what a model remembers by 1024
or by those. -/
theorem sizes_bounded_by_live (lifetime : Option Nat) :
    (∀ ops : List (Operation (Embedding Float)),
      BoundedByLive (Provider.retention lifetime) 4096 ops) ∧
    ∀ ops : List (Operation Intent), BoundedByLive (Model.retention lifetime) 1024 ops :=
  ⟨boundedByLive (Provider.retention lifetime), boundedByLive (Model.retention lifetime)⟩

/-- The sweep comes before the new entry, which stays although its lifetime is over at once. -/
example : (after ⟨some 0, 2⟩
    ([.store 0 "a" 1, .store 0 "b" 2, .store 0 "c" 3] : List (Operation Nat))).size = 1 := by
  decide +kernel

end IntentGate.Expiring
