import IntentGate.Behavior.Masking
import IntentGate.Proofs.Behavior.Counting

/-!
# Coherence of the vector slot

Spaces are made, changed and derived from one another in any order; an `Operation` names the space
it works on by its place among those made so far. In every state that a run reaches each slot is
empty or holds the vector of the events as they are now (`Coherent`), so taking the vector of a
space counts its events whether the slot was filled or not. Which slot an operation fills, empties
or copies is the table `slotsAfter`.
-/

namespace IntentGate.Space

/-- What can be done with the spaces made so far. -/
inductive Operation where
  | create
  | observe (i : Nat) (e : Event)
  | setTag (i : Nat) (key : String) (value : Tag)
  | takeVector (i : Nat)
  | takeVectorWith (i : Nat) (o : VectorOptions)
  | takeVectorBetween (i : Nat) (start stop : Instant) (o : Option VectorOptions)
  | clone (i : Nat)
  | filter (i : Nat) (w : Window)
  | mask (i : Nat) (m : Masking)
  | restore (text : String)

/-- Performs an operation on the spaces made so far, and gives the vector it returns, if any. A new
space comes last. -/
def perform (spaces : List Space) : Operation → List Space × Option BehaviorVector
  | .create => (spaces ++ [empty], none)
  | .observe i e => (spaces.modify i fun s => s.observe e, none)
  | .setTag i key value => (spaces.modify i fun s => s.setTag key value, none)
  | .takeVector i => (spaces.modify i fun s => s.toVector.2, spaces[i]?.map fun s => s.toVector.1)
  | .takeVectorWith i o => (spaces, spaces[i]?.map fun s => s.vectorWith o)
  | .takeVectorBetween i start stop o =>
    (spaces, spaces[i]?.map fun s => s.vectorBetween start stop o)
  | .clone i => (spaces ++ spaces[i]?.toList, none)
  | .filter i w => (spaces ++ (spaces[i]?.map fun s => s.filtered w).toList, none)
  | .mask i m => (spaces ++ (spaces[i]?.map m.apply).toList, none)
  | .restore text => (spaces ++ (ofSnapshot? text).toList, none)

/-- The spaces made by some operations. -/
def after (ops : List Operation) : List Space :=
  ops.foldl (fun spaces op => (perform spaces op).1) []

/-! ## Slots -/

/-- The slots of some spaces. -/
def slots (spaces : List Space) : List (Option BehaviorVector) :=
  spaces.map Space.cached

/-- The slots after an operation: taking the vector fills one, observing empties one, a clone has
that of its original, every other new space has an empty one, and nothing else touches them. -/
def slotsAfter (spaces : List Space) : Operation → List (Option BehaviorVector)
  | .takeVector i => (slots spaces).set i (spaces[i]?.map Space.counts)
  | .observe i _ => (slots spaces).set i none
  | .clone i => slots spaces ++ (slots spaces)[i]?.toList
  | .create => slots spaces ++ [none]
  | .filter i _ | .mask i _ => slots spaces ++ (spaces[i]?.map fun _ => none).toList
  | .restore text => slots spaces ++ ((ofSnapshot? text).map fun _ => none).toList
  | .setTag .. | .takeVectorWith .. | .takeVectorBetween .. => slots spaces

/-- The slot is empty or holds the vector of the events as they are. -/
def Coherent (s : Space) : Prop :=
  s.cached = none ∨ s.cached = some s.counts

theorem Coherent.setTag {s : Space} (h : s.Coherent) (key : String) (value : Tag) :
    (s.setTag key value).Coherent :=
  h

theorem Coherent.vector_eq {s : Space} (h : s.Coherent) : s.vector = s.counts := by
  unfold vector
  rcases h with h | h
  · rw [h]
    rfl
  · rw [h]
    rfl

theorem Coherent.warmed {s : Space} (h : s.Coherent) : s.warmed.Coherent :=
  .inr (congrArg some h.vector_eq)

/-- A restored space has an empty slot, whatever the text says. -/
theorem cached_of_ofSnapshot? {text : String} {s : Space} (h : ofSnapshot? text = some s) :
    s.cached = none := by
  obtain ⟨j, -, h⟩ := Option.bind_eq_some_iff.1 h
  change ofJson? j = some s at h
  unfold ofJson? at h
  obtain ⟨fields, -, h⟩ := Option.bind_eq_some_iff.1 h
  split at h
  · obtain ⟨events, -, h⟩ := Option.bind_eq_some_iff.1 h
    obtain ⟨tags, -, h⟩ := Option.bind_eq_some_iff.1 h
    rw [← Option.some.inj h]
  · cases h

/-! ## One operation -/

section Perform

variable {spaces : List Space} (h : ∀ s ∈ spaces, s.Coherent)

include h

theorem coherent_modify {i : Nat} {f : Space → Space} (hf : ∀ s, s.Coherent → (f s).Coherent) :
    ∀ s ∈ spaces.modify i f, s.Coherent := by
  intro s hs
  obtain ⟨j, hj⟩ := List.mem_iff_getElem?.1 hs
  by_cases hij : i = j
  · subst hij
    rw [List.getElem?_modify_eq] at hj
    obtain ⟨t, ht, rfl⟩ := Option.map_eq_some_iff.1 hj
    exact hf t (h t (List.mem_of_getElem? ht))
  · rw [List.getElem?_modify_ne _ _ hij] at hj
    exact h s (List.mem_of_getElem? hj)

theorem coherent_append {new : Option Space} (hnew : ∀ s ∈ new, s.Coherent) :
    ∀ s ∈ spaces ++ new.toList, s.Coherent := by
  intro s hs
  rcases List.mem_append.1 hs with hs | hs
  · exact h s hs
  · exact hnew s (Option.mem_toList.1 hs)

/-- A space derived from another one, with an empty slot. -/
theorem coherent_append_derived {i : Nat} {f : Space → Space} (hf : ∀ s, (f s).cached = none) :
    ∀ s ∈ spaces ++ (spaces[i]?.map f).toList, s.Coherent := by
  refine coherent_append h fun s hs => ?_
  obtain ⟨t, -, rfl⟩ := Option.map_eq_some_iff.1 hs
  exact .inl (hf t)

/-- Every operation keeps the slots coherent. -/
theorem coherent_perform (op : Operation) : ∀ s ∈ (perform spaces op).1, s.Coherent := by
  cases op with
  | create =>
    have hnew : ∀ s ∈ some empty, s.Coherent := by
      rintro s ⟨⟩
      exact .inl rfl
    exact coherent_append h hnew
  | observe i e => exact coherent_modify h fun _ _ => .inl rfl
  | setTag i key value => exact coherent_modify h fun _ hs => hs.setTag key value
  | takeVector i => exact coherent_modify h fun _ hs => hs.warmed
  | takeVectorWith i o => exact h
  | takeVectorBetween i start stop o => exact h
  | clone i => exact coherent_append h fun s hs => h s (List.mem_of_getElem? hs)
  | filter i w => exact coherent_append_derived h fun _ => rfl
  | mask i m => exact coherent_append_derived h fun _ => rfl
  | restore text => exact coherent_append h fun s hs => .inl (cached_of_ofSnapshot? hs)

end Perform

theorem slots_modify {spaces : List Space} {i : Nat} {f : Space → Space}
    {slot : Option BehaviorVector} (h : ∀ s, spaces[i]? = some s → (f s).cached = slot) :
    slots (spaces.modify i f) = (slots spaces).set i slot := by
  rw [slots, List.modify_eq_set_getElem?]
  cases hs : spaces[i]? with
  | none =>
    have hlength : (slots spaces).length ≤ i := by
      rw [slots, List.length_map]
      exact List.getElem?_eq_none_iff.1 hs
    exact (List.set_eq_of_length_le hlength).symm
  | some s =>
    rw [← h s hs]
    exact List.map_set

/-- A change that leaves the slot of a space alone leaves all slots alone. -/
theorem slots_modify_frame (spaces : List Space) (i : Nat) {f : Space → Space}
    (hf : ∀ s, (f s).cached = s.cached) : slots (spaces.modify i f) = slots spaces := by
  rw [slots, List.modify_eq_set_getElem?]
  cases hs : spaces[i]? with
  | none => rfl
  | some s =>
    obtain ⟨hi, hget⟩ := List.getElem?_eq_some_iff.1 hs
    change (spaces.set i (f s)).map Space.cached = slots spaces
    rw [List.map_set, hf, ← List.map_set, ← hget, List.set_getElem_self, slots]

theorem slots_append (spaces : List Space) (new : Option Space) :
    slots (spaces ++ new.toList) = slots spaces ++ (new.map Space.cached).toList := by
  rw [slots, List.map_append]
  cases new <;> rfl

/-- The slots after an operation are those of the table. -/
theorem slots_perform {spaces : List Space} (h : ∀ s ∈ spaces, s.Coherent) (op : Operation) :
    slots (perform spaces op).1 = slotsAfter spaces op := by
  cases op with
  | create => exact slots_append spaces (some empty)
  | observe i e => exact slots_modify fun _ _ => rfl
  | setTag i key value => exact slots_modify_frame spaces i fun _ => rfl
  | takeVector i =>
    refine slots_modify fun s hs => ?_
    rw [hs]
    exact congrArg some (h s (List.mem_of_getElem? hs)).vector_eq
  | takeVectorWith i o => rfl
  | takeVectorBetween i start stop o => rfl
  | clone i =>
    have hslot : spaces[i]?.map Space.cached = (slots spaces)[i]? := List.getElem?_map.symm
    exact (slots_append ..).trans (by rw [hslot]; rfl)
  | filter i w => exact (slots_append ..).trans (by rw [Option.map_map]; rfl)
  | mask i m => exact (slots_append ..).trans (by rw [Option.map_map]; rfl)
  | restore text =>
    have hnone : (ofSnapshot? text).map Space.cached = (ofSnapshot? text).map fun _ => none :=
      Option.map_congr fun _ hs => cached_of_ofSnapshot? hs
    exact (slots_append ..).trans (by rw [hnone]; rfl)

/-! ## Runs -/

theorem after_append_singleton (ops : List Operation) (op : Operation) :
    after (ops ++ [op]) = (perform (after ops) op).1 := by
  rw [after, List.foldl_append]
  rfl

/-- Every space that a run makes is coherent. -/
theorem coherent_after (ops : List Operation) : ∀ s ∈ after ops, s.Coherent := by
  induction ops using List.reverseRecOn with
  | nil => intro s hs; cases hs
  | append_singleton ops op ih =>
    rw [after_append_singleton]
    exact coherent_perform ih op

/-! ## Counting events -/

/-- A vector counts some events: its dimensions are theirs, and the doubles stand for the numbers of
events as long as a double can count them. -/
structure CountsEvents (v : BehaviorVector) (events : List Event) : Prop where
  mem_keys : ∀ key, key ∈ v.dimensions.keys ↔ ∃ e ∈ events, e.dimension = key
  value : events.length < 2 ^ 53 → ∀ e ∈ events,
    v.get? e.dimension = some (Float.ofNat (events.countP fun f => f.dimension == e.dimension))
  total : events.length < 2 ^ 53 → v.total = Float.ofNat events.length

theorem countsEvents_counts (s : Space) : CountsEvents s.counts s.events where
  mem_keys key := by
    rw [counts, BehaviorVector.mem_keys_ofKeys, dimensions, List.mem_map]
  value hlt e he := by
    have hmem : e.dimension ∈ s.dimensions := List.mem_map_of_mem he
    have hcount : s.dimensions.count e.dimension =
        s.events.countP fun f => f.dimension == e.dimension := List.countP_map
    have hlength : s.dimensions.length < 2 ^ 53 := by rwa [dimensions, List.length_map]
    rw [counts, BehaviorVector.get?_ofKeys_eq_count hlength hmem, hcount]
  total hlt := by
    have hlength : s.dimensions.length = s.events.length := List.length_map ..
    rw [counts, BehaviorVector.total_ofKeys (hlength ▸ hlt), hlength]

/-- Events that were observed in another order are counted the same. -/
theorem counts_perm {s s' : Space} (h : s.events.Perm s'.events) : s.counts = s'.counts :=
  BehaviorVector.ofKeys_perm (h.map Event.dimension)

/-- Taking the vector of a space that a run has made gives the vector of its events. -/
theorem takeVector_after {ops : List Operation} {i : Nat} {s : Space}
    (h : (after ops)[i]? = some s) : (perform (after ops) (.takeVector i)).2 = some s.counts := by
  change (after ops)[i]?.map (fun s => s.vector) = _
  rw [h]
  exact congrArg some (coherent_after ops s (List.mem_of_getElem? h)).vector_eq

/-- In every run each slot is empty or holds the vector of the current events, operations change the
slots as `slotsAfter` says, and taking a vector counts the events, in whatever order and by whatever
operations they came to be in the space. -/
theorem slots_coherent_after (ops : List Operation) :
    (∀ s ∈ after ops,
      s.cached = none ∨ s.cached = some (BehaviorVector.ofKeys (s.events.map Event.dimension))) ∧
    (∀ op, slots (after (ops ++ [op])) = slotsAfter (after ops) op) ∧
    ∀ i s, (after ops)[i]? = some s →
      ∃ v, (perform (after ops) (.takeVector i)).2 = some v ∧ CountsEvents v s.events ∧
        ∀ ops' j s', (after ops')[j]? = some s' → s.events.Perm s'.events →
          (perform (after ops') (.takeVector j)).2 = some v := by
  refine ⟨coherent_after ops, fun op => ?_, fun i s hs => ?_⟩
  · rw [after_append_singleton]
    exact slots_perform (coherent_after ops) op
  · refine ⟨s.counts, takeVector_after hs, countsEvents_counts s, fun ops' j s' hs' hperm => ?_⟩
    rw [takeVector_after hs', counts_perm hperm]

/-- A clone of a space with a filled slot observes two more events; its vector counts all three, and
is that of a space in which they were observed in another order. -/
theorem takeVector_after_clone :
    let login : Event := ⟨"u", "login", default, .empty⟩
    let retry : Event := ⟨"u", "retry", default, .empty⟩
    let spaces := after [.create, .observe 0 login, .takeVector 0, .clone 0, .observe 1 retry,
      .observe 1 login]
    let others := after [.create, .observe 0 login, .observe 0 login, .observe 0 retry]
    ∃ v, (perform spaces (.takeVector 1)).2 = some v ∧
      v.get? "u:login" = some (Float.ofNat 2) ∧ v.total = Float.ofNat 3 ∧
      (perform others (.takeVector 0)).2 = some v := by
  intro login retry spaces others
  obtain ⟨v, htaken, hcounts, horder⟩ := (slots_coherent_after [.create, .observe 0 login,
    .takeVector 0, .clone 0, .observe 1 retry, .observe 1 login]).2.2 1 _ rfl
  refine ⟨v, htaken, hcounts.value (by decide) login (by decide), hcounts.total (by decide), ?_⟩
  exact horder [.create, .observe 0 login, .observe 0 login, .observe 0 retry] 0 _ rfl (by decide)

end IntentGate.Space
