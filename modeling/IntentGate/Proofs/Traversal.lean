import Mathlib.Data.List.Forall2

/-!
# Traversals that may fail

A traversal succeeds exactly if it does at every member, and then its results stand in the order of
the members (`mapM_eq_ok_iff`, and `mapM_eq_some_iff` where a failure has no fault). Else it fails
with the fault of the first member that has one (`mapM_eq_error_iff`, `mapM_eq_none_iff`).
-/

namespace IntentGate.Traversal

theorem map_eq_ok_iff {α β ε : Type} {f : α → β} {x : Except ε α} {b : β} :
    x.map f = .ok b ↔ ∃ a, x = .ok a ∧ f a = b := by
  cases x <;> simp [Except.map]

theorem map_eq_error_iff {α β ε : Type} {f : α → β} {x : Except ε α} {e : ε} :
    x.map f = .error e ↔ x = .error e := by
  cases x <;> simp [Except.map]

theorem bind_eq_ok_iff {α β ε : Type} {x : Except ε α} {f : α → Except ε β} {b : β} :
    x >>= f = .ok b ↔ ∃ a, x = .ok a ∧ f a = .ok b := by
  cases x with
  | error e => exact ⟨nofun, nofun⟩
  | ok a => exact ⟨fun h => ⟨a, rfl, h⟩, fun ⟨_, ha, h⟩ => Except.ok.inj ha ▸ h⟩

section Traversal

variable {α β ε : Type} {f : α → Except ε β} {x : α} {xs : List α}

theorem mapM_cons_of_ok {y : β} (hx : f x = .ok y) :
    (x :: xs).mapM f = (xs.mapM f).map (y :: ·) := by
  rw [List.mapM_cons, hx]
  cases xs.mapM f <;> rfl

theorem mapM_cons_of_error {e : ε} (hx : f x = .error e) : (x :: xs).mapM f = .error e := by
  rw [List.mapM_cons, hx]
  rfl

/-- After members without a fault, a traversal goes on with the others. -/
theorem mapM_append_of_ok {xs' : List α} {ys : List β} (hxs : xs.mapM f = .ok ys) :
    (xs ++ xs').mapM f = (xs'.mapM f).map (ys ++ ·) := by
  rw [List.mapM_append, hxs]
  cases xs'.mapM f <;> rfl

theorem mapM_eq_ok_iff {ys : List β} :
    xs.mapM f = .ok ys ↔ List.Forall₂ (fun x y => f x = .ok y) xs ys := by
  induction xs generalizing ys with
  | nil =>
    rw [List.forall₂_nil_left_iff]
    exact ⟨fun h => (Except.ok.inj h).symm, fun h => h ▸ rfl⟩
  | cons x xs ih =>
    rw [List.forall₂_cons_left_iff]
    constructor
    · intro h
      cases hx : f x with
      | error e =>
        rw [mapM_cons_of_error hx] at h
        cases h
      | ok y =>
        rw [mapM_cons_of_ok hx, map_eq_ok_iff] at h
        obtain ⟨ys', hxs, hys⟩ := h
        exact ⟨y, ys', rfl, ih.1 hxs, hys.symm⟩
    · rintro ⟨y, ys', hx, hxs, rfl⟩
      rw [mapM_cons_of_ok hx, ih.2 hxs]
      rfl

/-- A traversal fails with the fault of the first member that has one. -/
theorem mapM_eq_error_iff {e : ε} :
    xs.mapM f = .error e ↔
      ∃ before x after, xs = before ++ x :: after ∧ (∀ q ∈ before, ∃ y, f q = .ok y) ∧
        f x = .error e := by
  induction xs with
  | nil =>
    constructor
    · intro h
      cases h
    · rintro ⟨before, x, after, hsplit, -⟩
      simp at hsplit
  | cons x xs ih =>
    constructor
    · intro h
      cases hx : f x with
      | error e' =>
        rw [mapM_cons_of_error hx] at h
        obtain rfl := Except.error.inj h
        exact ⟨[], x, xs, rfl, by simp, hx⟩
      | ok y =>
        rw [mapM_cons_of_ok hx, map_eq_error_iff, ih] at h
        obtain ⟨before, x', after, hsplit, hbefore, hx'⟩ := h
        refine ⟨x :: before, x', after, by rw [hsplit]; rfl, ?_, hx'⟩
        exact List.forall_mem_cons.2 ⟨⟨y, hx⟩, hbefore⟩
    · rintro ⟨before, x', after, hsplit, hbefore, hx'⟩
      cases before with
      | nil =>
        obtain ⟨rfl, rfl⟩ := List.cons.inj hsplit
        exact mapM_cons_of_error hx'
      | cons q before =>
        obtain ⟨rfl, hrest⟩ := List.cons.inj hsplit
        obtain ⟨⟨y, hy⟩, hbefore⟩ := List.forall_mem_cons.1 hbefore
        rw [mapM_cons_of_ok hy, map_eq_error_iff, ih]
        exact ⟨before, x', after, hrest, hbefore, hx'⟩

theorem mapM_succeeds_iff :
    (∃ ys, xs.mapM f = .ok ys) ↔ ∀ x ∈ xs, ∃ y, f x = .ok y := by
  constructor
  · rintro ⟨ys, hys⟩
    induction mapM_eq_ok_iff.1 hys with
    | nil => simp
    | cons hx _ ih => exact List.forall_mem_cons.2 ⟨⟨_, hx⟩, ih (mapM_eq_ok_iff.2 ‹_›)⟩
  · intro h
    cases hxs : xs.mapM f with
    | ok ys => exact ⟨ys, rfl⟩
    | error e =>
      obtain ⟨before, x, after, rfl, -, hx⟩ := mapM_eq_error_iff.1 hxs
      obtain ⟨y, hy⟩ := h x (List.mem_append_right _ List.mem_cons_self)
      rw [hx] at hy
      cases hy

end Traversal

/-- A traversal that may come to nothing comes to the results of all members in their order. -/
theorem mapM_eq_some_iff {α β : Type} {f : α → Option β} {xs : List α} {ys : List β} :
    xs.mapM f = some ys ↔ List.Forall₂ (fun x y => f x = some y) xs ys := by
  induction xs generalizing ys with
  | nil =>
    rw [List.forall₂_nil_left_iff]
    exact ⟨fun h => (Option.some.inj h).symm, fun h => h ▸ rfl⟩
  | cons x xs ih =>
    rw [List.mapM_cons, List.forall₂_cons_left_iff]
    simp only [Option.bind_eq_bind, Option.bind_eq_some_iff, ih]
    constructor
    · rintro ⟨y, hx, ys', hxs, hys⟩
      exact ⟨y, ys', hx, hxs, (Option.some.inj hys).symm⟩
    · rintro ⟨y, ys', hx, hxs, rfl⟩
      exact ⟨y, hx, ys', hxs, rfl⟩

/-- A traversal that may come to nothing does so exactly at a member that does. -/
theorem mapM_eq_none_iff {α β : Type} {f : α → Option β} {xs : List α} :
    xs.mapM f = none ↔ ∃ x ∈ xs, f x = none := by
  induction xs with
  | nil => exact ⟨nofun, nofun⟩
  | cons x xs ih =>
    rw [List.mapM_cons]
    simp only [List.mem_cons, exists_eq_or_imp]
    cases hx : f x with
    | none => exact ⟨fun _ => .inl rfl, fun _ => rfl⟩
    | some y =>
      simp only [Option.bind_eq_bind, Option.bind_some, reduceCtorEq, false_or, ← ih]
      cases xs.mapM f with
      | none => exact ⟨fun _ => rfl, fun _ => rfl⟩
      | some ys => exact ⟨nofun, nofun⟩

/-- The results of a traversal in one list with those of the members. -/
theorem mapM_eq_some_iff_map {α β : Type} {f : α → Option β} {xs : List α} {ys : List β} :
    xs.mapM f = some ys ↔ xs.map f = ys.map some := by
  rw [mapM_eq_some_iff, ← List.forall₂_eq_eq_eq, List.forall₂_map_left_iff,
    List.forall₂_map_right_iff]

theorem exists_of_mem_mapM {α β : Type} {f : α → Option β} {xs : List α} {ys : List β}
    (h : xs.mapM f = some ys) {y : β} (hy : y ∈ ys) : ∃ x ∈ xs, f x = some y := by
  induction mapM_eq_some_iff.1 h with
  | nil => cases hy
  | @cons x y' xs ys' hx hxs ih =>
    rcases List.mem_cons.1 hy with rfl | hy
    · exact ⟨x, List.mem_cons_self, hx⟩
    · obtain ⟨x', hx', hf⟩ := ih (mapM_eq_some_iff.2 hxs) hy
      exact ⟨x', List.mem_cons_of_mem x hx', hf⟩

end IntentGate.Traversal
