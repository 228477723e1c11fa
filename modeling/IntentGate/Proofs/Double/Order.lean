import Mathlib

/-!
# The order of doubles

Each double has a place in a linear order, and doubles that are numbers compare as their places do
(`lt_iff`, `le_iff`); the two zeros share a place. What is not a number compares with nothing. So
the order is total among numbers (`lt_or_beq_or_gt`), and whatever is in it is a number.
-/

namespace IntentGate.Double

open Float.Model Float.Model.UnpackedFloat

/-- The place of a double: first by sign and kind, then by exponent, then by significand. -/
def place : UnpackedFloat → Int ×ₗ Int ×ₗ Int
  | .infinity .negative => toLex (-2, toLex (0, 0))
  | .finite .negative m e _ => toLex (-1, toLex (-e, -(m : Int)))
  | .zero _ | .notANumber => toLex (0, toLex (0, 0))
  | .finite .positive m e _ => toLex (1, toLex (e, (m : Int)))
  | .infinity .positive => toLex (2, toLex (0, 0))

theorem then_compare (e f : Int) (m n : Nat) :
    (compare e f).then (compare m n) =
      if e < f ∨ e = f ∧ m < n then .lt else if f < e ∨ f = e ∧ n < m then .gt else .eq := by
  rcases Int.lt_trichotomy e f with h | rfl | h
  · rw [Int.compare_eq_lt.2 h, if_pos (.inl h)]
    rfl
  · rw [Int.compare_eq_eq.2 rfl, Ordering.eq_then, Nat.compare_eq_ite_lt]
    simp
  · rw [Int.compare_eq_gt.2 h, if_neg (by omega), if_pos (.inl h)]
    rfl

/-- Numbers compare as their places do. -/
theorem compare_eq_cmp {u v : UnpackedFloat} (hu : u.isNaN = false) (hv : v.isNaN = false) :
    u.compare v = some (cmp (place u) (place v)) := by
  have hsigns : compare Sign.negative Sign.positive = .lt ∧
      compare Sign.positive Sign.negative = .gt ∧ ∀ s : Sign, compare s s = .eq :=
    ⟨rfl, rfl, fun s => by cases s <;> rfl⟩
  rcases u with (_ | _) | _ | (_ | _) | ⟨_ | _, m, e, hm⟩ <;>
  rcases v with (_ | _) | _ | (_ | _) | ⟨_ | _, n, f, hn⟩ <;>
  simp_all [UnpackedFloat.compare, UnpackedFloat.isNaN, place, cmp, cmpUsing,
    Prod.Lex.toLex_lt_toLex, then_compare]
  -- what is left are two negative numbers, whose magnitudes compare the other way round
  split_ifs <;> first | rfl | omega

theorem compare_eq_some_iff {u v : UnpackedFloat} {o : Ordering} :
    u.compare v = some o ↔ u.isNaN = false ∧ v.isNaN = false ∧ cmp (place u) (place v) = o := by
  by_cases h : u.isNaN = false ∧ v.isNaN = false
  · rw [compare_eq_cmp h.1 h.2, Option.some.injEq]
    exact ⟨fun ho => ⟨h.1, h.2, ho⟩, fun ho => ho.2.2⟩
  · refine iff_of_false (fun ho => ?_) fun ho => h ⟨ho.1, ho.2.1⟩
    cases u <;> cases v <;> first | exact h ⟨rfl, rfl⟩ | cases ho

variable {a b : Float}

theorem lt_iff : a < b ↔
    a.isNaN = false ∧ b.isNaN = false ∧ place a.toModel.unpack < place b.toModel.unpack := by
  have hlt : a < b ↔ a.toModel.unpack.compare b.toModel.unpack = some .lt := by
    change decide (a.toModel.unpack.lt b.toModel.unpack = true) = true ↔ _
    rw [decide_eq_true_iff, UnpackedFloat.lt, beq_iff_eq]
  rw [hlt, compare_eq_some_iff, cmp_eq_lt_iff]
  rfl

theorem le_iff : a ≤ b ↔
    a.isNaN = false ∧ b.isNaN = false ∧ place a.toModel.unpack ≤ place b.toModel.unpack := by
  have hle : a ≤ b ↔ ∃ o, a.toModel.unpack.compare b.toModel.unpack = some o ∧ o.isLE = true := by
    change decide (a.toModel.unpack.le b.toModel.unpack = true) = true ↔ _
    rw [decide_eq_true_iff, UnpackedFloat.le, Option.any_eq_true]
  rw [hle]
  simp only [compare_eq_some_iff]
  constructor
  · rintro ⟨o, ⟨ha, hb, rfl⟩, ho⟩
    rw [Ordering.isLE_iff_ne_gt, cmp_eq_gt_iff, not_lt] at ho
    exact ⟨ha, hb, ho⟩
  · rintro ⟨ha, hb, h⟩
    refine ⟨_, ⟨ha, hb, rfl⟩, ?_⟩
    rw [Ordering.isLE_iff_ne_gt, cmp_eq_gt_iff, not_lt]
    exact h

theorem le_of_not_lt (ha : a.isNaN = false) (hb : b.isNaN = false) (h : ¬a < b) : b ≤ a :=
  le_iff.2 ⟨hb, ha, not_lt.1 fun hlt => h (lt_iff.2 ⟨ha, hb, hlt⟩)⟩

theorem not_lt_of_le (h : b ≤ a) : ¬a < b := fun hlt =>
  not_lt.2 (le_iff.1 h).2.2 (lt_iff.1 hlt).2.2

theorem le_of_lt (h : a < b) : a ≤ b := by
  rw [lt_iff] at h
  exact le_iff.2 ⟨h.1, h.2.1, h.2.2.le⟩

theorem le_refl (ha : a.isNaN = false) : a ≤ a :=
  le_iff.2 ⟨ha, ha, le_rfl⟩

theorem le_trans {c : Float} (hab : a ≤ b) (hbc : b ≤ c) : a ≤ c := by
  rw [le_iff] at hab hbc ⊢
  exact ⟨hab.1, hbc.2.1, hab.2.2.trans hbc.2.2⟩

theorem lt_of_lt_of_le {c : Float} (hab : a < b) (hbc : b ≤ c) : a < c := by
  rw [lt_iff] at hab ⊢
  rw [le_iff] at hbc
  exact ⟨hab.1, hbc.2.1, hab.2.2.trans_le hbc.2.2⟩

/-- Of two numbers, either the first one is smaller or the second one is at most as great. -/
theorem lt_iff_not_le (ha : a.isNaN = false) (hb : b.isNaN = false) : a < b ↔ ¬b ≤ a :=
  ⟨fun h hle => not_lt_of_le hle h, fun h => not_not.1 fun hlt => h (le_of_not_lt ha hb hlt)⟩

theorem beq_iff_le : (a == b) = true ↔ a ≤ b ∧ b ≤ a := by
  have hbeq : (a == b) = true ↔ a.toModel.unpack.compare b.toModel.unpack = some .eq := by
    change a.toModel.unpack.beq b.toModel.unpack = true ↔ _
    rw [UnpackedFloat.beq, beq_iff_eq]
  rw [hbeq, compare_eq_some_iff, cmp_eq_eq_iff, le_iff, le_iff]
  constructor
  · rintro ⟨ha, hb, hplace⟩
    exact ⟨⟨ha, hb, hplace.le⟩, hb, ha, hplace.ge⟩
  · rintro ⟨⟨ha, hb, hle⟩, -, -, hge⟩
    exact ⟨ha, hb, le_antisymm hle hge⟩

theorem lt_or_beq_or_gt (ha : a.isNaN = false) (hb : b.isNaN = false) :
    a < b ∨ (a == b) = true ∨ b < a := by
  by_cases hlt : a < b
  · exact .inl hlt
  · by_cases hgt : b < a
    · exact .inr (.inr hgt)
    · exact .inr (.inl (beq_iff_le.2 ⟨le_of_not_lt hb ha hgt, le_of_not_lt ha hb hlt⟩))

end IntentGate.Double
