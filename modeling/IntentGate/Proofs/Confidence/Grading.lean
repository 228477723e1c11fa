import IntentGate.Proofs.Inference.Range

/-!
# Grading scores

Calculators with thresholds take every score there is. What is no number counts as zero, the rest is
moved to the nearest number in the unit interval (`ClampsTo`), and the level is the highest one
whose bound is reached: a level and those above it are given from its bound on
(`Thresholds.rank_le_iff`). So greater scores have no lower levels and no level is left out, as long
as the bounds are in order, which is all that `Thresholds.make` asks for.
-/

namespace IntentGate

/-! ## Clamping -/

/-- The number that a double counts as: itself, or zero if it is none. -/
def Double.orZero (x : Float) : Float :=
  if x.isNaN then 0 else x

/-- The second double is the number in the unit interval that is nearest to the first. -/
inductive ClampsTo (x : Float) : Float → Prop where
  | below (h : x < 0) : ClampsTo x 0
  | within (h : InUnit x) : ClampsTo x x
  | above (h : 1 < x) : ClampsTo x 1

theorem clampsTo_clampScore (x : Float) : ClampsTo (Double.orZero x) (clampScore x) := by
  have hunit := clampScore_inUnit x
  unfold Double.orZero
  unfold clampScore at hunit ⊢
  split
  · exact .within .zero
  · next hnumber =>
    rw [if_neg hnumber] at hunit
    split
    · next hlt => exact .below hlt
    · next hnonneg =>
      rw [if_neg hnonneg] at hunit
      split
      · next hgt => exact .above hgt
      · next hle =>
        rw [if_neg hle] at hunit
        exact .within hunit

/-- Clamping keeps the order. -/
theorem ClampsTo.le {a b s t : Float} (hs : ClampsTo a s) (ht : ClampsTo b t) (hab : a ≤ b) :
    s ≤ t := by
  cases hs with
  | below _ =>
    cases ht with
    | below _ => exact InUnit.zero.nonneg
    | within hb => exact hb.nonneg
    | above _ => exact InUnit.zero.le_one
  | within ha =>
    cases ht with
    | below hb => exact absurd hb (Double.not_lt_of_le (Double.le_trans ha.nonneg hab))
    | within _ => exact hab
    | above _ => exact ha.le_one
  | above ha =>
    have hb := Double.lt_of_lt_of_le ha hab
    cases ht with
    | below hlt =>
      have hnonneg := Double.le_trans InUnit.zero.le_one (Double.le_of_lt hb)
      exact absurd hlt (Double.not_lt_of_le hnonneg)
    | within hunit => exact absurd hb (Double.not_lt_of_le hunit.le_one)
    | above _ => exact InUnit.one.le_one

namespace Thresholds

/-! ## Levels and their bounds -/

/-- The least clamped score of a level; zero is the bound of all scores. -/
def bound (t : Thresholds) : Level → Float
  | .none | .low => 0
  | .medium => t.medium
  | .high => t.high
  | .certain => t.certain

theorem inUnit_bound (t : Thresholds) (l : Level) : InUnit (t.bound l) := by
  have hmedium := Double.le_of_lt t.medium_pos
  have hhigh := Double.le_trans hmedium (Double.le_of_lt t.medium_lt_high)
  have hcertain := Double.le_trans hhigh (Double.le_of_lt t.high_lt_certain)
  have hhigh' := Double.le_trans (Double.le_of_lt t.high_lt_certain) t.certain_le_one
  have hmedium' := Double.le_trans (Double.le_of_lt t.medium_lt_high) hhigh'
  cases l with
  | none => exact .zero
  | low => exact .zero
  | medium => exact ⟨(Double.le_iff.1 hmedium).2.1, hmedium, hmedium'⟩
  | high => exact ⟨(Double.le_iff.1 hhigh).2.1, hhigh, hhigh'⟩
  | certain => exact ⟨(Double.le_iff.1 hcertain).2.1, hcertain, t.certain_le_one⟩

variable (t : Thresholds) {s : Float}

/-- The four parts into which the bounds cut the numbers. -/
theorem levelOf_cases (hs : s.isNaN = false) :
    (s < t.medium ∧ levelOf t.medium t.high t.certain s = .low) ∨
    (t.medium ≤ s ∧ s < t.high ∧ levelOf t.medium t.high t.certain s = .medium) ∨
    (t.high ≤ s ∧ s < t.certain ∧ levelOf t.medium t.high t.certain s = .high) ∨
    (t.certain ≤ s ∧ levelOf t.medium t.high t.certain s = .certain) := by
  have hreached {l : Level} (h : ¬s < t.bound l) : t.bound l ≤ s :=
    Double.le_of_not_lt hs (t.inUnit_bound l).isNaN h
  unfold levelOf
  split
  · next hlow => exact .inl ⟨hlow, rfl⟩
  · next hmedium =>
    split
    · next hhigh => exact .inr (.inl ⟨hreached (l := .medium) hmedium, hhigh, rfl⟩)
    · next hhigh =>
      split
      · next hcertain => exact .inr (.inr (.inl ⟨hreached (l := .high) hhigh, hcertain, rfl⟩))
      · next hcertain => exact .inr (.inr (.inr ⟨hreached (l := .certain) hcertain, rfl⟩))

/-- A level or a higher one is given from the bound of the level on. -/
theorem rank_le_iff (hs : InUnit s) (l : Level) :
    l.rank ≤ (levelOf t.medium t.high t.certain s).rank ↔ t.bound l ≤ s := by
  have hzero : (0 : Float) ≤ s := hs.nonneg
  have hmedium := Double.le_of_lt t.medium_lt_high
  have hhigh := Double.le_of_lt t.high_lt_certain
  rcases t.levelOf_cases hs.isNaN with ⟨hlt, heq⟩ | ⟨hle, hlt, heq⟩ | ⟨hle, hlt, heq⟩ | ⟨hle, heq⟩
  · have hnot {b : Float} (hb : t.medium ≤ b) : ¬b ≤ s := fun h =>
      Double.not_lt_of_le (Double.le_trans hb h) hlt
    have hmedium' := hnot (Double.le_refl (t.inUnit_bound .medium).isNaN)
    have hhigh' := hnot hmedium
    have hcertain' := hnot (Double.le_trans hmedium hhigh)
    rw [heq]
    cases l <;> simp [Level.rank, bound, hzero, hmedium', hhigh', hcertain']
  · have hhigh' : ¬t.high ≤ s := fun h => Double.not_lt_of_le h hlt
    have hcertain' : ¬t.certain ≤ s := fun h => hhigh' (Double.le_trans hhigh h)
    rw [heq]
    cases l <;> simp [Level.rank, bound, hzero, hle, hhigh', hcertain']
  · have hmedium' : t.medium ≤ s := Double.le_trans hmedium hle
    have hcertain' : ¬t.certain ≤ s := fun h => Double.not_lt_of_le h hlt
    rw [heq]
    cases l <;> simp [Level.rank, bound, hzero, hle, hmedium', hcertain']
  · have hhigh' : t.high ≤ s := Double.le_trans hhigh hle
    have hmedium' : t.medium ≤ s := Double.le_trans hmedium hhigh'
    rw [heq]
    cases l <;> simp [Level.rank, bound, hzero, hle, hmedium', hhigh']

theorem levelOf_ne_none (s : Float) : levelOf t.medium t.high t.certain s ≠ .none := by
  unfold levelOf
  split_ifs <;> exact nofun

/-- At its bound each level is given. -/
theorem levelOf_bound {l : Level} (hl : l ≠ .none) :
    levelOf t.medium t.high t.certain (t.bound l) = l := by
  have hirrefl (l : Level) : ¬t.bound l < t.bound l :=
    Double.not_lt_of_le (Double.le_refl (t.inUnit_bound l).isNaN)
  have hmedium := Double.not_lt_of_le (Double.le_of_lt t.medium_lt_high)
  have hhigh := Double.not_lt_of_le (Double.le_of_lt t.high_lt_certain)
  have hfar := Double.not_lt_of_le
    (Double.le_trans (Double.le_of_lt t.medium_lt_high) (Double.le_of_lt t.high_lt_certain))
  unfold levelOf
  cases l with
  | none => exact absurd rfl hl
  | low => exact if_pos t.medium_pos
  | medium => exact (if_neg (hirrefl .medium)).trans (if_pos t.medium_lt_high)
  | high => exact (if_neg hmedium).trans ((if_neg (hirrefl .high)).trans (if_pos t.high_lt_certain))
  | certain => exact (if_neg hfar).trans ((if_neg hhigh).trans (if_neg (hirrefl .certain)))

end Thresholds

/-! ## Grades of all scores -/

namespace Thresholds

/-- The bounds of the standard calculator. -/
def standard : Thresholds where
  medium := 0.3
  high := 0.6
  certain := 0.85
  medium_pos := by decide +kernel
  medium_lt_high := by decide +kernel
  high_lt_certain := by decide +kernel
  certain_le_one := by decide +kernel

variable {t : Thresholds}

theorem make_eq_ok_iff {medium high certain : Float} :
    make medium high certain = .ok t ↔
      t.medium = medium ∧ t.high = high ∧ t.certain = certain := by
  unfold make
  constructor
  · intro hmake
    split at hmake
    · cases hmake
      exact ⟨rfl, rfl, rfl⟩
    · cases hmake
  · rintro ⟨rfl, rfl, rfl⟩
    exact dif_pos ⟨t.medium_pos, t.medium_lt_high, t.high_lt_certain, t.certain_le_one⟩

theorem exists_make_iff {medium high certain : Float} :
    (∃ t, make medium high certain = .ok t) ↔
      0 < medium ∧ medium < high ∧ high < certain ∧ certain ≤ 1 := by
  constructor
  · rintro ⟨t, hmake⟩
    obtain ⟨rfl, rfl, rfl⟩ := make_eq_ok_iff.1 hmake
    exact ⟨t.medium_pos, t.medium_lt_high, t.high_lt_certain, t.certain_le_one⟩
  · intro hordered
    exact ⟨_, dif_pos hordered⟩

theorem score_le {a b : Float} (hab : Double.orZero a ≤ Double.orZero b) :
    ((Calculator.thresholds t).ofScore a).score ≤ ((Calculator.thresholds t).ofScore b).score :=
  (clampsTo_clampScore a).le (clampsTo_clampScore b) hab

/-- Greater scores have no lower levels. -/
theorem level_le {a b : Float} (hab : Double.orZero a ≤ Double.orZero b) :
    ((Calculator.thresholds t).ofScore a).level.rank ≤
      ((Calculator.thresholds t).ofScore b).level.rank := by
  have hreached := (t.rank_le_iff (clampScore_inUnit a) _).1 (Nat.le_refl _)
  have hscore := score_le (t := t) hab
  exact (t.rank_le_iff (clampScore_inUnit b) _).2 (Double.le_trans hreached hscore)

/-- Three bounds are accepted exactly if they ascend from above zero to one at most, so none of them
is anything but a number; else the error names them. With accepted bounds every score whatever has a
grade: its clamped score, with what is no number counted as zero, and the highest level whose bound
that reaches. The grade of a greater score is not lower, and every level above none is the grade of
some score. The standard bounds are accepted, and grade as the standard calculator does. -/
theorem grades_without_gaps (medium high certain : Float) :
    ((∃ t, make medium high certain = .ok t) ↔
      0 < medium ∧ medium < high ∧ high < certain ∧ certain ≤ 1) ∧
    (¬(0 < medium ∧ medium < high ∧ high < certain ∧ certain ≤ 1) →
      make medium high certain =
        .error (.invalidValue "thresholds" (disorderReason medium high certain))) ∧
    (∀ t, make medium high certain = .ok t →
      medium.isNaN = false ∧ high.isNaN = false ∧ certain.isNaN = false ∧
      t.bound .medium = medium ∧ t.bound .high = high ∧ t.bound .certain = certain ∧
      (∀ a b, Double.orZero a ≤ Double.orZero b →
        ((Calculator.thresholds t).ofScore a).score ≤ ((Calculator.thresholds t).ofScore b).score ∧
        ((Calculator.thresholds t).ofScore a).level.rank ≤
          ((Calculator.thresholds t).ofScore b).level.rank) ∧
      (∀ x, let c := (Calculator.thresholds t).ofScore x
        ClampsTo (Double.orZero x) c.score ∧ 0 ≤ c.score ∧ c.score ≤ 1 ∧ c.level ≠ .none ∧
        t.bound c.level ≤ c.score ∧ ∀ l, t.bound l ≤ c.score → l.rank ≤ c.level.rank) ∧
      ∀ l, l ≠ .none → ∃ x, ((Calculator.thresholds t).ofScore x).level = l) ∧
    ∃ t, make 0.3 0.6 0.85 = .ok t ∧
      ∀ x, (Calculator.thresholds t).ofScore x = Calculator.standard.ofScore x := by
  refine ⟨exists_make_iff, fun hordered => dif_neg hordered, ?_, standard, ?_⟩
  · intro t hmake
    obtain ⟨rfl, rfl, rfl⟩ := make_eq_ok_iff.1 hmake
    refine ⟨(t.inUnit_bound .medium).isNaN, (t.inUnit_bound .high).isNaN,
      (t.inUnit_bound .certain).isNaN, rfl, rfl, rfl, ?_, ?_, ?_⟩
    · intro a b hab
      exact ⟨score_le hab, level_le hab⟩
    · intro x c
      have hunit : InUnit c.score := clampScore_inUnit x
      have hlevel (l : Level) : l.rank ≤ c.level.rank ↔ t.bound l ≤ c.score := t.rank_le_iff hunit l
      exact ⟨clampsTo_clampScore x, hunit.nonneg, hunit.le_one, t.levelOf_ne_none _,
        (hlevel _).1 (Nat.le_refl _), fun l => (hlevel l).2⟩
    · intro l hl
      have hclamp : clampScore (t.bound l) = t.bound l :=
        clampScore_eq_self_iff.2 (t.inUnit_bound l)
      refine ⟨t.bound l, ?_⟩
      change levelOf t.medium t.high t.certain (clampScore (t.bound l)) = l
      rw [hclamp]
      exact t.levelOf_bound hl
  · exact ⟨make_eq_ok_iff.2 ⟨rfl, rfl, rfl⟩, fun _ => rfl⟩

/-- Between bounds that are neighbours there is still a score of each level; what is no number has
the lowest grade of all, and an infinite score the highest. A bound that is no number is refused. -/
theorem grades_without_gaps_of_neighbours :
    let nan : Float := 0 / 0
    let t : Thresholds := ⟨0.5, 0.5000000000000001, 0.5000000000000002, by decide +kernel,
      by decide +kernel, by decide +kernel, by decide +kernel⟩
    let grade := (Calculator.thresholds t).ofScore
    make 0.5 0.5000000000000001 0.5000000000000002 = .ok t ∧
      (grade nan).level.rank ≤ (grade (1 / 0)).level.rank ∧
      grade nan = ⟨0, .low⟩ ∧ grade (1 / 0) = ⟨1, .certain⟩ ∧
      (grade 0.5).level = .medium ∧ (∃ x, (grade x).level = .high) ∧
      make 0.5 nan 0.9 = .error (.invalidValue "thresholds"
        "expected 0 < medium < high < certain <= 1, got 0.5, NaN, 0.9") := by
  intro nan t grade
  obtain ⟨-, -, hgrades, -⟩ :=
    grades_without_gaps 0.5 0.5000000000000001 0.5000000000000002
  obtain ⟨-, hrefused, -⟩ := grades_without_gaps 0.5 nan 0.9
  have hmake : make 0.5 0.5000000000000001 0.5000000000000002 = .ok t :=
    make_eq_ok_iff.2 ⟨rfl, rfl, rfl⟩
  obtain ⟨-, -, -, -, -, -, hle, -, hreached⟩ := hgrades t hmake
  have hnan : Double.orZero nan ≤ Double.orZero (1 / 0) := by decide +kernel
  have htext : disorderReason 0.5 nan 0.9 =
      "expected 0 < medium < high < certain <= 1, got 0.5, NaN, 0.9" := by decide +kernel
  refine ⟨hmake, (hle nan (1 / 0) hnan).2, by decide +kernel, by decide +kernel, by decide +kernel,
    hreached .high nofun, ?_⟩
  rw [← htext]
  exact hrefused (by decide +kernel)

end Thresholds

end IntentGate
