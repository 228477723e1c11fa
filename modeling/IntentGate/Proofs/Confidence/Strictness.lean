import IntentGate.Proofs.Confidence.Grading
import IntentGate.Proofs.Inference.Origin
import Mathlib.Logic.Function.Iterate

/-!
# Stacks of strict models

A strict model sets the score anew when it lowers the level. Still level and score fit each other
afterwards as they did before, for the set scores lie in the parts of the unit interval that belong
to the lowered levels: a graded confidence is lowered by cutting its score off at the ceiling of its
level (`Coherent.downgraded_eq`). So strictness can be repeated. It takes a level away each time
down to `low`, it never raises a score, and it keeps the order of scores.
-/

namespace IntentGate

/-! ## The smaller of two numbers -/

section Lesser

variable {a b c : Float}

theorem lesser_of_lt (h : b < a) : lesser a b = b := by
  unfold lesser
  rw [if_pos h, ite_self]

theorem lesser_le (ha : a.isNaN = false) (hb : b.isNaN = false) :
    lesser a b ≤ a ∧ lesser a b ≤ b := by
  unfold lesser
  rw [if_neg (Bool.eq_false_iff.1 ha)]
  split
  · next hlt => exact ⟨Double.le_of_lt hlt, Double.le_refl hb⟩
  · next hle => exact ⟨Double.le_refl ha, Double.le_of_not_lt hb ha hle⟩

theorem le_lesser_iff (ha : a.isNaN = false) (hb : b.isNaN = false) :
    c ≤ lesser a b ↔ c ≤ a ∧ c ≤ b := by
  obtain ⟨hleft, hright⟩ := lesser_le ha hb
  constructor
  · intro h
    exact ⟨Double.le_trans h hleft, Double.le_trans h hright⟩
  · rintro ⟨hca, hcb⟩
    unfold lesser
    split_ifs
    · exact hcb
    · exact hcb
    · exact hca

theorem InUnit.lesser (ha : InUnit a) (hb : InUnit b) : InUnit (lesser a b) := by
  unfold IntentGate.lesser
  split_ifs
  · exact hb
  · exact hb
  · exact ha

end Lesser

/-! ## One level down -/

namespace Level

/-- One level down, but not below `low`. -/
def lowered : Level → Level
  | .certain => .high
  | .high => .medium
  | .medium | .low | .none => .low

/-- What a strict model leaves of the scores of a level at most. -/
def ceiling : Level → Float
  | .certain => 0.8
  | .high => 0.55
  | .medium | .low | .none => 0.25

theorem rank_lowered (l : Level) : l.lowered.rank = max low.rank (l.rank - 1) := by
  cases l <;> rfl

theorem inUnit_ceiling (l : Level) : InUnit l.ceiling := by
  cases l <;> constructor <;> decide +kernel

theorem ceiling_le {l l' : Level} (h : l.rank ≤ l'.rank) : l.ceiling ≤ l'.ceiling := by
  have hall : ∀ l ∈ all, ∀ l' ∈ all, l.rank ≤ l'.rank → l.ceiling ≤ l'.ceiling := by
    decide +kernel
  exact hall l l.mem_all l' l'.mem_all h

/-- The ceiling of a level reaches the bounds of the levels below it and no others. -/
theorem bound_le_ceiling_iff (k l : Level) :
    Thresholds.standard.bound k ≤ l.ceiling ↔ k.rank ≤ l.lowered.rank := by
  have hall : ∀ k ∈ all, ∀ l ∈ all,
      Thresholds.standard.bound k ≤ l.ceiling ↔ k.rank ≤ l.lowered.rank := by
    decide +kernel
  exact hall k k.mem_all l l.mem_all

end Level

namespace Confidence

variable {c d : Confidence}

theorem level_downgraded (c : Confidence) : c.downgraded.level = c.level.lowered := by
  unfold downgraded
  cases c.level <;> rfl

/-! ## Coherent confidences -/

/-- The standard calculator gives this confidence for its own score. -/
def Coherent (c : Confidence) : Prop :=
  ofScore c.score = c

/-- Coherent are the clamped scores with the highest level whose standard bound they reach. -/
theorem coherent_iff :
    c.Coherent ↔ InUnit c.score ∧
      ∀ l : Level, l.rank ≤ c.level.rank ↔ Thresholds.standard.bound l ≤ c.score := by
  constructor
  · intro hc
    have hclamp : clampScore c.score = c.score := congrArg score hc
    have hlevel : (ofScore c.score).level = c.level := congrArg level hc
    have hunit := clampScore_eq_self_iff.1 hclamp
    refine ⟨hunit, fun l => ?_⟩
    rw [← hlevel, ← Thresholds.standard.rank_le_iff hunit l]
    change l.rank ≤ (Thresholds.levelOf 0.3 0.6 0.85 (clampScore c.score)).rank ↔ _
    rw [hclamp]
    rfl
  · rintro ⟨hunit, hlevel⟩
    have hclamp := clampScore_eq_self_iff.2 hunit
    have hgrade := Thresholds.standard.rank_le_iff hunit
    have hrank : (Thresholds.levelOf 0.3 0.6 0.85 c.score).rank = c.level.rank := by
      apply Nat.le_antisymm
      · rw [hlevel]
        exact (hgrade _).1 (Nat.le_refl _)
      · apply (hgrade _).2
        exact (hlevel _).1 (Nat.le_refl _)
    change Confidence.mk (clampScore c.score)
      (Thresholds.levelOf 0.3 0.6 0.85 (clampScore c.score)) = c
    rw [hclamp, Level.rank_injective hrank]

theorem coherent_ofScore (x : Float) : (ofScore x).Coherent :=
  coherent_iff.2 ⟨clampScore_inUnit x, Thresholds.standard.rank_le_iff (clampScore_inUnit x)⟩

namespace Coherent

theorem rank_le (hc : c.Coherent) (hd : d.Coherent) (h : c.score ≤ d.score) :
    c.level.rank ≤ d.level.rank := by
  obtain ⟨-, hlevel⟩ := coherent_iff.1 hc
  obtain ⟨-, hlevel'⟩ := coherent_iff.1 hd
  rw [hlevel']
  exact Double.le_trans ((hlevel _).1 (Nat.le_refl _)) h

/-- A strict model cuts the score off at the ceiling of its level. -/
theorem downgraded_eq (hc : c.Coherent) :
    c.downgraded = ⟨lesser c.score c.level.ceiling, c.level.lowered⟩ := by
  obtain ⟨hunit, hlevel⟩ := coherent_iff.1 hc
  have hbound := (hlevel _).1 (Nat.le_refl _)
  have hcut (h : c.level.ceiling < Thresholds.standard.bound c.level) :
      make c.level.ceiling c.level.lowered = ⟨lesser c.score c.level.ceiling, c.level.lowered⟩ := by
    rw [lesser_of_lt (Double.lt_of_lt_of_le h hbound), make,
      clampScore_eq_self_iff.2 c.level.inUnit_ceiling]
  have hkept : clampScore (lesser c.score c.level.ceiling) = lesser c.score c.level.ceiling :=
    clampScore_eq_self_iff.2 (hunit.lesser c.level.inUnit_ceiling)
  unfold downgraded
  generalize c.level = l at hcut hkept
  cases l with
  | certain => exact hcut (by decide +kernel)
  | high => exact hcut (by decide +kernel)
  | medium => exact hcut (by decide +kernel)
  | low => exact congrArg (mk · .low) hkept
  | none => exact congrArg (mk · .low) hkept

theorem low_le (hc : c.Coherent) : Level.low.rank ≤ c.level.rank := by
  obtain ⟨hunit, hlevel⟩ := coherent_iff.1 hc
  exact (hlevel .low).2 hunit.nonneg

theorem downgraded (hc : c.Coherent) : c.downgraded.Coherent := by
  obtain ⟨hunit, hlevel⟩ := coherent_iff.1 hc
  have hceiling := c.level.inUnit_ceiling
  have hlowered : c.level.lowered.rank ≤ c.level.rank := by
    have hlow : 1 ≤ c.level.rank := hc.low_le
    rw [Level.rank_lowered]
    change max 1 _ ≤ _
    omega
  rw [hc.downgraded_eq, coherent_iff]
  refine ⟨hunit.lesser hceiling, fun l => ?_⟩
  dsimp only
  rw [le_lesser_iff hunit.isNaN hceiling.isNaN, ← hlevel, Level.bound_le_ceiling_iff]
  omega

theorem score_downgraded_le (hc : c.Coherent) : c.downgraded.score ≤ c.score := by
  rw [hc.downgraded_eq]
  exact (lesser_le (coherent_iff.1 hc).1.isNaN c.level.inUnit_ceiling.isNaN).1

theorem score_downgraded_mono (hc : c.Coherent) (hd : d.Coherent) (h : c.score ≤ d.score) :
    c.downgraded.score ≤ d.downgraded.score := by
  have hceilings := Level.ceiling_le (hc.rank_le hd h)
  obtain ⟨hscore, hceiling⟩ :=
    lesser_le (coherent_iff.1 hc).1.isNaN c.level.inUnit_ceiling.isNaN
  rw [hc.downgraded_eq, hd.downgraded_eq]
  apply (le_lesser_iff (coherent_iff.1 hd).1.isNaN d.level.inUnit_ceiling.isNaN).2
  exact ⟨Double.le_trans hscore h, Double.le_trans hceiling hceilings⟩

/-! ## Many levels down -/

theorem iterate (hc : c.Coherent) (k : Nat) : (Confidence.downgraded^[k] c).Coherent := by
  induction k with
  | zero => exact hc
  | succ k ih =>
    rw [Function.iterate_succ_apply']
    exact ih.downgraded

theorem rank_iterate (hc : c.Coherent) (k : Nat) :
    (Confidence.downgraded^[k] c).level.rank = max Level.low.rank (c.level.rank - k) := by
  have hlow := hc.low_le
  induction k with
  | zero =>
    rw [Function.iterate_zero_apply]
    omega
  | succ k ih =>
    rw [Function.iterate_succ_apply', level_downgraded, Level.rank_lowered, ih]
    omega

theorem score_iterate_le (hc : c.Coherent) (k : Nat) :
    (Confidence.downgraded^[k] c).score ≤ c.score := by
  induction k with
  | zero => exact Double.le_refl (coherent_iff.1 hc).1.isNaN
  | succ k ih =>
    rw [Function.iterate_succ_apply']
    exact Double.le_trans (hc.iterate k).score_downgraded_le ih

theorem score_iterate_mono (hc : c.Coherent) (hd : d.Coherent) (h : c.score ≤ d.score) (k : Nat) :
    (Confidence.downgraded^[k] c).score ≤ (Confidence.downgraded^[k] d).score := by
  induction k with
  | zero => exact h
  | succ k ih =>
    rw [Function.iterate_succ_apply', Function.iterate_succ_apply']
    exact (hc.iterate k).score_downgraded_mono (hd.iterate k) ih

end Coherent

end Confidence

namespace Model

variable {given : Option BehaviorVector}

theorem run_strict_iterate (k : Nat) (m : Model) (scene : Scene) :
    (strict^[k] m given).run scene =
      ((m given).run scene).map
        (Except.map fun i => { i with confidence := Confidence.downgraded^[k] i.confidence })
        id := by
  induction k with
  | zero =>
    simp only [Function.iterate_zero, id]
    rcases (m given).run scene with ⟨_ | i, next⟩ <;> rfl
  | succ k ih =>
    rw [Function.iterate_succ_apply', run_strict, ih]
    simp only [Function.iterate_succ_apply']
    -- by `rfl`, the two ways to lower would be compared first
    rcases (m given).run scene with ⟨_ | i, next⟩ <;> simp only [Prod.map, Except.map, id]

/-- A model behind any number of strict ones fails as it does by itself, and infers the same intent
with another confidence, in the same scene. If the standard calculator has made the confidence, each
strict model takes one level away until it is `low`, the score is not raised, and the calculator
gives the same confidence again for what is left of the score. Of two scores, what is no number
counted as zero, the lower one is lowered to a score and a level that are not higher than those of
the other. -/
theorem strict_stacks_coherent (k : Nat) (m : Model) (given : Option BehaviorVector)
    (scene : Scene) :
    (∀ e next, (m given).run scene = (.error e, next) →
      (strict^[k] m given).run scene = (.error e, next)) ∧
    (∀ i next, (m given).run scene = (.ok i, next) →
      ∃ j, (strict^[k] m given).run scene = (.ok j, next) ∧
        j.name = i.name ∧ j.signals = i.signals ∧ j.reasoning = i.reasoning ∧
        j.confidence = Confidence.downgraded^[k] i.confidence ∧
        ∀ x, i.confidence = .ofScore x →
          j.level.rank = max Level.low.rank (i.level.rank - k) ∧ j.score ≤ i.score ∧
          Confidence.ofScore j.score = j.confidence) ∧
    ∀ a b, Double.orZero a ≤ Double.orZero b →
      let c := Confidence.downgraded^[k] (.ofScore a)
      let d := Confidence.downgraded^[k] (.ofScore b)
      c.score ≤ d.score ∧ c.level.rank ≤ d.level.rank := by
  have hrun : (strict^[k] m given).run scene = _ := run_strict_iterate k m scene
  refine ⟨fun e next hfault => ?_, fun i next hintent => ?_, ?_⟩
  · rw [hrun, hfault]
    rfl
  · rw [hintent] at hrun
    refine ⟨_, hrun, rfl, rfl, rfl, rfl, fun x hx => ?_⟩
    have hcoherent : i.confidence.Coherent := hx ▸ Confidence.coherent_ofScore x
    exact ⟨hcoherent.rank_iterate k, hcoherent.score_iterate_le k, hcoherent.iterate k⟩
  · intro a b hab c d
    have hc := (Confidence.coherent_ofScore a).iterate k
    have hd := (Confidence.coherent_ofScore b).iterate k
    have hscore : c.score ≤ d.score :=
      (Confidence.coherent_ofScore a).score_iterate_mono (Confidence.coherent_ofScore b)
        (Thresholds.score_le (t := .standard) hab) k
    exact ⟨hscore, hc.rank_le hd hscore⟩

/-- Two strict models take a certain intent down to a medium one, and leave the fault of a provider
as it is. What is no number is lowered like zero, so not above the least certain score. -/
theorem strict_stacks_coherent_two :
    let nan : Float := 0 / 0
    let failure : ProviderFailure := ⟨"table", .timeout, "late"⟩
    let certain : Model := ofRules [⟨fun _ => some ⟨"login", 0.95, some "seen"⟩, fun _ => false⟩]
      .standard
    let failing : Model := ofSimilarity (.ofAnswers 0 fun _ => .error failure) .average .standard
    let scene : Scene := ⟨Space.empty.observe ⟨"u", "login", default, .empty⟩, {}⟩
    (∃ next, (strict^[2] failing none).run scene = (.error (.provider failure), next)) ∧
    (∃ j next, (strict^[2] certain none).run scene = (.ok j, next) ∧
      j.name = "login" ∧ j.signals = [.make "rule" "u:login" 1] ∧ j.reasoning = some "seen" ∧
      j.confidence = ⟨0.55, .medium⟩ ∧ j.level.rank = 4 - 2 ∧ j.score ≤ 0.95 ∧
      Confidence.ofScore j.score = j.confidence) ∧
    (Confidence.downgraded^[2] (.ofScore nan)).score ≤
      (Confidence.downgraded^[2] (.ofScore 0.85)).score := by
  intro nan failure certain failing scene
  have hfault : ((failing none).run scene).1 = .error (.provider failure) := by decide +kernel
  have hintent : ((certain none).run scene).1 =
      .ok ⟨"login", [.make "rule" "u:login" 1], .ofScore 0.95, some "seen"⟩ := by decide +kernel
  obtain ⟨hfails, -, -⟩ := strict_stacks_coherent 2 failing none scene
  obtain ⟨-, hinfers, hmono⟩ := strict_stacks_coherent 2 certain none scene
  obtain ⟨j, hrun, hname, hsignals, hreasoning, hconfidence, hcoherent⟩ :=
    hinfers _ _ (Prod.ext hintent rfl)
  obtain ⟨hrank, hscore, hsame⟩ := hcoherent 0.95 rfl
  refine ⟨⟨_, hfails _ _ (Prod.ext hfault rfl)⟩,
    ⟨j, _, hrun, hname, hsignals, hreasoning, ?_, ?_, ?_, hsame⟩, ?_⟩
  · rw [hconfidence]
    decide +kernel
  · rw [hrank]
    decide +kernel
  · exact Double.le_trans hscore (by decide +kernel)
  · exact (hmono nan 0.85 (by decide +kernel)).1

end Model

end IntentGate
