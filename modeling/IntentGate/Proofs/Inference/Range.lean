import IntentGate.Proofs.Double.Order
import IntentGate.Proofs.Inference.Ensuring

/-!
# The range of confidences

Scores come in unchecked from rules, providers, similarities and options, and so do the values of
vectors: negative, infinite, or no number at all. What leaves a model is clamped: its score is a
number in the unit interval, and no weight of a signal is negative (`Intent.InRange`). Leaves clamp
what they conclude (`Graded.ensures`), a strict model clamps again, and no other model touches
scores or weights, so this is kept by all nesting, and by memories in all runs
(`inRange_of_reached`).
-/

namespace IntentGate

open InferM

/-- A number in the unit interval. -/
structure InUnit (x : Float) : Prop where
  isNaN : x.isNaN = false
  nonneg : 0 ≤ x
  le_one : x ≤ 1

theorem InUnit.zero : InUnit 0 := by
  constructor <;> decide +kernel

theorem InUnit.one : InUnit 1 := by
  constructor <;> decide +kernel

theorem clampScore_inUnit (score : Float) : InUnit (clampScore score) := by
  unfold clampScore
  split
  · exact .zero
  next hnumber =>
  rw [Bool.not_eq_true] at hnumber
  split
  · exact .zero
  next hnonneg =>
  split
  · exact .one
  next hle =>
  exact ⟨hnumber, Double.le_of_not_lt hnumber InUnit.zero.isNaN hnonneg,
    Double.le_of_not_lt InUnit.one.isNaN hnumber hle⟩

theorem clampScore_eq_self_iff {x : Float} : clampScore x = x ↔ InUnit x := by
  constructor
  · intro h
    rw [← h]
    exact clampScore_inUnit x
  · rintro ⟨hnumber, hnonneg, hle⟩
    rw [clampScore, if_neg (Bool.eq_false_iff.1 hnumber), if_neg (Double.not_lt_of_le hnonneg),
      if_neg (Double.not_lt_of_le hle)]

namespace Signal

theorem clampWeight_nonneg (weight : Float) :
    (clampWeight weight).isNaN = false ∧ 0 ≤ clampWeight weight := by
  have hzero : (0 : Float).isNaN = false ∧ (0 : Float) ≤ 0 := by decide +kernel
  unfold clampWeight
  split
  · exact hzero
  next hnumber =>
  rw [Bool.not_eq_true] at hnumber
  split
  · exact hzero
  next hnonneg =>
  exact ⟨hnumber, Double.le_of_not_lt hnumber hzero.1 hnonneg⟩

end Signal

theorem Confidence.make_inUnit (score : Float) (level : Level) : InUnit (make score level).score :=
  clampScore_inUnit score

theorem Confidence.downgraded_inUnit (c : Confidence) : InUnit c.downgraded.score := by
  unfold downgraded
  cases c.level <;> exact make_inUnit _ _

/-- A confidence and weights as models give them: the score is a number in the unit interval, and
the weights are numbers that are not negative. -/
structure Intent.InRange (i : Intent) : Prop where
  score : InUnit i.score
  weights : ∀ s ∈ i.signals, s.weight.isNaN = false ∧ 0 ≤ s.weight

/-- A calculator as it can be made: with the standard thresholds or with accepted ones, or with a
fixed answer from one of the constructors of confidences. -/
inductive Calculator.Made : Calculator → Prop where
  | standard : Made .standard
  | thresholds {medium high certain : Float} {bounds : Thresholds}
      (haccepted : Thresholds.make medium high certain = .ok bounds) : Made (.thresholds bounds)
  | fixed (score : Float) (level : Level) : Made (.fixed (.make score level))
  | nothing : Made (.fixed .nothing)

theorem Calculator.Made.inUnit {c : Calculator} (hc : c.Made) (score : Float) :
    InUnit (c.ofScore score).score := by
  cases hc with
  | standard => exact clampScore_inUnit score
  | thresholds _ => exact clampScore_inUnit score
  | fixed answer level => exact Confidence.make_inUnit answer level
  | nothing => exact clampScore_inUnit 0

namespace Model

/-- The leaves whose scores are graded by a calculator as it can be made, whatever the scores are
made of. -/
inductive Graded : Model → Prop where
  | rules (rules : List IntentRule) {c : Calculator} (hc : c.Made) : Graded (ofRules rules c)
  | similar {provider : Provider} (hprovider : provider.Apart)
      (score : Space → Dict Float → List (Embedding Float) → StateM WallClock Float)
      {c : Calculator} (hc : c.Made) : Graded (ofScoring provider score c.ofScore)

/-- Signals that are made by the constructor of signals have their weights in range. -/
theorem inRange_of_make {i : Intent} (hscore : InUnit i.score)
    (hmade : ∀ s ∈ i.signals, ∃ source description weight,
      s = Signal.make source description weight) : i.InRange := by
  refine ⟨hscore, fun s hs => ?_⟩
  obtain ⟨source, description, weight, rfl⟩ := hmade s hs
  exact Signal.clampWeight_nonneg weight

/-- Leaves ensure the range, and leave the stores of models alone. -/
theorem Graded.ensures {m : Model} (hm : Graded m) (given : Option BehaviorVector) :
    Ensures (Session.Holds Intent.InRange) Intent.InRange (m given) := by
  intro scene hholds
  cases hm with
  | rules rules hc =>
    obtain ⟨name, score, reasoning, next, hrun, hsession⟩ :=
      run_ofRulesGraded rules _ scene
    rw [ofRules, hrun]
    refine ⟨?_, hholds.of_intents_eq (congrArg Session.intents hsession)⟩
    rintro _ ⟨⟩
    refine inRange_of_make (hc.inUnit score) fun s hs => ?_
    obtain ⟨entry, -, rfl⟩ := List.mem_map.1 hs
    exact ⟨_, _, _, rfl⟩
  | similar hprovider score hc =>
    rw [run_ofScoring]
    dsimp only
    have hintents :=
      hprovider.embedAll (given.getD scene.space.vector).dimensions.keys scene.session
    generalize embedAll _ _ scene.session = asked at hintents ⊢
    rcases asked with ⟨_ | es, session⟩
    · exact ⟨nofun, hholds.of_intents_eq hintents⟩
    · refine ⟨?_, hholds.of_intents_eq hintents⟩
      rintro _ ⟨⟩
      refine inRange_of_make (hc.inUnit _) fun s hs => ?_
      obtain ⟨e, -, rfl⟩ := List.mem_map.1 hs
      exact ⟨_, _, _, rfl⟩

theorem Nested.ensures_inRange {m : Model} (hm : Nested Graded m) (given : Option BehaviorVector) :
    Ensures (Session.Holds Intent.InRange) Intent.InRange (m given) := by
  refine hm.ensures ?_ ?_ (fun _ hm => hm.ensures) given
  · intro i _ hi
    exact ⟨hi.score, hi.weights⟩
  · intro i hi
    -- strictness makes a new score, so that of the inner model is not needed here
    exact ⟨Confidence.downgraded_inUnit i.confidence, hi.weights⟩

/-- In every run from empty stores, whatever models of the run have inferred, forgotten and evicted
before, each intent that a model of the run infers has a score that is a number in the unit interval
and signals whose weights are numbers that are not negative. -/
theorem inRange_of_reached {M : Model → Prop} (hM : ∀ m, M m → Nested Graded m) {s : Session}
    (hs : Session.Reached M s) {m : Model} (hm : M m) (given : Option BehaviorVector)
    (space : Space) {i : Intent} (hi : ((m given).onSpace space s).1.1 = .ok i) : i.InRange := by
  have hholds := hs.holds fun m hm => (hM m hm).ensures_inRange
  exact ((hM m hm).ensures_inRange given ⟨space, s⟩ hholds).1 i hi

/-- A rule scores what is no number, a provider less than nothing, and the vector has both; the
second inference is answered by the memory, a chain and a strict model below it. -/
theorem inRange_of_remembered :
    let nan : Float := 0 / 0
    let bounds : Thresholds := ⟨0.2, 0.5, 0.9, by decide +kernel, by decide +kernel,
      by decide +kernel, by decide +kernel⟩
    let rules := ofRules [⟨fun _ => some ⟨"odd", nan, none⟩, fun _ => false⟩] .standard
    let similar := ofSimilarity (.ofAnswers 0 fun key => .ok ⟨key, -(1 / 0), none⟩) .average
      (.thresholds bounds)
    let m := remembering 0 none (strict (chained rules similar (1 / 0)))
    let v : BehaviorVector := ⟨Dict.ofList [("a", nan), ("b", -3)]⟩
    let i : Intent := ⟨similarName, [⟨"ai", "a", 0⟩, ⟨"ai", "b", 0⟩], ⟨0, .low⟩,
      some "Fallback: primary confidence below 1"⟩
    let first := (m (some v)).onSpace .empty {}
    let second := (m (some v)).onSpace .empty first.2
    first.1.1 = .ok i ∧ second.1.1 = .ok i ∧ second.2.journal = first.2.journal ∧ i.InRange := by
  intro nan bounds rules similar m v i first second
  have haccepted : Thresholds.make 0.2 0.5 0.9 = .ok bounds := dif_pos (by decide +kernel)
  have hm : ∀ k, k = m → Nested Graded k := by
    rintro _ rfl
    exact .remembering (.strict (.chained (.leaf (.rules _ .standard))
      (.leaf (.similar (.ofAnswers _ _) _ (.thresholds haccepted)))))
  have hfirst : first.1.1 = .ok i := by decide +kernel
  have hsecond : second.1.1 = .ok i := by decide +kernel
  refine ⟨hfirst, hsecond, by decide +kernel, ?_⟩
  have hfresh : Session.Reached (· = m) {} := .fresh fun _ => rfl
  have hreached : Session.Reached (· = m) first.2 := hfresh.infer rfl .empty (some v)
  unfold second at hsecond
  exact inRange_of_reached hm hreached rfl (some v) .empty hsecond

end Model

end IntentGate
