import IntentGate.Inference.Session

/-!
# Combined models

Models made of other models. A chain falls back to a second model when the first is not confident
enough, and stages go on until one of them is; both say so in the reasoning. A window shows the
inner model only the events of a stretch of time. A strict model lowers the confidence. Measuring a
model and using it for batches leave its inferences as they are. A fault of an inner model ends the
inference.
-/

namespace IntentGate

/-- A model with the score from which on its intents are accepted. -/
structure Stage where
  model : Model
  threshold : Float

/-- A stage with a clamped threshold. -/
def Stage.make (model : Model) (threshold : Float) : Stage :=
  ⟨model, clampScore threshold⟩

namespace Model

/-! ## Chains -/

/-- The threshold of chains when none is chosen. -/
def chainThreshold : Float := 0.7

/-- The reasoning of the primary model of a chain. -/
def primaryReasoning (i : Intent) : String :=
  match i.reasoning with
  | some r => "Primary: " ++ r
  | none => "Primary: confidence above threshold"

/-- The reasoning of the fallback of a chain with a threshold. -/
def fallbackReasoning (threshold : Float) (i : Intent) : String :=
  match i.reasoning with
  | some r => "Fallback: " ++ r
  | none => "Fallback: primary confidence below " ++ Layout.plain.text threshold

/-- The primary model where its score reaches the clamped threshold, and else the fallback. -/
def chained (primary fallback : Model) (threshold : Float) : Model := fun given => do
  let threshold := clampScore threshold
  let first ← primary given
  if threshold ≤ first.score then return first.withReasoning (primaryReasoning first)
  else
    let second ← fallback given
    return second.withReasoning (fallbackReasoning threshold second)

/-! ## Stages -/

/-- The reasoning of the last stage when no stage has reached its threshold. -/
def lastStageReasoning (i : Intent) : String :=
  match i.reasoning with
  | some r => r ++ " (multi-stage: last stage, no threshold met)"
  | none => "Multi-stage: last stage (no threshold met)"

/-- Asks stages in order until one reaches its threshold; `last` is the intent of the stage
before. -/
def stagesFrom (given : Option BehaviorVector) (last : Option Intent) : List Stage → InferM Intent
  | [] =>
    match last with
    | some i => return i.withReasoning (lastStageReasoning i)
    | none => throw (.configuration .noStages)
  | s :: rest => do
    let i ← s.model given
    if s.threshold ≤ i.score then return i else stagesFrom given (some i) rest

/-- Stages in order. -/
def staged (stages : List Stage) : Model := fun given => stagesFrom given none stages

/-- Stages in order, of which there has to be one. -/
def staged? (stages : List Stage) : Except ConfigurationFault Model :=
  if stages.isEmpty then .error .noStages else .ok (staged stages)

/-- The structural dump of stages: their thresholds. -/
def stagesDiagnostic (stages : List Stage) : String :=
  "MultiStageIntentModel \x7b thresholds: ["
    ++ ", ".intercalate (stages.map fun s => Layout.diagnostic.text s.threshold) ++ "] \x7d"

/-! ## Wrappers -/

/-- A model that sees only the events of a window, which ends at the reference or else now. It is
given no vector. -/
def windowed (inner : Model) (length : Span) (reference : Option Instant) : Model := fun _ => do
  let stop ← InferM.ofSession (Session.onWallClock (WallClock.referenceOrNow reference))
  let s ← InferM.space
  InferM.about (s.filtered (Window.endingAt stop length)) (inner none)

/-- A model whose confidence is lowered by one level. -/
def strict (inner : Model) : Model := fun given => do
  let i ← inner given
  return { i with confidence := i.confidence.downgraded }

/-- A model that is measured; the measurements are no part of the inference. -/
def observed (inner : Model) : Model := inner

/-- A model that also serves batches. -/
def batched (inner : Model) : Model := inner

end Model

end IntentGate
