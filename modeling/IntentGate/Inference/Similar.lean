import IntentGate.Inference.Session
import IntentGate.Similarity

/-!
# Models of similarity

A model of similarity asks a provider for an embedding of each dimension, in ascending order, and
makes one score of them. The first failure ends the inference. Every embedding becomes a signal.
-/

namespace IntentGate.Model

/-- The name of the intents of models of similarity. -/
def similarName : String := "AI-Inferred-Intent"

/-- The source of the signals of models of similarity. -/
def similarSource : String := "ai"

/-- The embeddings of some keys, up to the first failure. -/
def embedAll (provider : Provider) :
    List String → SessionM (Except InferenceFault (List (Embedding Float)))
  | [] => pure (.ok [])
  | key :: rest => do
    match ← provider key with
    | .error failure => return .error (.provider failure)
    | .ok e => return (← embedAll provider rest).map (e :: ·)

/-- A model that asks a provider, scores what it gets by the space and the values of the dimensions,
and grades the score. Scoring may read the wall clock. -/
def ofScoring (provider : Provider)
    (score : Space → Dict Float → List (Embedding Float) → StateM WallClock Float)
    (grade : Float → Confidence) : Model := fun given => do
  let v ← resolve given
  let es ← InferM.ofExcept (embedAll provider v.dimensions.keys)
  let s ← InferM.space
  let x ← InferM.ofSession (Session.onWallClock (score s v.dimensions es))
  let signals := es.map fun e => Signal.make similarSource e.source e.score
  return ⟨similarName, signals, grade x, none⟩

/-- A model of similarity. -/
def ofSimilarity (provider : Provider) (similarity : Similarity Float) (calculator : Calculator) :
    Model :=
  ofScoring provider (fun s => similarity.inferenceScore s.events) calculator.ofScore

/-- A model that uses the normalized vector of the space, whatever vector is given. -/
def withOptions (options : VectorOptions) (inner : Model) : Model := fun _ => do
  inner (some ((← InferM.space).vectorWith options))

end IntentGate.Model
