import IntentGate.Behavior.Space
import IntentGate.Embedding

/-!
# Similarity

A `Similarity` makes one score of a list of embeddings: their mean, a mean weighted by source, the
mean cosine of their vectors, a mean that forgets with time, or a weighted mean of other
similarities. The rules that only weigh are stated over any `Scalar`; the score of the cosine rule
is a parameter of them. The empty list has the score zero under every rule.
-/

namespace IntentGate

/-- How embeddings become one score. -/
inductive Similarity (α : Type) where
  | average
  /-- The mean weighted by source; a source without a weight has the default one. -/
  | weighted (weights : Dict α) (default : α)
  | cosine
  /-- Without a reference, age counts from the time of the call. -/
  | timeDecay (halfLife : Span) (reference : Option Instant)
  | composite (members : List (Similarity α × α))

namespace Similarity

variable {α : Type} [Scalar α]

/-! ## Weighing -/

/-- The mean of the scores. -/
def meanScore (es : List (Embedding α)) : α :=
  Scalar.mean (es.map Embedding.score)

/-- The mean of the scores under weights, if these add up to something positive. -/
def weightedScore? (weightOf : String → α) (es : List (Embedding α)) : Option α :=
  Scalar.weightedMean? (es.map fun e => (e.score, weightOf e.source))

/-- The weight of a source, or the default one. -/
def weightIn (weights : Dict α) (default : α) (source : String) : α :=
  (weights.get? source).getD default

mutual

/-- The score of embeddings, given that of the cosine rule. -/
def scoreBy (cosineScore : List (Embedding α) → α) (es : List (Embedding α)) : Similarity α → α
  | average => meanScore es
  | weighted weights default => (weightedScore? (weightIn weights default) es).getD Scalar.zero
  | cosine => cosineScore es
  | timeDecay _ _ => meanScore es
  | composite members =>
    if es.isEmpty then Scalar.zero
    else (Scalar.weightedMean? (memberScoresBy cosineScore es members)).getD Scalar.zero

/-- The scores of the members of a composite, with their weights. -/
def memberScoresBy (cosineScore : List (Embedding α) → α) (es : List (Embedding α)) :
    List (Similarity α × α) → List (α × α)
  | [] => []
  | (s, weight) :: rest => (scoreBy cosineScore es s, weight) :: memberScoresBy cosineScore es rest

end

/-- The score of embeddings whose sources have weights of their own, if the rule takes such. -/
def weightedScoreBy (cosineScore : List (Embedding α) → α) (es : List (Embedding α))
    (sourceWeights : Option (Dict α)) (s : Similarity α) : α :=
  match s with
  | average =>
    match sourceWeights with
    | some ws =>
      if es.isEmpty || ws.isEmpty then meanScore es
      else (weightedScore? (weightIn ws Scalar.one) es).getD (meanScore es)
    | none => meanScore es
  | weighted weights default =>
    scoreBy cosineScore es (weighted (sourceWeights.getD weights) default)
  | s => scoreBy cosineScore es s

/-- A composite, which needs a member. -/
def composite? (members : List (Similarity α × α)) : Except ConfigurationFault (Similarity α) :=
  if members.isEmpty then .error .noEngines else .ok (composite members)

/-- A composite of members with equal weights. -/
def equalComposite? (members : List (Similarity α)) : Except ConfigurationFault (Similarity α) :=
  composite? (members.map fun s => (s, Scalar.one))

/-! ## Cosines -/

/-- Vectors shorter than this have no direction. -/
def minMagnitude : Float := 1e-10

/-- The product of two vectors, from zero on. -/
def dot (a b : List Float) : Float :=
  (a.zip b).foldl (fun s p => s + p.1 * p.2) 0

/-- The cosine of two vectors, moved to the unit interval; zero for a vector without direction, and
none for vectors of different lengths. -/
def mappedCosine? (a b : List Float) : Option Float :=
  if a.length ≠ b.length then none
  else
    let magnitudeA := (dot a a).sqrt
    let magnitudeB := (dot b b).sqrt
    if magnitudeA < minMagnitude ∨ magnitudeB < minMagnitude then some 0
    else some ((dot a b / (magnitudeA * magnitudeB) + 1) / 2)

/-- The pairs of members of a list at different places, the earlier one first. -/
def pairs {β : Type} : List β → List (β × β)
  | [] => []
  | x :: rest => rest.map (fun y => (x, y)) ++ pairs rest

/-- The mean cosine of all pairs of vectors. A single embedding has its own score, and embeddings
without usable vectors of one length have the mean of theirs. -/
def cosineScore (es : List (Embedding Float)) : Float :=
  match es with
  | [] => 0
  | first :: rest =>
    match es.mapM Embedding.usableVector? with
    | none => meanScore es
    | some vectors =>
      if rest.isEmpty then first.score
      else
        match (pairs vectors).mapM fun p => mappedCosine? p.1 p.2 with
        | none => meanScore es
        | some cosines => cosines.foldl (· + ·) 0 / Float.ofNat cosines.length

/-- The score of embeddings. -/
def score (s : Similarity Float) (es : List (Embedding Float)) : Float :=
  scoreBy cosineScore es s

/-- The score of embeddings whose sources have weights of their own. -/
def scoreWeighted (s : Similarity Float) (es : List (Embedding Float))
    (sourceWeights : Option (Dict Float)) : Float :=
  weightedScoreBy cosineScore es sourceWeights s

/-! ## Decay -/

/-- Half as much for every half-life of an age, both in whole milliseconds, by given powers of two.
Ages that are not positive do not decay, and a half-life without a whole millisecond disables
decay. -/
def decayBy (powerOfTwo : Float → Float) (halfLife age : Span) : Float :=
  if age ≤ 0 then 1
  else if halfLife.milliseconds ≤ 0 then 1
  else powerOfTwo (-(Float.ofInt age.milliseconds / Float.ofInt halfLife.milliseconds))

/-- The weight that an age leaves. -/
def decayFactor (halfLife age : Span) : Float :=
  decayBy Float.exp2 halfLife age

/-- The latest time of the events of a dimension. -/
def latest? (events : List Event) (dimension : String) : Option Instant :=
  match (events.filter fun e => e.dimension == dimension).map Event.occurredAt with
  | [] => none
  | t :: ts => some (ts.foldl Instant.later t)

/-- The scores and decay factors of the embeddings whose source is a dimension of some events. -/
def decayedPairs (halfLife : Span) (reference : Instant) (events : List Event)
    (es : List (Embedding Float)) : List (Float × Float) :=
  es.filterMap fun e =>
    (latest? events e.source).map fun t => (e.score, decayFactor halfLife (reference.since t))

/-- The mean of the scores, each weighted by the age of the latest event of its source. -/
def decayedScore (halfLife : Span) (reference : Instant) (events : List Event)
    (es : List (Embedding Float)) : Float :=
  (Scalar.weightedMean? (decayedPairs halfLife reference events es)).getD 0

/-- The score by age at the reference, or else now; the clock is not read where the score is zero
for want of embeddings or events. -/
def decayedScoreNow (halfLife : Span) (reference : Option Instant) (events : List Event)
    (es : List (Embedding Float)) : StateM WallClock Float := do
  if es.isEmpty || events.isEmpty then return 0
  return decayedScore halfLife (← WallClock.referenceOrNow reference) events es

/-- The score by the times of some events, if the rule takes times. -/
def timeAwareScore? (s : Similarity Float) (events : List Event) (es : List (Embedding Float)) :
    Option (StateM WallClock Float) :=
  match s with
  | timeDecay halfLife reference => some (decayedScoreNow halfLife reference events es)
  | _ => none

/-- Whether the rule takes times. -/
def isTimeAware : Similarity α → Bool
  | timeDecay _ _ => true
  | _ => false

/-- The score that an inference takes: by time if the rule takes times and there are events, and
else by the values of the vector as weights. -/
def inferenceScore (s : Similarity Float) (events : List Event) (values : Dict Float)
    (es : List (Embedding Float)) : StateM WallClock Float :=
  let timeAware := if events.isEmpty then none else s.timeAwareScore? events es
  timeAware.getD (pure (s.scoreWeighted es (some values)))

/-- The members of a composite with their weights. -/
def members : Similarity α → List (Similarity α × α)
  | composite members => members
  | _ => []

/-- The structural dump of a composite: the weights of its members. -/
def diagnostic (s : Similarity Float) : String :=
  "CompositeSimilarityEngine \x7b weights: ["
    ++ ", ".intercalate (s.members.map fun m => Layout.diagnostic.text m.2) ++ "] \x7d"

end Similarity

end IntentGate
