import IntentGate.Behavior.Vector
import IntentGate.Confidence

/-!
# Intents

An `Intent` is what an inference concludes: a name, the signals it rests on, a confidence and, if
there is one, the reasoning in words. A signal's weight is never negative when it is made here;
stored signals are taken as they stand.
-/

namespace IntentGate

/-- One reason for an intent, with its weight. -/
structure Signal where
  source : String
  description : String
  weight : Float
deriving DecidableEq

/-- A named conclusion with its signals and confidence. -/
structure Intent where
  name : String
  signals : List Signal
  confidence : Confidence
  reasoning : Option String := none
deriving DecidableEq

namespace Signal

/-- The nearest weight that is not negative; zero for what is not a number. -/
def clampWeight (weight : Float) : Float :=
  if weight.isNaN then 0 else if weight < 0 then 0 else weight

/-- A signal with a clamped weight. -/
def make (source description : String) (weight : Float) : Signal :=
  ⟨source, description, clampWeight weight⟩

/-- One signal per dimension of a vector, in order. -/
def ofVector (source : String) (v : BehaviorVector) : List Signal :=
  v.entries.map fun e => make source e.1 e.2

/-- The names of the stored fields, in order. -/
def fieldNames : List String := ["source", "description", "weight"]

/-- The stored form. -/
def toJson (s : Signal) : Json :=
  .object
    [("source", .text s.source), ("description", .text s.description),
      ("weight", .ofFloat s.weight)]

/-- Reads a stored signal as it stands. -/
def ofJson? (j : Json) : Option Signal := do
  match ← j.slots? fieldNames with
  | [source, description, weight] =>
    some
      { source := ← source.required Json.toText?
        description := ← description.required Json.toText?
        weight := ← weight.required Json.toFloat? }
  | _ => none

instance : Stored Signal := ⟨toJson, ofJson?⟩

end Signal

namespace Intent

/-- The name of an intent that nothing was concluded for. -/
def unknownName : String := "Unknown"

/-- The score of the confidence. -/
def score (i : Intent) : Float := i.confidence.score

/-- The level of the confidence. -/
def level (i : Intent) : Level := i.confidence.level

/-- The same conclusion with another reasoning. -/
def withReasoning (i : Intent) (reasoning : String) : Intent :=
  { i with reasoning := some reasoning }

/-- The names of the stored fields, in order. -/
def fieldNames : List String := ["name", "signals", "confidence", "reasoning"]

/-- The stored form. -/
def toJson (i : Intent) : Json :=
  .object <|
    [("name", .text i.name), ("signals", .array (i.signals.map Signal.toJson)),
      ("confidence", i.confidence.toJson)]
    ++ Json.optionalField "reasoning" .text i.reasoning

/-- Reads a stored intent as it stands. -/
def ofJson? (j : Json) : Option Intent := do
  match ← j.slots? fieldNames with
  | [name, signals, confidence, reasoning] =>
    some
      { name := ← name.required Json.toText?
        signals := ← signals.required (Json.toList? Signal.ofJson?)
        confidence := ← confidence.required Confidence.ofJson?
        reasoning := ← reasoning.omittable (Json.toOptional? Json.toText?) }
  | _ => none

instance : Stored Intent := ⟨toJson, ofJson?⟩

end Intent

end IntentGate
