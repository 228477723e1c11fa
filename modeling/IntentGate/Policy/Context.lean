import IntentGate.Behavior.Event
import IntentGate.Intent
import IntentGate.Policy.Rule

/-!
# Contexts

A `Context` is what a context-aware policy knows beside the intent: the load of the system, the
region, the intents seen lately, and values of its own. A rule that needs a part that is missing
fails with it.
-/

namespace IntentGate

/-- A past intent in brief. -/
structure Summary where
  name : String
  level : Level
  score : Float
deriving DecidableEq

/-- What is known beside the intent. -/
structure Context where
  systemLoad : Option Float := none
  region : Option String := none
  /-- Past intents, oldest first. -/
  recent : List Summary := []
  custom : Dict Tag := Dict.empty
deriving DecidableEq

/-- An intent together with the context in which it is judged. -/
abbrev Situation := Intent × Context

namespace Summary

/-- The summary of an intent. -/
def ofIntent (i : Intent) : Summary :=
  ⟨i.name, i.level, i.score⟩

/-- The names of the stored fields, in order. -/
def fieldNames : List String := ["name", "confidence_level", "confidence_score"]

/-- The stored form. -/
def toJson (s : Summary) : Json :=
  .object
    [("name", .text s.name), ("confidence_level", s.level.toJson),
      ("confidence_score", .ofFloat s.score)]

/-- Reads a stored summary. -/
def ofJson? (j : Json) : Option Summary := do
  match ← j.slots? fieldNames with
  | [name, level, score] =>
    some
      { name := ← name.required Json.toText?
        level := ← level.required Level.ofJson?
        score := ← score.required Json.toFloat? }
  | _ => none

instance : Stored Summary := ⟨toJson, ofJson?⟩

end Summary

namespace Context

/-- Adds a summary and drops the oldest ones beyond `limit`. -/
def pushRecent (c : Context) (s : Summary) (limit : Nat) : Context :=
  let recent := c.recent ++ [s]
  { c with recent := recent.drop (recent.length - limit) }

/-- How many past intents have a name, ASCII case ignored. -/
def recentCount (c : Context) (name : String) : Nat :=
  c.recent.countP fun s => Text.sameIgnoringCase s.name name

/-- Sets a value of one's own. -/
def setCustom (c : Context) (key : String) (value : Tag) : Context :=
  { c with custom := c.custom.insert key value }

/-- The load, which has to be known. -/
def requireLoad (c : Context) : Except RuleFault Float :=
  c.systemLoad.elim (.error (.missingContext "system_load")) .ok

/-- The region, which has to be known. -/
def requireRegion (c : Context) : Except RuleFault String :=
  c.region.elim (.error (.missingContext "region")) .ok

/-- The names of the stored fields, in order. -/
def fieldNames : List String := ["system_load", "region", "recent_intents", "custom"]

/-- The stored form. -/
def toJson (c : Context) : Json :=
  .object
    [("system_load", Json.ofOptional Json.ofFloat c.systemLoad),
      ("region", Json.ofOptional .text c.region),
      ("recent_intents", .array (c.recent.map Summary.toJson)),
      ("custom", Json.ofDict Tag.toJson c.custom)]

/-- Reads a stored context. -/
def ofJson? (j : Json) : Option Context := do
  match ← j.slots? fieldNames with
  | [load, region, recent, custom] =>
    some
      { systemLoad := ← load.optional (Json.toOptional? Json.toFloat?)
        region := ← region.optional (Json.toOptional? Json.toText?)
        recent := ← recent.required (Json.toList? Summary.ofJson?)
        custom := ← custom.required (Json.toDict? Tag.ofJson?) }
  | _ => none

instance : Stored Context := ⟨toJson, ofJson?⟩

end Context

end IntentGate
