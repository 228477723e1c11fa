import IntentGate.Decimal.Layout
import IntentGate.Json.Record
import IntentGate.Time.Stored

/-!
# Events

An `Event` says who did what and when, with tags of scalar value. Its dimension is the pair of actor
and action written with a colon between them; events of one dimension are counted together.
-/

namespace IntentGate

/-- The scalar value of a tag. -/
inductive Tag where
  | text (s : String)
  | number (x : Float)
  | flag (b : Bool)
deriving DecidableEq

/-- One observed fact: an actor did an action at an instant. -/
structure Event where
  actor : String
  action : String
  occurredAt : Instant
  tags : Dict Tag := Dict.empty
deriving DecidableEq

namespace Tag

/-- The value as plain text. -/
def plain : Tag → String
  | text s => s
  | number x => Layout.plain.text x
  | flag b => if b then "true" else "false"

/-- The stored form of a tag is its value. -/
def toJson : Tag → Json
  | text s => .text s
  | number x => .ofFloat x
  | flag b => .bool b

/-- Reads a tag from a stored scalar. -/
def ofJson? : Json → Option Tag
  | .text s => some (text s)
  | .number n => some (number n.toFloat)
  | .bool b => some (flag b)
  | _ => none

instance : Stored Tag := ⟨toJson, ofJson?⟩

end Tag

namespace Event

/-- The dimension that the event counts towards. -/
def dimension (e : Event) : String :=
  e.actor ++ ":" ++ e.action

/-- Sets one tag. -/
def withTag (e : Event) (key : String) (value : Tag) : Event :=
  { e with tags := e.tags.insert key value }

/-- The names of the stored fields, in order. -/
def fieldNames : List String := ["actor", "action", "occurred_at", "metadata"]

/-- The stored form of an event. -/
def toJson (e : Event) : Json :=
  .object <|
    [("actor", .text e.actor), ("action", .text e.action),
      ("occurred_at", e.occurredAt.toJson)]
    ++ Json.dictField "metadata" Tag.toJson e.tags

/-- Reads a stored event. -/
def ofJson? (j : Json) : Option Event := do
  match ← j.slots? fieldNames with
  | [actor, action, occurredAt, tags] =>
    some
      { actor := ← actor.required Json.toText?
        action := ← action.required Json.toText?
        occurredAt := ← occurredAt.required Instant.ofJson?
        tags := ← tags.withDefault Dict.empty (Json.toDict? Tag.ofJson?) }
  | _ => none

instance : Stored Event := ⟨toJson, ofJson?⟩

end Event

end IntentGate
