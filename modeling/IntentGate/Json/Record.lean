import IntentGate.Dict
import IntentGate.Json.Basic

/-!
# Reading records from documents

A record is stored as an object of named fields, or as an array of its fields in order. In an object
unknown fields are skipped and a field given twice is an error. A `Slot` is what a document gives
for one field; how an absent field is taken depends on the kind of the field: a required one is an
error, an optional one is none, a field with a default takes it. An array may end early only before
fields with a default.

The readers are stated over any kind of tree (`Shape`), so that one description of a record serves
every document format.
-/

namespace IntentGate

/-- The types whose values are stored in documents. -/
class Stored (α : Type) where
  toJson : α → Json
  ofJson? : Json → Option α

/-- What a document gives for one field of a record. -/
inductive Slot (τ : Type) where
  | given (value : τ)
  /-- The object does not name the field. -/
  | absent
  /-- The array has ended before the field. -/
  | beyond

namespace Slot

variable {τ α : Type} {m : Type → Type}

/-- A field that has to be there. -/
def required [MonadExceptOf Unit m] (read : τ → m α) : Slot τ → m α
  | given value => read value
  | _ => throw ()

/-- A field that may be left out, and then takes a default. -/
def withDefault [Pure m] (default : α) (read : τ → m α) : Slot τ → m α
  | given value => read value
  | _ => pure default

/-- A field that an object may leave out; an array has to give it. -/
def optional (read : τ → Option (Option α)) : Slot τ → Option (Option α)
  | given value => read value
  | absent => some none
  | beyond => none

/-- A field that may be left out of objects and arrays alike. -/
def omittable (read : τ → Option (Option α)) : Slot τ → Option (Option α)
  | given value => read value
  | _ => some none

end Slot

namespace Record

variable {τ : Type}

/-- The slots of named fields; none when one of them is given twice. -/
def slotsOfFields? (names : List String) (fields : List (String × τ)) : Option (List (Slot τ)) :=
  names.mapM fun name =>
    match fields.filter fun f => f.1 == name with
    | [] => some .absent
    | [f] => some (.given f.2)
    | _ => none

/-- The slots of fields in order; none when there are too many items. -/
def slotsOfItems? (names : List String) (items : List τ) : Option (List (Slot τ)) :=
  if names.length < items.length then none
  else some (items.map .given ++ List.replicate (names.length - items.length) .beyond)

end Record

namespace Json

/-- The slots that a document gives for the fields of a record. -/
def slots? (names : List String) : Json → Option (List (Slot Json))
  | object fields => Record.slotsOfFields? names fields
  | array items => Record.slotsOfItems? names items
  | _ => none

/-- A truth value. -/
def toBool? : Json → Option Bool
  | bool b => some b
  | _ => none

/-- A text. -/
def toText? : Json → Option String
  | text s => some s
  | _ => none

/-- A number as a double. -/
def toFloat? : Json → Option Float
  | number n => some n.toFloat
  | _ => none

/-- A value or null. -/
def toOptional? {α : Type} (read : Json → Option α) : Json → Option (Option α)
  | null => some none
  | j => (read j).map some

/-- An array of values. -/
def toList? {α : Type} (read : Json → Option α) : Json → Option (List α)
  | array items => items.mapM read
  | _ => none

/-- An object as a dictionary; the last value of a name wins. -/
def toDict? {α : Type} (read : Json → Option α) : Json → Option (Dict α)
  | object fields => (fields.mapM fun f => (read f.2).map fun v => (f.1, v)).map Dict.ofList
  | _ => none

/-- The name of a case without contents: a text, or an object that gives the name a null. -/
def toCase? : Json → Option String
  | text s => some s
  | object [(name, null)] => some name
  | _ => none

/-- A dictionary as an object, in key order. -/
def ofDict {α : Type} (write : α → Json) (d : Dict α) : Json :=
  object (d.entries.map fun e => (e.1, write e.2))

/-- A value, or null when there is none. -/
def ofOptional {α : Type} (write : α → Json) : Option α → Json
  | none => null
  | some a => write a

/-- A field that is left out when there is no value. -/
def optionalField {α : Type} (name : String) (write : α → Json) :
    Option α → List (String × Json)
  | none => []
  | some a => [(name, write a)]

/-- A dictionary field that is left out when it is empty. -/
def dictField {α : Type} (name : String) (write : α → Json) (d : Dict α) :
    List (String × Json) :=
  if d.isEmpty then [] else [(name, ofDict write d)]

end Json

end IntentGate
