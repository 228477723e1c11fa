import IntentGate.Decimal.Layout
import IntentGate.Digest
import IntentGate.Json.Record
import IntentGate.Scalar

/-!
# Behavior vectors

A `BehaviorVector` gives a value to each dimension: as counted, how many events have it. A
`Normalization` rescales the values and keeps the dimensions. The cache key of a vector is the
digest of its canonical text, in which every dimension is preceded by its length, so that no two
vectors with different entries share a text.
-/

namespace IntentGate

/-- How the values of a vector are rescaled. -/
inductive Normalization where
  /-- Values as they are. -/
  | none
  /-- No value above the cap. -/
  | cap
  /-- Shares of the sum of magnitudes. -/
  | shares
  /-- Values in units of the cap, none above one. -/
  | softCap
deriving DecidableEq, Repr

/-- How a vector is taken: a normalization and the cap for those that need one. -/
structure VectorOptions where
  normalization : Normalization := .none
  cap : Float := 0

/-- A value for each dimension. -/
structure BehaviorVector where
  dimensions : Dict Float
deriving DecidableEq

namespace Normalization

/-- The stored name. -/
def name : Normalization → String
  | none => "none"
  | cap => "cap"
  | shares => "l1"
  | softCap => "soft_cap"

/-- Every normalization. -/
def all : List Normalization := [none, cap, shares, softCap]

/-- Reads a stored name. -/
def ofJson? (j : Json) : Option Normalization :=
  j.toCase?.bind fun s => all.find? fun n => n.name == s

end Normalization

namespace VectorOptions

/-- The names of the stored fields, in order. -/
def fieldNames : List String := ["normalization", "cap_per_dimension"]

/-- The stored form. -/
def toJson (o : VectorOptions) : Json :=
  .object [("normalization", .text o.normalization.name), ("cap_per_dimension", .ofFloat o.cap)]

/-- Reads stored options. -/
def ofJson? (j : Json) : Option VectorOptions := do
  match ← j.slots? fieldNames with
  | [normalization, cap] =>
    some
      { normalization := ← normalization.withDefault .none Normalization.ofJson?
        cap := ← cap.withDefault 0 Json.toFloat? }
  | _ => none

instance : Stored VectorOptions := ⟨toJson, ofJson?⟩

end VectorOptions

namespace BehaviorVector

/-- The vector without dimensions. -/
def empty : BehaviorVector := ⟨Dict.empty⟩

/-- Adds one unit to a dimension, which starts from zero. -/
def addUnit (v : BehaviorVector) (key : String) : BehaviorVector :=
  ⟨v.dimensions.insert key ((v.dimensions.get? key).getD 0 + 1)⟩

/-- The vector that counts how often each dimension occurs, one unit at a time. -/
def ofKeys (keys : List String) : BehaviorVector :=
  keys.foldl addUnit empty

/-- The value of a dimension. -/
def get? (v : BehaviorVector) (key : String) : Option Float :=
  v.dimensions.get? key

/-- The dimensions with their values, in ascending order. -/
def entries (v : BehaviorVector) : List (String × Float) :=
  v.dimensions.entries

/-- The number of dimensions. -/
def size (v : BehaviorVector) : Nat :=
  v.dimensions.size

/-- The sum of the values. -/
def total (v : BehaviorVector) : Float :=
  Scalar.sum v.dimensions.values

/-- Rescales the values. A cap that is not above zero caps nothing, and shares of a sum that is not
above zero are the values themselves. -/
def normalized (v : BehaviorVector) (o : VectorOptions) : BehaviorVector :=
  match o.normalization with
  | .none => v
  | .cap => if 0 < o.cap then ⟨v.dimensions.mapValues fun _ x => lesser x o.cap⟩ else v
  | .softCap => if 0 < o.cap then ⟨v.dimensions.mapValues fun _ x => lesser (x / o.cap) 1⟩ else v
  | .shares =>
    let sum := Scalar.sum (v.dimensions.values.map Float.abs)
    if 0 < sum then ⟨v.dimensions.mapValues fun _ x => x / sum⟩ else v

/-- One dimension in the canonical text: the byte length of its key, the key and the value. -/
def entryChars (key : String) (value : Float) : List Char :=
  Text.decimalDigits key.utf8ByteSize ++ ':' :: key.toList
    ++ '=' :: Layout.plain.chars value ++ ['\n']

/-- The canonical text: all dimensions in ascending order. -/
def canonicalText (v : BehaviorVector) : String :=
  String.ofList (v.entries.flatMap fun e => entryChars e.1 e.2)

/-- The key under which an inference on this vector is stored. -/
def cacheKey (v : BehaviorVector) : String :=
  (Digest.ofText v.canonicalText).hex

/-- The stored form. -/
def toJson (v : BehaviorVector) : Json :=
  .object [("dimensions", Json.ofDict Json.ofFloat v.dimensions)]

/-- Reads a stored vector. -/
def ofJson? (j : Json) : Option BehaviorVector := do
  match ← j.slots? ["dimensions"] with
  | [dimensions] => some ⟨← dimensions.required (Json.toDict? Json.toFloat?)⟩
  | _ => none

instance : Stored BehaviorVector := ⟨toJson, ofJson?⟩

end BehaviorVector

end IntentGate
