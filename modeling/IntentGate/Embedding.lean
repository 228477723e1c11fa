import IntentGate.Confidence
import IntentGate.Digest
import IntentGate.Fault

/-!
# Embeddings

An `Embedding` is what a provider answers for a key: a source, a score and perhaps a vector. Scores
made here lie in the unit interval; stored embeddings are taken as they stand. `ofDigest` derives
embeddings from nothing but the key, so that equal keys have equal embeddings everywhere.
-/

namespace IntentGate

/-- A provider's answer for a key. -/
structure Embedding (α : Type) where
  source : String
  score : α
  vector : Option (List α) := none
deriving DecidableEq

/-- The mean magnitude of some values, clamped into the unit interval. -/
def normalizeScore (values : List Float) : Float :=
  clampScore (Scalar.mean (values.map Float.abs))

namespace Embedding

/-- An embedding without vector, its score clamped. -/
def make (source : String) (score : Float) : Embedding Float :=
  { source, score := clampScore score }

/-- The same embedding with a vector. -/
def withVector {α : Type} (e : Embedding α) (vector : List α) : Embedding α :=
  { e with vector := some vector }

/-- The vector, if there is one and it is not empty. -/
def usableVector? {α : Type} (e : Embedding α) : Option (List α) :=
  e.vector.filter fun v => !v.isEmpty

/-! ## Derived embeddings -/

/-- The component of four bytes: the word they make, scaled from minus one to one. -/
def component (word : List UInt8) : Float :=
  let n := word.foldl (fun n b => 256 * n + b.toNat) 0
  Float.ofNat n / Float.ofNat (UInt32.size - 1) * 2 - 1

/-- The components of bytes, four by four. -/
def components : List UInt8 → List Float
  | a :: b :: c :: d :: rest => component [a, b, c, d] :: components rest
  | _ => []

/-- The components of a key: those of its digest. -/
def rawVector (key : String) : List Float :=
  components (Digest.ofText key).bytes

/-- A vector scaled to unit length; the zero vector stays. -/
def unitVector (v : List Float) : List Float :=
  let magnitude := (Scalar.sum (v.map fun x => x * x)).sqrt
  if 0 < magnitude then v.map (· / magnitude) else v

/-- The derived embedding of a key; some keys have set scores, others set failures. -/
def ofDigest (scores : Dict Float) (failures : Dict FailureKind) (key : String) :
    Except ProviderFailure (Embedding Float) :=
  match failures.get? key with
  | some kind => .error ⟨"mock", kind, "configured failure for " ++ key⟩
  | none =>
    let raw := rawVector key
    .ok ((make key ((scores.get? key).getD (normalizeScore raw))).withVector (unitVector raw))

/-- The embedding of a key in a table. -/
def ofTable (table : Dict (Embedding Float)) (key : String) :
    Except ProviderFailure (Embedding Float) :=
  match table.get? key with
  | some e => .ok e
  | none => .error ⟨"table", .other, "no entry for " ++ key⟩

/-! ## Stored embeddings -/

/-- The names of the stored fields, in order. -/
def fieldNames : List String := ["source", "score", "vector"]

/-- The stored form. -/
def toJson (e : Embedding Float) : Json :=
  .object <|
    [("source", .text e.source), ("score", .ofFloat e.score)]
    ++ Json.optionalField "vector" (fun v => .array (v.map Json.ofFloat)) e.vector

/-- Reads a stored embedding as it stands. -/
def ofJson? (j : Json) : Option (Embedding Float) := do
  match ← j.slots? fieldNames with
  | [source, score, vector] =>
    some
      { source := ← source.required Json.toText?
        score := ← score.required Json.toFloat?
        vector := ← vector.omittable (Json.toOptional? (Json.toList? Json.toFloat?)) }
  | _ => none

instance : Stored (Embedding Float) := ⟨toJson, ofJson?⟩

end Embedding

end IntentGate
