/-!
# Document values

`Json` is the tree of a stored document. Numbers are kept as integers where they are written as
such. An object keeps its fields in the order they are written, repeated names included: what
repetition means is up to whoever reads the object. A token that is well formed but names no value
(half of a surrogate pair, a number beyond the range of a double) is `unreadable`: it may stand
where nothing reads it.
-/

namespace IntentGate

/-- A number of a document. -/
inductive Json.Number where
  | int (i : Int)
  | real (x : Float)
deriving DecidableEq

/-- The tree of a document. -/
inductive Json where
  | null
  | bool (b : Bool)
  | number (n : Json.Number)
  | text (s : String)
  | array (items : List Json)
  | object (fields : List (String × Json))
  | unreadable

namespace Json

instance : Inhabited Json := ⟨null⟩

/-- The double that a number stands for. -/
def Number.toFloat : Number → Float
  | int (.ofNat n) => Float.ofNat n
  | int (.negSucc n) => -Float.ofNat (n + 1)
  | real x => x

mutual

/-- How deep arrays and objects are nested. -/
def depth : Json → Nat
  | array items => depthOfItems items + 1
  | object fields => depthOfFields fields + 1
  | _ => 0

/-- The depth of the deepest item. -/
def depthOfItems : List Json → Nat
  | [] => 0
  | item :: rest => max (depth item) (depthOfItems rest)

/-- The depth of the deepest field. -/
def depthOfFields : List (String × Json) → Nat
  | [] => 0
  | (_, value) :: rest => max (depth value) (depthOfFields rest)

end

/-- A double as a document number; one that is not finite has no text and becomes `null`. -/
def ofFloat (x : Float) : Json :=
  if x.isFinite then number (.real x) else null

end Json

end IntentGate
