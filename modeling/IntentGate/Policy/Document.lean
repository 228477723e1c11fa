import IntentGate.Json.Stored

/-!
# Policy documents

A policy is stored as a document: a version and rules, each with a decision and conditions in text
form. The document is read from any kind of tree, with whatever effect following that tree has
(`Shape`), so JSON and YAML files share one description. A condition's value is a free document
value of limited depth; its objects are put into key order, and of a repeated key the last value is
kept.
-/

namespace IntentGate

/-- A stored condition: a property, an operator and a value to compare with. -/
structure ConditionDocument where
  property : String
  operator : String := "eq"
  value : Json

/-- A stored rule: it takes its decision when all its conditions hold. -/
structure RuleDocument where
  name : String
  decision : String := "Observe"
  conditions : List ConditionDocument := []

/-- A stored policy. -/
structure PolicyDocument where
  version : String := "1.0"
  rules : List RuleDocument := []

/-- How records, lists, texts and free values are read from one kind of tree. -/
structure Shape (m : Type → Type) (τ : Type) where
  slots : List String → τ → m (List (Slot τ))
  items : τ → m (List τ)
  text : τ → m String
  value : τ → m Json

namespace Shape

variable {m : Type → Type} [Monad m] {τ α : Type}

/-- A list whose members are read one by one. -/
def list (s : Shape m τ) (read : τ → m α) (t : τ) : m (List α) := do
  (← s.items t).mapM read

end Shape

namespace Json

mutual

/-- A free value: objects in key order, the last value of a repeated key, nothing unreadable. -/
def canonical? : Json → Option Json
  | array items => (canonicalItems? items).map array
  | object fields => (canonicalFields? fields).map fun fs => object (Dict.ofList fs).entries
  | unreadable => none
  | j => some j

/-- The items of an array as free values. -/
def canonicalItems? : List Json → Option (List Json)
  | [] => some []
  | item :: rest => (canonical? item).bind fun i => (canonicalItems? rest).map (i :: ·)

/-- The fields of an object as free values. -/
def canonicalFields? : List (String × Json) → Option (List (String × Json))
  | [] => some []
  | (name, value) :: rest =>
    (canonical? value).bind fun v => (canonicalFields? rest).map ((name, v) :: ·)

end

/-- How policy documents are read from JSON. A free value stands five levels deep in its document,
and a document is at most 127 levels deep. -/
def shape : Shape Option Json where
  slots := slots?
  items
    | array items => some items
    | _ => none
  text := toText?
  value j := if j.depth ≤ 122 then j.canonical? else none

end Json

namespace ConditionDocument

variable {m : Type → Type} [Monad m] [MonadExceptOf Unit m] {τ : Type}

/-- The names of the fields, in order. -/
def fieldNames : List String := ["property", "operator", "value"]

/-- Reads a condition. -/
def read? (s : Shape m τ) (t : τ) : m ConditionDocument := do
  match ← s.slots fieldNames t with
  | [property, operator, value] =>
    pure
      { property := ← property.required s.text
        operator := ← operator.withDefault "eq" s.text
        value := ← value.required s.value }
  | _ => throw ()

/-- The stored form. -/
def toJson (c : ConditionDocument) : Json :=
  .object [("property", .text c.property), ("operator", .text c.operator), ("value", c.value)]

end ConditionDocument

namespace RuleDocument

variable {m : Type → Type} [Monad m] [MonadExceptOf Unit m] {τ : Type}

/-- The names of the fields, in order. -/
def fieldNames : List String := ["name", "decision", "conditions"]

/-- Reads a rule. -/
def read? (s : Shape m τ) (t : τ) : m RuleDocument := do
  match ← s.slots fieldNames t with
  | [name, decision, conditions] =>
    pure
      { name := ← name.required s.text
        decision := ← decision.withDefault "Observe" s.text
        conditions := ← conditions.withDefault [] (s.list (ConditionDocument.read? s)) }
  | _ => throw ()

/-- The stored form. -/
def toJson (r : RuleDocument) : Json :=
  .object
    [("name", .text r.name), ("decision", .text r.decision),
      ("conditions", .array (r.conditions.map ConditionDocument.toJson))]

end RuleDocument

namespace PolicyDocument

variable {m : Type → Type} [Monad m] [MonadExceptOf Unit m] {τ : Type}

/-- The names of the fields, in order. -/
def fieldNames : List String := ["version", "rules"]

/-- Reads a policy document. -/
def read? (s : Shape m τ) (t : τ) : m PolicyDocument := do
  match ← s.slots fieldNames t with
  | [version, rules] =>
    pure
      { version := ← version.withDefault "1.0" s.text
        rules := ← rules.withDefault [] (s.list (RuleDocument.read? s)) }
  | _ => throw ()

/-- The stored form. -/
def toJson (d : PolicyDocument) : Json :=
  .object [("version", .text d.version), ("rules", .array (d.rules.map RuleDocument.toJson))]

instance : Stored PolicyDocument := ⟨toJson, read? Json.shape⟩

/-- Reads a policy document from JSON text. -/
def ofJsonText? (text : String) : Option PolicyDocument :=
  Stored.ofText? text

end PolicyDocument

end IntentGate
