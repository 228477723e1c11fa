import IntentGate.Decimal.Reading
import IntentGate.Policy.Document
import IntentGate.Yaml.Node

/-!
# What YAML documents hold

Records, lists, texts and free values of a document. A plain scalar is null, a truth value or a
number when it is spelled as one, and a text otherwise; quoted and block scalars are texts. In a
free value one of the four core tags asks for its kind of value, a tag of the document's own is
refused, a local tag that is no text says nothing, and any other tag makes a text. Elsewhere tags
say nothing. Records are mappings. An alias is what its anchored node is; the aliases that are
followed are counted, and a document may follow a hundred for each of its parts.
-/

namespace IntentGate.Yaml

/-! ## Plain scalars -/

/-- Whether a text spells null. -/
def spellsNull (s : String) : Bool :=
  ["null", "Null", "NULL", "~"].contains s

/-- The truth value that a text spells. -/
def boolOf? (s : String) : Option Bool :=
  if ["true", "True", "TRUE"].contains s then some true
  else if ["false", "False", "FALSE"].contains s then some false
  else none

/-- Whether a text is zeros in front of further digits, which is no number. -/
def hasLeadingZero (cs : List Char) : Bool :=
  match cs with
  | '0' :: d :: ds => (d :: ds).all Text.isDigit
  | _ => false

/-- A text without its sign, if it has one. -/
def dropSign (cs : List Char) : List Char :=
  match cs with
  | '-' :: rest => rest
  | '+' :: rest => rest
  | rest => rest

/-- The value of digits of a base. -/
def digitsOf? (base : Nat) (cs : List Char) : Option Nat := do
  if cs.isEmpty then none
  let ds ← cs.mapM Json.hexValue?
  if ds.all (· < base) then some (ds.foldl (fun n d => base * n + d) 0) else none

/-- The natural number that a text spells: in decimal digits without leading zeros, or in another
base behind a mark. -/
def naturalOf? : List Char → Option Nat
  | '0' :: 'x' :: ds => digitsOf? 16 ds
  | '0' :: 'o' :: ds => digitsOf? 8 ds
  | '0' :: 'b' :: ds => digitsOf? 2 ds
  | ds => if hasLeadingZero ds then none else digitsOf? 10 ds

/-- How many values a word of 128 bits has. -/
def wideSize : Nat := UInt64.size * UInt64.size

/-- The integer that a text spells, if it fits in 128 bits. -/
def integerOf? : List Char → Option Int
  | '+' :: rest => ((naturalOf? rest).filter (· < wideSize)).map fun n => (n : Int)
  | '-' :: rest => ((naturalOf? rest).filter (· ≤ wideSize / 2)).map fun n => -(n : Int)
  | rest => ((naturalOf? rest).filter (· < wideSize)).map fun n => (n : Int)

/-- The real number that a text spells; infinities and the undefined number have names. -/
def realOf? (s : String) : Option Float :=
  let cs := s.toList
  let (signed, unplussed) :=
    match cs with
    | '+' :: rest => (true, String.ofList rest)
    | _ => (false, s)
  if signed && (unplussed.startsWith "+" || unplussed.startsWith "-") then none
  else if [".inf", ".Inf", ".INF"].contains unplussed then some (1 / 0)
  else if ["-.inf", "-.Inf", "-.INF"].contains s then some (-1 / 0)
  else if [".nan", ".NaN", ".NAN"].contains s then some (0 / 0)
  else ((Reading.real unplussed).toOption).filter Float.isFinite

/-- An integer as a value; one that needs more than 64 bits is refused. -/
def integerValue? (i : Int) : Option Json :=
  if -(UInt64.size / 2 : Nat) ≤ i ∧ i < UInt64.size then some (.number (.int i)) else none

/-- The value of a plain scalar without a tag. -/
def plainValue? (s : String) : Option Json :=
  if s.isEmpty || spellsNull s then some .null
  else
    match boolOf? s with
    | some b => some (.bool b)
    | none =>
      match integerOf? s.toList with
      | some i => integerValue? i
      | none =>
        if hasLeadingZero (dropSign s.toList) then some (.text s)
        else some ((realOf? s).elim (.text s) Json.ofFloat)

/-- The value of a scalar. -/
def scalarValue? (tag : Option Tag) (text : String) (plain : Bool) : Option Json :=
  match tag with
  | none => if plain then plainValue? text else some (.text text)
  | some tag =>
    if tag.isOwn then none
    else if tag = .truth then (boolOf? text).map .bool
    else if tag = .integer then (integerOf? text.toList).bind integerValue?
    else if tag = .real then (realOf? text).map Json.ofFloat
    else if tag = .null then if spellsNull text then some .null else none
    else if tag.isLocal && plain then plainValue? text
    else some (.text text)

/-! ## Documents -/

/-- Readers that pay for each alias they follow from a budget. -/
abbrev Paid := StateT Nat Option

namespace Document

/-- What an alias refers to, paid for; any other node itself. -/
def resolve (d : Document) (node : Node) : Paid Node := do
  match node with
  | .alias place =>
    let budget ← get
    if budget = 0 then failure
    set (budget - 1)
    d.places.lookup place
  | _ => return node

/-- The text of a scalar. -/
def text (d : Document) (node : Node) : Paid String := do
  match ← d.resolve node with
  | .scalar _ text _ => return text
  | _ => failure

/-- The items of a list; a scalar that is not written is the empty list. -/
def items (d : Document) (node : Node) : Paid (List Node) := do
  match ← d.resolve node with
  | .sequence _ items => return items
  | .scalar _ "" true => return []
  | _ => failure

/-- The slots of a record; a scalar that is not written is a record without fields. -/
def slots (d : Document) (names : List String) (node : Node) : Paid (List (Slot Node)) := do
  match ← d.resolve node with
  | .mapping _ fields =>
    Record.slotsOfFields? names (← fields.mapM fun f => return (← d.text f.1, f.2))
  | .scalar _ "" true => Record.slotsOfFields? names []
  | _ => failure

/-- A node as a free value with at most `depth` nested collections. -/
def valueWithin (d : Document) (depth : Nat) (node : Node) : Paid Json := do
  let node ← d.resolve node
  match depth, node with
  | _, .scalar tag text plain => scalarValue? tag text plain
  | depth + 1, .sequence tag items =>
    if tag.any Tag.isOwn then failure
    return .array (← items.mapM (d.valueWithin depth))
  | depth + 1, .mapping tag fields =>
    if tag.any Tag.isOwn then failure
    let named ← fields.mapM fun (key, value) => do
      return (← d.text key, ← d.valueWithin depth value)
    return .object (Dict.ofList named).entries
  | _, _ => failure

/-- How policy documents are read from YAML. A free value stands five levels deep in a document of
at most 128 levels. -/
def shape (d : Document) : Shape Paid Node where
  slots := d.slots
  items := d.items
  text := d.text
  value := d.valueWithin 123

end Document

end IntentGate.Yaml

namespace IntentGate

/-- Reads a policy document from YAML text. It may follow a hundred aliases for each part of the
document. -/
def PolicyDocument.ofYamlText? (text : String) : Option PolicyDocument := do
  let d ← Yaml.Document.ofText? text
  (PolicyDocument.read? d.shape d.root).run' (100 * d.size)

end IntentGate
