import IntentGate.Decimal.Reading
import IntentGate.Intent
import IntentGate.Policy.Document
import IntentGate.Policy.Rule
import IntentGate.Text.LowerCase
import IntentGate.Text.Search

/-!
# Conditions

A `Condition` compares a property of an intent with an expected value. `Condition.compile` makes one
from its stored form, or says what is wrong with it: first the property, then the operator, then the
value are judged. Texts are compared in lower case, numbers with a tolerance where equality is asked
for, levels by their order. A policy document compiles to a policy rule by rule, and the first fault
in document order refuses the whole document.
-/

namespace IntentGate

/-- What a condition looks at. -/
inductive Property where
  | name
  | level
  | score
  | signalCount
deriving DecidableEq, Repr

/-- How a condition compares. -/
inductive Operator where
  | eq
  | ne
  | contains
  | gte
  | lte
  | gt
  | lt
deriving DecidableEq, Repr

/-- What a condition compares with. -/
inductive Expected where
  | text (s : String)
  | number (x : Float)
  | level (l : Level)
deriving DecidableEq

/-- A property compared with an expected value. -/
structure Condition where
  property : Property
  operator : Operator
  expected : Expected
deriving DecidableEq

namespace Property

/-- The property of a name, blanks around it and ASCII case ignored. -/
def ofName? (s : String) : Option Property :=
  match Text.asciiLower (Text.trim s) with
  | "intent.name" => some name
  | "intent.confidence.level" => some level
  | "intent.confidence.score" => some score
  | "intent.signals.count" => some signalCount
  | _ => none

end Property

namespace Operator

/-- The operator of a name, blanks around it and ASCII case ignored. -/
def ofName? (s : String) : Option Operator :=
  match Text.asciiLower (Text.trim s) with
  | "eq" => some eq
  | "ne" => some ne
  | "contains" => some contains
  | "gte" => some gte
  | "lte" => some lte
  | "gt" => some gt
  | "lt" => some lt
  | _ => none

/-- Whether the operator asks for an order. -/
def isOrdering : Operator → Bool
  | gte | lte | gt | lt => true
  | eq | ne | contains => false

/-- Compares by an order; the operators that ask for none do not hold. -/
def compare {α : Type} [LE α] [LT α] [DecidableLE α] [DecidableLT α] (op : Operator)
    (actual expected : α) : Bool :=
  match op with
  | gte => expected ≤ actual
  | lte => actual ≤ expected
  | gt => expected < actual
  | lt => actual < expected
  | eq | ne | contains => false

end Operator

namespace Condition

/-- How near two numbers have to be to count as equal. -/
def tolerance : Float := 1e-9

/-- Compares texts; the actual one is taken in lower case. -/
def matchesText (op : Operator) (actual expected : String) : Bool :=
  let actual := Text.lowerCase actual
  match op with
  | .eq => actual == expected
  | .ne => actual != expected
  | .contains => Text.contains actual expected
  | _ => false

/-- Compares numbers, equality up to `tolerance`. -/
def matchesNumber (op : Operator) (actual expected : Float) : Bool :=
  match op with
  | .eq => (actual - expected).abs < tolerance
  | .ne => tolerance ≤ (actual - expected).abs
  | op => op.compare actual expected

/-- Whether the condition holds of an intent. -/
def holds (c : Condition) (i : Intent) : Bool :=
  match c.expected, c.property with
  | .text expected, .name => matchesText c.operator i.name expected
  | .text expected, .level => matchesText c.operator i.level.name expected
  | .level expected, _ => c.operator.compare i.level.rank expected.rank
  | .number expected, .score => matchesNumber c.operator i.score expected
  | .number expected, .signalCount =>
    matchesNumber c.operator (Float.ofNat i.signals.length) expected
  | _, _ => false

/-- A stored value as text to compare with: texts trimmed and in lower case, numbers and truth
values as they are written. -/
def valueText? : Json → Option String
  | .text s => some (Text.lowerCase (Text.trim s))
  | .number n => some (String.ofList n.chars)
  | .bool b => some (if b then "true" else "false")
  | _ => none

/-- A stored value as a finite number. -/
def valueNumber? (j : Json) : Option Float :=
  let number :=
    match j with
    | .number n => some n.toFloat
    | .text s => (Reading.real (Text.trim s)).toOption
    | _ => none
  number.filter Float.isFinite

/-- What a property is compared with under an operator, or why the value does not fit. -/
def expectation (property : Property) (operator : Operator) (doc : ConditionDocument) :
    Except String Expected :=
  match property with
  | .name =>
    if operator.isOrdering then
      .error ("operator `" ++ Text.trim doc.operator ++ "` does not apply to text")
    else (valueText? doc.value).elim (.error "expected text") fun s => .ok (.text s)
  | .level =>
    if operator.isOrdering then
      match valueText? doc.value with
      | none => .error "expected a level name"
      | some name =>
        (Level.ofName? name).elim (.error ("unknown confidence level `" ++ name ++ "`"))
          fun l => .ok (.level l)
    else (valueText? doc.value).elim (.error "expected text") fun s => .ok (.text s)
  | .score | .signalCount =>
    if operator = .contains then .error "`contains` does not apply to numbers"
    else (valueNumber? doc.value).elim (.error "expected a number") fun x => .ok (.number x)

/-- The condition of a stored one, in the rule of a name. -/
def compile (rule : String) (doc : ConditionDocument) : Except StoreFault Condition :=
  match Property.ofName? doc.property with
  | none => .error (.unknownProperty rule doc.property)
  | some property =>
    match Operator.ofName? doc.operator with
    | none => .error (.unknownOperator rule doc.operator)
    | some operator =>
      match expectation property operator doc with
      | .error reason => .error (.invalidValue rule doc.property reason)
      | .ok e => .ok ⟨property, operator, e⟩

end Condition

/-- The rule of a stored one. -/
def RuleDocument.compile (doc : RuleDocument) : Except StoreFault (Rule Intent) := do
  match Decision.ofName? doc.decision with
  | none => throw (.unknownDecision doc.name doc.decision)
  | some decision =>
    let conditions ← doc.conditions.mapM (Condition.compile doc.name)
    return Rule.ofPred doc.name decision fun i => conditions.all (·.holds i)

/-- The policy of a stored one. -/
def PolicyDocument.compile (doc : PolicyDocument) : Except StoreFault (Policy Intent) := do
  return ⟨← doc.rules.mapM RuleDocument.compile⟩

end IntentGate
