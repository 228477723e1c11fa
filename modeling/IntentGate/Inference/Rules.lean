import IntentGate.Inference.Pattern
import IntentGate.Inference.Session

/-!
# Rule-based models

A model of rules takes the verdict of the first rule that has one. Its signals are the dimensions of
the vector, whatever the verdict; without a verdict the intent is unknown.
-/

namespace IntentGate

/-- What a rule concludes. -/
structure Verdict where
  name : String
  score : Float
  reasoning : Option String := none
deriving DecidableEq

/-- A rule on spaces; to reach its verdict it may take the vector of the space. -/
structure IntentRule where
  verdict : Space → Option Verdict
  takesVector : Space → Bool := fun _ => false

namespace IntentRule

/-- The name of an intent, filled in: an `n` in braces stands for the number of events, then an `a`
in braces for the first action. -/
def fillName (template : String) (s : Space) : String :=
  let count := String.ofList (Text.decimalDigits s.events.length)
  let action := (s.events.head?.map Event.action).getD ""
  Text.replace (Text.replace template "\x7bn\x7d" count) "\x7ba\x7d" action

/-- The rule that concludes a name, to be filled in, from a pattern. -/
def ofPattern (pattern : Pattern) (template : String) (score : Float)
    (reasoning : Option String := none) : IntentRule where
  verdict s := if pattern.holds s then some ⟨fillName template s, score, reasoning⟩ else none
  takesVector := pattern.takesVector

end IntentRule

namespace Model

/-- The source of the signals of rules. -/
def ruleSource : String := "rule"

/-- The reasoning of a model none of whose rules has a verdict. -/
def noRuleMatched : String := "No rule matched"

/-- The verdict of the first rule that has one. -/
def firstVerdict : List IntentRule → InferM (Option Verdict)
  | [] => pure none
  | r :: rest => do
    let s ← InferM.space
    if r.takesVector s then discard InferM.spaceVector
    match r.verdict s with
    | some v => pure (some v)
    | none => firstVerdict rest

/-- A model of rules whose scores are graded by a function. -/
def ofRulesGraded (rules : List IntentRule) (grade : Float → Confidence) : Model := fun given => do
  let signals := Signal.ofVector ruleSource (← resolve given)
  match ← firstVerdict rules with
  | some v => return ⟨v.name, signals, grade v.score, v.reasoning⟩
  | none => return ⟨Intent.unknownName, signals, grade 0, some noRuleMatched⟩

/-- A model of rules. -/
def ofRules (rules : List IntentRule) (calculator : Calculator) : Model :=
  ofRulesGraded rules calculator.ofScore

/-- The structural dump of a model of so many rules. -/
def rulesDiagnostic (count : Nat) : String :=
  "RuleBasedIntentModel \x7b rules: " ++ toString count ++ " \x7d"

end Model

end IntentGate
