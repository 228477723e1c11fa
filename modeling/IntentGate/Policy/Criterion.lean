import IntentGate.Policy.Context
import IntentGate.Text.Search

/-!
# Criteria

Ready-made tests for rules, on the intent alone or on its context too. A criterion that requires a
part of the context fails where the part is missing; the others simply do not hold.
-/

namespace IntentGate

/-- A test on an intent and its context. -/
inductive Criterion where
  | always
  | never
  | scoreAtLeast (bound : Float)
  | scoreBelow (bound : Float)
  | nameIs (name : String)
  | levelIs (level : Level)
  | levelAtLeast (level : Level)
  | levelAtMost (level : Level)
  /-- At least `count` signals have `text` in their description. -/
  | mentions (text : String) (count : Nat)
  | fails (message : String)
  | loadAbove (bound : Float)
  | regionIs (region : String)
  /-- At least `count` past intents have the name, the intent's own if none is given. -/
  | recentAtLeast (name : Option String) (count : Nat)
  | customIs (key : String) (value : Tag)
  | requireLoadAbove (bound : Float)
  | requireRegionOtherThan (region : String)
deriving DecidableEq

namespace Criterion

/-- Equality of tags; a number is compared as a number. -/
def sameTag : Tag → Tag → Bool
  | .text s, .text t => s == t
  | .number x, .number y => x == y
  | .flag b, .flag c => b == c
  | _, _ => false

/-- Puts the criterion to an intent in its context. -/
def test (c : Criterion) (situation : Situation) : Except RuleFault Bool :=
  let (intent, context) := situation
  match c with
  | always => .ok true
  | never => .ok false
  | scoreAtLeast bound => .ok (bound ≤ intent.score)
  | scoreBelow bound => .ok (intent.score < bound)
  | nameIs name => .ok (intent.name == name)
  | levelIs level => .ok (intent.level == level)
  | levelAtLeast level => .ok (level.rank ≤ intent.level.rank)
  | levelAtMost level => .ok (intent.level.rank ≤ level.rank)
  | mentions text count =>
    .ok (count ≤ intent.signals.countP fun s => Text.contains s.description text)
  | fails message => .error (.evaluation message)
  | loadAbove bound => .ok (context.systemLoad.any fun load => bound < load)
  | regionIs region => .ok (context.region == some region)
  | recentAtLeast name count => .ok (count ≤ context.recentCount (name.getD intent.name))
  | customIs key value => .ok ((context.custom.get? key).any (sameTag value))
  | requireLoadAbove bound => context.requireLoad.map fun load => bound < load
  | requireRegionOtherThan region => context.requireRegion.map fun r => r != region

/-- Puts the criterion to an intent without context. -/
def testIntent (c : Criterion) (intent : Intent) : Except RuleFault Bool :=
  c.test (intent, {})

/-- The value of the first case whose criterion holds of an intent. -/
def choose (cases : List (Criterion × String)) (otherwise : String) (intent : Intent) : String :=
  match cases.find? fun c => (c.1.testIntent intent).toOption == some true with
  | some (_, value) => value
  | none => otherwise

end Criterion

end IntentGate
