import IntentGate.Behavior.Space
import IntentGate.Text.Search

/-!
# Patterns

Tests on a space: on its events, its tags and its vector. `all` and `any` look at their parts from
the left and stop at the first one that settles the answer; `takesVector` says whether a test comes
to look at the vector on the way.
-/

namespace IntentGate

/-- A test on a space. -/
inductive Pattern where
  | always
  | never
  /-- Some event has the action. -/
  | hasAction (action : String)
  /-- The text is part of the action of some event. -/
  | mentionsAction (text : String)
  | sizeAtLeast (count : Nat)
  | hasTag (key : String)
  /-- The vector has the dimension, with at least the value. -/
  | dimensionAtLeast (key : String) (bound : Float)
  | all (parts : List Pattern)
  | any (parts : List Pattern)

namespace Pattern

mutual

/-- Whether a space passes. -/
def holds (s : Space) : Pattern → Bool
  | always => true
  | never => false
  | hasAction action => s.events.any fun e => e.action == action
  | mentionsAction text => s.events.any fun e => Text.contains e.action text
  | sizeAtLeast count => count ≤ s.events.length
  | hasTag key => s.tags.contains key
  | dimensionAtLeast key bound => (s.vector.get? key).any (bound ≤ ·)
  | all parts => holdAll s parts
  | any parts => holdAny s parts

/-- Whether a space passes all tests. -/
def holdAll (s : Space) : List Pattern → Bool
  | [] => true
  | p :: rest => holds s p && holdAll s rest

/-- Whether a space passes one of some tests. -/
def holdAny (s : Space) : List Pattern → Bool
  | [] => false
  | p :: rest => holds s p || holdAny s rest

end

mutual

/-- Whether the test looks at the vector of a space. -/
def takesVector (s : Space) : Pattern → Bool
  | dimensionAtLeast _ _ => true
  | all parts => allTakeVector s parts
  | any parts => anyTakesVector s parts
  | _ => false

/-- Whether one of the tests up to the first that fails looks at the vector. -/
def allTakeVector (s : Space) : List Pattern → Bool
  | [] => false
  | p :: rest => takesVector s p || (holds s p && allTakeVector s rest)

/-- Whether one of the tests up to the first that passes looks at the vector. -/
def anyTakesVector (s : Space) : List Pattern → Bool
  | [] => false
  | p :: rest => takesVector s p || (!holds s p && anyTakesVector s rest)

end

end Pattern

end IntentGate
