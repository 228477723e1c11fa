import IntentGate.Behavior.Space
import IntentGate.Fault

/-!
# Building a space

A `SpaceBuilder` takes actions of a current actor, ready events and tags, in any order. An action
that comes before any actor spoils the result, whatever follows.
-/

namespace IntentGate

/-- A space under construction. -/
structure SpaceBuilder where
  space : Space := {}
  actor : Option String := none
  fault : Option ConfigurationFault := none

namespace SpaceBuilder

/-- Sets the actor of the actions to come. -/
def withActor (b : SpaceBuilder) (name : String) : SpaceBuilder :=
  { b with actor := some name }

/-- Adds an action of the current actor. -/
def action (b : SpaceBuilder) (name : String) (occurredAt : Instant)
    (tags : Dict Tag := Dict.empty) : SpaceBuilder :=
  if b.fault.isSome then b
  else
    match b.actor with
    | some actor => { b with space := b.space.observe ⟨actor, name, occurredAt, tags⟩ }
    | none => { b with fault := some (.missingField "actor") }

/-- Adds a ready event. -/
def observe (b : SpaceBuilder) (e : Event) : SpaceBuilder :=
  { b with space := b.space.observe e }

/-- Sets a tag of the space. -/
def setTag (b : SpaceBuilder) (key : String) (value : Tag) : SpaceBuilder :=
  { b with space := b.space.setTag key value }

/-- The finished space, or what was missing. -/
def build (b : SpaceBuilder) : Except ConfigurationFault Space :=
  match b.fault with
  | some fault => .error fault
  | none => .ok b.space

end SpaceBuilder

end IntentGate
