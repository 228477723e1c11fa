import IntentGate.Behavior.Space
import IntentGate.Text.Ascii

/-!
# Masking

A space is masked before it leaves its owner: actors and actions are replaced by a placeholder or by
the first digits of their digest, and listed tags are redacted. Nothing else changes; an empty actor
or action has nothing to hide and stays empty. Tags of events are looked up by the exact key, tags
of the space up to ASCII case.
-/

namespace IntentGate

/-- What is masked, and how. -/
structure Masking where
  maskActor : Bool := true
  maskAction : Bool := true
  redactedKeys : List String := []
  useDigest : Bool := true
  placeholder : String := "***"
deriving DecidableEq, Repr

namespace Masking

/-- What a redacted tag reads. -/
def redacted : Tag := .text "[redacted]"

/-- How many digits of a digest stand for a masked text. -/
def digestDigits : Nat := 16

/-- The mask of a text. -/
def mask (m : Masking) (value : String) : String :=
  if value.isEmpty then ""
  else if m.useDigest then (Digest.ofText value).upperHexPrefix digestDigits
  else m.placeholder

/-- The tags of an event with the listed ones redacted. -/
def redactEventTags (m : Masking) (tags : Dict Tag) : Dict Tag :=
  tags.mapValues fun key value => if m.redactedKeys.contains key then redacted else value

/-- The tags of a space with the listed ones redacted, ASCII case ignored. -/
def redactSpaceTags (m : Masking) (tags : Dict Tag) : Dict Tag :=
  tags.mapValues fun key value =>
    if m.redactedKeys.any (Text.sameIgnoringCase · key) then redacted else value

/-- An event with what has to be masked in it. -/
def maskEvent (m : Masking) (e : Event) : Event :=
  { actor := if m.maskActor then m.mask e.actor else e.actor
    action := if m.maskAction then m.mask e.action else e.action
    occurredAt := e.occurredAt
    tags := m.redactEventTags e.tags }

/-- A new space with everything masked. -/
def apply (m : Masking) (s : Space) : Space :=
  Space.ofEvents (s.events.map m.maskEvent) (m.redactSpaceTags s.tags)

/-- The names of the stored fields, in order. -/
def fieldNames : List String :=
  ["mask_actor", "mask_action", "metadata_keys_to_redact", "use_hash", "placeholder"]

/-- The stored form. -/
def toJson (m : Masking) : Json :=
  .object
    [("mask_actor", .bool m.maskActor), ("mask_action", .bool m.maskAction),
      ("metadata_keys_to_redact", .array (m.redactedKeys.map .text)),
      ("use_hash", .bool m.useDigest), ("placeholder", .text m.placeholder)]

/-- Reads stored masking options. -/
def ofJson? (j : Json) : Option Masking := do
  match ← j.slots? fieldNames with
  | [maskActor, maskAction, redactedKeys, useDigest, placeholder] =>
    some
      { maskActor := ← maskActor.required Json.toBool?
        maskAction := ← maskAction.required Json.toBool?
        redactedKeys := ← redactedKeys.required (Json.toList? Json.toText?)
        useDigest := ← useDigest.required Json.toBool?
        placeholder := ← placeholder.required Json.toText? }
  | _ => none

instance : Stored Masking := ⟨toJson, ofJson?⟩

end Masking

end IntentGate
