import IntentGate.Json.Reader
import IntentGate.Policy.Context

/-!
# Records of execution

An `ExecutionRecord` tells what one evaluation came to; an `ExecutionLog` keeps the latest ones.
When the log is full, a tenth of it, and at least one record, makes room at the old end. A
`DecisionRecord` is what is stored about a decision elsewhere.
-/

namespace IntentGate

/-- When an evaluation was recorded and how long it took. -/
structure Timing where
  recordedAt : Instant := default
  milliseconds : Float := 0

/-- What one evaluation came to. -/
structure ExecutionRecord where
  intentName : String
  matchedRule : Option String
  decision : Decision
  milliseconds : Float
  success : Bool
  errorMessage : Option String
  errorTrace : Option String
  recordedAt : Instant
deriving DecidableEq

/-- The latest records, up to a capacity of at least one. -/
structure ExecutionLog where
  records : Array ExecutionRecord := #[]
  capacity : Nat := 10000
  capacity_pos : 0 < capacity := by decide

/-- A decision as it is stored elsewhere. -/
structure DecisionRecord where
  /-- An identifier of 128 bits. -/
  recordId : BitVec 128
  spaceId : String
  intentName : String
  level : Level
  score : Float
  decision : Decision
  recordedAt : Instant
  metadata : Option (Dict Tag) := none
  entityId : Option String := none
deriving DecidableEq

namespace ExecutionRecord

/-- The record of an evaluation in which no test failed. -/
def succeeded (intentName : String) (matchedRule : Option String) (decision : Decision)
    (timing : Timing) : ExecutionRecord :=
  ⟨intentName, matchedRule, decision, timing.milliseconds, true, none, none, timing.recordedAt⟩

/-- The record of an evaluation that a failing test ended. -/
def failed {ε : Type} [Fault ε] (intentName : String) (decision : Decision) (cause : ε)
    (timing : Timing) : ExecutionRecord :=
  ⟨intentName, none, decision, timing.milliseconds, false, some (Fault.message cause),
    some (Fault.trace cause), timing.recordedAt⟩

/-- The names of the stored fields, in order. -/
def fieldNames : List String :=
  ["intent_name", "matched_rule", "decision", "duration_ms", "success", "error_message",
    "error_trace", "recorded_at"]

/-- The stored form. -/
def toJson (r : ExecutionRecord) : Json :=
  .object <|
    [("intent_name", .text r.intentName), ("matched_rule", Json.ofOptional .text r.matchedRule),
      ("decision", r.decision.toJson), ("duration_ms", .ofFloat r.milliseconds),
      ("success", .bool r.success)]
    ++ Json.optionalField "error_message" .text r.errorMessage
    ++ Json.optionalField "error_trace" .text r.errorTrace
    ++ [("recorded_at", r.recordedAt.toJson)]

/-- Reads a stored record. -/
def ofJson? (j : Json) : Option ExecutionRecord := do
  match ← j.slots? fieldNames with
  | [intentName, matchedRule, decision, milliseconds, success, message, trace, recordedAt] =>
    some
      { intentName := ← intentName.required Json.toText?
        matchedRule := ← matchedRule.optional (Json.toOptional? Json.toText?)
        decision := ← decision.required Decision.ofJson?
        milliseconds := ← milliseconds.required Json.toFloat?
        success := ← success.required Json.toBool?
        errorMessage := ← message.omittable (Json.toOptional? Json.toText?)
        errorTrace := ← trace.omittable (Json.toOptional? Json.toText?)
        recordedAt := ← recordedAt.required Instant.ofJson? }
  | _ => none

instance : Stored ExecutionRecord := ⟨toJson, ofJson?⟩

end ExecutionRecord

namespace ExecutionLog

/-- An empty log; a capacity of zero counts as one. -/
def ofCapacity (capacity : Nat) : ExecutionLog :=
  { capacity := max capacity 1, capacity_pos := by omega }

/-- How many records make room when the log is full. -/
def trim (l : ExecutionLog) : Nat :=
  max (l.capacity / 10) 1

/-- Adds a record at the new end, after making room at the old one if the log is full. -/
def append (l : ExecutionLog) (r : ExecutionRecord) : ExecutionLog :=
  let full := l.capacity ≤ l.records.size
  let kept := if full then l.records.extract l.trim l.records.size else l.records
  { l with records := kept.push r }

/-- The records of evaluations that a failing test ended. -/
def failures (l : ExecutionLog) : List ExecutionRecord :=
  l.records.toList.filter fun r => !r.success

/-- The newest record. -/
def last? (l : ExecutionLog) : Option ExecutionRecord :=
  l.records.back?

/-- The number of records. -/
def size (l : ExecutionLog) : Nat :=
  l.records.size

/-- The log without its records. -/
def clear (l : ExecutionLog) : ExecutionLog :=
  { l with records := #[] }

/-- The structural dump. -/
def diagnostic (l : ExecutionLog) : String :=
  "ExecutionLog \x7b records: " ++ toString l.size ++ ", max_records: " ++ toString l.capacity
    ++ " \x7d"

end ExecutionLog

namespace DecisionRecord

/-- The record of a decision about an intent. -/
def ofIntent (recordId : BitVec 128) (spaceId : String) (i : Intent) (decision : Decision)
    (recordedAt : Instant) : DecisionRecord :=
  { recordId, spaceId, decision, recordedAt
    intentName := i.name
    level := i.level
    score := i.score }

/-- Sets one value of the metadata. -/
def withMetadata (r : DecisionRecord) (key : String) (value : Tag) : DecisionRecord :=
  { r with metadata := some ((r.metadata.getD Dict.empty).insert key value) }

/-- Names the entity that the decision is about. -/
def withEntity (r : DecisionRecord) (entityId : String) : DecisionRecord :=
  { r with entityId := some entityId }

/-! ## Identifiers -/

/-- The lengths of the groups of an identifier's hexadecimal digits. -/
def idGroups : List Nat := [8, 4, 4, 4, 12]

/-- Hexadecimal digits in groups with hyphens between them. -/
def hyphenated : List Nat → List Char → List Char
  | [], ds => ds
  | [_], ds => ds
  | n :: ns, ds => ds.take n ++ '-' :: hyphenated ns (ds.drop n)

/-- The text of an identifier: thirty-two lower-case digits in groups. -/
def idText (id : BitVec 128) : String :=
  let ds := Nat.toDigits 16 id.toNat
  String.ofList (hyphenated idGroups (List.replicate (32 - ds.length) '0' ++ ds))

/-- Removes the hyphens between the groups; none where one is missing. -/
def ungrouped? : List Nat → List Char → Option (List Char)
  | [], _ => none
  | [n], ds => if ds.length = n then some ds else none
  | n :: ns, ds =>
    match ds.drop n with
    | '-' :: rest => (ungrouped? ns rest).map (ds.take n ++ ·)
    | _ => none

/-- The identifier of thirty-two hexadecimal digits. -/
def idOfDigits? (ds : List Char) : Option (BitVec 128) :=
  if ds.length = 32 then
    (ds.mapM Json.hexValue?).map fun vs => BitVec.ofNat 128 (vs.foldl (fun n v => 16 * n + v) 0)
  else none

/-- Reads an identifier: its digits alone or grouped, and a grouped one also between braces or after
its scheme, which may be in capitals. -/
def idOfText? (s : String) : Option (BitVec 128) :=
  let cs := s.toList
  let grouped (cs : List Char) : Option (BitVec 128) := (ungrouped? idGroups cs).bind idOfDigits?
  if cs.length = 32 then idOfDigits? cs
  else if cs.length = 38 && cs.head? == some '\x7b' && cs.getLast? == some '\x7d' then
    grouped ((cs.drop 1).take 36)
  else if (cs.take 9).map Char.toLower == "urn:uuid:".toList then grouped (cs.drop 9)
  else grouped cs

/-- The names of the stored fields, in order. -/
def fieldNames : List String :=
  ["record_id", "behavior_space_id", "intent_name", "confidence_level", "confidence_score",
    "decision", "recorded_at", "metadata", "entity_id"]

/-- The stored form. -/
def toJson (r : DecisionRecord) : Json :=
  .object <|
    [("record_id", .text (idText r.recordId)), ("behavior_space_id", .text r.spaceId),
      ("intent_name", .text r.intentName), ("confidence_level", r.level.toJson),
      ("confidence_score", .ofFloat r.score), ("decision", r.decision.toJson),
      ("recorded_at", r.recordedAt.toJson)]
    ++ Json.optionalField "metadata" (Json.ofDict Tag.toJson) r.metadata
    ++ Json.optionalField "entity_id" .text r.entityId

/-- Reads a stored record. -/
def ofJson? (j : Json) : Option DecisionRecord := do
  match ← j.slots? fieldNames with
  | [recordId, spaceId, intentName, level, score, decision, recordedAt, metadata, entityId] =>
    some
      { recordId := ← recordId.required fun j => j.toText?.bind idOfText?
        spaceId := ← spaceId.required Json.toText?
        intentName := ← intentName.required Json.toText?
        level := ← level.required Level.ofJson?
        score := ← score.required Json.toFloat?
        decision := ← decision.required Decision.ofJson?
        recordedAt := ← recordedAt.required Instant.ofJson?
        metadata := ← metadata.omittable (Json.toOptional? (Json.toDict? Tag.ofJson?))
        entityId := ← entityId.omittable (Json.toOptional? Json.toText?) }
  | _ => none

instance : Stored DecisionRecord := ⟨toJson, ofJson?⟩

end DecisionRecord

end IntentGate
