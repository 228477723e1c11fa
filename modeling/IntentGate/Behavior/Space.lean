import IntentGate.Behavior.Event
import IntentGate.Behavior.Vector
import IntentGate.Json.Stored
import IntentGate.Time.Window

/-!
# Behavior spaces

A `Space` holds events in the order they were observed, tags of its own, and a slot for the vector
of all its events. Only `toVector` fills the slot and only `observe` empties it; spaces derived from
another one by filtering, masking or reading start with an empty slot.
-/

namespace IntentGate

/-- Observed behavior: events in arrival order, tags, and the vector once it has been taken. -/
structure Space where
  events : List Event := []
  tags : Dict Tag := Dict.empty
  cached : Option BehaviorVector := none
deriving DecidableEq

namespace Space

/-- The space without events and tags. -/
def empty : Space := {}

instance : Inhabited Space := ⟨empty⟩

/-- Appends an event and empties the slot. -/
def observe (s : Space) (e : Event) : Space :=
  { s with events := s.events ++ [e], cached := none }

/-- Sets a tag; the slot stays. -/
def setTag (s : Space) (key : String) (value : Tag) : Space :=
  { s with tags := s.tags.insert key value }

/-- The space of some events and tags. -/
def ofEvents (events : List Event) (tags : Dict Tag) : Space :=
  { events, tags }

/-- The dimensions of the events, in order of observation. -/
def dimensions (s : Space) : List String :=
  s.events.map Event.dimension

/-- The vector that counts the events of each dimension. -/
def counts (s : Space) : BehaviorVector :=
  BehaviorVector.ofKeys s.dimensions

/-- The vector of all events, from the slot if it is filled. -/
def vector (s : Space) : BehaviorVector :=
  s.cached.getD s.counts

/-- The space with its slot filled. -/
def warmed (s : Space) : Space :=
  { s with cached := some s.vector }

/-- The vector of all events, with the space whose slot now holds it. -/
def toVector (s : Space) : BehaviorVector × Space :=
  (s.vector, s.warmed)

/-- The normalized vector of all events; the slot is neither read nor filled. -/
def vectorWith (s : Space) (o : VectorOptions) : BehaviorVector :=
  s.counts.normalized o

/-- The events from `start` to `stop`, in order of observation. -/
def eventsBetween (s : Space) (start stop : Instant) : List Event :=
  s.events.filter fun e => start ≤ e.occurredAt && e.occurredAt ≤ stop

/-- The vector of the events from `start` to `stop`, normalized if asked. -/
def vectorBetween (s : Space) (start stop : Instant) (o : Option VectorOptions) : BehaviorVector :=
  let raw := BehaviorVector.ofKeys ((s.eventsBetween start stop).map Event.dimension)
  match o with
  | some o => raw.normalized o
  | none => raw

/-- The events in the last `span` before `now`, both ends included. -/
def eventsInLast (s : Space) (span : Span) (now : Instant) : List Event :=
  let w := Window.endingAt now span
  s.eventsBetween w.start w.stop

/-- The span from the first to the last event in time; none without events. -/
def timeSpan? (s : Space) : Option Span :=
  match s.events.map Event.occurredAt with
  | [] => none
  | t :: ts => some ((ts.foldl Instant.later t).since (ts.foldl Instant.sooner t))

/-- A new space with the events inside a window and the tags of this one. -/
def filtered (s : Space) (w : Window) : Space :=
  { events := s.events.filter fun e => w.contains e.occurredAt, tags := s.tags }

/-- The structural dump. -/
def diagnostic (s : Space) : String :=
  "BehaviorSpace \x7b events: " ++ toString s.events.length
    ++ ", metadata_keys: " ++ toString s.tags.size
    ++ ", vector_cached: " ++ (if s.cached.isSome then "true" else "false") ++ " \x7d"

/-! ## Snapshots -/

/-- The stored form; the slot is not part of it. -/
def toJson (s : Space) : Json :=
  .object <|
    ("events", .array (s.events.map Event.toJson)) :: Json.dictField "metadata" Tag.toJson s.tags

/-- Reads a stored space. -/
def ofJson? (j : Json) : Option Space := do
  match ← j.slots? ["events", "metadata"] with
  | [events, tags] =>
    some
      { events := ← events.required (Json.toList? Event.ofJson?)
        tags := ← tags.withDefault Dict.empty (Json.toDict? Tag.ofJson?) }
  | _ => none

instance : Stored Space := ⟨toJson, ofJson?⟩

/-- The snapshot text. -/
def snapshot (s : Space) : String :=
  Stored.text s

/-- Restores a space from a snapshot text. -/
def ofSnapshot? (text : String) : Option Space :=
  Stored.ofText? text

end Space

end IntentGate
