import IntentGate.Fault
import IntentGate.Time.Stored

/-!
# Time windows

A `Window` is a closed interval of instants. It is made from ordered bounds, or as the window of a
given length that ends at a reference; a negative length counts as zero, and a window that would
begin before the first instant begins there. A window read from a document is taken as it stands,
so its bounds need not be ordered.
-/

namespace IntentGate

/-- A closed interval of instants. -/
structure Window where
  start : Instant
  stop : Instant
deriving DecidableEq, Repr

namespace Window

/-- The window of a length that ends at a reference. -/
def endingAt (reference : Instant) (length : Span) : Window :=
  ⟨(reference.before? length.toNat).getD Instant.earliest, reference⟩

/-- The span between the bounds. -/
def length (w : Window) : Span :=
  w.stop.since w.start

/-- Whether an instant lies in the window, its bounds included. -/
def contains (w : Window) (t : Instant) : Bool :=
  w.start ≤ t && t ≤ w.stop

/-- The bounds in brackets. -/
def text (w : Window) : String :=
  "[" ++ w.start.offsetText ++ ", " ++ w.stop.offsetText ++ "]"

/-- Why bounds that are out of order make no window. -/
def disorderReason (start stop : Instant) : String :=
  "end " ++ stop.plain ++ " precedes start " ++ start.plain

/-- The window between two bounds, which have to be in order. -/
def between (start stop : Instant) : Except ConfigurationFault Window :=
  if stop < start then .error (.invalidValue "window" (disorderReason start stop))
  else .ok ⟨start, stop⟩

/-- The names of the stored fields, in order. -/
def fieldNames : List String := ["start", "end"]

/-- The stored form. -/
def toJson (w : Window) : Json :=
  .object [("start", w.start.toJson), ("end", w.stop.toJson)]

/-- Reads a stored window as it stands. -/
def ofJson? (j : Json) : Option Window := do
  match ← j.slots? fieldNames with
  | [start, stop] =>
    some ⟨← start.required Instant.ofJson?, ← stop.required Instant.ofJson?⟩
  | _ => none

instance : Stored Window := ⟨toJson, ofJson?⟩

end Window

end IntentGate
