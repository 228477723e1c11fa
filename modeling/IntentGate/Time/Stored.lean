import IntentGate.Json.Record
import IntentGate.Time.Rfc3339

/-!
# Stored instants

An instant is stored as its text, with the zone `Z`, and read from any text of an instant.
-/

namespace IntentGate.Instant

/-- The stored form of an instant. -/
def toJson (t : Instant) : Json := .text t.document

/-- Reads a stored instant. -/
def ofJson? (j : Json) : Option Instant :=
  j.toText?.bind ofText?

instance : Stored Instant := ⟨toJson, ofJson?⟩

end IntentGate.Instant
