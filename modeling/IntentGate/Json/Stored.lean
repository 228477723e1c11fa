import IntentGate.Json.Reader
import IntentGate.Json.Record
import IntentGate.Json.Writer

/-!
# Stored texts

The text of a stored value is the compact text of its document; a value is read from any text of a
document that its type accepts.
-/

namespace IntentGate.Stored

variable {α : Type} [Stored α]

/-- The stored text of a value. -/
def text (a : α) : String :=
  (toJson a).render

/-- Reads a value from a text. -/
def ofText? (text : String) : Option α :=
  (Json.parse? text).bind ofJson?

end IntentGate.Stored
