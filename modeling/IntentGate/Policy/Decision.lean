import IntentGate.Json.Record
import IntentGate.Text.Ascii
import IntentGate.Text.Blank

/-!
# Decisions

The seven answers that a policy can give. Where nothing decides, the answer is `observe`.
-/

namespace IntentGate

/-- What to do about an intent. -/
inductive Decision where
  | allow
  | observe
  | warn
  | block
  | escalate
  | requireAuth
  | rateLimit
deriving DecidableEq, Repr

namespace Decision

instance : Inhabited Decision := ⟨observe⟩

/-- Every decision. -/
def all : List Decision := [allow, observe, warn, block, escalate, requireAuth, rateLimit]

/-- The name of a decision. -/
def name : Decision → String
  | allow => "Allow"
  | observe => "Observe"
  | warn => "Warn"
  | block => "Block"
  | escalate => "Escalate"
  | requireAuth => "RequireAuth"
  | rateLimit => "RateLimit"

/-- The decision of a name; blanks around it, hyphens, underscores and ASCII case are ignored. -/
def ofName? (s : String) : Option Decision :=
  let folded := String.ofList ((Text.trimChars s.toList).filter fun c => c ≠ '_' ∧ c ≠ '-')
  all.find? fun d => Text.sameIgnoringCase d.name folded

/-- The stored form. -/
def toJson (d : Decision) : Json := .text d.name

/-- Reads a stored decision, by its exact name. -/
def ofJson? (j : Json) : Option Decision :=
  j.toCase?.bind fun s => all.find? fun d => d.name == s

instance : Stored Decision := ⟨toJson, ofJson?⟩

end Decision

end IntentGate
