import IntentGate.Text.Quoted

/-!
# Faults

What can go wrong, as causes. Every cause has one wording, its `message`, and some rest on another
one: `causes` lists the messages of those below it, nearest first, and `trace` writes them all.
-/

namespace IntentGate

/-- A cause with a wording and the wordings of the causes below it. -/
class Fault (ε : Type) where
  message : ε → String
  causes : ε → List String

namespace Fault

/-- The message and, line by line, what it was caused by. -/
def trace {ε : Type} [Fault ε] (e : ε) : String :=
  "\n".intercalate (message e :: (causes e).map ("caused by: " ++ ·))

end Fault

/-- Parts that cannot be put together. -/
inductive ConfigurationFault where
  | noStages
  | noEngines
  | missingField (name : String)
  | invalidValue (field reason : String)
deriving DecidableEq, Repr

/-- Why a provider gave no embedding. -/
inductive FailureKind where
  | rateLimited
  | timeout
  | http (status : Nat)
  | malformedResponse
  | other
deriving DecidableEq, Repr

/-- A provider's refusal of a key. -/
structure ProviderFailure where
  provider : String
  kind : FailureKind
  message : String
deriving DecidableEq, Repr

/-- Why an inference gave no intent. -/
inductive InferenceFault where
  | provider (failure : ProviderFailure)
  | cancelled
  | configuration (cause : ConfigurationFault)
  | task (message : String)
deriving DecidableEq, Repr

/-- A fault of configuring or of inferring. -/
inductive GateFault where
  | configuration (cause : ConfigurationFault)
  | inference (cause : InferenceFault)
deriving DecidableEq, Repr

/-- Why the test of a rule gave no answer. -/
inductive RuleFault where
  | evaluation (message : String)
  | missingContext (field : String)
deriving DecidableEq, Repr

/-- Why a stored policy is refused. -/
inductive StoreFault where
  | json
  | yaml
  | unreadable (message : String)
  | unknownProperty (rule property : String)
  | unknownOperator (rule operator : String)
  | unknownDecision (rule decision : String)
  | invalidValue (rule property reason : String)
deriving DecidableEq, Repr

/-- Why the settings of the environment are refused. -/
structure SettingsFault where
  variableName : String
  value : String
  reason : String
deriving DecidableEq, Repr

namespace FailureKind

/-- The kind in words. -/
def text : FailureKind → String
  | rateLimited => "rate limited"
  | timeout => "timeout"
  | http status => "HTTP " ++ toString status
  | malformedResponse => "malformed response"
  | other => "other"

end FailureKind

instance : Fault ConfigurationFault where
  message
    | .noStages => "at least one inference stage is required"
    | .noEngines => "at least one similarity engine is required"
    | .missingField name => "missing required field: " ++ name
    | .invalidValue field reason => "invalid value for " ++ field ++ ": " ++ reason
  causes _ := []

instance : Fault ProviderFailure where
  message f :=
    "embedding provider " ++ f.provider ++ " failed (" ++ f.kind.text ++ "): " ++ f.message
  causes _ := []

instance : Fault InferenceFault where
  message
    | .provider failure => Fault.message failure
    | .cancelled => "inference cancelled"
    | .configuration cause => "configuration error: " ++ Fault.message cause
    | .task message => "inference task failed: " ++ message
  causes
    | .configuration cause => Fault.message cause :: Fault.causes cause
    | _ => []

instance : Fault GateFault where
  message
    | .configuration cause => "configuration error: " ++ Fault.message cause
    | .inference cause => "inference error: " ++ Fault.message cause
  causes
    | .configuration cause => Fault.message cause :: Fault.causes cause
    | .inference cause => Fault.message cause :: Fault.causes cause

instance : Fault RuleFault where
  message
    | .evaluation message => "rule evaluation failed: " ++ message
    | .missingContext field => "rule requires context field `" ++ field ++ "`"
  causes _ := []

instance : Fault StoreFault where
  message
    | .json => "invalid JSON policy document"
    | .yaml => "invalid YAML policy document"
    | .unreadable message => "cannot read policy document: " ++ message
    | .unknownProperty rule property =>
      "rule `" ++ rule ++ "`: unknown property `" ++ property ++ "`"
    | .unknownOperator rule operator =>
      "rule `" ++ rule ++ "`: unknown operator `" ++ operator ++ "`"
    | .unknownDecision rule decision =>
      "rule `" ++ rule ++ "`: unknown decision `" ++ decision ++ "`"
    | .invalidValue rule property reason =>
      "rule `" ++ rule ++ "`: invalid value for `" ++ property ++ "`: " ++ reason
  causes
    | .unreadable message => [message]
    | _ => []

instance : Fault SettingsFault where
  message f :=
    "invalid value for " ++ f.variableName ++ ": " ++ Text.quoted f.value ++ " (" ++ f.reason ++ ")"
  causes _ := []

end IntentGate
