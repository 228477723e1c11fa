import IntentGate.Decimal.Layout
import IntentGate.Decimal.Reading
import IntentGate.Dict
import IntentGate.Fault
import IntentGate.Text.Blank
import IntentGate.Time.Instant

/-!
# Settings

The settings of a deployment, read from named variables. A variable that is absent leaves the
default; one that is there has to parse, blanks around it aside, and two of them have to be in
range. The first offending variable, in a fixed order, is the fault.
-/

namespace IntentGate

/-- The settings of a deployment. -/
structure Settings where
  rateLimit : Nat := 100
  /-- The throttling window in nanoseconds. -/
  rateWindow : Nat := 60 * Span.perSecond
  chainThreshold : Float := 0.7
  /-- The half-life of events in nanoseconds. -/
  decayHalfLife : Nat := 3600 * Span.perSecond
  executionLog : Bool := false
deriving DecidableEq

/-- What a throttled decision acquires. -/
structure ThrottleRequest where
  key : String
  limit : Nat
  /-- The window in nanoseconds. -/
  window : Nat
deriving DecidableEq, Repr

namespace Settings

/-- The settings when no variable is set. -/
def standard : Settings := {}

/-- The longest throttling window, in seconds: a leap year. -/
def maxWindowSeconds : Nat := 366 * 24 * 60 * 60

/-- Reads `true` or `false`. -/
def readFlag (s : String) : Except String Bool :=
  if s = "true" then .ok true
  else if s = "false" then .ok false
  else .error "provided string was not `true` or `false`"

/-- Reads a natural number up to `bound`. -/
def readNatural (bound : Nat) (s : String) : Except String Nat :=
  (Reading.natural bound s).mapError NaturalFault.message

/-- Reads a real number. -/
def readReal (s : String) : Except String Float :=
  (Reading.real s).mapError RealFault.message

/-- Reads a variable if it is there; the fault carries its text as given. -/
def named? {α : Type} (lookup : String → Option String) (name : String)
    (read : String → Except String α) : Except SettingsFault (Option α) :=
  match lookup name with
  | none => .ok none
  | some raw =>
    match read (Text.trim raw) with
    | .ok a => .ok (some a)
    | .error reason => .error ⟨name, raw, reason⟩

/-- The chain threshold, within the unit interval. -/
def readChainThreshold (lookup : String → Option String) : Except SettingsFault Float := do
  let name := "INTENTUM_CHAIN_THRESHOLD"
  let threshold := (← named? lookup name readReal).getD standard.chainThreshold
  if 0 ≤ threshold ∧ threshold ≤ 1 then return threshold
  throw ⟨name, Layout.plain.text threshold, "must be within [0, 1]"⟩

/-- The throttling window, a number of seconds from one up to `maxWindowSeconds`. -/
def readRateWindow (lookup : String → Option String) : Except SettingsFault Nat := do
  let name := "INTENTUM_RATE_WINDOW_SECS"
  match ← named? lookup name (readNatural (UInt64.size - 1)) with
  | none => return standard.rateWindow
  | some seconds =>
    if 1 ≤ seconds ∧ seconds ≤ maxWindowSeconds then return seconds * Span.perSecond
    throw ⟨name, toString seconds, "must be within [1, " ++ toString maxWindowSeconds ++ "]"⟩

/-- Reads all settings, the first offending variable being the fault. -/
def load (lookup : String → Option String) : Except SettingsFault Settings := do
  let chainThreshold ← readChainThreshold lookup
  let rateWindow ← readRateWindow lookup
  let rateLimit ← named? lookup "INTENTUM_RATE_LIMIT" (readNatural (UInt32.size - 1))
  let halfLife ← named? lookup "INTENTUM_DECAY_HALF_LIFE_SECS" (readNatural (UInt64.size - 1))
  let executionLog ← named? lookup "INTENTUM_EXECUTION_LOG" readFlag
  return {
    rateLimit := rateLimit.getD standard.rateLimit
    rateWindow := rateWindow
    chainThreshold := chainThreshold
    decayHalfLife := (halfLife.map (· * Span.perSecond)).getD standard.decayHalfLife
    executionLog := executionLog.getD standard.executionLog }

/-- What a throttled decision on a key acquires. -/
def throttleRequest (s : Settings) (key : String) : ThrottleRequest :=
  ⟨key, s.rateLimit, s.rateWindow⟩

/-- The half-life as a signed span, at most the longest one. -/
def halfLifeSpan (s : Settings) : Span :=
  if (s.decayHalfLife : Int) ≤ Span.longest then s.decayHalfLife else Span.longest

/-- The structural dump; durations are in whole seconds. -/
def diagnostic (s : Settings) : String :=
  "RuntimeConfig \x7b rate_limit: " ++ toString s.rateLimit ++ "/"
    ++ toString (s.rateWindow / Span.perSecond) ++ "s"
    ++ ", chain_threshold: " ++ Layout.diagnostic.text s.chainThreshold
    ++ ", decay_half_life_secs: " ++ toString (s.decayHalfLife / Span.perSecond)
    ++ ", execution_log_enabled: " ++ (if s.executionLog then "true" else "false") ++ " \x7d"

end Settings

end IntentGate
