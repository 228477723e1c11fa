import IntentGate.Policy.Execution
import IntentGate.Policy.Variants
import IntentGate.Settings
import IntentGate.Throttle

/-!
# The engine

An `Engine` evaluates policies and, if it has a log, records every evaluation in it. All ways to ask
for a decision go through `run`, which evaluates once and appends one record; they differ in what
they give back. A throttled decision asks its limiter only when the policy says so.
-/

namespace IntentGate

/-- An evaluator of policies with an optional log. -/
structure Engine where
  log : Option ExecutionLog := none

/-- What answers acquisitions: given a request and a clock reading, a grant; it may change with
each. -/
abbrev Limiter (ℓ : Type) := ThrottleRequest → Nat → StateM ℓ Grant

/-- The limiter that a throttle is. -/
def Limiter.ofThrottle : Limiter Throttle := fun request now throttle =>
  throttle.acquire request.key request.limit request.window now

namespace Engine

/-- An engine with a log of the usual capacity if the settings ask for one. -/
def ofSettings (s : Settings) : Engine :=
  ⟨if s.executionLog then some {} else none⟩

/-- The record of an evaluation. -/
def recordOf {σ : Type} (intent : Intent) (e : Evaluation σ) (timing : Timing) : ExecutionRecord :=
  match e.failure with
  | some (_, fault) => .failed intent.name e.decision fault timing
  | none => .succeeded intent.name e.matchedName e.decision timing

/-- Evaluates a policy about an intent and records it. -/
def run {σ : Type} (engine : Engine) (intent : Intent) (policy : Policy σ) (subject : σ)
    (timing : Timing) : Evaluation σ × ExecutionRecord × Engine :=
  let e := policy.evaluate subject
  let record := recordOf intent e timing
  (e, record, ⟨engine.log.map fun log => log.append record⟩)

/-- The decision of a policy. -/
def decide (engine : Engine) (intent : Intent) (policy : Policy Intent) (timing : Timing := {}) :
    Decision × Engine :=
  let (e, _, engine) := engine.run intent policy intent timing
  (e.decision, engine)

/-- The decision of a policy with the rule that took it. -/
def decideWithRule (engine : Engine) (intent : Intent) (policy : Policy Intent)
    (timing : Timing := {}) : (Decision × Option (Rule Intent)) × Engine :=
  let (e, _, engine) := engine.run intent policy intent timing
  ((e.decision, e.matched), engine)

/-- The decision of a policy with its record. -/
def decideWithRecord (engine : Engine) (intent : Intent) (policy : Policy Intent)
    (timing : Timing := {}) : (Decision × ExecutionRecord) × Engine :=
  let (e, record, engine) := engine.run intent policy intent timing
  ((e.decision, record), engine)

/-- The decision of a policy; if it is to throttle, a limiter is asked at a clock reading. -/
def decideLimited {ℓ : Type} (acquire : Limiter ℓ) (engine : Engine) (intent : Intent)
    (policy : Policy Intent) (limiter : ℓ) (request : ThrottleRequest) (now : Nat)
    (timing : Timing := {}) : (Decision × Option Grant) × Engine × ℓ :=
  let (decision, engine) := engine.decide intent policy timing
  if decision = .rateLimit then
    let (grant, limiter) := acquire request now limiter
    ((decision, some grant), engine, limiter)
  else ((decision, none), engine, limiter)

/-- The decision of a policy; if it is to throttle, the throttle is asked at a clock reading. -/
def decideThrottled (engine : Engine) (intent : Intent) (policy : Policy Intent)
    (throttle : Throttle) (request : ThrottleRequest) (now : Nat) (timing : Timing := {}) :
    (Decision × Option Grant) × Engine × Throttle :=
  engine.decideLimited Limiter.ofThrottle intent policy throttle request now timing

/-- The decision of the variant selected for an intent; nothing is recorded when there is none. -/
def decideVariant (engine : Engine) (intent : Intent) (variants : VariantSet)
    (timing : Timing := {}) : Decision × Engine :=
  match variants.policyFor? intent with
  | some (_, policy) => engine.decide intent policy timing
  | none => (.observe, engine)

/-- The decision of a context-aware policy. -/
def decideInContext (engine : Engine) (intent : Intent) (context : Context)
    (policy : Policy Situation) (timing : Timing := {}) : Decision × Engine :=
  let (e, _, engine) := engine.run intent policy (intent, context) timing
  (e.decision, engine)

/-- The decision of a context-aware policy with the rule that took it. -/
def decideInContextWithRule (engine : Engine) (intent : Intent) (context : Context)
    (policy : Policy Situation) (timing : Timing := {}) :
    (Decision × Option (Rule Situation)) × Engine :=
  let (e, _, engine) := engine.run intent policy (intent, context) timing
  ((e.decision, e.matched), engine)

end Engine

end IntentGate
