import IntentGate.Inference.Session

/-!
# Probes

A probe stands before a model, counts its calls and puts faults into chosen ones: a provider's
failure in a range of calls, or the cancellation of the token at one of them. All other calls it
passes on.
-/

namespace IntentGate

/-- Which calls, counted from one, fail and which one cancels. -/
structure Probe where
  number : Nat := 0
  failFrom : Option Nat := none
  failUntil : Option Nat := none
  failure : ProviderFailure := ⟨"probe", .other, "configured"⟩
  cancelAt : Option Nat := none

namespace Probe

/-- Whether a call is to fail. -/
def fails (p : Probe) (call : Nat) : Bool :=
  p.failFrom.any (· ≤ call) && p.failUntil.all (call ≤ ·)

/-- Enters a call, cancels the token if it is time, and gives the number of the call. -/
def enter (p : Probe) : SessionM Nat := do
  Session.record (.infer p.number)
  let call := (← get).probeCalls p.number
  if p.cancelAt == some call then Session.cancel
  return call

end Probe

/-- A model behind a probe. -/
def Model.probed (p : Probe) (inner : Model) : Model := fun given => do
  let call ← InferM.ofSession p.enter
  if p.fails call then throw (.provider p.failure) else inner given

end IntentGate
