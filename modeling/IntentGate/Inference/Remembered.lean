import IntentGate.Inference.Session

/-!
# Models that remember

A model that remembers keeps the intents of an inner model under the keys of their vectors. It asks
the inner model, with the vector, only where there is no live entry; faults are never kept.
-/

namespace IntentGate.Model

/-- How intents are kept for a lifetime, or forever. -/
def retention (lifetime : Option Nat) : Retention := ⟨lifetime, 1024⟩

/-- The model of a number that remembers what another one infers. -/
def remembering (number : Nat) (lifetime : Option Nat) (inner : Model) : Model := fun given => do
  let v ← resolve given
  let key := v.cacheKey
  let now ← InferM.ofSession Session.now
  match ← InferM.ofSession (Session.onIntents number fun s => s.lookup now key) with
  | some i => return i
  | none =>
    let i ← inner (some v)
    let now ← InferM.ofSession Session.now
    InferM.ofSession <|
      Session.onIntents number fun s => ((), s.store (retention lifetime) now key i)
    return i

/-- Drops what has expired, and says how much. -/
def evict (number : Nat) : SessionM Nat := do
  let now ← Session.now
  Session.onIntents number fun s => s.evict now

/-- Forgets everything. -/
def forget (number : Nat) : SessionM Unit :=
  Session.onIntents number fun _ => ((), .empty)

end IntentGate.Model
