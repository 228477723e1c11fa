import IntentGate.Inference.Session

/-!
# Providers

A provider on record enters each call in the journal, with the failure that it gave; one that
answers from a function is on record. A provider that remembers asks another one only for keys
without a live entry in its store; failures are never stored.
-/

namespace IntentGate.Provider

/-- The failure that an answer is, if it is one. -/
def failure? {α : Type} : Except ProviderFailure α → Option ProviderFailure
  | .ok _ => none
  | .error failure => some failure

/-- The provider whose calls are entered in the journal under a number. -/
def onRecord (number : Nat) (inner : Provider) : Provider := fun key => do
  let answer ← inner key
  Session.record (.embed number key (failure? answer))
  return answer

/-- The provider of a number that answers from a function. -/
def ofAnswers (number : Nat) (answer : String → Except ProviderFailure (Embedding Float)) :
    Provider :=
  onRecord number fun key => return answer key

/-- How embeddings are kept when no lifetime is chosen: for an hour. -/
def standardLifetime : Nat := 3600 * Span.perSecond

/-- How embeddings are kept for a lifetime, or forever. -/
def retention (lifetime : Option Nat) : Retention := ⟨lifetime, 4096⟩

/-- The provider of a number that remembers what another one answers. -/
def remembering (number : Nat) (lifetime : Option Nat) (inner : Provider) :
    Provider := fun key => do
  let now ← Session.now
  match ← Session.onEmbeddings number fun s => s.lookup now key with
  | some e => return .ok e
  | none =>
    match ← inner key with
    | .error failure => return .error failure
    | .ok e =>
      let now ← Session.now
      Session.onEmbeddings number fun s => ((), s.store (retention lifetime) now key e)
      return .ok e

end IntentGate.Provider
