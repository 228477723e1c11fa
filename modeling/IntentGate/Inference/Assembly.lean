import IntentGate.Inference.Probe
import IntentGate.Inference.Provider
import IntentGate.Inference.Remembered

/-!
# Assemblies

Models are put together from parts, and the parts that have a store or a counter in the session are
numbered while this is done: each one takes the next number of its kind, so no two share one. The
assembly also tells what a session holds for its parts, in the order of their numbers.
-/

namespace IntentGate

/-- The parts that have been numbered. -/
structure Assembly where
  /-- How many models remember. -/
  models : Nat := 0
  probes : Nat := 0
  /-- For each provider, whether it remembers. -/
  providers : List Bool := []

/-- Putting together a part. -/
abbrev AssembleM := StateM Assembly

namespace Assembly

/-- A model that remembers what another one infers. -/
def remembering (lifetime : Option Nat) (inner : Model) : AssembleM Model := fun a =>
  (Model.remembering a.models lifetime inner, { a with models := a.models + 1 })

/-- A model behind a probe. -/
def probed (p : Probe) (inner : Model) : AssembleM Model := fun a =>
  (Model.probed { p with number := a.probes } inner, { a with probes := a.probes + 1 })

/-- A provider that answers from a function; with a memory it remembers its answers for a lifetime,
or forever. -/
def provider (answer : String → Except ProviderFailure (Embedding Float))
    (memory : Option (Option Nat)) : AssembleM Provider := fun a =>
  let number := a.providers.length
  let base := Provider.ofAnswers number answer
  ((memory.map fun lifetime => Provider.remembering number lifetime base).getD base,
    { a with providers := a.providers ++ [memory.isSome] })

/-- How many intents each model remembers. -/
def intentCounts (a : Assembly) (s : Session) : List Nat :=
  (List.range a.models).map fun n => (s.intentStore n).size

/-- How often each probe has been called. -/
def probeCalls (a : Assembly) (s : Session) : List Nat :=
  (List.range a.probes).map s.probeCalls

/-- How often each provider has been called. -/
def providerCalls (a : Assembly) (s : Session) : List Nat :=
  (List.range a.providers.length).map s.providerCalls

/-- How many embeddings each provider remembers, if it does. -/
def embeddingCounts (a : Assembly) (s : Session) : List (Option Nat) :=
  a.providers.mapIdx fun n remembers => if remembers then some (s.embeddingStore n).size else none

end Assembly

end IntentGate
