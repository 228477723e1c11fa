import IntentGate.Behavior.Space
import IntentGate.Embedding
import IntentGate.Expiring
import IntentGate.Intent

/-!
# Sessions

A `Session` is what inferences share: the clocks, the token that cancels batches, the stores of
models and providers that remember, and a journal of all calls that leave the library. A `Scene`
adds the space that one inference is about, whose slot the inference may fill. Inferences are
actions on a scene that give an intent or a fault; what they did to the scene stands in both cases.
-/

namespace IntentGate

/-- A call that is entered in the journal. -/
inductive Call where
  /-- A provider was asked for a key, and refused it if there is a failure. -/
  | embed (provider : Nat) (key : String) (failure : Option ProviderFailure)
  /-- A probe was asked for an intent. -/
  | infer (probe : Nat)
deriving DecidableEq, Repr

/-- What inferences share. Stores are numbered. -/
structure Session where
  wallClock : WallClock := {}
  /-- The readings of the steady clock, in nanoseconds, one after another. -/
  clock : Nat → Nat := fun _ => 0
  /-- How often the steady clock has been read. -/
  readings : Nat := 0
  cancelled : Bool := false
  /-- All calls, the latest first. -/
  journal : List Call := []
  intents : Table Nat (Expiring Intent) := Table.empty
  embeddings : Table Nat (Expiring (Embedding Float)) := Table.empty

/-- The space that an inference is about, and the session it is made in. -/
structure Scene where
  space : Space
  session : Session

/-- Actions on a session. -/
abbrev SessionM := StateM Session

/-- Inferences on a scene. -/
abbrev InferM := ExceptT InferenceFault (StateM Scene)

/-- A model infers an intent from the space of the scene; a vector may be given to use in the stead
of the space's own. -/
abbrev Model := Option BehaviorVector → InferM Intent

/-- A provider answers a key with an embedding or with its failure. -/
abbrev Provider := String → SessionM (Except ProviderFailure (Embedding Float))

namespace Session

/-- Reads the steady clock. -/
def now : SessionM Nat := fun s =>
  (s.clock s.readings, { s with readings := s.readings + 1 })

/-- Acts on the wall clock. -/
def onWallClock {α : Type} (act : StateM WallClock α) : SessionM α := fun s =>
  let (a, wallClock) := act s.wallClock
  (a, { s with wallClock })

/-- Enters a call in the journal. -/
def record (c : Call) : SessionM Unit := fun s =>
  ((), { s with journal := c :: s.journal })

/-- Cancels the token for good. -/
def cancel : SessionM Unit := fun s =>
  ((), { s with cancelled := true })

/-- How often a probe has been called. -/
def probeCalls (s : Session) (probe : Nat) : Nat :=
  s.journal.countP (· == .infer probe)

/-- How often a provider has been called. -/
def providerCalls (s : Session) (provider : Nat) : Nat :=
  s.journal.countP fun c =>
    match c with
    | .embed p _ _ => p == provider
    | .infer _ => false

/-- The intents that the model of a number remembers. -/
def intentStore (s : Session) (number : Nat) : Expiring Intent :=
  (s.intents.find? number).getD .empty

/-- The embeddings that the provider of a number remembers. -/
def embeddingStore (s : Session) (number : Nat) : Expiring (Embedding Float) :=
  (s.embeddings.find? number).getD .empty

/-- Acts on the intents that the model of a number remembers. -/
def onIntents {α : Type} (number : Nat) (act : StateM (Expiring Intent) α) : SessionM α := fun s =>
  let (a, store) := act (s.intentStore number)
  (a, { s with intents := s.intents.put number store })

/-- Acts on the embeddings that the provider of a number remembers. -/
def onEmbeddings {α : Type} (number : Nat) (act : StateM (Expiring (Embedding Float)) α) :
    SessionM α := fun s =>
  let (a, store) := act (s.embeddingStore number)
  (a, { s with embeddings := s.embeddings.put number store })

end Session

namespace InferM

/-- An action on the session of the scene. -/
def ofSession {α : Type} (act : SessionM α) : InferM α :=
  ExceptT.lift fun scene =>
    let (a, session) := act scene.session
    (a, { scene with session })

/-- An action on the session that may end with a fault. -/
def ofExcept {α : Type} (act : SessionM (Except InferenceFault α)) : InferM α := do
  match ← ofSession act with
  | .ok a => pure a
  | .error e => throw e

/-- The space of the scene. -/
def space : InferM Space :=
  ExceptT.lift fun scene => (scene.space, scene)

/-- The vector of the space, whose slot is filled. -/
def spaceVector : InferM BehaviorVector :=
  ExceptT.lift fun scene =>
    let (v, space) := scene.space.toVector
    (v, { scene with space })

/-- Infers about another space; what this does to the session stands, the space of the scene stays
as it is. -/
def about {α : Type} (space : Space) (infer : InferM α) : InferM α :=
  ExceptT.mk fun scene =>
    let (r, other) := infer.run { scene with space }
    (r, { scene with session := other.session })

/-- Runs an inference on a space of its own. -/
def onSpace {α : Type} (space : Space) (infer : InferM α) :
    SessionM (Except InferenceFault α × Space) := fun session =>
  let (r, scene) := infer.run ⟨space, session⟩
  ((r, scene.space), scene.session)

end InferM

namespace Model

/-- The vector to use: the given one, or that of the space, whose slot is then filled. -/
def resolve : Option BehaviorVector → InferM BehaviorVector
  | some v => pure v
  | none => InferM.spaceVector

end Model

end IntentGate
