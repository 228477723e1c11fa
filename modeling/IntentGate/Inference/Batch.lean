import IntentGate.Inference.Session

/-!
# Batches

One model over many spaces, one intent for each, in their order. A batch is all or nothing: the
first fault ends it, and a batch that sees its token cancelled ends with that fault, never with a
part of its intents. In sequence the token is looked at before each space. A concurrent batch starts
one task for each space, looking at the token before each start; a task looks at it once more before
it infers; the results are collected in order, and the token is looked at when all are there. The
tasks of a concurrent batch may run in any order: a schedule is a list of `Move`s, and `inOrder` is
the one of a single worker.
-/

namespace IntentGate

namespace Batch

variable {m : Type → Type} [Monad m]

/-- Infers about spaces in order, looking at the token before each. -/
def inferWhile (isCancelled : m Bool) (infer : Space → m (Except InferenceFault Intent)) :
    List Space → m (Except InferenceFault (List Intent))
  | [] => pure (.ok [])
  | s :: rest => do
    if ← isCancelled then return .error .cancelled
    match ← infer s with
    | .error e => return .error e
    | .ok i => return (← inferWhile isCancelled infer rest).map (i :: ·)

/-- Infers about spaces in order. -/
def inferAll (infer : Space → m (Except InferenceFault Intent)) (spaces : List Space) :
    m (Except InferenceFault (List Intent)) :=
  inferWhile (pure false) infer spaces

end Batch

/-- What may happen next in a concurrent batch. -/
inductive Move where
  /-- The next task is started. -/
  | start
  /-- A started task runs. -/
  | run (task : Nat)
  /-- The next result is collected; after the last one the batch ends. -/
  | collect
deriving DecidableEq, Repr

/-- A concurrent batch under way. -/
structure ConcurrentBatch where
  spaces : List Space
  /-- How many tasks have been started. -/
  started : Nat := 0
  /-- What the tasks that have run came to. -/
  results : Table Nat (Except InferenceFault Intent) := Table.empty
  /-- The collected intents. -/
  collected : List Intent := []
  outcome : Option (Except InferenceFault (List Intent)) := none

namespace ConcurrentBatch

variable {m : Type → Type} [Monad m]

/-- A batch that has not started; one without spaces has ended already. -/
def ofSpaces (spaces : List Space) : ConcurrentBatch :=
  { spaces, outcome := if spaces.isEmpty then some (.ok []) else none }

/-- Starts the next task, or ends the batch if its token is cancelled. -/
def start (isCancelled : m Bool) (b : ConcurrentBatch) : m ConcurrentBatch := do
  if b.outcome.isSome || b.spaces.length ≤ b.started then return b
  if ← isCancelled then return { b with outcome := some (.error .cancelled) }
  return { b with started := b.started + 1 }

/-- Runs a task that has been started and not yet run. -/
def runTask (isCancelled : m Bool) (infer : Space → m (Except InferenceFault Intent))
    (b : ConcurrentBatch) (task : Nat) : m ConcurrentBatch := do
  match b.spaces[task]? with
  | none => return b
  | some s =>
    if b.started ≤ task || (b.results.find? task).isSome then return b
    let result ← if ← isCancelled then pure (.error .cancelled) else infer s
    return { b with results := b.results.put task result }

/-- Collects the next result once all tasks are started, or ends the batch after the last one. -/
def collect (isCancelled : m Bool) (b : ConcurrentBatch) : m ConcurrentBatch := do
  if b.outcome.isSome || b.started < b.spaces.length then return b
  if b.spaces.length ≤ b.collected.length then
    let cancelled ← isCancelled
    return { b with outcome := some (if cancelled then .error .cancelled else .ok b.collected) }
  match b.results.find? b.collected.length with
  | none => return b
  | some (.error e) => return { b with outcome := some (.error e) }
  | some (.ok i) => return { b with collected := b.collected ++ [i] }

/-- What a move does to a batch; one that cannot be made does nothing. -/
def step (isCancelled : m Bool) (infer : Space → m (Except InferenceFault Intent))
    (b : ConcurrentBatch) : Move → m ConcurrentBatch
  | .start => start isCancelled b
  | .run task => runTask isCancelled infer b task
  | .collect => collect isCancelled b

/-- The schedule of a single worker: all starts, then all tasks in order, then all results. -/
def inOrder (count : Nat) : List Move :=
  List.replicate count .start ++ (List.range count).map .run ++ List.replicate (count + 1) .collect

/-- Makes moves one after another. -/
def runMoves (isCancelled : m Bool) (infer : Space → m (Except InferenceFault Intent))
    (b : ConcurrentBatch) (moves : List Move) : m ConcurrentBatch :=
  moves.foldlM (step isCancelled infer) b

end ConcurrentBatch

namespace Model

/-- Infers about a space, whose slot is dropped with it. -/
def inferAbout (model : Model) (s : Space) : SessionM (Except InferenceFault Intent) := do
  return (← InferM.onSpace s (model none)).1

/-- Whether the token of the session is cancelled. -/
def isCancelled : SessionM Bool := do
  return (← get).cancelled

/-- Infers about spaces in order. -/
def inferBatch (model : Model) (spaces : List Space) :
    SessionM (Except InferenceFault (List Intent)) :=
  Batch.inferAll model.inferAbout spaces

/-- Infers about spaces in order as long as the token is not cancelled. -/
def inferBatchWhile (model : Model) (spaces : List Space) :
    SessionM (Except InferenceFault (List Intent)) :=
  Batch.inferWhile isCancelled model.inferAbout spaces

/-- Infers about spaces in a concurrent batch of a single worker. -/
def inferBatchConcurrently (model : Model) (spaces : List Space) :
    SessionM (Except InferenceFault (List Intent)) := do
  let b ← ConcurrentBatch.runMoves isCancelled model.inferAbout (.ofSpaces spaces)
    (ConcurrentBatch.inOrder spaces.length)
  return b.outcome.getD (.error .cancelled)

end Model

end IntentGate
