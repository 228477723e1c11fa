import IntentGate.Inference.Batch
import IntentGate.Inference.Probe
import IntentGate.Proofs.Inference.Running
import IntentGate.Proofs.Traversal
import Mathlib.Data.List.Induction

/-!
# Batches agree

A batch is a traversal of its spaces: it has all intents in their order, or the fault of the first
space that has one. For a `Stateless` model this is what the three ways to infer a batch come to, up
to the token: `batches_agree`.

In sequence, what the token does shows at the checks before the spaces only
(`Stateless.inferBatchWhile_of_unseen`). For a concurrent batch nothing is assumed of the schedule,
and the token may be cancelled between any two of its moves. What a turn can be is listed once, in
`Takes`; from it follow what a batch under way holds (`Sound`), that nothing of it is lost
(`Later`), and that it ends if every move has a turn when it can be made
(`isSome_outcome_of_fair`).
-/

namespace IntentGate

/-- A model whose answers are a matter of the space alone. While it infers anything may come of the
session, be it by the model or by others who hold its token, except that a cancelled token is never
taken back. -/
structure Model.Stateless (model : Model) (answer : Space → Except InferenceFault Intent) :
    Prop where
  answers : ∀ s session, (model.inferAbout s session).1 = answer s
  cancelled : ∀ s session, session.cancelled = true →
    (model.inferAbout s session).2.cancelled = true

namespace Batch

/-- The space at an index has a fault, and those before it have none. -/
def FirstFault (answer : Space → Except InferenceFault Intent) (spaces : List Space) (i : Nat)
    (e : InferenceFault) : Prop :=
  (∃ s, spaces[i]? = some s ∧ answer s = .error e) ∧
    ∀ s ∈ spaces.take i, ∃ intent, answer s = .ok intent

variable {answer : Space → Except InferenceFault Intent} {spaces : List Space}

theorem mapM_eq_error_iff_firstFault {e : InferenceFault} :
    spaces.mapM answer = .error e ↔ ∃ i, FirstFault answer spaces i e := by
  rw [Traversal.mapM_eq_error_iff]
  constructor
  · rintro ⟨before, s, after, rfl, hbefore, hs⟩
    refine ⟨before.length, ⟨s, by simp, hs⟩, ?_⟩
    rwa [List.take_left']
    rfl
  · rintro ⟨i, ⟨s, hs, hfault⟩, hbefore⟩
    obtain ⟨hi, rfl⟩ := List.getElem?_eq_some_iff.1 hs
    refine ⟨spaces.take i, spaces[i], spaces.drop (i + 1), ?_, hbefore, hfault⟩
    rw [← List.drop_eq_getElem_cons hi, List.take_append_drop]

theorem FirstFault.take {i k : Nat} {e : InferenceFault} (h : FirstFault answer spaces i e)
    (hi : i < k) : FirstFault answer (spaces.take k) i e := by
  obtain ⟨⟨s, hs, hfault⟩, hbefore⟩ := h
  refine ⟨⟨s, ?_, hfault⟩, ?_⟩
  · rwa [List.getElem?_take_of_lt hi]
  · rwa [List.take_take, Nat.min_eq_left (Nat.le_of_lt hi)]

theorem FirstFault.of_take {i k : Nat} {e : InferenceFault}
    (h : FirstFault answer (spaces.take k) i e) : i < k ∧ FirstFault answer spaces i e := by
  obtain ⟨⟨s, hs, hfault⟩, hbefore⟩ := h
  have hi : i < k := by
    have := (List.getElem?_eq_some_iff.1 hs).1
    rw [List.length_take] at this
    omega
  rw [List.getElem?_take_of_lt hi] at hs
  rw [List.take_take, Nat.min_eq_left (Nat.le_of_lt hi)] at hbefore
  exact ⟨hi, ⟨s, hs, hfault⟩, hbefore⟩

end Batch

/-! ## In sequence -/

namespace Model

variable {model : Model} {answer : Space → Except InferenceFault Intent}

/-- The session when a model has inferred about some spaces. -/
def after (model : Model) (spaces : List Space) (session : Session) : Session :=
  spaces.foldl (fun session s => (model.inferAbout s session).2) session

theorem after_cons (model : Model) (s : Space) (spaces : List Space) (session : Session) :
    model.after (s :: spaces) session = model.after spaces (model.inferAbout s session).2 :=
  rfl

theorem isCancelled_apply (session : Session) :
    isCancelled session = (session.cancelled, session) :=
  rfl

section Sequence

variable {look : SessionM Bool} {seen : Session → Bool}

theorem inferWhile_cons_of_seen (hlook : ∀ session, look session = (seen session, session))
    {session : Session} (hseen : seen session = true) (s : Space) (rest : List Space) :
    (Batch.inferWhile look model.inferAbout (s :: rest) session).1 = .error .cancelled := by
  rw [Batch.inferWhile, Session.bind_apply, hlook, hseen]
  rfl

theorem Stateless.inferWhile_cons_of_unseen (h : model.Stateless answer)
    (hlook : ∀ session, look session = (seen session, session)) {session : Session}
    (hseen : seen session = false) (s : Space) (rest : List Space) :
    (Batch.inferWhile look model.inferAbout (s :: rest) session).1 =
      match answer s with
      | .error e => .error e
      | .ok i =>
        (Batch.inferWhile look model.inferAbout rest (model.inferAbout s session).2).1.map
          (i :: ·) := by
  rw [Batch.inferWhile, Session.bind_apply, hlook, hseen, ← h.answers s session]
  change ((model.inferAbout s >>= _) session).1 = _
  rw [Session.bind_apply]
  cases (model.inferAbout s session).1 <;> rfl

/-- As long as a batch in sequence does not see its token cancelled, it goes through the spaces
until one has a fault. -/
theorem Stateless.inferWhile_append (h : model.Stateless answer)
    (hlook : ∀ session, look session = (seen session, session)) (spaces rest : List Space)
    (session : Session)
    (hunseen : ∀ i < spaces.length, seen (model.after (spaces.take i) session) = false) :
    (Batch.inferWhile look model.inferAbout (spaces ++ rest) session).1 =
      match spaces.mapM answer with
      | .error e => .error e
      | .ok intents =>
        (Batch.inferWhile look model.inferAbout rest (model.after spaces session)).1.map
          (intents ++ ·) := by
  induction spaces generalizing session with
  | nil =>
    change (Batch.inferWhile look model.inferAbout rest session).1 =
      (Batch.inferWhile look model.inferAbout rest session).1.map ([] ++ ·)
    cases (Batch.inferWhile look model.inferAbout rest session).1 <;> rfl
  | cons s spaces ih =>
    have hfirst : seen session = false := hunseen 0 (Nat.zero_lt_succ _)
    have hrest := ih (model.inferAbout s session).2 fun i hi =>
      hunseen (i + 1) (Nat.succ_lt_succ hi)
    rw [List.cons_append, h.inferWhile_cons_of_unseen hlook hfirst, hrest]
    cases hs : answer s with
    | error e => rw [Traversal.mapM_cons_of_error hs]
    | ok i =>
      rw [Traversal.mapM_cons_of_ok hs]
      cases spaces.mapM answer with
      | error e => rfl
      | ok intents =>
        change Except.map (i :: ·) (Except.map (intents ++ ·) _) = Except.map (i :: intents ++ ·) _
        rw [after_cons]
        generalize (Batch.inferWhile look model.inferAbout rest _).1 = r
        cases r <;> rfl

end Sequence

/-- A batch is the traversal of its spaces. -/
theorem Stateless.inferBatch_eq (h : model.Stateless answer) (spaces : List Space)
    (session : Session) : (model.inferBatch spaces session).1 = spaces.mapM answer := by
  have hlook (session : Session) : (pure false : SessionM Bool) session = (false, session) := rfl
  have happend := h.inferWhile_append hlook spaces [] session fun _ _ => rfl
  rw [List.append_nil] at happend
  refine happend.trans ?_
  cases spaces.mapM answer with
  | error e => rfl
  | ok intents => exact congrArg Except.ok (List.append_nil intents)

/-- A batch in sequence whose token is not seen cancelled at the first `k` checks ends with the
first fault of a space below `k`, if there is one; else with the cancellation, if check `k` sees it;
and without a check that sees it as every batch. -/
theorem Stateless.inferBatchWhile_of_unseen (h : model.Stateless answer) {spaces : List Space}
    {session : Session} {k : Nat}
    (hunseen : ∀ i < k, (model.after (spaces.take i) session).cancelled = false) :
    (∀ i e, i < k → Batch.FirstFault answer spaces i e →
      (model.inferBatchWhile spaces session).1 = .error e) ∧
    (k < spaces.length → (model.after (spaces.take k) session).cancelled = true →
      (∀ i e, i < k → ¬Batch.FirstFault answer spaces i e) →
      (model.inferBatchWhile spaces session).1 = .error .cancelled) ∧
    (k = spaces.length → (model.inferBatchWhile spaces session).1 = spaces.mapM answer) := by
  have happend := h.inferWhile_append isCancelled_apply (spaces.take k)
    (spaces.drop k) session fun i hi => by
      rw [List.length_take] at hi
      rw [List.take_take, Nat.min_eq_left (by omega)]
      exact hunseen i (by omega)
  rw [List.take_append_drop] at happend
  change (model.inferBatchWhile spaces session).1 = _ at happend
  refine ⟨fun i e hi hfault => ?_, fun hk hseen hnone => ?_, fun hk => ?_⟩
  · rw [happend, Batch.mapM_eq_error_iff_firstFault.2 ⟨i, hfault.take hi⟩]
  · have hok : ∃ intents, (spaces.take k).mapM answer = .ok intents := by
      cases hprefix : (spaces.take k).mapM answer with
      | ok intents => exact ⟨intents, rfl⟩
      | error e =>
        obtain ⟨i, hfault⟩ := Batch.mapM_eq_error_iff_firstFault.1 hprefix
        obtain ⟨hi, hfault⟩ := hfault.of_take
        exact absurd hfault (hnone i e hi)
    obtain ⟨intents, hok⟩ := hok
    rw [happend, hok, List.drop_eq_getElem_cons hk]
    dsimp only
    rw [inferWhile_cons_of_seen isCancelled_apply hseen]
    rfl
  · subst hk
    rw [happend, List.take_length, List.drop_length]
    cases spaces.mapM answer with
    | error e => rfl
    | ok intents => exact congrArg Except.ok (List.append_nil intents)

end Model

/-! ## Side by side -/

namespace ConcurrentBatch

/-- What happens next while a concurrent batch is under way: a move of it, or somebody else cancels
its token. A token cancelled while a task infers is one that the model leaves cancelled. -/
inductive Turn where
  | move (m : Move)
  | cancel
deriving DecidableEq, Repr

/-- What a turn does to a batch. -/
def turn (model : Model) (b : ConcurrentBatch) : Turn → SessionM ConcurrentBatch
  | .move m => b.step Model.isCancelled model.inferAbout m
  | .cancel => do
    Session.cancel
    return b

/-- The batch and the session after some turns. -/
def scheduled (model : Model) (p : ConcurrentBatch × Session) (turns : List Turn) :
    ConcurrentBatch × Session :=
  turns.foldl (fun p t => turn model p.1 t p.2) p

theorem scheduled_append (model : Model) (p : ConcurrentBatch × Session)
    (turns turns' : List Turn) :
    scheduled model p (turns ++ turns') = scheduled model (scheduled model p turns) turns' :=
  List.foldl_append

theorem runMoves_eq_scheduled (model : Model) (b : ConcurrentBatch) (moves : List Move)
    (session : Session) :
    runMoves Model.isCancelled model.inferAbout b moves session =
      scheduled model (b, session) (moves.map .move) := by
  induction moves generalizing b session with
  | nil => rfl
  | cons m moves ih => exact ih ..

/-- What a turn can be. -/
inductive Takes (model : Model) (b : ConcurrentBatch) (session : Session) :
    Turn → ConcurrentBatch × Session → Prop where
  | cancel : Takes model b session .cancel (b, { session with cancelled := true })
  | noStart (h : b.outcome.isSome ∨ b.spaces.length ≤ b.started) :
      Takes model b session (.move .start) (b, session)
  | stop (hopen : b.outcome = none) (hmore : b.started < b.spaces.length)
      (hcancelled : session.cancelled = true) :
      Takes model b session (.move .start) ({ b with outcome := some (.error .cancelled) }, session)
  | start (hopen : b.outcome = none) (hmore : b.started < b.spaces.length)
      (hcancelled : session.cancelled = false) :
      Takes model b session (.move .start) ({ b with started := b.started + 1 }, session)
  | noRun {task : Nat} (h : b.spaces.length ≤ task ∨ b.started ≤ task ∨
        (b.results.find? task).isSome) :
      Takes model b session (.move (.run task)) (b, session)
  | skip {task : Nat} {s : Space} (hs : b.spaces[task]? = some s)
      (hcancelled : session.cancelled = true) :
      Takes model b session (.move (.run task))
        ({ b with results := b.results.put task (.error .cancelled) }, session)
  | run {task : Nat} {s : Space} (hs : b.spaces[task]? = some s)
      (hcancelled : session.cancelled = false) :
      Takes model b session (.move (.run task))
        ({ b with results := b.results.put task (model.inferAbout s session).1 },
          (model.inferAbout s session).2)
  | noCollect (h : b.outcome.isSome ∨ b.started < b.spaces.length ∨
        (b.collected.length < b.spaces.length ∧ b.results.find? b.collected.length = none)) :
      Takes model b session (.move .collect) (b, session)
  | fail {e : InferenceFault} (hopen : b.outcome = none)
      (hmore : b.collected.length < b.spaces.length)
      (hresult : b.results.find? b.collected.length = some (.error e)) :
      Takes model b session (.move .collect) ({ b with outcome := some (.error e) }, session)
  | collect {i : Intent} (hopen : b.outcome = none) (hmore : b.collected.length < b.spaces.length)
      (hresult : b.results.find? b.collected.length = some (.ok i)) :
      Takes model b session (.move .collect) ({ b with collected := b.collected ++ [i] }, session)
  | cancelled (hopen : b.outcome = none) (hall : b.spaces.length ≤ b.collected.length)
      (hcancelled : session.cancelled = true) :
      Takes model b session (.move .collect)
        ({ b with outcome := some (.error .cancelled) }, session)
  | finish (hopen : b.outcome = none) (hall : b.spaces.length ≤ b.collected.length)
      (hcancelled : session.cancelled = false) :
      Takes model b session (.move .collect)
        ({ b with outcome := some (.ok b.collected) }, session)

section Takes

variable (model : Model) (b : ConcurrentBatch) (session : Session)

theorem takes_start : Takes model b session (.move .start) (b.start Model.isCancelled session) := by
  unfold ConcurrentBatch.start
  split
  next h => exact .noStart (by simpa using h)
  next h =>
    obtain ⟨hopen, hmore⟩ : b.outcome = none ∧ b.started < b.spaces.length := by simpa using h
    rw [Session.bind_apply, Model.isCancelled_apply]
    cases hcancelled : session.cancelled with
    | true => exact .stop hopen hmore hcancelled
    | false => exact .start hopen hmore hcancelled

theorem takes_run (task : Nat) :
    Takes model b session (.move (.run task))
      (b.runTask Model.isCancelled model.inferAbout task session) := by
  unfold runTask
  cases hs : b.spaces[task]? with
  | none => exact .noRun (.inl (List.getElem?_eq_none_iff.1 hs))
  | some s =>
    dsimp only
    split
    next h => exact .noRun (.inr (by simpa using h))
    next h =>
      rw [Session.bind_apply, Model.isCancelled_apply]
      cases hcancelled : session.cancelled with
      | true => exact .skip hs hcancelled
      | false => exact .run hs hcancelled

theorem takes_collect :
    Takes model b session (.move .collect) (b.collect Model.isCancelled session) := by
  unfold ConcurrentBatch.collect
  split
  next h =>
    have hnot : b.outcome.isSome ∨ b.started < b.spaces.length := by simpa using h
    exact .noCollect (hnot.imp_right .inl)
  next h =>
    obtain ⟨hopen, -⟩ : b.outcome = none ∧ b.spaces.length ≤ b.started := by simpa using h
    split
    next hall =>
      rw [Session.bind_apply, Model.isCancelled_apply]
      cases hcancelled : session.cancelled with
      | true => exact .cancelled hopen hall hcancelled
      | false => exact .finish hopen hall hcancelled
    next hall =>
      have hmore := Nat.lt_of_not_le hall
      cases hresult : b.results.find? b.collected.length with
      | none => exact .noCollect (.inr (.inr ⟨hmore, hresult⟩))
      | some r =>
        cases r with
        | error e => exact .fail hopen hmore hresult
        | ok i => exact .collect hopen hmore hresult

theorem takes_turn (t : Turn) : Takes model b session t (turn model b t session) := by
  cases t with
  | cancel => exact .cancel
  | move m =>
    cases m with
    | start => exact takes_start model b session
    | run task => exact takes_run model b session task
    | collect => exact takes_collect model b session

end Takes

/-! ## What a batch under way holds -/

/-- Nothing of a batch is lost from one state to a later one, and a cancelled token stays so. -/
structure Later (p p' : ConcurrentBatch × Session) : Prop where
  spaces_eq : p'.1.spaces = p.1.spaces
  started_le : p.1.started ≤ p'.1.started
  collected_le : p.1.collected.length ≤ p'.1.collected.length
  result : ∀ task, (p.1.results.find? task).isSome → (p'.1.results.find? task).isSome
  outcome : ∀ r, p.1.outcome = some r → p'.1.outcome = some r
  cancelled : p.2.cancelled = true → p'.2.cancelled = true

namespace Later

theorem refl (p : ConcurrentBatch × Session) : Later p p :=
  ⟨rfl, Nat.le_refl _, Nat.le_refl _, fun _ => id, fun _ => id, id⟩

theorem trans {p p' p'' : ConcurrentBatch × Session} (h : Later p p') (h' : Later p' p'') :
    Later p p'' where
  spaces_eq := h'.spaces_eq.trans h.spaces_eq
  started_le := Nat.le_trans h.started_le h'.started_le
  collected_le := Nat.le_trans h.collected_le h'.collected_le
  result task := h'.result task ∘ h.result task
  outcome r := h'.outcome r ∘ h.outcome r
  cancelled := h'.cancelled ∘ h.cancelled

theorem isSome_outcome {p p' : ConcurrentBatch × Session} (h : Later p p')
    (hp : p.1.outcome.isSome) : p'.1.outcome.isSome := by
  obtain ⟨r, hr⟩ := Option.isSome_iff_exists.1 hp
  rw [h.outcome r hr]
  rfl

end Later

section Runs

variable {model : Model} {answer : Space → Except InferenceFault Intent} {spaces : List Space}
  {b : ConcurrentBatch} {session : Session} {t : Turn} {p : ConcurrentBatch × Session}

theorem isSome_find?_put {results : Table Nat (Except InferenceFault Intent)} {task k : Nat}
    (r : Except InferenceFault Intent) (h : (results.find? k).isSome) :
    ((results.put task r).find? k).isSome := by
  rw [Table.find?_put]
  split
  · rfl
  · exact h

theorem Takes.later (h : model.Stateless answer) (ht : Takes model b session t p) :
    Later (b, session) p := by
  have hrefl := Later.refl (b, session)
  have hended (hopen : b.outcome = none) (r : Except InferenceFault (List Intent)) :
      Later (b, session) ({ b with outcome := some r }, session) :=
    { hrefl with outcome := fun r' hr => by rw [hopen] at hr; cases hr }
  cases ht with
  | cancel => exact { hrefl with cancelled := fun _ => rfl }
  | noStart => exact hrefl
  | stop hopen => exact hended hopen _
  | start => exact { hrefl with started_le := Nat.le_succ _ }
  | noRun => exact hrefl
  | skip => exact { hrefl with result := fun _ => isSome_find?_put _ }
  | run =>
    exact { hrefl with result := fun _ => isSome_find?_put _, cancelled := h.cancelled _ _ }
  | noCollect => exact hrefl
  | fail hopen => exact hended hopen _
  | collect => exact { hrefl with collected_le := by simp }
  | cancelled hopen => exact hended hopen _
  | finish hopen => exact hended hopen _

theorem later_scheduled (h : model.Stateless answer) (p : ConcurrentBatch × Session)
    (turns : List Turn) : Later p (scheduled model p turns) := by
  induction turns generalizing p with
  | nil => exact .refl p
  | cons t turns ih => exact ((takes_turn model p.1 p.2 t).later h).trans (ih _)

/-- What a batch holds is of its spaces, in their order, or of a cancellation that has happened. -/
structure Sound (answer : Space → Except InferenceFault Intent) (spaces : List Space)
    (p : ConcurrentBatch × Session) : Prop where
  spaces_eq : p.1.spaces = spaces
  result : ∀ task r, p.1.results.find? task = some r →
    (∃ s, spaces[task]? = some s ∧ answer s = r) ∨ (r = .error .cancelled ∧ p.2.cancelled = true)
  collected : (spaces.take p.1.collected.length).mapM answer = .ok p.1.collected
  outcome : ∀ r, p.1.outcome = some r →
    r = spaces.mapM answer ∨ (r = .error .cancelled ∧ p.2.cancelled = true)

theorem Sound.ofSpaces (answer : Space → Except InferenceFault Intent) (spaces : List Space)
    (session : Session) : Sound answer spaces (.ofSpaces spaces, session) where
  spaces_eq := rfl
  result task r hr := by cases hr
  collected := rfl
  outcome r hr := by
    cases spaces with
    | nil => exact .inl (Option.some.inj hr).symm
    | cons s spaces => cases hr

namespace Sound

/-- The session may go on as long as a cancelled token stays so. -/
theorem withSession (hb : Sound answer spaces (b, session)) {next : Session}
    (hnext : session.cancelled = true → next.cancelled = true) : Sound answer spaces (b, next) :=
  { hb with
    result := fun task r hr => (hb.result task r hr).imp_right (.imp_right hnext)
    outcome := fun r hr => (hb.outcome r hr).imp_right (.imp_right hnext) }

theorem put (hb : Sound answer spaces (b, session)) {task : Nat} {r : Except InferenceFault Intent}
    (hr : (∃ s, spaces[task]? = some s ∧ answer s = r) ∨
      (r = .error .cancelled ∧ session.cancelled = true)) :
    Sound answer spaces ({ b with results := b.results.put task r }, session) where
  __ := hb
  result k r' hr' := by
    rw [Table.find?_put] at hr'
    split at hr'
    · obtain rfl : r = r' := Option.some.inj hr'
      subst k
      exact hr
    · exact hb.result k r' hr'

theorem ended (hb : Sound answer spaces (b, session)) {r : Except InferenceFault (List Intent)}
    (hr : r = spaces.mapM answer ∨ (r = .error .cancelled ∧ session.cancelled = true)) :
    Sound answer spaces ({ b with outcome := some r }, session) :=
  { hb with outcome := fun _ hr' => Option.some.inj hr' ▸ hr }

/-- A result that is next to be collected and is a fault is the fault of the batch. -/
theorem fault (hb : Sound answer spaces (b, session)) {e : InferenceFault}
    (hresult : b.results.find? b.collected.length = some (.error e)) :
    .error e = spaces.mapM answer ∨
      ((.error e : Except InferenceFault (List Intent)) = .error .cancelled ∧
        session.cancelled = true) := by
  rcases hb.result _ _ hresult with ⟨s, hs, hfault⟩ | ⟨he, hcancelled⟩
  · have hbefore := Traversal.mapM_succeeds_iff.1 ⟨_, hb.collected⟩
    exact .inl (Batch.mapM_eq_error_iff_firstFault.2 ⟨_, ⟨s, hs, hfault⟩, hbefore⟩).symm
  · exact .inr ⟨congrArg Except.error (Except.error.inj he), hcancelled⟩

theorem collect (hb : Sound answer spaces (b, session)) {i : Intent}
    (hresult : b.results.find? b.collected.length = some (.ok i)) :
    Sound answer spaces ({ b with collected := b.collected ++ [i] }, session) where
  __ := hb
  collected := by
    rcases hb.result _ _ hresult with ⟨s, hs, hi⟩ | ⟨hne, -⟩
    · have htake : spaces.take (b.collected ++ [i]).length =
          spaces.take b.collected.length ++ [s] := by
        rw [List.length_append, List.length_singleton, List.take_add_one, hs]
        rfl
      have hone : [s].mapM answer = .ok [i] := Traversal.mapM_cons_of_ok hi
      rw [htake, Traversal.mapM_append_of_ok hb.collected, hone]
      rfl
    · cases hne

theorem length_collected_le (hb : Sound answer spaces p) :
    p.1.collected.length ≤ spaces.length := by
  have hlength := (Traversal.mapM_eq_ok_iff.1 hb.collected).length_eq
  rw [List.length_take] at hlength
  omega

/-- All intents together are the batch. -/
theorem whole (hb : Sound answer spaces (b, session))
    (hall : b.spaces.length ≤ b.collected.length) : .ok b.collected = spaces.mapM answer := by
  have htake : spaces.take b.collected.length = spaces :=
    List.take_of_length_le (hb.spaces_eq ▸ hall)
  have hcollected := hb.collected
  rw [htake] at hcollected
  exact hcollected.symm

end Sound

theorem Takes.sound (h : model.Stateless answer) (ht : Takes model b session t p)
    (hb : Sound answer spaces (b, session)) : Sound answer spaces p := by
  cases ht with
  | cancel => exact hb.withSession fun _ => rfl
  | noStart => exact hb
  | stop _ _ hcancelled => exact hb.ended (.inr ⟨rfl, hcancelled⟩)
  | start => exact { hb with }
  | noRun => exact hb
  | skip _ hcancelled => exact hb.put (.inr ⟨rfl, hcancelled⟩)
  | @run task s hs =>
    refine (hb.put (.inl ⟨s, ?_, (h.answers s session).symm⟩)).withSession (h.cancelled s session)
    rwa [← hb.spaces_eq]
  | noCollect => exact hb
  | fail _ _ hresult => exact hb.ended (hb.fault hresult)
  | collect _ _ hresult => exact hb.collect hresult
  | cancelled _ _ hcancelled => exact hb.ended (.inr ⟨rfl, hcancelled⟩)
  | finish _ hall => exact hb.ended (.inl (hb.whole hall))

theorem sound_scheduled (h : model.Stateless answer) (hp : Sound answer spaces p)
    (turns : List Turn) : Sound answer spaces (scheduled model p turns) := by
  induction turns generalizing p with
  | nil => exact hp
  | cons t turns ih => exact ih ((takes_turn model p.1 p.2 t).sound h hp)

/-- The turn that ends a batch with intents collects, and does not see the token cancelled. -/
theorem Takes.finishes (ht : Takes model b session t p) {intents : List Intent}
    (hopen : b.outcome = none) (hok : p.1.outcome = some (.ok intents)) :
    t = .move .collect ∧ session.cancelled = false := by
  cases ht with
  | finish _ _ hcancelled => exact ⟨rfl, hcancelled⟩
  | stop => cases hok
  | fail => cases hok
  | cancelled => cases hok
  | cancel | noStart | start | noRun | skip | run | noCollect | collect =>
    cases hopen.symm.trans hok

/-- A batch that ended with intents has done so at a turn that collected and did not see the token
cancelled. -/
theorem exists_finish (h : model.Stateless answer) {turns : List Turn} {intents : List Intent}
    (hopen : p.1.outcome = none) (hok : (scheduled model p turns).1.outcome = some (.ok intents)) :
    ∃ before after, turns = before ++ .move .collect :: after ∧
      (scheduled model p before).1.outcome = none ∧
      (scheduled model p before).2.cancelled = false ∧
      (scheduled model p (before ++ [.move .collect])).1.outcome = some (.ok intents) := by
  induction turns generalizing p with
  | nil => cases hopen.symm.trans hok
  | cons t turns ih =>
    have ht := takes_turn model p.1 p.2 t
    cases hnext : (turn model p.1 t p.2).1.outcome with
    | none =>
      obtain ⟨before, after, rfl, hbefore⟩ := ih hnext hok
      exact ⟨t :: before, after, rfl, hbefore⟩
    | some r =>
      have hkept := (later_scheduled h (turn model p.1 t p.2) turns).outcome r hnext
      obtain rfl : r = .ok intents := Option.some.inj (hkept.symm.trans hok)
      obtain ⟨rfl, hcancelled⟩ := ht.finishes hopen hnext
      exact ⟨[], turns, rfl, hopen, hcancelled, hnext⟩

/-! ## Every schedule that is fair ends -/

/-- A task has a turn after its own start. -/
def Ran (task : Nat) (turns : List Turn) : Prop :=
  ∃ k < turns.length, turns[k]? = some (.move (.run task)) ∧
    task < (turns.take k).count (.move .start)

/-- A schedule in which every move of a batch has its turn when it can be made. A task can run once
it has been started. A result can be collected once all tasks have been started and its own task has
run; from then on there are turns enough to collect it and those after it, and to end the batch.
Anything may come in between. -/
def Fair (count : Nat) (turns : List Turn) : Prop :=
  ∀ i ≤ count, ∃ k ≤ turns.length, count ≤ (turns.take k).count (.move .start) ∧
    (i < count → Ran i (turns.take k)) ∧ count - i < (turns.drop k).count (.move .collect)

instance (task : Nat) (turns : List Turn) : Decidable (Ran task turns) :=
  inferInstanceAs (Decidable (∃ k < turns.length, _))

instance (count : Nat) (turns : List Turn) : Decidable (Fair count turns) :=
  inferInstanceAs (Decidable (∀ i ≤ count, ∃ k ≤ turns.length, _))

theorem fair_inOrder (count : Nat) : Fair count ((inOrder count).map .move) := by
  let starts : List Turn := .replicate count (.move .start)
  let runs : List Turn := (List.range count).map fun task => .move (.run task)
  let collects : List Turn := .replicate (count + 1) (.move .collect)
  have hturns : (inOrder count).map .move = (starts ++ runs) ++ collects := by
    simp [inOrder, starts, runs, collects]
  have hstarts : starts.count (.move .start) = count := List.count_replicate_self
  have hcollects : collects.count (.move .collect) = count + 1 := List.count_replicate_self
  intro i _
  rw [hturns]
  refine ⟨(starts ++ runs).length, by simp, ?_⟩
  rw [List.take_left, List.drop_left, List.count_append, hstarts, hcollects]
  refine ⟨Nat.le_add_right .., fun hi => ⟨starts.length + i, by simp [runs, hi], ?_, ?_⟩, by omega⟩
  · rw [List.getElem?_append_right (Nat.le_add_right ..)]
    simp [runs, hi]
  · rw [List.take_length_add_append, List.count_append, hstarts]
    exact Nat.lt_of_lt_of_le hi (Nat.le_add_right ..)

/-- Each task runs right after its own start, and what the first one came to is collected before the
second one runs; a task that has its only turn before its start never runs. -/
example :
    let run task : Turn := .move (.run task)
    Fair 2 [.move .start, run 0, .move .start, .move .collect, run 1, .move .collect,
      .move .collect] ∧
    ¬Fair 2 [.move .start, run 0, run 1, .move .start, .move .collect, .move .collect,
      .move .collect] := by
  decide

theorem Takes.starts (ht : Takes model b session (.move .start) p) :
    p.1.outcome.isSome ∨ min b.spaces.length (b.started + 1) ≤ p.1.started := by
  cases ht with
  | noStart hnot =>
    rcases hnot with hended | hall
    · exact .inl hended
    · exact .inr (Nat.le_trans (Nat.min_le_left ..) hall)
  | stop => exact .inl rfl
  | start => exact .inr (Nat.min_le_right ..)

/-- As many tasks are started as there are turns to start one, unless these are all or the batch has
ended. -/
theorem started_scheduled (h : model.Stateless answer) (p : ConcurrentBatch × Session)
    (turns : List Turn) :
    (scheduled model p turns).1.outcome.isSome ∨
      min p.1.spaces.length (p.1.started + turns.count (.move .start)) ≤
        (scheduled model p turns).1.started := by
  induction turns generalizing p with
  | nil => exact .inr (Nat.min_le_right ..)
  | cons t turns ih =>
    have htakes := takes_turn model p.1 p.2 t
    have hlater : Later p (turn model p.1 t p.2) := htakes.later h
    have hrest := ih (turn model p.1 t p.2)
    rw [hlater.spaces_eq] at hrest
    change (scheduled model (turn model p.1 t p.2) turns).1.outcome.isSome ∨
      _ ≤ (scheduled model (turn model p.1 t p.2) turns).1.started
    by_cases ht : t = .move .start
    · subst ht
      rw [List.count_cons_self]
      rcases htakes.starts with hended | hstarted
      · exact .inl ((later_scheduled h _ turns).isSome_outcome hended)
      · refine hrest.imp_right fun hrest => ?_
        have hkept := (later_scheduled h (turn model p.1 (.move .start) p.2) turns).started_le
        omega
    · rw [List.count_cons_of_ne ht]
      refine hrest.imp_right fun hrest => ?_
      have hkept := hlater.started_le
      omega

theorem Takes.runs {task : Nat} (ht : Takes model b session (.move (.run task)) p)
    (htask : task < b.spaces.length) (hstarted : task < b.started) :
    (p.1.results.find? task).isSome := by
  cases ht with
  | noRun hnot =>
    rcases hnot with hnone | hearly | hdone
    · omega
    · omega
    · exact hdone
  | skip =>
    rw [Table.find?_put, if_pos rfl]
    rfl
  | run =>
    rw [Table.find?_put, if_pos rfl]
    rfl

/-- A task that has a turn after its own start has a result then, unless the batch has ended. -/
theorem Ran.isSome_result (h : model.Stateless answer) {turns : List Turn} {task : Nat}
    (hran : Ran task turns) (htask : task < p.1.spaces.length) :
    (scheduled model p turns).1.outcome.isSome ∨
      ((scheduled model p turns).1.results.find? task).isSome := by
  obtain ⟨k, hk, hturn, hcount⟩ := hran
  have hsplit : turns = turns.take k ++ .move (.run task) :: turns.drop (k + 1) := by
    obtain ⟨_, hturn⟩ := List.getElem?_eq_some_iff.1 hturn
    rw [← hturn, ← List.drop_eq_getElem_cons hk, List.take_append_drop]
  rw [hsplit, scheduled_append]
  generalize turns.take k = before at hcount ⊢
  generalize turns.drop (k + 1) = after
  have hlater := later_scheduled h (scheduled model p before) (.move (.run task) :: after)
  rcases started_scheduled h p before with hended | hstarted
  · exact .inl (hlater.isSome_outcome hended)
  · have hspaces := (later_scheduled h p before).spaces_eq
    have hruns := (takes_turn model _ (scheduled model p before).2 (.move (.run task))).runs
      (hspaces ▸ htask) (by omega)
    exact .inr ((later_scheduled h _ after).result task hruns)

/-- The result at an index can be collected, or there is none and the batch can end. -/
structure Collectable (i : Nat) (p : ConcurrentBatch × Session) : Prop where
  started : p.1.spaces.length ≤ p.1.started
  result : i < p.1.spaces.length → (p.1.results.find? i).isSome

theorem Collectable.later {i : Nat} {p p' : ConcurrentBatch × Session} (hp : Collectable i p)
    (h : Later p p') : Collectable i p' where
  started := h.spaces_eq ▸ Nat.le_trans hp.started h.started_le
  result hi := h.result i (hp.result (h.spaces_eq ▸ hi))

theorem Takes.collects (ht : Takes model b session (.move .collect) p)
    (hnext : Collectable b.collected.length (b, session)) :
    p.1.outcome.isSome ∨ p.1.collected.length = b.collected.length + 1 := by
  obtain ⟨hstarted, hresult⟩ := hnext
  change b.spaces.length ≤ b.started at hstarted
  cases ht with
  | noCollect hnot =>
    rcases hnot with hended | hearly | ⟨hmore, hnone⟩
    · exact .inl hended
    · omega
    · have hsome : (b.results.find? b.collected.length).isSome := hresult hmore
      rw [hnone] at hsome
      cases hsome
  | fail => exact .inl rfl
  | collect => exact .inr List.length_append
  | cancelled => exact .inl rfl
  | finish => exact .inl rfl

/-- Once all tasks have been started and its own task has run, a result can be collected, unless the
batch has ended. -/
theorem collectable_scheduled (h : model.Stateless answer) {turns : List Turn} {i : Nat}
    (hstarts : p.1.spaces.length ≤ turns.count (.move .start))
    (hran : i < p.1.spaces.length → Ran i turns) :
    (scheduled model p turns).1.outcome.isSome ∨ Collectable i (scheduled model p turns) := by
  have hspaces := (later_scheduled h p turns).spaces_eq
  rcases started_scheduled h p turns with hended | hcount
  · exact .inl hended
  have hstarted :
      (scheduled model p turns).1.spaces.length ≤ (scheduled model p turns).1.started := by
    rw [hspaces]
    omega
  by_cases hi : i < p.1.spaces.length
  · exact ((hran hi).isSome_result h hi).imp_right fun hresult => ⟨hstarted, fun _ => hresult⟩
  · exact .inr ⟨hstarted, fun hi' => absurd (hspaces ▸ hi') hi⟩

/-- If more turns of a kind come after a place than after one of them, the place is not behind
that. -/
theorem exists_append_of_count_lt {x : Turn} {xs ys xs' ys' : List Turn}
    (h : xs ++ x :: ys = xs' ++ ys') (hcount : ys.count x < ys'.count x) :
    ∃ between, xs = xs' ++ between := by
  rcases List.append_eq_append_iff.1 h with ⟨between, hxs, hys⟩ | ⟨between, hxs, -⟩
  · cases between with
    | nil => exact ⟨[], by simpa using hxs.symm⟩
    | cons y between =>
      have hys : ys = between ++ ys' := (List.cons.inj hys).2
      rw [hys, List.count_append] at hcount
      omega
  · exact ⟨between, hxs⟩

/-- Where a fair schedule leaves as many turns to collect as results to collect, the first of these
can be collected. -/
theorem Fair.collectable (h : model.Stateless answer) {turns : List Turn}
    (hfair : Fair spaces.length turns) (session : Session) {before after : List Turn} {i : Nat}
    (hturns : turns = before ++ .move .collect :: after)
    (hi : i + after.count (.move .collect) = spaces.length) :
    (scheduled model (.ofSpaces spaces, session) before).1.outcome.isSome ∨
      Collectable i (scheduled model (.ofSpaces spaces, session) before) := by
  obtain ⟨k, -, hstarts, hran, hcount⟩ := hfair i (by omega)
  have hsplit : before ++ .move .collect :: after = turns.take k ++ turns.drop k := by
    rw [← hturns, List.take_append_drop]
  obtain ⟨between, rfl⟩ := exists_append_of_count_lt hsplit (by omega)
  rw [scheduled_append]
  have hlater :=
    later_scheduled h (scheduled model (.ofSpaces spaces, session) (turns.take k)) between
  exact (collectable_scheduled h hstarts hran).imp hlater.isSome_outcome (·.later hlater)

/-- Under a fair schedule a batch has ended, or no more results are left to collect than there are
turns for. -/
theorem Fair.le_collected (h : model.Stateless answer) {turns : List Turn}
    (hfair : Fair spaces.length turns) (session : Session) {before after : List Turn}
    (hturns : turns = before ++ after) :
    (scheduled model (.ofSpaces spaces, session) before).1.outcome.isSome ∨
      spaces.length + 1 ≤ (scheduled model (.ofSpaces spaces, session) before).1.collected.length +
        after.count (.move .collect) := by
  induction before using List.reverseRecOn generalizing after with
  | nil =>
    obtain ⟨k, -, -, -, hcount⟩ := hfair 0 (Nat.zero_le _)
    have hle := (List.drop_sublist k turns).count_le (.move .collect)
    rw [List.nil_append] at hturns
    rw [hturns] at hcount hle
    exact .inr (by omega)
  | append_singleton before t ih =>
    rw [List.append_assoc, List.singleton_append] at hturns
    have hbefore := ih hturns
    have hnext (ht : t = .move .collect) {i : Nat} :=
      hfair.collectable h session (i := i) (ht ▸ hturns)
    rw [scheduled_append]
    generalize scheduled model (.ofSpaces spaces, session) before = p at hbefore hnext ⊢
    have htakes := takes_turn model p.1 p.2 t
    have hlater : Later p (turn model p.1 t p.2) := htakes.later h
    change (turn model p.1 t p.2).1.outcome.isSome ∨
      spaces.length + 1 ≤ (turn model p.1 t p.2).1.collected.length + _
    rcases hbefore with hended | hbefore
    · exact .inl (hlater.isSome_outcome hended)
    have hkept := hlater.collected_le
    by_cases ht : t = .move .collect
    · subst ht
      rw [List.count_cons_self] at hbefore
      by_cases hmore : spaces.length < p.1.collected.length + after.count (.move .collect)
      · exact .inr (by omega)
      · rcases hnext rfl (i := p.1.collected.length) (by omega) with hended | hready
        · exact .inl (hlater.isSome_outcome hended)
        · exact (htakes.collects hready).imp_right fun hcollected => by omega
    · rw [List.count_cons_of_ne ht] at hbefore
      exact .inr (by omega)

/-- A batch ends under every fair schedule. -/
theorem isSome_outcome_of_fair (h : model.Stateless answer) {turns : List Turn}
    (hfair : Fair spaces.length turns) (session : Session) :
    (scheduled model (.ofSpaces spaces, session) turns).1.outcome.isSome := by
  have hsound := sound_scheduled h (Sound.ofSpaces answer spaces session) turns
  refine (hfair.le_collected h session (List.append_nil turns).symm).resolve_right fun hall => ?_
  have hle := hsound.length_collected_le
  rw [List.count_nil] at hall
  omega

/-- Whatever the schedule, a batch ends as in sequence or with a cancellation that has happened. -/
theorem outcome_of_scheduled (h : model.Stateless answer) {session : Session} {turns : List Turn}
    {r : Except InferenceFault (List Intent)}
    (hr : (scheduled model (.ofSpaces spaces, session) turns).1.outcome = some r) :
    r = (model.inferBatch spaces session).1 ∨
      (r = .error .cancelled ∧
        (scheduled model (.ofSpaces spaces, session) turns).2.cancelled = true) := by
  rw [h.inferBatch_eq]
  exact (sound_scheduled h (.ofSpaces answer spaces session) turns).outcome r hr

/-- Under a fair schedule a batch whose token is not cancelled ends as in sequence. -/
theorem outcome_of_fair (h : model.Stateless answer) {session : Session} {turns : List Turn}
    (hfair : Fair spaces.length turns)
    (hcancelled : (scheduled model (.ofSpaces spaces, session) turns).2.cancelled = false) :
    (scheduled model (.ofSpaces spaces, session) turns).1.outcome =
      some (model.inferBatch spaces session).1 := by
  obtain ⟨r, hr⟩ := Option.isSome_iff_exists.1 (isSome_outcome_of_fair h hfair session)
  rcases outcome_of_scheduled h hr with rfl | ⟨-, hseen⟩
  · exact hr
  · cases hcancelled.symm.trans hseen

end Runs

end ConcurrentBatch

/-- The concurrent batch as it is run takes one fair schedule. -/
theorem Model.inferBatchConcurrently_eq (model : Model) (spaces : List Space) (session : Session) :
    model.inferBatchConcurrently spaces session =
      let last := ConcurrentBatch.scheduled model (.ofSpaces spaces, session)
        ((ConcurrentBatch.inOrder spaces.length).map .move)
      (last.1.outcome.getD (.error .cancelled), last.2) := by
  unfold Model.inferBatchConcurrently
  rw [Session.bind_apply, ConcurrentBatch.runMoves_eq_scheduled]
  rfl

/-! ## The three ways agree -/

/-- A stateless model infers a batch to the intents of all spaces in their order, or to the fault of
the first one that has a fault. In sequence with a token, a batch comes to the same unless a check
sees the token cancelled before. Under any schedule, and wherever it is cancelled, a concurrent
batch comes to the same or, if it is cancelled, to that; it ends with intents only at a turn that
does not see the token cancelled; and it ends if the schedule is fair. -/
theorem batches_agree {model : Model} {answer : Space → Except InferenceFault Intent}
    (h : model.Stateless answer) (spaces : List Space) (session : Session) :
    let whole := (model.inferBatch spaces session).1
    let watched := (model.inferBatchWhile spaces session).1
    let scheduled := ConcurrentBatch.scheduled model (.ofSpaces spaces, session)
    (∀ intents, whole = .ok intents ↔ List.Forall₂ (fun s i => answer s = .ok i) spaces intents) ∧
    (∀ e, whole = .error e ↔ ∃ i, Batch.FirstFault answer spaces i e) ∧
    (∀ k, (∀ i < k, (model.after (spaces.take i) session).cancelled = false) →
      (∀ i e, i < k → Batch.FirstFault answer spaces i e → watched = .error e) ∧
      (k < spaces.length → (model.after (spaces.take k) session).cancelled = true →
        (∀ i e, i < k → ¬Batch.FirstFault answer spaces i e) → watched = .error .cancelled) ∧
      (k = spaces.length → watched = whole)) ∧
    (∀ turns,
      (∀ r, (scheduled turns).1.outcome = some r →
        r = whole ∨ (r = .error .cancelled ∧ (scheduled turns).2.cancelled = true)) ∧
      (∀ intents, spaces ≠ [] → (scheduled turns).1.outcome = some (.ok intents) →
        ∃ before after, turns = before ++ .move .collect :: after ∧
          (scheduled before).1.outcome = none ∧ (scheduled before).2.cancelled = false ∧
          (scheduled (before ++ [.move .collect])).1.outcome = some (.ok intents)) ∧
      (ConcurrentBatch.Fair spaces.length turns →
        (scheduled turns).1.outcome.isSome ∧
        ((scheduled turns).2.cancelled = false → (scheduled turns).1.outcome = some whole))) ∧
    ((model.inferBatchConcurrently spaces session).2.cancelled = false →
      (model.inferBatchConcurrently spaces session).1 = whole) := by
  intro whole watched scheduled
  have hwhole : whole = spaces.mapM answer := h.inferBatch_eq spaces session
  refine ⟨fun intents => ?_, fun e => ?_, fun k hunseen => ?_, fun turns => ⟨fun r hr => ?_,
    fun intents hne hok => ?_, fun hfair => ⟨?_, fun hcancelled => ?_⟩⟩, fun hcancelled => ?_⟩
  · rw [hwhole]
    exact Traversal.mapM_eq_ok_iff
  · rw [hwhole]
    exact Batch.mapM_eq_error_iff_firstFault
  · rw [hwhole]
    exact h.inferBatchWhile_of_unseen hunseen
  · exact ConcurrentBatch.outcome_of_scheduled h hr
  · have hopen : (ConcurrentBatch.ofSpaces spaces).outcome = none := by
      cases spaces with
      | nil => exact absurd rfl hne
      | cons s spaces => rfl
    exact ConcurrentBatch.exists_finish h hopen hok
  · exact ConcurrentBatch.isSome_outcome_of_fair h hfair session
  · exact ConcurrentBatch.outcome_of_fair h hfair hcancelled
  · rw [Model.inferBatchConcurrently_eq] at hcancelled ⊢
    have hfair := ConcurrentBatch.fair_inOrder spaces.length
    dsimp only at hcancelled ⊢
    rw [ConcurrentBatch.outcome_of_fair h hfair hcancelled]
    rfl

/-- The model that gives the answers of a function. -/
def Model.ofAnswers (answer : Space → Except InferenceFault Intent) : Model := fun _ => do
  InferM.ofExcept (pure (answer (← InferM.space)))

/-- Behind a probe that cancels the token at one of its calls, such a model is stateless. -/
theorem Model.stateless_probed (number : Nat) (cancelAt : Option Nat)
    (answer : Space → Except InferenceFault Intent) :
    (Model.probed { number, cancelAt } (.ofAnswers answer)).Stateless answer := by
  have hrun (s : Space) (session : Session) :
      (Model.probed { number, cancelAt } (.ofAnswers answer)).inferAbout s session =
        (answer s, (Probe.enter { number, cancelAt } session).2) := by
    change (fun p : _ × Scene => (p.1, p.2.session))
      ((Model.probed { number, cancelAt } (.ofAnswers answer) none).run ⟨s, session⟩) = _
    have hfails (call : Nat) : ({ number, cancelAt } : Probe).fails call = false := rfl
    rw [Model.probed, InferM.run_bind, InferM.run_ofSession]
    dsimp only
    rw [hfails, if_neg Bool.false_ne_true, Model.ofAnswers, InferM.run_bind, InferM.run_space]
    dsimp only
    rw [InferM.run_ofExcept]
    rfl
  constructor
  · intro s session
    rw [hrun]
  · intro s session hcancelled
    rw [hrun]
    unfold Probe.enter
    rw [Session.bind_apply, Session.bind_apply]
    split
    · rfl
    · exact hcancelled

/-- Three spaces with a token that is cancelled during the second call. In sequence the third check
sees that; a schedule that runs the last task first skips the one that is run last, and ends with
the cancellation although two tasks have intents. -/
theorem batches_agree_of_probed :
    let seen : Intent := ⟨"seen", [], ⟨1, .certain⟩, none⟩
    let model := Model.probed { cancelAt := some 2 } (.ofAnswers fun _ => .ok seen)
    let spaces : List Space := [.empty, .empty, .empty]
    let turns : List ConcurrentBatch.Turn := [.move .start, .move .start, .move .start,
      .move (.run 2), .move (.run 0), .move (.run 1), .move .collect, .move .collect]
    (model.inferBatch spaces {}).1 = .ok [seen, seen, seen] ∧
    (model.inferBatchWhile spaces {}).1 = .error .cancelled ∧
    (ConcurrentBatch.scheduled model (.ofSpaces spaces, {}) turns).1.outcome =
      some (.error .cancelled) ∧
    (ConcurrentBatch.scheduled model (.ofSpaces spaces, {}) turns).2.cancelled = true := by
  intro seen model spaces turns
  have hstateless : model.Stateless fun _ => .ok seen := Model.stateless_probed 0 (some 2) _
  obtain ⟨hok, -, hwatched, hturns, -⟩ := batches_agree hstateless spaces {}
  have hall : (model.inferBatch spaces {}).1 = .ok [seen, seen, seen] :=
    (hok _).2 (.cons rfl (.cons rfl (.cons rfl .nil)))
  have hunseen : ∀ i < 2, (model.after (spaces.take i) {}).cancelled = false := by decide
  obtain ⟨-, hcancelled, -⟩ := hwatched 2 hunseen
  have hnone : ∀ i e, i < 2 → ¬Batch.FirstFault (fun _ => .ok seen) spaces i e := by
    rintro i e - ⟨⟨s, -, hs⟩, -⟩
    cases hs
  have houtcome : (ConcurrentBatch.scheduled model (.ofSpaces spaces, {}) turns).1.outcome =
      some (.error .cancelled) := by decide +kernel
  obtain ⟨hlast, -⟩ := hturns turns
  rcases hlast _ houtcome with hwhole | ⟨-, hseen⟩
  · rw [hall] at hwhole
    cases hwhole
  · exact ⟨hall, hcancelled (by decide) (by decide) hnone, houtcome, hseen⟩

end IntentGate
