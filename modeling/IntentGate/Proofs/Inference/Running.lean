import IntentGate.Inference.Combined
import IntentGate.Inference.Provider
import IntentGate.Inference.Rules
import IntentGate.Inference.Similar

/-!
# Running inferences

What a composed inference gives and which scene it leaves, from what its parts give and leave. A
fault ends an inference at the scene its part left (`run_bind`), and what was done to the session
until then stands.
-/

namespace IntentGate

namespace Scene

/-- The scene whose space has its slot filled. -/
def warmed (scene : Scene) : Scene :=
  { scene with space := scene.space.warmed }

/-- The scene in which a vector has been resolved: unless one was given, the slot is filled. -/
def resolved (scene : Scene) (given : Option BehaviorVector) : Scene :=
  if given.isSome then scene else scene.warmed

@[simp] theorem resolved_session (scene : Scene) (given : Option BehaviorVector) :
    (scene.resolved given).session = scene.session := by
  cases given <;> rfl

end Scene

theorem Session.bind_apply {α β : Type} (x : SessionM α) (f : α → SessionM β) (s : Session) :
    (x >>= f) s = f (x s).1 (x s).2 :=
  rfl

/-- What is bound to an action runs at the state that the action has left, unless this failed. -/
theorem stateful_run_bind {ε σ α β : Type} (x : ExceptT ε (StateM σ) α)
    (f : α → ExceptT ε (StateM σ) β) (s : σ) :
    (x >>= f).run s =
      match x.run s with
      | (.ok a, next) => (f a).run next
      | (.error e, next) => (.error e, next) := by
  change (ExceptT.bindCont f (x.run s).1) (x.run s).2 = _
  rcases x.run s with ⟨_ | _, _⟩ <;> rfl

namespace InferM

theorem run_bind {α β : Type} (x : InferM α) (f : α → InferM β) (scene : Scene) :
    (x >>= f).run scene =
      match x.run scene with
      | (.ok a, next) => (f a).run next
      | (.error e, next) => (.error e, next) := by
  rw [stateful_run_bind]
  rcases x.run scene with ⟨_ | _, _⟩ <;> rfl

@[simp] theorem run_pure {α : Type} (a : α) (scene : Scene) :
    (pure a : InferM α).run scene = (.ok a, scene) :=
  rfl

@[simp] theorem run_ofSession {α : Type} (act : SessionM α) (scene : Scene) :
    (ofSession act).run scene =
      (.ok (act scene.session).1, { scene with session := (act scene.session).2 }) :=
  rfl

@[simp] theorem run_space (scene : Scene) : space.run scene = (.ok scene.space, scene) := rfl

theorem run_ofExcept {α : Type} (act : SessionM (Except InferenceFault α)) (scene : Scene) :
    (ofExcept act).run scene =
      ((act scene.session).1, { scene with session := (act scene.session).2 }) := by
  rw [ofExcept, run_bind, run_ofSession]
  cases (act scene.session).1 <;> rfl

end InferM

namespace Model

@[simp] theorem run_resolve (given : Option BehaviorVector) (scene : Scene) :
    (resolve given).run scene = (.ok (given.getD scene.space.vector), scene.resolved given) := by
  cases given <;> rfl

variable {given : Option BehaviorVector}

theorem run_chained (primary fallback : Model) (threshold : Float) (scene : Scene) :
    (chained primary fallback threshold given).run scene =
      match (primary given).run scene with
      | (.error e, next) => (.error e, next)
      | (.ok first, next) =>
        if clampScore threshold ≤ first.score then
          (.ok (first.withReasoning (primaryReasoning first)), next)
        else
          match (fallback given).run next with
          | (.error e, last) => (.error e, last)
          | (.ok second, last) =>
            (.ok (second.withReasoning (fallbackReasoning (clampScore threshold) second)),
              last) := by
  unfold chained
  rw [InferM.run_bind]
  rcases (primary given).run scene with ⟨_ | first, next⟩
  · rfl
  · dsimp only
    split
    · rfl
    · rw [InferM.run_bind]
      rcases (fallback given).run next with ⟨_ | second, last⟩ <;> rfl

theorem run_stagesFrom_cons (last : Option Intent) (s : Stage) (rest : List Stage) (scene : Scene) :
    (stagesFrom given last (s :: rest)).run scene =
      match (s.model given).run scene with
      | (.error e, next) => (.error e, next)
      | (.ok i, next) =>
        if s.threshold ≤ i.score then (.ok i, next)
        else (stagesFrom given (some i) rest).run next := by
  rw [stagesFrom, InferM.run_bind]
  rcases (s.model given).run scene with ⟨_ | i, next⟩
  · rfl
  · dsimp only
    split <;> rfl

/-! ## Leaves -/

theorem run_firstVerdict_cons (r : IntentRule) (rest : List IntentRule) (scene : Scene) :
    (firstVerdict (r :: rest)).run scene =
      let next := if r.takesVector scene.space then scene.warmed else scene
      match r.verdict scene.space with
      | some v => (.ok (some v), next)
      | none => (firstVerdict rest).run next := by
  rw [firstVerdict, InferM.run_bind, InferM.run_space]
  dsimp only
  split <;> cases r.verdict scene.space <;> rfl

/-- Rules have a verdict or none, without a fault and whatever the session is. -/
theorem run_firstVerdict (rules : List IntentRule) (scene : Scene) :
    ∃ verdict next, (firstVerdict rules).run scene = (.ok verdict, next) ∧
      next.session = scene.session := by
  induction rules generalizing scene with
  | nil => exact ⟨none, scene, rfl, rfl⟩
  | cons r rest ih =>
    rw [run_firstVerdict_cons]
    have hsession : (if r.takesVector scene.space then scene.warmed else scene).session =
        scene.session := by
      split <;> rfl
    generalize (if r.takesVector scene.space then scene.warmed else scene) = next at hsession ⊢
    cases r.verdict scene.space with
    | some v => exact ⟨some v, next, rfl, hsession⟩
    | none =>
      obtain ⟨verdict, last, hrun, hlast⟩ := ih next
      exact ⟨verdict, last, hrun, hlast.trans hsession⟩

/-- A model of rules has an intent, whose signals are the dimensions of the vector. -/
theorem run_ofRulesGraded (rules : List IntentRule) (grade : Float → Confidence) (scene : Scene) :
    ∃ name score reasoning next, (ofRulesGraded rules grade given).run scene =
      (.ok ⟨name, Signal.ofVector ruleSource (given.getD scene.space.vector), grade score,
        reasoning⟩, next) ∧ next.session = scene.session := by
  obtain ⟨verdict, next, hverdict, hsession⟩ := run_firstVerdict rules (scene.resolved given)
  rw [Scene.resolved_session] at hsession
  rw [ofRulesGraded, InferM.run_bind, run_resolve]
  dsimp only
  rw [InferM.run_bind, hverdict]
  cases verdict with
  | some v => exact ⟨v.name, v.score, v.reasoning, next, rfl, hsession⟩
  | none => exact ⟨Intent.unknownName, 0, some noRuleMatched, next, rfl, hsession⟩

/-- A model of similarity gives the first failure of its provider, or one signal for each answer. -/
theorem run_ofScoring (provider : Provider)
    (score : Space → Dict Float → List (Embedding Float) → StateM WallClock Float)
    (grade : Float → Confidence) (scene : Scene) :
    (ofScoring provider score grade given).run scene =
      let v := given.getD scene.space.vector
      let resolved := scene.resolved given
      match embedAll provider v.dimensions.keys scene.session with
      | (.error e, session) => (.error e, { resolved with session })
      | (.ok es, session) =>
        let (x, wallClock) := score resolved.space v.dimensions es session.wallClock
        (.ok ⟨similarName, es.map fun e => Signal.make similarSource e.source e.score, grade x,
          none⟩, { resolved with session := { session with wallClock } }) := by
  rw [ofScoring, InferM.run_bind, run_resolve]
  dsimp only
  rw [InferM.run_bind, InferM.run_ofExcept, Scene.resolved_session]
  rcases embedAll provider (given.getD scene.space.vector).dimensions.keys scene.session with
    ⟨_ | es, session⟩ <;> rfl

section EmbedAll

variable {provider : Provider} {key : String} {s next : Session} (keys : List String)

theorem embedAll_cons_error {failure : ProviderFailure}
    (hcall : provider key s = (.error failure, next)) :
    embedAll provider (key :: keys) s = (.error (.provider failure), next) := by
  rw [embedAll, Session.bind_apply, hcall]
  rfl

theorem embedAll_cons_ok {e : Embedding Float} (hcall : provider key s = (.ok e, next)) :
    embedAll provider (key :: keys) s =
      (embedAll provider keys next).map (Except.map (e :: ·)) id := by
  rw [embedAll, Session.bind_apply, hcall]
  rfl

end EmbedAll

end Model

/-- A provider that remembers answers without a call, or calls its inner provider and gives the answer
of this; of its own it changes the count of readings and the stores of providers only. -/
theorem Provider.remembering_cases (number : Nat) (lifetime : Option Nat) (inner : Provider)
    (key : String) (s : Session) :
    ∃ readings embeddings, let asked : Session := { s with readings, embeddings }
      (∃ e, remembering number lifetime inner key s = (.ok e, asked)) ∨
        ∃ readings embeddings, remembering number lifetime inner key s =
          ((inner key asked).1, { (inner key asked).2 with readings, embeddings }) := by
  have hasked : ∃ readings embeddings,
      (Session.onEmbeddings number (fun kept => kept.lookup (Session.now s).1 key)
        (Session.now s).2).2 = { s with readings, embeddings } := ⟨_, _, rfl⟩
  rw [remembering, Session.bind_apply, Session.bind_apply]
  generalize Session.onEmbeddings number _ _ = looked at hasked ⊢
  obtain ⟨found, asked⟩ := looked
  obtain ⟨readings, embeddings, rfl⟩ := hasked
  refine ⟨readings, embeddings, ?_⟩
  cases found with
  | some e => exact .inl ⟨e, rfl⟩
  | none =>
    refine .inr ?_
    dsimp only
    rw [Session.bind_apply]
    rcases inner key { s with readings, embeddings } with ⟨_ | e, next⟩ <;> exact ⟨_, _, rfl⟩

namespace Session

@[simp] theorem intentStore_now (s : Session) (number : Nat) :
    (now s).2.intentStore number = s.intentStore number :=
  rfl

@[simp] theorem onIntents_fst {α : Type} (number : Nat) (act : StateM (Expiring Intent) α)
    (s : Session) : (onIntents number act s).1 = (act (s.intentStore number)).1 :=
  rfl

/-- Acting on a store changes it as the action says. -/
theorem intentStore_onIntents {α : Type} (number : Nat) (act : StateM (Expiring Intent) α)
    (s : Session) :
    (onIntents number act s).2.intentStore number = (act (s.intentStore number)).2 := by
  change ((s.intents.put number _).find? number).getD _ = _
  rw [Table.find?_put, if_pos rfl]
  rfl

theorem embeddingStore_onEmbeddings {α : Type} (number : Nat)
    (act : StateM (Expiring (Embedding Float)) α) (s : Session) :
    (onEmbeddings number act s).2.embeddingStore number = (act (s.embeddingStore number)).2 := by
  change ((s.embeddings.put number _).find? number).getD _ = _
  rw [Table.find?_put, if_pos rfl]
  rfl

end Session

end IntentGate
