import IntentGate.Proofs.Inference.Faults
import IntentGate.Proofs.Inference.Running
import IntentGate.Proofs.Traversal

/-!
# What a model of similarity consults

A model of similarity asks its provider for the dimensions of a vector, scores the answers by its
rule and grades the score. To say which of the three are consulted, in which order and with what,
the inference is stated over the parties it deals with (`Parties.infer`): with the parties of a
model it is that model (`Parties.infer_of`), and parties that note each consultation change nothing
else (`Parties.agrees_infer`). All that can happen is listed once, in `Consults`.
-/

namespace IntentGate

open Model

/-! ## Rules that score -/

/-- A rule that makes one score of embeddings, by weights of their sources; a rule that takes times
also scores them by the events of a space. -/
structure Scorer (m : Type → Type) where
  weighted : List (Embedding Float) → Option (Dict Float) → m Float
  timeAware : Option (Space → List (Embedding Float) → m Float)

namespace Scorer

variable {m : Type → Type} {rule : Scorer m} {s : Space}

/-- The score that an inference takes: by time if the rule takes times and the space has events, and
else by the values of the vector as weights. -/
def score (rule : Scorer m) (s : Space) (values : Dict Float) (es : List (Embedding Float)) :
    m Float :=
  match rule.timeAware with
  | some byTime => if s.events.isEmpty then rule.weighted es (some values) else byTime s es
  | none => rule.weighted es (some values)

theorem score_of_timeAware {byTime : Space → List (Embedding Float) → m Float}
    (hrule : rule.timeAware = some byTime) (hevents : s.events ≠ []) (values : Dict Float)
    (es : List (Embedding Float)) : rule.score s values es = byTime s es := by
  rw [score, hrule]
  exact if_neg (mt List.isEmpty_iff.1 hevents)

theorem score_of_weighted (hroute : rule.timeAware = none ∨ s.events = []) (values : Dict Float)
    (es : List (Embedding Float)) :
    rule.score s values es = rule.weighted es (some values) := by
  rw [score]
  split
  · next hrule =>
    have hevents : s.events = [] := hroute.resolve_left (by rw [hrule]; exact Option.some_ne_none _)
    exact if_pos (List.isEmpty_iff.2 hevents)
  · rfl

theorem route_cases (rule : Scorer m) (s : Space) :
    (∃ byTime, rule.timeAware = some byTime ∧ s.events ≠ []) ∨
      (rule.timeAware = none ∨ s.events = []) := by
  cases hrule : rule.timeAware with
  | none => exact .inr (.inl rfl)
  | some byTime =>
    by_cases hevents : s.events = []
    · exact .inr (.inr hevents)
    · exact .inl ⟨byTime, rfl, hevents⟩

/-- Rules whose parts are related make related scores. -/
theorem score_rel {m' : Type → Type} {rule' : Scorer m'} {R : m Float → m' Float → Prop}
    (hweighted : ∀ es weights, R (rule.weighted es weights) (rule'.weighted es weights))
    (htimes : Option.Rel (fun f g => ∀ s es, R (f s es) (g s es)) rule.timeAware rule'.timeAware)
    (s : Space) (values : Dict Float) (es : List (Embedding Float)) :
    R (rule.score s values es) (rule'.score s values es) := by
  unfold score
  cases hrule : rule.timeAware <;> cases hrule' : rule'.timeAware <;> rw [hrule, hrule'] at htimes
  · exact hweighted es (some values)
  · cases htimes
  · cases htimes
  · cases htimes with
    | some htimes =>
      dsimp only
      split
      · exact hweighted es (some values)
      · exact htimes s es

end Scorer

/-- The rule that a similarity is. -/
def Similarity.scorer (similarity : Similarity Float) : Scorer (StateM WallClock) where
  weighted es weights := pure (similarity.scoreWeighted es weights)
  timeAware :=
    match similarity with
    | .timeDecay halfLife reference =>
      some fun s es => decayedScoreNow halfLife reference s.events es
    | _ => none

theorem Similarity.timeAwareScore?_eq (similarity : Similarity Float) (s : Space)
    (es : List (Embedding Float)) :
    similarity.timeAwareScore? s.events es =
      similarity.scorer.timeAware.map fun byTime => byTime s es := by
  cases similarity <;> rfl

theorem Similarity.inferenceScore_eq (similarity : Similarity Float) (s : Space)
    (values : Dict Float) (es : List (Embedding Float)) :
    similarity.inferenceScore s.events values es = similarity.scorer.score s values es := by
  rw [inferenceScore, timeAwareScore?_eq, Scorer.score]
  cases similarity.scorer.timeAware with
  | none =>
    rw [Option.map_none, ite_self]
    rfl
  | some byTime =>
    dsimp only
    split <;> rfl

/-! ## Parties -/

/-- The intent that a model of similarity gives for embeddings. -/
def Model.similarIntent (es : List (Embedding Float)) (confidence : Confidence) : Intent :=
  ⟨similarName, es.map fun e => Signal.make similarSource e.source e.score, confidence, none⟩

/-- A consultation of a party other than the scene, and what that party is given. -/
inductive Consultation where
  | provider (key : String)
  | timeAware (s : Space) (es : List (Embedding Float))
  | weighted (es : List (Embedding Float)) (weights : Option (Dict Float))
  | calculator (score : Float)
deriving DecidableEq

/-- Those that an inference of similarity deals with: the scene, the provider, the rule and the
calculator. -/
structure Parties (m : Type → Type) where
  onScene : {α : Type} → InferM α → m α
  ask : String → m (Except ProviderFailure (Embedding Float))
  rule : Scorer m
  grade : Float → m Confidence

namespace Parties

section Program

variable {m : Type → Type} [Monad m] [MonadExceptOf InferenceFault m]

/-- The answers to some keys, up to the first failure. -/
def answers (p : Parties m) : List String → m (List (Embedding Float))
  | [] => return []
  | key :: rest => do
    match ← p.ask key with
    | .error failure => throw (.provider failure)
    | .ok e => return e :: (← p.answers rest)

/-- The intent for the answers to all keys of a vector. -/
def conclude (p : Parties m) (v : BehaviorVector) (es : List (Embedding Float)) : m Intent := do
  let s ← p.onScene InferM.space
  let score ← p.rule.score s v.dimensions es
  return similarIntent es (← p.grade score)

/-- The inference of a model of similarity, in whatever way its parties act. -/
def infer (p : Parties m) (given : Option BehaviorVector) : m Intent := do
  let v ← p.onScene (resolve given)
  p.conclude v (← p.answers v.dimensions.keys)

end Program

variable {α β : Type} {provider : Provider} {rule : Scorer (StateM WallClock)}
  {grade : Float → Confidence}

/-- An action on the wall clock of the scene. -/
def onClock (act : StateM WallClock α) : InferM α :=
  InferM.ofSession (Session.onWallClock act)

/-- The parties of a model. -/
def of (provider : Provider) (rule : Scorer (StateM WallClock)) (grade : Float → Confidence) :
    Parties InferM where
  onScene x := x
  ask key := InferM.ofSession (provider key)
  rule :=
    { weighted := fun es weights => onClock (rule.weighted es weights)
      timeAware := rule.timeAware.map fun byTime s es => onClock (byTime s es) }
  grade score := pure (grade score)

theorem score_of (s : Space) (values : Dict Float) (es : List (Embedding Float)) :
    (of provider rule grade).rule.score s values es = onClock (rule.score s values es) := by
  refine Scorer.score_rel (R := fun x y => x = onClock y) (fun _ _ => rfl) ?_ s values es
  cases hrule : rule.timeAware with
  | none => rw [of, hrule]; exact .none
  | some byTime => rw [of, hrule]; exact .some fun _ _ => rfl

theorem answers_of (keys : List String) :
    (of provider rule grade).answers keys = InferM.ofExcept (embedAll provider keys) := by
  induction keys with
  | nil => rfl
  | cons key keys ih =>
    refine ExceptT.ext (funext fun scene => ?_)
    have hask : ((of provider rule grade).ask key).run scene =
        (.ok (provider key scene.session).1,
          { scene with session := (provider key scene.session).2 }) := rfl
    change ((of provider rule grade).answers (key :: keys)).run scene =
      (InferM.ofExcept (embedAll provider (key :: keys))).run scene
    rw [answers, InferM.run_bind, hask, InferM.run_ofExcept]
    rcases hcall : provider key scene.session with ⟨failure | e, session⟩
    · rw [embedAll_cons_error keys hcall]
      rfl
    · rw [embedAll_cons_ok keys hcall]
      dsimp only
      rw [InferM.run_bind, ih, InferM.run_ofExcept]
      rcases embedAll provider keys session with ⟨_ | es, next⟩ <;> rfl

/-- With the parties of a model, the inference is that model. -/
theorem infer_of (given : Option BehaviorVector) :
    (of provider rule grade).infer given = ofScoring provider rule.score grade given := by
  have hscene {α : Type} (x : InferM α) : (of provider rule grade).onScene x = x := rfl
  simp only [infer, conclude, ofScoring, hscene, answers_of, score_of]
  rfl

/-! ## Notes -/

/-- Inferences that note what they consult, in order. -/
abbrev NotingM := ExceptT InferenceFault (StateM (List Consultation × Scene))

/-- An inference with notes. -/
def noting (notes : List Consultation) (x : InferM α) : NotingM α :=
  ExceptT.mk fun (earlier, scene) =>
    let (r, next) := x.run scene
    (r, earlier ++ notes, next)

/-- The parties, with a note of each consultation. -/
def noted (p : Parties InferM) : Parties NotingM where
  onScene x := noting [] (p.onScene x)
  ask key := noting [.provider key] (p.ask key)
  rule :=
    { weighted := fun es weights => noting [.weighted es weights] (p.rule.weighted es weights)
      timeAware := p.rule.timeAware.map fun byTime s es =>
        noting [.timeAware s es] (byTime s es) }
  grade score := noting [.calculator score] (p.grade score)

theorem run_noting (notes : List Consultation) (x : InferM α) (earlier : List Consultation)
    (scene : Scene) :
    (noting notes x).run (earlier, scene) =
      ((x.run scene).1, earlier ++ notes, (x.run scene).2) :=
  rfl

/-- An inference with notes is that without them, whatever was noted before. -/
def Agrees (x : NotingM α) (y : InferM α) : Prop :=
  ∀ notes scene, ((x.run (notes, scene)).1, (x.run (notes, scene)).2.2) = y.run scene

namespace Agrees

theorem noting (notes : List Consultation) (x : InferM α) : Agrees (noting notes x) x :=
  fun _ _ => rfl

theorem pure (a : α) : Agrees (Pure.pure a) (Pure.pure a) :=
  fun _ _ => rfl

theorem throw (e : InferenceFault) :
    Agrees (MonadExcept.throw e : NotingM α) (MonadExcept.throw e) :=
  fun _ _ => rfl

theorem bind {x : NotingM α} {y : InferM α} {f : α → NotingM β} {g : α → InferM β}
    (h : Agrees x y) (hf : ∀ a, Agrees (f a) (g a)) : Agrees (x >>= f) (y >>= g) := by
  intro notes scene
  rw [stateful_run_bind, stateful_run_bind, ← h notes scene]
  rcases x.run (notes, scene) with ⟨_ | a, later, next⟩
  · rfl
  · exact hf a later next

end Agrees

variable (p : Parties InferM)

theorem agrees_answers (keys : List String) : Agrees (p.noted.answers keys) (p.answers keys) := by
  induction keys with
  | nil => exact .pure []
  | cons key keys ih =>
    refine .bind (.noting [.provider key] (p.ask key)) fun answer => ?_
    cases answer with
    | error failure => exact .throw (.provider failure)
    | ok e => exact .bind ih fun es => .pure (e :: es)

theorem agrees_score (s : Space) (values : Dict Float) (es : List (Embedding Float)) :
    Agrees (p.noted.rule.score s values es) (p.rule.score s values es) := by
  refine Scorer.score_rel (R := Agrees) (fun es weights => .noting _ _) ?_ s values es
  cases hrule : p.rule.timeAware with
  | none => rw [noted, hrule]; exact .none
  | some byTime => rw [noted, hrule]; exact .some fun _ _ => .noting _ _

/-- Notes change neither the result nor the scene. -/
theorem agrees_infer (given : Option BehaviorVector) :
    Agrees (p.noted.infer given) (p.infer given) := by
  refine .bind (.noting [] _) fun v => ?_
  refine .bind (p.agrees_answers v.dimensions.keys) fun es => ?_
  -- what is left concludes from the answers
  refine .bind (.noting [] _) fun s => ?_
  refine .bind (p.agrees_score s v.dimensions es) fun score => ?_
  exact .bind (.noting [.calculator score] _) fun confidence => .pure (similarIntent es confidence)

end Parties

/-! ## Consultations -/

/-- The scene in which calls of the provider of a number have been entered in the journal. -/
def Scene.recorded (scene : Scene) (number : Nat)
    (answer : String → Except ProviderFailure (Embedding Float)) (keys : List String) : Scene :=
  let calls := keys.map fun key => Call.embed number key (Provider.failure? (answer key))
  { scene with session :=
    { scene.session with journal := calls.reverse ++ scene.session.journal } }

/-- The scene with another state of the wall clock. -/
def Scene.withClock (scene : Scene) (wallClock : WallClock) : Scene :=
  { scene with session := { scene.session with wallClock } }

section

variable (answer : String → Except ProviderFailure (Embedding Float))
  (rule : Scorer (StateM WallClock)) (grade : Float → Confidence)

/-- All that can happen when a vector is scored for a space: the keys that the provider is asked
for, what is consulted after it, what comes of it and what the wall clock is then. -/
inductive Consults (v : BehaviorVector) (s : Space) (clock : WallClock) :
    List String → List Consultation → Except InferenceFault Intent → WallClock → Prop where
  /-- The provider refuses a key, and nothing else is consulted. -/
  | refused {before after : List String} {key : String} {failure : ProviderFailure}
      (hkeys : v.dimensions.keys = before ++ key :: after)
      (hbefore : ∀ k ∈ before, ∃ e, answer k = .ok e) (hkey : answer key = .error failure) :
      Consults v s clock (before ++ [key]) [] (.error (.provider failure)) clock
  | byTime {es : List (Embedding Float)}
      {byTime : Space → List (Embedding Float) → StateM WallClock Float} {score : Float}
      {next : WallClock}
      (hanswers : List.Forall₂ (fun key e => answer key = .ok e) v.dimensions.keys es)
      (hrule : rule.timeAware = some byTime) (hevents : s.events ≠ [])
      (hscore : byTime s es clock = (score, next)) :
      Consults v s clock v.dimensions.keys [.timeAware s es, .calculator score]
        (.ok (similarIntent es (grade score))) next
  | byWeight {es : List (Embedding Float)} {score : Float} {next : WallClock}
      (hanswers : List.Forall₂ (fun key e => answer key = .ok e) v.dimensions.keys es)
      (hroute : rule.timeAware = none ∨ s.events = [])
      (hscore : rule.weighted es (some v.dimensions) clock = (score, next)) :
      Consults v s clock v.dimensions.keys [.weighted es (some v.dimensions), .calculator score]
        (.ok (similarIntent es (grade score))) next

namespace Parties

/-- The keys of a list up to the first that is refused. -/
def askedOf : List String → List String
  | [] => []
  | key :: rest =>
    match answer key with
    | .error _ => [key]
    | .ok _ => key :: askedOf rest

variable {answer}

theorem askedOf_cons_error {key : String} {failure : ProviderFailure}
    (hkey : answer key = .error failure) (rest : List String) :
    askedOf answer (key :: rest) = [key] := by
  rw [askedOf, hkey]

theorem askedOf_cons_ok {key : String} {e : Embedding Float} (hkey : answer key = .ok e)
    (rest : List String) : askedOf answer (key :: rest) = key :: askedOf answer rest := by
  rw [askedOf, hkey]

theorem askedOf_eq_self {keys : List String} {es : List (Embedding Float)}
    (h : List.Forall₂ (fun key e => answer key = .ok e) keys es) : askedOf answer keys = keys := by
  induction h with
  | nil => rfl
  | cons hkey _ ih => rw [askedOf_cons_ok hkey, ih]

theorem askedOf_append {before after : List String} {key : String} {failure : ProviderFailure}
    (hbefore : ∀ k ∈ before, ∃ e, answer k = .ok e) (hkey : answer key = .error failure) :
    askedOf answer (before ++ key :: after) = before ++ [key] := by
  induction before with
  | nil => exact askedOf_cons_error hkey after
  | cons k before ih =>
    obtain ⟨⟨e, hk⟩, hbefore⟩ := List.forall_mem_cons.1 hbefore
    rw [List.cons_append, askedOf_cons_ok hk, ih hbefore, List.cons_append]

variable (answer) {rule grade} (number : Nat) {provider : Provider}

theorem run_ask (key : String) (notes : List Consultation) (scene : Scene) :
    ((of (.ofAnswers number answer) rule grade).noted.ask key).run (notes, scene) =
      (.ok (answer key), notes ++ [.provider key], scene.recorded number answer [key]) :=
  rfl

/-- The keys up to the first refused one are asked for in order, each with a note and an entry in
the journal. -/
theorem run_answers (keys : List String) (notes : List Consultation) (scene : Scene) :
    ((of (.ofAnswers number answer) rule grade).noted.answers keys).run (notes, scene) =
      ((keys.mapM answer).mapError .provider, notes ++ (askedOf answer keys).map .provider,
        scene.recorded number answer (askedOf answer keys)) := by
  induction keys generalizing notes scene with
  | nil =>
    rw [askedOf, List.map_nil, List.append_nil]
    rfl
  | cons key keys ih =>
    rw [answers, stateful_run_bind, run_ask]
    cases hkey : answer key with
    | error failure =>
      rw [askedOf_cons_error hkey, Traversal.mapM_cons_of_error hkey]
      rfl
    | ok e =>
      have hjournal : (scene.recorded number answer [key]).recorded number answer
          (askedOf answer keys) = scene.recorded number answer (key :: askedOf answer keys) := by
        simp [Scene.recorded]
      dsimp only
      rw [stateful_run_bind, ih, askedOf_cons_ok hkey, Traversal.mapM_cons_of_ok hkey, hjournal,
        List.append_assoc]
      cases keys.mapM answer <;> rfl

theorem run_noting_onClock {score : Float} {next : WallClock} {act : StateM WallClock Float}
    {scene : Scene} (hscore : act scene.session.wallClock = (score, next))
    (notes earlier : List Consultation) :
    (noting notes (onClock act)).run (earlier, scene) =
      (.ok score, earlier ++ notes, scene.withClock next) := by
  rw [run_noting, onClock, InferM.run_ofSession, Session.onWallClock, hscore]
  rfl

theorem run_score_byTime {byTime : Space → List (Embedding Float) → StateM WallClock Float}
    {s : Space} (hrule : rule.timeAware = some byTime) (hevents : s.events ≠ [])
    (values : Dict Float) {es : List (Embedding Float)} {scene : Scene} {score : Float}
    {next : WallClock} (hscore : byTime s es scene.session.wallClock = (score, next))
    (notes : List Consultation) :
    ((of provider rule grade).noted.rule.score s values es).run (notes, scene) =
      (.ok score, notes ++ [.timeAware s es], scene.withClock next) := by
  have hnoted : (of provider rule grade).noted.rule.timeAware =
      some fun s es => noting [.timeAware s es] (onClock (byTime s es)) := by
    rw [noted, of, hrule]
    rfl
  rw [Scorer.score_of_timeAware hnoted hevents]
  exact run_noting_onClock hscore _ notes

theorem run_score_byWeight {s : Space} (hroute : rule.timeAware = none ∨ s.events = [])
    {values : Dict Float} {es : List (Embedding Float)} {scene : Scene} {score : Float}
    {next : WallClock}
    (hscore : rule.weighted es (some values) scene.session.wallClock = (score, next))
    (notes : List Consultation) :
    ((of provider rule grade).noted.rule.score s values es).run (notes, scene) =
      (.ok score, notes ++ [.weighted es (some values)], scene.withClock next) := by
  have hnoted : (of provider rule grade).noted.rule.timeAware = none ∨ s.events = [] :=
    hroute.imp_left fun hrule => by rw [noted, of, hrule]; rfl
  rw [Scorer.score_of_weighted hnoted]
  exact run_noting_onClock hscore _ notes

theorem run_conclude {score : Float} {note : Consultation} {next : Scene} (v : BehaviorVector)
    (es : List (Embedding Float)) (notes : List Consultation) (scene : Scene)
    (hscore : ∀ notes, ((of provider rule grade).noted.rule.score scene.space v.dimensions es).run
      (notes, scene) = (.ok score, notes ++ [note], next)) :
    ((of provider rule grade).noted.conclude v es).run (notes, scene) =
      (.ok (similarIntent es (grade score)), notes ++ [note, .calculator score], next) := by
  have hspace : ((of provider rule grade).noted.onScene InferM.space).run (notes, scene) =
      (.ok scene.space, notes ++ [], scene) := rfl
  rw [conclude, stateful_run_bind, hspace]
  dsimp only
  rw [stateful_run_bind, hscore, List.append_nil]
  change (Except.ok _, (notes ++ [note]) ++ [.calculator score], next) = _
  rw [List.append_assoc]
  rfl

theorem run_infer (given : Option BehaviorVector) (scene : Scene) :
    ((of (.ofAnswers number answer) rule grade).noted.infer given).run ([], scene) =
      let v := given.getD scene.space.vector
      let asked := askedOf answer v.dimensions.keys
      let next := (scene.resolved given).recorded number answer asked
      match v.dimensions.keys.mapM answer with
      | .error failure => (.error (.provider failure), asked.map .provider, next)
      | .ok es => ((of (.ofAnswers number answer) rule grade).noted.conclude v es).run
          (asked.map .provider, next) := by
  have hresolve : ((of (.ofAnswers number answer) rule grade).noted.onScene (resolve given)).run
      ([], scene) = (.ok (given.getD scene.space.vector), [], scene.resolved given) := by
    change (noting [] (resolve given)).run ([], scene) = _
    rw [run_noting, run_resolve]
    rfl
  rw [infer, stateful_run_bind, hresolve]
  dsimp only
  rw [stateful_run_bind, run_answers, List.nil_append]
  cases (given.getD scene.space.vector).dimensions.keys.mapM answer <;> rfl

theorem consults (given : Option BehaviorVector) (scene : Scene) :
    let run := ((of (.ofAnswers number answer) rule grade).noted.infer given).run ([], scene)
    ∃ asked others clock, run.2.1 = asked.map .provider ++ others ∧
      run.2.2 = ((scene.resolved given).recorded number answer asked).withClock clock ∧
      Consults answer rule grade (given.getD scene.space.vector) (scene.resolved given).space
        scene.session.wallClock asked others run.1 clock := by
  rw [run_infer]
  generalize given.getD scene.space.vector = v
  dsimp only
  cases hes : v.dimensions.keys.mapM answer with
  | error failure =>
    obtain ⟨before, key, after, hkeys, hbefore, hkey⟩ := Traversal.mapM_eq_error_iff.1 hes
    rw [hkeys, askedOf_append hbefore hkey]
    refine ⟨before ++ [key], [], _, (List.append_nil _).symm, ?_, .refused hkeys hbefore hkey⟩
    rw [Scene.withClock, Scene.recorded, Scene.resolved_session]
  | ok es =>
    have hanswers := Traversal.mapM_eq_ok_iff.1 hes
    rw [askedOf_eq_self hanswers]
    -- entries in the journal change neither the space nor the clock
    have hspace : ((scene.resolved given).recorded number answer v.dimensions.keys).space =
        (scene.resolved given).space := rfl
    have hclock : ((scene.resolved given).recorded number answer
        v.dimensions.keys).session.wallClock = scene.session.wallClock := by
      rw [Scene.recorded, Scene.resolved_session]
    generalize hnext : (scene.resolved given).recorded number answer v.dimensions.keys = next
      at hspace hclock ⊢
    dsimp only
    rw [← hspace, ← hclock]
    rcases rule.route_cases next.space with ⟨byTime, hrule, hevents⟩ | hroute
    · have hscore : byTime next.space es next.session.wallClock = (_, _) := rfl
      rw [run_conclude v es _ next (run_score_byTime hrule hevents v.dimensions hscore)]
      exact ⟨v.dimensions.keys, _, _, rfl, hnext ▸ rfl, .byTime hanswers hrule hevents hscore⟩
    · have hscore : rule.weighted es (some v.dimensions) next.session.wallClock = (_, _) := rfl
      rw [run_conclude v es _ next (run_score_byWeight hroute hscore)]
      exact ⟨v.dimensions.keys, _, _, rfl, hnext ▸ rfl, .byWeight hanswers hroute hscore⟩

end Parties

end

namespace Model

/-- A model of similarity asks its provider for the dimensions of the vector in ascending order,
each one once, up to the first that is refused, which is then what comes of it. If none is refused,
the rule is consulted once: by the space if it takes times and the space has events, and else by the
values of the vector as weights; and its score is graded. Beside the calls, all that this leaves in
the session is what the rule has read of the wall clock. With options, the vector is the normalized
one of the space. -/
theorem asked_to_first_refusal (number : Nat)
    (answer : String → Except ProviderFailure (Embedding Float)) (rule : Scorer (StateM WallClock))
    (grade : Float → Confidence) (given : Option BehaviorVector) (scene : Scene) :
    let provider := Provider.ofAnswers number answer
    let model := ofScoring provider rule.score grade
    let parties := Parties.of provider rule grade
    let run := (parties.noted.infer given).run ([], scene)
    let v := given.getD scene.space.vector
    parties.infer given = model given ∧ (model given).run scene = (run.1, run.2.2) ∧
    v.dimensions.keys.Pairwise (· < ·) ∧
    (∃ asked others clock, run.2.1 = asked.map .provider ++ others ∧
      run.2.2 = ((scene.resolved given).recorded number answer asked).withClock clock ∧
      Consults answer rule grade v (scene.resolved given).space scene.session.wallClock asked others
        run.1 clock) ∧
    (∀ options, (withOptions options model given).run scene =
      (model (some (scene.space.vectorWith options))).run scene) ∧
    ∀ (similarity : Similarity Float) (calculator : Calculator),
      similarity.scorer.timeAware.isSome = similarity.isTimeAware ∧
      ofSimilarity provider similarity calculator =
        ofScoring provider similarity.scorer.score calculator.ofScore := by
  intro provider model parties run v
  have hinfer : parties.infer given = model given := Parties.infer_of given
  refine ⟨hinfer, ?_, List.pairwise_map.2 v.dimensions.ascending,
    Parties.consults answer number given scene, fun options => ?_,
    fun similarity calculator => ⟨?_, ?_⟩⟩
  · rw [← hinfer]
    exact (parties.agrees_infer given [] scene).symm
  · rw [withOptions, InferM.run_bind, InferM.run_space]
  · cases similarity <;> rfl
  · rw [ofSimilarity]
    congr 1
    funext s values es
    exact similarity.inferenceScore_eq s values es

/-- The second of three keys is refused; a rule that takes times weighs where no event is, and takes
the times of a space for which a vector without dimensions is given. -/
example :
    let failure : ProviderFailure := ⟨"p", .other, "busy"⟩
    let answer key := if key = "u:b" then .error failure else .ok (.make key 0.5)
    let run (given : BehaviorVector) (s : Space) :=
      ((Parties.of (.ofAnswers 0 answer) (Similarity.timeDecay 0 none).scorer
        Calculator.standard.ofScore).noted.infer (some given)).run ([], ⟨s, {}⟩)
    let login := Space.empty.observe ⟨"u", "login", default, .empty⟩
    let v := BehaviorVector.ofKeys ["u:a"]
    (run (.ofKeys ["u:c", "u:b", "u:a"]) login).1 = .error (.provider failure) ∧
    (run (.ofKeys ["u:c", "u:b", "u:a"]) login).2.1 = [.provider "u:a", .provider "u:b"] ∧
    (run v .empty).2.1 = [.provider "u:a", .weighted [.make "u:a" 0.5] (some v.dimensions),
      .calculator 0.5] ∧
    (run .empty login).2.1 = [.timeAware login [], .calculator 0] := by
  decide +kernel

end Model

end IntentGate
