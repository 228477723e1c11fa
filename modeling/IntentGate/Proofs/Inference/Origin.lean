import IntentGate.Proofs.Behavior.Coherence
import IntentGate.Proofs.Inference.OwnVector

/-!
# Where signals come from

Without memories, each intent of a nested model is that of one leaf, reached through chains, stages
and windows (`From`). The other models on the way change its confidence and reasoning at most, so
its signals are those that the leaf has given (`From.run_leaf`): one for each dimension of the vector
that the leaf has resolved, in ascending order. Which vector that is depends on the windows on the
way only (`From.vector_eq`): behind a window the given vector is gone, and what counts are the events
that pass all of them.
-/

namespace IntentGate

open InferM

theorem Signal.clampWeight_eq (weight : Float) :
    clampWeight weight = if weight.isNaN ∨ weight < 0 then 0 else weight := by
  unfold clampWeight
  by_cases hnan : weight.isNaN = true
  · rw [if_pos hnan, if_pos (.inl hnan)]
  · rw [if_neg hnan]
    exact if_congr (or_iff_right hnan).symm rfl rfl

namespace Model

/-! ## Leaves -/

/-- The models that others are put together from. -/
inductive Leaf where
  | rules (rules : List IntentRule) (grade : Float → Confidence)
  | similar (provider : Provider)
      (score : Space → Dict Float → List (Embedding Float) → StateM WallClock Float)
      (grade : Float → Confidence)

def Leaf.model : Leaf → Model
  | rules list grade => ofRulesGraded list grade
  | similar provider score grade => ofScoring provider score grade

/-- A provider is asked for keys, one after another, and answers them all. -/
inductive Asked (provider : Provider) :
    List String → Session → List (Embedding Float) → Session → Prop where
  | nil {s : Session} : Asked provider [] s [] s
  | cons {key : String} {keys : List String} {s mid next : Session} {e : Embedding Float}
      {es : List (Embedding Float)} (hcall : provider key s = (.ok e, mid))
      (hrest : Asked provider keys mid es next) : Asked provider (key :: keys) s (e :: es) next

theorem Asked.length_eq {provider : Provider} {keys : List String} {s next : Session}
    {es : List (Embedding Float)} (h : Asked provider keys s es next) :
    es.length = keys.length := by
  induction h with
  | nil => rfl
  | cons _ _ ih => rw [List.length_cons, List.length_cons, ih]

theorem asked_of_embedAll {provider : Provider} {keys : List String} {s next : Session}
    {es : List (Embedding Float)} (h : embedAll provider keys s = (.ok es, next)) :
    Asked provider keys s es next := by
  induction keys generalizing s es with
  | nil =>
    cases h
    exact .nil
  | cons key keys ih =>
    rcases hcall : provider key s with ⟨_ | e, mid⟩
    · rw [embedAll_cons_error keys hcall] at h
      cases h
    · rw [embedAll_cons_ok keys hcall] at h
      rcases hrest : embedAll provider keys mid with ⟨_ | rest, last⟩ <;> rw [hrest] at h <;> cases h
      exact .cons hcall (ih hrest)

/-- The signals that a leaf gives for a vector: those of rules carry its dimensions and values, those
of similarity the answers of the provider, which is asked for the dimensions in a session. -/
inductive Leaf.Gives (v : BehaviorVector) (s : Session) : Leaf → List Signal → Prop where
  | rules {rules : List IntentRule} {grade : Float → Confidence} :
      Gives v s (.rules rules grade) (v.entries.map fun entry =>
        ⟨"rule", entry.1, if entry.2.isNaN ∨ entry.2 < 0 then 0 else entry.2⟩)
  | similar {provider : Provider}
      {score : Space → Dict Float → List (Embedding Float) → StateM WallClock Float}
      {grade : Float → Confidence} {es : List (Embedding Float)} {next : Session}
      (hasked : Asked provider v.dimensions.keys s es next) :
      Gives v s (.similar provider score grade) (es.map fun e =>
        ⟨"ai", e.source, if e.score.isNaN ∨ e.score < 0 then 0 else e.score⟩)

theorem Leaf.Gives.length_eq {v : BehaviorVector} {s : Session} {l : Leaf} {signals : List Signal}
    (h : l.Gives v s signals) : signals.length = v.size := by
  cases h with
  | rules => exact List.length_map ..
  | similar hasked =>
    rw [List.length_map, hasked.length_eq]
    exact List.length_map ..

variable {given : Option BehaviorVector} {scene next : Scene} {i : Intent}

theorem Leaf.gives_of_run {l : Leaf} (hrun : (l.model given).run scene = (.ok i, next)) :
    l.Gives (given.getD scene.space.vector) scene.session i.signals := by
  cases l with
  | rules rules grade =>
    obtain ⟨name, score, reasoning, _, hleaf, -⟩ := run_ofRulesGraded rules grade scene
    rw [model, hleaf] at hrun
    cases hrun
    unfold Signal.ofVector Signal.make
    simp only [Signal.clampWeight_eq]
    exact .rules
  | similar provider score grade =>
    rw [model, run_ofScoring] at hrun
    dsimp only at hrun
    rcases hembed : embedAll provider (given.getD scene.space.vector).dimensions.keys
      scene.session with ⟨_ | es, session⟩ <;> rw [hembed] at hrun <;> cases hrun
    unfold Signal.make
    simp only [Signal.clampWeight_eq]
    exact .similar (asked_of_embedAll hembed)

/-! ## Paths to leaves -/

/-- Models that are put together from leaves without memories. -/
inductive Direct : Model → Prop where
  | leaf (l : Leaf) : Direct l.model
  | chained {primary fallback : Model} {threshold : Float} (hprimary : Direct primary)
      (hfallback : Direct fallback) : Direct (chained primary fallback threshold)
  | staged {stages : List Stage} {m : Model} (hstages : ∀ s ∈ stages, Direct s.model)
      (hm : staged? stages = .ok m) : Direct m
  | windowed {inner : Model} {length : Span} {reference : Option Instant} (hinner : Direct inner) :
      Direct (windowed inner length reference)
  | strict {inner : Model} (hinner : Direct inner) : Direct (strict inner)
  | observed {inner : Model} (hinner : Direct inner) : Direct (observed inner)
  | batched {inner : Model} (hinner : Direct inner) : Direct (batched inner)

theorem Direct.nested {m : Model} (hm : Direct m) : Nested (Basic fun _ => True) m := by
  induction hm with
  | leaf l =>
    cases l with
    | rules rules grade => exact .leaf (.rules rules grade)
    | similar provider score grade => exact .leaf (.similar trivial score grade)
  | chained _ _ ihp ihf => exact .chained ihp ihf
  | staged _ hm ih => exact .staged ih hm
  | windowed _ ih => exact .windowed ih
  | strict _ ih => exact .strict ih
  | observed _ ih => exact .observed ih
  | batched _ ih => exact .batched ih

/-- Where an inference ends up: a leaf with what it is given and its scene, and the windows on the
way there, the outermost first. -/
structure Origin where
  windows : List Window
  leaf : Leaf
  given : Option BehaviorVector
  scene : Scene

/-- The window of a model in a scene. -/
def windowIn (length : Span) (reference : Option Instant) (scene : Scene) : Window :=
  Window.endingAt (WallClock.referenceOrNow reference scene.session.wallClock).1 length

/-- The scene as it is seen through the window of a model, for which the wall clock may have been
read. -/
def sceneThrough (length : Span) (reference : Option Instant) (scene : Scene) : Scene where
  space := scene.space.filtered (windowIn length reference scene)
  session := (Session.onWallClock (WallClock.referenceOrNow reference) scene.session).2

/-- The model takes its intent from the origin. A chain takes that of the primary model if it reaches
the threshold, and of the fallback if not; stages take that of the first one that does, and of the
last one otherwise. -/
inductive From : Model → Option BehaviorVector → Scene → Origin → Prop where
  | leaf (l : Leaf) {given : Option BehaviorVector} {scene : Scene} :
      From l.model given scene ⟨[], l, given, scene⟩
  | primary {primary fallback : Model} {threshold : Float} {given : Option BehaviorVector}
      {scene next : Scene} {first : Intent} {o : Origin}
      (hrun : (primary given).run scene = (.ok first, next))
      (hmet : clampScore threshold ≤ first.score) (h : From primary given scene o) :
      From (chained primary fallback threshold) given scene o
  | fallback {primary fallback : Model} {threshold : Float} {given : Option BehaviorVector}
      {scene next : Scene} {first : Intent} {o : Origin} (hprimary : Direct primary)
      (hrun : (primary given).run scene = (.ok first, next))
      (hbelow : ¬clampScore threshold ≤ first.score) (h : From fallback given next o) :
      From (chained primary fallback threshold) given scene o
  | met {s : Stage} {rest : List Stage} {given : Option BehaviorVector} {scene next : Scene}
      {first : Intent} {o : Origin} (hrun : (s.model given).run scene = (.ok first, next))
      (hmet : s.threshold ≤ first.score) (h : From s.model given scene o) :
      From (staged (s :: rest)) given scene o
  | last {s : Stage} {given : Option BehaviorVector} {scene : Scene} {o : Origin}
      (h : From s.model given scene o) : From (staged [s]) given scene o
  | later {s s' : Stage} {rest : List Stage} {given : Option BehaviorVector} {scene next : Scene}
      {first : Intent} {o : Origin} (hs : Direct s.model)
      (hrun : (s.model given).run scene = (.ok first, next))
      (hbelow : ¬s.threshold ≤ first.score) (h : From (staged (s' :: rest)) given next o) :
      From (staged (s :: s' :: rest)) given scene o
  | windowed {inner : Model} {length : Span} {reference : Option Instant}
      {given : Option BehaviorVector} {scene : Scene} {o : Origin}
      (h : From inner none (sceneThrough length reference scene) o) :
      From (windowed inner length reference) given scene
        { o with windows := windowIn length reference scene :: o.windows }
  | strict {inner : Model} {given : Option BehaviorVector} {scene : Scene} {o : Origin}
      (h : From inner given scene o) : From (strict inner) given scene o
  | observed {inner : Model} {given : Option BehaviorVector} {scene : Scene} {o : Origin}
      (h : From inner given scene o) : From (observed inner) given scene o
  | batched {inner : Model} {given : Option BehaviorVector} {scene : Scene} {o : Origin}
      (h : From inner given scene o) : From (batched inner) given scene o

theorem run_windowed (inner : Model) (length : Span) (reference : Option Instant) (scene : Scene) :
    (windowed inner length reference given).run scene =
      let ran := (inner none).run (sceneThrough length reference scene)
      (ran.1, { scene with session := ran.2.session }) :=
  rfl

theorem run_strict (inner : Model) (scene : Scene) :
    (strict inner given).run scene =
      ((inner given).run scene).map
        (Except.map fun i => { i with confidence := i.confidence.downgraded }) id := by
  unfold strict
  rw [run_bind]
  rcases (inner given).run scene with ⟨_ | i, next⟩ <;> rfl

/-- Whatever stage there was before, stages go on as if from the start. -/
theorem stagesFrom_cons_eq_staged (last : Option Intent) (s : Stage) (rest : List Stage) :
    stagesFrom given last (s :: rest) = staged (s :: rest) given :=
  rfl

/-- Some stage is taken if each one that gives an intent has an origin. -/
theorem exists_from_staged {stages : List Stage} (hne : stages ≠ [])
    (hdirect : ∀ s ∈ stages, Direct s.model)
    (horigin : ∀ s ∈ stages, ∀ (scene next : Scene) (i : Intent),
      (s.model given).run scene = (.ok i, next) → ∃ o, From s.model given scene o)
    (hrun : (staged stages given).run scene = (.ok i, next)) :
    ∃ o, From (staged stages) given scene o := by
  induction stages generalizing scene with
  | nil => exact absurd rfl hne
  | cons s rest ih =>
    obtain ⟨hs, hdirects⟩ := List.forall_mem_cons.1 hdirect
    obtain ⟨hfrom, horigins⟩ := List.forall_mem_cons.1 horigin
    rw [← stagesFrom_cons_eq_staged none, run_stagesFrom_cons] at hrun
    rcases hstage : (s.model given).run scene with ⟨_ | first, mid⟩ <;> rw [hstage] at hrun
    · cases hrun
    dsimp only at hrun
    obtain ⟨o, ho⟩ := hfrom scene mid first hstage
    by_cases hmet : s.threshold ≤ first.score
    · exact ⟨o, .met hstage hmet ho⟩
    · cases rest with
      | nil => exact ⟨o, .last ho⟩
      | cons s' rest =>
        rw [if_neg hmet] at hrun
        obtain ⟨o, ho⟩ := ih (List.cons_ne_nil _ _) hdirects horigins hrun
        exact ⟨o, .later hs hstage hmet ho⟩

/-- What a model infers has an origin. -/
theorem Direct.exists_from {m : Model} (hm : Direct m)
    (hrun : (m given).run scene = (.ok i, next)) : ∃ o, From m given scene o := by
  induction hm generalizing given scene i next with
  | leaf l => exact ⟨_, .leaf l⟩
  | @chained primary fallback _ hprimary _ ihp ihf =>
    rw [run_chained] at hrun
    rcases hfirst : (primary given).run scene with ⟨_ | first, mid⟩ <;> rw [hfirst] at hrun
    · cases hrun
    dsimp only at hrun
    split at hrun
    · next hmet =>
      obtain ⟨o, ho⟩ := ihp hfirst
      exact ⟨o, .primary hfirst hmet ho⟩
    · next hbelow =>
      rcases hsecond : (fallback given).run mid with ⟨_ | second, last⟩ <;> rw [hsecond] at hrun
      · cases hrun
      obtain ⟨o, ho⟩ := ihf hsecond
      exact ⟨o, .fallback hprimary hfirst hbelow ho⟩
  | staged hstages hm ih =>
    obtain ⟨hne, rfl⟩ := staged?_eq_ok_iff.1 hm
    exact exists_from_staged hne hstages (fun s hs _ _ _ => ih s hs) hrun
  | @windowed inner length reference _ ih =>
    rw [run_windowed] at hrun
    let seen := sceneThrough length reference scene
    have hinner : ((inner none).run seen).1 = .ok i := congrArg Prod.fst hrun
    obtain ⟨o, ho⟩ := ih (Prod.ext hinner rfl)
    exact ⟨_, .windowed ho⟩
  | @strict inner _ ih =>
    rw [run_strict] at hrun
    rcases hinner : (inner given).run scene with ⟨_ | own, last⟩ <;> rw [hinner] at hrun
    · cases hrun
    obtain ⟨o, ho⟩ := ih hinner
    exact ⟨o, .strict ho⟩
  | observed _ ih =>
    obtain ⟨o, ho⟩ := ih hrun
    exact ⟨o, .observed ho⟩
  | batched _ ih =>
    obtain ⟨o, ho⟩ := ih hrun
    exact ⟨o, .batched ho⟩

/-! ## The leaf's part -/

/-- The signals are those that the leaf gives at the origin. -/
theorem From.run_leaf {m : Model} {o : Origin} (h : From m given scene o)
    (hrun : (m given).run scene = (.ok i, next)) :
    ∃ own last, (o.leaf.model o.given).run o.scene = (.ok own, last) ∧
      own.signals = i.signals := by
  induction h generalizing i next with
  | leaf l => exact ⟨i, next, hrun, rfl⟩
  | primary hfirst hmet _ ih =>
    rw [run_chained, hfirst] at hrun
    dsimp only at hrun
    rw [if_pos hmet] at hrun
    cases hrun
    obtain ⟨own, last, hleaf, hsignals⟩ := ih hfirst
    exact ⟨own, last, hleaf, hsignals⟩
  | @fallback _ fallback _ given _ mid _ _ _ hfirst hbelow _ ih =>
    rw [run_chained, hfirst] at hrun
    dsimp only at hrun
    rw [if_neg hbelow] at hrun
    rcases hsecond : (fallback given).run mid with ⟨_ | second, last⟩ <;> rw [hsecond] at hrun <;>
      cases hrun
    obtain ⟨own, last, hleaf, hsignals⟩ := ih hsecond
    exact ⟨own, last, hleaf, hsignals⟩
  | met hstage hmet _ ih =>
    rw [← stagesFrom_cons_eq_staged none, run_stagesFrom_cons, hstage] at hrun
    dsimp only at hrun
    rw [if_pos hmet] at hrun
    cases hrun
    exact ih hstage
  | @last s given scene _ _ ih =>
    rw [← stagesFrom_cons_eq_staged none, run_stagesFrom_cons] at hrun
    rcases hstage : (s.model given).run scene with ⟨_ | own, last⟩ <;> rw [hstage] at hrun
    · cases hrun
    dsimp only at hrun
    obtain ⟨own, last, hleaf, hsignals⟩ := ih hstage
    -- the remark of the last stage, if it is made, is none of the signals
    split at hrun <;> cases hrun <;> exact ⟨own, last, hleaf, hsignals⟩
  | later _ hstage hbelow _ ih =>
    rw [← stagesFrom_cons_eq_staged none, run_stagesFrom_cons, hstage] at hrun
    dsimp only at hrun
    rw [if_neg hbelow] at hrun
    exact ih hrun
  | @windowed inner length reference _ scene _ _ ih =>
    rw [run_windowed] at hrun
    let seen := sceneThrough length reference scene
    have hinner : ((inner none).run seen).1 = .ok i := congrArg Prod.fst hrun
    exact ih (Prod.ext hinner rfl)
  | @strict inner given scene _ _ ih =>
    rw [run_strict] at hrun
    rcases hinner : (inner given).run scene with ⟨_ | own, last⟩ <;> rw [hinner] at hrun <;>
      cases hrun
    obtain ⟨own, last, hleaf, hsignals⟩ := ih hinner
    exact ⟨own, last, hleaf, hsignals⟩
  | observed _ ih => exact ih hrun
  | batched _ ih => exact ih hrun

/-! ## The vector at the leaf -/

/-- The events that pass all windows. -/
def eventsThrough (windows : List Window) (events : List Event) : List Event :=
  events.filter fun e => windows.all fun w => w.contains e.occurredAt

/-- The vector to use behind some windows: the given one if there is no window, and else the counts
of the events that pass all of them. -/
def vectorThrough (windows : List Window) (given : Option BehaviorVector) (events : List Event) :
    BehaviorVector :=
  let counts := BehaviorVector.ofKeys ((eventsThrough windows events).map Event.dimension)
  if windows.isEmpty then given.getD counts else counts

/-- What is at the origin: the given vector unless there is a window, and the events that pass the
windows, in a space whose slot is empty or holds their counts. -/
structure Origin.Matches (o : Origin) (given : Option BehaviorVector) (s : Space) : Prop where
  given : o.given = if o.windows.isEmpty then given else none
  events : o.scene.space.events = eventsThrough o.windows s.events
  coherent : o.scene.space.Coherent

theorem Origin.Matches.vector_eq {o : Origin} {s : Space} (h : o.Matches given s) :
    o.given.getD o.scene.space.vector = vectorThrough o.windows given s.events := by
  rw [h.coherent.vector_eq, Space.counts, Space.dimensions, h.events, h.given, vectorThrough]
  split <;> rfl

/-- A model that keeps the space leaves it coherent and with the same events. -/
theorem Origin.Matches.of_run {m : Model} (hm : Direct m) {o : Origin} (hcoherent : scene.space.Coherent)
    (hrun : (m given).run scene = (.ok i, next))
    (hnext : next.space.Coherent → o.Matches given next.space) : o.Matches given scene.space := by
  have hkeeps := hm.nested.keepsSpace given scene
  rw [hrun] at hkeeps
  rcases hkeeps with hspace | hspace <;> dsimp only at hspace <;> rw [hspace] at hnext
  · exact hnext hcoherent
  -- the slot has been filled, with the counts that a coherent space has anyway
  · obtain ⟨hgiven, hevents, hcoherent⟩ := hnext hcoherent.warmed
    exact ⟨hgiven, hevents, hcoherent⟩

theorem From.origin_matches {m : Model} {o : Origin} (h : From m given scene o)
    (hcoherent : scene.space.Coherent) : o.Matches given scene.space := by
  induction h with
  | leaf l => exact ⟨rfl, (List.filter_eq_self.2 fun _ _ => rfl).symm, hcoherent⟩
  | primary _ _ _ ih => exact ih hcoherent
  | fallback hprimary hfirst _ _ ih => exact .of_run hprimary hcoherent hfirst ih
  | met _ _ _ ih => exact ih hcoherent
  | last _ ih => exact ih hcoherent
  | later hs hstage _ _ ih => exact .of_run hs hcoherent hstage ih
  | windowed _ ih =>
    -- nothing is given behind a window, and the slot there is empty, whatever it was before
    obtain ⟨hgiven, hevents, hleaf⟩ := ih (.inl rfl)
    refine ⟨?_, ?_, hleaf⟩
    · rw [hgiven, ite_self]
      rfl
    · rw [hevents]
      exact List.filter_filter.trans (List.filter_congr fun e _ => Bool.and_comm _ _)
  | strict _ ih => exact ih hcoherent
  | observed _ ih => exact ih hcoherent
  | batched _ ih => exact ih hcoherent

/-- Whatever a model without memories infers has an origin, and wherever it is from, its signals are
one for each dimension of the vector there, in ascending order: the given vector if no window lies
between, and else the counts of the events that pass all windows. -/
theorem signals_of_origin {m : Model} (hm : Direct m) (hcoherent : scene.space.Coherent)
    (hrun : (m given).run scene = (.ok i, next)) :
    (∃ o, From m given scene o) ∧
    ∀ o, From m given scene o →
      let v := vectorThrough o.windows given scene.space.events
      v.dimensions.keys.Pairwise (· < ·) ∧ i.signals.length = v.size ∧
        o.leaf.Gives v o.scene.session i.signals := by
  refine ⟨hm.exists_from hrun, fun o ho => ?_⟩
  intro v
  obtain ⟨own, last, hleaf, hsignals⟩ := ho.run_leaf hrun
  have hgives := Leaf.gives_of_run hleaf
  rw [(ho.origin_matches hcoherent).vector_eq, hsignals] at hgives
  exact ⟨List.pairwise_map.2 v.dimensions.ascending, hgives.length_eq, hgives⟩

/-- The primary model is below the threshold of the chain, so its fallback is asked, which sees one
of two events only; there the first stage is below its threshold too, and the second one asks the
provider for what is in the window. Of the given vector nothing is left. -/
theorem signals_of_origin_behind_window :
    let rules (score : Float) : Leaf := .rules [⟨fun _ => some ⟨"r", score, none⟩, fun _ => false⟩]
      Calculator.standard.ofScore
    let similar : Leaf := .similar (.ofAnswers 0 fun key => .ok ⟨"of " ++ key, -1, none⟩)
      (fun _ _ _ => pure 0.5) Calculator.standard.ofScore
    let now : Instant := ⟨120, 0, by decide, by decide, by decide⟩
    let m := strict (chained (rules 0.2).model (windowed
      (staged [⟨(rules 0.1).model, 0.9⟩, ⟨similar.model, 0.8⟩]) (Span.ofSeconds 60) (some now)) 0.7)
    let given : Option BehaviorVector := some ⟨Dict.ofList [("x", 1)]⟩
    let space := Space.ofEvents [⟨"u", "login", default, .empty⟩, ⟨"u", "pay", now, .empty⟩] .empty
    ∃ i next o, (m given).run ⟨space, {}⟩ = (.ok i, next) ∧ From m given ⟨space, {}⟩ o ∧
      i.signals = [⟨"ai", "of u:pay", 0⟩] ∧ o.windows = [Window.endingAt now (Span.ofSeconds 60)] ∧
      i.signals.length = (vectorThrough o.windows given space.events).size ∧
      o.leaf.Gives (vectorThrough o.windows given space.events) o.scene.session i.signals := by
  intro rules similar now m given space
  have hrules (score : Float) : Direct (rules score).model := .leaf _
  have hown (score : Float) (given : Option BehaviorVector) (scene : Scene) :
      ((rules score).model given).run scene =
        (.ok ⟨"r", Signal.ofVector "rule" (given.getD scene.space.vector),
          Calculator.standard.ofScore score, none⟩, scene.resolved given) := by
    cases given <;> rfl
  have hstages : ∀ s ∈ [⟨(rules 0.1).model, 0.9⟩, (⟨similar.model, 0.8⟩ : Stage)],
      Direct s.model := by
    intro s hs
    rcases List.mem_pair.1 hs with rfl | rfl
    · exact hrules _
    · exact .leaf similar
  have hm : Direct m := .strict (.chained (hrules _) (.windowed (.staged hstages rfl)))
  have hrun : ((m given).run ⟨space, {}⟩).1 = .ok ⟨similarName, [⟨"ai", "of u:pay", 0⟩],
      ⟨0.25, .low⟩, some "Fallback: Multi-stage: last stage (no threshold met)"⟩ := by
    decide +kernel
  have hfrom : From m given ⟨space, {}⟩ _ :=
    .strict (.fallback (hrules _) (hown ..) (by decide +kernel)
      (.windowed (.later (hrules _) (hown ..) (by decide +kernel) (.last (.leaf similar)))))
  have hcoherent : space.Coherent := .inl rfl
  obtain ⟨-, hlength, hgives⟩ := (signals_of_origin hm hcoherent (Prod.ext hrun rfl)).2 _ hfrom
  exact ⟨_, _, _, Prod.ext hrun rfl, hfrom, rfl, rfl, hlength, hgives⟩

end Model

end IntentGate
