import IntentGate.Proofs.Inference.OwnVector
import IntentGate.Proofs.Inference.Selection

/-!
# The calls of stages

Stages ask their models in order, and stop at the first one that fails or reaches its threshold. To
say which models are called and with what, each call is noted on the way (`noting`); by
`noted_eq_stagesFrom` the notes change nothing else. All that stages can do is listed once, in
`Stages.Runs`: the first of them settles the inference, it is the last one and does not, or those
behind it go on. `staged_at_first_settling` says what follows for the calls and for the result.
-/

namespace IntentGate

open InferM Model

/-- A call of the model of a stage: the vector it is given, the scene it is made in and what it
comes to. -/
structure StageCall where
  stage : Stage
  given : Option BehaviorVector
  scene : Scene
  result : Except InferenceFault Intent

/-- The call fails, or its intent reaches the threshold of the stage. -/
def StageCall.Settles (c : StageCall) : Prop :=
  ∀ i, c.result = .ok i → c.stage.threshold ≤ i.score

namespace Stages

/-! ## Notes -/

/-- Inferences that note the calls of stages, in order. -/
abbrev NotingM := ExceptT InferenceFault (StateM (List StageCall × Scene))

/-- The model of a stage, with a note of each call. -/
def noting (s : Stage) (given : Option BehaviorVector) : NotingM Intent :=
  ExceptT.mk fun (calls, scene) =>
    let (r, next) := (s.model given).run scene
    (r, calls ++ [⟨s, given, scene, r⟩], next)

/-- `stagesFrom`, of stages that may do more than infer. -/
def askFrom {m : Type → Type} [Monad m] [MonadExceptOf InferenceFault m]
    (ask : Stage → Option BehaviorVector → m Intent) (given : Option BehaviorVector)
    (last : Option Intent) : List Stage → m Intent
  | [] =>
    match last with
    | some i => return i.withReasoning (lastStageReasoning i)
    | none => throw (.configuration .noStages)
  | s :: rest => do
    let i ← ask s given
    if s.threshold ≤ i.score then return i else askFrom ask given (some i) rest

variable {given : Option BehaviorVector}

theorem askFrom_model (last : Option Intent) (stages : List Stage) :
    askFrom (m := InferM) (fun s given => s.model given) given last stages =
      stagesFrom given last stages := by
  induction stages generalizing last with
  | nil => cases last <;> rfl
  | cons s rest ih =>
    rw [askFrom, stagesFrom]
    simp only [ih]

/-- What stages come to, with the notes of the calls and the scene that is left. -/
def noted (given : Option BehaviorVector) (last : Option Intent) (stages : List Stage)
    (calls : List StageCall) (scene : Scene) :
    Except InferenceFault Intent × List StageCall × Scene :=
  (askFrom noting given last stages).run (calls, scene)

theorem noted_cons (last : Option Intent) (s : Stage) (rest : List Stage) (calls : List StageCall)
    (scene : Scene) :
    noted given last (s :: rest) calls scene =
      match (s.model given).run scene with
      | (.error e, next) => (.error e, calls ++ [⟨s, given, scene, .error e⟩], next)
      | (.ok i, next) =>
        if s.threshold ≤ i.score then (.ok i, calls ++ [⟨s, given, scene, .ok i⟩], next)
        else noted given (some i) rest (calls ++ [⟨s, given, scene, .ok i⟩]) next := by
  have hasked : (noting s given).run (calls, scene) =
      (((s.model given).run scene).1,
        calls ++ [⟨s, given, scene, ((s.model given).run scene).1⟩],
        ((s.model given).run scene).2) := rfl
  rw [noted, askFrom, stateful_run_bind, hasked]
  rcases (s.model given).run scene with ⟨_ | i, next⟩
  · rfl
  · dsimp only
    split <;> rfl

/-- Notes change neither the result nor the scene. -/
theorem noted_eq_stagesFrom (last : Option Intent) (stages : List Stage) (calls : List StageCall)
    (scene : Scene) :
    ((noted given last stages calls scene).1, (noted given last stages calls scene).2.2) =
      (stagesFrom given last stages).run scene := by
  induction stages generalizing last calls scene with
  | nil => cases last <;> rfl
  | cons s rest ih =>
    rw [noted_cons, run_stagesFrom_cons]
    rcases (s.model given).run scene with ⟨_ | i, next⟩
    · rfl
    · dsimp only
      split
      · rfl
      · exact ih _ _ _

/-! ## Runs -/

/-- Calls that are made one after another with the same given vector, each one in the scene that the
one before has left. -/
inductive Follow (given : Option BehaviorVector) : Scene → List StageCall → Scene → Prop where
  | none {scene : Scene} : Follow given scene [] scene
  | call {s : Stage} {scene mid next : Scene} {r : Except InferenceFault Intent}
      {calls : List StageCall} (hrun : (s.model given).run scene = (r, mid))
      (hrest : Follow given mid calls next) :
      Follow given scene (⟨s, given, scene, r⟩ :: calls) next

/-- All that stages can do: the calls they make in a scene, what they come to and the scene they
leave. -/
inductive Runs (given : Option BehaviorVector) :
    List Stage → Scene → List StageCall → Except InferenceFault Intent → Scene → Prop where
  /-- The first call fails or reaches the threshold. -/
  | settled {s : Stage} {rest : List Stage} {scene next : Scene} {r : Except InferenceFault Intent}
      (hrun : (s.model given).run scene = (r, next))
      (hsettles : StageCall.Settles ⟨s, given, scene, r⟩) :
      Runs given (s :: rest) scene [⟨s, given, scene, r⟩] r next
  /-- The last intent is below its threshold, and taken with a remark. -/
  | last {s : Stage} {scene next : Scene} {i : Intent}
      (hrun : (s.model given).run scene = (.ok i, next)) (hbelow : ¬s.threshold ≤ i.score) :
      Runs given [s] scene [⟨s, given, scene, .ok i⟩]
        (.ok (i.withReasoning (lastStageReasoning i))) next
  /-- An intent is below its threshold, and the stages behind go on. -/
  | later {s : Stage} {rest : List Stage} {scene mid next : Scene} {i : Intent}
      {calls : List StageCall} {r : Except InferenceFault Intent}
      (hrun : (s.model given).run scene = (.ok i, mid)) (hbelow : ¬s.threshold ≤ i.score)
      (hrest : Runs given rest mid calls r next) :
      Runs given (s :: rest) scene (⟨s, given, scene, .ok i⟩ :: calls) r next

theorem settles_error (s : Stage) (scene : Scene) (e : InferenceFault) :
    StageCall.Settles ⟨s, given, scene, .error e⟩ :=
  nofun

theorem settles_ok_iff {s : Stage} {scene : Scene} {i : Intent} :
    StageCall.Settles ⟨s, given, scene, .ok i⟩ ↔ s.threshold ≤ i.score :=
  ⟨fun h => h i rfl, fun h _ heq => Except.ok.inj heq ▸ h⟩

/-- What is noted of stages is a run of them. -/
theorem runs_noted (given : Option BehaviorVector) {stages : List Stage} (hne : stages ≠ [])
    (last : Option Intent) (calls : List StageCall) (scene : Scene) :
    ∃ made, (noted given last stages calls scene).2.1 = calls ++ made ∧
      Runs given stages scene made (noted given last stages calls scene).1
        (noted given last stages calls scene).2.2 := by
  induction stages generalizing last calls scene with
  | nil => exact absurd rfl hne
  | cons s rest ih =>
    rw [noted_cons]
    rcases hrun : (s.model given).run scene with ⟨e | i, mid⟩
    · exact ⟨_, rfl, .settled hrun (settles_error s scene e)⟩
    · dsimp only
      split
      · next hmet => exact ⟨_, rfl, .settled hrun (settles_ok_iff.2 hmet)⟩
      · next hbelow =>
        cases rest with
        | nil => exact ⟨_, rfl, .last hrun hbelow⟩
        | cons s' rest =>
          obtain ⟨made, hmade, hruns⟩ := ih (List.cons_ne_nil _ _) (some i)
            (calls ++ [⟨s, given, scene, .ok i⟩]) mid
          refine ⟨⟨s, given, scene, .ok i⟩ :: made, ?_, .later hrun hbelow hruns⟩
          rw [hmade, List.append_assoc]
          rfl

namespace Runs

variable {stages : List Stage} {scene next : Scene} {calls : List StageCall}
  {r : Except InferenceFault Intent}

theorem follow (h : Runs given stages scene calls r next) : Follow given scene calls next := by
  induction h with
  | settled hrun _ => exact .call hrun .none
  | last hrun _ => exact .call hrun .none
  | later hrun _ _ ih => exact .call hrun ih

/-- The calls are those of the first stages, in order. -/
theorem stages_prefix (h : Runs given stages scene calls r next) :
    calls.map StageCall.stage <+: stages := by
  induction h with
  | settled _ _ => exact List.cons_prefix_cons.2 ⟨rfl, List.nil_prefix⟩
  | last _ _ => exact List.prefix_rfl
  | later _ _ _ ih => exact List.cons_prefix_cons.2 ⟨rfl, ih⟩

/-- No call but the last one settles the inference. What that one comes to is taken as it is if it
settles the inference; if it does not, all stages were asked, and its intent is taken with a
remark. -/
theorem ends (h : Runs given stages scene calls r next) :
    ∃ earlier c, calls = earlier ++ [c] ∧ (∀ d ∈ earlier, ¬d.Settles) ∧
      (c.Settles → r = c.result) ∧
      (¬c.Settles → calls.map StageCall.stage = stages ∧
        ∃ i, c.result = .ok i ∧ r = .ok (i.withReasoning (lastStageReasoning i))) := by
  induction h with
  | settled _ hsettles =>
    exact ⟨[], _, rfl, List.forall_mem_nil _, fun _ => rfl, fun h => absurd hsettles h⟩
  | last _ hbelow =>
    exact ⟨[], _, rfl, List.forall_mem_nil _, fun h => absurd (settles_ok_iff.1 h) hbelow,
      fun _ => ⟨rfl, _, rfl, rfl⟩⟩
  | later _ hbelow _ ih =>
    obtain ⟨earlier, c, rfl, hearlier, hsettled, hopen⟩ := ih
    refine ⟨_ :: earlier, c, rfl, ?_, hsettled, fun h => ?_⟩
    · exact List.forall_mem_cons.2 ⟨mt settles_ok_iff.1 hbelow, hearlier⟩
    · obtain ⟨hstages, hlast⟩ := hopen h
      exact ⟨congrArg (_ :: ·) hstages, hlast⟩

end Runs

/-- If the models of the stages keep the space, each call is about the original one, whose slot may
have been filled by then. -/
theorem Follow.space_eq {scene next : Scene} {calls : List StageCall}
    (h : Follow given scene calls next) (hkeeps : ∀ c ∈ calls, KeepsSpace (c.stage.model given)) :
    ∀ c ∈ calls, c.given = given ∧
      (c.scene.space = scene.space ∨ c.scene.space = scene.space.warmed) := by
  induction h with
  | none => exact List.forall_mem_nil _
  | @call s scene _ _ _ _ hrun _ ih =>
    obtain ⟨hfirst, hrest⟩ := List.forall_mem_cons.1 hkeeps
    refine List.forall_mem_cons.2 ⟨⟨rfl, .inl rfl⟩, fun c hc => ?_⟩
    obtain ⟨hgiven, hspace⟩ := ih hrest c hc
    have hmid := hfirst scene
    rw [hrun] at hmid
    refine ⟨hgiven, ?_⟩
    -- a slot filled twice is filled with the same vector
    rcases hmid with hmid | hmid <;> rw [hmid] at hspace
    · exact hspace
    · exact .inr (hspace.elim id id)

end Stages

namespace Model

/-- Stages with clamped thresholds ask their models in order, each one once and with the vector that
is given, up to the first that fails or reaches its threshold: its fault or its intent is what they
come to, and no model behind it is asked. If there is none, all models have been asked, and it is
the intent of the last one, with a remark in its reasoning and otherwise as it is. Models that keep
the space are all asked about the original one. -/
theorem staged_at_first_settling {models : List (Model × Float)} (hne : models ≠ [])
    (given : Option BehaviorVector) (scene : Scene) :
    let stages := stagesOf models
    let noted := Stages.noted given none stages [] scene
    let calls := noted.2.1
    staged? stages = .ok (staged stages) ∧
    staged stages given =
      Stages.askFrom (m := InferM) (fun s given => s.model given) given none stages ∧
    (staged stages given).run scene = (noted.1, noted.2.2) ∧
    Stages.Follow given scene calls noted.2.2 ∧ calls.map StageCall.stage <+: stages ∧
    ((∀ m ∈ models, KeepsSpace (m.1 given)) → ∀ c ∈ calls, c.given = given ∧
      (c.scene.space = scene.space ∨ c.scene.space = scene.space.warmed)) ∧
    ∃ earlier c, calls = earlier ++ [c] ∧ (∀ d ∈ earlier, ¬d.Settles) ∧
      (c.Settles → (staged stages given).run scene = (c.result, noted.2.2)) ∧
      (¬c.Settles → calls.map StageCall.stage = stages ∧ ∃ i j, c.result = .ok i ∧
        (staged stages given).run scene = (.ok j, noted.2.2) ∧
        j.name = i.name ∧ j.signals = i.signals ∧ j.confidence = i.confidence ∧
        (∀ r, i.reasoning = some r →
          j.reasoning = some (r ++ " (multi-stage: last stage, no threshold met)")) ∧
        (i.reasoning = none →
          j.reasoning = some "Multi-stage: last stage (no threshold met)")) := by
  intro stages noted calls
  have hstages : stages ≠ [] := fun h => hne (List.map_eq_nil_iff.1 h)
  have hran : (noted.1, noted.2.2) = (staged stages given).run scene :=
    Stages.noted_eq_stagesFrom ..
  obtain ⟨made, hmade, hruns⟩ := Stages.runs_noted given hstages none [] scene
  change calls = made at hmade
  rw [← hmade] at hruns
  obtain ⟨earlier, c, hcalls, hearlier, hsettled, hopen⟩ := hruns.ends
  refine ⟨if_neg (mt List.isEmpty_iff.1 hstages), (Stages.askFrom_model none stages).symm, hran.symm,
    hruns.follow, hruns.stages_prefix, fun hkeeps => ?_, earlier, c, hcalls, hearlier,
    fun h => ?_, fun h => ?_⟩
  · refine hruns.follow.space_eq fun d hd => ?_
    obtain ⟨m, hm, heq⟩ := List.mem_map.1 (hruns.stages_prefix.subset (List.mem_map_of_mem hd))
    rw [← heq]
    exact hkeeps m hm
  · rw [← hran, ← hsettled h]
  · obtain ⟨hall, i, hi, hr⟩ := hopen h
    refine ⟨hall, i, i.withReasoning (lastStageReasoning i), hi, by rw [← hran, ← hr], rfl, rfl, rfl,
      fun r hreasoning => ?_, fun hreasoning => ?_⟩
    · change some (lastStageReasoning i) = _
      rw [lastStageReasoning, hreasoning]
    · change some (lastStageReasoning i) = _
      rw [lastStageReasoning, hreasoning]

/-- The second of three models reaches its threshold, and the third, whose threshold any intent would
reach, is not called. With higher thresholds all are called, and the last one has no reasoning to
put the remark behind. -/
theorem staged_at_first_settling_second :
    let fixed (name : String) (score : Float) (reasoning : Option String) : Model :=
      .ofRules [⟨fun _ => some ⟨name, score, reasoning⟩, fun _ => false⟩] .standard
    let a := counted 0 (fixed "a" 0.4 (some "a"))
    let b := counted 1 (fixed "b" 0.6 (some "b"))
    let c := counted 2 (fixed "c" 0.9 none)
    let low : List (Model × Float) := [(a, 0.7), (b, 0.5), (c, -1)]
    let high : List (Model × Float) := [(a, 0.7), (b, 0.7), (c, 7)]
    let scene : Scene := ⟨.empty, {}⟩
    let given : Option BehaviorVector := some .empty
    (∃ (d : StageCall) (next : Scene), d.Settles ∧ d.given = given ∧
      d.scene.space.events = [] ∧ d.result = .ok ⟨"b", [], ⟨0.6, .high⟩, some "b"⟩ ∧
      (staged (stagesOf low) given).run scene = (d.result, next) ∧
      next.session.journal = [.infer 1, .infer 0]) ∧
    ∃ (j : Intent) (next : Scene), (staged (stagesOf high) given).run scene = (.ok j, next) ∧
      j.name = "c" ∧ j.reasoning = some "Multi-stage: last stage (no threshold met)" ∧
      next.session.journal = [.infer 2, .infer 1, .infer 0] := by
  intro fixed a b c low high scene given
  have hlast {calls earlier : List StageCall} {d : StageCall} {p : Float × _}
      (hcalls : calls = earlier ++ [d])
      (hnoted : (calls.map fun d => (d.stage.threshold, d.result)).getLast? = some p) :
      d.stage.threshold = p.1 ∧ d.result = p.2 := by
    rw [hcalls, List.map_append, List.map_singleton, List.getLast?_concat] at hnoted
    cases hnoted
    exact ⟨rfl, rfl⟩
  constructor
  · have hne : low ≠ [] := List.cons_ne_nil _ _
    obtain ⟨-, -, -, -, -, hspace, earlier, d, hcalls, -, hsettled, -⟩ :=
      staged_at_first_settling hne given scene
    have hkeeps : ∀ m ∈ low, KeepsSpace (m.1 given) := by
      intro m hm
      have hnested : Nested (Basic fun _ => True) m.1 := by
        simp only [low, List.mem_cons, List.not_mem_nil, or_false] at hm
        rcases hm with rfl | rfl | rfl <;> exact .counted (.leaf (.rules _ _))
      exact hnested.keepsSpace given
    obtain ⟨hthreshold, hresult⟩ := hlast hcalls (p := (0.5, .ok ⟨"b", [], ⟨0.6, .high⟩, some "b"⟩))
      (by decide +kernel)
    have hd : d.Settles := by
      intro i hi
      cases hresult.symm.trans hi
      rw [hthreshold]
      decide +kernel
    have hmem : d ∈ (Stages.noted given none (stagesOf low) [] scene).2.1 := by
      rw [hcalls]
      exact List.mem_append_right _ (List.mem_singleton_self d)
    obtain ⟨hgiven, hsame⟩ := hspace hkeeps d hmem
    refine ⟨d, _, hd, hgiven, ?_, hresult, hsettled hd, by decide +kernel⟩
    rcases hsame with h | h <;> rw [h] <;> rfl
  · have hne : high ≠ [] := List.cons_ne_nil _ _
    obtain ⟨-, -, -, -, -, -, earlier, d, hcalls, -, -, hopen⟩ :=
      staged_at_first_settling hne given scene
    obtain ⟨hthreshold, hresult⟩ := hlast hcalls (p := (1, .ok ⟨"c", [], ⟨0.9, .certain⟩, none⟩))
      (by decide +kernel)
    have hd : ¬d.Settles := by
      intro h
      have hmet := h _ hresult
      rw [hthreshold] at hmet
      exact absurd hmet (by decide +kernel)
    obtain ⟨-, i, j, hi, hrun, hname, -, -, -, hreasoning⟩ := hopen hd
    cases hresult.symm.trans hi
    exact ⟨j, _, hrun, hname, hreasoning rfl, by decide +kernel⟩

end Model

end IntentGate
