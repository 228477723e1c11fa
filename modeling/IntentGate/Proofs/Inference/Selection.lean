import IntentGate.Inference.Combined
import IntentGate.Inference.Rules
import IntentGate.Proofs.Inference.Running
import Mathlib.Data.List.Infix

/-!
# Chains and stages

Models with thresholds can be put together in two ways: as stages, or as a chain in which each one
falls back to the chain of those behind it. Both ask the models in order up to the first whose
intent reaches its threshold, and take the last one if none does, so they come to the same intent
up to its reasoning (`bare_chain`). The reasoning tells which model it is from: in a chain by a
prefix at each level, and with stages by a remark on the last one.
-/

namespace IntentGate

/-- The intent without its reasoning. -/
def Intent.bare (i : Intent) : Intent :=
  { i with reasoning := none }

namespace Model

open InferM

/-- The chain of some models, each of which falls back to the chain of those behind it. -/
def chain (m : Model) (threshold : Float) : List (Model × Float) → Model
  | [] => m
  | (next, t) :: rest => chained m (chain next t rest) threshold

/-- Models with thresholds as stages. -/
def stagesOf (ms : List (Model × Float)) : List Stage :=
  ms.map fun m => Stage.make m.1 m.2

variable {given : Option BehaviorVector}

/-! ## The same selection -/

/-- Up to the reasoning a chain comes to what its models come to as stages, and leaves the same
scene. -/
theorem bare_chain (m : Model) (threshold : Float) (rest : List (Model × Float)) (scene : Scene) :
    Prod.map (Except.map Intent.bare) id ((chain m threshold rest given).run scene) =
      Prod.map (Except.map Intent.bare) id
        ((staged (stagesOf ((m, threshold) :: rest)) given).run scene) := by
  induction rest generalizing m threshold scene with
  | nil =>
    rw [chain, staged, stagesOf, List.map_cons, run_stagesFrom_cons]
    rw [Stage.make]
    rcases (m given).run scene with ⟨_ | i, next⟩
    · rfl
    · dsimp only
      split <;> rfl
  | cons head rest ih =>
    rw [chain, staged, stagesOf, List.map_cons, run_stagesFrom_cons, run_chained]
    rw [Stage.make]
    rcases (m given).run scene with ⟨_ | first, next⟩
    · rfl
    · dsimp only
      split
      · rfl
      -- the stages behind go on from the intent of this one, which they never look at
      · refine Eq.trans ?_ (ih head.1 head.2 next)
        rcases (chain head.1 head.2 rest given).run next with ⟨_ | second, last⟩ <;> rfl

/-! ## The selected stage -/

/-- The stage whose intent is taken, and that intent: the first one that reaches its threshold, or
the last one if none does. -/
inductive Selected (given : Option BehaviorVector) :
    List Stage → Scene → Stage → Intent → Scene → Prop where
  | met {s : Stage} {rest : List Stage} {scene next : Scene} {own : Intent}
      (hrun : (s.model given).run scene = (.ok own, next)) (hmet : s.threshold ≤ own.score) :
      Selected given (s :: rest) scene s own next
  | last {s : Stage} {scene next : Scene} {own : Intent}
      (hrun : (s.model given).run scene = (.ok own, next)) (hbelow : ¬s.threshold ≤ own.score) :
      Selected given [s] scene s own next
  | later {s s' : Stage} {rest : List Stage} {scene mid next : Scene} {i own : Intent}
      (hrun : (s.model given).run scene = (.ok i, mid)) (hbelow : ¬s.threshold ≤ i.score)
      (hrest : Selected given rest mid s' own next) : Selected given (s :: rest) scene s' own next

/-- The intent of stages is that of the selected one, with a remark if its threshold is not met. -/
theorem selected_of_run {stages : List Stage} {last : Option Intent} {scene next : Scene}
    {i : Intent} (hne : stages ≠ [])
    (h : (stagesFrom given last stages).run scene = (.ok i, next)) :
    ∃ s own, Selected given stages scene s own next ∧
      i = if s.threshold ≤ own.score then own else own.withReasoning (lastStageReasoning own) := by
  induction stages generalizing last scene with
  | nil => exact absurd rfl hne
  | cons s rest ih =>
    rw [run_stagesFrom_cons] at h
    rcases hrun : (s.model given).run scene with ⟨_ | own, mid⟩ <;> rw [hrun] at h
    · cases h
    · dsimp only at h
      split at h
      · next hmet =>
        cases h
        exact ⟨s, _, .met hrun hmet, (if_pos hmet).symm⟩
      · next hbelow =>
        cases rest with
        | nil =>
          cases h
          exact ⟨s, _, .last hrun hbelow, (if_neg hbelow).symm⟩
        | cons s' rest =>
          obtain ⟨chosen, its, hselected, hi⟩ := ih (List.cons_ne_nil _ _) h
          exact ⟨chosen, its, .later hrun hbelow hselected, hi⟩

/-! ## Reasonings -/

theorem reasoning_lastStage_ne (own : Intent) :
    (own.withReasoning (lastStageReasoning own)).reasoning ≠ own.reasoning := by
  change some (lastStageReasoning own) ≠ own.reasoning
  unfold lastStageReasoning
  cases own.reasoning with
  | none => exact nofun
  | some r =>
    intro h
    have hlength := congrArg String.length (Option.some.inj h)
    have hremark : 0 < " (multi-stage: last stage, no threshold met)".length := by decide
    rw [String.length_append] at hlength
    omega

/-- A reasoning that starts with a word. -/
def StartsWith (word : String) (reasoning : Option String) : Prop :=
  ∃ rest, reasoning = some (word ++ rest)

theorem startsWith_primaryReasoning (i : Intent) :
    StartsWith "Primary: " (some (primaryReasoning i)) := by
  unfold primaryReasoning
  cases i.reasoning with
  | none => exact ⟨"confidence above threshold", rfl⟩
  | some r => exact ⟨r, rfl⟩

theorem startsWith_fallbackReasoning (threshold : Float) (i : Intent) :
    StartsWith "Fallback: " (some (fallbackReasoning threshold i)) := by
  unfold fallbackReasoning
  cases i.reasoning with
  | none =>
    refine ⟨"primary confidence below " ++ Layout.plain.text threshold, congrArg some ?_⟩
    rw [← String.append_assoc]
    rfl
  | some r => exact ⟨r, rfl⟩

/-- No reasoning starts with both words. -/
theorem StartsWith.exclusive {reasoning : Option String} (h : StartsWith "Primary: " reasoning)
    (h' : StartsWith "Fallback: " reasoning) : False := by
  obtain ⟨rest, rfl⟩ := h
  obtain ⟨rest', heq⟩ := h'
  have hchars := congrArg String.toList (Option.some.inj heq)
  rw [String.toList_append, String.toList_append] at hchars
  have hhead : some 'P' = some 'F' := congrArg List.head? hchars
  exact absurd hhead (by decide)

/-- What a level of a chain comes to is from its primary model or from its fallback, and its
reasoning starts accordingly. -/
theorem startsWith_of_run_chained {primary fallback : Model} {threshold : Float}
    {scene next : Scene} {i : Intent}
    (h : (chained primary fallback threshold given).run scene = (.ok i, next)) :
    ∃ first mid, (primary given).run scene = (.ok first, mid) ∧
      (StartsWith "Primary: " i.reasoning ↔ clampScore threshold ≤ first.score) ∧
      (StartsWith "Fallback: " i.reasoning ↔ ¬clampScore threshold ≤ first.score) := by
  rw [run_chained] at h
  rcases hprimary : (primary given).run scene with ⟨_ | first, mid⟩ <;> rw [hprimary] at h
  · cases h
  · refine ⟨first, mid, rfl, ?_⟩
    dsimp only at h
    split at h
    · next hmet =>
      cases h
      have hprimary := startsWith_primaryReasoning first
      exact ⟨iff_of_true hprimary hmet,
        iff_of_false hprimary.exclusive (not_not_intro hmet)⟩
    · next hbelow =>
      rcases hfallback : (fallback given).run mid with ⟨_ | second, last⟩ <;> rw [hfallback] at h
      · cases h
      · cases h
        have hfallback := startsWith_fallbackReasoning (clampScore threshold) second
        exact ⟨iff_of_false (fun hprimary => hprimary.exclusive hfallback) hbelow,
          iff_of_true hfallback hbelow⟩

/-- Stages from their checked constructor and the chain of the same models come to the same intent
or fault and leave the same scene; the intents differ in their reasoning at most. At each level of
the chain the reasoning says by its first word whether the primary model reached the threshold of
the level, and with stages it is that of the selected model exactly if this one reached its
threshold. -/
theorem chain_agrees_with_stages (m : Model) (threshold : Float) (rest : List (Model × Float))
    (given : Option BehaviorVector) (scene : Scene) :
    staged? (stagesOf ((m, threshold) :: rest)) = .ok (staged (stagesOf ((m, threshold) :: rest))) ∧
    Prod.map (Except.map Intent.bare) id ((chain m threshold rest given).run scene) =
      Prod.map (Except.map Intent.bare) id
        ((staged (stagesOf ((m, threshold) :: rest)) given).run scene) ∧
    (∀ primary t fallback behind, (primary, t) :: fallback :: behind <:+ (m, threshold) :: rest →
      ∀ before next i,
        (chain primary t (fallback :: behind) given).run before = (.ok i, next) →
        ∃ first mid, (primary given).run before = (.ok first, mid) ∧
          (StartsWith "Primary: " i.reasoning ↔ clampScore t ≤ first.score) ∧
          (StartsWith "Fallback: " i.reasoning ↔ ¬clampScore t ≤ first.score)) ∧
    ∀ next i, (staged (stagesOf ((m, threshold) :: rest)) given).run scene = (.ok i, next) →
      ∃ s own, Selected given (stagesOf ((m, threshold) :: rest)) scene s own next ∧
        i.bare = own.bare ∧ (i.reasoning = own.reasoning ↔ s.threshold ≤ own.score) := by
  refine ⟨rfl, bare_chain m threshold rest scene, ?_, ?_⟩
  · intro primary t fallback behind _ before next i hrun
    exact startsWith_of_run_chained hrun
  · intro next i hrun
    obtain ⟨s, own, hselected, rfl⟩ := selected_of_run (List.cons_ne_nil _ _) hrun
    refine ⟨s, own, hselected, ?_⟩
    by_cases hmet : s.threshold ≤ own.score
    · rw [if_pos hmet]
      exact ⟨rfl, iff_of_true rfl hmet⟩
    · rw [if_neg hmet]
      exact ⟨rfl, iff_of_false (reasoning_lastStage_ne own) hmet⟩

/-- Neither of two models reaches its threshold: the chain says that it has fallen back, so its
primary model is below the threshold, and the stages remark that the last one is taken. -/
theorem chain_agrees_below_thresholds :
    let fixed (name : String) (score : Float) : Model :=
      .ofRules [⟨fun _ => some ⟨name, score, some name⟩, fun _ => false⟩] .standard
    let models : List (Model × Float) := [(fixed "a" 0.4, 0.7), (fixed "b" 0.6, 0.9)]
    let scene : Scene := ⟨.empty, {}⟩
    let i : Intent := ⟨"b", [], ⟨0.6, .high⟩, some "Fallback: b"⟩
    let j : Intent :=
      ⟨"b", [], ⟨0.6, .high⟩, some "b (multi-stage: last stage, no threshold met)"⟩
    ((chain (fixed "a" 0.4) 0.7 [(fixed "b" 0.6, 0.9)] none).run scene).1 = .ok i ∧
      (∃ first mid, (fixed "a" 0.4 none).run scene = (.ok first, mid) ∧
        ¬clampScore 0.7 ≤ first.score) ∧
      ((staged (stagesOf models) none).run scene).1 = .ok j ∧
      ∃ s own last, Selected none (stagesOf models) scene s own last ∧
        (j.reasoning = own.reasoning ↔ s.threshold ≤ own.score) := by
  intro fixed models scene i j
  obtain ⟨-, -, hlevels, hselected⟩ :=
    chain_agrees_with_stages (fixed "a" 0.4) 0.7 [(fixed "b" 0.6, 0.9)] none scene
  have hchain : ((chain (fixed "a" 0.4) 0.7 [(fixed "b" 0.6, 0.9)] none).run scene).1 = .ok i := by
    decide +kernel
  have hstaged : ((staged (stagesOf models) none).run scene).1 = .ok j := by
    decide +kernel
  refine ⟨hchain, ?_, hstaged, ?_⟩
  · obtain ⟨first, mid, hfirst, -, hiff⟩ :=
      hlevels _ _ _ _ List.suffix_rfl scene _ i (Prod.ext hchain rfl)
    exact ⟨first, mid, hfirst, hiff.1 ⟨"b", rfl⟩⟩
  · obtain ⟨s, own, hs, -, hiff⟩ := hselected _ j (Prod.ext hstaged rfl)
    exact ⟨s, own, _, hs, hiff⟩

end Model

end IntentGate
