import IntentGate.Proofs.Inference.OwnVector

/-!
# Inferences and the slot of the space

Two spaces with the same events, tags and vector may differ in their slot, which is filled in one of
them and not in the other. That makes no difference to an inference (`IgnoresSlot`) if its leaves
look at the events, the tags and the vector only (`Observing`), nor to one that is given no vector,
since then the slot is filled before anything looks at the space (`Nested.ignoresSlot_none`).
-/

namespace IntentGate

open InferM

namespace InferM

/-- With the slot filled the inference comes to the same, and does the same to the session. -/
def IgnoresSlot {α : Type} (x : InferM α) : Prop :=
  ∀ scene, x.run scene.warmed = Prod.map id Scene.warmed (x.run scene)

/-- The inference comes to the same about two spaces, and does the same to the session. -/
def SameAbout {α : Type} (x : InferM α) (s t : Space) : Prop :=
  ∀ session, (x.onSpace s session).1.1 = (x.onSpace t session).1.1 ∧
    (x.onSpace s session).2 = (x.onSpace t session).2

namespace IgnoresSlot

variable {α β : Type} {x : InferM α}

theorem sameAbout (hx : IgnoresSlot x) {s t : Space} (h : s.warmed = t.warmed) :
    SameAbout x s t := by
  intro session
  have hscenes : Scene.warmed ⟨s, session⟩ = Scene.warmed ⟨t, session⟩ :=
    congrArg (Scene.mk · session) h
  have hruns : Prod.map id Scene.warmed (x.run ⟨s, session⟩) =
      Prod.map id Scene.warmed (x.run ⟨t, session⟩) := by
    rw [← hx, ← hx, hscenes]
  obtain ⟨hresult, hscene⟩ := Prod.ext_iff.1 hruns
  have hsession := congrArg Scene.session hscene
  exact ⟨hresult, hsession⟩

theorem pure (a : α) : IgnoresSlot (Pure.pure a) :=
  fun _ => rfl

theorem bind {f : α → InferM β} (hx : IgnoresSlot x) (hf : ∀ a, IgnoresSlot (f a)) :
    IgnoresSlot (x >>= f) := by
  intro scene
  rw [run_bind, run_bind, hx scene]
  rcases x.run scene with ⟨_ | a, next⟩
  · rfl
  · exact hf a next

/-- What is inferred from the space may be inferred from that with the slot filled. -/
theorem space_bind {f : Space → InferM β} (hf : ∀ s, IgnoresSlot (f s))
    (hwarmed : ∀ s, f s.warmed = f s) : IgnoresSlot (InferM.space >>= f) := by
  intro scene
  change (f scene.space.warmed).run scene.warmed = _
  rw [hwarmed]
  exact hf scene.space scene

theorem spaceVector : IgnoresSlot InferM.spaceVector :=
  fun _ => rfl

theorem ofSession (act : SessionM α) : IgnoresSlot (InferM.ofSession act) :=
  fun _ => rfl

theorem ofExcept (act : SessionM (Except InferenceFault α)) :
    IgnoresSlot (InferM.ofExcept act) := by
  intro scene
  rw [run_ofExcept, run_ofExcept]
  rfl

theorem about (s : Space) : IgnoresSlot (InferM.about s x) :=
  fun _ => rfl

theorem resolve (given : Option BehaviorVector) : IgnoresSlot (Model.resolve given) := by
  cases given with
  | none => exact spaceVector
  | some v => exact pure v

end IgnoresSlot

end InferM

/-! ## Leaves -/

namespace Pattern

mutual

theorem holds_warmed (s : Space) : ∀ p : Pattern, holds s.warmed p = holds s p
  | always | never | hasAction _ | mentionsAction _ | sizeAtLeast _ | hasTag _ => rfl
  | dimensionAtLeast _ _ => rfl
  | all parts => holdAll_warmed s parts
  | any parts => holdAny_warmed s parts

theorem holdAll_warmed (s : Space) : ∀ parts : List Pattern,
    holdAll s.warmed parts = holdAll s parts
  | [] => rfl
  | p :: rest => congrArg₂ and (holds_warmed s p) (holdAll_warmed s rest)

theorem holdAny_warmed (s : Space) : ∀ parts : List Pattern,
    holdAny s.warmed parts = holdAny s parts
  | [] => rfl
  | p :: rest => congrArg₂ or (holds_warmed s p) (holdAny_warmed s rest)

end

end Pattern

namespace IntentRule

/-- A rule whose verdict is the same whether the slot is filled or not. -/
def Observing (r : IntentRule) : Prop :=
  ∀ s : Space, r.verdict s.warmed = r.verdict s

theorem observing_ofPattern (pattern : Pattern) (template : String) (score : Float)
    (reasoning : Option String) : (ofPattern pattern template score reasoning).Observing := by
  intro s
  change (if pattern.holds s.warmed then _ else _) = if pattern.holds s then _ else _
  rw [pattern.holds_warmed]
  rfl

end IntentRule

namespace Model

/-- The leaves that look at the events, the tags and the vector of a space only. -/
inductive Observing : Model → Prop where
  | rules {rules : List IntentRule} (hrules : ∀ r ∈ rules, r.Observing)
      (grade : Float → Confidence) : Observing (ofRulesGraded rules grade)
  | similar (provider : Provider)
      {score : Space → Dict Float → List (Embedding Float) → StateM WallClock Float}
      (hscore : ∀ s values es, score (Space.warmed s) values es = score s values es)
      (grade : Float → Confidence) : Observing (ofScoring provider score grade)

theorem observing_ofSimilarity (provider : Provider) (similarity : Similarity Float)
    (calculator : Calculator) : Observing (ofSimilarity provider similarity calculator) :=
  .similar provider (fun _ _ _ => rfl) _

theorem ignoresSlot_firstVerdict {rules : List IntentRule} (hrules : ∀ r ∈ rules, r.Observing) :
    IgnoresSlot (firstVerdict rules) := by
  induction rules with
  | nil => exact .pure none
  | cons r rest ih =>
    obtain ⟨hr, hrest⟩ := List.forall_mem_cons.1 hrules
    intro scene
    rw [run_firstVerdict_cons, run_firstVerdict_cons]
    have hverdict : r.verdict scene.warmed.space = r.verdict scene.space := hr scene.space
    have hfilled : (if r.takesVector scene.warmed.space then scene.warmed.warmed else scene.warmed) =
        scene.warmed := ite_self _
    -- whether the rule fills the slot or not, filling it again leaves the same
    have hnext : (if r.takesVector scene.space then scene.warmed else scene).warmed =
        scene.warmed := by
      split <;> rfl
    rw [hverdict, hfilled]
    generalize (if r.takesVector scene.space then scene.warmed else scene) = next at hnext ⊢
    dsimp only
    rw [← hnext]
    cases r.verdict scene.space with
    | some v => rfl
    | none => exact ih hrest next

theorem Observing.ignoresSlot {m : Model} (hm : Observing m) (given : Option BehaviorVector) :
    IgnoresSlot (m given) := by
  cases hm with
  | rules hrules grade =>
    refine (IgnoresSlot.resolve given).bind fun v =>
      (ignoresSlot_firstVerdict hrules).bind fun verdict => ?_
    cases verdict with
    | none => exact .pure _
    | some v => exact .pure _
  | similar provider hscore grade =>
    refine (IgnoresSlot.resolve given).bind fun v => (IgnoresSlot.ofExcept _).bind fun es =>
      .space_bind (fun s => (IgnoresSlot.ofSession _).bind fun x => .pure _) fun s => ?_
    simp only [hscore]

/-! ## Nested models -/

theorem ignoresSlot_stagesFrom {given : Option BehaviorVector} {stages : List Stage}
    {last : Option Intent} (hstages : ∀ s ∈ stages, IgnoresSlot (s.model given)) :
    IgnoresSlot (stagesFrom given last stages) := by
  induction stages generalizing last with
  | nil =>
    cases last with
    | none => exact fun _ => rfl
    | some i => exact .pure _
  | cons s rest ih =>
    obtain ⟨hs, hrest⟩ := List.forall_mem_cons.1 hstages
    refine hs.bind fun i => ?_
    split
    · exact .pure i
    · exact ih hrest

theorem ignoresSlot_remembering {inner : Model} (hinner : ∀ given, IgnoresSlot (inner given))
    (number : Nat) (lifetime : Option Nat) (given : Option BehaviorVector) :
    IgnoresSlot (remembering number lifetime inner given) := by
  refine (IgnoresSlot.resolve given).bind fun v => (IgnoresSlot.ofSession _).bind fun now =>
    (IgnoresSlot.ofSession _).bind fun found => ?_
  cases found with
  | some i => exact .pure i
  | none =>
    exact (hinner (some v)).bind fun i => (IgnoresSlot.ofSession _).bind fun later =>
      (IgnoresSlot.ofSession _).bind fun _ => .pure i

/-- Nested models ignore the slot if their leaves look at events, tags and vectors only. -/
theorem Nested.ignoresSlot {m : Model} (hm : Nested Observing m) (given : Option BehaviorVector) :
    IgnoresSlot (m given) := by
  induction hm generalizing given with
  | leaf hm => exact hm.ignoresSlot given
  | chained _ _ ihp ihf =>
    refine (ihp given).bind fun first => ?_
    split
    · exact .pure _
    · exact (ihf given).bind fun second => .pure _
  | staged _ hm ih =>
    obtain ⟨-, rfl⟩ := staged?_eq_ok_iff.1 hm
    exact ignoresSlot_stagesFrom fun s hs => ih s hs given
  | windowed _ _ =>
    -- a window derives the same space from both
    exact (IgnoresSlot.ofSession _).bind fun now => .space_bind (fun s => .about _) fun _ => rfl
  | strict _ ih => exact (ih given).bind fun i => .pure _
  | observed _ ih => exact ih given
  | batched _ ih => exact ih given
  | remembering _ ih => exact ignoresSlot_remembering ih _ _ given
  | counted _ ih =>
    rw [counted_eq]
    exact (IgnoresSlot.ofSession _).bind fun _ => ih given

/-- When no vector is given, nested models ignore the slot, whatever their leaves look at. -/
theorem Nested.ignoresSlot_none {P : Provider → Prop} {m : Model} (hm : Nested (Basic P) m) :
    IgnoresSlot (m none) := by
  intro scene
  have hcold := hm.indifferent scene
  have hfilled := hm.indifferent scene.warmed
  change (m (some scene.space.vector)).run scene.warmed = _ at hfilled
  rw [← hcold, hfilled]
  have hwarmed := (hm.keepsSpace none).warmed_eq scene
  exact Prod.ext rfl hwarmed.symm

end Model

end IntentGate
