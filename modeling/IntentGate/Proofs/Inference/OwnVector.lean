import IntentGate.Inference.Provider
import IntentGate.Proofs.Inference.Nesting
import Mathlib.Data.List.Infix

/-!
# The space's own vector

A model may be given the vector to use, or left to take that of the space, and then the slot of the
space is filled on the way. Nested models tell no difference (`Indifferent`): given the vector of
the space in a scene whose slot is filled, they come to the same, and do the same to the session, as
when nothing is given. All that an inference does to the space of its scene is to fill the slot
(`KeepsSpace`), so what was the vector of the space stays it for the models that are asked later.
-/

namespace IntentGate

open InferM

namespace InferM

/-- All that is done to the space of the scene is to fill its slot. -/
def KeepsSpace {α : Type} (x : InferM α) : Prop :=
  ∀ scene, (x.run scene).2.space = scene.space ∨ (x.run scene).2.space = scene.space.warmed

namespace KeepsSpace

variable {α β : Type} {x : InferM α}

theorem bind {f : α → InferM β} (hx : KeepsSpace x) (hf : ∀ a, KeepsSpace (f a)) :
    KeepsSpace (x >>= f) := by
  intro scene
  have hfirst := hx scene
  rw [run_bind]
  generalize x.run scene = ran at hfirst ⊢
  rcases ran with ⟨_ | a, next⟩
  · exact hfirst
  · change (ExceptT.run (f a) next).2.space = _ ∨ _
    rcases hf a next with hlast | hlast
    · rw [hlast]
      exact hfirst
    -- a slot filled twice is filled with the same vector
    · rw [hlast]
      rcases hfirst with hfirst | hfirst <;> rw [hfirst] <;> exact .inr rfl

theorem ofSession (act : SessionM α) : KeepsSpace (InferM.ofSession act) :=
  fun _ => .inl rfl

theorem ofExcept (act : SessionM (Except InferenceFault α)) : KeepsSpace (InferM.ofExcept act) := by
  intro scene
  rw [run_ofExcept]
  exact .inl rfl

theorem compositional : Compositional fun _ x => KeepsSpace x where
  pure _ := fun _ => .inl rfl
  bind := bind
  space := fun _ => .inl rfl
  spaceVector := fun _ => .inr rfl
  onWallClock _ := ofSession _
  now := ofSession _
  onIntents _ _ := ofSession _
  count _ := ofSession _
  about _ _ _ := fun _ => .inl rfl

/-- The vector of the space stays. -/
theorem vector_eq (hx : KeepsSpace x) (scene : Scene) :
    (x.run scene).2.space.vector = scene.space.vector := by
  rcases hx scene with h | h <;> rw [h]
  rfl

/-- A slot that is filled stays filled. -/
theorem warmed_eq (hx : KeepsSpace x) (scene : Scene) :
    (x.run scene.warmed).2.warmed = (x.run scene.warmed).2 := by
  have hspace : (x.run scene.warmed).2.space = scene.space.warmed := by
    rcases hx scene.warmed with h | h <;> exact h
  rw [Scene.warmed, hspace]
  change Scene.mk scene.space.warmed _ = _
  rw [← hspace]

end KeepsSpace

end InferM

namespace Model

/-- Nested models keep the space, whatever their providers do. -/
theorem Nested.keepsSpace {P : Provider → Prop} {m : Model} (hm : Nested (Basic P) m)
    (given : Option BehaviorVector) : KeepsSpace (m given) :=
  KeepsSpace.compositional.nested_basic (fun _ _ _ => .ofExcept _) hm given

/-! ## With and without the vector -/

/-- Given the vector of the space, in the scene whose slot is filled, the model comes to the same
and leaves the same session as when nothing is given. -/
def Indifferent (m : Model) : Prop :=
  ∀ scene : Scene, (m (some scene.space.vector)).run scene.warmed =
    Prod.map id Scene.warmed ((m none).run scene)

/-- A model that resolves its vector first and then uses nothing else that was given. -/
theorem indifferent_of_resolve {f : BehaviorVector → InferM Intent} (hf : ∀ v, KeepsSpace (f v)) :
    Indifferent fun given => resolve given >>= f := by
  intro scene
  have hwarm := (hf scene.space.vector).warmed_eq scene
  change (f scene.space.vector).run scene.warmed =
    Prod.map id Scene.warmed ((f scene.space.vector).run scene.warmed)
  exact Prod.ext rfl hwarm.symm

theorem Indifferent.chained {primary fallback : Model} (hprimary : Indifferent primary)
    (hkeeps : KeepsSpace (primary none)) (hfallback : Indifferent fallback) (threshold : Float) :
    Indifferent (chained primary fallback threshold) := by
  intro scene
  have hvector := hkeeps.vector_eq scene
  rw [run_chained, run_chained, hprimary scene]
  generalize (primary none).run scene = ran at hvector ⊢
  rcases ran with ⟨_ | first, next⟩
  · rfl
  · dsimp only [Prod.map, id] at hvector ⊢
    rw [← hvector, hfallback next]
    generalize (fallback none).run next = ran
    split
    · rfl
    · rcases ran with ⟨_ | second, last⟩ <;> rfl

theorem indifferent_staged {stages : List Stage} (hstages : ∀ s ∈ stages, Indifferent s.model)
    (hkeep : ∀ s ∈ stages, KeepsSpace (s.model none)) : Indifferent (staged stages) := by
  unfold staged
  -- the intent of the stage before is the same on both sides, whatever it is
  generalize (none : Option Intent) = last
  induction stages generalizing last with
  | nil =>
    intro scene
    cases last <;> rfl
  | cons s rest ih =>
    intro scene
    obtain ⟨hs, hrest⟩ := List.forall_mem_cons.1 hstages
    obtain ⟨hkeeps, hkeeprest⟩ := List.forall_mem_cons.1 hkeep
    have hvector := hkeeps.vector_eq scene
    rw [run_stagesFrom_cons, run_stagesFrom_cons, hs scene]
    generalize (s.model none).run scene = ran at hvector ⊢
    rcases ran with ⟨_ | i, next⟩
    · rfl
    · dsimp only [Prod.map, id] at hvector ⊢
      split
      · rfl
      · rw [← hvector]
        exact ih hrest hkeeprest (some i) next

theorem indifferent_windowed (inner : Model) (length : Span) (reference : Option Instant) :
    Indifferent (windowed inner length reference) :=
  fun _ => rfl

theorem Indifferent.strict {inner : Model} (hinner : Indifferent inner) :
    Indifferent (strict inner) := by
  intro scene
  unfold Model.strict
  rw [run_bind, run_bind, hinner scene]
  rcases (inner none).run scene with ⟨_ | i, next⟩ <;> rfl

theorem Indifferent.counted {inner : Model} (hinner : Indifferent inner) (number : Nat) :
    Indifferent (counted number inner) := by
  intro scene
  rw [counted_eq, counted_eq]
  exact hinner { scene with session := (Session.record (.infer number) scene.session).2 }

theorem Basic.indifferent {P : Provider → Prop} {m : Model} (hm : Basic P m) : Indifferent m := by
  cases hm with
  | rules rules grade =>
    exact indifferent_of_resolve fun v =>
      KeepsSpace.compositional.ofRulesGraded rules grade (some v)
  | similar _ score grade =>
    exact indifferent_of_resolve fun v =>
      KeepsSpace.compositional.ofScoring (fun _ => .ofExcept _) score grade (some v)

theorem Nested.indifferent {P : Provider → Prop} {m : Model} (hm : Nested (Basic P) m) :
    Indifferent m := by
  induction hm with
  | leaf hm => exact hm.indifferent
  | chained hprimary _ ihp ihf => exact ihp.chained (hprimary.keepsSpace none) ihf _
  | staged hstages hm ih =>
    obtain ⟨-, rfl⟩ := staged?_eq_ok_iff.1 hm
    exact indifferent_staged ih fun s hs => (hstages s hs).keepsSpace none
  | windowed _ _ => exact indifferent_windowed _ _ _
  | strict _ ih => exact ih.strict
  | observed _ ih => exact ih
  | batched _ ih => exact ih
  | remembering hinner _ =>
    exact indifferent_of_resolve fun v => (Nested.remembering hinner).keepsSpace (some v)
  | counted _ ih => exact ih.counted _

/-- Whatever nested model is given the vector taken from the space comes to the same intent or fault
as when it is given none, and does the same to the session: the calls in the journal, the entries of
all stores, the readings of the clock. Only the slot of the space may be filled in one case and not
in the other. Behind a window it makes no difference either what vector is given. -/
theorem run_given_own_vector {m : Model} (hm : Nested (Basic fun _ => True) m) (scene : Scene) :
    let own := (do m (some (← spaceVector)) : InferM Intent).run scene
    let bare := (m none).run scene
    own.1 = bare.1 ∧ own.2.session = bare.2.session ∧
    own.2.space = scene.space.warmed ∧
    (bare.2.space = scene.space ∨ bare.2.space = scene.space.warmed) ∧
    ∀ length reference given given',
      (windowed m length reference given).run scene =
        (windowed m length reference given').run scene := by
  intro own bare
  have hown : own = Prod.map id Scene.warmed bare := hm.indifferent scene
  have hspace := hm.keepsSpace none scene
  have hwarmed : bare.2.warmed.space = scene.space.warmed := by
    rcases hspace with h | h <;> rw [Scene.warmed, h]
    rfl
  rw [hown]
  exact ⟨rfl, rfl, hwarmed, hspace, fun _ _ _ _ => rfl⟩

/-- The window derives the vector of its events, the chain below the memory is given the vector of
the space; the similarity forgets with time and its provider remembers. -/
theorem run_given_own_vector_of_login :
    let embed := Embedding.ofTable (Dict.ofList [("u:login", .make "u:login" 0.5)])
    let similar := ofSimilarity (.remembering 0 none (.ofAnswers 0 embed)) (.timeDecay 60 none)
      .standard
    let m := remembering 0 (some 5)
      (chained (counted 0 (ofRules [] .standard)) (windowed similar 60 none) 0.7)
    let scene : Scene := ⟨Space.empty.observe ⟨"u", "login", default, .empty⟩, {}⟩
    let own := (do m (some (← spaceVector)) : InferM Intent).run scene
    Nested (Basic fun _ => True) m ∧
    own.1 = .ok ⟨similarName, [.make "ai" "u:login" 0.5], ⟨0.5, .medium⟩,
      some "Fallback: primary confidence below 0.7"⟩ ∧
    own.2.session.journal = [.embed 0 "u:login" none, .infer 0] ∧
    (own.2.session.intentStore 0).size = 1 ∧ (own.2.session.embeddingStore 0).size = 1 := by
  intro embed similar m scene own
  have hsimilar : Nested (Basic fun _ => True) similar := .leaf (.similar trivial _ _)
  have hm : Nested (Basic fun _ => True) m :=
    .remembering (.chained (.counted (.leaf (.rules _ _))) (.windowed hsimilar))
  obtain ⟨hresult, hsession, -⟩ := run_given_own_vector hm scene
  refine ⟨hm, hresult.trans (by decide +kernel), ?_⟩
  change own.2.session = ((m none).run scene).2.session at hsession
  rw [hsession]
  decide +kernel

end Model

end IntentGate
