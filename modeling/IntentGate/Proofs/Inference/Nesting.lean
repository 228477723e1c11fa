import IntentGate.Inference.Combined
import IntentGate.Inference.Probe
import IntentGate.Inference.Remembered
import IntentGate.Inference.Rules
import IntentGate.Inference.Similar
import IntentGate.Proofs.Inference.Running

/-!
# Nested models

`Nested` are the models that can be put together from some leaves, stages by their checked
constructor only. What holds of each step that combined models are made of, and is kept when steps
follow one another, holds of every nested model if it holds of the leaves: that is `Compositional`,
and `Compositional.nested` is the one induction on how models are nested that such properties need.
-/

namespace IntentGate

open InferM

namespace Model

/-- A model each call of which is entered in the journal under a number. -/
def counted (number : Nat) (inner : Model) : Model :=
  probed { number } inner

/-- Models put together from leaves. -/
inductive Nested (Leaf : Model → Prop) : Model → Prop where
  | leaf {m : Model} (hm : Leaf m) : Nested Leaf m
  | chained {primary fallback : Model} {threshold : Float} (hprimary : Nested Leaf primary)
      (hfallback : Nested Leaf fallback) : Nested Leaf (chained primary fallback threshold)
  | staged {stages : List Stage} {m : Model} (hstages : ∀ s ∈ stages, Nested Leaf s.model)
      (hm : staged? stages = .ok m) : Nested Leaf m
  | windowed {inner : Model} {length : Span} {reference : Option Instant}
      (hinner : Nested Leaf inner) : Nested Leaf (windowed inner length reference)
  | strict {inner : Model} (hinner : Nested Leaf inner) : Nested Leaf (strict inner)
  | observed {inner : Model} (hinner : Nested Leaf inner) : Nested Leaf (observed inner)
  | batched {inner : Model} (hinner : Nested Leaf inner) : Nested Leaf (batched inner)
  | remembering {number : Nat} {lifetime : Option Nat} {inner : Model}
      (hinner : Nested Leaf inner) : Nested Leaf (remembering number lifetime inner)
  | counted {number : Nat} {inner : Model} (hinner : Nested Leaf inner) :
      Nested Leaf (counted number inner)

/-- The leaves: models of rules, and models that score what some kind of provider answers, however
scores are made and graded. -/
inductive Basic (P : Provider → Prop) : Model → Prop where
  | rules (rules : List IntentRule) (grade : Float → Confidence) :
      Basic P (ofRulesGraded rules grade)
  | similar {provider : Provider} (hprovider : P provider)
      (score : Space → Dict Float → List (Embedding Float) → StateM WallClock Float)
      (grade : Float → Confidence) : Basic P (ofScoring provider score grade)

theorem staged?_eq_ok_iff {stages : List Stage} {m : Model} :
    staged? stages = .ok m ↔ stages ≠ [] ∧ m = staged stages := by
  unfold staged?
  cases stages with
  | nil => exact iff_of_false nofun fun h => h.1 rfl
  | cons s rest =>
    constructor
    · intro h
      exact ⟨List.cons_ne_nil _ _, (Except.ok.inj h).symm⟩
    · rintro ⟨-, rfl⟩
      rfl

theorem counted_eq (number : Nat) (inner : Model) (given : Option BehaviorVector) :
    counted number inner given =
      (do ofSession (Session.record (.infer number)); inner given) :=
  rfl

end Model

/-- A property that the steps of combined models have and that sequencing keeps. -/
structure Compositional (Q : (α : Type) → InferM α → Prop) : Prop where
  pure {α : Type} (a : α) : Q α (pure a)
  bind {α β : Type} {x : InferM α} {f : α → InferM β} (hx : Q α x) (hf : ∀ a, Q β (f a)) :
    Q β (x >>= f)
  space : Q Space InferM.space
  spaceVector : Q BehaviorVector spaceVector
  onWallClock {α : Type} (act : StateM WallClock α) : Q α (ofSession (Session.onWallClock act))
  now : Q Nat (ofSession Session.now)
  onIntents {α : Type} (number : Nat) (act : StateM (Expiring Intent) α) :
    Q α (ofSession (Session.onIntents number act))
  count (probe : Nat) : Q Unit (ofSession (Session.record (.infer probe)))
  about {α : Type} (s : Space) {x : InferM α} (hx : Q α x) : Q α (about s x)

namespace Compositional

open Model

variable {Q : (α : Type) → InferM α → Prop} (hQ : Compositional Q)

include hQ

theorem resolve (given : Option BehaviorVector) : Q BehaviorVector (Model.resolve given) := by
  cases given with
  | none => exact hQ.spaceVector
  | some v => exact hQ.pure v

theorem stagesFrom {given : Option BehaviorVector} {stages : List Stage} {last : Option Intent}
    (hstages : ∀ s ∈ stages, Q Intent (s.model given)) (hne : stages ≠ [] ∨ last.isSome) :
    Q Intent (Model.stagesFrom given last stages) := by
  induction stages generalizing last with
  | nil =>
    obtain ⟨i, rfl⟩ := Option.isSome_iff_exists.1 (hne.resolve_left fun h => h rfl)
    exact hQ.pure _
  | cons s rest ih =>
    obtain ⟨hs, hrest⟩ := List.forall_mem_cons.1 hstages
    refine hQ.bind hs fun i => ?_
    split
    · exact hQ.pure i
    · exact ih hrest (.inr rfl)

theorem firstVerdict (rules : List IntentRule) : Q (Option Verdict) (Model.firstVerdict rules) := by
  induction rules with
  | nil => exact hQ.pure none
  | cons r rest ih =>
    refine hQ.bind hQ.space fun s => ?_
    have hafter {y : InferM (Option Verdict)} (hy : Q _ y) :
        Q _ (do
          if r.takesVector s then discard InferM.spaceVector
          y) := by
      split
      · exact hQ.bind (hQ.bind hQ.spaceVector fun _ => hQ.pure ()) fun _ => hy
      · exact hy
    cases r.verdict s with
    | none => exact hafter ih
    | some v => exact hafter (hQ.pure (some v))

theorem ofRulesGraded (rules : List IntentRule) (grade : Float → Confidence)
    (given : Option BehaviorVector) : Q Intent (Model.ofRulesGraded rules grade given) := by
  refine hQ.bind (hQ.resolve given) fun v => hQ.bind (hQ.firstVerdict rules) fun verdict => ?_
  cases verdict with
  | none => exact hQ.pure _
  | some v => exact hQ.pure _

theorem ofScoring {provider : Provider}
    (hask : ∀ keys, Q (List (Embedding Float)) (ofExcept (embedAll provider keys)))
    (score : Space → Dict Float → List (Embedding Float) → StateM WallClock Float)
    (grade : Float → Confidence) (given : Option BehaviorVector) :
    Q Intent (Model.ofScoring provider score grade given) :=
  hQ.bind (hQ.resolve given) fun v => hQ.bind (hask v.dimensions.keys) fun _ =>
    hQ.bind hQ.space fun _ => hQ.bind (hQ.onWallClock _) fun _ => hQ.pure _

/-- Nested models have the property if their leaves have it. -/
theorem nested {Leaf : Model → Prop} (hleaf : ∀ m, Leaf m → ∀ given, Q Intent (m given))
    {m : Model} (hm : Nested Leaf m) (given : Option BehaviorVector) : Q Intent (m given) := by
  induction hm generalizing given with
  | leaf hm => exact hleaf _ hm given
  | chained _ _ ihp ihf =>
    refine hQ.bind (ihp given) fun first => ?_
    split
    · exact hQ.pure _
    · exact hQ.bind (ihf given) fun second => hQ.pure _
  | staged _ hm ih =>
    obtain ⟨hne, rfl⟩ := staged?_eq_ok_iff.1 hm
    exact hQ.stagesFrom (fun s hs => ih s hs given) (.inl hne)
  | windowed _ ih =>
    -- the inner model is given no vector, and is about the events of the window
    exact hQ.bind (hQ.onWallClock _) fun stop => hQ.bind hQ.space fun s => hQ.about _ (ih none)
  | strict _ ih => exact hQ.bind (ih given) fun i => hQ.pure _
  | observed _ ih => exact ih given
  | batched _ ih => exact ih given
  | remembering _ ih =>
    refine hQ.bind (hQ.resolve given) fun v => hQ.bind hQ.now fun now =>
      hQ.bind (hQ.onIntents _ _) fun found => ?_
    cases found with
    | some i => exact hQ.pure i
    -- the inner model is given the vector that the key was made of
    | none =>
      exact hQ.bind (ih (some v)) fun i => hQ.bind hQ.now fun later =>
        hQ.bind (hQ.onIntents _ _) fun _ => hQ.pure i
  | counted _ ih =>
    rw [counted_eq]
    exact hQ.bind (hQ.count _) fun _ => ih given

/-- Nested models have the property if asking their providers has it. -/
theorem nested_basic {P : Provider → Prop}
    (hask : ∀ provider, P provider → ∀ keys,
      Q (List (Embedding Float)) (ofExcept (embedAll provider keys)))
    {m : Model} (hm : Nested (Basic P) m) (given : Option BehaviorVector) : Q Intent (m given) := by
  refine hQ.nested ?_ hm given
  rintro _ (⟨rules, grade⟩ | ⟨hprovider, score, grade⟩) given
  · exact hQ.ofRulesGraded rules grade given
  · exact hQ.ofScoring (hask _ hprovider) score grade given

end Compositional

end IntentGate
