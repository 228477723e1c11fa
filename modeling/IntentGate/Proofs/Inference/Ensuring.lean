import IntentGate.Inference.Provider
import IntentGate.Proofs.Expiring.Entries
import IntentGate.Proofs.Inference.Nesting

/-!
# What inferences ensure

An inference ensures a property of its result under an invariant of the session (`Ensures`). A
property of intents that no reasoning and no strictness takes away holds of whatever a nested model
infers, if it holds of the intents of its leaves (`Nested.ensures`). The invariant that carries this
through memories is that the stores hold nothing else (`Session.Holds`). It is there from the start,
when the stores are empty, and all that happens in a session keeps it (`Session.Reached.holds`), so
the property holds of every intent of every run.
-/

namespace IntentGate

open InferM Model

namespace InferM

/-- In a session with the invariant, an inference that gives anything gives something with the
property, and whether it does or not, it leaves the session with the invariant. -/
def Ensures (I : Session → Prop) {α : Type} (p : α → Prop) (x : InferM α) : Prop :=
  ∀ scene, I scene.session →
    (∀ a, (x.run scene).1 = .ok a → p a) ∧ I (x.run scene).2.session

namespace Ensures

variable {I : Session → Prop} {α β : Type} {p : α → Prop} {q : β → Prop} {x : InferM α}

theorem pure {a : α} (ha : p a) : Ensures I p (Pure.pure a) := by
  intro scene hI
  exact ⟨fun _ h => Except.ok.inj h ▸ ha, hI⟩

theorem bind {f : α → InferM β} (hx : Ensures I p x) (hf : ∀ a, p a → Ensures I q (f a)) :
    Ensures I q (x >>= f) := by
  intro scene hI
  obtain ⟨hresult, hnext⟩ := hx scene hI
  rw [run_bind]
  generalize x.run scene = ran at hresult hnext ⊢
  rcases ran with ⟨e | a, next⟩
  · exact ⟨nofun, hnext⟩
  · exact hf a (hresult a rfl) next hnext

theorem ofSession {act : SessionM α} (hact : ∀ s, I s → p (act s).1 ∧ I (act s).2) :
    Ensures I p (InferM.ofSession act) := by
  intro scene hI
  obtain ⟨hresult, hnext⟩ := hact scene.session hI
  exact ⟨fun _ h => Except.ok.inj h ▸ hresult, hnext⟩

theorem space : Ensures I (fun _ => True) InferM.space :=
  fun _ hI => ⟨fun _ _ => trivial, hI⟩

theorem resolve (given : Option BehaviorVector) :
    Ensures I (fun _ => True) (Model.resolve given) := by
  intro scene hI
  rw [run_resolve]
  exact ⟨fun _ _ => trivial, by rwa [Scene.resolved_session]⟩

theorem about (s : Space) (hx : Ensures I p x) : Ensures I p (InferM.about s x) :=
  fun scene hI => hx { scene with space := s } hI

end Ensures

end InferM

namespace Session

/-- All intents that any store holds, expired or not, have the property. -/
def Holds (p : Intent → Prop) (s : Session) : Prop :=
  ∀ number, (s.intentStore number).AllKept fun _ i => p i

theorem intentStore_onIntents_of_ne {α : Type} {number k : Nat} (hk : k ≠ number)
    (act : StateM (Expiring Intent) α) (s : Session) :
    (onIntents number act s).2.intentStore k = s.intentStore k := by
  change ((s.intents.put number _).find? k).getD _ = _
  rw [Table.find?_put, if_neg hk]
  rfl

namespace Holds

variable {p : Intent → Prop} {s t : Session}

theorem of_intents_eq (hs : s.Holds p) (h : t.intents = s.intents) : t.Holds p := by
  intro number
  rw [intentStore, h]
  exact hs number

/-- Acting on one store is harmless if it is for this store. -/
theorem onIntents (hs : s.Holds p) (number : Nat) {α : Type} {act : StateM (Expiring Intent) α}
    (hact : ∀ kept, kept.AllKept (fun _ i => p i) → (act kept).2.AllKept fun _ i => p i) :
    (Session.onIntents number act s).2.Holds p := by
  intro k
  by_cases hk : k = number
  · subst hk
    rw [intentStore_onIntents]
    exact hact _ (hs k)
  · rw [intentStore_onIntents_of_ne hk]
    exact hs k

end Holds

end Session

/-! ## Providers -/

namespace Provider

/-- Providers have no part in the stores of models. -/
def Apart (provider : Provider) : Prop :=
  ∀ key s, (provider key s).2.intents = s.intents

theorem Apart.onRecord {inner : Provider} (hinner : inner.Apart) (number : Nat) :
    (Provider.onRecord number inner).Apart :=
  hinner

theorem Apart.ofAnswers (number : Nat)
    (answer : String → Except ProviderFailure (Embedding Float)) :
    (Provider.ofAnswers number answer).Apart :=
  .onRecord (fun _ _ => rfl) number

theorem Apart.remembering {inner : Provider} (hinner : inner.Apart) (number : Nat)
    (lifetime : Option Nat) : (Provider.remembering number lifetime inner).Apart := by
  intro key s
  obtain ⟨_, _, ⟨e, hhit⟩ | ⟨_, _, hcall⟩⟩ := remembering_cases number lifetime inner key s
  · rw [hhit]
  · rw [hcall]
    exact hinner key _

theorem Apart.embedAll {provider : Provider} (hprovider : provider.Apart) (keys : List String)
    (s : Session) : (Model.embedAll provider keys s).2.intents = s.intents := by
  induction keys generalizing s with
  | nil => rfl
  | cons key keys ih =>
    have hcall := hprovider key s
    rcases hanswer : provider key s with ⟨_ | e, next⟩ <;> rw [hanswer] at hcall
    · rw [embedAll_cons_error keys hanswer]
      exact hcall
    · rw [embedAll_cons_ok keys hanswer]
      exact (ih next).trans hcall

end Provider

/-! ## Nested models -/

namespace Model

variable {p : Intent → Prop} {Leaf : Model → Prop}

theorem ensures_stagesFrom (hreasoning : ∀ i r, p i → p (i.withReasoning r))
    {given : Option BehaviorVector} {stages : List Stage} {last : Option Intent}
    (hstages : ∀ s ∈ stages, Ensures (Session.Holds p) p (s.model given))
    (hlast : ∀ i, last = some i → p i) :
    Ensures (Session.Holds p) p (stagesFrom given last stages) := by
  induction stages generalizing last with
  | nil =>
    cases last with
    | none => exact fun _ hI => ⟨nofun, hI⟩
    | some i => exact .pure (hreasoning i _ (hlast i rfl))
  | cons s rest ih =>
    obtain ⟨hs, hrest⟩ := List.forall_mem_cons.1 hstages
    refine hs.bind fun i hi => ?_
    split
    · exact .pure hi
    · exact ih hrest fun _ h => Option.some.inj h ▸ hi

/-- A memory gives what it holds or what its inner model infers, and holds that from then on. -/
theorem ensures_remembering {inner : Model}
    (hinner : ∀ given, Ensures (Session.Holds p) p (inner given)) (number : Nat)
    (lifetime : Option Nat) (given : Option BehaviorVector) :
    Ensures (Session.Holds p) p (remembering number lifetime inner given) := by
  have hnow : Ensures (Session.Holds p) (fun _ => True) (ofSession Session.now) :=
    .ofSession fun s hs => ⟨trivial, hs.of_intents_eq rfl⟩
  have hlookup (now : Nat) (key : String) : Ensures (Session.Holds p) (∀ i ∈ ·, p i)
      (ofSession (Session.onIntents number fun kept => kept.lookup now key)) := by
    refine .ofSession fun s hs => ⟨fun i hi => ?_, ?_⟩
    · exact (hs number).of_lookup hi
    · exact hs.onIntents number fun kept hkept => hkept.lookup now key
  have hstore (now : Nat) (key : String) {i : Intent} (hi : p i) :
      Ensures (Session.Holds p) (fun _ => True)
        (ofSession (Session.onIntents number fun kept =>
          ((), kept.store (retention lifetime) now key i))) :=
    .ofSession fun s hs => ⟨trivial, hs.onIntents number fun kept hkept => hkept.store _ now hi⟩
  refine (Ensures.resolve given).bind fun v _ => hnow.bind fun now _ =>
    (hlookup now v.cacheKey).bind fun found hfound => ?_
  cases found with
  | some i => exact .pure (hfound i rfl)
  | none =>
    -- what goes to the store is what the inner model has just ensured
    exact (hinner (some v)).bind fun i hi => hnow.bind fun later _ =>
      (hstore later v.cacheKey hi).bind fun _ _ => .pure hi

/-- A property of the intents of leaves that reasoning and strictness keep is ensured by nested
models as long as the stores hold only intents with the property. -/
theorem Nested.ensures (hreasoning : ∀ i r, p i → p (i.withReasoning r))
    (hstrict : ∀ i, p i → p { i with confidence := i.confidence.downgraded })
    (hleaf : ∀ m, Leaf m → ∀ given, Ensures (Session.Holds p) p (m given)) {m : Model}
    (hm : Nested Leaf m) (given : Option BehaviorVector) :
    Ensures (Session.Holds p) p (m given) := by
  induction hm generalizing given with
  | leaf hm => exact hleaf _ hm given
  | chained _ _ ihp ihf =>
    refine (ihp given).bind fun first hfirst => ?_
    split
    · exact .pure (hreasoning first _ hfirst)
    · exact (ihf given).bind fun second hsecond => .pure (hreasoning second _ hsecond)
  | staged _ hm ih =>
    obtain ⟨-, rfl⟩ := staged?_eq_ok_iff.1 hm
    exact ensures_stagesFrom hreasoning (fun s hs => ih s hs given) nofun
  | windowed _ ih =>
    have hclock (reference : Option Instant) : Ensures (Session.Holds p) (fun _ => True)
        (ofSession (Session.onWallClock (WallClock.referenceOrNow reference))) :=
      .ofSession fun _ hs => ⟨trivial, hs.of_intents_eq rfl⟩
    exact (hclock _).bind fun _ _ => Ensures.space.bind fun _ _ => (ih none).about _
  | strict _ ih => exact (ih given).bind fun i hi => .pure (hstrict i hi)
  | observed _ ih => exact ih given
  | batched _ ih => exact ih given
  | remembering _ ih => exact ensures_remembering ih _ _ given
  | counted _ ih =>
    have hcount (number : Nat) : Ensures (Session.Holds p) (fun _ => True)
        (ofSession (Session.record (.infer number))) :=
      .ofSession fun _ hs => ⟨trivial, hs.of_intents_eq rfl⟩
    rw [counted_eq]
    exact (hcount _).bind fun _ _ => ih given

end Model

/-! ## Runs -/

/-- The sessions that come about from empty stores: some models infer, stores are swept or forgotten
in between, and everything but the stores may change: clocks, the token, the journal. -/
inductive Session.Reached (M : Model → Prop) : Session → Prop where
  | fresh {s : Session} (hs : ∀ number, s.intentStore number = .empty) : Reached M s
  | infer {s : Session} {m : Model} (hs : Reached M s) (hm : M m) (space : Space)
      (given : Option BehaviorVector) : Reached M ((m given).onSpace space s).2
  | forget {s : Session} (hs : Reached M s) (number : Nat) : Reached M (Model.forget number s).2
  | evict {s : Session} (hs : Reached M s) (number : Nat) : Reached M (Model.evict number s).2
  | elsewhere {s t : Session} (hs : Reached M s) (h : t.intents = s.intents) : Reached M t

namespace Session.Reached

variable {p : Intent → Prop} {M : Model → Prop} {s : Session}

/-- If models ensure a property, then in every run the stores hold only intents with it. -/
theorem holds (hM : ∀ m, M m → ∀ given, Ensures (Session.Holds p) p (m given))
    (hs : Reached M s) : s.Holds p := by
  induction hs with
  | fresh hs =>
    intro number
    rw [hs number]
    exact .empty
  | @infer s m _ hm space given ih => exact (hM _ hm given ⟨space, s⟩ ih).2
  | forget _ number ih => exact ih.onIntents number fun _ _ => .empty
  | @evict s _ number ih =>
    have hread : (now s).2.Holds p := ih.of_intents_eq rfl
    change (onIntents number (fun kept => kept.evict (now s).1) (now s).2).2.Holds p
    exact hread.onIntents number fun kept hkept => hkept.evict _
  | elsewhere _ h ih => exact ih.of_intents_eq h

end Session.Reached

end IntentGate
