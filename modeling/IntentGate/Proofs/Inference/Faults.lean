import IntentGate.Inference.Provider
import IntentGate.Proofs.Inference.Nesting
import Mathlib.Data.List.Infix

/-!
# Faults

The faults of nested models are refusals of their providers. Nothing catches a refusal, wraps it or
goes on after it, and stages from their checked constructor never lack one. So an inference that
ends with a fault leaves the session that the provider has left which refused (`Blamed`), and among
the calls that it enters in the journal only the last one was refused, with the failure that is the
fault (`Accounted`).
-/

namespace IntentGate

open InferM Model

/-- The failure of a call that was refused. -/
def Call.failure? : Call → Option ProviderFailure
  | embed _ _ failure => failure
  | infer _ => none

/-! ## Relations of sessions -/

/-- A relation between the session before, the result and the session after that sequences of steps
are in if their steps are. -/
structure Sequential (R : {α : Type} → Session → Except InferenceFault α → Session → Prop) :
    Prop where
  silent {α : Type} {s t : Session} (hjournal : t.journal = s.journal) (a : α) : R s (.ok a) t
  count (probe : Nat) (s : Session) : R s (.ok ()) (Session.record (.infer probe) s).2
  trans {α β : Type} {s t u : Session} {a : α} {r : Except InferenceFault β}
    (hfirst : R s (.ok a) t) (hlast : R t r u) : R s r u
  fault {α β : Type} {s t : Session} {e : InferenceFault}
    (h : R s (.error e : Except InferenceFault α) t) : R s (.error e : Except InferenceFault β) t

namespace Sequential

variable {R : {α : Type} → Session → Except InferenceFault α → Session → Prop}
  (hR : Sequential R)

include hR

theorem map {α β : Type} {s t : Session} {r : Except InferenceFault α} (h : R s r t)
    (f : α → β) : R s (r.map f) t := by
  cases r with
  | error e => exact hR.fault h
  | ok a => exact hR.trans h (hR.silent rfl (f a))

theorem compositional :
    Compositional fun _ x => ∀ scene, R scene.session (x.run scene).1 (x.run scene).2.session where
  pure a := fun _ => hR.silent rfl a
  bind {_ _ x f} hx hf := by
    intro scene
    have hfirst := hx scene
    rw [run_bind]
    generalize x.run scene = ran at hfirst ⊢
    rcases ran with ⟨e | a, next⟩
    · exact hR.fault hfirst
    · exact hR.trans hfirst (hf a next)
  space := fun _ => hR.silent rfl _
  spaceVector := fun _ => hR.silent rfl _
  onWallClock _ := fun _ => hR.silent (by rfl) _
  now := fun _ => hR.silent (by rfl) _
  onIntents _ _ := fun _ => hR.silent (by rfl) _
  count probe := fun scene => hR.count probe scene.session
  about s _ hx := fun scene => hx { scene with space := s }

/-- Asking for some keys is in the relation if asking for one is. -/
theorem embedAll {provider : Provider}
    (hask : ∀ key s, R s ((provider key s).1.mapError .provider) (provider key s).2)
    (keys : List String) (s : Session) :
    R s (Model.embedAll provider keys s).1 (Model.embedAll provider keys s).2 := by
  induction keys generalizing s with
  | nil => exact hR.silent rfl []
  | cons key keys ih =>
    have hfirst := hask key s
    rcases hcall : provider key s with ⟨failure | e, next⟩ <;> rw [hcall] at hfirst
    · rw [embedAll_cons_error keys hcall]
      exact hR.fault hfirst
    · rw [embedAll_cons_ok keys hcall]
      exact hR.trans hfirst (hR.map (ih next) _)

/-- Inferences of nested models are in the relation if asking their providers is. -/
theorem nested {P : Provider → Prop}
    (hask : ∀ provider, P provider → ∀ key s,
      R s ((provider key s).1.mapError .provider) (provider key s).2)
    {m : Model} (hm : Nested (Basic P) m) (given : Option BehaviorVector) (scene : Scene) :
    R scene.session ((m given).run scene).1 ((m given).run scene).2.session := by
  refine hR.compositional.nested_basic (fun provider hprovider keys scene => ?_) hm given scene
  rw [run_ofExcept]
  exact hR.embedAll (hask provider hprovider) keys scene.session

end Sequential

/-! ## The provider that refused -/

/-- A fault is the failure of a provider, and the session is left as this provider has left it. -/
def Blamed (P : Provider → Prop) {α : Type} (_ : Session) (r : Except InferenceFault α)
    (after : Session) : Prop :=
  ∀ e, r = .error e → ∃ provider key before failure, P provider ∧
    provider key before = (.error failure, after) ∧ e = .provider failure

theorem sequential_blamed (P : Provider → Prop) : Sequential (Blamed P) where
  silent _ _ := nofun
  count _ _ := nofun
  trans _ hlast := hlast
  fault h := fun _ he => h _ (congrArg Except.error (Except.error.inj he))

theorem blamed_provider {P : Provider → Prop} {provider : Provider} (hprovider : P provider)
    (key : String) (s : Session) :
    Blamed P s ((provider key s).1.mapError .provider) (provider key s).2 := by
  intro e he
  rcases hcall : provider key s with ⟨failure | _, after⟩ <;> rw [hcall] at he
  · exact ⟨provider, key, s, failure, hprovider, hcall, (Except.error.inj he).symm⟩
  · cases he

/-! ## The calls -/

/-- The calls that were made between two states of the journal fit the result: all were answered, or
the latest one was refused, with the failure that is the fault, and all before it were answered. -/
inductive Accounted {α : Type} (before : List Call) :
    Except InferenceFault α → List Call → Prop where
  | answered {made : List Call} {a : α} (hmade : ∀ c ∈ made, c.failure? = none) :
      Accounted before (.ok a) (made ++ before)
  | refused {earlier : List Call} {number : Nat} {key : String} {failure : ProviderFailure}
      (hearlier : ∀ c ∈ earlier, c.failure? = none) :
      Accounted before (.error (.provider failure))
        (.embed number key (some failure) :: (earlier ++ before))

/-- Providers each of whose calls is entered in the journal, behind memories or not. -/
inductive Provider.OnRecord : Provider → Prop where
  | onRecord (number : Nat) {inner : Provider}
      (hsilent : ∀ key s, (inner key s).2.journal = s.journal) :
      OnRecord (Provider.onRecord number inner)
  | remembering (number : Nat) (lifetime : Option Nat) {inner : Provider}
      (hinner : OnRecord inner) : OnRecord (Provider.remembering number lifetime inner)

namespace Accounted

variable {α β : Type} {before after last : List Call} {a : α} {r : Except InferenceFault β}

theorem none_made (before : List Call) (a : α) : Accounted before (.ok a) before := by
  have h : ∀ c ∈ ([] : List Call), c.failure? = none := nofun
  exact .answered h

theorem one_made {c : Call} (hc : c.failure? = none) (a : α) :
    Accounted before (.ok a) (c :: before) := by
  have h : ∀ c' ∈ [c], c'.failure? = none := List.forall_mem_singleton.2 hc
  exact .answered h

theorem one_refused (number : Nat) (key : String) (failure : ProviderFailure) :
    Accounted before (.error (.provider failure) : Except _ α)
      (.embed number key (some failure) :: before) := by
  have h : ∀ c ∈ ([] : List Call), c.failure? = none := nofun
  exact .refused h

theorem trans (hfirst : Accounted before (.ok a) after) (hlast : Accounted after r last) :
    Accounted before r last := by
  obtain ⟨hmade⟩ := hfirst
  -- the later calls stand in front of the earlier ones, so a refusal stays the latest call
  cases hlast with
  | answered hlater =>
    rw [← List.append_assoc]
    exact .answered (List.forall_mem_append.2 ⟨hlater, hmade⟩)
  | refused hlater =>
    rw [← List.append_assoc]
    exact .refused (List.forall_mem_append.2 ⟨hlater, hmade⟩)

theorem fault {e : InferenceFault} (h : Accounted before (.error e : Except _ α) after) :
    Accounted before (.error e : Except _ β) after := by
  cases h with
  | refused hearlier => exact .refused hearlier

theorem sequential : Sequential fun s r t => Accounted s.journal r t.journal where
  silent hjournal a := by
    rw [hjournal]
    exact none_made _ a
  count probe s := one_made rfl ()
  trans := trans
  fault := fault

end Accounted

namespace Provider

theorem onRecord_eq (number : Nat) (inner : Provider) (key : String) (s : Session) :
    onRecord number inner key s =
      ((inner key s).1,
        (Session.record (.embed number key (failure? (inner key s).1)) (inner key s).2).2) :=
  rfl

theorem OnRecord.accounted {provider : Provider} (hprovider : provider.OnRecord)
    (key : String) (s : Session) :
    Accounted s.journal ((provider key s).1.mapError .provider) (provider key s).2.journal := by
  induction hprovider generalizing s with
  | @onRecord number inner hsilent =>
    have hjournal := hsilent key s
    rw [onRecord_eq, ← hjournal]
    rcases (inner key s).1 with failure | e
    · exact .one_refused number key failure
    · exact .one_made rfl e
  | @remembering number lifetime inner _ ih =>
    obtain ⟨readings, embeddings, ⟨e, hhit⟩ | ⟨_, _, hcall⟩⟩ :=
      remembering_cases number lifetime inner key s
    · rw [hhit]
      exact .none_made _ e
    · rw [hcall]
      exact ih { s with readings, embeddings }

end Provider

namespace Model

/-- A nested model that ends with a fault ends with the failure of one of its providers, in the
session that this provider has left. If its providers are on record, then the call that was refused
is the last one of all calls that the inference has made, of counted models and of providers, and
the only one that was refused; and no call was if the inference gives an intent. Without providers
it always gives one. -/
theorem faults_are_refusals {P : Provider → Prop} {m : Model} (hm : Nested (Basic P) m)
    (given : Option BehaviorVector) (scene : Scene) :
    let ran := (m given).run scene
    Blamed P scene.session ran.1 ran.2.session ∧
    ((∀ provider, P provider → provider.OnRecord) →
      Accounted scene.session.journal ran.1 ran.2.session.journal) ∧
    ((∀ provider, ¬P provider) → ∃ i, ran.1 = .ok i) := by
  intro ran
  have hblamed : Blamed P scene.session ran.1 ran.2.session :=
    (sequential_blamed P).nested (fun _ => blamed_provider) hm given scene
  refine ⟨hblamed, fun hrecord => ?_, fun hnone => ?_⟩
  · exact Accounted.sequential.nested (fun _ h => (hrecord _ h).accounted) hm given scene
  · cases hresult : ran.1 with
    | ok i => exact ⟨i, rfl⟩
    -- there is no provider to blame
    | error e =>
      obtain ⟨provider, -, -, -, hprovider, -⟩ := hblamed e hresult
      exact absurd hprovider (hnone provider)

/-- The primary model is below its threshold, and the provider of the fallback refuses the second of
three dimensions: the third is not asked for, and nothing is remembered of the inference. -/
theorem faults_are_refusals_of_table :
    let embed := Embedding.ofTable
      (Dict.ofList [("u:login", .make "u:login" 0.5), ("u:stay", .make "u:stay" 0.5)])
    let provider := Provider.remembering 0 none (.ofAnswers 3 embed)
    let rules := counted 0 (ofRules [] .standard)
    let m := remembering 1 none
      (chained rules (counted 2 (ofSimilarity provider .average .standard)) 0.7)
    let space := ((Space.empty.observe ⟨"u", "login", default, .empty⟩).observe
      ⟨"u", "retry", default, .empty⟩).observe ⟨"u", "stay", default, .empty⟩
    let failure : ProviderFailure := ⟨"table", .other, "no entry for u:retry"⟩
    let ran := (m none).run ⟨space, {}⟩
    Nested (Basic Provider.OnRecord) m ∧
    ran.1 = .error (.provider failure) ∧
    ran.2.session.journal = [.embed 3 "u:retry" (some failure), .embed 3 "u:login" none, .infer 2,
      .infer 0] ∧
    (ran.2.session.intentStore 1).size = 0 ∧
    Blamed Provider.OnRecord {} ran.1 ran.2.session ∧
    Accounted [] ran.1 ran.2.session.journal ∧
    ∃ i, ((rules none).run ⟨space, {}⟩).1 = .ok i := by
  intro embed provider rules m space failure ran
  have hprovider : provider.OnRecord := .remembering 0 none (.onRecord 3 fun _ _ => rfl)
  have hrules (P : Provider → Prop) : Nested (Basic P) rules := .counted (.leaf (.rules _ _))
  have hm : Nested (Basic Provider.OnRecord) m :=
    .remembering (.chained (hrules _) (.counted (.leaf (.similar hprovider _ _))))
  obtain ⟨hblamed, haccounted, -⟩ := faults_are_refusals hm none ⟨space, {}⟩
  obtain ⟨-, -, hanswer⟩ := faults_are_refusals (hrules fun _ => False) none ⟨space, {}⟩
  refine ⟨hm, by decide +kernel, by decide +kernel, by decide +kernel, hblamed,
    haccounted fun _ h => h, hanswer nofun⟩

end Model

end IntentGate
