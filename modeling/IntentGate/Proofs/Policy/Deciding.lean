import IntentGate.Policy.Engine
import IntentGate.Proofs.Policy.Composition
import Mathlib.Data.List.Basic
import Mathlib.Data.List.Forall2

/-!
# Paths of decision

An engine can be asked in several ways, about an intent alone or about an intent in a context. What
an evaluation comes to is its `Outcome`, in which rules go by their names, so that evaluations on
different subjects can be compared. An `Inquiry` has an outcome unless it selects no policy; from
the outcome follow the decision, the record that is due and whether the limiter is asked. What
serving one inquiry does is said once (`serve_eq`), and a run of inquiries by induction from it.
-/

namespace IntentGate

/-- What an evaluation comes to, with rules by their names. -/
structure Outcome where
  decision : Decision
  matchedName : Option String
  failure : Option (String × RuleFault)
deriving DecidableEq

/-- What an evaluation comes to. -/
def Evaluation.outcome {σ : Type} (e : Evaluation σ) : Outcome :=
  ⟨e.decision, e.matchedName, e.failure⟩

/-- The record that is due for an outcome. -/
def Outcome.record (o : Outcome) (intentName : String) (timing : Timing) : ExecutionRecord where
  intentName := intentName
  matchedRule := o.matchedName
  decision := o.decision
  milliseconds := timing.milliseconds
  success := o.failure.isNone
  errorMessage := o.failure.map fun f => Fault.message f.2
  errorTrace := o.failure.map fun f => Fault.trace f.2
  recordedAt := timing.recordedAt

namespace Policy

variable {σ τ : Type}

theorem outcome_firstMatch_comap (f : τ → σ) (rules : List (Rule σ)) (t : τ) :
    (firstMatch (rules.map (Rule.comap f)) t).outcome = (firstMatch rules (f t)).outcome := by
  induction rules with
  | nil => rfl
  | cons r rest ih =>
    rw [List.map_cons]
    cases hr : r.test (f t) with
    | error fault =>
      have hr' : (r.comap f).test t = .error fault := hr
      rw [firstMatch_cons_fails hr, firstMatch_cons_fails hr']
      rfl
    | ok holds =>
      cases holds with
      | true =>
        have hr' : (r.comap f).test t = .ok true := hr
        rw [firstMatch_cons_holds hr, firstMatch_cons_holds hr']
        rfl
      | false =>
        have hr' : (r.comap f).test t = .ok false := hr
        rw [firstMatch_cons_pass hr, firstMatch_cons_pass hr']
        exact ih

/-- Reading the subject out of a larger one changes nothing. -/
theorem outcome_comap (f : τ → σ) (p : Policy σ) (t : τ) :
    ((p.comap f).evaluate t).outcome = (p.evaluate (f t)).outcome :=
  outcome_firstMatch_comap f p.rules t

/-- A failure is that of the consulted rule whose test fails. -/
theorem failure_eq_some_iff {p : Policy σ} {s : σ} {name : String} {fault : RuleFault} :
    (p.evaluate s).failure = some (name, fault) ↔
      ∃ r ∈ consulted p.rules s, r.name = name ∧ r.test s = .error fault := by
  have hwalk := walk_consulted p.rules s
  rw [evaluate]
  generalize consulted p.rules s = seen, firstMatch p.rules s = e at hwalk
  cases hwalk with
  | undecided hall =>
    constructor
    · intro h
      cases h
    · rintro ⟨r, hr, -, htest⟩
      rw [hall r hr] at htest
      cases htest
  | decided _ hbefore hr =>
    constructor
    · intro h
      cases h
    · rintro ⟨q, hq, -, htest⟩
      rcases List.mem_append.1 hq with hq | hq
      · rw [hbefore q hq] at htest
        cases htest
      · rw [List.mem_singleton.1 hq, hr] at htest
        cases htest
  | @failed before _ r cause _ hbefore hr =>
    constructor
    · intro h
      obtain ⟨rfl, rfl⟩ := Prod.mk.inj (Option.some.inj h)
      exact ⟨r, by simp, rfl, hr⟩
    · rintro ⟨q, hq, rfl, htest⟩
      rcases List.mem_append.1 hq with hq | hq
      · rw [hbefore q hq] at htest
        cases htest
      · obtain rfl := List.mem_singleton.1 hq
        rw [hr] at htest
        rw [← Except.error.inj htest]
        rfl

/-- Where a rule fails, none has decided. -/
theorem failure_eq_none_or (p : Policy σ) (s : σ) :
    (p.evaluate s).failure = none ∨
      (p.evaluate s).matched = none ∧ (p.evaluate s).decision = .observe := by
  have hwalk := walk_consulted p.rules s
  rw [evaluate]
  generalize consulted p.rules s = seen, firstMatch p.rules s = e at hwalk
  cases hwalk with
  | undecided _ => exact .inl rfl
  | decided _ _ _ => exact .inl rfl
  | failed _ _ _ => exact .inr ⟨rfl, rfl⟩

end Policy

theorem VariantSet.policyFor?_eq (v : VariantSet) (i : Intent) :
    v.policyFor? i =
      if v.select i = "" then none
      else (v.variants.get? (v.select i)).map fun p => (v.select i, p) := by
  simp only [policyFor?, String.isEmpty_iff]

theorem VariantSet.decide_eq (v : VariantSet) (i : Intent) :
    v.decide i =
      if v.select i = "" then .observe
      else ((v.variants.get? (v.select i)).map fun p => (p.evaluate i).decision).getD .observe := by
  rw [decide, policyFor?_eq]
  by_cases hname : v.select i = ""
  · rw [if_pos hname, if_pos hname]
  · rw [if_neg hname, if_neg hname]
    cases v.variants.get? (v.select i) <;> rfl

namespace Engine

/-- The record that is made is the one that is due. -/
theorem recordOf_evaluate {σ : Type} (i : Intent) (p : Policy σ) (s : σ) (timing : Timing) :
    recordOf i (p.evaluate s) timing = (p.evaluate s).outcome.record i.name timing := by
  have hnone := p.failure_eq_none_or s
  generalize p.evaluate s = e at hnone
  obtain ⟨decision, matched, _ | ⟨name, fault⟩⟩ := e
  · rfl
  · obtain hnone | ⟨rfl, -⟩ := hnone
    · cases hnone
    · rfl

/-! ## Inquiries -/

/-- A way to ask for a decision about an intent. -/
inductive Way where
  | decide (policy : Policy Intent)
  | withRule (policy : Policy Intent)
  | withRecord (policy : Policy Intent)
  | limited (policy : Policy Intent) (request : ThrottleRequest) (now : Nat)
  | variant (variants : VariantSet)
  | inContext (context : Context) (policy : Policy Situation)
  | inContextWithRule (context : Context) (policy : Policy Situation)

structure Inquiry where
  intent : Intent
  way : Way
  timing : Timing := {}

/-- What is given back: the decision and what else was asked for, with rules by their names. -/
inductive Answer where
  | plain (decision : Decision)
  | withRule (decision : Decision) (name : Option String)
  | withRecord (decision : Decision) (record : ExecutionRecord)
  | withGrant (decision : Decision) (grant : Option Grant)

def Answer.grant? : Answer → Option Grant
  | .withGrant _ grant => grant
  | _ => none

namespace Inquiry

/-- What the evaluation comes to that an inquiry asks for; none where no policy is selected. -/
def outcome? (q : Inquiry) : Option Outcome :=
  match q.way with
  | .decide p | .withRule p | .withRecord p | .limited p _ _ => some (p.evaluate q.intent).outcome
  | .variant v =>
    if v.select q.intent = "" then none
    else (v.variants.get? (v.select q.intent)).map fun p => (p.evaluate q.intent).outcome
  | .inContext context p | .inContextWithRule context p =>
    some (p.evaluate (q.intent, context)).outcome

def decision (q : Inquiry) : Decision :=
  (q.outcome?.map Outcome.decision).getD .observe

/-- The record that is due for an inquiry. -/
def record? (q : Inquiry) : Option ExecutionRecord :=
  q.outcome?.map fun o => o.record q.intent.name q.timing

/-- What is to be acquired for an inquiry, and at which clock reading. -/
def acquisition? (q : Inquiry) : Option (ThrottleRequest × Nat) :=
  match q.way with
  | .limited _ request now => if q.decision = .rateLimit then some (request, now) else none
  | _ => none

/-- The answer that is due, given what the limiter granted. -/
def answer (q : Inquiry) (grant : Option Grant) : Answer :=
  match q.way with
  | .decide _ | .variant _ | .inContext _ _ => .plain q.decision
  | .withRule _ | .inContextWithRule _ _ =>
    .withRule q.decision (q.outcome?.bind Outcome.matchedName)
  | .withRecord p =>
    .withRecord q.decision ((p.evaluate q.intent).outcome.record q.intent.name q.timing)
  | .limited _ _ _ => .withGrant q.decision grant

/-- An answer is the one that is due, with a grant exactly if something is to be acquired. -/
def AnsweredBy (q : Inquiry) (a : Answer) : Prop :=
  a = q.answer a.grant? ∧ a.grant?.isSome = q.acquisition?.isSome

end Inquiry

section Serving

variable {ℓ : Type} (acquire : Limiter ℓ)

/-- Serves an inquiry. -/
def serve (engine : Engine) (limiter : ℓ) (q : Inquiry) : Answer × Engine × ℓ :=
  match q.way with
  | .decide p =>
    let (d, engine) := engine.decide q.intent p q.timing
    (.plain d, engine, limiter)
  | .withRule p =>
    let ((d, r), engine) := engine.decideWithRule q.intent p q.timing
    (.withRule d (r.map Rule.name), engine, limiter)
  | .withRecord p =>
    let ((d, record), engine) := engine.decideWithRecord q.intent p q.timing
    (.withRecord d record, engine, limiter)
  | .limited p request now =>
    let ((d, grant), engine, limiter) :=
      engine.decideLimited acquire q.intent p limiter request now q.timing
    (.withGrant d grant, engine, limiter)
  | .variant v =>
    let (d, engine) := engine.decideVariant q.intent v q.timing
    (.plain d, engine, limiter)
  | .inContext context p =>
    let (d, engine) := engine.decideInContext q.intent context p q.timing
    (.plain d, engine, limiter)
  | .inContextWithRule context p =>
    let ((d, r), engine) := engine.decideInContextWithRule q.intent context p q.timing
    (.withRule d (r.map Rule.name), engine, limiter)

/-- Serves inquiries one after another. -/
def serveAll (engine : Engine) (limiter : ℓ) : List Inquiry → List Answer × Engine × ℓ
  | [] => ([], engine, limiter)
  | q :: rest =>
    let (a, engine, limiter) := serve acquire engine limiter q
    let (answers, last) := serveAll engine limiter rest
    (a :: answers, last)

/-- Acquires one thing after another. -/
def acquireAll (limiter : ℓ) : List (ThrottleRequest × Nat) → List Grant × ℓ
  | [] => ([], limiter)
  | r :: rest =>
    let asked := acquire r.1 r.2 limiter
    (asked.1 :: (acquireAll asked.2 rest).1, (acquireAll asked.2 rest).2)

/-- The engine to whose log some records have been passed, in order. -/
def passed (engine : Engine) (records : List ExecutionRecord) : Engine :=
  ⟨engine.log.map fun log => records.foldl ExecutionLog.append log⟩

theorem passed_nil (engine : Engine) : engine.passed [] = engine := by
  obtain ⟨_ | log⟩ := engine <;> rfl

theorem passed_append (engine : Engine) (front rest : List ExecutionRecord) :
    engine.passed (front ++ rest) = (engine.passed front).passed rest := by
  obtain ⟨_ | log⟩ := engine
  · rfl
  · simp only [passed, Option.map_some, List.foldl_append]

theorem acquireAll_append (limiter : ℓ) (front rest : List (ThrottleRequest × Nat)) :
    acquireAll acquire limiter (front ++ rest) =
      let asked := acquireAll acquire limiter front
      let later := acquireAll acquire asked.2 rest
      (asked.1 ++ later.1, later.2) := by
  induction front generalizing limiter with
  | nil => rfl
  | cons r front ih =>
    simp only [List.cons_append, acquireAll, ih]

/-- Evaluating makes the record that is due and passes it to the log. -/
theorem run_eq {σ : Type} (engine : Engine) (i : Intent) (p : Policy σ) (s : σ) (timing : Timing) :
    engine.run i p s timing =
      (p.evaluate s, (p.evaluate s).outcome.record i.name timing,
        engine.passed [(p.evaluate s).outcome.record i.name timing]) := by
  rw [run, recordOf_evaluate]
  rfl

/-- The decision, the record and the acquisition of one inquiry. -/
theorem serve_eq (engine : Engine) (limiter : ℓ) (q : Inquiry) :
    serve acquire engine limiter q =
      let asked := acquireAll acquire limiter q.acquisition?.toList
      (q.answer asked.1.head?, engine.passed q.record?.toList, asked.2) := by
  obtain ⟨intent, way, timing⟩ := q
  cases way with
  | decide p => simp only [serve, decide, run_eq]; rfl
  | withRule p => simp only [serve, decideWithRule, run_eq]; rfl
  | withRecord p => simp only [serve, decideWithRecord, run_eq]; rfl
  | limited p request now =>
    by_cases hlimit : (p.evaluate intent).decision = .rateLimit
    · have hdue : (⟨intent, .limited p request now, timing⟩ : Inquiry).acquisition? =
          some (request, now) := if_pos hlimit
      simp only [serve, decideLimited, decide, run_eq, if_pos hlimit, hdue]
      rfl
    · have hdue : (⟨intent, .limited p request now, timing⟩ : Inquiry).acquisition? = none :=
        if_neg hlimit
      simp only [serve, decideLimited, decide, run_eq, if_neg hlimit, hdue]
      rfl
  | variant v =>
    simp only [serve, decideVariant, v.policyFor?_eq]
    -- nothing is due where no variant is selected or the selected one is not registered
    by_cases hname : v.select intent = ""
    · have hdue : (⟨intent, .variant v, timing⟩ : Inquiry).outcome? = none := if_pos hname
      simp only [if_pos hname, Inquiry.answer, Inquiry.decision, Inquiry.record?, hdue]
      exact congrArg (_, ·, _) (engine.passed_nil).symm
    · have hdue : (⟨intent, .variant v, timing⟩ : Inquiry).outcome? =
          (v.variants.get? (v.select intent)).map fun p => (p.evaluate intent).outcome :=
        if_neg hname
      simp only [if_neg hname, Inquiry.answer, Inquiry.decision, Inquiry.record?, hdue]
      cases v.variants.get? (v.select intent) with
      | none => exact congrArg (_, ·, _) (engine.passed_nil).symm
      | some p =>
        simp only [Option.map_some, decide, run_eq]
        rfl
  | inContext context p => simp only [serve, decideInContext, run_eq]; rfl
  | inContextWithRule context p => simp only [serve, decideInContextWithRule, run_eq]; rfl

/-- The grants of an inquiry are what its answer holds. -/
theorem grant?_answer (limiter : ℓ) (q : Inquiry) :
    let grants := (acquireAll acquire limiter q.acquisition?.toList).1
    (q.answer grants.head?).grant? = grants.head? ∧
      grants.head?.isSome = q.acquisition?.isSome ∧ grants.head?.toList = grants := by
  obtain ⟨intent, way, timing⟩ := q
  cases way with
  | limited p request now =>
    refine ⟨rfl, ?_⟩
    cases (⟨intent, .limited p request now, timing⟩ : Inquiry).acquisition? with
    | none => exact ⟨rfl, rfl⟩
    | some r => exact ⟨rfl, rfl⟩
  | _ => exact ⟨rfl, rfl, rfl⟩

/-- A run answers every inquiry as is due, passes the records that are due to the log, and leaves
the limiter as acquiring what is to be acquired does. -/
theorem serveAll_spec (engine : Engine) (limiter : ℓ) (qs : List Inquiry) :
    let served := serveAll acquire engine limiter qs
    List.Forall₂ Inquiry.AnsweredBy qs served.1 ∧
      served.2.1 = engine.passed (qs.filterMap Inquiry.record?) ∧
      (served.1.filterMap Answer.grant?, served.2.2) =
        acquireAll acquire limiter (qs.filterMap Inquiry.acquisition?) := by
  induction qs generalizing engine limiter with
  | nil => exact ⟨.nil, (passed_nil engine).symm, rfl⟩
  | cons q rest ih =>
    obtain ⟨hgrant, hsome, hgrants⟩ := grant?_answer acquire limiter q
    have hserved := serve_eq acquire engine limiter q
    have happend := acquireAll_append acquire limiter q.acquisition?.toList
      (rest.filterMap Inquiry.acquisition?)
    -- what the first inquiry is due stands in front of what the others are
    simp only [List.filterMap_eq_flatMap_toList, List.flatMap_cons, serveAll, hserved] at *
    generalize acquireAll acquire limiter q.acquisition?.toList = asked at *
    obtain ⟨hanswers, hengine, hlimiter⟩ := ih (engine.passed q.record?.toList) asked.2
    refine ⟨.cons ⟨?_, ?_⟩ hanswers, ?_, ?_⟩
    · rw [hgrant]
    · rw [hgrant, hsome]
    · rw [passed_append, hengine]
    · rw [happend, ← hlimiter, hgrant, hgrants]

end Serving

/-- Every way to ask an engine gives the decision of the policy, read in a context or not, and that
of the selected variant if it is registered. Over a run of inquiries the log is passed one record
for each that has an outcome, in order, and the limiter is asked once, for what the inquiry names,
where a limited decision is to throttle. A record tells of a failure exactly where the test of a
consulted rule fails, and then of no rule that decided. -/
theorem decisions_agree_with_one_trail {ℓ : Type} (acquire : Limiter ℓ) (engine : Engine) :
    (∀ (i : Intent) (p : Policy Intent) (timing : Timing),
      (engine.decide i p timing).1 = (p.evaluate i).decision ∧
      (engine.decideWithRule i p timing).1 = ((p.evaluate i).decision, (p.evaluate i).matched) ∧
      (engine.decideWithRecord i p timing).1 =
        ((p.evaluate i).decision, (p.evaluate i).outcome.record i.name timing) ∧
      (∀ limiter request now,
        (engine.decideLimited acquire i p limiter request now timing).1.1 =
          (p.evaluate i).decision) ∧
      ∀ context : Context,
        ((p.comap Prod.fst).evaluate (i, context)).outcome = (p.evaluate i).outcome) ∧
    (∀ (i : Intent) (v : VariantSet) (timing : Timing),
      (engine.decideVariant i v timing).1 = v.decide i ∧
      v.decide i =
        if v.select i = "" then .observe
        else
          ((v.variants.get? (v.select i)).map fun p => (p.evaluate i).decision).getD .observe) ∧
    (∀ (limiter : ℓ) (qs : List Inquiry),
      let served := serveAll acquire engine limiter qs
      List.Forall₂ Inquiry.AnsweredBy qs served.1 ∧
      served.2.1.log =
        engine.log.map (fun log =>
          (qs.filterMap Inquiry.record?).foldl ExecutionLog.append log) ∧
      (served.1.filterMap Answer.grant?, served.2.2) =
        acquireAll acquire limiter (qs.filterMap Inquiry.acquisition?)) ∧
    ∀ (σ : Type) (p : Policy σ) (s : σ),
      (∀ name fault, (p.evaluate s).outcome.failure = some (name, fault) ↔
        ∃ r ∈ Policy.consulted p.rules s, r.name = name ∧ r.test s = .error fault) ∧
      ((p.evaluate s).outcome.failure = none ∨ (p.evaluate s).outcome.matchedName = none) := by
  refine ⟨fun i p timing => ⟨?_, ?_, ?_, fun limiter request now => ?_, fun context => ?_⟩,
    fun i v timing => ⟨?_, v.decide_eq i⟩, fun limiter qs => ?_, fun σ p s => ⟨?_, ?_⟩⟩
  · rw [decide, run_eq]
  · rw [decideWithRule, run_eq]
  · rw [decideWithRecord, run_eq]
  · simp only [decideLimited, decide, run_eq]
    split <;> rfl
  · exact p.outcome_comap Prod.fst (i, context)
  · rw [decideVariant, VariantSet.decide]
    cases v.policyFor? i with
    | none => rfl
    | some chosen => simp only [decide, run_eq]
  · obtain ⟨hanswers, hengine, hlimiter⟩ := serveAll_spec acquire engine limiter qs
    exact ⟨hanswers, congrArg Engine.log hengine, hlimiter⟩
  · exact fun name fault => Policy.failure_eq_some_iff
  · exact (p.failure_eq_none_or s).imp_right fun h => by
      rw [Evaluation.outcome, Evaluation.matchedName, h.1]
      rfl

/-- A test that fails is on record without a rule, an unregistered variant is not on record, and
only the decision to throttle reaches the limiter. -/
example (i : Intent) :
    let broken : Policy Intent := ⟨[⟨"broken", .block, fun _ => .error (.missingContext "user")⟩]⟩
    let slow : Policy Intent := ⟨[.ofPred "slow" .rateLimit fun _ => true]⟩
    let request : ThrottleRequest := ⟨"u", 1, 10⟩
    let served := serveAll Limiter.ofThrottle ⟨some {}⟩ .empty
      [⟨i, .limited broken request 0, {}⟩, ⟨i, .variant ⟨.empty, fun _ => "strict"⟩, {}⟩,
        ⟨i, .limited slow request 1, {}⟩]
    served.2.1.log.map (fun log => log.records.toList.map fun r => (r.matchedRule, r.success)) =
        some [(none, false), (some "slow", true)] ∧
      served.1.map Answer.grant? = [none, none, some ⟨true, 1, 1, none⟩] :=
  ⟨rfl, rfl⟩

end Engine

end IntentGate
