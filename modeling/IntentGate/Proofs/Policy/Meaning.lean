import IntentGate.Proofs.Policy.Compilation
import IntentGate.Proofs.Policy.Composition

/-!
# Meaning of compiled policies

A compiled policy decides as its document says. The tests of conditions give `false` where a
property, an operator and an expected value were never meant to meet. Here each test has a twin that
gives no answer there (`Condition.holds?`), so that an answer of the twin is one that such an arm
did not give. On a value that fits, the twin answers, and the answer is whether the document's
condition holds (`answers_of_fits`); from there the argument goes up through conditions and rules.
-/

namespace IntentGate

open Traversal

/-- There is an answer, and it tells whether a proposition holds. -/
def Answers (answer? : Option Bool) (holds : Prop) : Prop :=
  ∃ b, answer? = some b ∧ (b = true ↔ holds)

theorem answers_some {b : Bool} {holds : Prop} (h : b = true ↔ holds) : Answers (some b) holds :=
  ⟨b, rfl, h⟩

/-! ## Tests without an answer -/

/-- `Operator.compare`, without an answer for operators that ask for no order. -/
def Operator.compare? {α : Type} [LE α] [LT α] [DecidableLE α] [DecidableLT α] (op : Operator)
    (actual expected : α) : Option Bool :=
  match op with
  | gte => some (expected ≤ actual)
  | lte => some (actual ≤ expected)
  | gt => some (expected < actual)
  | lt => some (actual < expected)
  | eq | ne | contains => none

namespace Condition

/-- `Condition.matchesText`, without an answer for orders. -/
def matchesText? (op : Operator) (actual expected : String) : Option Bool :=
  let actual := Text.lowerCase actual
  match op with
  | .eq => some (actual == expected)
  | .ne => some (actual != expected)
  | .contains => some (Text.contains actual expected)
  | _ => none

/-- `Condition.matchesNumber`, without an answer for containment. -/
def matchesNumber? (op : Operator) (actual expected : Float) : Option Bool :=
  match op with
  | .eq => some ((actual - expected).abs < tolerance)
  | .ne => some (tolerance ≤ (actual - expected).abs)
  | op => op.compare? actual expected

/-- `Condition.holds`, without an answer where the expected value is none of the property. -/
def holds? (k : Condition) (i : Intent) : Option Bool :=
  match k.expected, k.property with
  | .text expected, .name => matchesText? k.operator i.name expected
  | .text expected, .level => matchesText? k.operator i.level.name expected
  | .level expected, _ => k.operator.compare? i.level.rank expected.rank
  | .number expected, .score => matchesNumber? k.operator i.score expected
  | .number expected, .signalCount =>
    matchesNumber? k.operator (Float.ofNat i.signals.length) expected
  | _, _ => none

end Condition

theorem Operator.compare_eq_getD {α : Type} [LE α] [LT α] [DecidableLE α] [DecidableLT α]
    (op : Operator) (actual expected : α) :
    op.compare actual expected = (op.compare? actual expected).getD false := by
  cases op <;> rfl

namespace Condition

theorem matchesText_eq_getD (op : Operator) (actual expected : String) :
    matchesText op actual expected = (matchesText? op actual expected).getD false := by
  cases op <;> rfl

theorem matchesNumber_eq_getD (op : Operator) (actual expected : Float) :
    matchesNumber op actual expected = (matchesNumber? op actual expected).getD false := by
  cases op <;> rfl

/-- The test of a condition is its twin, with `false` for no answer. -/
theorem holds_eq_getD (k : Condition) (i : Intent) : k.holds i = (k.holds? i).getD false := by
  obtain ⟨p, op, e⟩ := k
  cases e with
  | text s =>
    cases p with
    | name => exact matchesText_eq_getD ..
    | level => exact matchesText_eq_getD ..
    | _ => rfl
  | number x =>
    cases p with
    | score => exact matchesNumber_eq_getD ..
    | signalCount => exact matchesNumber_eq_getD ..
    | _ => rfl
  | level l => exact Operator.compare_eq_getD ..

end Condition

/-! ## Answers -/

section Answers

variable {op : Operator}

theorem compare?_answers {α : Type} [LE α] [LT α] [DecidableLE α] [DecidableLT α]
    (hop : op.isOrdering = true) (actual expected : α) :
    Answers (op.compare? actual expected) (op.Orders actual expected) := by
  cases op with
  | eq | ne | contains => cases hop
  | gte | lte | gt | lt => exact answers_some decide_eq_true_iff

theorem matchesText?_answers (hop : op.isOrdering = false) (actual expected : String) :
    Answers (Condition.matchesText? op actual expected)
      (op.RelatesTexts (Text.lowerCase actual) expected) := by
  cases op with
  | eq => exact answers_some beq_iff_eq
  | ne => exact answers_some bne_iff_ne
  | contains => exact answers_some Text.contains_iff
  | gte | lte | gt | lt => cases hop

theorem matchesNumber?_answers (hop : op ≠ .contains) (actual expected : Float) :
    Answers (Condition.matchesNumber? op actual expected)
      (op.RelatesNumbers actual expected) := by
  have horder (hop : op.isOrdering = true) :
      Answers (op.compare? actual expected) (op.Orders actual expected) :=
    compare?_answers hop actual expected
  cases op with
  | eq | ne => exact answers_some decide_eq_true_iff
  | contains => exact absurd rfl hop
  | gte | lte | gt | lt => exact horder rfl

theorem Operator.Orders.isOrdering {α : Type} [LE α] [LT α] {actual expected : α}
    (h : op.Orders actual expected) : op.isOrdering = true := by
  cases op with
  | eq | ne | contains => exact h.elim
  | gte | lte | gt | lt => rfl

theorem Operator.RelatesTexts.not_isOrdering {actual expected : String}
    (h : op.RelatesTexts actual expected) : op.isOrdering = false := by
  cases op with
  | eq | ne | contains => rfl
  | gte | lte | gt | lt => exact h.elim

end Answers

/-- On a value that fits, the twin answers whether the property stands in the relation of the
operator to it. -/
theorem Condition.answers_of_fits {k : Condition} {v : Json}
    (h : Fits k.operator v k.property k.expected) (i : Intent) :
    Answers (k.holds? i) (Relates i k.operator v k.property) := by
  obtain ⟨p, op, e⟩ := k
  cases h with
  | @name t hop ht =>
    obtain ⟨b, hb, hiff⟩ := matchesText?_answers hop i.name t
    refine ⟨b, hb, hiff.trans ⟨.name ht, ?_⟩⟩
    rintro (⟨ht', h⟩)
    exact ht.unique ht' ▸ h
  -- a level is read in two ways, which the operator keeps apart
  | @levelName t hop ht =>
    obtain ⟨b, hb, hiff⟩ := matchesText?_answers hop i.level.name t
    refine ⟨b, hb, hiff.trans ⟨.levelName ht, ?_⟩⟩
    intro h
    cases h with
    | levelName ht' h => exact ht.unique ht' ▸ h
    | levelRank hl h => rw [h.isOrdering] at hop; cases hop
  | @levelRank l hop hl =>
    obtain ⟨b, hb, hiff⟩ := compare?_answers hop i.level.rank l.rank
    refine ⟨b, hb, hiff.trans ⟨.levelRank hl, ?_⟩⟩
    intro h
    cases h with
    | levelName ht h => rw [h.not_isOrdering] at hop; cases hop
    | levelRank hl' h => exact hl.unique hl' ▸ h
  | @score x hop hx =>
    obtain ⟨b, hb, hiff⟩ := matchesNumber?_answers hop i.score x
    refine ⟨b, hb, hiff.trans ⟨.score hx, ?_⟩⟩
    intro h
    cases h with
    | score hx' h => exact hx.unique hx' ▸ h
  | @signalCount x hop hx =>
    obtain ⟨b, hb, hiff⟩ := matchesNumber?_answers hop (Float.ofNat i.signals.length) x
    refine ⟨b, hb, hiff.trans ⟨.signalCount hx, ?_⟩⟩
    intro h
    cases h with
    | signalCount hx' h => exact hx.unique hx' ▸ h

/-- A compiled condition answers whether the stored one holds. -/
theorem Condition.answers_of_compile {rule : String} {c : ConditionDocument} {k : Condition}
    (h : compile rule c = .ok k) (i : Intent) : Answers (k.holds? i) (c.Holds i) := by
  obtain ⟨hp, hop, hfits⟩ := compile_ok_iff.1 h
  obtain ⟨b, hb, hiff⟩ := answers_of_fits hfits i
  refine ⟨b, hb, hiff.trans ⟨fun h => ⟨_, _, hp, hop, h⟩, ?_⟩⟩
  rintro ⟨p, op, hp', hop', h⟩
  rw [hp.unique hp', hop.unique hop']
  exact h

theorem Condition.holds_iff_of_compile {rule : String} {c : ConditionDocument} {k : Condition}
    (h : compile rule c = .ok k) (i : Intent) : k.holds i = true ↔ c.Holds i := by
  obtain ⟨b, hb, hiff⟩ := answers_of_compile h i
  rw [holds_eq_getD, hb]
  exact hiff

/-! ## Rules and policies -/

namespace RuleDocument

variable {r : RuleDocument} {q : Rule Intent}

theorem all_holds_iff {ks : List Condition}
    (h : List.Forall₂ (fun c k => Condition.compile r.name c = .ok k) r.conditions ks)
    (i : Intent) : ks.all (·.holds i) = true ↔ r.Applies i := by
  rw [Applies]
  generalize r.conditions = cs at h ⊢
  induction h with
  | nil => simp
  | cons hk _ ih =>
    rw [List.all_cons, Bool.and_eq_true, ih, List.forall_mem_cons,
      Condition.holds_iff_of_compile hk]

theorem signature_of_compile (h : r.compile = .ok q) :
    q.name = r.name ∧ Decision.ofName? r.decision = some q.decision := by
  obtain ⟨decision, ks, hd, -, rfl⟩ := compile_ok_iff.1 h
  exact ⟨rfl, hd⟩

/-- The test of a compiled rule does not fail; it tells whether the stored rule applies. -/
theorem test_of_compile (h : r.compile = .ok q) (i : Intent) :
    ∃ b, q.test i = .ok b ∧ (b = true ↔ r.Applies i) := by
  obtain ⟨decision, ks, -, hks, rfl⟩ := compile_ok_iff.1 h
  exact ⟨_, rfl, all_holds_iff hks i⟩

theorem Decide.cons {rs : List RuleDocument} {i : Intent} {decision : Decision}
    (hr : ¬r.Applies i) (h : Decide rs i decision) : Decide (r :: rs) i decision := by
  cases h with
  | @first before after _ _ hsplit hbefore happlies hdecision =>
    have hsplit' : r :: rs = (r :: before) ++ _ :: after := congrArg (r :: ·) hsplit
    exact .first hsplit' (List.forall_mem_cons.2 ⟨hr, hbefore⟩) happlies hdecision
  | none hall => exact .none (List.forall_mem_cons.2 ⟨hr, hall⟩)

theorem decide_of_compile {rs : List RuleDocument} {qs : List (Rule Intent)}
    (h : List.Forall₂ (fun r q => r.compile = .ok q) rs qs) (i : Intent) :
    (Policy.firstMatch qs i).failure = none ∧ Decide rs i (Policy.firstMatch qs i).decision := by
  induction h with
  | nil => exact ⟨rfl, .none (by simp)⟩
  | @cons r q rs qs hq _ ih =>
    obtain ⟨b, hb, hiff⟩ := test_of_compile hq i
    cases b with
    | true =>
      rw [Policy.firstMatch_cons_holds hb]
      have hsplit : r :: rs = [] ++ r :: rs := rfl
      exact ⟨rfl, .first hsplit (by simp) (hiff.1 rfl) (signature_of_compile hq).2⟩
    | false =>
      rw [Policy.firstMatch_cons_pass hb]
      have hr : ¬r.Applies i := fun happlies => absurd (hiff.2 happlies) (by decide)
      exact ⟨ih.1, ih.2.cons hr⟩

end RuleDocument

/-- Compiling a document preserves what it means. The rules keep their names, decisions and order.
On every intent no rule fails, and the decision is that of the first rule whose conditions hold as
the document says. Every compiled condition comes to an answer of its own, never to that of an arm
that was not meant for it. -/
theorem PolicyDocument.compile_preserves_meaning {d : PolicyDocument} {p : Policy Intent}
    (h : d.compile = .ok p) :
    List.Forall₂ (fun r q => q.name = r.name ∧ Decision.ofName? r.decision = some q.decision)
      d.rules p.rules ∧
    ∀ i, (p.evaluate i).failure = none ∧
      RuleDocument.Decide d.rules i (p.evaluate i).decision ∧
      ∀ r ∈ d.rules, ∀ c ∈ r.conditions,
        (∃ k b, Condition.compile r.name c = .ok k ∧ k.holds? i = some b ∧ k.holds i = b ∧
          (b = true ↔ c.Holds i)) ∧
        ∀ t w, c.value.HasText t → c.value.Writes w →
          (∀ n, c.value = .number n → n.IsFinite) → t = Text.lowerCase (Text.trim w) := by
  have hrules := compile_ok_iff.1 h
  refine ⟨hrules.imp fun _ _ => RuleDocument.signature_of_compile, fun i => ?_⟩
  obtain ⟨hfailure, hdecide⟩ := RuleDocument.decide_of_compile hrules i
  refine ⟨hfailure, hdecide, fun r hr c hc => ⟨?_, fun t w ht hw => ht.eq_lowerCase_trim hw⟩⟩
  obtain ⟨q, hq⟩ := mapM_succeeds_iff.1 ⟨p.rules, mapM_eq_ok_iff.2 hrules⟩ r hr
  obtain ⟨k, hk⟩ := Condition.compiles_iff.2 ((RuleDocument.compiles_iff.1 ⟨q, hq⟩).2 c hc)
  obtain ⟨b, hb, hiff⟩ := Condition.answers_of_compile hk i
  refine ⟨k, b, hk, hb, ?_, hiff⟩
  rw [Condition.holds_eq_getD, hb]
  rfl

/-- The first rule asks for more signals than there are, the second one for a part of the name and a
score that is nearly the one given; the third one is not reached. -/
theorem PolicyDocument.evaluate_of_compile :
    let d : PolicyDocument := { rules :=
      [⟨"sure", "Allow", [⟨" Intent.Signals.Count", "GTE", .text "3"⟩]⟩,
        ⟨"retry", "Escalate",
          [⟨"intent.name", "contains", .text " Retry "⟩,
            ⟨"intent.confidence.score", "eq", .number (.real 0.3)⟩]⟩,
        ⟨"rest", "Block", []⟩] }
    let i : Intent := ⟨"LOGIN-RETRY", [], ⟨0.1 + 0.2, .high⟩, none⟩
    ∃ p, d.compile = .ok p ∧ p.rules.map Rule.name = ["sure", "retry", "rest"] ∧
      (p.evaluate i).failure = none ∧ RuleDocument.Decide d.rules i .escalate := by
  intro d i
  have hdecision : d.compile.toOption.map (fun p => (p.evaluate i).decision) = some .escalate := by
    decide +kernel
  cases hp : d.compile with
  | error e =>
    rw [hp] at hdecision
    cases hdecision
  | ok p =>
    rw [hp] at hdecision
    obtain ⟨hrules, hmeaning⟩ := compile_preserves_meaning hp
    obtain ⟨hfailure, hdecide, -⟩ := hmeaning i
    have hnames : d.rules.map RuleDocument.name = p.rules.map Rule.name := by
      rw [← List.forall₂_eq_eq_eq, List.forall₂_map_left_iff, List.forall₂_map_right_iff]
      exact hrules.imp fun _ _ h => h.1.symm
    have hdecided : (p.evaluate i).decision = .escalate := Option.some.inj hdecision
    rw [hdecided] at hdecide
    exact ⟨p, rfl, hnames.symm, hfailure, hdecide⟩

end IntentGate
