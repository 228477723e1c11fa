import IntentGate.Proofs.Policy.Reading
import IntentGate.Proofs.Traversal

/-!
# Compiling policy documents

A document compiles exactly if it is well formed, and else it is refused for its first offence. A
condition is well formed or has a fault (`wellFormed_or_refused`), so it is enough to follow the
compiler on each of the two; that the other one is then excluded comes with it. Rules and documents
are traversals of their parts, which stop at the first fault.
-/

namespace IntentGate

open Traversal

/-! ## Values -/

/-- What a reading function gives where nothing is in the relation that it reads. -/
theorem eq_none_of_iff {α : Type} {o : Option α} {related : α → Prop}
    (hiff : ∀ {a}, o = some a ↔ related a) (h : ∀ a, ¬related a) : o = none :=
  Option.eq_none_iff_forall_ne_some.2 fun a ha => h a (hiff.1 ha)

/-- A value fits a property and an operator, or there is a reason why it does not. -/
theorem fits_or_misfits (p : Property) (op : Operator) (named : String) (v : Json) :
    (∃ e, Fits op v p e) ∨ ∃ reason, Misfits op named v p reason := by
  -- names and levels take texts under the same operators, scores and counts take numbers alike
  have htexts (hop : op.isOrdering = false) (p : Property) (hp : p = .name ∨ p = .level) :
      (∃ e, Fits op v p e) ∨ ∃ reason, Misfits op named v p reason := by
    by_cases ht : ∃ t, v.HasText t
    · obtain ⟨t, ht⟩ := ht
      rcases hp with rfl | rfl
      · exact .inl ⟨_, .name hop ht⟩
      · exact .inl ⟨_, .levelName hop ht⟩
    · rw [not_exists] at ht
      rcases hp with rfl | rfl
      · exact .inr ⟨_, .nameText hop ht⟩
      · exact .inr ⟨_, .levelText hop ht⟩
  have hnumbers (p : Property) (hp : p = .score ∨ p = .signalCount) :
      (∃ e, Fits op v p e) ∨ ∃ reason, Misfits op named v p reason := by
    by_cases hop : op = .contains
    · exact .inr ⟨_, .containment hp hop⟩
    · by_cases hx : ∃ x, v.HasNumber x
      · obtain ⟨x, hx⟩ := hx
        rcases hp with rfl | rfl
        · exact .inl ⟨_, .score hop hx⟩
        · exact .inl ⟨_, .signalCount hop hx⟩
      · exact .inr ⟨_, .number hp hop (not_exists.1 hx)⟩
  cases p with
  | name =>
    cases hop : op.isOrdering with
    | true => exact .inr ⟨_, .nameOrder hop⟩
    | false => exact htexts hop .name (.inl rfl)
  | level =>
    cases hop : op.isOrdering with
    | true =>
      by_cases ht : ∃ t, v.HasText t
      · obtain ⟨t, ht⟩ := ht
        by_cases hl : ∃ l : Level, l.Named t
        · obtain ⟨l, hl⟩ := hl
          exact .inl ⟨_, .levelRank hop ⟨t, ht, hl⟩⟩
        · exact .inr ⟨_, .level hop ht (not_exists.1 hl)⟩
      · exact .inr ⟨_, .levelName hop (not_exists.1 ht)⟩
    | false => exact htexts hop .level (.inr rfl)
  | score => exact hnumbers .score (.inl rfl)
  | signalCount => exact hnumbers .signalCount (.inr rfl)

namespace Condition

variable {p : Property} {op : Operator} {c : ConditionDocument}

theorem expectation_of_fits {e : Expected} (h : Fits op c.value p e) :
    expectation p op c = .ok e := by
  unfold expectation
  cases h with
  | name hop ht =>
    simp only [hop, Json.valueText?_iff.2 ht, Bool.false_eq_true, if_false, Option.elim]
  | levelName hop ht =>
    simp only [hop, Json.valueText?_iff.2 ht, Bool.false_eq_true, if_false, Option.elim]
  | levelRank hop hl =>
    obtain ⟨t, ht, hl⟩ := hl
    simp only [hop, Json.valueText?_iff.2 ht, Level.ofName?_iff.2 hl, if_true, Option.elim]
  | score hop hx => simp only [if_neg hop, Json.valueNumber?_iff.2 hx, Option.elim]
  | signalCount hop hx => simp only [if_neg hop, Json.valueNumber?_iff.2 hx, Option.elim]

theorem expectation_of_misfits {reason : String} (h : Misfits op c.operator c.value p reason) :
    expectation p op c = .error reason := by
  unfold expectation
  cases h with
  | nameOrder hop => simp only [hop, if_true]
  | nameText hop ht =>
    have hnone := eq_none_of_iff Json.valueText?_iff ht
    simp only [hop, hnone, Bool.false_eq_true, if_false, Option.elim]
  | levelText hop ht =>
    have hnone := eq_none_of_iff Json.valueText?_iff ht
    simp only [hop, hnone, Bool.false_eq_true, if_false, Option.elim]
  | levelName hop ht => simp only [hop, eq_none_of_iff Json.valueText?_iff ht, if_true]
  | level hop ht hl =>
    simp only [hop, Json.valueText?_iff.2 ht, eq_none_of_iff Level.ofName?_iff hl, if_true,
      Option.elim]
  | containment hp hop => rcases hp with rfl | rfl <;> simp only [if_pos hop]
  | number hp hop hx =>
    have hnone := eq_none_of_iff Json.valueNumber?_iff hx
    rcases hp with rfl | rfl <;> simp only [if_neg hop, hnone, Option.elim]

/-! ## Conditions -/

theorem compile_of_fits {e : Expected} (rule : String) (hp : p.Named c.property)
    (hop : op.Named c.operator) (h : Fits op c.value p e) : compile rule c = .ok ⟨p, op, e⟩ := by
  simp only [compile, Property.ofName?_iff.2 hp, Operator.ofName?_iff.2 hop, expectation_of_fits h]

theorem compile_of_refused {rule : String} {fault : StoreFault} (h : c.Refused rule fault) :
    compile rule c = .error fault := by
  unfold compile
  cases h with
  | property hp => simp only [eq_none_of_iff Property.ofName?_iff hp]
  | operator hp hop =>
    simp only [Property.ofName?_iff.2 hp, eq_none_of_iff Operator.ofName?_iff hop]
  | value hp hop hv =>
    simp only [Property.ofName?_iff.2 hp, Operator.ofName?_iff.2 hop, expectation_of_misfits hv]

end Condition

theorem ConditionDocument.wellFormed_or_refused (rule : String) (c : ConditionDocument) :
    c.WellFormed ∨ ∃ fault, c.Refused rule fault := by
  by_cases hp : ∃ p : Property, p.Named c.property
  · obtain ⟨p, hp⟩ := hp
    by_cases hop : ∃ op : Operator, op.Named c.operator
    · obtain ⟨op, hop⟩ := hop
      rcases fits_or_misfits p op c.operator c.value with ⟨e, he⟩ | ⟨reason, hreason⟩
      · exact .inl ⟨p, op, e, hp, hop, he⟩
      · exact .inr ⟨_, .value hp hop hreason⟩
    · exact .inr ⟨_, .operator hp (not_exists.1 hop)⟩
  · exact .inr ⟨_, .property (not_exists.1 hp)⟩

namespace Condition

variable {c : ConditionDocument} {rule : String}

theorem compile_ok_iff {k : Condition} :
    compile rule c = .ok k ↔
      k.property.Named c.property ∧ k.operator.Named c.operator ∧
        Fits k.operator c.value k.property k.expected := by
  constructor
  · intro h
    rcases c.wellFormed_or_refused rule with ⟨p, op, e, hp, hop, he⟩ | ⟨fault, hfault⟩
    · rw [compile_of_fits rule hp hop he] at h
      obtain rfl := Except.ok.inj h
      exact ⟨hp, hop, he⟩
    · rw [compile_of_refused hfault] at h
      cases h
  · rintro ⟨hp, hop, he⟩
    exact compile_of_fits rule hp hop he

theorem compiles_iff : (∃ k, compile rule c = .ok k) ↔ c.WellFormed := by
  constructor
  · rintro ⟨k, hk⟩
    exact ⟨k.property, k.operator, k.expected, compile_ok_iff.1 hk⟩
  · rintro ⟨p, op, e, hp, hop, he⟩
    exact ⟨_, compile_of_fits rule hp hop he⟩

theorem compile_error_iff {fault : StoreFault} :
    compile rule c = .error fault ↔ c.Refused rule fault := by
  constructor
  · intro h
    rcases c.wellFormed_or_refused rule with ⟨p, op, e, hp, hop, he⟩ | ⟨fault', hfault⟩
    · rw [compile_of_fits rule hp hop he] at h
      cases h
    · rw [compile_of_refused hfault] at h
      obtain rfl := Except.error.inj h
      exact hfault
  · exact compile_of_refused

end Condition

/-! ## Rules -/

namespace RuleDocument

variable {r : RuleDocument}

theorem compile_of_decision {decision : Decision}
    (hd : Decision.ofName? r.decision = some decision) :
    r.compile = (r.conditions.mapM (Condition.compile r.name)).map fun ks =>
      Rule.ofPred r.name decision fun i => ks.all (·.holds i) := by
  rw [compile, hd]
  cases r.conditions.mapM (Condition.compile r.name) <;> rfl

theorem compile_of_no_decision (hd : Decision.ofName? r.decision = none) :
    r.compile = .error (.unknownDecision r.name r.decision) := by
  rw [compile, hd]
  rfl

theorem compile_ok_iff {q : Rule Intent} :
    r.compile = .ok q ↔
      ∃ decision ks, Decision.ofName? r.decision = some decision ∧
        List.Forall₂ (fun c k => Condition.compile r.name c = .ok k) r.conditions ks ∧
        q = Rule.ofPred r.name decision fun i => ks.all (·.holds i) := by
  cases hd : Decision.ofName? r.decision with
  | none =>
    rw [compile_of_no_decision hd]
    constructor
    · intro h
      cases h
    · rintro ⟨decision, ks, hdecision, -⟩
      cases hdecision
  | some decision =>
    rw [compile_of_decision hd, map_eq_ok_iff]
    constructor
    · rintro ⟨ks, hks, rfl⟩
      exact ⟨decision, ks, rfl, mapM_eq_ok_iff.1 hks, rfl⟩
    · rintro ⟨decision', ks, hdecision, hks, rfl⟩
      obtain rfl := Option.some.inj hdecision
      exact ⟨ks, mapM_eq_ok_iff.2 hks, rfl⟩

theorem compiles_iff : (∃ q, r.compile = .ok q) ↔ r.WellFormed := by
  have hconditions : (∃ ks, r.conditions.mapM (Condition.compile r.name) = .ok ks) ↔
      ∀ c ∈ r.conditions, c.WellFormed := by
    simp only [mapM_succeeds_iff, Condition.compiles_iff]
  rw [WellFormed, ← hconditions]
  constructor
  · rintro ⟨q, hq⟩
    obtain ⟨decision, ks, hd, hks, -⟩ := compile_ok_iff.1 hq
    exact ⟨⟨decision, hd⟩, ks, mapM_eq_ok_iff.2 hks⟩
  · rintro ⟨⟨decision, hd⟩, ks, hks⟩
    exact ⟨_, compile_ok_iff.2 ⟨decision, ks, hd, mapM_eq_ok_iff.1 hks, rfl⟩⟩

theorem compile_error_iff {e : StoreFault} : r.compile = .error e ↔ r.Refused e := by
  have hconditions : r.conditions.mapM (Condition.compile r.name) = .error e ↔
      ∃ before c after, r.conditions = before ++ c :: after ∧ (∀ q ∈ before, q.WellFormed) ∧
        c.Refused r.name e := by
    simp only [mapM_eq_error_iff, Condition.compiles_iff, Condition.compile_error_iff]
  cases hd : Decision.ofName? r.decision with
  | none =>
    rw [compile_of_no_decision hd]
    constructor
    · intro h
      obtain rfl := Except.error.inj h
      exact .decision fun decision => by simp [hd]
    · intro h
      cases h with
      | decision _ => rfl
      | condition hknown _ _ _ => simp [hd] at hknown
  | some decision =>
    rw [compile_of_decision hd, map_eq_error_iff, hconditions]
    constructor
    · rintro ⟨before, c, after, hsplit, hbefore, hc⟩
      exact .condition ⟨decision, hd⟩ hsplit hbefore hc
    · intro h
      cases h with
      | decision hunknown => exact absurd hd (hunknown decision)
      | condition _ hsplit hbefore hc => exact ⟨_, _, _, hsplit, hbefore, hc⟩

theorem Refused.not_wellFormed {e : StoreFault} (h : r.Refused e) : ¬r.WellFormed := by
  intro hwell
  obtain ⟨q, hq⟩ := compiles_iff.2 hwell
  rw [compile_error_iff.2 h] at hq
  cases hq

/-- A fault names the rule in which it is found. -/
theorem Refused.ruleName?_eq {e : StoreFault} (h : r.Refused e) : e.ruleName? = some r.name := by
  cases h with
  | decision hd => rfl
  | condition hd hsplit hbefore hc => cases hc <;> rfl

end RuleDocument

/-! ## Documents -/

namespace PolicyDocument

variable {d : PolicyDocument}

theorem compile_eq_map (d : PolicyDocument) :
    d.compile = (d.rules.mapM RuleDocument.compile).map Policy.mk := by
  rw [compile]
  cases d.rules.mapM RuleDocument.compile <;> rfl

theorem compile_ok_iff {p : Policy Intent} :
    d.compile = .ok p ↔ List.Forall₂ (fun r q => r.compile = .ok q) d.rules p.rules := by
  rw [compile_eq_map, map_eq_ok_iff, ← mapM_eq_ok_iff]
  constructor
  · rintro ⟨qs, hqs, rfl⟩
    exact hqs
  · intro h
    exact ⟨p.rules, h, rfl⟩

theorem compiles_iff : (∃ p, d.compile = .ok p) ↔ ∀ r ∈ d.rules, r.WellFormed := by
  simp only [← RuleDocument.compiles_iff]
  rw [← mapM_succeeds_iff]
  constructor
  · rintro ⟨p, hp⟩
    exact ⟨p.rules, mapM_eq_ok_iff.2 (compile_ok_iff.1 hp)⟩
  · rintro ⟨qs, hqs⟩
    exact ⟨⟨qs⟩, compile_ok_iff.2 (mapM_eq_ok_iff.1 hqs)⟩

/-- A document compiles exactly if the decisions of all its rules are known and their conditions are
well formed. Else there is no policy but the fault of the first rule that is not well formed, under
the name of this rule. -/
theorem compile_refuses_first_offence (d : PolicyDocument) :
    ((∃ p, d.compile = .ok p) ↔ ∀ r ∈ d.rules, r.WellFormed) ∧
    ∀ e, d.compile = .error e ↔
      ∃ before r after, d.rules = before ++ r :: after ∧ (∀ q ∈ before, q.WellFormed) ∧
        ¬r.WellFormed ∧ r.Refused e ∧ e.ruleName? = some r.name := by
  refine ⟨compiles_iff, fun e => ?_⟩
  rw [compile_eq_map, map_eq_error_iff, mapM_eq_error_iff]
  simp only [RuleDocument.compiles_iff, RuleDocument.compile_error_iff]
  constructor
  · rintro ⟨before, r, after, hsplit, hbefore, hr⟩
    exact ⟨before, r, after, hsplit, hbefore, hr.not_wellFormed, hr, hr.ruleName?_eq⟩
  · rintro ⟨before, r, after, hsplit, hbefore, -, hr, -⟩
    exact ⟨before, r, after, hsplit, hbefore, hr⟩

/-- The operator and the value of the second rule and the decision of the third one are not judged
any more. -/
example :
    (compile { rules :=
      [⟨"fine", "Warn", []⟩, ⟨"broken", "Block", [⟨"intent.owner", "like", .null⟩]⟩,
        ⟨"late", "Deny", []⟩] }).map (fun _ => ()) =
      .error (.unknownProperty "broken" "intent.owner") := by
  decide +kernel

end PolicyDocument

end IntentGate
