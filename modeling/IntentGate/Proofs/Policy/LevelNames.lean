import IntentGate.Proofs.Policy.Meaning
import IntentGate.Proofs.Text.Folding

/-!
# Names of levels in policies

A condition on the level reads its value in two ways. Under the orders the value is parsed, with the
case of ASCII letters ignored and blanks trimmed once more; under the other operators its text is
compared as it is. The two agree on what names a level (`Json.hasLevel_iff`,
`HasText.eq_level_iff`), since a text that has been trimmed and lowered has nothing left to fold.

Only the orders judge the value. A test for equality takes every value that has a text, so whether a
document compiles does not depend on which text stands there (`Frame.compiles_fill_iff`).
-/

namespace IntentGate

/-! ## One name read in two ways -/

namespace Level

theorem asciiLower_name (l : Level) : Text.asciiLower l.name = Text.lowerCase l.name := by
  cases l <;> decide +kernel

theorem trim_name (l : Level) : Text.trim l.name = l.name := by
  cases l <;> decide +kernel

/-- A text that has been trimmed and lowered names a level in one spelling only. -/
theorem named_lowerCase_trim_iff {l : Level} {s : String} :
    l.Named (Text.lowerCase (Text.trim s)) ↔
      Text.lowerCase (Text.trim s) = Text.lowerCase l.name := by
  rw [Named, Text.trim_lowerCase_trim, Text.asciiLower_lowerCase, asciiLower_name]

theorem named_lowerCase_name (l : Level) : l.Named (Text.lowerCase l.name) := by
  have hname := @named_lowerCase_trim_iff l l.name
  rw [trim_name] at hname
  exact hname.2 rfl

theorem not_named_of_isNumeral {l : Level} {cs : List Char} (h : ∀ c ∈ cs, IsNumeral c) :
    ¬l.Named (String.ofList cs) := by
  have hplain : ∀ c ∈ (String.ofList cs).toList, Text.IsPlain c := by
    rw [String.toList_ofList]
    exact fun c hc => Text.isPlain_of_isNumeral (h c hc)
  have hletters : (Text.lowerCase l.name).toList.all (IsNumeral ·) = false := by
    cases l <;> decide +kernel
  intro hl
  have hname : Text.lowerCase (Text.trim (String.ofList cs)) = Text.lowerCase l.name := by
    rw [← named_lowerCase_trim_iff, Text.trim_of_isPlain hplain, Text.lowerCase_of_isPlain hplain]
    exact hl
  rw [Text.trim_of_isPlain hplain, Text.lowerCase_of_isPlain hplain] at hname
  rw [← hname, String.toList_ofList, List.all_eq_true.2 fun c hc => decide_eq_true (h c hc)]
    at hletters
  cases hletters

/-- No level has the text of a number for its name. -/
theorem not_named_number (l : Level) (n : Json.Number) : ¬l.Named (String.ofList n.chars) := by
  rcases n.chars_cases with h | h | h | h
  · exact not_named_of_isNumeral h
  all_goals
    rw [h]
    cases l <;> decide +kernel

theorem not_named_bool (l : Level) (b : Bool) : ¬l.Named (if b then "true" else "false") := by
  cases l <;> cases b <;> decide +kernel

end Level

namespace Json

/-- The value is a text that names the level, blanks around it and case ignored. -/
def NamesLevel (v : Json) (l : Level) : Prop :=
  ∃ s, v = .text s ∧ Text.lowerCase (Text.trim s) = Text.lowerCase l.name

variable {v : Json} {l : Level} {t : String}

theorem namesLevel_text_iff {s : String} :
    (text s).NamesLevel l ↔ Text.lowerCase (Text.trim s) = Text.lowerCase l.name := by
  constructor
  · rintro ⟨s, hs, hname⟩
    cases hs
    exact hname
  · exact fun hname => ⟨s, rfl, hname⟩

theorem HasText.named_iff (h : v.HasText t) : l.Named t ↔ v.NamesLevel l := by
  cases h with
  | text s =>
    rw [Level.named_lowerCase_trim_iff, namesLevel_text_iff]
  | number n =>
    refine iff_of_false (l.not_named_number n) ?_
    rintro ⟨s, hs, -⟩
    cases hs
  | bool b =>
    refine iff_of_false (l.not_named_bool b) ?_
    rintro ⟨s, hs, -⟩
    cases hs

/-- Under the orders, the values that name a level are those that do so up to blanks and case. -/
theorem hasLevel_iff : v.HasLevel l ↔ v.NamesLevel l := by
  constructor
  · rintro ⟨t, ht, hl⟩
    exact ht.named_iff.1 hl
  · rintro ⟨s, rfl, hs⟩
    exact ⟨_, .text s, Level.named_lowerCase_trim_iff.2 hs⟩

/-- Under the other operators, the text of a value is the name of a level in the same cases. -/
theorem HasText.eq_level_iff (h : v.HasText t) :
    Text.lowerCase l.name = t ↔ v.NamesLevel l := by
  rw [← h.named_iff]
  constructor
  · rintro rfl
    exact l.named_lowerCase_name
  · intro hl
    obtain ⟨s, rfl, hs⟩ := h.named_iff.1 hl
    cases h
    exact hs.symm

theorem NamesLevel.unique {l' : Level} (h : v.NamesLevel l) (h' : v.NamesLevel l') : l = l' :=
  (hasLevel_iff.2 h).unique (hasLevel_iff.2 h')

end Json

namespace Condition

variable {v : Json} {t : String}

theorem holds_level_eq_iff (ht : v.HasText t) (i : Intent) :
    holds ⟨.level, .eq, .text t⟩ i = true ↔ v.NamesLevel i.level := by
  change (Text.lowerCase i.level.name == t) = true ↔ _
  rw [beq_iff_eq, ht.eq_level_iff]

theorem holds_level_ne_iff (ht : v.HasText t) (i : Intent) :
    holds ⟨.level, .ne, .text t⟩ i = false ↔ v.NamesLevel i.level := by
  change (Text.lowerCase i.level.name != t) = false ↔ _
  rw [bne_eq_false_iff_eq, ht.eq_level_iff]

end Condition

namespace ConditionDocument

variable {c : ConditionDocument} {op : Operator}

/-- Under an operator that asks for no order, any text will do. -/
theorem wellFormed_iff_hasText (hlevel : Property.level.Named c.property)
    (hop : op.Named c.operator) (htext : op.isOrdering = false) :
    c.WellFormed ↔ ∃ t, c.value.HasText t := by
  constructor
  · rintro ⟨p, op', e, hp, hop', he⟩
    obtain rfl := hp.unique hlevel
    obtain rfl := hop'.unique hop
    cases he with
    | levelName _ ht => exact ⟨_, ht⟩
    | levelRank hordering _ =>
      rw [htext] at hordering
      cases hordering
  · rintro ⟨t, ht⟩
    exact ⟨_, _, _, hlevel, hop, .levelName htext ht⟩

end ConditionDocument

/-- What is true of the level of some intent is true of some level. -/
theorem Intent.exists_level_iff {good : Level → Prop} :
    (∃ i : Intent, good i.level) ↔ ∃ l, good l := by
  constructor
  · rintro ⟨i, hi⟩
    exact ⟨i.level, hi⟩
  · rintro ⟨l, hl⟩
    exact ⟨⟨"", [], ⟨0, l⟩, none⟩, hl⟩

/-! ## Documents with a gap -/

namespace PolicyDocument

/-- A document with a gap in one of its rules, for one condition. -/
structure Frame where
  version : String
  front : List RuleDocument
  name : String
  decision : String
  before : List ConditionDocument
  after : List ConditionDocument
  back : List RuleDocument

namespace Frame

/-- The rule with the gap, filled by a condition. -/
def rule (f : Frame) (c : ConditionDocument) : RuleDocument :=
  ⟨f.name, f.decision, f.before ++ c :: f.after⟩

/-- The document, its gap filled by a condition. -/
def fill (f : Frame) (c : ConditionDocument) : PolicyDocument :=
  ⟨f.version, f.front ++ f.rule c :: f.back⟩

/-- Nothing around the gap keeps the document from compiling. -/
structure WellFormed (f : Frame) : Prop where
  rules : ∀ r ∈ f.front ++ f.back, r.WellFormed
  decision : ∃ decision, Decision.ofName? f.decision = some decision
  conditions : ∀ c ∈ f.before ++ f.after, c.WellFormed

variable (f : Frame) {c : ConditionDocument}

theorem compiles_fill_iff : (∃ p, (f.fill c).compile = .ok p) ↔ f.WellFormed ∧ c.WellFormed := by
  rw [compiles_iff, fill]
  dsimp only
  constructor
  · intro h
    obtain ⟨hdecision, hconditions⟩ := h (f.rule c) (by simp)
    refine ⟨⟨fun r hr => h r ?_, hdecision, fun c' hc' => hconditions c' ?_⟩,
      hconditions c (by simp [rule])⟩
    · simp only [List.mem_append, List.mem_cons] at hr ⊢
      exact hr.imp_right .inr
    · simp only [rule, List.mem_append, List.mem_cons] at hc' ⊢
      exact hc'.imp_right .inr
  · rintro ⟨hf, hc⟩ r hr
    have hrule : (f.rule c).WellFormed := by
      refine ⟨hf.decision, fun c' hc' => ?_⟩
      simp only [rule, List.mem_append, List.mem_cons] at hc'
      rcases hc' with hc' | rfl | hc'
      · exact hf.conditions c' (List.mem_append_left _ hc')
      · exact hc
      · exact hf.conditions c' (List.mem_append_right _ hc')
    rw [List.mem_append, List.mem_cons] at hr
    rcases hr with hr | rfl | hr
    · exact hf.rules r (List.mem_append_left _ hr)
    · exact hrule
    · exact hf.rules r (List.mem_append_right _ hr)

/-- Which text a test for equality of levels has for its value is not judged: wherever the test
stands, the document compiles with any text, number or truth value in it. The test then asks for the
level that the value names, up to blanks and case, so one that names none holds of no intent under
`eq` and of every one under `ne`. -/
theorem level_values_unchecked {op : Operator} (hlevel : Property.level.Named c.property)
    (hop : op.Named c.operator) (hequality : op = .eq ∨ op = .ne) :
    ((∃ p, (f.fill c).compile = .ok p) ↔ f.WellFormed ∧ ∃ t, c.value.HasText t) ∧
    ∀ p, (f.fill c).compile = .ok p → ∃ k, Condition.compile f.name c = .ok k ∧
      (op = .eq → (∀ i, k.holds i = true ↔ c.value.NamesLevel i.level) ∧
        ((∃ i, k.holds i = true) ↔ ∃ l, c.value.NamesLevel l)) ∧
      (op = .ne → (∀ i, k.holds i = false ↔ c.value.NamesLevel i.level) ∧
        ((∃ i, k.holds i = false) ↔ ∃ l, c.value.NamesLevel l)) := by
  have htext : op.isOrdering = false := by rcases hequality with rfl | rfl <;> rfl
  have hwell := ConditionDocument.wellFormed_iff_hasText hlevel hop htext
  rw [f.compiles_fill_iff, hwell]
  refine ⟨Iff.rfl, fun p hp => ?_⟩
  obtain ⟨t, ht⟩ := hwell.1 (f.compiles_fill_iff.1 ⟨p, hp⟩).2
  refine ⟨_, Condition.compile_of_fits f.name hlevel hop (.levelName htext ht), ?_, ?_⟩
  · rintro rfl
    have hholds := Condition.holds_level_eq_iff ht
    exact ⟨hholds, by simp only [hholds, Intent.exists_level_iff]⟩
  · rintro rfl
    have hholds := Condition.holds_level_ne_iff ht
    exact ⟨hholds, by simp only [hholds, Intent.exists_level_iff]⟩

/-- A test for every level but a misspelt one compiles, and holds of every intent. -/
theorem level_values_unchecked_misspelt :
    let f : Frame := ⟨"1.0", [], "calm", "Allow", [], [], [⟨"rest", "Block", []⟩]⟩
    let c : ConditionDocument := ⟨" Intent.Confidence.Level", "NE", .text "hgih"⟩
    Property.level.Named c.property ∧ Operator.ne.Named c.operator ∧
      ∃ k, Condition.compile f.name c = .ok k ∧ ∀ i, k.holds i = true := by
  intro f c
  have hlevel : Property.level.Named c.property := by decide +kernel
  have hop : Operator.ne.Named c.operator := by decide +kernel
  have hf : f.WellFormed := by
    refine ⟨?_, ⟨.allow, by decide +kernel⟩, by simp [f]⟩
    rintro r hr
    obtain rfl := List.mem_singleton.1 hr
    exact ⟨⟨.block, by decide +kernel⟩, by simp⟩
  obtain ⟨hcompiles, hmeaning⟩ := f.level_values_unchecked hlevel hop (.inr rfl)
  obtain ⟨p, hp⟩ := hcompiles.2 ⟨hf, _, .text "hgih"⟩
  obtain ⟨k, hk, -, hne⟩ := hmeaning p hp
  refine ⟨hlevel, hop, k, hk, fun i => ?_⟩
  rw [← Bool.not_eq_false, (hne rfl).1, Json.namesLevel_text_iff]
  cases i.level <;> decide +kernel

end Frame

/-- A document with a misspelt level in a test for equality compiles, and no intent passes the
test. -/
theorem misspelt_level_compiles :
    let c : ConditionDocument := ⟨"intent.confidence.level", "eq", .text "hgih"⟩
    (∃ p, compile { rules := [{ name := "r", conditions := [c] }] } = .ok p) ∧
      (∀ l, ¬c.value.NamesLevel l) ∧ ∀ i, ¬c.Holds i := by
  intro c
  have hlevel : Property.level.Named c.property := by decide +kernel
  have hop : Operator.eq.Named c.operator := by decide +kernel
  have hnames (l : Level) : ¬c.value.NamesLevel l := by
    rw [Json.namesLevel_text_iff]
    cases l <;> decide +kernel
  have hk := Condition.compile_of_fits (c := c) "r" hlevel hop (.levelName rfl (.text "hgih"))
  refine ⟨compiles_iff.2 ?_, hnames, fun i => ?_⟩
  · rintro r hr
    obtain rfl := List.mem_singleton.1 hr
    refine ⟨⟨.observe, by decide +kernel⟩, fun c' hc' => ?_⟩
    obtain rfl := List.mem_singleton.1 hc'
    exact Condition.compiles_iff.1 ⟨_, hk⟩
  · rw [← Condition.holds_iff_of_compile hk, Condition.holds_level_eq_iff (.text "hgih")]
    exact hnames i.level

end PolicyDocument

end IntentGate
