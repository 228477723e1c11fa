import IntentGate.Policy.Condition
import IntentGate.Proofs.Text.Matching

/-!
# Reading policy documents

What a policy document says, read off the document itself: which property and operator a condition
names, which text, level or number its value is, when the condition holds of an intent
(`ConditionDocument.Holds`), and which decision the rules come to (`RuleDocument.Decide`).
Beside it stands what makes a document well formed, and the fault of each part that is not
(`Refused`).

The relations are those that the names of the model are read by: each `…_iff` lemma says so of one
reading function.
-/

namespace IntentGate

/-! ## Names -/

/-- The path under which a property is named. -/
def Property.path : Property → String
  | name => "intent.name"
  | level => "intent.confidence.level"
  | score => "intent.confidence.score"
  | signalCount => "intent.signals.count"

/-- The word for an operator. -/
def Operator.word : Operator → String
  | eq => "eq"
  | ne => "ne"
  | contains => "contains"
  | gte => "gte"
  | lte => "lte"
  | gt => "gt"
  | lt => "lt"

/-- Blanks around the path and ASCII case are ignored. -/
def Property.Named (p : Property) (s : String) : Prop :=
  Text.asciiLower (Text.trim s) = p.path

def Operator.Named (op : Operator) (s : String) : Prop :=
  Text.asciiLower (Text.trim s) = op.word

def Level.Named (l : Level) (s : String) : Prop :=
  Text.asciiLower (Text.trim s) = Text.asciiLower l.name

instance (p : Property) (s : String) : Decidable (p.Named s) :=
  inferInstanceAs (Decidable (_ = _))

instance (op : Operator) (s : String) : Decidable (op.Named s) :=
  inferInstanceAs (Decidable (_ = _))

instance (l : Level) (s : String) : Decidable (l.Named s) :=
  inferInstanceAs (Decidable (_ = _))

theorem Property.ofName?_iff {s : String} {p : Property} : ofName? s = some p ↔ p.Named s := by
  rw [Named, ofName?]
  generalize Text.asciiLower (Text.trim s) = folded
  constructor
  · intro h
    split at h <;> cases h <;> rfl
  · rintro rfl
    cases p <;> rfl

theorem Operator.ofName?_iff {s : String} {op : Operator} : ofName? s = some op ↔ op.Named s := by
  rw [Named, ofName?]
  generalize Text.asciiLower (Text.trim s) = folded
  constructor
  · intro h
    split at h <;> cases h <;> rfl
  · rintro rfl
    cases op <;> rfl

theorem Level.ofName?_iff {s : String} {l : Level} : ofName? s = some l ↔ l.Named s := by
  simp only [Named, ofName?, Text.sameIgnoringCase]
  generalize Text.asciiLower (Text.trim s) = folded
  constructor
  · intro h
    have hfound := List.find?_some h
    exact (beq_iff_eq.1 hfound).symm
  · rintro rfl
    cases l <;> decide +kernel

theorem Property.Named.unique {p q : Property} {s : String} (hp : p.Named s) (hq : q.Named s) :
    p = q :=
  Option.some.inj ((ofName?_iff.2 hp).symm.trans (ofName?_iff.2 hq))

theorem Operator.Named.unique {op op' : Operator} {s : String} (h : op.Named s)
    (h' : op'.Named s) : op = op' :=
  Option.some.inj ((ofName?_iff.2 h).symm.trans (ofName?_iff.2 h'))

theorem Level.Named.unique {l l' : Level} {s : String} (h : l.Named s) (h' : l'.Named s) :
    l = l' :=
  Option.some.inj ((ofName?_iff.2 h).symm.trans (ofName?_iff.2 h'))

/-! ## Values -/

namespace Json

/-- How a value is written that stands for a text. -/
inductive Writes : Json → String → Prop
  | text (s : String) : Writes (.text s) s
  | number (n : Number) : Writes (.number n) (String.ofList n.chars)
  | bool (b : Bool) : Writes (.bool b) (if b then "true" else "false")

/-- The text of a value: a text trimmed and in lower case, all else as it is written. -/
inductive HasText : Json → String → Prop
  | text (s : String) : HasText (.text s) (Text.lowerCase (Text.trim s))
  | number (n : Number) : HasText (.number n) (String.ofList n.chars)
  | bool (b : Bool) : HasText (.bool b) (if b then "true" else "false")

/-- The finite number of a value. -/
inductive HasNumber : Json → Float → Prop
  | number {n : Number} (hfinite : n.toFloat.isFinite = true) : HasNumber (.number n) n.toFloat
  | text {s : String} {x : Float} (hreal : Reading.real (Text.trim s) = .ok x)
      (hfinite : x.isFinite = true) : HasNumber (.text s) x

/-- The level that the text of a value names. -/
def HasLevel (v : Json) (l : Level) : Prop :=
  ∃ t, v.HasText t ∧ l.Named t

theorem valueText?_iff {v : Json} {t : String} :
    Condition.valueText? v = some t ↔ v.HasText t := by
  constructor
  · intro h
    cases v with
    | text s =>
      obtain rfl := Option.some.inj h
      exact .text s
    | number n =>
      obtain rfl := Option.some.inj h
      exact .number n
    | bool b =>
      obtain rfl := Option.some.inj h
      exact .bool b
    | _ => cases h
  · rintro (_ | _ | _) <;> rfl

theorem valueNumber?_iff {v : Json} {x : Float} :
    Condition.valueNumber? v = some x ↔ v.HasNumber x := by
  unfold Condition.valueNumber?
  rw [Option.filter_eq_some_iff]
  constructor
  · rintro ⟨hnumber, hfinite⟩
    cases v with
    | number n =>
      obtain rfl := Option.some.inj hnumber
      exact .number hfinite
    | text s =>
      refine .text ?_ hfinite
      dsimp only at hnumber
      cases hreal : Reading.real (Text.trim s) with
      | error e =>
        rw [hreal] at hnumber
        cases hnumber
      | ok y =>
        rw [hreal] at hnumber
        rw [Option.some.inj hnumber]
    | _ => cases hnumber
  · rintro (hfinite | ⟨hreal, hfinite⟩)
    · exact ⟨rfl, hfinite⟩
    · refine ⟨?_, hfinite⟩
      dsimp only
      rw [hreal]
      rfl

theorem HasText.unique {v : Json} {t t' : String} (h : v.HasText t) (h' : v.HasText t') : t = t' :=
  Option.some.inj ((valueText?_iff.2 h).symm.trans (valueText?_iff.2 h'))

theorem HasNumber.unique {v : Json} {x y : Float} (h : v.HasNumber x) (h' : v.HasNumber y) :
    x = y :=
  Option.some.inj ((valueNumber?_iff.2 h).symm.trans (valueNumber?_iff.2 h'))

theorem HasLevel.unique {v : Json} {l l' : Level} (h : v.HasLevel l) (h' : v.HasLevel l') :
    l = l' := by
  obtain ⟨t, ht, hl⟩ := h
  obtain ⟨t', ht', hl'⟩ := h'
  obtain rfl := ht.unique ht'
  exact hl.unique hl'

/-- Finite numbers and truth values are written without blanks and capitals, so the text of any
value is what is written, trimmed and in lower case. -/
theorem HasText.eq_lowerCase_trim {v : Json} {t w : String} (h : v.HasText t) (hw : v.Writes w)
    (hfinite : ∀ n, v = .number n → n.IsFinite) : t = Text.lowerCase (Text.trim w) := by
  cases h with
  | text s =>
    cases hw
    rfl
  | number n =>
    cases hw
    have hplain : ∀ c ∈ (String.ofList n.chars).toList, Text.IsPlain c := by
      rw [String.toList_ofList]
      exact fun c hc => Text.isPlain_of_isNumeral (n.isNumeral_chars (hfinite n rfl) c hc)
    rw [Text.trim_of_isPlain hplain, Text.lowerCase_of_isPlain hplain]
  | bool b =>
    cases hw
    cases b <;> decide +kernel

end Json

/-! ## Comparisons -/

namespace Operator

/-- The orders. -/
def Orders {α : Type} [LE α] [LT α] (op : Operator) (actual expected : α) : Prop :=
  match op with
  | gte => expected ≤ actual
  | lte => actual ≤ expected
  | gt => expected < actual
  | lt => actual < expected
  | eq | ne | contains => False

/-- Equality and containment of texts. -/
def RelatesTexts (op : Operator) (actual expected : String) : Prop :=
  match op with
  | eq => actual = expected
  | ne => actual ≠ expected
  | contains => expected.toList <:+: actual.toList
  | gte | lte | gt | lt => False

/-- Equality of numbers up to a billionth, and their orders. -/
def RelatesNumbers (op : Operator) (actual expected : Float) : Prop :=
  match op with
  | eq => (actual - expected).abs < 1e-9
  | ne => 1e-9 ≤ (actual - expected).abs
  | op => op.Orders actual expected

end Operator

/-- When a property of an intent stands in the relation of an operator to a value. Levels are
compared by name, or by rank where an order is asked for. -/
inductive Relates (i : Intent) (op : Operator) (v : Json) : Property → Prop
  | name {t : String} (ht : v.HasText t) (h : op.RelatesTexts (Text.lowerCase i.name) t) :
      Relates i op v .name
  | levelName {t : String} (ht : v.HasText t)
      (h : op.RelatesTexts (Text.lowerCase i.level.name) t) : Relates i op v .level
  | levelRank {l : Level} (hl : v.HasLevel l) (h : op.Orders i.level.rank l.rank) :
      Relates i op v .level
  | score {x : Float} (hx : v.HasNumber x) (h : op.RelatesNumbers i.score x) : Relates i op v .score
  | signalCount {x : Float} (hx : v.HasNumber x)
      (h : op.RelatesNumbers (Float.ofNat i.signals.length) x) : Relates i op v .signalCount

/-- The condition holds of an intent. -/
def ConditionDocument.Holds (c : ConditionDocument) (i : Intent) : Prop :=
  ∃ p op, p.Named c.property ∧ op.Named c.operator ∧ Relates i op c.value p

/-- All conditions hold. -/
def RuleDocument.Applies (r : RuleDocument) (i : Intent) : Prop :=
  ∀ c ∈ r.conditions, c.Holds i

/-- The decision of the first of some rules that applies; to observe if none does. -/
inductive RuleDocument.Decide (rs : List RuleDocument) (i : Intent) : Decision → Prop
  | first {before after : List RuleDocument} {r : RuleDocument} {decision : Decision}
      (hsplit : rs = before ++ r :: after) (hbefore : ∀ q ∈ before, ¬q.Applies i)
      (happlies : r.Applies i) (hdecision : Decision.ofName? r.decision = some decision) :
      Decide rs i decision
  | none (hall : ∀ r ∈ rs, ¬r.Applies i) : Decide rs i .observe

/-! ## Well-formed documents -/

/-- The value fits a property and an operator: what it is compared with. -/
inductive Fits (op : Operator) (v : Json) : Property → Expected → Prop
  | name {t : String} (hop : op.isOrdering = false) (ht : v.HasText t) : Fits op v .name (.text t)
  | levelName {t : String} (hop : op.isOrdering = false) (ht : v.HasText t) :
      Fits op v .level (.text t)
  | levelRank {l : Level} (hop : op.isOrdering = true) (hl : v.HasLevel l) :
      Fits op v .level (.level l)
  | score {x : Float} (hop : op ≠ .contains) (hx : v.HasNumber x) : Fits op v .score (.number x)
  | signalCount {x : Float} (hop : op ≠ .contains) (hx : v.HasNumber x) :
      Fits op v .signalCount (.number x)

/-- The property and the operator are known and the value fits them. -/
def ConditionDocument.WellFormed (c : ConditionDocument) : Prop :=
  ∃ p op e, p.Named c.property ∧ op.Named c.operator ∧ Fits op c.value p e

/-- The decision is known and the conditions are well formed. -/
def RuleDocument.WellFormed (r : RuleDocument) : Prop :=
  (∃ decision, Decision.ofName? r.decision = some decision) ∧ ∀ c ∈ r.conditions, c.WellFormed

/-! ## Faults -/

/-- Why a value does not fit a property and the operator that a text names. -/
inductive Misfits (op : Operator) (named : String) (v : Json) : Property → String → Prop
  | nameOrder (hop : op.isOrdering = true) :
      Misfits op named v .name ("operator `" ++ Text.trim named ++ "` does not apply to text")
  | nameText (hop : op.isOrdering = false) (ht : ∀ t, ¬v.HasText t) :
      Misfits op named v .name "expected text"
  | levelText (hop : op.isOrdering = false) (ht : ∀ t, ¬v.HasText t) :
      Misfits op named v .level "expected text"
  | levelName (hop : op.isOrdering = true) (ht : ∀ t, ¬v.HasText t) :
      Misfits op named v .level "expected a level name"
  | level {t : String} (hop : op.isOrdering = true) (ht : v.HasText t)
      (hl : ∀ l : Level, ¬l.Named t) :
      Misfits op named v .level ("unknown confidence level `" ++ t ++ "`")
  | containment {p : Property} (hp : p = .score ∨ p = .signalCount) (hop : op = .contains) :
      Misfits op named v p "`contains` does not apply to numbers"
  | number {p : Property} (hp : p = .score ∨ p = .signalCount) (hop : op ≠ .contains)
      (hx : ∀ x, ¬v.HasNumber x) : Misfits op named v p "expected a number"

/-- The fault of a condition in the rule of a name: the property is judged before the operator, and
the operator before the value. -/
inductive ConditionDocument.Refused (rule : String) (c : ConditionDocument) : StoreFault → Prop
  | property (hp : ∀ p : Property, ¬p.Named c.property) :
      Refused rule c (.unknownProperty rule c.property)
  | operator {p : Property} (hp : p.Named c.property)
      (hop : ∀ op : Operator, ¬op.Named c.operator) :
      Refused rule c (.unknownOperator rule c.operator)
  | value {p : Property} {op : Operator} {reason : String} (hp : p.Named c.property)
      (hop : op.Named c.operator) (hv : Misfits op c.operator c.value p reason) :
      Refused rule c (.invalidValue rule c.property reason)

/-- The fault of a rule: that of the decision, or else that of the first condition that is not well
formed. -/
inductive RuleDocument.Refused (r : RuleDocument) : StoreFault → Prop
  | decision (hd : ∀ decision, Decision.ofName? r.decision ≠ some decision) :
      Refused r (.unknownDecision r.name r.decision)
  | condition {before after : List ConditionDocument} {c : ConditionDocument} {e : StoreFault}
      (hd : ∃ decision, Decision.ofName? r.decision = some decision)
      (hsplit : r.conditions = before ++ c :: after) (hbefore : ∀ q ∈ before, q.WellFormed)
      (hc : c.Refused r.name e) : Refused r e

/-- The rule that a fault names. -/
def StoreFault.ruleName? : StoreFault → Option String
  | json | yaml | unreadable _ => none
  | unknownProperty rule _ | unknownOperator rule _ | unknownDecision rule _
  | invalidValue rule _ _ => some rule

end IntentGate
