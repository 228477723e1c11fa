import IntentGate.Proofs.Double.Difference
import IntentGate.Proofs.Policy.LevelNames

/-!
# Operators on one value

How the operators answer about one property of one intent and one value. Three pairs are opposed: of
each, one holds exactly where the other does not (`Opposed.holds_eq`). On levels, one of smaller,
equal and greater holds (`existsUnique_matches_level`), although equality compares names and the
orders compare ranks.

On numbers this is not so. Equality has a tolerance and the orders have none, so near the value
equality holds beside whichever orders do (`relatesNumbers_iff_of_near`). Which ones do depends on
how the number compares with the value.
-/

namespace IntentGate

/-! ## Values that fit -/

theorem Json.HasNumber.isFinite {v : Json} {x : Float} (h : v.HasNumber x) :
    x.isFinite = true := by
  cases h <;> assumption

theorem Fits.unique {op : Operator} {v : Json} {p : Property} {e e' : Expected}
    (h : Fits op v p e) (h' : Fits op v p e') : e = e' := by
  have hcompile {e : Expected} (h : Fits op v p e) :
      Condition.expectation p op ⟨p.path, op.word, v⟩ = .ok e :=
    Condition.expectation_of_fits h
  exact Except.ok.inj ((hcompile h).symm.trans (hcompile h'))

/-- Which values fit depends on the operator only as far as it is an order or containment. -/
theorem Fits.of_operator {op op' : Operator} {v : Json} {p : Property} {e : Expected}
    (h : Fits op v p e) (hordering : op.isOrdering = op'.isOrdering) (hcontains : op' ≠ .contains) :
    Fits op' v p e := by
  cases h with
  | name hop ht => exact .name (hordering ▸ hop) ht
  | levelName hop ht => exact .levelName (hordering ▸ hop) ht
  | levelRank hop hl => exact .levelRank (hordering ▸ hop) hl
  | score _ hx => exact .score hcontains hx
  | signalCount _ hx => exact .signalCount hcontains hx

/-! ## Conditions that ask one thing -/

namespace Condition

/-- What the conditions compile to that put an operator and a value to a property, in whichever rule
and by whichever names. -/
def Compiled (p : Property) (op : Operator) (v : Json) (k : Condition) : Prop :=
  ∃ rule path word, p.Named path ∧ op.Named word ∧ compile rule ⟨path, word, v⟩ = .ok k

/-- Such a condition compiles, and the intent passes it. -/
def Matches (p : Property) (op : Operator) (v : Json) (i : Intent) : Prop :=
  ∃ k, Compiled p op v k ∧ k.holds i = true

variable {p : Property} {op : Operator} {v : Json} {i : Intent} {k : Condition} {e : Expected}

theorem compiled_iff : Compiled p op v k ↔ ∃ e, Fits op v p e ∧ k = ⟨p, op, e⟩ := by
  constructor
  · rintro ⟨rule, path, word, hp, hop, hk⟩
    obtain ⟨hp', hop', hfits⟩ := compile_ok_iff.1 hk
    obtain ⟨p', op', e⟩ := k
    obtain rfl := hp'.unique hp
    obtain rfl := hop'.unique hop
    exact ⟨e, hfits, rfl⟩
  · rintro ⟨e, hfits, rfl⟩
    -- a property is named by its path and an operator by its word
    have hpath : p.Named p.path := by cases p <;> decide +kernel
    have hword : op.Named op.word := by cases op <;> decide +kernel
    exact ⟨"", p.path, op.word, hpath, hword, compile_of_fits "" hpath hword hfits⟩

theorem compiled_exists_iff : (∃ k, Compiled p op v k) ↔ ∃ e, Fits op v p e := by
  simp only [compiled_iff]
  constructor
  · rintro ⟨k, e, hfits, -⟩
    exact ⟨e, hfits⟩
  · rintro ⟨e, hfits⟩
    exact ⟨_, e, hfits, rfl⟩

theorem matches_iff_of_fits (h : Fits op v p e) :
    Matches p op v i ↔ holds ⟨p, op, e⟩ i = true := by
  constructor
  · rintro ⟨k, hk, hholds⟩
    obtain ⟨e', hfits, rfl⟩ := compiled_iff.1 hk
    rw [h.unique hfits]
    exact hholds
  · exact fun hholds => ⟨_, compiled_iff.2 ⟨e, h, rfl⟩, hholds⟩

end Condition

/-! ## Opposed operators -/

/-- Operators that are to hold exactly where the other one does not. -/
inductive Operator.Opposed : Operator → Operator → Prop
  | ne_eq : Opposed .ne .eq
  | lte_gt : Opposed .lte .gt
  | gte_lt : Opposed .gte .lt

namespace Operator.Opposed

variable {op op' : Operator} {p : Property} {v : Json} {e : Expected}

theorem fits_iff (h : op.Opposed op') : Fits op v p e ↔ Fits op' v p e := by
  have hordering : op.isOrdering = op'.isOrdering := by cases h <;> rfl
  have hcontains : op ≠ .contains ∧ op' ≠ .contains := by cases h <;> decide
  exact ⟨fun hfits => hfits.of_operator hordering hcontains.2,
    fun hfits => hfits.of_operator hordering.symm hcontains.1⟩

theorem matchesText_eq (h : op.Opposed op') (htext : op.isOrdering = false)
    (actual expected : String) :
    Condition.matchesText op actual expected = !Condition.matchesText op' actual expected := by
  cases h with
  | ne_eq => rfl
  | lte_gt | gte_lt => cases htext

theorem compare_eq (h : op.Opposed op') (horder : op.isOrdering = true) (actual expected : Nat) :
    op.compare actual expected = !op'.compare actual expected := by
  have hopposed (a b : Nat) : decide (a ≤ b) = !decide (b < a) := by
    rw [← decide_not, decide_eq_decide, Nat.not_lt]
  cases h with
  | ne_eq => cases horder
  | lte_gt => exact hopposed actual expected
  | gte_lt => exact hopposed expected actual

/-- Finite doubles always compare, and so does how far they are apart with the tolerance. -/
theorem matchesNumber_eq (h : op.Opposed op') {actual expected : Float}
    (hactual : actual.isNaN = false) (hexpected : expected.isFinite = true) :
    Condition.matchesNumber op actual expected =
      !Condition.matchesNumber op' actual expected := by
  have hnumber := Double.isNaN_of_isFinite hexpected
  have hopposed {a b : Float} (ha : a.isNaN = false) (hb : b.isNaN = false) :
      decide (a ≤ b) = !decide (b < a) := by
    rw [← decide_not, decide_eq_decide, Double.lt_iff_not_le hb ha, not_not]
  have htolerance : Condition.tolerance.isNaN = false := by decide +kernel
  have hapart : (actual - expected).abs.isNaN = false := by
    rw [Double.isNaN_abs]
    exact Double.isNaN_sub hactual hexpected
  cases h with
  | ne_eq => exact hopposed htolerance hapart
  | lte_gt => exact hopposed hactual hnumber
  | gte_lt => exact hopposed hnumber hactual

/-- Of two opposed operators, one holds of an intent exactly if the other does not. -/
theorem holds_eq (h : op.Opposed op') (hfits : Fits op v p e) {i : Intent}
    (hi : i.score.isFinite = true) :
    Condition.holds ⟨p, op, e⟩ i = !Condition.holds ⟨p, op', e⟩ i := by
  cases hfits with
  | name hop ht => exact h.matchesText_eq hop ..
  | levelName hop ht => exact h.matchesText_eq hop ..
  | levelRank hop hl => exact h.compare_eq hop ..
  | score _ hx => exact h.matchesNumber_eq (Double.isNaN_of_isFinite hi) hx.isFinite
  | signalCount _ hx => exact h.matchesNumber_eq (Double.isNaN_ofNat _) hx.isFinite

end Operator.Opposed

/-! ## Levels -/

namespace Condition

variable {v : Json} {l : Level}

/-- The orders take the values that name a level. -/
theorem exists_namesLevel {op : Operator} {k : Condition} (hop : op.isOrdering = true)
    (h : Compiled .level op v k) : ∃ l, v.NamesLevel l := by
  obtain ⟨e, hfits, -⟩ := compiled_iff.1 h
  cases hfits with
  | levelName htext _ => rw [hop] at htext; cases htext
  | levelRank _ hl => exact ⟨_, Json.hasLevel_iff.1 hl⟩

theorem fits_of_namesLevel {op : Operator} (h : v.NamesLevel l) : ∃ e, Fits op v .level e := by
  obtain ⟨t, ht, hl⟩ := Json.hasLevel_iff.2 h
  cases hop : op.isOrdering with
  | true => exact ⟨_, .levelRank hop ⟨t, ht, hl⟩⟩
  | false => exact ⟨_, .levelName hop ht⟩

theorem matches_level_eq_iff (h : v.NamesLevel l) (i : Intent) :
    Matches .level .eq v i ↔ i.level = l := by
  obtain ⟨t, ht, -⟩ := Json.hasLevel_iff.2 h
  rw [matches_iff_of_fits (.levelName rfl ht), holds_level_eq_iff ht]
  constructor
  · exact fun hi => hi.unique h
  · rintro rfl
    exact h

theorem matches_level_lt_iff (h : v.NamesLevel l) (i : Intent) :
    Matches .level .lt v i ↔ i.level.rank < l.rank := by
  rw [matches_iff_of_fits (.levelRank rfl (Json.hasLevel_iff.2 h))]
  exact decide_eq_true_iff

theorem matches_level_gt_iff (h : v.NamesLevel l) (i : Intent) :
    Matches .level .gt v i ↔ l.rank < i.level.rank := by
  rw [matches_iff_of_fits (.levelRank rfl (Json.hasLevel_iff.2 h))]
  exact decide_eq_true_iff

/-- Of a level, one of smaller, equal and greater holds. -/
theorem existsUnique_matches_level (h : v.NamesLevel l) (i : Intent) :
    ∃! op : Operator, op ∈ [.lt, .eq, .gt] ∧ Matches .level op v i := by
  have hlt := matches_level_lt_iff h i
  have heq := matches_level_eq_iff h i
  have hgt := matches_level_gt_iff h i
  -- the level stands on one side of the named one, and only the operator of that side matches
  have hside : ∃ side : Operator, side ∈ [.lt, .eq, .gt] ∧
      ∀ op ∈ [.lt, .eq, .gt], Matches .level op v i ↔ op = side := by
    simp only [List.forall_mem_cons, hlt, heq, hgt]
    rcases Nat.lt_trichotomy i.level.rank l.rank with h | h | h
    · have hne : i.level ≠ l := by rintro rfl; omega
      exact ⟨.lt, by simp, by simp [h], by simp [hne], by simp [Nat.le_of_lt h]⟩
    · obtain rfl := Level.rank_injective h
      exact ⟨.eq, by simp⟩
    · have hne : i.level ≠ l := by rintro rfl; omega
      exact ⟨.gt, by simp, by simp [Nat.le_of_lt h], by simp [hne], by simp [h]⟩
  obtain ⟨side, hmem, hiff⟩ := hside
  exact ⟨side, ⟨hmem, (hiff side hmem).2 rfl⟩, fun op hop => (hiff op hop.1).1 hop.2⟩

/-- The operators are coherent. Opposed ones compile with the same values, and of an intent with a
finite score one of them holds exactly if the other does not. On levels, a value that some order
takes is taken by equality and by all orders, and one of smaller, equal and greater matches. -/
theorem operators_coherent (p : Property) (v : Json) {i : Intent}
    (hi : i.score.isFinite = true) :
    (∀ op op', op.Opposed op' →
      ((∃ k, Compiled p op v k) ↔ ∃ k, Compiled p op' v k) ∧
      ∀ k k', Compiled p op v k → Compiled p op' v k' → k.holds i = !k'.holds i) ∧
    ∀ op : Operator, op.isOrdering = true → (∃ k, Compiled .level op v k) →
      (∀ op', ∃ k, Compiled .level op' v k) ∧
      ∃! op' : Operator, op' ∈ [.lt, .eq, .gt] ∧ Matches .level op' v i := by
  constructor
  · intro op op' h
    constructor
    · simp only [compiled_exists_iff, h.fits_iff]
    · intro k k' hk hk'
      obtain ⟨e, hfits, rfl⟩ := compiled_iff.1 hk
      obtain ⟨e', hfits', rfl⟩ := compiled_iff.1 hk'
      obtain rfl := (h.fits_iff.1 hfits).unique hfits'
      exact h.holds_eq hfits hi
  · rintro op hop ⟨k, hk⟩
    obtain ⟨l, hl⟩ := exists_namesLevel hop hk
    exact ⟨fun op' => compiled_exists_iff.2 (fits_of_namesLevel hl),
      existsUnique_matches_level hl i⟩

/-- A padded name in capitals, about a level that is lower. -/
theorem operators_coherent_padded :
    let i : Intent := ⟨"login", [], ⟨0.5, .medium⟩, none⟩
    i.score.isFinite = true ∧ Operator.gte.isOrdering = true ∧
      (∃ k, Compiled .level .gte (.text "\tHIGH ") k) ∧
      ∃! op : Operator, op ∈ [.lt, .eq, .gt] ∧ Matches .level op (.text "\tHIGH ") i := by
  intro i
  have hi : i.score.isFinite = true := by decide +kernel
  have hhigh : (Json.text "\tHIGH ").NamesLevel .high :=
    Json.namesLevel_text_iff.2 (by decide +kernel)
  have hk : ∃ k, Compiled .level .gte (.text "\tHIGH ") k :=
    compiled_exists_iff.2 (fits_of_namesLevel hhigh)
  exact ⟨hi, rfl, hk, ((operators_coherent .level _ hi).2 .gte rfl hk).2⟩

end Condition

/-! ## Numbers -/

namespace Operator

variable {op : Operator} {a x : Float}

theorem orders_iff_of_beq (h : (a == x) = true) : op.Orders a x ↔ op = .gte ∨ op = .lte := by
  obtain ⟨hle, hge⟩ := Double.beq_iff_le.1 h
  have hgt := Double.not_lt_of_le hle
  have hlt := Double.not_lt_of_le hge
  cases op <;> simp [Orders, hle, hge, hgt, hlt]

theorem orders_iff_of_lt (h : a < x) : op.Orders a x ↔ op = .lt ∨ op = .lte := by
  have hle := Double.le_of_lt h
  have hgt := Double.not_lt_of_le hle
  have hge : ¬x ≤ a := fun hge => Double.not_lt_of_le hge h
  cases op <;> simp [Orders, h, hle, hgt, hge]

theorem orders_iff_of_gt (h : x < a) : op.Orders a x ↔ op = .gt ∨ op = .gte := by
  have hge := Double.le_of_lt h
  have hlt := Double.not_lt_of_le hge
  have hle : ¬a ≤ x := fun hle => Double.not_lt_of_le hle h
  cases op <;> simp [Orders, h, hge, hlt, hle]

/-- Within the tolerance, equality holds beside the orders that do. -/
theorem relatesNumbers_iff_of_near (h : (a - x).abs < 1e-9) :
    op.RelatesNumbers a x ↔ op = .eq ∨ op.Orders a x := by
  have hfar : ¬1e-9 ≤ (a - x).abs := fun hfar => Double.not_lt_of_le hfar h
  cases op <;> simp [RelatesNumbers, Orders, h, hfar]

end Operator

/-- The number of an intent that a property compares. -/
def Property.number? (p : Property) (i : Intent) : Option Float :=
  match p with
  | score => some i.score
  | signalCount => some (Float.ofNat i.signals.length)
  | name | level => none

theorem Fits.of_number {op : Operator} {v : Json} {p : Property} {i : Intent} {a x : Float}
    (ha : p.number? i = some a) (hx : v.HasNumber x) (hop : op ≠ .contains) :
    Fits op v p (.number x) := by
  cases p with
  | score => exact .score hop hx
  | signalCount => exact .signalCount hop hx
  | name | level => cases ha

namespace Condition

section Numbers

variable {p : Property} {op : Operator} {v : Json} {i : Intent} {a x : Float}
  (ha : p.number? i = some a) (hx : v.HasNumber x)

include ha hx

theorem matches_number_iff : Matches p op v i ↔ op.RelatesNumbers a x := by
  by_cases hop : op = .contains
  · subst hop
    refine iff_of_false ?_ id
    rintro ⟨k, hk, -⟩
    obtain ⟨e, hfits, -⟩ := compiled_iff.1 hk
    cases hfits with
    | name | levelName | levelRank => cases ha
    | score hop _ | signalCount hop _ => exact hop rfl
  · rw [matches_iff_of_fits (Fits.of_number ha hx hop)]
    obtain ⟨b, hb, hiff⟩ := matchesNumber?_answers hop a x
    have hholds : holds ⟨p, op, .number x⟩ i = matchesNumber op a x := by
      cases p with
      | score | signalCount => cases ha; rfl
      | name | level => cases ha
    rw [hholds, matchesNumber_eq_getD, hb]
    exact hiff

theorem matches_iff_of_near (h : (a - x).abs < 1e-9) :
    Matches p op v i ↔ op = .eq ∨ op.Orders a x := by
  rw [matches_number_iff ha hx, Operator.relatesNumbers_iff_of_near h]

/-- Equality is tolerant, and the orders are exact. It matches up to a billionth. If the number is
the value, both weak orders match with it and no strict one; if it is smaller or greater, so does
the strict order of that side, with its weak one, and no other. Whole numbers of signals are too far
apart for the tolerance, so there equality matches the value only. -/
theorem equality_within_tolerance :
    (∀ op, op ≠ .contains → ∃ k, Compiled p op v k) ∧
    (Matches p .eq v i ↔ (a - x).abs < 1e-9) ∧
    ((a == x) = true → ∀ op, Matches p op v i ↔ op ∈ [.eq, .gte, .lte]) ∧
    (Matches p .eq v i → ¬(a == x) = true →
      (a < x ∧ ∀ op, Matches p op v i ↔ op ∈ [.eq, .lt, .lte]) ∨
        (x < a ∧ ∀ op, Matches p op v i ↔ op ∈ [.eq, .gt, .gte])) ∧
    ∀ m : Nat, p = .signalCount → i.signals.length < 2 ^ 53 → m < 2 ^ 53 → x = Float.ofNat m →
      (Matches p .eq v i ↔ i.signals.length = m) := by
  have hequal : Matches p .eq v i ↔ (a - x).abs < 1e-9 := matches_number_iff ha hx
  refine ⟨fun op hop => ?_, hequal, fun h op => ?_, fun h hne => ?_, ?_⟩
  · exact compiled_exists_iff.2 ⟨_, Fits.of_number ha hx hop⟩
  · have hnear : (a - x).abs < 1e-9 := by
      rw [Double.abs_sub_of_beq hx.isFinite h]
      decide +kernel
    rw [matches_iff_of_near ha hx hnear, Operator.orders_iff_of_beq h]
    simp
  · have hnear := hequal.1 h
    have hnumber := Double.isNaN_of_abs_sub_lt hnear
    rcases Double.lt_or_beq_or_gt hnumber (Double.isNaN_of_isFinite hx.isFinite) with
      hlt | heq | hgt
    · refine .inl ⟨hlt, fun op => ?_⟩
      rw [matches_iff_of_near ha hx hnear, Operator.orders_iff_of_lt hlt]
      simp
    · exact absurd heq hne
    · refine .inr ⟨hgt, fun op => ?_⟩
      rw [matches_iff_of_near ha hx hnear, Operator.orders_iff_of_gt hgt]
      simp
  · rintro m rfl hlength hm rfl
    obtain rfl := Option.some.inj ha
    rw [hequal]
    exact Double.abs_sub_ofNat_lt_iff hlength hm (by decide +kernel) (by decide +kernel)

end Numbers

/-- Three signals, and a condition that asks for three. -/
theorem equality_within_tolerance_three :
    let signals : List Signal := List.replicate 3 ⟨"rule", "seen", 1⟩
    let i : Intent := ⟨"login", signals, ⟨0.5, .medium⟩, none⟩
    let v : Json := .number (.int 3)
    Property.signalCount.number? i = some (Float.ofNat 3) ∧ v.HasNumber (Float.ofNat 3) ∧
      ∀ op, Matches .signalCount op v i ↔ op ∈ [.eq, .gte, .lte] := by
  intro signals i v
  have hx : v.HasNumber (Float.ofNat 3) := .number (by decide +kernel)
  exact ⟨rfl, hx, (equality_within_tolerance (a := Float.ofNat 3) rfl hx).2.2.1 (by decide +kernel)⟩

/-- A score that is slightly greater than asked for matches under equality and under the strict
order, and under the weak order of the other side it does not. -/
theorem equality_matches_beside_strict_order :
    let i : Intent := ⟨"login", [], ⟨0.1 + 0.2, .low⟩, none⟩
    let v : Json := .number (.real 0.3)
    v.HasNumber 0.3 ∧ Matches .score .eq v i ∧ Matches .score .gt v i ∧
      ¬Matches .score .lte v i := by
  intro i v
  have hx : v.HasNumber 0.3 := .number (by decide +kernel)
  have ha : Property.score.number? i = some (0.1 + 0.2) := rfl
  simp only [matches_number_iff ha hx]
  refine ⟨hx, ?_, ?_, ?_⟩
  · change ((0.1 + 0.2 : Float) - 0.3).abs < 1e-9
    decide +kernel
  · change (0.3 : Float) < 0.1 + 0.2
    decide +kernel
  · change ¬(0.1 + 0.2 : Float) ≤ 0.3
    decide +kernel

end Condition

end IntentGate
