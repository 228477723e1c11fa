import IntentGate.Text.LowerCase
import Mathlib.Data.List.Infix

/-!
# Lower case within a longer text

A part of a text is lowered as it is alone, but for its capital sigmas: whether one of them ends a
word depends on the nearest characters on both sides that case rules do not look through, and these
may stand outside of the part. `Settled` says of a text that they do not, as far as it matters.
Lowered, such a text is found in every longer text that contains it, and no other text is
(`settledFrom_iff`): a sigma that ends a word no longer does when a letter follows, and one that
begins a word may end it when a letter comes before. Either change takes a character from the
lowered text that nothing else makes up for, so it is counted there.
-/

namespace IntentGate.Text

variable {before after cs p q : List Char} {c : Char}

/-! ## The next cased character -/

/-- Membership in a table is computed fastest along a list. -/
theorem CharSet.contains_eq_any (s : CharSet) (c : Char) :
    s.contains c = s.ranges.toList.any fun r => r.1 ≤ c.toNat && c.toNat ≤ r.2 := by
  rw [contains, Array.any_toList]

/-- Some character is not looked through by case rules. -/
def Visible (cs : List Char) : Prop :=
  ∃ c ∈ cs, CharSet.caseIgnorable.contains c = false

theorem visible_cons : Visible (c :: cs) ↔ CharSet.caseIgnorable.contains c = false ∨ Visible cs :=
  List.exists_mem_cons_iff _ _ _

theorem casedNext_cons (c : Char) (cs : List Char) :
    casedNext (c :: cs) =
      if CharSet.caseIgnorable.contains c then casedNext cs else CharSet.cased.contains c := by
  unfold casedNext
  by_cases hc : CharSet.caseIgnorable.contains c = true
  · rw [List.dropWhile_cons_of_pos hc, if_pos hc]
  · rw [List.dropWhile_cons_of_neg hc, if_neg hc]

theorem Visible.casedNext_append (h : Visible cs) (q : List Char) :
    casedNext (cs ++ q) = casedNext cs := by
  induction cs with
  | nil =>
    obtain ⟨c, hc, -⟩ := h
    cases hc
  | cons c rest ih =>
    rw [List.cons_append, casedNext_cons, casedNext_cons]
    split
    · next hc =>
      refine ih ((visible_cons.1 h).resolve_left ?_)
      rw [hc]
      exact Bool.noConfusion
    · rfl

theorem casedNext_append_of_not_visible (h : ¬Visible cs) (q : List Char) :
    casedNext (cs ++ q) = casedNext q := by
  induction cs with
  | nil => rfl
  | cons c rest ih =>
    rw [visible_cons, not_or, Bool.not_eq_false] at h
    rw [List.cons_append, casedNext_cons, if_pos h.1, ih h.2]

theorem casedNext_of_not_visible (h : ¬Visible cs) : casedNext cs = false := by
  have happend := casedNext_append_of_not_visible h []
  rwa [List.append_nil] at happend

theorem visible_of_casedNext (h : casedNext cs = true) : Visible cs := by
  by_contra hnot
  rw [casedNext_of_not_visible hnot] at h
  cases h

/-- What follows makes no difference if no cased character comes next there. -/
theorem casedNext_append_of_not_cased (cs : List Char) (h : casedNext q = false) :
    casedNext (cs ++ q) = casedNext cs := by
  by_cases hcs : Visible cs
  · exact hcs.casedNext_append q
  · rw [casedNext_append_of_not_visible hcs, h, casedNext_of_not_visible hcs]

/-! ## One capital sigma -/

/-- A capital sigma ends a word between `before`, nearest first, and `after`. -/
def endsWord (before after : List Char) : Bool :=
  casedNext before && !casedNext after

/-- The small sigma, final or not. -/
def smallSigma (final : Bool) : Char :=
  Char.ofNat (if final then 0x3C2 else 0x3C3)

theorem smallSigma_inj {b b' : Bool} : smallSigma b = smallSigma b' ↔ b = b' := by
  cases b <;> cases b' <;> decide

/-- Nothing put around a capital sigma and its neighbours changes whether it ends a word. -/
def SettledAt (before after : List Char) : Prop :=
  casedNext after = true ∨ Visible before ∧ (Visible after ∨ casedNext before = false)

theorem SettledAt.endsWord_eq (h : SettledAt before after) (p q : List Char) :
    endsWord (before ++ p) (after ++ q) = endsWord before after := by
  unfold endsWord
  rcases h with hafter | ⟨hbefore, hafter | hcased⟩
  · rw [(visible_of_casedNext hafter).casedNext_append, hafter, Bool.not_true, Bool.and_false,
      Bool.and_false]
  · rw [hbefore.casedNext_append, hafter.casedNext_append]
  · rw [hbefore.casedNext_append, hcased, Bool.false_and, Bool.false_and]

theorem endsWord_append_of_not_cased (hp : casedNext p = false) (hq : casedNext q = false) :
    endsWord (before ++ p) (after ++ q) = endsWord before after := by
  rw [endsWord, casedNext_append_of_not_cased before hp, casedNext_append_of_not_cased after hq,
    endsWord]

/-- A word that ends in front of certain characters also ends without them. -/
theorem endsWord_of_append_after (h : endsWord before (after ++ q) = true) :
    endsWord before after = true := by
  simp only [endsWord, Bool.and_eq_true, Bool.not_eq_true'] at h ⊢
  refine ⟨h.1, ?_⟩
  by_cases hafter : Visible after
  · rw [← hafter.casedNext_append q, h.2]
  · exact casedNext_of_not_visible hafter

/-- A word that does not end with certain characters in front of it does not end without them. -/
theorem endsWord_of_append_before (h : endsWord (before ++ p) after = false) :
    endsWord before after = false := by
  by_contra hends
  simp only [endsWord, Bool.not_eq_false, Bool.and_eq_true] at hends
  rw [endsWord, (visible_of_casedNext hends.1).casedNext_append, hends.1, hends.2] at h
  cases h

/-- A sigma that a letter on neither side changes is settled. -/
theorem settledAt_of_letters (hp : casedNext p = true) (hq : casedNext q = true)
    (hafter : endsWord before after = true → endsWord before (after ++ q) = true)
    (hbefore : endsWord before after = false → endsWord (before ++ p) after = false) :
    SettledAt before after := by
  unfold endsWord at hafter hbefore
  by_contra hnot
  rw [SettledAt, not_or, not_and_or, not_or, Bool.not_eq_true, Bool.not_eq_false] at hnot
  obtain ⟨hcased, hopen | ⟨hopen, hword⟩⟩ := hnot
  · rw [casedNext_append_of_not_visible hopen, casedNext_of_not_visible hopen, hp, hcased] at hbefore
    cases hbefore rfl
  · rw [casedNext_append_of_not_visible hopen, hword, hcased, hq] at hafter
    cases hafter rfl

/-! ## One character -/

/-- What a character becomes between `before`, nearest first, and `after`. -/
def lowerAt (before : List Char) (c : Char) (after : List Char) : List Char :=
  if c.toNat = 0x3A3 then [smallSigma (endsWord before after)] else lowerChar c

theorem lowerAt_congr {before' after' : List Char}
    (h : c.toNat = 0x3A3 → endsWord before after = endsWord before' after') :
    lowerAt before c after = lowerAt before' c after' := by
  unfold lowerAt
  split
  · next hc => rw [h hc]
  · rfl

section Counting

variable {before' after' : List Char} {final : Bool}

theorem count_lowerAt_sigma (hc : c.toNat = 0x3A3) :
    (lowerAt before c after).count (smallSigma final) =
      if endsWord before after = final then 1 else 0 := by
  rw [lowerAt, if_pos hc, List.count_singleton]
  simp only [beq_iff_eq, smallSigma_inj]

theorem count_lowerAt_le (h : endsWord before' after' = final → endsWord before after = final) :
    (lowerAt before' c after').count (smallSigma final) ≤
      (lowerAt before c after).count (smallSigma final) := by
  by_cases hc : c.toNat = 0x3A3
  · rw [count_lowerAt_sigma hc, count_lowerAt_sigma hc]
    split
    · next hends => rw [if_pos (h hends)]
    · exact Nat.zero_le _
  · rw [lowerAt, if_neg hc, lowerAt, if_neg hc]

theorem endsWord_of_count_le (hc : c.toNat = 0x3A3)
    (h : (lowerAt before c after).count (smallSigma final) ≤
      (lowerAt before' c after').count (smallSigma final))
    (hends : endsWord before after = final) : endsWord before' after' = final := by
  by_contra hnot
  rw [count_lowerAt_sigma hc, count_lowerAt_sigma hc, if_pos hends, if_neg hnot] at h
  cases h

end Counting

/-! ## Parts of a text -/

/-- Lower case of the characters `cs`, with `before`, nearest first, in front of them and `after`
behind. -/
def lowerBetween (before : List Char) : List Char → List Char → List Char
  | [], _ => []
  | c :: rest, after => lowerAt before c (rest ++ after) ++ lowerBetween (c :: before) rest after

theorem lowerCaseFrom_cons (before : List Char) (c : Char) (rest : List Char) :
    lowerCaseFrom before (c :: rest) =
      lowerAt before c rest ++ lowerCaseFrom (c :: before) rest :=
  rfl

theorem lowerCaseFrom_append (before cs after : List Char) :
    lowerCaseFrom before (cs ++ after) =
      lowerBetween before cs after ++ lowerCaseFrom (cs.reverse ++ before) after := by
  induction cs generalizing before with
  | nil => rfl
  | cons c rest ih =>
    rw [List.cons_append, lowerCaseFrom_cons, ih, lowerBetween, List.append_assoc,
      List.reverse_cons, List.append_assoc]
    rfl

theorem lowerBetween_infix (p cs q : List Char) :
    lowerBetween p.reverse cs q <:+: lowerCaseFrom [] (p ++ cs ++ q) := by
  rw [List.append_assoc, lowerCaseFrom_append, lowerCaseFrom_append, List.append_nil]
  exact ⟨_, _, List.append_assoc _ _ _⟩

/-- Between parts where no cased character comes next, a text is lowered as it is alone. -/
theorem lowerBetween_of_not_cased (before cs : List Char) (hp : casedNext p = false)
    (hq : casedNext q = false) : lowerBetween (before ++ p) cs q = lowerCaseFrom before cs := by
  induction cs generalizing before with
  | nil => rfl
  | cons c rest ih =>
    rw [lowerBetween, lowerCaseFrom_cons, ← ih (c :: before), List.cons_append]
    exact congrArg (· ++ _) (lowerAt_congr fun _ => endsWord_append_of_not_cased hp hq)

/-! ## Settled texts -/

/-- All capital sigmas among the characters `cs` are settled, with `before`, nearest first, standing
in front of them. -/
def SettledFrom (before : List Char) : List Char → Prop
  | [] => True
  | c :: rest => (c.toNat = 0x3A3 → SettledAt before rest) ∧ SettledFrom (c :: before) rest

/-- All capital sigmas of a text are settled by what stands around them in the text itself. -/
def Settled (s : String) : Prop :=
  SettledFrom [] s.toList

theorem SettledFrom.lowerBetween_eq (h : SettledFrom before cs) (p q : List Char) :
    lowerBetween (before ++ p) cs q = lowerCaseFrom before cs := by
  induction cs generalizing before with
  | nil => rfl
  | cons c rest ih =>
    rw [lowerBetween, lowerCaseFrom_cons, ← ih h.2, List.cons_append]
    exact congrArg (· ++ _) (lowerAt_congr fun hc => (h.1 hc).endsWord_eq p q)

/-- Characters put behind a text make no sigma final. -/
theorem count_lowerBetween_le (before cs q : List Char) :
    (lowerBetween before cs q).count (smallSigma true) ≤
      (lowerCaseFrom before cs).count (smallSigma true) := by
  induction cs generalizing before with
  | nil => exact Nat.le_refl 0
  | cons c rest ih =>
    rw [lowerBetween, lowerCaseFrom_cons, List.count_append, List.count_append]
    exact Nat.add_le_add (count_lowerAt_le endsWord_of_append_after) (ih (c :: before))

/-- Characters put in front of a text make no final sigma another one. -/
theorem count_lowerCaseFrom_append_le (before p cs : List Char) :
    (lowerCaseFrom (before ++ p) cs).count (smallSigma false) ≤
      (lowerCaseFrom before cs).count (smallSigma false) := by
  induction cs generalizing before with
  | nil => exact Nat.le_refl 0
  | cons c rest ih =>
    rw [lowerCaseFrom_cons, lowerCaseFrom_cons, List.count_append, List.count_append]
    exact Nat.add_le_add (count_lowerAt_le endsWord_of_append_before) (ih (c :: before))

/-- A text whose sigmas keep their numbers when a letter is put behind it or in front of it is
settled. -/
theorem settledFrom_of_count_le (hp : casedNext p = true) (hq : casedNext q = true)
    (hbehind : (lowerCaseFrom before cs).count (smallSigma true) ≤
      (lowerBetween before cs q).count (smallSigma true))
    (hfront : (lowerCaseFrom before cs).count (smallSigma false) ≤
      (lowerCaseFrom (before ++ p) cs).count (smallSigma false)) :
    SettledFrom before cs := by
  induction cs generalizing before with
  | nil => trivial
  | cons c rest ih =>
    rw [lowerBetween, lowerCaseFrom_cons, List.count_append, List.count_append] at hbehind
    rw [lowerCaseFrom_cons, lowerCaseFrom_cons, List.count_append, List.count_append] at hfront
    -- neither the first character nor the rest can make up for the other
    have hrestBehind := count_lowerBetween_le (c :: before) rest q
    have hrestFront := count_lowerCaseFrom_append_le (c :: before) p rest
    have hheadBehind : (lowerAt before c (rest ++ q)).count (smallSigma true) ≤
        (lowerAt before c rest).count (smallSigma true) :=
      count_lowerAt_le endsWord_of_append_after
    have hheadFront : (lowerAt (before ++ p) c rest).count (smallSigma false) ≤
        (lowerAt before c rest).count (smallSigma false) :=
      count_lowerAt_le endsWord_of_append_before
    rw [← List.cons_append] at hfront
    refine ⟨fun hc => ?_, ih (by omega) (by omega)⟩
    exact settledAt_of_letters hp hq (endsWord_of_count_le hc (by omega))
      (endsWord_of_count_le hc (by omega))

/-- Lowered, a text is found in all texts that contain it exactly if it is settled. -/
theorem settledFrom_iff (cs : List Char) :
    SettledFrom [] cs ↔ ∀ p q, lowerCaseFrom [] cs <:+: lowerCaseFrom [] (p ++ cs ++ q) := by
  constructor
  · intro h p q
    rw [← h.lowerBetween_eq p.reverse q]
    exact lowerBetween_infix p cs q
  · intro h
    have hletter : casedNext ['A'] = true := by
      simp only [casedNext_cons, CharSet.contains_eq_any]
      decide +kernel
    have hbehind := (h [] ['A']).sublist.count_le (smallSigma true)
    have hfront := (h ['A'] []).sublist.count_le (smallSigma false)
    have hlower (before after : List Char) : lowerAt before 'A' after = ['a'] := rfl
    have hnone (final : Bool) : ['a'].count (smallSigma final) = 0 := by cases final <;> decide
    rw [List.nil_append, lowerCaseFrom_append, lowerCaseFrom_cons, lowerCaseFrom, hlower,
      List.append_nil, List.count_append, hnone, Nat.add_zero] at hbehind
    rw [List.append_nil, List.singleton_append, lowerCaseFrom_cons, hlower, List.count_append,
      hnone, Nat.zero_add] at hfront
    exact settledFrom_of_count_le hletter hletter hbehind hfront

end IntentGate.Text
