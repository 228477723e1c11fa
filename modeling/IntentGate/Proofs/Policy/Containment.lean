import IntentGate.Proofs.Policy.Compilation
import IntentGate.Proofs.Text.FinalSigma
import IntentGate.Proofs.Text.Matching

/-!
# Searching names

A condition lowers its value when it is compiled and the name of an intent when it is put to it, each
as a whole. For equality this makes no difference, since equal texts are lowered alike. For
containment it does: a value with a capital sigma may stand letter for letter in a name and not be
found there. Which values are always found, and where the others are found all the same, is said in
`literal_found_iff_settled`.
-/

namespace IntentGate.Condition

/-- What a condition on the name with a text for its value compiles to. -/
def onName (op : Operator) (s : String) : Condition :=
  ⟨.name, op, .text (Text.lowerCase (Text.trim s))⟩

variable {op : Operator} {s path word : String}

theorem compile_onName (rule : String) (hpath : Property.name.Named path) (hword : op.Named word)
    (hop : op.isOrdering = false) : compile rule ⟨path, word, .text s⟩ = .ok (onName op s) :=
  compile_of_fits rule hpath hword (.name hop (.text s))

theorem holds_onName_contains_iff {i : Intent} :
    (onName .contains s).holds i = true ↔
      Text.lowerCaseFrom [] (Text.trim s).toList <:+: Text.lowerCaseFrom [] i.name.toList := by
  change Text.contains (Text.lowerCase i.name) (Text.lowerCase (Text.trim s)) = true ↔ _
  rw [Text.contains_iff, Text.lowerCase, Text.lowerCase, String.toList_ofList, String.toList_ofList]

theorem holds_onName_eq {i : Intent} (h : i.name = Text.trim s) :
    (onName .eq s).holds i = true := by
  change (Text.lowerCase i.name == Text.lowerCase (Text.trim s)) = true
  rw [h, beq_self_eq_true]

/-- All intents are found whose name contains a text exactly if the text is settled. -/
theorem forall_holds_onName_contains_iff :
    (∀ i : Intent, (Text.trim s).toList <:+: i.name.toList →
      (onName .contains s).holds i = true) ↔ Text.Settled (Text.trim s) := by
  simp only [holds_onName_contains_iff]
  rw [Text.Settled, Text.settledFrom_iff]
  constructor
  · intro h p q
    have hname := h ⟨String.ofList (p ++ (Text.trim s).toList ++ q), [], ⟨0, .low⟩, none⟩
    rw [String.toList_ofList] at hname
    exact hname ⟨p, q, rfl⟩
  · rintro h i ⟨p, q, hi⟩
    rw [← hi]
    exact h p q

theorem holds_onName_contains_of_not_cased {i : Intent} {p q : List Char}
    (hi : i.name.toList = p ++ (Text.trim s).toList ++ q) (hp : Text.casedNext p.reverse = false)
    (hq : Text.casedNext q = false) : (onName .contains s).holds i = true := by
  have halone : Text.lowerBetween p.reverse (Text.trim s).toList q =
      Text.lowerCaseFrom [] (Text.trim s).toList :=
    Text.lowerBetween_of_not_cased [] _ hp hq
  rw [holds_onName_contains_iff, hi, ← halone]
  exact Text.lowerBetween_infix p _ q

/-- The capital alpha is a letter. -/
theorem casedNext_alpha (cs : List Char) : Text.casedNext ('Α' :: cs) = true := by
  have hletter : Text.CharSet.caseIgnorable.contains 'Α' = false ∧
      Text.CharSet.cased.contains 'Α' = true := by
    simp only [Text.CharSet.contains_eq_any]
    decide +kernel
  rw [Text.casedNext_cons, hletter.1, hletter.2]
  rfl

/-- A condition on the name with a text for its value compiles. If it asks for containment, all
intents match whose name contains the trimmed text letter for letter, exactly if all capital sigmas
of the text are settled by their neighbours in it; and whichever text it is, an intent matches if
beside the text no cased character comes next in the name, neither before nor after. If the
condition asks for equality, every intent matches whose name is the trimmed text. -/
theorem literal_found_iff_settled (rule s : String) (hpath : Property.name.Named path) :
    (∀ word, Operator.contains.Named word → ∃ k, compile rule ⟨path, word, .text s⟩ = .ok k ∧
      ((∀ i : Intent, (Text.trim s).toList <:+: i.name.toList → k.holds i = true) ↔
        Text.Settled (Text.trim s)) ∧
      ∀ (i : Intent) (p q : List Char), i.name.toList = p ++ (Text.trim s).toList ++ q →
        Text.casedNext p.reverse = false → Text.casedNext q = false → k.holds i = true) ∧
    ∀ word, Operator.eq.Named word → ∃ k, compile rule ⟨path, word, .text s⟩ = .ok k ∧
      ∀ i : Intent, i.name = Text.trim s → k.holds i = true := by
  constructor
  · intro word hword
    exact ⟨_, compile_onName rule hpath hword rfl, forall_holds_onName_contains_iff,
      fun i p q => holds_onName_contains_of_not_cased⟩
  · intro word hword
    exact ⟨_, compile_onName rule hpath hword rfl, fun i => holds_onName_eq⟩

/-- A sigma between two letters is found, whatever stands around them; one at the end of a word is
found at the end of a word. -/
theorem literal_found_iff_settled_greek :
    let named (name : String) : Intent := ⟨name, [], ⟨0.5, .medium⟩, none⟩
    (∃ k, compile "r" ⟨" Intent.Name", "CONTAINS", .text " ΑΣΑ\t"⟩ = .ok k ∧
      k.holds (named "ΑΣΑΣ") = true) ∧
    (∃ k, compile "r" ⟨"intent.name", "contains", .text "ΑΣ"⟩ = .ok k ∧
      k.holds (named "Ο ΑΣ.") = true) ∧
    ∃ k, compile "r" ⟨"intent.name", "eq", .text "ΑΣ"⟩ = .ok k ∧ k.holds (named "ΑΣ") = true := by
  intro named
  have hpath : Property.name.Named "intent.name" := by decide +kernel
  refine ⟨?_, ?_, ?_⟩
  · have hcapitals : Property.name.Named " Intent.Name" := by decide +kernel
    obtain ⟨hcontains, -⟩ := literal_found_iff_settled "r" " ΑΣΑ\t" hcapitals
    obtain ⟨k, hk, hfound, -⟩ := hcontains "CONTAINS" (by decide +kernel)
    refine ⟨k, hk, hfound.2 ?_ _ (by decide +kernel)⟩
    have htrim : (Text.trim " ΑΣΑ\t").toList = ['Α', 'Σ', 'Α'] := by decide +kernel
    rw [Text.Settled, htrim]
    refine ⟨fun h => ?_, fun _ => .inl (casedNext_alpha []), fun h => ?_, trivial⟩
    · exact absurd h (by decide)
    · exact absurd h (by decide)
  · obtain ⟨hcontains, -⟩ := literal_found_iff_settled "r" "ΑΣ" hpath
    obtain ⟨k, hk, -, hword⟩ := hcontains "contains" (by decide +kernel)
    have hspace : Text.casedNext [' ', 'Ο'] = false ∧ Text.casedNext ['.'] = false := by
      simp only [Text.casedNext_cons, Text.CharSet.contains_eq_any]
      decide +kernel
    exact ⟨k, hk, hword _ ['Ο', ' '] ['.'] (by decide +kernel) hspace.1 hspace.2⟩
  · obtain ⟨-, hequal⟩ := literal_found_iff_settled "r" "ΑΣ" hpath
    obtain ⟨k, hk, hname⟩ := hequal "eq" (by decide +kernel)
    exact ⟨k, hk, hname _ (by decide +kernel)⟩

/-- A text that ends with a capital sigma stands in a name, letter for letter, and is not found
there: at its own end the sigma is final, and in the name it is not. -/
theorem literal_not_found :
    let i : Intent := ⟨"ΑΣΑ", [], ⟨0.5, .medium⟩, none⟩
    (Text.trim "ΑΣ").toList <:+: i.name.toList ∧
    ∃ k, compile "r" ⟨"intent.name", "contains", .text "ΑΣ"⟩ = .ok k ∧ k.holds i = false := by
  intro i
  have halpha (before after : List Char) : Text.lowerAt before 'Α' after = ['α'] := by
    rw [Text.lowerAt, if_neg (by decide)]
    decide +kernel
  have hsigma (after : List Char) : Text.lowerAt ['Α'] 'Σ' after =
      [Text.smallSigma (!Text.casedNext after)] := by
    rw [Text.lowerAt, if_pos (by decide), Text.endsWord, casedNext_alpha, Bool.true_and]
  have hvalue : Text.lowerCaseFrom [] (Text.trim "ΑΣ").toList = ['α', 'ς'] := by
    have htrim : (Text.trim "ΑΣ").toList = ['Α', 'Σ'] := by decide +kernel
    rw [htrim, Text.lowerCaseFrom_cons, Text.lowerCaseFrom_cons, halpha, hsigma]
    rfl
  have hname : Text.lowerCaseFrom [] i.name.toList = ['α', 'σ', 'α'] := by
    have hchars : i.name.toList = ['Α', 'Σ', 'Α'] := by decide +kernel
    rw [hchars, Text.lowerCaseFrom_cons, Text.lowerCaseFrom_cons, Text.lowerCaseFrom_cons, halpha,
      hsigma, halpha, casedNext_alpha]
    rfl
  refine ⟨by decide +kernel, onName .contains "ΑΣ", ?_, ?_⟩
  · exact compile_onName "r" (by decide +kernel) (by decide +kernel) rfl
  · rw [← Bool.not_eq_true, holds_onName_contains_iff, hvalue, hname]
    decide

end IntentGate.Condition
