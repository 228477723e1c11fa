import IntentGate.Json.Writer
import IntentGate.Proofs.Decimal.Numerals
import IntentGate.Text.Blank
import IntentGate.Text.LowerCase
import IntentGate.Text.Search

/-!
# Matching texts

Containment of texts is that of their characters, as a contiguous run. Trimming and lowering leave a
text alone that has neither blanks nor capitals, and the text of a finite number is one of these.
-/

namespace IntentGate.Text

theorem occursIn_iff {needle cs : List Char} : occursIn needle cs = true ↔ needle <:+: cs := by
  induction cs with
  | nil => rw [occursIn, List.isEmpty_iff, List.infix_nil]
  | cons c rest ih => rw [occursIn, Bool.or_eq_true, List.isPrefixOf_iff_prefix, ih,
      List.infix_cons_iff]

theorem contains_iff {s needle : String} :
    contains s needle = true ↔ needle.toList <:+: s.toList :=
  occursIn_iff

/-- A character that neither trimming nor lowering changes, wherever it stands. -/
structure IsPlain (c : Char) : Prop where
  ascii : c.toNat < 0x80
  notBlank : isBlank c = false
  toLower_eq : c.toLower = c

theorem trim_of_isPlain {s : String} (h : ∀ c ∈ s.toList, IsPlain c) : trim s = s := by
  have hstart {cs : List Char} (hcs : ∀ c ∈ cs, IsPlain c) : trimStartChars cs = cs := by
    cases cs with
    | nil => rfl
    | cons c rest =>
      rw [trimStartChars, List.dropWhile_cons_of_neg]
      rw [(hcs c List.mem_cons_self).notBlank]
      decide
  have hreverse : ∀ c ∈ s.toList.reverse, IsPlain c := fun c hc => h c (List.mem_reverse.1 hc)
  rw [trim, trimChars, hstart h, hstart hreverse, List.reverse_reverse, String.ofList_toList]

theorem lowerCaseFrom_of_isPlain {cs : List Char} (h : ∀ c ∈ cs, IsPlain c) (before : List Char) :
    lowerCaseFrom before cs = cs := by
  induction cs generalizing before with
  | nil => rfl
  | cons c rest ih =>
    obtain ⟨hc, hrest⟩ := List.forall_mem_cons.1 h
    have hsigma : c.toNat ≠ 0x3A3 := fun heq => absurd (heq ▸ hc.ascii) (by decide)
    rw [lowerCaseFrom, if_neg hsigma, ih hrest, lowerChar]
    dsimp only
    rw [if_pos hc.ascii, hc.toLower_eq]
    rfl

theorem lowerCase_of_isPlain {s : String} (h : ∀ c ∈ s.toList, IsPlain c) : lowerCase s = s := by
  rw [lowerCase, lowerCaseFrom_of_isPlain h, String.ofList_toList]

theorem isPlain_of_isNumeral {c : Char} (h : IsNumeral c) : IsPlain c := by
  rcases h with h | h
  · obtain ⟨hlow, hhigh⟩ := Char.isDigit_iff_toNat.1 h
    have hlow : 48 ≤ c.toNat := hlow
    have hhigh : c.toNat ≤ 57 := hhigh
    refine ⟨by omega, ?_, dif_neg fun hupper => ?_⟩
    · simp only [isBlank, Bool.or_eq_false_iff, Bool.and_eq_false_iff, decide_eq_false_iff_not,
        beq_eq_false_iff_ne]
      omega
    · have hletter : 65 ≤ c.toNat := hupper.1
      omega
  · simp only [List.mem_cons, List.not_mem_nil, or_false] at h
    rcases h with rfl | rfl | rfl | rfl <;> exact ⟨by decide, by decide, by decide⟩

end IntentGate.Text

namespace IntentGate.Json.Number

/-- Whether there is a number, as there is in every document that has been read. -/
def IsFinite : Number → Prop
  | int _ => True
  | real x => x.isFinite = true

theorem isNumeral_chars {n : Number} (h : n.IsFinite) : ∀ c ∈ n.chars, IsNumeral c := by
  cases n with
  | int i =>
    cases i with
    | ofNat k => exact isNumeral_decimalDigits k
    | negSucc k =>
      exact List.forall_mem_cons.2 ⟨by decide, isNumeral_decimalDigits (k + 1)⟩
  | real x => exact Layout.document.isNumeral_chars h

/-- The text of a number is a word, or has the characters of a finite one. -/
theorem chars_cases (n : Number) :
    (∀ c ∈ n.chars, IsNumeral c) ∨ n.chars = "NaN".toList ∨ n.chars = "inf".toList ∨
      n.chars = "-inf".toList := by
  cases n with
  | int i => exact .inl (isNumeral_chars (n := .int i) trivial)
  | real x =>
    rcases Layout.document.chars_cases x with ⟨-, h⟩ | ⟨-, -, h | h⟩ | ⟨-, -, h⟩
    · exact .inr (.inl h)
    · exact .inr (.inr (.inl h))
    · exact .inr (.inr (.inr h))
    · exact .inl h

end IntentGate.Json.Number
