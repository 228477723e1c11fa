import IntentGate.Text.Digits
import Mathlib.Data.String.Basic

/-!
# Taking texts apart

A text that has been put together from parts is taken apart again by a separator that does not occur
in the first part, by the number of bytes of the first part, or by knowing that the first part is a
number in decimal digits.
-/

namespace IntentGate.Text

/-- Texts around a separator that make the same text are the same, or one of them holds the
separator of the other. -/
theorem append_cons_eq_append_cons {c : Char} {a b a' b' : List Char}
    (h : a ++ c :: b = a' ++ c :: b') :
    (a = a' ∧ b = b') ∨ (∃ x, a' = a ++ c :: x ∧ b = x ++ c :: b') ∨
      ∃ x, a = a' ++ c :: x ∧ b' = x ++ c :: b := by
  rcases List.append_eq_append_iff.1 h with ⟨t, ha, hb⟩ | ⟨t, ha, hb⟩
  · cases t with
    | nil =>
      rw [List.append_nil] at ha
      exact .inl ⟨ha.symm, (List.cons.inj hb).2⟩
    | cons d x =>
      obtain ⟨rfl, hrest⟩ := List.cons.inj hb
      exact .inr (.inl ⟨x, ha, hrest⟩)
  · cases t with
    | nil =>
      rw [List.append_nil] at ha
      exact .inl ⟨ha, (List.cons.inj hb).2.symm⟩
    | cons d x =>
      obtain ⟨rfl, hrest⟩ := List.cons.inj hb
      exact .inr (.inr ⟨x, ha, hrest⟩)

/-- A separator that occurs in neither first part divides a text in one way. -/
theorem append_cons_inj {c : Char} {a b a' b' : List Char} (ha : c ∉ a) (ha' : c ∉ a')
    (h : a ++ c :: b = a' ++ c :: b') : a = a' ∧ b = b' := by
  rcases append_cons_eq_append_cons h with h | ⟨x, hx, -⟩ | ⟨x, hx, -⟩
  · exact h
  · exact absurd (hx ▸ List.mem_append_right a List.mem_cons_self) ha'
  · exact absurd (hx ▸ List.mem_append_right a' List.mem_cons_self) ha

theorem decimalDigits_injective {m n : Nat} (h : decimalDigits m = decimalDigits n) :
    m = n := by
  have hvalue (k : Nat) : Nat.ofDigitChars 10 (decimalDigits k) 0 = k :=
    Nat.ofDigitChars_toDigits (by decide) (by decide)
  rw [← hvalue m, h, hvalue]

/-- Of two texts that begin alike, the parts with equally many bytes are the same. -/
theorem append_inj_of_utf8Len {a b a' b' : List Char} (h : a ++ b = a' ++ b')
    (hlength : String.utf8Len a = String.utf8Len a') : a = a' ∧ b = b' := by
  rcases List.append_eq_append_iff.1 h with ⟨t, ha, hb⟩ | ⟨t, ha, hb⟩
  · have ht : t = [] := by
      rw [ha, String.utf8Len_append] at hlength
      exact String.utf8Len_eq_zero.1 (by omega)
    subst ht
    exact ⟨by simpa using ha.symm, by simpa using hb⟩
  · have ht : t = [] := by
      rw [ha, String.utf8Len_append] at hlength
      exact String.utf8Len_eq_zero.1 (by omega)
    subst ht
    exact ⟨by simpa using ha, by simpa using hb.symm⟩

end IntentGate.Text
