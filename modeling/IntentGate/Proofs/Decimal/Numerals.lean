import IntentGate.Decimal.Layout

/-!
# Characters of a number's text

Whatever the layout, a finite number is written with digits, a point, signs and the mark of an
exponent (`isNumeral_chars`). The other texts are the words `NaN`, `inf` and `-inf`. So no text of a
number holds a line end, and only what is not a number has an `N` in its text. There is one double
that is not a number, so this one is known by its text.
-/

namespace IntentGate

open Float.Model (UnpackedFloat)

/-- The characters that finite numbers are written with. -/
def IsNumeral (c : Char) : Prop :=
  c.isDigit = true ∨ c ∈ ['.', '-', '+', 'e']

instance (c : Char) : Decidable (IsNumeral c) :=
  inferInstanceAs (Decidable (_ ∨ _))

theorem isNumeral_of_all {cs : List Char} (h : cs.all (IsNumeral ·) = true) :
    ∀ c ∈ cs, IsNumeral c :=
  fun c hc => of_decide_eq_true (List.all_eq_true.1 h c hc)

theorem isNumeral_decimalDigits (n : Nat) : ∀ c ∈ Text.decimalDigits n, IsNumeral c :=
  fun _ hc => .inl (Nat.isDigit_of_mem_toDigits (by decide) (by decide) hc)

namespace Layout

section Digits

variable (l : Layout) {digits : List Char} (hdigits : ∀ c ∈ digits, IsNumeral c)

include hdigits

theorem isNumeral_positionalChars (leading : Int) :
    ∀ c ∈ l.positionalChars digits leading, IsNumeral c := by
  have hzeros (n : Nat) : ∀ c ∈ List.replicate n '0', IsNumeral c := by
    intro c hc
    rw [List.eq_of_mem_replicate hc]
    decide
  unfold positionalChars
  split
  · rw [List.forall_mem_append, List.forall_mem_append]
    exact ⟨⟨isNumeral_of_all rfl, hzeros _⟩, hdigits⟩
  · dsimp only
    split
    · rw [List.forall_mem_append, List.forall_mem_append]
      refine ⟨⟨hdigits, hzeros _⟩, ?_⟩
      split <;> exact isNumeral_of_all rfl
    · rw [List.forall_mem_append, List.forall_mem_cons]
      refine ⟨fun c hc => hdigits c (List.mem_of_mem_take hc), by decide, ?_⟩
      exact fun c hc => hdigits c (List.mem_of_mem_drop hc)

theorem isNumeral_exponentChars (leading : Int) :
    ∀ c ∈ l.exponentChars digits leading, IsNumeral c := by
  unfold exponentChars
  dsimp only
  rw [List.forall_mem_append, List.forall_mem_append, List.forall_mem_cons]
  refine ⟨⟨?_, by decide, ?_⟩, isNumeral_decimalDigits _⟩
  · split
    · rw [List.forall_mem_cons] at hdigits
      rw [List.forall_mem_cons, List.forall_mem_cons]
      exact ⟨hdigits.1, by decide, hdigits.2⟩
    · exact hdigits
  · split
    · exact isNumeral_of_all rfl
    · split <;> exact isNumeral_of_all rfl

end Digits

theorem isNumeral_magnitudeChars (l : Layout) (d : Decimal) :
    ∀ c ∈ l.magnitudeChars d, IsNumeral c := by
  have hdigits : ∀ c ∈ d.digitChars, IsNumeral c := isNumeral_decimalDigits d.digits
  unfold magnitudeChars
  generalize (if d.digits = 0 then 0 else d.leadingExponent) = leading
  dsimp only
  split
  · exact l.isNumeral_positionalChars hdigits _
  · exact l.isNumeral_exponentChars hdigits _

/-- A text is a word or a magnitude behind a sign. -/
theorem chars_cases (l : Layout) (x : Float) :
    (x.isNaN = true ∧ l.chars x = "NaN".toList) ∨
    (x.isNaN = false ∧ x.isInf = true ∧
      (l.chars x = "inf".toList ∨ l.chars x = "-inf".toList)) ∨
    (x.isNaN = false ∧ x.isInf = false ∧ ∀ c ∈ l.chars x, IsNumeral c) := by
  unfold chars
  cases hnan : x.isNaN with
  | true => exact .inl ⟨rfl, rfl⟩
  | false =>
    cases hinf : x.isInf with
    | true =>
      refine .inr (.inl ⟨rfl, rfl, ?_⟩)
      cases (Binary.ofFloat x).negative with
      | true => exact .inr rfl
      | false => exact .inl rfl
    | false =>
      refine .inr (.inr ⟨rfl, rfl, ?_⟩)
      simp only [Bool.false_eq_true, if_false, List.forall_mem_append]
      refine ⟨?_, l.isNumeral_magnitudeChars _⟩
      split <;> exact isNumeral_of_all rfl

theorem isNumeral_chars (l : Layout) {x : Float} (hx : x.isFinite = true) :
    ∀ c ∈ l.chars x, IsNumeral c := by
  have hcases : x.isNaN = false ∧ x.isInf = false := by
    change x.toModel.unpack.isFinite = true at hx
    change x.toModel.unpack.isNaN = false ∧ x.toModel.unpack.isInf = false
    cases hu : x.toModel.unpack <;> rw [hu] at hx <;> first | exact ⟨rfl, rfl⟩ | cases hx
  rcases l.chars_cases x with ⟨hnan, -⟩ | ⟨-, hinf, -⟩ | ⟨-, -, h⟩
  · rw [hcases.1] at hnan
    cases hnan
  · rw [hcases.2] at hinf
    cases hinf
  · exact h

/-- No text of a number holds a line end. -/
theorem newline_notMem_chars (l : Layout) (x : Float) : '\n' ∉ l.chars x := by
  rcases l.chars_cases x with ⟨-, h⟩ | ⟨-, -, h | h⟩ | ⟨-, -, h⟩
  · rw [h]
    decide
  · rw [h]
    decide
  · rw [h]
    decide
  · exact fun hmem => absurd (h _ hmem) (by decide)

theorem mem_chars_N_iff (l : Layout) (x : Float) : 'N' ∈ l.chars x ↔ x.isNaN = true := by
  rcases l.chars_cases x with ⟨hnan, h⟩ | ⟨hnan, -, h | h⟩ | ⟨hnan, -, h⟩ <;> rw [hnan]
  · simp [h]
  · simp [h]
  · simp [h]
  · simp only [Bool.false_eq_true, iff_false]
    exact fun hmem => absurd (h _ hmem) (by decide)

/-! ## What is not a number -/

theorem components_of_isNaN {spec : Float.Model.Format} {b : BitVec spec.numBits}
    (h : (UnpackedFloat.unpack spec b).isNaN = true) :
    UnpackedFloat.unpackExponent b = -1#_ ∧ UnpackedFloat.unpackMantissa b ≠ 0#_ := by
  unfold UnpackedFloat.unpack at h
  dsimp only at h
  by_cases hexponent : UnpackedFloat.unpackExponent b = -1#_
  · by_cases hmantissa : UnpackedFloat.unpackMantissa b = 0#_
    · rw [if_pos hexponent, if_pos hmantissa] at h
      cases h
    · exact ⟨hexponent, hmantissa⟩
  · rw [if_neg hexponent] at h
    by_cases hzero : UnpackedFloat.unpackExponent b = 0#_
    · rw [if_pos hzero] at h
      by_cases hmantissa : UnpackedFloat.unpackMantissa b = 0#_
      · rw [dif_pos hmantissa] at h
        cases h
      · rw [dif_neg hmantissa] at h
        cases h
    · rw [if_neg hzero] at h
      cases h

/-- There is one double that is not a number. -/
theorem eq_of_isNaN {x y : Float} (hx : x.isNaN = true) (hy : y.isNaN = true) : x = y := by
  obtain ⟨⟨xbits, hxvalid⟩⟩ := x
  obtain ⟨⟨ybits, hyvalid⟩⟩ := y
  obtain ⟨hxexponent, hxmantissa⟩ := components_of_isNaN hx
  obtain ⟨hyexponent, hymantissa⟩ := components_of_isNaN hy
  have hbits : xbits.toBitVec = ybits.toBitVec :=
    (hxvalid.eq_packedNaN hxexponent hxmantissa).trans
      (hyvalid.eq_packedNaN hyexponent hymantissa).symm
  obtain rfl := UInt64.toBitVec_inj.1 hbits
  rfl

/-- Doubles with one text are equal if that goes for those that are numbers. -/
theorem eq_of_chars_eq {l : Layout} {x y : Float} (h : l.chars x = l.chars y)
    (hnumbers : x.isNaN = false → y.isNaN = false → x = y) : x = y := by
  have hnan : x.isNaN = true ↔ y.isNaN = true := by
    rw [← l.mem_chars_N_iff, ← l.mem_chars_N_iff, h]
  cases hx : x.isNaN with
  | true => exact eq_of_isNaN hx (hnan.1 hx)
  | false =>
    refine hnumbers hx ?_
    cases hy : y.isNaN with
    | true => rw [hnan.2 hy] at hx; cases hx
    | false => rfl

end Layout

end IntentGate
