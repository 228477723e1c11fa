import IntentGate.Proofs.Double.Normal

/-!
# Natural numbers as doubles

A natural number below `2 ^ 53` is a double, and no two of them are the same double
(`ofNat_injective`). Adding such doubles adds the numbers as long as the sum stays below `2 ^ 53`
(`ofNat_add`).

A number has many significands: shifted to the left by `j` it stands with the exponent `-j`.
Rounding takes each of them to the one with 53 binary digits, called `natural` here, because no
digit that is shifted out is ever set. Doubles are then followed through their unpacked form, to
which packing and unpacking are inverse on these numbers.
-/

namespace IntentGate.Double

open Float.Model Float.Model.UnpackedFloat

/-! ## Significands -/

section Significands

/-- How far a number is shifted to have 53 binary digits. -/
def shift (n : Nat) : Nat :=
  52 - n.log2

/-- The unpacked double of a natural number below `2 ^ 53`. -/
def natural (n : Nat) : UnpackedFloat :=
  if h : n = 0 then .zero .positive
  else .finite .positive (n * 2 ^ shift n) (-(shift n : Int))
    (Nat.mul_pos (Nat.pos_of_ne_zero h) (Nat.two_pow_pos _))

theorem mul_two_pow_ne_zero {n : Nat} (hn : n ≠ 0) (k : Nat) : n * 2 ^ k ≠ 0 :=
  Nat.mul_ne_zero hn (Nat.pos_iff_ne_zero.1 (Nat.two_pow_pos k))

theorem log2_mul_two_pow {n : Nat} (hn : n ≠ 0) (k : Nat) :
    (n * 2 ^ k).log2 = n.log2 + k := by
  induction k with
  | zero => simp
  | succ k ih =>
    rw [Nat.pow_succ, ← Nat.mul_assoc, Nat.mul_comm _ 2,
      Nat.log2_two_mul (mul_two_pow_ne_zero hn k), ih]
    rfl

theorem log2_le {n : Nat} (hn : n ≠ 0) (hlt : n < 2 ^ 53) : n.log2 ≤ 52 :=
  Nat.le_of_lt_succ ((Nat.log2_lt hn).2 hlt)

/-- Shifted by `shift`, a number has its leading digit at place 52. -/
theorem log2_significand {n : Nat} (hn : n ≠ 0) (hlt : n < 2 ^ 53) :
    (n * 2 ^ shift n).log2 = 52 := by
  have hle := log2_le hn hlt
  rw [log2_mul_two_pow hn, shift]
  omega

theorem natural_injective {a b : Nat} (h : natural a = natural b) : a = b := by
  by_cases ha : a = 0 <;> by_cases hb : b = 0
  · rw [ha, hb]
  · simp [natural, ha, hb] at h
  · simp [natural, ha, hb] at h
  · simp only [natural, ha, hb, dite_false, UnpackedFloat.finite.injEq] at h
    have hshift : shift a = shift b := by omega
    rw [hshift] at h
    exact Nat.eq_of_mul_eq_mul_right (Nat.two_pow_pos _) h.2.1

end Significands

/-! ## Rounding -/

section Rounding

/-- Shifting out digits that are not set leaves no trace of them. -/
theorem shiftRight_exact (m k : Nat) :
    (⟨m * 2 ^ k, false, false⟩ : ExtendedMantissa) >>> k = ⟨m, false, false⟩ := by
  change k.repeat ExtendedMantissa.shiftRightOne _ = _
  induction k generalizing m with
  | zero => simp [Nat.repeat]
  | succ k ih =>
    rw [Nat.repeat, Nat.pow_succ, Nat.mul_comm (2 ^ k) 2, ← Nat.mul_assoc, ih]
    simp [ExtendedMantissa.shiftRightOne]

/-- The exponent that rounding aims at does not depend on the significand given for a number. -/
theorem targetExponent_eq {n j : Nat} (hn : n ≠ 0) (hlt : n < 2 ^ 53) :
    Format.binary64.targetExponent (totalExponent (n * 2 ^ j) (-(j : Int))) = -(shift n : Int) := by
  have hle := log2_le hn hlt
  simp only [Format.targetExponent, totalExponent, log2_mul_two_pow hn, Format.mantissaBits,
    Format.minExponent, shift]
  omega

theorem shiftToTargetExponent_eq {n j : Nat} (hn : n ≠ 0) (hlt : n < 2 ^ 53) (hj : shift n ≤ j) :
    shiftToTargetExponent Format.binary64 (n * 2 ^ j) (-(j : Int)) .exact =
      (⟨n * 2 ^ shift n, false, false⟩, -(shift n : Int)) := by
  have hamount : (-(shift n : Int) - -(j : Int)).toNat = j - shift n := by omega
  have hsplit : n * 2 ^ j = n * 2 ^ shift n * 2 ^ (j - shift n) := by
    rw [Nat.mul_assoc, ← Nat.pow_add]
    congr 2
    omega
  simp only [shiftToTargetExponent, targetExponent_eq hn hlt, shiftToExponent, hamount,
    ExtendedMantissa.ofMantissaAndAccuracy]
  rw [hsplit, shiftRight_exact]
  congr 1
  omega

theorem decreaseExponent_eq (n j t : Nat) :
    decreaseExponent (n * 2 ^ j) (-(j : Int)) (-(t : Int)) =
      (n * 2 ^ max j t, -((max j t : Nat) : Int)) := by
  have hamount : (-(j : Int) - -(t : Int)).toNat = t - j := by omega
  simp only [decreaseExponent, hamount, Nat.shiftLeft_eq]
  rw [Nat.mul_assoc, ← Nat.pow_add]
  congr 2
  · congr 1
    omega
  · omega

/-- A significand with digits enough rounds to the one with 53 digits. -/
theorem roundWithAccuracy_eq {n j : Nat} (hn : n ≠ 0) (hlt : n < 2 ^ 53) (hj : shift n ≤ j) :
    roundWithAccuracy Format.binary64 .positive (n * 2 ^ j) (-(j : Int)) .exact = natural n := by
  simp only [roundWithAccuracy, shiftToTargetExponent_eq hn hlt hj,
    shiftToTargetExponent_eq hn hlt (Nat.le_refl _), ExtendedMantissa.roundedMantissa,
    ExtendedMantissa.accuracy, Accuracy.roundToNearestEven, mul_two_pow_ne_zero hn (shift n), hn,
    natural, dite_false]

/-- Every significand of a number below `2 ^ 53` is rounded to the same unpacked double. -/
theorem normalize_eq {n : Nat} (hlt : n < 2 ^ 53) (j : Nat) :
    UnpackedFloat.normalize Format.binary64 ((n * 2 ^ j : Nat) : Int) (-(j : Int)) .positive =
      natural n := by
  by_cases hn : n = 0
  · subst hn
    simp [UnpackedFloat.normalize, natural]
  · have hpos : 0 < ((n * 2 ^ j : Nat) : Int) :=
      Int.natCast_pos.2 (Nat.pos_of_ne_zero (mul_two_pow_ne_zero hn j))
    simp only [UnpackedFloat.normalize, Int.compare_eq_gt.2 hpos, Int.toNat_natCast,
      UnpackedFloat.round, targetExponent_eq hn hlt, decreaseExponent_eq]
    exact roundWithAccuracy_eq hn hlt (Nat.le_max_right ..)

end Rounding

/-! ## Packing -/

section Packing

theorem natural_normal {n : Nat} (hn : n ≠ 0) (hlt : n < 2 ^ 53) :
    Normal .positive (n * 2 ^ shift n) (-(shift n : Int)) (natural n) := by
  obtain ⟨hlow, hhigh⟩ :=
    (Nat.log2_eq_iff (mul_two_pow_ne_zero hn _)).1 (log2_significand hn hlt)
  rw [natural, dif_neg hn]
  exact ⟨_, hlow, hhigh⟩

theorem unpack_pack_natural {n : Nat} (hlt : n < 2 ^ 53) :
    UnpackedFloat.unpack Format.binary64 (UnpackedFloat.pack Format.binary64 (natural n)) =
      natural n := by
  by_cases hn : n = 0
  · subst hn
    rfl
  · have hshift : shift n ≤ 52 := Nat.sub_le ..
    exact (natural_normal hn hlt).unpack_pack (by omega) (by omega)

/-- The double of a natural number below `2 ^ 53`. -/
def ofNatural (n : Nat) : Float :=
  .ofModel (.pack (natural n))

theorem unpack_ofNatural {n : Nat} (hlt : n < 2 ^ 53) : (ofNatural n).toModel.unpack = natural n :=
  unpack_pack_natural hlt

end Packing

/-! ## Arithmetic -/

section Arithmetic

theorem add_natural {a b : Nat} (hlt : a + b < 2 ^ 53) :
    UnpackedFloat.add Format.binary64 (natural a) (natural b) = natural (a + b) := by
  by_cases ha : a = 0
  · by_cases hb : b = 0
    · subst ha hb
      rfl
    · simp [natural, ha, hb, UnpackedFloat.add]
  · by_cases hb : b = 0
    · simp [natural, ha, hb, UnpackedFloat.add]
    · have hmin : min (-(shift a : Int)) (-(shift b : Int)) =
          -((max (shift a) (shift b) : Nat) : Int) := by omega
      have hmaxa : max (shift a) (max (shift a) (shift b)) = max (shift a) (shift b) := by omega
      have hmaxb : max (shift b) (max (shift a) (shift b)) = max (shift a) (shift b) := by omega
      have hsum : Sign.positive.apply ((a * 2 ^ max (shift a) (shift b) : Nat) : Int) +
          Sign.positive.apply ((b * 2 ^ max (shift a) (shift b) : Nat) : Int) =
          (((a + b) * 2 ^ max (shift a) (shift b) : Nat) : Int) := by
        rw [Nat.add_mul]
        rfl
      rw [← normalize_eq hlt (max (shift a) (shift b)), ← hsum]
      simp only [natural, ha, hb, dite_false, UnpackedFloat.add, hmin, decreaseExponent_eq, hmaxa,
        hmaxb]

theorem mul_natural_one {n : Nat} (hlt : n < 2 ^ 53) :
    UnpackedFloat.mul Format.binary64 (natural n) (natural 1) = natural n := by
  by_cases hn : n = 0
  · subst hn
    rfl
  · have hone : shift 1 = 52 := rfl
    have hmantissa : n * 2 ^ shift n * (1 * 2 ^ shift 1) = n * 2 ^ (shift n + 52) := by
      rw [hone, Nat.one_mul, Nat.mul_assoc, ← Nat.pow_add]
    have hexp : -(shift n : Int) + -(shift 1 : Int) = -((shift n + 52 : Nat) : Int) := by omega
    have hround := roundWithAccuracy_eq hn hlt (Nat.le_add_right (shift n) 52)
    rw [← hmantissa, ← hexp] at hround
    refine Eq.trans ?_ hround
    simp only [natural, hn, dite_false]
    rfl

/-- A number below `2 ^ 53` is converted as a word and multiplied by one. -/
theorem ofNat_eq_ofNatural {n : Nat} (hlt : n < 2 ^ 53) : Float.ofNat n = ofNatural n := by
  have hword : n.toUInt64.toFloat = ofNatural n := by
    have hnat : n.toUInt64.toNat = n := by
      rw [Nat.toUInt64, UInt64.toNat_ofNat']
      omega
    have hround := normalize_eq hlt 0
    rw [Nat.pow_zero, Nat.mul_one] at hround
    change Float.ofModel
      (.pack (UnpackedFloat.normalize Format.binary64 n.toUInt64.toNat 0 .positive)) = _
    rw [hnat]
    exact congrArg (fun u => Float.ofModel (.pack u)) hround
  have hone : Float.ofBits 0x3FF0000000000000 = ofNatural 1 := by decide +kernel
  change Float.ofScientific n false 0 = _
  rw [Float.ofScientific, dif_pos ⟨hlt, by decide⟩]
  change n.toUInt64.toFloat * Float.ofBits 0x3FF0000000000000 = _
  rw [hword, hone]
  change Float.ofModel (.pack (UnpackedFloat.mul Format.binary64 (ofNatural n).toModel.unpack
    (ofNatural 1).toModel.unpack)) = _
  rw [unpack_ofNatural hlt, unpack_ofNatural (by decide), mul_natural_one hlt]
  rfl

theorem ofNat_add {a b : Nat} (hlt : a + b < 2 ^ 53) :
    Float.ofNat a + Float.ofNat b = Float.ofNat (a + b) := by
  have ha : a < 2 ^ 53 := by omega
  have hb : b < 2 ^ 53 := by omega
  rw [ofNat_eq_ofNatural hlt, ofNat_eq_ofNatural ha, ofNat_eq_ofNatural hb]
  change Float.ofModel (.pack (UnpackedFloat.add Format.binary64 (ofNatural a).toModel.unpack
    (ofNatural b).toModel.unpack)) = _
  rw [unpack_ofNatural ha, unpack_ofNatural hb, add_natural hlt]
  rfl

theorem ofNat_injective {a b : Nat} (ha : a < 2 ^ 53) (hb : b < 2 ^ 53)
    (h : Float.ofNat a = Float.ofNat b) : a = b := by
  rw [ofNat_eq_ofNatural ha, ofNat_eq_ofNatural hb] at h
  apply natural_injective
  rw [← unpack_ofNatural ha, ← unpack_ofNatural hb, h]

end Arithmetic

end IntentGate.Double
