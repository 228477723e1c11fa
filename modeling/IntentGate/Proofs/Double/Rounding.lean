import IntentGate.Proofs.Double.Natural

/-!
# Rounding keeps the order

Rounding goes to the nearest double, the even one of two equally near. A significand with 53 binary
digits or more comes out with 53 of them (`rounds_roundWithAccuracy`), and of two such significands
the greater one does not come out smaller (`Rounds.exists_normal_le`). So the conversion of natural
numbers keeps their order (`ofNat_le_ofNat`), however large they are, and the quotient of a number
and one that is not greater is at least one (`neg_ofNat_div_ofNat_le`), however both were rounded
before.
-/

namespace IntentGate.Double

open Float.Model Float.Model.UnpackedFloat

/-! ## Significands and what is shifted out of them -/

section Significands

variable {em em' : ExtendedMantissa}

/-- What a significand and its two residual bits weigh, in quarters of a unit. -/
def quarters (em : ExtendedMantissa) : Nat :=
  4 * em.mantissa + 2 * em.roundBit.toNat + em.stickyBit.toNat

theorem quarters_shiftRightOne (em : ExtendedMantissa) :
    quarters em.shiftRightOne = 2 * em.mantissa + (em.roundBit || em.stickyBit).toNat := by
  have hbit : (em.mantissa % 2 != 0).toNat = em.mantissa % 2 := by
    rcases Nat.mod_two_eq_zero_or_one em.mantissa with h | h <;> rw [h] <;> rfl
  simp only [quarters, ExtendedMantissa.shiftRightOne, hbit]
  omega

theorem quarters_shiftRightOne_le (h : quarters em ≤ quarters em') :
    quarters em.shiftRightOne ≤ quarters em'.shiftRightOne := by
  rw [quarters_shiftRightOne, quarters_shiftRightOne]
  obtain ⟨m, r, s⟩ := em
  obtain ⟨m', r', s'⟩ := em'
  simp only [quarters] at h ⊢
  cases r <;> cases s <;> cases r' <;> cases s' <;> simp at h ⊢ <;> omega

theorem quarters_shiftRight_le (h : quarters em ≤ quarters em') (k : Nat) :
    quarters (em >>> k) ≤ quarters (em' >>> k) := by
  change quarters (k.repeat ExtendedMantissa.shiftRightOne em) ≤
    quarters (k.repeat ExtendedMantissa.shiftRightOne em')
  induction k with
  | zero => exact h
  | succ k ih => exact quarters_shiftRightOne_le ih

theorem roundedMantissa_le_roundedMantissa (h : quarters em ≤ quarters em') :
    em.roundedMantissa ≤ em'.roundedMantissa := by
  obtain ⟨m, r, s⟩ := em
  obtain ⟨m', r', s'⟩ := em'
  simp only [quarters] at h
  cases r <;> cases s <;> cases r' <;> cases s' <;>
    simp [ExtendedMantissa.roundedMantissa, ExtendedMantissa.accuracy,
      Accuracy.roundToNearestEven] at h ⊢ <;> omega

theorem roundedMantissa_bounds (em : ExtendedMantissa) :
    em.mantissa ≤ em.roundedMantissa ∧ em.roundedMantissa ≤ em.mantissa + 1 := by
  obtain ⟨m, r, s⟩ := em
  cases r <;> cases s <;>
    simp [ExtendedMantissa.roundedMantissa, ExtendedMantissa.accuracy, Accuracy.roundToNearestEven]
  omega

theorem mantissa_shiftRight (em : ExtendedMantissa) (k : Nat) :
    (em >>> k).mantissa = em.mantissa / 2 ^ k := by
  change (k.repeat ExtendedMantissa.shiftRightOne em).mantissa = _
  induction k with
  | zero => simp [Nat.repeat]
  | succ k ih =>
    rw [Nat.repeat, ExtendedMantissa.shiftRightOne, ih, Nat.div_div_eq_div_mul, Nat.pow_succ]

theorem mantissa_ofMantissaAndAccuracy (m : Nat) (a : Accuracy) :
    (ExtendedMantissa.ofMantissaAndAccuracy m a).mantissa = m := by
  rcases a with _ | (_ | _ | _) <;> rfl

end Significands

/-! ## Rounding to 53 binary digits -/

section Rounding

variable {s : Sign} {m r r' : Nat} {e e' : Int} {u v : UnpackedFloat}

/-- What rounding makes of `r` units of `2 ^ e`: these have 53 binary digits, or one more where a
carry has gone through all of them. -/
inductive Rounds (s : Sign) (r : Nat) (e : Int) (u : UnpackedFloat) : Prop where
  | within (h : Normal s r e u)
  | carried (hr : r = 2 ^ 53) (h : Normal s (2 ^ 52) (e + 1) u)

theorem Rounds.exists_normal (hu : Rounds s r e u) : ∃ m f, Normal s m f u ∧ e ≤ f ∧ f ≤ e + 1 := by
  cases hu with
  | within h => exact ⟨_, _, h, by omega, by omega⟩
  | carried _ h => exact ⟨_, _, h, by omega, by omega⟩

/-- The units that are left of a significand with 53 binary digits or more. -/
def roundedUnits (m : Nat) (a : Accuracy) : Nat :=
  (ExtendedMantissa.ofMantissaAndAccuracy m a >>> (m.log2 - 52)).roundedMantissa

theorem roundedUnits_bounds (hm : 2 ^ 52 ≤ m) (a : Accuracy) :
    2 ^ 52 ≤ roundedUnits m a ∧ roundedUnits m a ≤ 2 ^ 53 := by
  have hne : m ≠ 0 := by omega
  have hlog : 52 ≤ m.log2 := (Nat.le_log2 hne).2 hm
  obtain ⟨hlow, hhigh⟩ := (Nat.log2_eq_iff hne).1 rfl
  have hpow : 2 ^ m.log2 = 2 ^ 52 * 2 ^ (m.log2 - 52) := by
    rw [← Nat.pow_add]
    congr 1
    omega
  have hunits := roundedMantissa_bounds
    (ExtendedMantissa.ofMantissaAndAccuracy m a >>> (m.log2 - 52))
  rw [mantissa_shiftRight, mantissa_ofMantissaAndAccuracy] at hunits
  have hquotient : 2 ^ 52 ≤ m / 2 ^ (m.log2 - 52) := by
    rw [Nat.le_div_iff_mul_le (Nat.two_pow_pos _), ← hpow]
    exact hlow
  have hquotient' : m / 2 ^ (m.log2 - 52) < 2 ^ 53 := by
    rw [Nat.div_lt_iff_lt_mul (Nat.two_pow_pos _)]
    rw [Nat.pow_succ, hpow] at hhigh
    omega
  unfold roundedUnits
  omega

/-- Units that have been carried through all digits are shifted by one place more, and others stay
as they are. -/
theorem shiftToTargetExponent_units (hlow : 2 ^ 52 ≤ r) (hhigh : r ≤ 2 ^ 53) (he : -1074 ≤ e) :
    r < 2 ^ 53 ∧ shiftToTargetExponent Format.binary64 r e .exact = (⟨r, false, false⟩, e) ∨
    r = 2 ^ 53 ∧
      shiftToTargetExponent Format.binary64 r e .exact = (⟨2 ^ 52, false, false⟩, e + 1) := by
  have htarget : Format.binary64.targetExponent (totalExponent r e) =
      max (e + r.log2 - 52) (-1074) := by
    simp only [Format.targetExponent, totalExponent, Format.mantissaBits, Format.minExponent]
    omega
  simp only [shiftToTargetExponent, shiftToExponent, htarget]
  rcases Nat.lt_or_eq_of_le hhigh with hlt | rfl
  · have hamount : (max (e + (r.log2 : Int) - 52) (-1074) - e).toNat = 0 := by
      rw [log2_eq_of_digits hlow hlt]
      omega
    refine .inl ⟨hlt, ?_⟩
    rw [hamount, Int.natCast_zero, Int.add_zero]
    rfl
  · have hamount : (max (e + ((2 ^ 53 : Nat).log2 : Int) - 52) (-1074) - e).toNat = 1 := by
      rw [Nat.log2_two_pow]
      omega
    refine .inr ⟨rfl, ?_⟩
    rw [hamount]
    rfl

/-- The number that a shifted significand stands for. -/
def ofShifted (s : Sign) (p : ExtendedMantissa × Int) : UnpackedFloat :=
  if h : p.1.mantissa = 0 then .zero s else .finite s p.1.mantissa p.2 (Nat.pos_of_ne_zero h)

theorem roundWithAccuracy_eq_ofShifted (f : Format) (s : Sign) (m : Nat) (e : Int) (a : Accuracy) :
    roundWithAccuracy f s m e a =
      ofShifted s (shiftToTargetExponent f (shiftToTargetExponent f m e a).1.roundedMantissa
        (shiftToTargetExponent f m e a).2 .exact) := rfl

/-- A significand with 53 binary digits or more is rounded to 53 of them. -/
theorem rounds_roundWithAccuracy (s : Sign) (hm : 2 ^ 52 ≤ m) (a : Accuracy)
    (he : -1022 ≤ e + m.log2) :
    Rounds s (roundedUnits m a) (e + m.log2 - 52)
      (roundWithAccuracy Format.binary64 s m e a) := by
  have hlog : 52 ≤ m.log2 := (Nat.le_log2 (by omega)).2 hm
  have hamount : (Format.binary64.targetExponent (totalExponent m e) - e).toNat = m.log2 - 52 := by
    simp only [Format.targetExponent, totalExponent, Format.mantissaBits, Format.minExponent]
    omega
  have hfirst : shiftToTargetExponent Format.binary64 m e a =
      (ExtendedMantissa.ofMantissaAndAccuracy m a >>> (m.log2 - 52), e + m.log2 - 52) := by
    simp only [shiftToTargetExponent, shiftToExponent, hamount]
    congr 1
    omega
  obtain ⟨hlow, hhigh⟩ := roundedUnits_bounds hm a
  rw [roundWithAccuracy_eq_ofShifted, hfirst]
  change Rounds s (roundedUnits m a) _ (ofShifted s (shiftToTargetExponent Format.binary64
    (roundedUnits m a) (e + m.log2 - 52) .exact))
  rcases shiftToTargetExponent_units hlow hhigh (by omega : -1074 ≤ e + m.log2 - 52) with
    ⟨hlt, hlast⟩ | ⟨heq, hlast⟩
  · rw [hlast, ofShifted, dif_neg (by dsimp only; omega)]
    exact .within ⟨_, hlow, hlt⟩
  · rw [hlast, ofShifted, dif_neg (by dsimp only; omega)]
    exact .carried heq ⟨_, by omega, by omega⟩

/-- What is rounded from no more units does not come out greater. -/
theorem Rounds.exists_normal_le {s' : Sign} (hu : Rounds s r e u) (hv : Rounds s' r' e' v)
    (h : e < e' ∨ e = e' ∧ r ≤ r') :
    ∃ m f m' f', Normal s m f u ∧ Normal s' m' f' v ∧ (f < f' ∨ f = f' ∧ m ≤ m') ∧
      e ≤ f ∧ f' ≤ e' + 1 := by
  cases hu with
  | within hu =>
    have hdigits := hu.digits
    cases hv with
    | within hv => exact ⟨_, _, _, _, hu, hv, h, by omega, by omega⟩
    | carried hr' hv => exact ⟨_, _, _, _, hu, hv, by omega, by omega, by omega⟩
  | carried hr hu =>
    cases hv with
    | within hv =>
      have hdigits := hv.digits
      exact ⟨_, _, _, _, hu, hv, by omega, by omega, by omega⟩
    | carried hr' hv => exact ⟨_, _, _, _, hu, hv, by omega, by omega, by omega⟩

end Rounding

/-! ## Natural numbers -/

section Natural

/-- The unpacked double nearest to a natural number above zero. -/
def nearest (n : Nat) : UnpackedFloat :=
  roundWithAccuracy Format.binary64 .positive (n * 2 ^ 53) (-53) .exact

theorem rounds_nearest {n : Nat} (hn : 0 < n) :
    Rounds .positive (roundedUnits (n * 2 ^ 53) .exact) (n.log2 - 52) (nearest n) := by
  have hlog := log2_mul_two_pow (Nat.ne_of_gt hn) 53
  have hrounds := rounds_roundWithAccuracy .positive (by omega : 2 ^ 52 ≤ n * 2 ^ 53) .exact
    (by omega : -1022 ≤ -53 + ((n * 2 ^ 53).log2 : Int))
  have hexponent : -53 + ((n * 2 ^ 53).log2 : Int) - 52 = n.log2 - 52 := by omega
  rw [hexponent] at hrounds
  exact hrounds

theorem ofNat_eq_nearest {n : Nat} (hn : 0 < n) : Float.ofNat n = .ofModel (.pack (nearest n)) := by
  by_cases hsmall : n < 2 ^ 53
  · have hshift : shift n ≤ 53 := by
      unfold shift
      omega
    have hround := roundWithAccuracy_eq (Nat.ne_of_gt hn) hsmall hshift
    rw [ofNat_eq_ofNatural hsmall, ofNatural, ← hround]
    rfl
  · have hpow : (0 : Int) ≤ 2 ^ Format.binary64.exponentBits := by decide
    have hdigits : n <<< Format.binary64.mantissaBits * 10 ^ Int.toNat 0 = n * 2 ^ 53 := by
      change n <<< 53 * 1 = n * 2 ^ 53
      rw [Nat.mul_one, Nat.shiftLeft_eq]
    change Float.ofScientific n false 0 = _
    rw [Float.ofScientific, dif_neg fun h => hsmall h.1]
    change Float.ofModel (.pack (UnpackedFloat.ofScientific Format.binary64 n 0)) = _
    unfold UnpackedFloat.ofScientific
    rw [dif_neg (by omega), if_neg (by omega), if_neg (by omega), if_pos (Int.le_refl 0),
      UnpackedFloat.mul, hdigits]
    rfl

theorem nearest_order {a b : Nat} (ha : 0 < a) (hab : a ≤ b) :
    (a.log2 - 52 : Int) < b.log2 - 52 ∨ (a.log2 - 52 : Int) = b.log2 - 52 ∧
      roundedUnits (a * 2 ^ 53) .exact ≤ roundedUnits (b * 2 ^ 53) .exact := by
  have hb : b ≠ 0 := by omega
  have hlog : a.log2 ≤ b.log2 :=
    (Nat.le_log2 hb).2 (Nat.le_trans (Nat.log2_self_le (Nat.ne_of_gt ha)) hab)
  rcases Nat.lt_or_eq_of_le hlog with hlt | heq
  · exact .inl (by omega)
  · refine .inr ⟨by omega, ?_⟩
    unfold roundedUnits
    rw [log2_mul_two_pow (Nat.ne_of_gt ha), log2_mul_two_pow hb, heq]
    refine roundedMantissa_le_roundedMantissa (quarters_shiftRight_le ?_ _)
    simp only [quarters, ExtendedMantissa.ofMantissaAndAccuracy]
    omega

/-- Greater natural numbers have doubles that are not smaller. -/
theorem ofNat_le_ofNat {a b : Nat} (hab : a ≤ b) : Float.ofNat a ≤ Float.ofNat b := by
  have hpos {a b : Nat} (ha : 0 < a) (hab : a ≤ b) : Float.ofNat a ≤ Float.ofNat b := by
    have hb : 0 < b := Nat.lt_of_lt_of_le ha hab
    obtain ⟨_, _, _, _, hu, hv, hle, hlow, _⟩ :=
      (rounds_nearest ha).exists_normal_le (rounds_nearest hb) (nearest_order ha hab)
    rw [ofNat_eq_nearest ha, ofNat_eq_nearest hb]
    exact hu.ofModel_le hv (by omega) hle
  by_cases ha : 0 < a
  · exact hpos ha hab
  · obtain rfl : a = 0 := by omega
    by_cases hb : 0 < b
    · exact le_trans (by decide +kernel) (hpos Nat.one_pos hb)
    · obtain rfl : b = 0 := by omega
      decide +kernel

theorem one_le_ofNat {n : Nat} (hn : 0 < n) : 1 ≤ Float.ofNat n :=
  ofNat_le_ofNat hn

theorem isNaN_ofNat (n : Nat) : (Float.ofNat n).isNaN = false :=
  (le_iff.1 (ofNat_le_ofNat (Nat.le_refl n))).1

end Natural

/-! ## Quotients -/

section Quotient

variable {m n : Nat} {e f : Int} {u v : UnpackedFloat}

/-- The quotient of a number and one that is not greater is at least one. -/
theorem exists_normal_div (hu : Normal .positive m e u) (hv : Normal .positive n f v)
    (hle : f < e ∨ f = e ∧ n ≤ m) :
    ∃ q g, Normal .positive q g (UnpackedFloat.div Format.binary64 u v) ∧
      -52 ≤ g ∧ g ≤ e - f + 1 := by
  cases hu with | intro hm mlow mhigh =>
  cases hv with | intro hn nlow nhigh =>
  have hcore : divCore Format.binary64 m e n f =
      (m * 2 ^ 53 / n, e - f - 53, accuracyOfFraction (m * 2 ^ 53 % n) n) := by
    have htarget : Format.binary64.targetExponent (totalExponent m e - totalExponent n f) =
        e - f - 53 := by
      simp only [Format.targetExponent, totalExponent, Format.mantissaBits, Format.minExponent,
        log2_eq_of_digits mlow mhigh, log2_eq_of_digits nlow nhigh]
      omega
    have hmin : min (e - f) (e - f - 53) = e - f - 53 := by omega
    have hamount : (e - f - (e - f - 53)).toNat = 53 := by omega
    simp only [divCore, htarget, hmin, hamount, Nat.shiftLeft_eq]
  have hdiv : UnpackedFloat.div Format.binary64 (.finite .positive m e hm)
      (.finite .positive n f hn) = roundWithAccuracy Format.binary64 .positive (m * 2 ^ 53 / n)
        (e - f - 53) (accuracyOfFraction (m * 2 ^ 53 % n) n) := by
    rw [UnpackedFloat.div, hcore]
    rfl
  rw [hdiv]
  generalize accuracyOfFraction (m * 2 ^ 53 % n) n = a
  have hlow : 2 ^ 52 ≤ m * 2 ^ 53 / n := by
    rw [Nat.le_div_iff_mul_le hn]
    omega
  have hhigh : m * 2 ^ 53 / n < 2 ^ 54 := by
    rw [Nat.div_lt_iff_lt_mul hn]
    omega
  -- with equal exponents it is the significands that are in order, which gives one digit more
  have hsame : f = e → 2 ^ 53 ≤ m * 2 ^ 53 / n := by
    intro heq
    rw [Nat.le_div_iff_mul_le hn]
    omega
  generalize m * 2 ^ 53 / n = q at hlow hhigh hsame
  have hlog : 52 ≤ q.log2 := (Nat.le_log2 (by omega)).2 hlow
  have hlog' : q.log2 < 54 := (Nat.log2_lt (by omega)).2 hhigh
  have hlogSame : f = e → 53 ≤ q.log2 := fun heq => (Nat.le_log2 (by omega)).2 (hsame heq)
  have hrounds := rounds_roundWithAccuracy .positive hlow a
    (by omega : -1022 ≤ e - f - 53 + (q.log2 : Int))
  obtain ⟨q', g, hnormal, hg, hg'⟩ := hrounds.exists_normal
  refine ⟨q', g, hnormal, ?_, ?_⟩ <;> omega

/-- The quotient of a natural number and one that is not greater is at least one, also after
rounding. -/
theorem neg_ofNat_div_ofNat_le {a b : Nat} (hb : 0 < b) (hba : b ≤ a) (ha : a < 2 ^ 64) :
    -(Float.ofNat a / Float.ofNat b) ≤ -1 := by
  have hpos : 0 < a := Nat.lt_of_lt_of_le hb hba
  have hlogb : b.log2 < 64 := (Nat.log2_lt (Nat.ne_of_gt hb)).2 (by omega)
  have hloga : a.log2 < 64 := (Nat.log2_lt (Nat.ne_of_gt hpos)).2 ha
  obtain ⟨n, f, m, e, hv, hu, hle, hlow, hhigh⟩ :=
    (rounds_nearest hb).exists_normal_le (rounds_nearest hpos) (nearest_order hb hba)
  obtain ⟨q, g, hw, hglow, hghigh⟩ := exists_normal_div hu hv hle
  have hdigits := hw.digits
  have hquotient : Float.ofNat a / Float.ofNat b =
      .ofModel (.pack (UnpackedFloat.div Format.binary64 (nearest a) (nearest b))) := by
    rw [ofNat_eq_nearest hpos, ofNat_eq_nearest hb]
    change Float.ofModel (.pack (UnpackedFloat.div Format.binary64
      (UnpackedFloat.unpack Format.binary64 (UnpackedFloat.pack Format.binary64 (nearest a)))
      (UnpackedFloat.unpack Format.binary64 (UnpackedFloat.pack Format.binary64 (nearest b))))) = _
    rw [hu.unpack_pack (by omega) (by omega), hv.unpack_pack (by omega) (by omega)]
  have hone : (1 : Float) = .ofModel (.pack (natural 1)) := ofNat_eq_ofNatural (by decide)
  rw [hquotient, hone]
  have hshift : shift 1 = 52 := rfl
  have hnormal := natural_normal Nat.one_ne_zero (by decide)
  rw [hshift] at hnormal
  exact hnormal.neg_ofModel_le hw (by omega) (by omega) (by omega)

end Quotient

end IntentGate.Double
