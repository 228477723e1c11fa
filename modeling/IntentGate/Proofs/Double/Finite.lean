import IntentGate.Proofs.Double.Rounding

/-!
# Finite doubles

A double is finite unless its exponent bits are all set (`isFinite_unpack_iff`). So negation keeps
doubles finite (`isFinite_neg`). The double nearest to a word of 64 bits is finite as well
(`isFinite_ofNat`), since a number with few binary digits is rounded to a small exponent.
-/

namespace IntentGate.Double

open Float.Model Float.Model.UnpackedFloat

/-! ## Exponent bits -/

section Packing

theorem isFinite_unpack_iff (b : BitVec Format.binary64.numBits) :
    (UnpackedFloat.unpack Format.binary64 b).isFinite = true ↔ unpackExponent b ≠ -1#11 := by
  unfold UnpackedFloat.unpack
  by_cases hones : unpackExponent b = -1#11
  · rw [if_pos hones]
    refine iff_of_false ?_ fun hne => hne hones
    split <;> exact Bool.false_ne_true
  · rw [if_neg hones]
    refine iff_of_true ?_ hones
    split
    · split <;> rfl
    · rfl

/-- An unpacked number whose exponent is not beyond those of doubles. -/
def Packable : UnpackedFloat → Prop
  | .zero _ => True
  | .finite _ _ e _ => e ≤ 971
  | _ => False

theorem Packable.neg {u : UnpackedFloat} (hu : Packable u) : Packable u.neg := by
  cases u <;> exact hu

theorem ofNat_ne_ones {n : Nat} (hn : n < 2047) : BitVec.ofNat 11 n ≠ -1#11 := by
  intro h
  have htoNat := congrArg BitVec.toNat h
  rw [BitVec.toNat_ofNat, Nat.mod_eq_of_lt (by omega)] at htoNat
  change n = 2047 at htoNat
  omega

/-- What is packed from such a number is finite. -/
theorem Packable.isFinite {u : UnpackedFloat} (hu : Packable u) :
    (UnpackedFloat.unpack Format.binary64 (UnpackedFloat.pack Format.binary64 u)).isFinite =
      true := by
  rw [isFinite_unpack_iff]
  cases u with
  | infinity => exact hu.elim
  | notANumber => exact hu.elim
  | zero s =>
    rw [UnpackedFloat.pack, packedZero, unpackExponent_packComponents]
    decide
  | finite s m e hm =>
    have he : e ≤ 971 := hu
    have hbiased : (e + 1023 + 52).toNat < 2047 := by omega
    have hbias : Format.binary64.exponentBias = 1023 := rfl
    simp only [UnpackedFloat.pack, hbias]
    rw [if_neg (by omega)]
    split
    · rw [unpackExponent_packComponents]
      exact ofNat_ne_ones hbiased
    · rw [unpackExponent_packComponents]
      decide

/-- A finite double is unpacked to such a number. -/
theorem packable_unpack {b : BitVec Format.binary64.numBits}
    (hb : (UnpackedFloat.unpack Format.binary64 b).isFinite = true) :
    Packable (UnpackedFloat.unpack Format.binary64 b) := by
  have hones := (isFinite_unpack_iff b).1 hb
  have hlt : (unpackExponent b).toNat < 2047 := by
    have hbound : (unpackExponent b).toNat < 2048 := (unpackExponent b).isLt
    have hne : (unpackExponent b).toNat ≠ 2047 := fun h => hones (BitVec.eq_of_toNat_eq h)
    omega
  unfold UnpackedFloat.unpack
  rw [if_neg hones]
  split
  next hzero =>
    split
    · trivial
    · change ((unpackExponent b).toNat : Int) - (1023 + 52) + 1 ≤ 971
      rw [hzero]
      decide
  next =>
    change ((unpackExponent b).toNat : Int) - (1023 + 52) ≤ 971
    generalize (unpackExponent b).toNat = n at hlt ⊢
    omega

end Packing

variable {x : Float}

theorem isFinite_neg (hx : x.isFinite = true) : (-x).isFinite = true :=
  (packable_unpack hx).neg.isFinite

/-- The double nearest to a word of 64 bits is finite. -/
theorem isFinite_ofNat {n : Nat} (hn : n < UInt64.size) : (Float.ofNat n).isFinite = true := by
  by_cases hpos : 0 < n
  · have hlog : n.log2 < 64 := (Nat.log2_lt (Nat.ne_of_gt hpos)).2 hn
    obtain ⟨m, e, hnormal, hlow, hhigh⟩ := (rounds_nearest hpos).exists_normal
    rw [ofNat_eq_nearest hpos]
    change (UnpackedFloat.unpack Format.binary64
      (UnpackedFloat.pack Format.binary64 (nearest n))).isFinite = true
    rw [hnormal.unpack_pack (by omega) (by omega)]
    exact hnormal.isFinite
  · obtain rfl : n = 0 := by omega
    decide +kernel

end IntentGate.Double
