import IntentGate.Proofs.Decimal.Numerals
import IntentGate.Proofs.Double.Finite
import IntentGate.Proofs.Double.Order

/-!
# Differences of doubles

The difference of a number and a finite double is a number (`isNaN_sub`), so how far two such
doubles are apart always compares with a tolerance. A finite double is not apart from one that
compares equal to it (`abs_sub_of_beq`), and two natural numbers below `2 ^ 53` are apart by their
distance exactly (`abs_sub_ofNat`), which is zero or at least one.
-/

namespace IntentGate.Double

open Float.Model Float.Model.UnpackedFloat

/-! ## Numbers -/

section Numbers

theorem isNaN_roundWithAccuracy (s : Sign) (m : Nat) (e : Int) (a : Accuracy) :
    (roundWithAccuracy Format.binary64 s m e a).isNaN = false := by
  unfold roundWithAccuracy
  dsimp only
  split <;> rfl

theorem isNaN_normalize (m e : Int) (s : Sign) :
    (UnpackedFloat.normalize Format.binary64 m e s).isNaN = false := by
  unfold UnpackedFloat.normalize
  split
  · exact isNaN_roundWithAccuracy ..
  · rfl
  · exact isNaN_roundWithAccuracy ..

theorem isNaN_sub_unpacked {u v : UnpackedFloat} (hu : u.isNaN = false)
    (hv : v.isFinite = true) : (UnpackedFloat.sub Format.binary64 u v).isNaN = false := by
  cases u with
  | notANumber => cases hu
  | infinity s => cases v <;> first | rfl | cases hv
  | zero s =>
    cases v with
    | zero t =>
      rw [UnpackedFloat.sub]
      split <;> rfl
    | finite t n f hn => rfl
    | _ => cases hv
  | finite s m e hm =>
    cases v with
    | zero t => rfl
    | finite t n f hn => exact isNaN_normalize ..
    | _ => cases hv

/-- Packing a number gives the bits of a number. -/
theorem isNaN_unpack_pack {u : UnpackedFloat} (hu : u.isNaN = false) :
    (UnpackedFloat.unpack Format.binary64 (UnpackedFloat.pack Format.binary64 u)).isNaN =
      false := by
  by_contra h
  obtain ⟨hexponent, hmantissa⟩ := Layout.components_of_isNaN (Bool.of_not_eq_false h)
  cases u with
  | notANumber => cases hu
  | infinity s => exact hmantissa (unpackMantissa_packComponents ..)
  | zero s =>
    rw [UnpackedFloat.pack, packedZero, unpackExponent_packComponents] at hexponent
    exact absurd hexponent (by decide)
  | finite s m e hm =>
    rw [UnpackedFloat.pack] at hexponent hmantissa
    split at hexponent
    · next hbeyond =>
      rw [if_pos hbeyond] at hmantissa
      exact hmantissa (unpackMantissa_packComponents ..)
    · next hwithin =>
      have hlimit : 2 ^ Format.binary64.exponentBits = 2048 := rfl
      rw [hlimit] at hwithin
      split at hexponent
      · rw [unpackExponent_packComponents] at hexponent
        exact ofNat_ne_ones (by omega) hexponent
      · rw [unpackExponent_packComponents] at hexponent
        exact absurd hexponent (by decide)

variable {x y : Float}

theorem isNaN_of_isFinite (hx : x.isFinite = true) : x.isNaN = false := by
  change x.toModel.unpack.isFinite = true at hx
  change x.toModel.unpack.isNaN = false
  cases hu : x.toModel.unpack <;> rw [hu] at hx <;> first | rfl | cases hx

theorem isNaN_sub (hx : x.isNaN = false) (hy : y.isFinite = true) : (x - y).isNaN = false :=
  isNaN_unpack_pack (isNaN_sub_unpacked hx hy)

/-- What is no number stays none in a difference. -/
theorem isNaN_of_isNaN_sub (h : (x - y).isNaN = false) : x.isNaN = false := by
  by_contra hx
  change x.toModel.unpack.isNaN ≠ false at hx
  change (UnpackedFloat.unpack Format.binary64 (UnpackedFloat.pack Format.binary64
    (UnpackedFloat.sub Format.binary64 x.toModel.unpack y.toModel.unpack))).isNaN = false at h
  cases hu : x.toModel.unpack with
  | notANumber =>
    rw [hu, UnpackedFloat.sub, UnpackedFloat.pack, unpack_packedNaN] at h
    cases h
  | _ => rw [hu] at hx; exact hx rfl

theorem isNaN_abs : x.abs.isNaN = x.isNaN := by
  change (UnpackedFloat.unpack Format.binary64 (UnpackedFloat.pack Format.binary64
    x.toModel.unpack.abs)).isNaN = x.toModel.unpack.isNaN
  cases hu : x.toModel.unpack with
  | notANumber =>
    rw [UnpackedFloat.abs, UnpackedFloat.pack, unpack_packedNaN]
  | _ => exact isNaN_unpack_pack rfl

/-- What is within a distance of something is a number. -/
theorem isNaN_of_abs_sub_lt {t : Float} (h : (x - y).abs < t) : x.isNaN = false := by
  have hapart := (lt_iff.1 h).1
  rw [isNaN_abs] at hapart
  exact isNaN_of_isNaN_sub hapart

end Numbers

/-! ## Equal numbers -/

section Equality

theorem sub_self_unpacked {u : UnpackedFloat} (hu : u.isFinite = true) :
    UnpackedFloat.sub Format.binary64 u u = .zero .positive := by
  cases u with
  | zero s => cases s <;> rfl
  | finite s m e hm =>
    simp only [UnpackedFloat.sub, Int.sub_self, UnpackedFloat.normalize]
    rfl
  | _ => cases hu

variable {x y : Float}

/-- A finite double is not apart from one that compares equal to it. -/
theorem abs_sub_of_beq (hy : y.isFinite = true) (h : (x == y) = true) : (x - y).abs = 0 := by
  rcases Float.beq_iff_ne_nan_and_eq.1 h with ⟨-, -, rfl | ⟨rfl, rfl⟩ | ⟨rfl, rfl⟩⟩
  · change Float.ofModel (.pack (UnpackedFloat.abs (UnpackedFloat.unpack Format.binary64
      (UnpackedFloat.pack Format.binary64
        (UnpackedFloat.sub Format.binary64 x.toModel.unpack x.toModel.unpack))))) = 0
    rw [sub_self_unpacked hy]
    decide +kernel
  · decide +kernel
  · decide +kernel

end Equality

/-! ## Natural numbers -/

section Natural

theorem abs_roundWithAccuracy (s : Sign) (m : Nat) (e : Int) (a : Accuracy) :
    (roundWithAccuracy Format.binary64 s m e a).abs =
      roundWithAccuracy Format.binary64 .positive m e a := by
  unfold roundWithAccuracy
  dsimp only
  split <;> rfl

theorem abs_normalize (m e : Int) :
    (UnpackedFloat.normalize Format.binary64 m e .positive).abs =
      UnpackedFloat.normalize Format.binary64 (m.natAbs : Int) e .positive := by
  rcases Int.lt_trichotomy m 0 with hneg | rfl | hpos
  · have hnat : (0 : Int) < (m.natAbs : Int) := by omega
    have habs : (-m).toNat = ((m.natAbs : Int)).toNat := by omega
    simp only [UnpackedFloat.normalize, Int.compare_eq_lt.2 hneg, Int.compare_eq_gt.2 hnat, habs]
    exact abs_roundWithAccuracy ..
  · rfl
  · have hnat : (m.natAbs : Int) = m := by omega
    rw [hnat]
    simp only [UnpackedFloat.normalize, Int.compare_eq_gt.2 hpos]
    exact abs_roundWithAccuracy ..

/-- The unpacked difference of two natural numbers is their distance, up to its sign. -/
theorem abs_sub_natural {a b : Nat} (ha : a < 2 ^ 53) (hb : b < 2 ^ 53) :
    (UnpackedFloat.sub Format.binary64 (natural a) (natural b)).abs =
      natural (a - b + (b - a)) := by
  by_cases ha₀ : a = 0
  · subst ha₀
    rw [Nat.zero_sub, Nat.zero_add, Nat.sub_zero]
    by_cases hb₀ : b = 0
    · subst hb₀
      rfl
    · simp [natural, hb₀, UnpackedFloat.sub, UnpackedFloat.abs]
  · by_cases hb₀ : b = 0
    · subst hb₀
      simp [natural, ha₀, UnpackedFloat.sub, UnpackedFloat.abs]
    · have hmin : min (-(shift a : Int)) (-(shift b : Int)) =
          -((max (shift a) (shift b) : Nat) : Int) := by omega
      have hmaxa : max (shift a) (max (shift a) (shift b)) = max (shift a) (shift b) := by omega
      have hmaxb : max (shift b) (max (shift a) (shift b)) = max (shift a) (shift b) := by omega
      have hsub : UnpackedFloat.sub Format.binary64 (natural a) (natural b) =
          UnpackedFloat.normalize Format.binary64
            (((a * 2 ^ max (shift a) (shift b) : Nat) : Int) -
              ((b * 2 ^ max (shift a) (shift b) : Nat) : Int))
            (-((max (shift a) (shift b) : Nat) : Int)) .positive := by
        simp only [natural, ha₀, hb₀, dite_false, UnpackedFloat.sub, hmin, decreaseExponent_eq,
          hmaxa, hmaxb, Sign.apply]
      generalize max (shift a) (shift b) = k at hsub
      have hdistance : (((a * 2 ^ k : Nat) : Int) - ((b * 2 ^ k : Nat) : Int)).natAbs =
          (a - b + (b - a)) * 2 ^ k := by
        rw [Nat.add_mul, Nat.sub_mul, Nat.sub_mul]
        omega
      rw [hsub, abs_normalize, hdistance, normalize_eq (by omega)]

theorem abs_unpack_packComponents (s : Sign) (e : BitVec 11) (m : BitVec 52) :
    (UnpackedFloat.unpack Format.binary64 (packComponents Format.binary64 s e m)).abs =
      UnpackedFloat.unpack Format.binary64 (packComponents Format.binary64 .positive e m) := by
  unfold UnpackedFloat.unpack
  simp only [unpackMantissa_packComponents, unpackExponent_packComponents,
    unpackSign_packComponents, Sign.ofBitVec_toBitVec]
  split
  · split <;> rfl
  · split
    · split <;> rfl
    · rfl

/-- What is packed without its sign is unpacked without it. -/
theorem abs_unpack_pack (u : UnpackedFloat) :
    (UnpackedFloat.unpack Format.binary64 (UnpackedFloat.pack Format.binary64 u)).abs =
      UnpackedFloat.unpack Format.binary64 (UnpackedFloat.pack Format.binary64 u.abs) := by
  cases u with
  | notANumber =>
    rw [UnpackedFloat.pack, unpack_packedNaN]
    exact unpack_packedNaN.symm
  | infinity s => exact abs_unpack_packComponents ..
  | zero s => exact abs_unpack_packComponents ..
  | finite s m e hm =>
    rw [UnpackedFloat.abs, UnpackedFloat.pack, UnpackedFloat.pack]
    split
    · exact abs_unpack_packComponents ..
    · split <;> exact abs_unpack_packComponents ..

/-- Two natural numbers below `2 ^ 53` are apart by their distance. -/
theorem abs_sub_ofNat {a b : Nat} (ha : a < 2 ^ 53) (hb : b < 2 ^ 53) :
    (Float.ofNat a - Float.ofNat b).abs = Float.ofNat (a - b + (b - a)) := by
  have hlt : a - b + (b - a) < 2 ^ 53 := by omega
  rw [ofNat_eq_ofNatural ha, ofNat_eq_ofNatural hb, ofNat_eq_ofNatural hlt]
  change Float.ofModel (.pack (UnpackedFloat.abs (UnpackedFloat.unpack Format.binary64
    (UnpackedFloat.pack Format.binary64 (UnpackedFloat.sub Format.binary64
      (ofNatural a).toModel.unpack (ofNatural b).toModel.unpack))))) = _
  rw [unpack_ofNatural ha, unpack_ofNatural hb, abs_unpack_pack, abs_sub_natural ha hb,
    unpack_pack_natural hlt]
  rfl

/-- A tolerance of at most one tells natural numbers apart. -/
theorem abs_sub_ofNat_lt_iff {a b : Nat} (ha : a < 2 ^ 53) (hb : b < 2 ^ 53) {t : Float}
    (hpos : 0 < t) (hone : t ≤ 1) : (Float.ofNat a - Float.ofNat b).abs < t ↔ a = b := by
  rw [abs_sub_ofNat ha hb]
  constructor
  · intro hnear
    by_contra hne
    have hdistance : 0 < a - b + (b - a) := by omega
    have hfar := le_trans hone (one_le_ofNat hdistance)
    exact not_lt_of_le hfar hnear
  · rintro rfl
    rw [Nat.sub_self]
    exact hpos

end Natural

end IntentGate.Double
