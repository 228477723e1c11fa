import IntentGate.Proofs.Double.Order

/-!
# Normal doubles

A number with all its 53 binary digits is `Normal`. Such numbers are ordered by exponent first and
then by significand (`Normal.place_le_iff`). Packing keeps them as they are (`Normal.unpack_pack`)
unless they are too large, in which case it leaves an infinite number, so in any case it keeps the
order (`Normal.ofModel_le`).
-/

namespace IntentGate.Double

open Float.Model Float.Model.UnpackedFloat

/-- A number with all its 53 binary digits, `m · 2 ^ e` up to its sign. -/
inductive Normal (s : Sign) (m : Nat) (e : Int) : UnpackedFloat → Prop where
  | intro (pos : 0 < m) (low : 2 ^ 52 ≤ m) (high : m < 2 ^ 53) : Normal s m e (.finite s m e pos)

theorem log2_eq_of_digits {m : Nat} (low : 2 ^ 52 ≤ m) (high : m < 2 ^ 53) : m.log2 = 52 :=
  (Nat.log2_eq_iff (by omega)).2 ⟨low, high⟩

namespace Normal

variable {s : Sign} {m m' : Nat} {e e' : Int} {u v : UnpackedFloat}

theorem digits (hu : Normal s m e u) : 2 ^ 52 ≤ m ∧ m < 2 ^ 53 := by
  cases hu with | intro _ low high => exact ⟨low, high⟩

theorem isFinite (hu : Normal s m e u) : u.isFinite = true := by
  cases hu
  rfl

theorem neg (hu : Normal s m e u) : Normal (-s) m e u.neg := by
  cases hu with | intro pos low high => exact ⟨pos, low, high⟩

/-! ## Order -/

theorem place_le_iff (hu : Normal .positive m e u) (hv : Normal .positive m' e' v) :
    place u ≤ place v ↔ e < e' ∨ e = e' ∧ m ≤ m' := by
  cases hu
  cases hv
  simp only [place, Prod.Lex.toLex_le_toLex, lt_irrefl, false_or, true_and, Int.ofNat_le]

/-! ## Packing -/

/-- The fields of such a number: its biased exponent, and its significand without the leading
digit. -/
theorem pack_eq (hu : Normal s m e u) (hlarge : e ≤ 971) :
    UnpackedFloat.pack Format.binary64 u =
      packComponents Format.binary64 s (BitVec.ofNat 11 (e + 1075).toNat) (BitVec.ofNat 52 m) := by
  cases hu with | intro pos low high =>
  have hbias : Format.binary64.exponentBias = 1023 := rfl
  simp only [UnpackedFloat.pack, log2_eq_of_digits low high, hbias, Format.mantissaBits]
  rw [if_neg (by omega), if_pos trivial]
  congr 2
  congr 1
  omega

/-- Packing loses nothing unless the number is too small or too large. -/
theorem unpack_pack (hu : Normal s m e u) (hsmall : -1074 ≤ e) (hlarge : e ≤ 971) :
    UnpackedFloat.unpack Format.binary64 (UnpackedFloat.pack Format.binary64 u) = u := by
  rw [hu.pack_eq hlarge]
  cases hu with | intro pos low high =>
  have hexp : (BitVec.ofNat 11 (e + 1075).toNat).toNat = (e + 1075).toNat := by
    rw [BitVec.toNat_ofNat]
    omega
  have hne {v : BitVec 11} (hv : v.toNat ≠ (e + 1075).toNat) :
      BitVec.ofNat 11 (e + 1075).toNat ≠ v := by
    intro heq
    exact hv (by rw [← heq, hexp])
  have hones : BitVec.ofNat 11 (e + 1075).toNat ≠ -1#11 := hne (by
    change 2047 ≠ _
    omega)
  have hzero : BitVec.ofNat 11 (e + 1075).toNat ≠ 0#11 := hne (by
    change 0 ≠ _
    omega)
  -- the leading digit, which packing leaves out, is put back
  have hmantissa : (1#1 ++ BitVec.ofNat 52 m).toNat = m := by
    rw [BitVec.toNat_append, ← Nat.shiftLeft_add_eq_or_of_lt (BitVec.isLt _), BitVec.toNat_ofNat]
    simp only [BitVec.toNat_ofNat, Nat.shiftLeft_eq]
    omega
  rw [UnpackedFloat.unpack]
  simp only [unpackMantissa_packComponents, unpackExponent_packComponents,
    unpackSign_packComponents, Sign.ofBitVec_toBitVec]
  rw [if_neg hones, if_neg hzero, hexp]
  simp only [hmantissa, UnpackedFloat.finite.injEq, Format.exponentBias]
  exact ⟨trivial, trivial, by omega⟩

/-- Packing a number that is too large leaves an infinite one. -/
theorem unpack_pack_of_lt (hu : Normal s m e u) (hlarge : 971 < e) :
    UnpackedFloat.unpack Format.binary64 (UnpackedFloat.pack Format.binary64 u) = .infinity s := by
  cases hu with | intro pos low high =>
  have hbias : Format.binary64.exponentBias = 1023 := rfl
  simp only [UnpackedFloat.pack, hbias]
  rw [if_pos (by omega)]
  cases s <;> rfl

theorem isNaN_unpack_pack (hu : Normal s m e u) (hsmall : -1074 ≤ e) :
    (UnpackedFloat.unpack Format.binary64 (UnpackedFloat.pack Format.binary64 u)).isNaN =
      false := by
  by_cases hlarge : e ≤ 971
  · rw [hu.unpack_pack hsmall hlarge]
    cases hu
    rfl
  · rw [hu.unpack_pack_of_lt (by omega)]
    rfl

/-- Packing keeps the order, also where it leaves infinite numbers. -/
theorem ofModel_le (hu : Normal .positive m e u) (hv : Normal .positive m' e' v)
    (hsmall : -1074 ≤ e) (h : e < e' ∨ e = e' ∧ m ≤ m') :
    Float.ofModel (.pack u) ≤ Float.ofModel (.pack v) := by
  refine le_iff.2 ⟨hu.isNaN_unpack_pack hsmall, hv.isNaN_unpack_pack (by omega), ?_⟩
  change place (UnpackedFloat.unpack Format.binary64 (UnpackedFloat.pack Format.binary64 u)) ≤
    place (UnpackedFloat.unpack Format.binary64 (UnpackedFloat.pack Format.binary64 v))
  by_cases hv' : e' ≤ 971
  · rw [hu.unpack_pack hsmall (by omega), hv.unpack_pack (by omega) hv']
    exact (hu.place_le_iff hv).2 h
  · rw [hv.unpack_pack_of_lt (by omega)]
    by_cases hu' : e ≤ 971
    · rw [hu.unpack_pack hsmall hu']
      cases hu
      exact Prod.Lex.toLex_le_toLex.2 (.inl (Int.lt_succ 1))
    · rw [hu.unpack_pack_of_lt (by omega)]

/-- Negation turns the order round. -/
theorem neg_ofModel_le (hu : Normal .positive m e u) (hv : Normal .positive m' e' v)
    (hsmall : -1074 ≤ e) (hlarge : e' ≤ 971) (h : e < e' ∨ e = e' ∧ m ≤ m') :
    -Float.ofModel (.pack v) ≤ -Float.ofModel (.pack u) := by
  have hneg {m : Nat} {e : Int} {u : UnpackedFloat} (hu : Normal .positive m e u)
      (hsmall : -1074 ≤ e) (hlarge : e ≤ 971) :
      (-Float.ofModel (.pack u)).toModel.unpack = u.neg := by
    change UnpackedFloat.unpack Format.binary64 (UnpackedFloat.pack Format.binary64
      (UnpackedFloat.unpack Format.binary64 (UnpackedFloat.pack Format.binary64 u)).neg) = u.neg
    rw [hu.unpack_pack hsmall hlarge, hu.neg.unpack_pack hsmall hlarge]
  have hu' := hneg hu hsmall (by omega)
  have hv' := hneg hv (by omega) hlarge
  cases hu
  cases hv
  refine le_iff.2 ⟨congrArg UnpackedFloat.isNaN hv', congrArg UnpackedFloat.isNaN hu', ?_⟩
  rw [hu', hv']
  refine Prod.Lex.toLex_le_toLex.2 (.inr ⟨rfl, Prod.Lex.toLex_le_toLex.2 ?_⟩)
  omega

end Normal

end IntentGate.Double
