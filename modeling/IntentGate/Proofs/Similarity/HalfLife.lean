import IntentGate.Proofs.Double.Rounding
import IntentGate.Similarity

/-!
# Half-lives and their milliseconds

Decay counts whole milliseconds, of the half-life as of the age (`decayBy_natCast`). Cutting both
off keeps their order, and so do their conversion to doubles and the rounding of the quotient: at
the age of one half-life at most one half is left, for all half-lives that have a millisecond.
A shorter one has none to count, and then nothing decays at any age, just as if the half-life were
not positive.
-/

namespace IntentGate

/-- A span that is not negative has a whole millisecond for each million of its nanoseconds. -/
theorem Span.milliseconds_natCast (n : Nat) :
    Span.milliseconds (n : Int) = ((n / 1000000 : Nat) : Int) := rfl

namespace Similarity

variable {powerOfTwo : Float → Float} {halfLife age : Span}

/-- A half-life without a whole millisecond disables decay. -/
theorem decayBy_of_lt_millisecond (h : halfLife < 1000000) (age : Span) :
    decayBy powerOfTwo halfLife age = 1 := by
  have hmilliseconds : halfLife.milliseconds ≤ 0 :=
    Int.tdiv_le_tdiv (by decide : (0 : Int) < 1000000) (Int.le_sub_one_of_lt h)
  unfold decayBy
  rw [if_pos hmilliseconds, ite_self]

theorem decayBy_natCast {h a : Nat} (hh : 1000000 ≤ h) (ha : 0 < a) :
    decayBy powerOfTwo (h : Int) (a : Int) =
      powerOfTwo (-(Float.ofNat (a / 1000000) / Float.ofNat (h / 1000000))) := by
  have hmilliseconds : 0 < h / 1000000 := Nat.div_pos hh (by decide)
  unfold decayBy
  rw [Span.milliseconds_natCast, Span.milliseconds_natCast,
    if_neg (Int.not_le.2 (Int.natCast_pos.2 ha)),
    if_neg (Int.not_le.2 (Int.natCast_pos.2 hmilliseconds))]
  rfl

theorem decayBy_natCast_le_half (hpow : ∀ x, x ≤ -1 → powerOfTwo x ≤ 0.5) {h a : Nat}
    (hh : 1000000 ≤ h) (hha : h ≤ a) (ha : a ≤ (2 ^ 63 - 1) * 1000000) :
    decayBy powerOfTwo (h : Int) (a : Int) ≤ 0.5 := by
  have hhalf : 0 < h / 1000000 := Nat.div_pos hh (by decide)
  have hcut : h / 1000000 ≤ a / 1000000 := Nat.div_le_div_right hha
  rw [decayBy_natCast hh (by omega)]
  exact hpow _ (Double.neg_ofNat_div_ofNat_le hhalf hcut (by omega))

/-- At the age of a half-life or more at most one half is left, if powers of two are at most one
half from the exponent minus one down. The half-life needs a whole millisecond for that, and one
without disables decay. -/
theorem halves_from_one_millisecond (hpow : ∀ x, x ≤ -1 → powerOfTwo x ≤ 0.5)
    (halfLife : Span) :
    (1000000 ≤ halfLife → ∀ age, halfLife ≤ age → age ≤ Span.longest →
      decayBy powerOfTwo halfLife age ≤ 0.5) ∧
    (halfLife < 1000000 → ∀ age, decayBy powerOfTwo halfLife age = 1) := by
  refine ⟨fun hlow age hage hlong => ?_, decayBy_of_lt_millisecond⟩
  obtain ⟨h, rfl⟩ := Int.eq_ofNat_of_zero_le (Int.le_trans (by decide) hlow)
  obtain ⟨a, rfl⟩ := Int.eq_ofNat_of_zero_le (Int.le_trans (Int.natCast_nonneg h) hage)
  exact decayBy_natCast_le_half hpow (Int.ofNat_le.1 hlow) (Int.ofNat_le.1 hage)
    (Int.ofNat_le.1 hlong)

/-- A half-life of 100 s after 100 s and after 300 s, with powers of two that are right there. -/
theorem halves_from_one_millisecond_at_100_seconds :
    let powerOfTwo : Float → Float := fun x => if x ≤ -3 then 0.125 else if x ≤ -1 then 0.5 else 1
    decayBy powerOfTwo (Span.ofSeconds 100) (Span.ofSeconds 100) ≤ 0.5 ∧
      decayBy powerOfTwo (Span.ofSeconds 100) (Span.ofSeconds 300) ≤ 0.5 := by
  intro powerOfTwo
  have hpow (x : Float) (hx : x ≤ -1) : powerOfTwo x ≤ 0.5 := by
    simp only [powerOfTwo, if_pos hx]
    split <;> decide +kernel
  obtain ⟨hhalves, -⟩ := halves_from_one_millisecond hpow (Span.ofSeconds 100)
  exact ⟨hhalves (by decide) _ (by decide) (by decide),
    hhalves (by decide) _ (by decide) (by decide)⟩

/-- A half-life one nanosecond short of a millisecond is positive, but its decay is disabled. -/
theorem no_decay_at_999999_nanoseconds :
    let halfLife : Span := 999999
    0 < halfLife ∧ decayFactor halfLife halfLife = 1 ∧ ¬decayFactor halfLife halfLife ≤ 0.5 := by
  intro halfLife
  have hfactor : decayFactor halfLife halfLife = 1 := decayBy_of_lt_millisecond (by decide) _
  rw [hfactor]
  exact ⟨by decide, rfl, by decide +kernel⟩

end Similarity

end IntentGate
