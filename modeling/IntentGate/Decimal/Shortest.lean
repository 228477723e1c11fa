import IntentGate.Decimal.Basic

/-!
# The shortest decimal of a double

Every finite double has an exact decimal expansion. `Decimal.shortest` looks for the fewest digits
that read back as the same double: on the grid of `1, 2, … 17` leading digits it tries the two
neighbours of the exact value, the nearer first. What it returns reads back because that is what it
tests; the exact expansion is the last resort.
-/

namespace IntentGate

/-- A finite double as `significand · 2 ^ exponent` with a sign. -/
structure Binary where
  negative : Bool
  significand : Nat
  exponent : Int
deriving DecidableEq, Repr

namespace Binary

/-- The leading bit of a normal significand, two to the fifty-second. -/
def leadingBit : Nat := 4503599627370496

/-- Reads the sign, exponent and fraction fields of a double. -/
def ofFloat (x : Float) : Binary :=
  let bits := x.toBits.toNat
  let fraction : Nat := bits % leadingBit
  let field : Nat := bits / leadingBit % 2048
  { negative := bits / leadingBit / 2048 = 1
    significand := if field = 0 then fraction else fraction + leadingBit
    exponent := (if field = 0 then 1 else (field : Int)) - 1075 }

/-- The exact decimal expansion of the magnitude. -/
def toDecimal (b : Binary) : Decimal :=
  if 0 ≤ b.exponent then ⟨b.significand * Nat.pow 2 b.exponent.toNat, 0⟩
  else ⟨b.significand * Nat.pow 5 b.exponent.natAbs, b.exponent⟩

end Binary

namespace Decimal

/-- The two neighbours of `d` among the magnitudes with `n` leading digits, the nearer first and
the even one of two equally near. -/
def neighbours (d : Decimal) (n : Nat) : List Decimal :=
  let drop := d.digitChars.length - n
  let unit := Nat.pow 10 drop
  let below := d.digits / unit
  let rest := d.digits % unit
  let low : Decimal := ⟨below, d.exponent + drop⟩
  let high : Decimal := ⟨below + 1, d.exponent + drop⟩
  if 2 * rest < unit ∨ (2 * rest = unit ∧ below % 2 = 0) then [low, high] else [high, low]

/-- The magnitude with the fewest digits that reads back as the finite double `x` up to sign. -/
def shortest (x : Float) : Decimal :=
  let exact := (Binary.ofFloat x).toDecimal
  if exact.digits = 0 then ⟨0, 0⟩
  else
    let candidates := (List.range 17).flatMap fun i => exact.neighbours (i + 1)
    ((candidates.find? fun c => c.toFloat == x.abs).getD exact).normalize

end Decimal

end IntentGate
