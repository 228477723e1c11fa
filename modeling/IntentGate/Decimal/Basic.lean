import IntentGate.Text.Digits

/-!
# Decimal numbers

A `Decimal` is a magnitude `digits · 10 ^ exponent`. `normalize` gives each magnitude one
representation, and `toFloat` is the double nearest to a magnitude, computed from that
representation, so that it depends on the magnitude alone.
-/

namespace IntentGate

/-- The magnitude `digits · 10 ^ exponent`. -/
structure Decimal where
  digits : Nat
  exponent : Int
deriving DecidableEq, Repr

namespace Decimal

/-- Moves the trailing zeros of `digits` into the exponent. -/
def normalizeFrom (digits : Nat) (exponent : Int) : Decimal :=
  if h : digits ≠ 0 ∧ digits % 10 = 0 then normalizeFrom (digits / 10) (exponent + 1)
  else ⟨digits, exponent⟩
termination_by digits
decreasing_by omega

/-- The same magnitude with no trailing zero among its digits; zero is `0 · 10 ^ 0`. -/
def normalize (d : Decimal) : Decimal :=
  if d.digits = 0 then ⟨0, 0⟩ else normalizeFrom d.digits d.exponent

/-- The decimal digits, most significant first. -/
def digitChars (d : Decimal) : List Char :=
  Text.decimalDigits d.digits

/-- The power of ten of the leading digit. -/
def leadingExponent (d : Decimal) : Int :=
  d.exponent + d.digitChars.length - 1

/-- The double nearest to a magnitude, the even one of two equally near, infinity beyond the
largest. -/
def toFloat (d : Decimal) : Float :=
  let n := d.normalize
  if n.digits = 0 ∨ n.leadingExponent < -330 then 0
  else if 310 < n.leadingExponent then 1 / 0
  else Float.ofScientific n.digits (n.exponent < 0) n.exponent.natAbs

end Decimal

end IntentGate
