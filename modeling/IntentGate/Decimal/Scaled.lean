import IntentGate.Text.Digits

/-!
# Numbers scaled by powers of ten

A document's real number is read from a `Word` of its leading digits, as many as 64 bits hold, and
a power of ten. `Word.toFloat` takes the double nearest to the word and multiplies or divides it
once by the double nearest to the power. Each of these steps rounds, so the number read may differ
in its last place from the double nearest to the number written.
-/

namespace IntentGate

/-- A word of digits and the power of ten that it is scaled by. -/
structure Word where
  digits : Nat
  exponent : Int
deriving DecidableEq, Repr

namespace Word

/-- Takes digits behind those of a word as long as 64 bits hold them, and gives the digits left
over. -/
def digitsOnto (word : Nat) : List Char → Nat × List Char
  | [] => (word, [])
  | d :: ds =>
    let longer := 10 * word + Text.digitValue d
    if longer < UInt64.size then digitsOnto longer ds else (word, d :: ds)

/-- The word of a number written with integral digits, fraction digits and an exponent. An integral
digit left over counts as a power of ten, a fraction digit left over is ignored. -/
def ofDigits (whole fraction : List Char) (exponent : Int) : Word :=
  let (word, dropped) := digitsOnto 0 whole
  let (word, ignored) := digitsOnto word fraction
  ⟨word, exponent + dropped.length + ignored.length - fraction.length⟩

/-- The largest exponent of a power of ten that a double holds. -/
def largestPower : Nat := 308

/-- The double nearest to a power of ten. -/
def powerOfTen (n : Nat) : Float :=
  Float.ofScientific 1 false n

/-- Multiplies or divides by a power of ten: beyond the largest power that a double holds the
product is infinite, and a quotient is taken in several steps. Zero stays zero. -/
def scale (x : Float) (exponent : Int) : Float :=
  if exponent.natAbs ≤ largestPower then
    if 0 ≤ exponent then x * powerOfTen exponent.natAbs else x / powerOfTen exponent.natAbs
  else if x == 0 then x
  else if 0 ≤ exponent then 1 / 0
  else scale (x / powerOfTen largestPower) (exponent + largestPower)
termination_by exponent.natAbs
decreasing_by simp only [largestPower] at *; omega

/-- The double that a word stands for. -/
def toFloat (w : Word) : Float :=
  scale (Float.ofNat w.digits) w.exponent

end Word

end IntentGate
