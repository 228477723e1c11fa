/-!
# Decimal digits

The ten digits as characters, and the number that a run of them writes.
-/

namespace IntentGate.Text

/-- Whether a character is a decimal digit. -/
def isDigit (c : Char) : Bool :=
  '0' ≤ c && c ≤ '9'

/-- The value of a decimal digit. -/
def digitValue (c : Char) : Nat :=
  c.toNat - '0'.toNat

/-- The value of a run of decimal digits. -/
def digitsValue (cs : List Char) : Nat :=
  cs.foldl (fun n c => 10 * n + digitValue c) 0

/-- The decimal digits of a number, most significant first. -/
def decimalDigits (n : Nat) : List Char :=
  Nat.toDigits 10 n

end IntentGate.Text
