import IntentGate.Decimal.Basic
import IntentGate.Text.Digits

/-!
# Reading numbers from text

The text of a number as a person writes it in a setting or a stored condition: an optional sign,
then decimal digits with an optional point and exponent, or one of the names of the special values.
A fault says why a text is not a number, in the words of its `message`.
-/

namespace IntentGate

/-- Why a text is not a natural number. -/
inductive NaturalFault where
  | empty
  | badDigit
  | tooLarge
deriving DecidableEq, Repr

/-- Why a text is not a real number. -/
inductive RealFault where
  | empty
  | malformed
deriving DecidableEq, Repr

namespace NaturalFault

/-- The wording of the fault. -/
def message : NaturalFault → String
  | empty => "cannot parse integer from empty string"
  | badDigit => "invalid digit found in string"
  | tooLarge => "number too large to fit in target type"

end NaturalFault

namespace RealFault

/-- The wording of the fault. -/
def message : RealFault → String
  | empty => "cannot parse float from empty string"
  | malformed => "invalid float literal"

end RealFault

namespace Reading

open Text (isDigit digitValue digitsValue)

/-- Reads digits onto `acc` from the left; the first character that is no digit, or the first
digit that passes `bound`, is the fault. -/
def naturalFrom (bound acc : Nat) : List Char → Except NaturalFault Nat
  | [] => .ok acc
  | c :: rest =>
    if !isDigit c then .error .badDigit
    else if bound < 10 * acc + digitValue c then .error .tooLarge
    else naturalFrom bound (10 * acc + digitValue c) rest

/-- Reads a natural number up to `bound`, with an optional plus sign. -/
def natural (bound : Nat) (s : String) : Except NaturalFault Nat :=
  match s.toList with
  | [] => .error .empty
  | ['+'] => .error .badDigit
  | '+' :: rest => naturalFrom bound 0 rest
  | cs => naturalFrom bound 0 cs

/-- Reads the digits of an exponent, after its `e`. -/
def exponent? (cs : List Char) : Option Int :=
  let (negative, ds) :=
    match cs with
    | '-' :: ds => (true, ds)
    | '+' :: ds => (false, ds)
    | ds => (false, ds)
  if ds.isEmpty || !ds.all isDigit then none
  else
    let n : Int := digitsValue ds
    some (if negative then -n else n)

/-- Reads digits with an optional point and exponent, at least one digit before the exponent. -/
def magnitude? (cs : List Char) : Option Decimal :=
  let whole := cs.takeWhile isDigit
  let (fraction, rest) :=
    match cs.dropWhile isDigit with
    | '.' :: more => (more.takeWhile isDigit, more.dropWhile isDigit)
    | more => ([], more)
  if whole.isEmpty && fraction.isEmpty then none
  else
    let digits := digitsValue (whole ++ fraction)
    match rest with
    | [] => some ⟨digits, -fraction.length⟩
    | e :: more =>
      if e = 'e' ∨ e = 'E' then
        (exponent? more).map fun n => ⟨digits, n - fraction.length⟩
      else none

/-- Reads an unsigned number or the name of a special value. -/
def unsignedReal? (cs : List Char) : Option Float :=
  let name := cs.map Char.toLower
  if name = "inf".toList ∨ name = "infinity".toList then some (1 / 0)
  else if name = "nan".toList then some (0 / 0)
  else (magnitude? cs).map Decimal.toFloat

/-- Reads a real number with an optional sign. -/
def real (s : String) : Except RealFault Float :=
  match s.toList with
  | [] => .error .empty
  | '-' :: cs => ((unsignedReal? cs).map (- ·)).elim (.error .malformed) .ok
  | '+' :: cs => (unsignedReal? cs).elim (.error .malformed) .ok
  | cs => (unsignedReal? cs).elim (.error .malformed) .ok

end Reading

end IntentGate
