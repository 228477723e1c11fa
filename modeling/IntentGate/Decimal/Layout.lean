import IntentGate.Decimal.Shortest

/-!
# Layouts of a number's text

A number is written with its shortest digits; a `Layout` says how they are laid out: which
magnitudes are written positionally, whether an integral value keeps `.0`, and how an exponent is
signed. The three layouts in use are `plain` for messages, `diagnostic` for structural dumps and
`document` for stored documents.
-/

namespace IntentGate

/-- How the digits of a number are laid out. -/
structure Layout where
  /-- Whether a number whose leading digit stands at this power of ten is written positionally. -/
  positional : Int → Bool
  /-- Whether a positional integral value is followed by `.0`. -/
  keepsPoint : Bool
  /-- Whether a non-negative exponent is written with a plus sign. -/
  signsExponent : Bool

namespace Layout

/-- Never an exponent, and no `.0`. -/
def plain : Layout := ⟨fun _ => true, false, false⟩

/-- Keeps `.0`; an exponent below `10 ^ -4` and from `10 ^ 16` on. -/
def diagnostic : Layout := ⟨fun e => -4 ≤ e && e < 16, true, false⟩

/-- Keeps `.0`; an exponent, with its sign, below `10 ^ -5` and from `10 ^ 16` on. -/
def document : Layout := ⟨fun e => -5 ≤ e && e < 16, true, true⟩

/-- Digits with a decimal point, the leading digit standing at `10 ^ leading`. -/
def positionalChars (l : Layout) (digits : List Char) (leading : Int) : List Char :=
  if leading < 0 then
    ['0', '.'] ++ List.replicate (leading.natAbs - 1) '0' ++ digits
  else
    let whole := leading.toNat + 1
    if digits.length ≤ whole then
      digits ++ List.replicate (whole - digits.length) '0'
        ++ (if l.keepsPoint then ['.', '0'] else [])
    else digits.take whole ++ '.' :: digits.drop whole

/-- One digit before the point and an exponent. -/
def exponentChars (l : Layout) (digits : List Char) (leading : Int) : List Char :=
  let mantissa :=
    match digits with
    | d :: e :: rest => d :: '.' :: e :: rest
    | ds => ds
  let sign := if leading < 0 then ['-'] else if l.signsExponent then ['+'] else []
  mantissa ++ 'e' :: sign ++ Text.decimalDigits leading.natAbs

/-- The text of a magnitude. -/
def magnitudeChars (l : Layout) (d : Decimal) : List Char :=
  let leading := if d.digits = 0 then 0 else d.leadingExponent
  if l.positional leading then l.positionalChars d.digitChars leading
  else l.exponentChars d.digitChars leading

/-- The text of a number; the sign of a negative zero is kept. -/
def chars (l : Layout) (x : Float) : List Char :=
  if x.isNaN then "NaN".toList
  else
    let sign := if (Binary.ofFloat x).negative then ['-'] else []
    if x.isInf then sign ++ "inf".toList
    else sign ++ l.magnitudeChars (Decimal.shortest x)

/-- The text of a number. -/
def text (l : Layout) (x : Float) : String :=
  String.ofList (l.chars x)

end Layout

end IntentGate
