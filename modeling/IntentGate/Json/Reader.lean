import IntentGate.Decimal.Scaled
import IntentGate.Json.Basic

/-!
# Reading documents

`Json.parse?` reads the whole of a text as one document. Each reader takes the characters still to
come and gives what it read with the rest. Blanks are the space, the tab and the line ends. Integers
that fit a signed or unsigned word of 64 bits stay integers; minus zero and longer ones are reals.
-/

namespace IntentGate.Json

open Text (isDigit digitsValue)

/-- The blanks between tokens. -/
def isGap (c : Char) : Bool :=
  c == ' ' || c == '\n' || c == '\t' || c == '\r'

/-- The text from its first token on. -/
def skipGap (cs : List Char) : List Char :=
  cs.dropWhile isGap

/-! ## Numbers -/

/-- The parts of a number as written: its integral digits, and its fraction digits and exponent
when it has either. -/
structure Literal where
  negative : Bool
  whole : List Char
  rest : Option (List Char × Int)

/-- The number that a literal stands for. -/
def Literal.toJson (l : Literal) : Json :=
  let real (w : Word) : Json :=
    let x := w.toFloat
    if x.isFinite then .number (.real (if l.negative then -x else x)) else .unreadable
  let n := digitsValue l.whole
  match l.rest with
  | some (fraction, exponent) => real (.ofDigits l.whole fraction exponent)
  | none =>
    if l.negative then
      if n ≠ 0 ∧ n ≤ UInt64.size / 2 then .number (.int (-n)) else real (.ofDigits l.whole [] 0)
    else if n < UInt64.size then .number (.int n)
    else real (.ofDigits l.whole [] 0)

/-- Integral digits: a zero alone, or digits that do not start with zero. -/
def whole? (cs : List Char) : Option (List Char × List Char) :=
  match cs.takeWhile isDigit with
  | [] => none
  | ['0'] => some (['0'], cs.dropWhile isDigit)
  | '0' :: _ => none
  | ds => some (ds, cs.dropWhile isDigit)

/-- An optional fraction: a point and at least one digit. -/
def fraction? (cs : List Char) : Option (Option (List Char) × List Char) :=
  match cs with
  | '.' :: rest =>
    match rest.takeWhile isDigit with
    | [] => none
    | ds => some (some ds, rest.dropWhile isDigit)
  | _ => some (none, cs)

/-- The digits of an exponent with an optional sign. -/
def exponentDigits? (cs : List Char) : Option (Int × List Char) :=
  let unsigned (sign : Int) (cs : List Char) : Option (Int × List Char) :=
    match cs.takeWhile isDigit with
    | [] => none
    | ds => some (sign * digitsValue ds, cs.dropWhile isDigit)
  match cs with
  | '-' :: rest => unsigned (-1) rest
  | '+' :: rest => unsigned 1 rest
  | rest => unsigned 1 rest

/-- An optional exponent. -/
def exponent? (cs : List Char) : Option (Option Int × List Char) :=
  match cs with
  | 'e' :: rest => (exponentDigits? rest).map fun (e, rest) => (some e, rest)
  | 'E' :: rest => (exponentDigits? rest).map fun (e, rest) => (some e, rest)
  | _ => some (none, cs)

/-- A number without its sign. -/
def unsignedLiteral? (negative : Bool) (cs : List Char) : Option (Literal × List Char) := do
  let (ds, cs) ← whole? cs
  let (fraction, cs) ← fraction? cs
  let (exponent, cs) ← exponent? cs
  let rest :=
    if fraction.isNone && exponent.isNone then none
    else some (fraction.getD [], exponent.getD 0)
  some (⟨negative, ds, rest⟩, cs)

/-- A number. -/
def number? (cs : List Char) : Option (Json × List Char) :=
  let literal :=
    match cs with
    | '-' :: rest => unsignedLiteral? true rest
    | _ => unsignedLiteral? false cs
  literal.map fun (l, rest) => (l.toJson, rest)

/-! ## Texts -/

/-- The value of a hexadecimal digit. -/
def hexValue? (c : Char) : Option Nat :=
  if isDigit c then some (c.toNat - '0'.toNat)
  else if 'a' ≤ c ∧ c ≤ 'f' then some (c.toNat - 'a'.toNat + 10)
  else if 'A' ≤ c ∧ c ≤ 'F' then some (c.toNat - 'A'.toNat + 10)
  else none

/-- The value of four hexadecimal digits. -/
def hexUnit? (a b c d : Char) : Option Nat := do
  let a ← hexValue? a
  let b ← hexValue? b
  let c ← hexValue? c
  let d ← hexValue? d
  some (((a * 16 + b) * 16 + c) * 16 + d)

/-- What a backslash and one letter stand for. -/
def escapeLetter? (c : Char) : Option Nat :=
  match c with
  | '"' => some 0x22
  | '\\' => some 0x5C
  | '/' => some 0x2F
  | 'b' => some 0x08
  | 'f' => some 0x0C
  | 'n' => some 0x0A
  | 'r' => some 0x0D
  | 't' => some 0x09
  | _ => none

/-- The code units of a text after its opening quote, up to the closing one. A unit is a code point,
or half of a surrogate pair where an escape names one. -/
def units? : List Char → Option (List Nat × List Char)
  | [] => none
  | '"' :: rest => some ([], rest)
  | '\\' :: 'u' :: a :: b :: c :: d :: rest => do
    let u ← hexUnit? a b c d
    let (us, rest) ← units? rest
    some (u :: us, rest)
  | '\\' :: c :: rest => do
    let u ← escapeLetter? c
    let (us, rest) ← units? rest
    some (u :: us, rest)
  | c :: rest => do
    if c.toNat < 0x20 then none
    let (us, rest) ← units? rest
    some (c.toNat :: us, rest)

/-- The first half of a surrogate pair. -/
def isHighHalf (n : Nat) : Bool := 0xD800 ≤ n && n < 0xDC00

/-- The second half of a surrogate pair. -/
def isLowHalf (n : Nat) : Bool := 0xDC00 ≤ n && n < 0xE000

/-- Joins surrogate pairs; none if a half stands alone. -/
def joinUnits? : List Nat → Option (List Char)
  | [] => some []
  | u :: rest =>
    if isHighHalf u then
      match rest with
      | v :: rest =>
        if isLowHalf v then
          (joinUnits? rest).map
            (Char.ofNat (0x10000 + (u - 0xD800) * 0x400 + (v - 0xDC00)) :: ·)
        else none
      | [] => none
    else if isLowHalf u then none
    else (joinUnits? rest).map (Char.ofNat u :: ·)

/-- A text after its opening quote; none inside where it is unreadable. -/
def text? (cs : List Char) : Option (Option String × List Char) :=
  (units? cs).map fun (us, rest) => ((joinUnits? us).map String.ofList, rest)

/-! ## Trees -/

/-- Removes a word from the front. -/
def word? (word cs : List Char) : Option (List Char) :=
  if word.isPrefixOf cs then some (cs.drop word.length) else none

mutual

/-- One value, from its first character on. -/
def value? (fuel : Nat) (cs : List Char) : Option (Json × List Char) :=
  match fuel with
  | 0 => none
  | fuel + 1 =>
    match cs with
    | [] => none
    | c :: rest =>
      if c = 'n' then (word? ['u', 'l', 'l'] rest).map fun rest => (null, rest)
      else if c = 't' then (word? ['r', 'u', 'e'] rest).map fun rest => (bool true, rest)
      else if c = 'f' then (word? ['a', 'l', 's', 'e'] rest).map fun rest => (bool false, rest)
      else if c = '"' then
        (text? rest).map fun (s, rest) => (s.elim unreadable text, rest)
      else if c = '[' then
        match skipGap rest with
        | ']' :: rest => some (array [], rest)
        | rest => (items? fuel rest).map fun (items, rest) => (array items, rest)
      else if c = '\x7b' then
        match skipGap rest with
        | '\x7d' :: rest => some (object [], rest)
        | rest =>
          (fields? fuel rest).map fun (fields, rest) => (fields.elim unreadable object, rest)
      else number? cs

/-- The items of an array, from the first one to the closing bracket. -/
def items? (fuel : Nat) (cs : List Char) : Option (List Json × List Char) :=
  match fuel with
  | 0 => none
  | fuel + 1 => do
    let (item, cs) ← value? fuel cs
    match skipGap cs with
    | ']' :: cs => some ([item], cs)
    | ',' :: cs =>
      let (items, cs) ← items? fuel (skipGap cs)
      some (item :: items, cs)
    | _ => none

/-- The fields of an object, from the first one to the closing brace; none inside when a name is
unreadable. -/
def fields? (fuel : Nat) (cs : List Char) : Option (Option (List (String × Json)) × List Char) :=
  match fuel with
  | 0 => none
  | fuel + 1 =>
    match cs with
    | '"' :: cs => do
      let (name, cs) ← text? cs
      match skipGap cs with
      | ':' :: cs =>
        let (value, cs) ← value? fuel (skipGap cs)
        let field := name.map fun name => (name, value)
        match skipGap cs with
        | '\x7d' :: cs => some (field.map fun f => [f], cs)
        | ',' :: cs =>
          let (fields, cs) ← fields? fuel (skipGap cs)
          let joined := field.bind fun f => fields.map fun fs => f :: fs
          some (joined, cs)
        | _ => none
      | _ => none
    | _ => none

end

/-- Reads the whole of a text as one document, with blanks around it. -/
def parse? (s : String) : Option Json :=
  let cs := s.toList
  match value? (2 * cs.length + 2) (skipGap cs) with
  | some (j, rest) => if (skipGap rest).isEmpty then some j else none
  | none => none

end IntentGate.Json
