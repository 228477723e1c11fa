import IntentGate.Text.CharSet.GraphemeExtend
import IntentGate.Text.CharSet.Unprintable

/-!
# Quoted text for diagnostics

`quoted s` writes a text between double quotes so that every character of it can be seen: the quote
and the backslash are escaped, common controls have a letter, and what does not print or attaches
to its neighbour is written by its code point.
-/

namespace IntentGate.Text

/-- The digits of a code point in lower-case hexadecimal. -/
def hexDigits (n : Nat) : List Char :=
  Nat.toDigits 16 n

/-- The visible form of one character between quotes. -/
def quotedChar (c : Char) : List Char :=
  match c with
  | '"' => ['\\', '"']
  | '\\' => ['\\', '\\']
  | '\n' => ['\\', 'n']
  | '\r' => ['\\', 'r']
  | '\t' => ['\\', 't']
  | '\x00' => ['\\', '0']
  | c =>
    let n := c.toNat
    if 0x20 ≤ n && n < 0x7F then [c]
    else if CharSet.graphemeExtend.contains c || CharSet.unprintable.contains c then
      ['\\', 'u', '\x7b'] ++ hexDigits n ++ ['\x7d']
    else [c]

/-- A text between double quotes, every character visible. -/
def quoted (s : String) : String :=
  String.ofList ('"' :: s.toList.flatMap quotedChar ++ ['"'])

end IntentGate.Text
