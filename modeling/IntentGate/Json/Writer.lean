import IntentGate.Decimal.Layout
import IntentGate.Json.Basic

/-!
# Writing documents

The compact text of a document: no blanks, fields in the order of the tree, numbers in the
document layout, and in texts only the quote, the backslash and controls escaped.
-/

namespace IntentGate.Json

/-- One character of a text between quotes. -/
def escapedChar (c : Char) : List Char :=
  match c with
  | '"' => ['\\', '"']
  | '\\' => ['\\', '\\']
  | '\x08' => ['\\', 'b']
  | '\x0c' => ['\\', 'f']
  | '\n' => ['\\', 'n']
  | '\r' => ['\\', 'r']
  | '\t' => ['\\', 't']
  | c =>
    let n := c.toNat
    if n < 0x20 then
      ['\\', 'u', '0', '0', Nat.digitChar (n / 16), Nat.digitChar (n % 16)]
    else [c]

/-- A text between quotes. -/
def textChars (s : String) : List Char :=
  '"' :: s.toList.flatMap escapedChar ++ ['"']

/-- The digits of an integer, with a minus sign when negative. -/
def intChars : Int → List Char
  | .ofNat n => Text.decimalDigits n
  | .negSucc n => '-' :: Text.decimalDigits (n + 1)

/-- The text of a number. -/
def Number.chars : Number → List Char
  | int i => intChars i
  | real x => Layout.document.chars x

mutual

/-- The compact text of a document. -/
def chars : Json → List Char
  | null => ['n', 'u', 'l', 'l']
  | bool true => ['t', 'r', 'u', 'e']
  | bool false => ['f', 'a', 'l', 's', 'e']
  | number n => n.chars
  | text s => textChars s
  | array items => '[' :: itemsChars items
  | object fields => '\x7b' :: fieldsChars fields
  | unreadable => ['n', 'u', 'l', 'l']

/-- The items of an array and its closing bracket. -/
def itemsChars : List Json → List Char
  | [] => [']']
  | [item] => chars item ++ [']']
  | item :: rest => chars item ++ ',' :: itemsChars rest

/-- The fields of an object and its closing brace. -/
def fieldsChars : List (String × Json) → List Char
  | [] => ['\x7d']
  | [(name, value)] => textChars name ++ ':' :: chars value ++ ['\x7d']
  | (name, value) :: rest => textChars name ++ ':' :: chars value ++ ',' :: fieldsChars rest

end

/-- The compact text of a document. -/
def render (j : Json) : String :=
  String.ofList j.chars

end IntentGate.Json
