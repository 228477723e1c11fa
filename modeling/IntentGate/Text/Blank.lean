/-!
# Blank characters

Blanks are the code points with the `White_Space` property; `trim` drops them at both ends of a
text and keeps the rest as it stands.
-/

namespace IntentGate.Text

/-- The code points with the `White_Space` property. -/
def isBlank (c : Char) : Bool :=
  let n := c.toNat
  (9 ≤ n && n ≤ 13) || n == 0x20 || n == 0x85 || n == 0xA0 || n == 0x1680
    || (0x2000 ≤ n && n ≤ 0x200A) || n == 0x2028 || n == 0x2029 || n == 0x202F || n == 0x205F
    || n == 0x3000

/-- A list of characters without its leading blanks. -/
def trimStartChars (cs : List Char) : List Char :=
  cs.dropWhile isBlank

/-- A list of characters without the blanks at either end. -/
def trimChars (cs : List Char) : List Char :=
  (trimStartChars (trimStartChars cs).reverse).reverse

/-- A text without the blanks at either end. -/
def trim (s : String) : String :=
  String.ofList (trimChars s.toList)

end IntentGate.Text
