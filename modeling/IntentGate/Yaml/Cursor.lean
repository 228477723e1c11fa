/-!
# Places in a YAML text

A `Cursor` is a place in a text: the characters still to come and where they stand. The character
classes of the format are stated on the next character, if there is one; the end of the text counts
as a break where a word may end.
-/

namespace IntentGate.Yaml

/-- A place in a text. -/
structure Cursor where
  rest : List Char
  /-- How many bytes the text has before this place. -/
  index : Nat := 0
  line : Nat := 0
  column : Nat := 0

/-- Whether a character ends a line. -/
def isBreak (c : Char) : Bool :=
  c == '\n' || c == '\r' || c.toNat == 0x85 || c.toNat == 0x2028 || c.toNat == 0x2029

/-- Whether a character is a blank within a line. -/
def isBlank (c : Char) : Bool :=
  c == ' ' || c == '\t'

/-- Whether a character may stand in a word of letters, digits, hyphens and underscores. -/
def isWordChar (c : Char) : Bool :=
  c.isAlphanum || c == '_' || c == '-'

/-- Whether a character is the byte order mark. -/
def isByteOrderMark (c : Char) : Bool :=
  c.toNat == 0xFEFF

/-- How many bytes characters take. -/
def byteLength (cs : List Char) : Nat :=
  cs.foldl (fun n c => n + c.utf8Size) 0

/-- Whether a document may hold a character at all. -/
def isAllowed (c : Char) : Bool :=
  let n := c.toNat
  n == 0x09 || n == 0x0A || n == 0x0D || (0x20 ≤ n && n ≤ 0x7E) || n == 0x85
    || (0xA0 ≤ n && n ≤ 0xD7FF) || (0xE000 ≤ n && n ≤ 0xFFFD) || 0x10000 ≤ n

namespace Cursor

/-- The character `i` places ahead. -/
def ahead (c : Cursor) (i : Nat) : Option Char :=
  c.rest[i]?

/-- Whether the character `i` places ahead is a given one. -/
def sees (c : Cursor) (x : Char) (i : Nat := 0) : Bool :=
  c.ahead i == some x

/-- Whether the character `i` places ahead is in a class. -/
def seesAny (c : Cursor) (p : Char → Bool) (i : Nat := 0) : Bool :=
  (c.ahead i).any p

/-- Whether a blank, a line end or the end of the text comes `i` places ahead. -/
def seesGap (c : Cursor) (i : Nat := 0) : Bool :=
  (c.ahead i).all fun x => isBlank x || isBreak x

/-- Whether a line end or the end of the text comes next. -/
def atLineEnd (c : Cursor) : Bool :=
  (c.ahead 0).all isBreak

/-- One character or several further, on the same line. -/
def skip (c : Cursor) (n : Nat := 1) : Cursor :=
  { c with
    rest := c.rest.drop n
    index := c.index + byteLength (c.rest.take n)
    column := c.column + n }

/-- Past the line end that comes next. -/
def skipBreak (c : Cursor) : Cursor :=
  let n := if c.sees '\r' && c.sees '\n' 1 then 2 else 1
  { rest := c.rest.drop n
    index := c.index + byteLength (c.rest.take n)
    line := c.line + 1
    column := 0 }

/-- What a line end that comes next contributes to a text: a line feed, or itself when it is one of
the two separators. -/
def breakChars (c : Cursor) : List Char :=
  match c.ahead 0 with
  | some x => if x.toNat == 0x2028 || x.toNat == 0x2029 then [x] else ['\n']
  | none => []

/-- Reads characters of a class as long as they come. -/
def takeWhile (c : Cursor) (p : Char → Bool) : List Char × Cursor :=
  let run := c.rest.takeWhile p
  (run, c.skip run.length)

/-- Skips characters of a class as long as they come. -/
def skipWhile (c : Cursor) (p : Char → Bool) : Cursor :=
  (c.takeWhile p).2

/-- Past blanks and a comment, up to the line end. -/
def skipComment (c : Cursor) : Cursor :=
  let c := c.skipWhile isBlank
  if c.sees '#' then c.skipWhile fun x => !isBreak x else c

/-- Whether a mark of three characters stands alone at the start of a line. -/
def seesMarker (c : Cursor) (x : Char) : Bool :=
  c.column == 0 && c.sees x && c.sees x 1 && c.sees x 2 && c.seesGap 3

/-- Whether the start or the end of a document is marked here. -/
def seesDocumentMarker (c : Cursor) : Bool :=
  c.seesMarker '-' || c.seesMarker '.'

end Cursor

end IntentGate.Yaml
