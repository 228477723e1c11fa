import IntentGate.Json.Reader
import IntentGate.Yaml.Cursor

/-!
# YAML tags

A tag is a string of bytes. Its characters stand for themselves, and escapes of a percent sign and
two hexadecimal digits spell any other byte; a spelled character is checked only for the shape of
its first byte and of the bytes behind it, so a tag need not be a text. A zero byte ends the part of
a tag that it stands in.

A tag that starts with an exclamation mark is local. It names a type of the document's own if it is
a text.
-/

namespace IntentGate.Yaml

/-- The tag of a node. -/
structure Tag where
  bytes : List UInt8
deriving DecidableEq, Repr

namespace Tag

/-- The tag that a text spells. -/
def ofString (s : String) : Tag :=
  ⟨s.toUTF8.toList⟩

/-- A part of a tag: bytes up to the first zero. -/
def ofBytes (bytes : List UInt8) : Tag :=
  ⟨bytes.takeWhile (· != 0)⟩

/-- A tag in two parts. -/
def append (start suffix : Tag) : Tag :=
  ⟨start.bytes ++ suffix.bytes⟩

instance : Append Tag := ⟨append⟩

/-- Whether a part of a tag holds nothing. -/
def isEmpty (t : Tag) : Bool :=
  t.bytes.isEmpty

/-- The exclamation mark alone. -/
def mark : Tag := ofString "!"

/-- What the tags of the core types start with. -/
def core : Tag := ofString "tag:yaml.org,2002:"

/-- The tag of truth values. -/
def truth : Tag := core ++ ofString "bool"

/-- The tag of integers. -/
def integer : Tag := core ++ ofString "int"

/-- The tag of real numbers. -/
def real : Tag := core ++ ofString "float"

/-- The tag of null. -/
def null : Tag := core ++ ofString "null"

/-- Whether a tag is local. -/
def isLocal (t : Tag) : Bool :=
  mark.bytes.isPrefixOf t.bytes

/-- Whether a tag names a type of the document's own. -/
def isOwn (t : Tag) : Bool :=
  t.isLocal && (ByteArray.mk t.bytes.toArray).validateUTF8

end Tag

/-! ## Reading tags -/

/-- Whether a character may stand in a tag; some of them only between angle brackets. -/
def isTagChar (verbatim : Bool) (c : Char) : Bool :=
  isWordChar c || ";/?:@&=+$.!~*'()".toList.contains c || (verbatim && ",[]".toList.contains c)

/-- The byte of an escape, a percent sign and two hexadecimal digits. -/
def tagByte? (c : Cursor) : Option (Nat × Cursor) :=
  match c.rest with
  | '%' :: a :: b :: _ => do
    let high ← Json.hexValue? a
    let low ← Json.hexValue? b
    some (16 * high + low, c.skip 3)
  | _ => none

/-- How many bytes follow a first one in the spelling of a character. -/
def tagTrail? (byte : Nat) : Option Nat :=
  if byte < 0x80 then some 0
  else if byte / 0x20 == 6 then some 1
  else if byte / 0x10 == 14 then some 2
  else if byte / 8 == 30 then some 3
  else none

/-- Reads the escapes of the bytes that follow a first one. -/
def tagTrailBytes? : Nat → Cursor → Option (List UInt8 × Cursor)
  | 0, c => some ([], c)
  | n + 1, c => do
    let (byte, c) ← tagByte? c
    if byte / 0x40 != 2 then none
    let (bytes, c) ← tagTrailBytes? n c
    some (byte.toUInt8 :: bytes, c)

/-- Reads the escapes of one character. -/
def tagEscape? (c : Cursor) : Option (List UInt8 × Cursor) := do
  let (byte, c) ← tagByte? c
  let (bytes, c) ← tagTrailBytes? (← tagTrail? byte) c
  some (byte.toUInt8 :: bytes, c)

/-- The bytes that the characters of a tag spell. -/
def tagBytes? (verbatim : Bool) (fuel : Nat) (c : Cursor) : Option (List UInt8 × Cursor) :=
  match fuel with
  | 0 => none
  | fuel + 1 =>
    match c.ahead 0 with
    | none => some ([], c)
    | some x =>
      if x == '%' then do
        let (bytes, c) ← tagEscape? c
        let (more, c) ← tagBytes? verbatim fuel c
        some (bytes ++ more, c)
      else if isTagChar verbatim x then do
        let (more, c) ← tagBytes? verbatim fuel c.skip
        some (x.toUInt8 :: more, c)
      else some ([], c)

/-- A handle: an exclamation mark, a word and, if it comes, a second mark. -/
def tagHandle? (c : Cursor) : Option (List Char × Cursor) :=
  if !c.sees '!' then none
  else
    let (word, c) := c.skip.takeWhile isWordChar
    if c.sees '!' then some ('!' :: word ++ ['!'], c.skip) else some ('!' :: word, c)

/-- The handle and the rest of the tag that starts here: between angle brackets it has an empty
handle, and so has the mark alone; behind one mark the mark is the handle. -/
def tagParts? (inFlow : Bool) (c : Cursor) : Option ((String × Tag) × Cursor) := do
  let fuel := c.rest.length + 1
  let (parts, c) ←
    if c.sees '<' 1 then do
      let (bytes, c) ← tagBytes? true fuel (c.skip 2)
      if bytes.isEmpty || !c.sees '>' then none
      pure (("", Tag.ofBytes bytes), c.skip)
    else do
      let (handle, c) ← tagHandle? c
      let (bytes, c) ← tagBytes? false fuel c
      if 2 ≤ handle.length && handle.getLast? == some '!' then
        if bytes.isEmpty then none
        pure ((String.ofList handle, Tag.ofBytes bytes), c)
      else
        let suffix := Tag.ofString (String.ofList (handle.drop 1)) ++ Tag.ofBytes bytes
        pure (if suffix.isEmpty then ("", Tag.mark) else ("!", suffix), c)
  if !c.seesGap && !(inFlow && c.sees ',') then none
  return (parts, c)

end IntentGate.Yaml
