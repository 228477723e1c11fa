import IntentGate.Yaml.ScalarText
import IntentGate.Yaml.Tag

/-!
# YAML tokens

The tokens of a YAML text: the marks of documents, the starts and ends of collections, the marks of
entries, keys and values, and the scalars with their anchors and tags. Block collections start and
end by indentation, so the `Scanner` keeps the columns of the open ones. Whether a scalar is a key
is known only when a colon follows it; until then it is a `PendingKey`, and the tokens that open a
key and its mapping are put in before it afterwards.
-/

namespace IntentGate.Yaml

/-- A token of a text. -/
inductive Token where
  | versionDirective (major minor : Nat)
  | tagDirective (handle : String) (start : Tag)
  | documentStart
  | documentEnd
  | blockSequence
  | blockMapping
  | blockEnd
  | openBracket
  | closeBracket
  | openBrace
  | closeBrace
  | comma
  | entry
  | key
  | value
  | alias (name : String)
  | anchor (name : String)
  | tag (handle : String) (suffix : Tag)
  | scalar (text : String) (plain : Bool)
deriving DecidableEq, Repr

/-! ## Directives, anchors and tags -/

/-- The tag that starts here. -/
def tagToken? (inFlow : Bool) (c : Cursor) : Option (Token × Cursor) :=
  (tagParts? inFlow c).map fun ((handle, suffix), c) => (.tag handle suffix, c)

/-- The name behind the mark of an anchor or an alias. -/
def anchorName? (c : Cursor) : Option (String × Cursor) :=
  let (name, c) := c.skip.takeWhile isWordChar
  if name.isEmpty then none
  else if c.seesGap || c.seesAny fun x => "?:,]\x7d%@\x60".toList.contains x then
    some (String.ofList name, c)
  else none

/-- A number of at most nine digits. -/
def versionNumber? (c : Cursor) : Option (Nat × Cursor) :=
  let (digits, c) := c.takeWhile Text.isDigit
  if digits.isEmpty || 9 < digits.length then none else some (Text.digitsValue digits, c)

/-- The directive that starts here with a percent sign. -/
def directive? (c : Cursor) : Option (Token × Cursor) := do
  let (name, c) := c.skip.takeWhile isWordChar
  if !c.seesGap then none
  let c := c.skipWhile isBlank
  let (token, c) ←
    match String.ofList name with
    | "YAML" => do
      let (major, c) ← versionNumber? c
      if !c.sees '.' then none
      let (minor, c) ← versionNumber? c.skip
      pure (Token.versionDirective major minor, c)
    | "TAG" => do
      let (handle, c) ← tagHandle? c
      if handle.length != 1 && handle.getLast? != some '!' then none
      if !c.seesAny isBlank then none
      let (start, c) ← tagBytes? true (c.rest.length + 1) (c.skipWhile isBlank)
      if start.isEmpty || !c.seesGap then none
      pure (Token.tagDirective (String.ofList handle) (.ofBytes start), c)
    | _ => none
  let c := c.skipComment
  if !c.atLineEnd then none
  return (token, if c.rest.isEmpty then c else c.skipBreak)

/-! ## The scanner -/

/-- A token that is a key if a colon follows it on its line. -/
structure PendingKey where
  /-- How many tokens come before it. -/
  position : Nat
  line : Nat
  index : Nat
  column : Nat
  /-- It stands where only a key may stand. -/
  required : Bool

/-- The tokens so far and what is open. -/
structure Scanner where
  cursor : Cursor
  tokens : Array Token := #[]
  /-- The column of the innermost block collection. -/
  indent : Int := -1
  /-- The columns of the block collections around it. -/
  outer : List Int := []
  /-- The pending key of each level of flow collections, the innermost first. -/
  pending : List (Option PendingKey) := [none]
  keyAllowed : Bool := true

namespace Scanner

/-- Whether a flow collection is open. -/
def inFlow (s : Scanner) : Bool :=
  1 < s.pending.length

/-- Appends a token. -/
def push (s : Scanner) (t : Token) : Scanner :=
  { s with tokens := s.tokens.push t }

/-- Puts a token before the one at a position. -/
def insert (s : Scanner) (position : Nat) (t : Token) : Scanner :=
  { s with tokens := s.tokens.insertIdxIfInBounds position t }

/-- Moves on. -/
def moveTo (s : Scanner) (c : Cursor) : Scanner :=
  { s with cursor := c }

/-- Opens a block collection whose first token stands at a column and a position, unless one of that
column is open. -/
def indentTo (s : Scanner) (column position : Nat) (t : Token) : Scanner :=
  if !s.inFlow && s.indent < column then
    { s.insert position t with indent := column, outer := s.indent :: s.outer }
  else s

/-- Ends the block collections that stand right of a column. -/
def unindentTo (s : Scanner) (column : Int) : Scanner :=
  if s.inFlow then s else close s s.outer
where
  /-- Ends one collection for each column that is left. -/
  close (s : Scanner) : List Int → Scanner
    | [] => s
    | indent :: outer =>
      if column < s.indent then close { s.push .blockEnd with indent, outer } outer else s

/-- Gives up the pending key of the innermost level; one that is required is an error. -/
def dropKey? (s : Scanner) : Option Scanner :=
  match s.pending with
  | some k :: rest => if k.required then none else some { s with pending := none :: rest }
  | _ => some s

/-- Gives up the pending keys that lie behind: on an earlier line, or too far back. -/
def dropStaleKeys? (s : Scanner) : Option Scanner := do
  let pending ← s.pending.mapM fun p =>
    match p with
    | none => some none
    | some k =>
      if k.line < s.cursor.line || k.index + 1024 < s.cursor.index then
        if k.required then none else some none
      else some (some k)
  return { s with pending }

/-- Notes that a key may start here. -/
def saveKey? (s : Scanner) : Option Scanner := do
  if !s.keyAllowed then return s
  let s ← s.dropKey?
  let c := s.cursor
  let key : PendingKey :=
    { position := s.tokens.size, line := c.line, index := c.index, column := c.column
      required := !s.inFlow && s.indent == c.column }
  return { s with pending := some key :: s.pending.drop 1 }

/-- Skips blanks, comments and line ends up to the next token. A tab counts as a blank only where no
key may start. A byte order mark is passed over where a line starts, and takes a column. -/
def skipToToken (s : Scanner) : Nat → Scanner
  | 0 => s
  | fuel + 1 =>
    let c := s.cursor
    let c := if c.column == 0 && c.seesAny isByteOrderMark then c.skip else c
    let c := c.skipWhile fun x => x == ' ' || (x == '\t' && (s.inFlow || !s.keyAllowed))
    let c := if c.sees '#' then c.skipWhile fun x => !isBreak x else c
    if c.seesAny isBreak then
      skipToToken { s.moveTo c.skipBreak with keyAllowed := s.keyAllowed || !s.inFlow } fuel
    else s.moveTo c

/-- A mark of the document: all block collections end. -/
def documentToken? (s : Scanner) (t : Token) (c : Cursor) : Option Scanner := do
  let s ← (s.unindentTo (-1)).dropKey?
  return { s.push t with keyAllowed := false, cursor := c }

/-- The start of a flow collection, which may itself be a key. -/
def openToken? (s : Scanner) (t : Token) : Option Scanner := do
  let s ← s.saveKey?
  return { s.push t with
    pending := none :: s.pending, keyAllowed := true, cursor := s.cursor.skip }

/-- The end of a flow collection. -/
def closeToken? (s : Scanner) (t : Token) : Option Scanner := do
  let s ← s.dropKey?
  let pending := if s.inFlow then s.pending.drop 1 else s.pending
  return { s.push t with pending, keyAllowed := false, cursor := s.cursor.skip }

/-- The mark of an entry, a key or a value that opens a block collection if there is none yet. -/
def markToken? (s : Scanner) (collection mark : Token) (keyAllowed : Bool) : Option Scanner := do
  if !s.inFlow && !s.keyAllowed then none
  let s := s.indentTo s.cursor.column s.tokens.size collection
  return { s.push mark with keyAllowed, cursor := s.cursor.skip }

/-- A colon: the pending key is a key, or else the value has no key or a marked one. -/
def valueToken? (s : Scanner) : Option Scanner :=
  match s.pending with
  | some k :: rest =>
    let s := (s.insert k.position .key).indentTo k.column k.position .blockMapping
    some { s.push .value with
      pending := none :: rest, keyAllowed := false, cursor := s.cursor.skip }
  | _ => s.markToken? .blockMapping .value (!s.inFlow)

/-- A token that may be a key or stand before one. -/
def wordToken? (s : Scanner) (read : Cursor → Option (Token × Cursor)) : Option Scanner := do
  let s ← s.saveKey?
  let (t, c) ← read s.cursor
  return { s.push t with keyAllowed := false, cursor := c }

/-- A block scalar. -/
def blockToken? (s : Scanner) (literal : Bool) : Option Scanner := do
  let s ← s.dropKey?
  let (text, c) ← blockText? literal s.indent s.cursor.skip
  return { s.push (.scalar (String.ofList text) false) with keyAllowed := true, cursor := c }

/-- A quoted scalar. -/
def quotedToken? (s : Scanner) (single : Bool) : Option Scanner :=
  s.wordToken? fun c => do
    let (text, c) ← quotedText? single (c.rest.length + 1) c.skip []
    return (.scalar (String.ofList text) false, c)

/-- A plain scalar. After a line end behind it a key may start. -/
def plainToken? (s : Scanner) : Option Scanner := do
  let s ← s.saveKey?
  let indent := (s.indent + 1).toNat
  let (text, broken, c) ← plainText? s.inFlow indent (s.cursor.rest.length + 1) s.cursor [] {}
  return { s.push (.scalar (String.ofList text) true) with keyAllowed := broken, cursor := c }

/-- Whether a plain scalar may start here. -/
def seesPlain (s : Scanner) : Bool :=
  let c := s.cursor
  let first := c.seesAny fun x => !"-?:,[]\x7b\x7d#&*!|>'\"%@\x60".toList.contains x
  (!c.seesGap && first) || (c.sees '-' && !c.seesAny isBlank 1)
    || (!s.inFlow && (c.sees '?' || c.sees ':') && !c.seesGap 1)

/-- Reads the next token, if the text has not ended. -/
def step? (s : Scanner) : Option Scanner := do
  let s := s.unindentTo s.cursor.column
  let c := s.cursor
  if c.column == 0 && c.sees '%' then
    let (t, c) ← directive? c
    s.documentToken? t c
  else if c.seesMarker '-' then s.documentToken? .documentStart (c.skip 3)
  else if c.seesMarker '.' then s.documentToken? .documentEnd (c.skip 3)
  else if c.sees '[' then s.openToken? .openBracket
  else if c.sees '\x7b' then s.openToken? .openBrace
  else if c.sees ']' then s.closeToken? .closeBracket
  else if c.sees '\x7d' then s.closeToken? .closeBrace
  else if c.sees ',' then
    let s ← s.dropKey?
    return { s.push .comma with keyAllowed := true, cursor := c.skip }
  else if c.sees '-' && c.seesGap 1 then
    let s ← s.markToken? .blockSequence .entry true
    s.dropKey?
  else if c.sees '?' && (s.inFlow || c.seesGap 1) then
    let s ← s.markToken? .blockMapping .key (!s.inFlow)
    s.dropKey?
  else if c.sees ':' && (s.inFlow || c.seesGap 1) then s.valueToken?
  else if c.sees '*' then
    s.wordToken? fun c => (anchorName? c).map fun r => (.alias r.1, r.2)
  else if c.sees '&' then
    s.wordToken? fun c => (anchorName? c).map fun r => (.anchor r.1, r.2)
  else if c.sees '!' then s.wordToken? (tagToken? s.inFlow)
  else if c.sees '|' && !s.inFlow then s.blockToken? true
  else if c.sees '>' && !s.inFlow then s.blockToken? false
  else if c.sees '\'' then s.quotedToken? true
  else if c.sees '"' then s.quotedToken? false
  else if s.seesPlain then s.plainToken?
  else none

/-- Reads tokens to the end of the text, where all block collections end. -/
def finish? (s : Scanner) : Nat → Option Scanner
  | 0 => none
  | fuel + 1 => do
    let s ← (s.skipToToken (s.cursor.rest.length + 1)).dropStaleKeys?
    if s.cursor.rest.isEmpty then (s.unindentTo (-1)).dropKey?
    else
      let s ← s.step?
      finish? s fuel

end Scanner

/-- The tokens of a text. -/
def tokens? (text : String) : Option (List Token) := do
  let chars := text.toList
  if !chars.all isAllowed then none
  let s ← Scanner.finish? { cursor := ⟨chars, 0, 0, 0⟩ } (chars.length + 1)
  return s.tokens.toList

end IntentGate.Yaml
