import IntentGate.Json.Reader
import IntentGate.Yaml.Cursor

/-!
# The text of scalars

Scalars are written plain, between single or double quotes, or as an indented block. In all of them
line ends inside the text are folded: a single one becomes a space, more become line feeds. Each
reader takes the place where the scalar starts and gives its text and the place behind it, or none
where the text is malformed.
-/

namespace IntentGate.Yaml

/-- The blanks and line ends between two words of a scalar. -/
structure Gap where
  /-- Blanks before any line end. -/
  spaces : List Char := []
  firstBreak : List Char := []
  moreBreaks : List Char := []
  broken : Bool := false

namespace Gap

/-- What a gap contributes to the text. -/
def chars (g : Gap) : List Char :=
  if !g.broken then g.spaces
  else if g.firstBreak == ['\n'] then
    if g.moreBreaks.isEmpty then [' '] else g.moreBreaks
  else g.firstBreak ++ g.moreBreaks

/-- Reads blanks and line ends. A tab that indents a line to less than `indent` is an error. -/
def read? (indent : Nat) (fuel : Nat) (c : Cursor) (g : Gap) : Option (Gap × Cursor) :=
  match fuel with
  | 0 => none
  | fuel + 1 =>
    match c.ahead 0 with
    | none => some (g, c)
    | some x =>
      if isBlank x then
        if g.broken then
          if x == '\t' && c.column < indent then none else read? indent fuel c.skip g
        else read? indent fuel c.skip { g with spaces := g.spaces ++ [x] }
      else if isBreak x then
        let g :=
          if g.broken then { g with moreBreaks := g.moreBreaks ++ c.breakChars }
          else { spaces := [], firstBreak := c.breakChars, moreBreaks := [], broken := true }
        read? indent fuel c.skipBreak g
      else some (g, c)

end Gap

/-! ## Plain scalars -/

/-- Whether a plain word ends before the next character. -/
def plainEnds (inFlow : Bool) (c : Cursor) : Bool :=
  (c.sees ':' && c.seesGap 1)
    || (inFlow && c.seesAny fun x => x == ',' || x == '[' || x == ']' || x == '\x7b' || x == '\x7d')

/-- Whether a colon comes next that may not stand in a plain word of a flow collection. -/
def colonMisplaced (inFlow : Bool) (c : Cursor) : Bool :=
  inFlow && c.sees ':'
    && c.seesAny (fun x =>
      x == ',' || x == '?' || x == '[' || x == ']' || x == '\x7b' || x == '\x7d') 1

/-- The characters of one plain word, which may be none. -/
def plainWord? (inFlow : Bool) (fuel : Nat) (c : Cursor) (word : List Char) :
    Option (List Char × Cursor) :=
  match fuel with
  | 0 => none
  | fuel + 1 =>
    if c.seesGap then some (word.reverse, c)
    else if colonMisplaced inFlow c then none
    else if plainEnds inFlow c then some (word.reverse, c)
    else
      match c.ahead 0 with
      | none => some (word.reverse, c)
      | some x => plainWord? inFlow fuel c.skip (x :: word)

/-- A plain scalar: words with gaps between them. Also says whether a line ended behind the last
word. Outside flow collections its lines are indented to `indent` at least. -/
def plainText? (inFlow : Bool) (indent : Nat) (fuel : Nat) (c : Cursor) (text : List Char)
    (gap : Gap) : Option (List Char × Bool × Cursor) :=
  match fuel with
  | 0 => none
  | fuel + 1 => do
    if c.seesDocumentMarker || c.sees '#' then return (text, gap.broken, c)
    let (word, c) ← plainWord? inFlow (c.rest.length + 1) c []
    let (text, broken) :=
      if word.isEmpty then (text, gap.broken) else (text ++ gap.chars ++ word, false)
    if !(c.seesAny fun x => isBlank x || isBreak x) then return (text, broken, c)
    let pending : Gap := if word.isEmpty then gap else {}
    let (gap, c) ← Gap.read? indent (c.rest.length + 1) c pending
    if !inFlow && c.column < indent then return (text, gap.broken, c)
    plainText? inFlow indent fuel c text gap

/-! ## Quoted scalars -/

/-- What a backslash and a letter stand for between double quotes. -/
def escapeLetter? (c : Char) : Option Nat :=
  match c with
  | '0' => some 0x00
  | 'a' => some 0x07
  | 'b' => some 0x08
  | 't' => some 0x09
  | '\t' => some 0x09
  | 'n' => some 0x0A
  | 'v' => some 0x0B
  | 'f' => some 0x0C
  | 'r' => some 0x0D
  | 'e' => some 0x1B
  | ' ' => some 0x20
  | '"' => some 0x22
  | '/' => some 0x2F
  | '\\' => some 0x5C
  | 'N' => some 0x85
  | '_' => some 0xA0
  | 'L' => some 0x2028
  | 'P' => some 0x2029
  | _ => none

/-- How many hexadecimal digits follow an escape letter. -/
def escapeLength? (c : Char) : Option Nat :=
  match c with
  | 'x' => some 2
  | 'u' => some 4
  | 'U' => some 8
  | _ => none

/-- The character that an escape stands for, and the place behind it. -/
def escape? (c : Cursor) : Option (Char × Cursor) := do
  let letter ← c.ahead 1
  match escapeLength? letter with
  | none => some (Char.ofNat (← escapeLetter? letter), c.skip 2)
  | some n =>
    let ds := (c.rest.drop 2).take n
    if ds.length < n then none
    let value := (← ds.mapM Json.hexValue?).foldl (fun v d => 16 * v + d) 0
    if (0xD800 ≤ value && value ≤ 0xDFFF) || 0x10FFFF < value then none
    some (Char.ofNat value, c.skip (2 + n))

/-- The characters up to a gap or the closing quote; also says whether an escaped line end came. -/
def quotedWord? (single : Bool) (fuel : Nat) (c : Cursor) (word : List Char) :
    Option (List Char × Bool × Cursor) :=
  match fuel with
  | 0 => none
  | fuel + 1 =>
    if c.seesGap then some (word.reverse, false, c)
    else if single && c.sees '\'' && c.sees '\'' 1 then
      quotedWord? single fuel (c.skip 2) ('\'' :: word)
    else if c.sees (if single then '\'' else '"') then some (word.reverse, false, c)
    else if !single && c.sees '\\' && c.seesAny isBreak 1 then
      some (word.reverse, true, c.skip.skipBreak)
    else if !single && c.sees '\\' then do
      let (x, c) ← escape? c
      quotedWord? single fuel c (x :: word)
    else
      match c.ahead 0 with
      | none => none
      | some x => quotedWord? single fuel c.skip (x :: word)

/-- The text from behind the opening quote to behind the closing one. -/
def quotedText? (single : Bool) (fuel : Nat) (c : Cursor) (text : List Char) :
    Option (List Char × Cursor) :=
  match fuel with
  | 0 => none
  | fuel + 1 => do
    if c.seesDocumentMarker || c.rest.isEmpty then none
    let (word, escapedBreak, c) ← quotedWord? single (c.rest.length + 1) c []
    let text := text ++ word
    if c.sees (if single then '\'' else '"') then return (text, c.skip)
    let (gap, c) ← Gap.read? 0 (c.rest.length + 1) c { broken := escapedBreak }
    quotedText? single fuel c (text ++ gap.chars)

/-! ## Block scalars -/

/-- What is done with the line ends at the end of a block. -/
inductive Chomping where
  | strip
  | clip
  | keep
deriving DecidableEq

/-- The head of a block: how to chomp, the indentation if given, and the place behind the line. -/
def blockHead? (c : Cursor) : Option (Chomping × Option Nat × Cursor) := do
  let chomping? (c : Cursor) : Option (Chomping × Cursor) :=
    if c.sees '+' then some (.keep, c.skip)
    else if c.sees '-' then some (.strip, c.skip)
    else none
  let increment? (c : Cursor) : Option (Option Nat × Cursor) :=
    match c.ahead 0 with
    | some x =>
      if x == '0' then none
      else if x.isDigit then some (some (Text.digitValue x), c.skip)
      else some (none, c)
    | none => some (none, c)
  let (chomping, increment, c) ←
    match chomping? c with
    | some (chomping, c) => do
      let (increment, c) ← increment? c
      pure (chomping, increment, c)
    | none => do
      let (increment, c) ← increment? c
      match increment, chomping? c with
      | some n, some (chomping, c) => pure (chomping, some n, c)
      | increment, _ => pure (.clip, increment, c)
  let c := c.skipComment
  if !c.atLineEnd then none
  some (chomping, increment, if c.rest.isEmpty then c else c.skipBreak)

/-- Indentation and empty lines before a line of the block. Without a given indentation the deepest
blank line counts in `deepest`. -/
def blockBreaks? (indent : Option Nat) (fuel : Nat) (c : Cursor) (deepest : Nat)
    (breaks : List Char) : Option (List Char × Nat × Cursor) :=
  match fuel with
  | 0 => none
  | fuel + 1 =>
    let spaces := c.rest.takeWhile (· == ' ')
    let c := c.skip (match indent with
      | some n => min spaces.length (n - c.column)
      | none => spaces.length)
    let deepest := max deepest c.column
    if c.sees '\t' && indent.all (c.column < ·) then none
    else if c.seesAny isBreak then
      blockBreaks? indent fuel c.skipBreak deepest (breaks ++ c.breakChars)
    else some (breaks, deepest, c)

/-- The lines of a block, each with the line end before it still pending. -/
def blockLines? (literal : Bool) (indent : Nat) (fuel : Nat) (c : Cursor)
    (text pendingBreak breaks : List Char) (wasBlank : Bool) :
    Option (List Char × List Char × List Char × Cursor) :=
  match fuel with
  | 0 => none
  | fuel + 1 =>
    if c.column ≠ indent || c.rest.isEmpty then some (text, pendingBreak, breaks, c)
    else do
      let isBlankLine := c.seesAny isBlank
      let joined :=
        if !literal && pendingBreak == ['\n'] && !wasBlank && !isBlankLine then
          if breaks.isEmpty then [' '] else []
        else pendingBreak
      let (line, c) := c.takeWhile fun x => !isBreak x
      let text := text ++ joined ++ breaks ++ line
      let pendingBreak := c.breakChars
      let c := if c.rest.isEmpty then c else c.skipBreak
      let (breaks, _, c) ← blockBreaks? (some indent) (c.rest.length + 1) c 0 []
      blockLines? literal indent fuel c text pendingBreak breaks isBlankLine

/-- A block scalar from behind its indicator, inside a collection indented to `parent`. -/
def blockText? (literal : Bool) (parent : Int) (c : Cursor) : Option (List Char × Cursor) := do
  let (chomping, increment, c) ← blockHead? c
  let given := increment.map fun n => if 0 ≤ parent then parent.toNat + n else n
  let (breaks, deepest, c) ← blockBreaks? given (c.rest.length + 1) c 0 []
  let indent := given.getD (max (max deepest (parent + 1).toNat) 1)
  let (text, pendingBreak, breaks, c) ←
    blockLines? literal indent (c.rest.length + 1) c [] [] breaks false
  let text := if chomping = .strip then text else text ++ pendingBreak
  some (if chomping = .keep then text ++ breaks else text, c)

end IntentGate.Yaml
