import IntentGate.Yaml.Token

/-!
# YAML nodes

The tree of a document: scalars, sequences and mappings, with their tags. An alias does not hold
what it refers to, since it may stand inside that node itself, but the number of a place, and the
tree of a document comes with the nodes at its places. An anchor puts its node at the place numbered
by how many names are known before it, and ties its name to that place. Where a name is given again
the number of known names does not grow, so the next anchor, of whatever name, takes the same place;
a place holds the node that was put there last, and for all aliases that refer to it.

A text holds one document at most, and the text without one stands for an empty scalar.

The tree is read from the tokens by descent. The readers are bounded by a number of steps, four for
each token, which is more than any text needs.
-/

namespace IntentGate.Yaml

/-- A node of a document. -/
inductive Node where
  | scalar (tag : Option Tag) (text : String) (plain : Bool)
  | sequence (tag : Option Tag) (items : List Node)
  | mapping (tag : Option Tag) (fields : List (Node × Node))
  | alias (place : Nat)

/-- A scalar that is not written at all. -/
def Node.empty : Node :=
  .scalar none "" true

/-- A document: its root, the nodes at its places, and how many scalars, aliases, starts and ends of
collections it consists of. -/
structure Document where
  root : Node
  places : List (Nat × Node)
  size : Nat

/-- The tokens to come, and what the ones behind have declared. -/
structure Descent where
  tokens : List Token
  /-- What the handles of tags stand for. -/
  handles : List (String × Tag) := [("!", .mark), ("!!", .core)]
  /-- The places of the known names. -/
  names : List (String × Nat) := []
  /-- The places that the anchors took, the latest first. -/
  taken : List Nat := []
  /-- The anchored nodes that are complete, with the number of anchors before each. -/
  anchored : List (Nat × Node) := []
  size : Nat := 0

/-- The nodes at the places, a later anchor's before an earlier one's. -/
def Descent.places (s : Descent) : List (Nat × Node) :=
  let order := (List.range s.taken.length).reverse
  (s.taken.zip order).filterMap fun (place, anchor) =>
    (s.anchored.lookup anchor).map fun node => (place, node)

/-- Readers of tokens. -/
abbrev Descend := StateT Descent Option

namespace Descend

/-- The next token. -/
def next : Descend Token := do
  match (← get).tokens with
  | t :: rest =>
    modify fun s => { s with tokens := rest }
    return t
  | [] => failure

/-- Whether the next token is one of some. -/
def sees (ts : List Token) : Descend Bool := do
  return (← get).tokens.head?.any ts.contains

/-- Skips a token if it comes next, and says whether it did. -/
def skip (t : Token) : Descend Bool := do
  if ← sees [t] then
    discard next
    return true
  else return false

/-- Skips a token that has to come next. -/
def expect (t : Token) : Descend Unit := do
  if !(← skip t) then failure

/-- Counts scalars, aliases, starts and ends. -/
def count (n : Nat) : Descend Unit :=
  modify fun s => { s with size := s.size + n }

/-- A scalar that is not written. -/
def absent : Descend Node := do
  count 1
  return .empty

/-- An anchor, if it comes next. -/
def anchor? : Descend (Option String) := do
  match (← get).tokens with
  | .anchor name :: _ =>
    discard next
    return some name
  | _ => return none

/-- A tag, if it comes next, with its handle resolved. -/
def tag? : Descend (Option Tag) := do
  match (← get).tokens with
  | .tag handle suffix :: _ =>
    discard next
    if handle.isEmpty then return some suffix
    match (← get).handles.lookup handle with
    | some start => return some (start ++ suffix)
    | none => failure
  | _ => return none

/-- The anchor and the tag before a node, in either order. -/
def properties : Descend (Option String × Option Tag) := do
  match ← anchor? with
  | some name => return (some name, ← tag?)
  | none =>
    let tag ← tag?
    return (← anchor?, tag)

/-- Reads the content of a node, whose anchor is known before it is complete. -/
def anchoredAs (name : Option String) (content : Descend Node) : Descend Node := do
  match name with
  | none => content
  | some name =>
    let anchor := (← get).taken.length
    let place := (← get).names.length
    modify fun s =>
      { s with
        names := (name, place) :: s.names.filter (·.1 != name)
        taken := place :: s.taken }
    let node ← content
    modify fun s => { s with anchored := (anchor, node) :: s.anchored }
    return node

mutual

/-- A node. Block collections are only read where `block` says so, and sequences that are not
indented only where `flat` does. -/
def node (fuel : Nat) (block flat : Bool) : Descend Node :=
  match fuel with
  | 0 => failure
  | fuel + 1 => do
    match (← get).tokens with
    | .alias name :: _ =>
      discard next
      count 1
      match (← get).names.lookup name with
      | some place => return .alias place
      | none => failure
    | _ =>
      let (name, tag) ← properties
      anchoredAs name (content fuel block flat (name.isSome || tag.isSome) tag)

/-- The content of a node behind its properties; with properties it may be absent. -/
def content (fuel : Nat) (block flat mayBeAbsent : Bool) (tag : Option Tag) : Descend Node :=
  match fuel with
  | 0 => failure
  | fuel + 1 => do
    match (← get).tokens with
    | .scalar text plain :: _ =>
      discard next
      count 1
      return .scalar tag text plain
    | .openBracket :: _ =>
      discard next
      count 2
      return .sequence tag (← flowItems fuel true)
    | .openBrace :: _ =>
      discard next
      count 2
      return .mapping tag (← flowFields fuel true)
    | t :: _ =>
      if flat && t == .entry then
        count 2
        return .sequence tag (← flatItems fuel)
      else if block && t == .blockSequence then
        discard next
        count 2
        return .sequence tag (← blockItems fuel)
      else if block && t == .blockMapping then
        discard next
        count 2
        return .mapping tag (← blockFields fuel)
      else if mayBeAbsent then
        count 1
        return .scalar tag "" true
      else failure
    | [] =>
      if mayBeAbsent then
        count 1
        return .scalar tag "" true
      else failure

/-- A node, absent before some tokens. -/
def nodeBefore (fuel : Nat) (block flat : Bool) (stops : List Token) : Descend Node :=
  match fuel with
  | 0 => failure
  | fuel + 1 => do
    if ← sees stops then absent else node fuel block flat

/-- The items of an indented sequence. -/
def blockItems (fuel : Nat) : Descend (List Node) :=
  match fuel with
  | 0 => failure
  | fuel + 1 => do
    if ← skip .blockEnd then return []
    expect .entry
    let item ← nodeBefore fuel true false [.entry, .blockEnd]
    return item :: (← blockItems fuel)

/-- The items of a sequence that is indented no deeper than the mapping around it. -/
def flatItems (fuel : Nat) : Descend (List Node) :=
  match fuel with
  | 0 => failure
  | fuel + 1 => do
    if !(← skip .entry) then return []
    let item ← nodeBefore fuel true false [.entry, .key, .value, .blockEnd]
    return item :: (← flatItems fuel)

/-- The fields of an indented mapping. -/
def blockFields (fuel : Nat) : Descend (List (Node × Node)) :=
  match fuel with
  | 0 => failure
  | fuel + 1 => do
    if ← skip .blockEnd then return []
    expect .key
    let key ← nodeBefore fuel true true [.key, .value, .blockEnd]
    let value ←
      if ← skip .value then nodeBefore fuel true true [.key, .value, .blockEnd] else absent
    return (key, value) :: (← blockFields fuel)

/-- The items of a bracketed sequence; a marked key makes a mapping of one field. -/
def flowItems (fuel : Nat) (first : Bool) : Descend (List Node) :=
  match fuel with
  | 0 => failure
  | fuel + 1 => do
    if ← skip .closeBracket then return []
    if !first then expect .comma
    if ← skip .key then
      count 2
      let field ← flowPair fuel
      return .mapping none [field] :: (← flowItems fuel false)
    else if !first && (← skip .closeBracket) then return []
    else
      let item ← node fuel false false
      return item :: (← flowItems fuel false)

/-- The field of a mapping that is an item. Where its key is absent, the token that comes instead is
passed over. -/
def flowPair (fuel : Nat) : Descend (Node × Node) :=
  match fuel with
  | 0 => failure
  | fuel + 1 => do
    let key ←
      if ← sees [.value, .comma, .closeBracket] then do
        discard next
        absent
      else node fuel false false
    let value ←
      if ← skip .value then nodeBefore fuel false false [.comma, .closeBracket] else absent
    return (key, value)

/-- The fields of a braced mapping. -/
def flowFields (fuel : Nat) (first : Bool) : Descend (List (Node × Node)) :=
  match fuel with
  | 0 => failure
  | fuel + 1 => do
    if ← skip .closeBrace then return []
    if !first then expect .comma
    if ← skip .key then
      let key ← nodeBefore fuel false false [.value, .comma, .closeBrace]
      let value ←
        if ← skip .value then nodeBefore fuel false false [.comma, .closeBrace] else absent
      return (key, value) :: (← flowFields fuel false)
    else if !first && (← skip .closeBrace) then return []
    else
      let key ← node fuel false false
      let value ← absent
      return (key, value) :: (← flowFields fuel false)

end

/-- Reads the directives before a document. Only versions 1.1 and 1.2 are known, and neither a
version nor a handle may be declared twice. -/
def directives (fuel : Nat) (versioned : Bool) (declared : List String) : Descend Unit :=
  match fuel with
  | 0 => failure
  | fuel + 1 => do
    match (← get).tokens with
    | .versionDirective major minor :: _ =>
      discard next
      if versioned || major != 1 || (minor != 1 && minor != 2) then failure
      directives fuel true declared
    | .tagDirective handle start :: _ =>
      discard next
      if declared.contains handle then failure
      modify fun s => { s with handles := (handle, start) :: s.handles }
      directives fuel versioned (handle :: declared)
    | _ => return

/-- Skips marks of the end of a document. -/
def skipEnds : Descend Unit :=
  modify fun s => { s with tokens := s.tokens.dropWhile (· == .documentEnd) }

/-- The root of the only document. -/
def root : Descend Node := do
  let tokens := (← get).tokens
  let fuel := 4 * tokens.length + 4
  match tokens with
  | [] => absent
  | .versionDirective .. :: _ | .tagDirective .. :: _ | .documentStart :: _ =>
    directives fuel false []
    expect .documentStart
    match (← get).tokens with
    | [] | .versionDirective .. :: _ | .tagDirective .. :: _ | .documentStart :: _
    | .documentEnd :: _ => absent
    | _ => node fuel true false
  | _ => node fuel true false

end Descend

/-- The document of a text. -/
def Document.ofText? (text : String) : Option Document := do
  let read : Descend Node := do
    let root ← Descend.root
    Descend.skipEnds
    return root
  let (root, s) ← read.run { tokens := ← tokens? text }
  if s.tokens.isEmpty then some ⟨root, s.places, s.size⟩ else none

end IntentGate.Yaml
