/-!
# Finding text in text

Whether one run of characters occurs in another, letter for letter, and filling in a placeholder.
-/

namespace IntentGate.Text

/-- Whether `needle` occurs in the list as a contiguous run. -/
def occursIn (needle : List Char) : List Char → Bool
  | [] => needle.isEmpty
  | c :: rest => needle.isPrefixOf (c :: rest) || occursIn needle rest

/-- Whether a text contains another one. -/
def contains (s needle : String) : Bool :=
  occursIn needle.toList s.toList

/-- Replaces every occurrence of a mark, from the left, by a filling. The last argument counts the
characters of an occurrence still to be passed over. -/
def replaceFrom (mark filling : List Char) : Nat → List Char → List Char
  | _, [] => []
  | skip + 1, _ :: rest => replaceFrom mark filling skip rest
  | 0, c :: rest =>
    if mark.isPrefixOf (c :: rest) then filling ++ replaceFrom mark filling (mark.length - 1) rest
    else c :: replaceFrom mark filling 0 rest

/-- Replaces every occurrence of a mark that is not empty. -/
def replace (s mark filling : String) : String :=
  String.ofList (replaceFrom mark.toList filling.toList 0 s.toList)

end IntentGate.Text
