/-!
# Comparing text up to ASCII case

Names of levels, decisions, properties and the like are read without regard to the case of the
letters `A` to `Z`; all other characters, other letters included, are compared as they are.
-/

namespace IntentGate.Text

/-- Lower case of the letters `A` to `Z` only. -/
def asciiLower (s : String) : String :=
  s.map Char.toLower

/-- Equality up to the case of ASCII letters. -/
def sameIgnoringCase (a b : String) : Bool :=
  asciiLower a == asciiLower b

end IntentGate.Text
