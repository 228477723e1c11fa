/-!
# Sets of characters

A character property of the Unicode standard is a set of code points, written as a table of closed
ranges. `CharSet.contains` answers membership; the tables themselves stand in the modules named for
the property.
-/

namespace IntentGate.Text

/-- A set of code points as closed ranges `(first, last)`. -/
structure CharSet where
  ranges : Array (Nat × Nat)

namespace CharSet

/-- Membership: some range holds the code point. -/
def contains (s : CharSet) (c : Char) : Bool :=
  s.ranges.any fun r => r.1 ≤ c.toNat && c.toNat ≤ r.2

end CharSet

end IntentGate.Text
