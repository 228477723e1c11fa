import IntentGate.Intent
import IntentGate.Policy.Rule

/-!
# Variants

A `VariantSet` holds policies under names and a selection that names one of them for each intent. A
name that is empty or not registered stands for no policy, and then the decision is to observe.
-/

namespace IntentGate

/-- Policies under names, and which of them judges an intent. -/
structure VariantSet where
  variants : Dict (Policy Intent)
  select : Intent → String

namespace VariantSet

/-- The selected name with its policy, if it is registered. -/
def policyFor? (v : VariantSet) (i : Intent) : Option (String × Policy Intent) :=
  let name := v.select i
  if name.isEmpty then none else (v.variants.get? name).map fun p => (name, p)

/-- The decision of the selected policy. -/
def decide (v : VariantSet) (i : Intent) : Decision :=
  match v.policyFor? i with
  | some (_, p) => (p.evaluate i).decision
  | none => .observe

/-- The registered names, ascending. -/
def names (v : VariantSet) : List String :=
  v.variants.keys

/-- The structural dump; the selection is left out. -/
def diagnostic (v : VariantSet) : String :=
  "PolicyVariantSet \x7b variants: [" ++ ", ".intercalate (v.names.map Text.quoted) ++ "], .. \x7d"

end VariantSet

end IntentGate
