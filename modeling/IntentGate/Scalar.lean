/-!
# Scalars

Scores and weights are doubles. The formulas that combine them are stated over any `Scalar`, so
that the same formula can also be read in exact arithmetic.
-/

namespace IntentGate

/-- The arithmetic that scores and weights need. -/
class Scalar (α : Type) where
  zero : α
  one : α
  ofNat : Nat → α
  add : α → α → α
  mul : α → α → α
  div : α → α → α
  /-- Whether a number is above zero. -/
  isPositive : α → Bool

namespace Scalar

instance : Scalar Float where
  zero := 0
  one := 1
  ofNat := Float.ofNat
  add := (· + ·)
  mul := (· * ·)
  div := (· / ·)
  isPositive x := 0 < x

variable {α : Type} [Scalar α]

/-- The sum of a list from its first member on. -/
def sum : List α → α
  | [] => zero
  | x :: xs => xs.foldl add x

/-- The mean of a list, zero for the empty one. -/
def mean (xs : List α) : α :=
  if xs.isEmpty then zero else div (sum xs) (ofNat xs.length)

/-- The sum of `value · weight` and the sum of the weights, each from zero on. -/
def weightedSums (pairs : List (α × α)) : α × α :=
  pairs.foldl (fun s p => (add s.1 (mul p.1 p.2), add s.2 p.2)) (zero, zero)

/-- The mean of `(value, weight)` pairs, if the weights add up to something positive. -/
def weightedMean? (pairs : List (α × α)) : Option α :=
  let (weighted, total) := weightedSums pairs
  if isPositive total then some (div weighted total) else none

end Scalar

/-- The smaller of two doubles; one that is not a number gives way to the other. -/
def lesser (a b : Float) : Float :=
  if a.isNaN then b else if b < a then b else a

end IntentGate
