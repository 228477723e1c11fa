import IntentGate.Table
import IntentGate.Time.Instant

/-!
# Expiring entries

An `Expiring` store keeps values under keys for a lifetime. An entry is expired from the reading at
which its lifetime has passed; one whose end the clock cannot represent never expires. Expired
entries are dropped when they are looked up, when the store is swept, and when an entry is stored
while the store has reached the size of its `Retention`. Readings are nanoseconds of a clock, given
with each operation.
-/

namespace IntentGate

/-- How long entries live, and from which size on a store is swept before it takes another one. -/
structure Retention where
  lifetime : Option Nat
  sweepSize : Nat
deriving DecidableEq, Repr

/-- A stored value and the reading at which it expires. -/
structure Kept (α : Type) where
  value : α
  expiresAt : Option Nat

/-- Values under keys that expire. -/
structure Expiring (α : Type) where
  entries : Table String (Kept α) := Table.empty

/-- The first reading that the clock cannot represent: its seconds are words of 64 bits with a
sign. -/
def clockHorizon : Nat := UInt64.size / 2 * Span.perSecond

namespace Retention

/-- The reading at which an entry stored at `now` expires. -/
def expiry? (r : Retention) (now : Nat) : Option Nat :=
  (r.lifetime.map (now + ·)).filter (· < clockHorizon)

end Retention

namespace Kept

variable {α : Type}

/-- Whether the entry is expired at a reading. -/
def isExpired (k : Kept α) (now : Nat) : Bool :=
  k.expiresAt.any (· ≤ now)

end Kept

namespace Expiring

variable {α : Type}

/-- A store without entries. -/
def empty : Expiring α := {}

instance : Inhabited (Expiring α) := ⟨empty⟩

/-- The number of entries, expired ones included. -/
def size (s : Expiring α) : Nat :=
  s.entries.size

/-- Drops the expired entries. -/
def sweep (s : Expiring α) (now : Nat) : Expiring α :=
  ⟨s.entries.filter fun _ k => !k.isExpired now⟩

/-- Sweeps, and says how many entries were dropped. -/
def evict (s : Expiring α) (now : Nat) : Nat × Expiring α :=
  let swept := s.sweep now
  (s.size - swept.size, swept)

/-- Drops the entry of a key. -/
def remove (s : Expiring α) (key : String) : Expiring α :=
  ⟨s.entries.erase key⟩

/-- The live value of a key; an expired entry is dropped. -/
def lookup (s : Expiring α) (now : Nat) (key : String) : Option α × Expiring α :=
  match s.entries.find? key with
  | none => (none, s)
  | some k => if k.isExpired now then (none, s.remove key) else (some k.value, s)

/-- Stores a value under a key, after a sweep if the store has grown to the sweep size. -/
def store (s : Expiring α) (r : Retention) (now : Nat) (key : String) (value : α) : Expiring α :=
  let s := if r.sweepSize ≤ s.size then s.sweep now else s
  ⟨s.entries.put key ⟨value, r.expiry? now⟩⟩

end Expiring

end IntentGate
