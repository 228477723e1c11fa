import IntentGate.Table

/-!
# Throttling

A `Throttle` counts acquisitions per key and window length in fixed windows. The first acquisition
of a pair opens its window; one that comes when the window has run out opens the next. An
acquisition is allowed while the count is within the limit given with it, and a refused one is told
how long the window still runs. Counts stop at the largest word of 32 bits. Every hundredth
acquisition first sweeps the buckets whose window has run out; acquisitions are numbered by a word
of 64 bits, which starts over after its largest value.

Clock readings are nanoseconds since an arbitrary start. One that lies before the start of a window
counts as no time elapsed.
-/

namespace IntentGate

/-- The count of one key and window length, and when its window began. -/
structure Bucket where
  count : Nat
  start : Nat
deriving DecidableEq, Repr

/-- The answer to an acquisition. -/
structure Grant where
  allowed : Bool
  count : Nat
  limit : Nat
  /-- How long the window still runs, for a refused acquisition. -/
  retryAfter : Option Nat
deriving DecidableEq, Repr

/-- Buckets by key and window length, and how many acquisitions there have been. -/
structure Throttle where
  buckets : Table (String × Nat) Bucket := Table.empty
  acquisitions : UInt64 := 0

namespace Bucket

/-- The time from the start of the window to a reading. -/
def elapsed (b : Bucket) (now : Nat) : Nat :=
  now - b.start

/-- The largest count, a word of 32 bits. -/
def maxCount : Nat := UInt32.size - 1

/-- The bucket after one more acquisition: in its window, or as the first one of the next. -/
def acquire (b : Bucket) (window now : Nat) : Bucket :=
  if window ≤ b.elapsed now then ⟨1, now⟩ else ⟨min (b.count + 1) maxCount, b.start⟩

end Bucket

namespace Throttle

/-- A sweep comes before every acquisition whose number is a multiple of this. -/
def sweepInterval : UInt64 := 100

/-- A throttle that has seen nothing. -/
def empty : Throttle := {}

/-- The number of buckets. -/
def size (t : Throttle) : Nat :=
  t.buckets.size

/-- Drops the buckets whose window has run out at a reading. -/
def sweep (t : Throttle) (now : Nat) : Throttle :=
  { t with buckets := t.buckets.filter fun key b => b.elapsed now < key.2 }

/-- Sweeps, and says how many buckets were dropped. -/
def cleanup (t : Throttle) (now : Nat) : Nat × Throttle :=
  let swept := t.sweep now
  (t.size - swept.size, swept)

/-- The answer to the acquisition that brought a bucket to its count. -/
def grant (b : Bucket) (limit window now : Nat) : Grant :=
  if b.count ≤ limit then ⟨true, b.count, limit, none⟩
  else ⟨false, b.count, limit, some (window - b.elapsed now)⟩

/-- Counts an acquisition on a key and window length, after the sweep if one is due. -/
def acquire (t : Throttle) (key : String) (limit window now : Nat) : Grant × Throttle :=
  let seen := t.acquisitions + 1
  let t := if seen % sweepInterval = 0 then t.sweep now else t
  let b := ((t.buckets.find? (key, window)).getD ⟨0, now⟩).acquire window now
  (grant b limit window now, ⟨t.buckets.put (key, window) b, seen⟩)

/-- Forgets every window of a key. -/
def reset (t : Throttle) (key : String) : Throttle :=
  { t with buckets := t.buckets.filter fun k _ => k.1 ≠ key }

/-- The structural dump. -/
def diagnostic (t : Throttle) : String :=
  "MemoryRateLimiter \x7b buckets: " ++ toString t.size ++ " \x7d"

end Throttle

end IntentGate
