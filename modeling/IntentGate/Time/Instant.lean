/-!
# Instants, spans and the wall clock

An `Instant` is a moment in universal time: a count of seconds from 1 January 1970 and nanoseconds
within the second. A leap second is the second before it, prolonged: its nanoseconds run on from
`10 ^ 9`. Instants are ordered by second, then nanosecond, and bounded on both sides. A `Span` is a
signed number of nanoseconds. A `WallClock` is read for an instant where no reference is given; its
readings may come in any order.
-/

namespace IntentGate

/-- A signed length of time in nanoseconds. -/
abbrev Span := Int

namespace Span

/-- The nanoseconds of one second. -/
def perSecond : Nat := 1000000000

/-- The longest span, as many milliseconds as a signed word of 64 bits counts. -/
def longest : Span := (UInt64.size / 2 - 1 : Nat) * 1000000

/-- A span of whole seconds. -/
def ofSeconds (seconds : Int) : Span := seconds * perSecond

/-- Whole milliseconds, a broken one cut off towards zero. -/
def milliseconds (s : Span) : Int := Int.tdiv s 1000000

end Span

/-- A moment in universal time. -/
structure Instant where
  second : Int
  nano : Nat
  second_ge : -8334601228800 ≤ second := by omega
  second_le : second ≤ 8210266876799 := by omega
  nano_lt : nano < 2000000000 := by omega
deriving DecidableEq, Repr

namespace Instant

/-- The first instant: the start of the year -262143. -/
def earliest : Instant := { second := -8334601228800, nano := 0 }

/-- The last instant outside a leap second: the end of the year 262142. -/
def latest : Instant := { second := 8210266876799, nano := 999999999 }

instance : Inhabited Instant := ⟨{ second := 0, nano := 0 }⟩

/-- The instant with these fields, if they are in range. -/
def ofParts? (second : Int) (nano : Nat) : Option Instant :=
  if h : -8334601228800 ≤ second ∧ second ≤ 8210266876799 ∧ nano < 2000000000 then
    some ⟨second, nano, h.1, h.2.1, h.2.2⟩
  else none

/-- Order in time: by second, then by nanosecond. -/
instance : LE Instant :=
  ⟨fun a b => a.second < b.second ∨ (a.second = b.second ∧ a.nano ≤ b.nano)⟩

instance : LT Instant := ⟨fun a b => ¬ b ≤ a⟩

instance : DecidableRel (α := Instant) (· ≤ ·) := fun a b =>
  inferInstanceAs (Decidable (a.second < b.second ∨ (a.second = b.second ∧ a.nano ≤ b.nano)))

instance : DecidableRel (α := Instant) (· < ·) := fun a b =>
  inferInstanceAs (Decidable (¬ b ≤ a))

theorem le_def {a b : Instant} :
    a ≤ b ↔ a.second < b.second ∨ (a.second = b.second ∧ a.nano ≤ b.nano) := Iff.rfl

theorem lt_def {a b : Instant} : a < b ↔ ¬ b ≤ a := Iff.rfl

theorem le_refl (a : Instant) : a ≤ a := by simp [le_def]

theorem le_total (a b : Instant) : a ≤ b ∨ b ≤ a := by simp only [le_def]; omega

theorem le_trans {a b c : Instant} (hab : a ≤ b) (hbc : b ≤ c) : a ≤ c := by
  simp only [le_def] at *; omega

theorem le_antisymm {a b : Instant} (hab : a ≤ b) (hba : b ≤ a) : a = b := by
  cases a; cases b; simp only [le_def] at *; simp only [mk.injEq]; omega

/-- Whether the instant lies in a leap second. -/
def inLeapSecond (t : Instant) : Bool := Span.perSecond ≤ t.nano

/-- The second within the day. -/
def secondOfDay (t : Instant) : Int := t.second % 86400

/-- Nanoseconds from the start of 1970, leap seconds not counted. -/
def ticks (t : Instant) : Int := t.second * Span.perSecond + t.nano

/-- The later of two instants. -/
def later (a b : Instant) : Instant := if a ≤ b then b else a

/-- The earlier of two instants. -/
def sooner (a b : Instant) : Instant := if a ≤ b then a else b

/-- The span from `b` to `a`. The leap second in which one of the two lies is counted when the
other has a later time of day. -/
def since (a b : Instant) : Span :=
  let leap : Int :=
    if b.secondOfDay < a.secondOfDay ∧ b.inLeapSecond then Span.perSecond
    else if a.secondOfDay < b.secondOfDay ∧ a.inLeapSecond then -Span.perSecond
    else 0
  a.ticks - b.ticks + leap

/-- The instant `span` nanoseconds before `t`; none when that is before `earliest`. Inside a leap
second a span of less than a second goes back within it. -/
def before? (t : Instant) (span : Nat) : Option Instant :=
  if t.inLeapSecond ∧ span < Span.perSecond then ofParts? t.second (t.nano - span)
  else
    let ticks := t.ticks - span
    ofParts? (ticks / Span.perSecond) (ticks % Span.perSecond).toNat

end Instant

/-- A wall clock: its readings, one after another, and how many of them have been taken. -/
structure WallClock where
  reading : Nat → Instant := fun _ => default
  taken : Nat := 0

namespace WallClock

/-- Takes the next reading. -/
def now : StateM WallClock Instant := fun c =>
  (c.reading c.taken, { c with taken := c.taken + 1 })

/-- The reference, or else the next reading. -/
def referenceOrNow : Option Instant → StateM WallClock Instant
  | some reference => pure reference
  | none => now

end WallClock

end IntentGate
