import IntentGate.Decimal.Layout
import IntentGate.Fault
import IntentGate.Json.Record
import IntentGate.Scalar
import IntentGate.Text.Ascii
import IntentGate.Text.Blank

/-!
# Confidence

A `Confidence` is a score and a level. Scores are clamped into the unit interval, what is not a
number to zero. A `Calculator` turns a score into a confidence: by the standard thresholds, by
thresholds of one's own, which have to be ordered, or by giving a fixed answer. `downgraded` lowers
a confidence by one level, never below `low`.
-/

namespace IntentGate

/-- How sure an inference is, in five steps. -/
inductive Level where
  | none
  | low
  | medium
  | high
  | certain
deriving DecidableEq, Repr

/-- A score with its level. -/
structure Confidence where
  score : Float
  level : Level
deriving DecidableEq

/-- Bounds of the levels above `low`, ascending within the unit interval. -/
structure Thresholds where
  medium : Float
  high : Float
  certain : Float
  medium_pos : 0 < medium
  medium_lt_high : medium < high
  high_lt_certain : high < certain
  certain_le_one : certain ≤ 1

/-- How a score becomes a confidence. -/
inductive Calculator where
  | standard
  | thresholds (bounds : Thresholds)
  | fixed (answer : Confidence)

namespace Level

/-- Every level, lowest first. -/
def all : List Level := [none, low, medium, high, certain]

/-- The place in the order of levels. -/
def rank : Level → Nat
  | none => 0
  | low => 1
  | medium => 2
  | high => 3
  | certain => 4

theorem rank_injective {l l' : Level} (h : l.rank = l'.rank) : l = l' := by
  cases l <;> cases l' <;> first | rfl | cases h

theorem mem_all (l : Level) : l ∈ all := by
  cases l <;> decide

/-- The name of a level. -/
def name : Level → String
  | none => "None"
  | low => "Low"
  | medium => "Medium"
  | high => "High"
  | certain => "Certain"

/-- The level of a name, blanks around it and ASCII case ignored. -/
def ofName? (s : String) : Option Level :=
  all.find? fun l => Text.sameIgnoringCase l.name (Text.trim s)

/-- The stored form. -/
def toJson (l : Level) : Json := .text l.name

/-- Reads a stored level, by its exact name. -/
def ofJson? (j : Json) : Option Level :=
  j.toCase?.bind fun s => all.find? fun l => l.name == s

instance : Stored Level := ⟨toJson, ofJson?⟩

end Level

/-- The nearest score in the unit interval; zero for what is not a number. -/
def clampScore (score : Float) : Float :=
  if score.isNaN then 0
  else if score < 0 then 0
  else if 1 < score then 1
  else score

namespace Confidence

/-- A level with a clamped score. -/
def make (score : Float) (level : Level) : Confidence :=
  ⟨clampScore score, level⟩

/-- No confidence at all. -/
def nothing : Confidence := ⟨0, .none⟩

/-- The names of the stored fields, in order. -/
def fieldNames : List String := ["score", "level"]

/-- The stored form. -/
def toJson (c : Confidence) : Json :=
  .object [("score", .ofFloat c.score), ("level", c.level.toJson)]

/-- Reads a stored confidence as it stands. -/
def ofJson? (j : Json) : Option Confidence := do
  match ← j.slots? fieldNames with
  | [score, level] =>
    some ⟨← score.required Json.toFloat?, ← level.required Level.ofJson?⟩
  | _ => none

/-- The confidence one level down: each level above `low` falls to a set score in the next one, and
`low` and `none` end at `low` with at most a set score. -/
def downgraded (c : Confidence) : Confidence :=
  match c.level with
  | .certain => make 0.8 .high
  | .high => make 0.55 .medium
  | .medium => make 0.25 .low
  | .low | .none => make (lesser c.score 0.25) .low

instance : Stored Confidence := ⟨toJson, ofJson?⟩

end Confidence

namespace Thresholds

/-- The level of a clamped score: the highest one whose bound it reaches. -/
def levelOf (medium high certain score : Float) : Level :=
  if score < medium then .low
  else if score < high then .medium
  else if score < certain then .high
  else .certain

/-- Why three bounds are refused. -/
def disorderReason (medium high certain : Float) : String :=
  "expected 0 < medium < high < certain <= 1, got " ++ Layout.plain.text medium ++ ", "
    ++ Layout.plain.text high ++ ", " ++ Layout.plain.text certain

/-- Accepts bounds in ascending order within the unit interval. -/
def make (medium high certain : Float) : Except ConfigurationFault Thresholds :=
  if h : 0 < medium ∧ medium < high ∧ high < certain ∧ certain ≤ 1 then
    .ok ⟨medium, high, certain, h.1, h.2.1, h.2.2.1, h.2.2.2⟩
  else .error (.invalidValue "thresholds" (disorderReason medium high certain))

end Thresholds

namespace Calculator

/-- The confidence of a score. -/
def ofScore : Calculator → Float → Confidence
  | standard, score => ⟨clampScore score, Thresholds.levelOf 0.3 0.6 0.85 (clampScore score)⟩
  | thresholds t, score =>
    ⟨clampScore score, Thresholds.levelOf t.medium t.high t.certain (clampScore score)⟩
  | fixed answer, _ => answer

end Calculator

/-- The confidence of a score by the standard thresholds. -/
def Confidence.ofScore (score : Float) : Confidence :=
  Calculator.standard.ofScore score

end IntentGate
