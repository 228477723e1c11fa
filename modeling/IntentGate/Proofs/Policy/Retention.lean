import IntentGate.Policy.Execution
import Mathlib.Data.List.Basic
import Mathlib.Data.List.Infix

/-!
# What a log retains

A log that is full drops its oldest records a trim at a time. How many of the records appended since
the last clearing are gone is a function of their number alone: as many trims as it takes to come
within the capacity (`dropped`). So what a log retains has a closed form (`Keeps`), which appending
and clearing preserve, and `retains_recent_suffix` reads off it what every run of them leaves.
-/

namespace IntentGate.ExecutionLog

/-- What is done to a log. -/
inductive Operation where
  | append (r : ExecutionRecord)
  | clear

/-- The log after one operation. -/
def perform (l : ExecutionLog) : Operation → ExecutionLog
  | .append r => l.append r
  | .clear => l.clear

/-- The log after a run of operations. -/
def after (l : ExecutionLog) (ops : List Operation) : ExecutionLog :=
  ops.foldl perform l

/-- What has been appended since the last clearing, after one more operation. -/
def Operation.extend (rs : List ExecutionRecord) : Operation → List ExecutionRecord
  | .append r => rs ++ [r]
  | .clear => []

/-- The records appended since the last clearing, oldest first. -/
def sinceClear (ops : List Operation) : List ExecutionRecord :=
  ops.foldl Operation.extend []

variable {l : ExecutionLog} {rs : List ExecutionRecord}

/-! ## Trims -/

theorem trim_pos (l : ExecutionLog) : 0 < l.trim :=
  Nat.lt_of_lt_of_le Nat.one_pos (Nat.le_max_right ..)

theorem trim_le_capacity (l : ExecutionLog) : l.trim ≤ l.capacity :=
  Nat.max_le.2 ⟨Nat.div_le_self .., l.capacity_pos⟩

/-- How many of `n` appended records are gone: the fewest trims that leave no more than the
capacity. -/
def dropped (l : ExecutionLog) (n : Nat) : Nat :=
  l.trim * ((n - l.capacity + (l.trim - 1)) / l.trim)

theorem dropped_eq_iff {n q : Nat} :
    l.dropped n = l.trim * q ↔
      n - l.capacity ≤ l.trim * q ∧ l.trim * q < n - l.capacity + l.trim := by
  have hpos := l.trim_pos
  constructor
  · rintro hq
    have hdiv := Nat.div_add_mod (n - l.capacity + (l.trim - 1)) l.trim
    have hmod := Nat.mod_lt (n - l.capacity + (l.trim - 1)) hpos
    rw [dropped] at hq
    omega
  · rintro ⟨hlow, hhigh⟩
    rw [dropped]
    congr 1
    refine Nat.div_eq_of_lt_le ?_ ?_
    · rw [Nat.mul_comm]
      omega
    · rw [Nat.succ_mul, Nat.mul_comm]
      omega

theorem dropped_bounds (l : ExecutionLog) (n : Nat) :
    n - l.capacity ≤ l.dropped n ∧ l.dropped n < n - l.capacity + l.trim :=
  dropped_eq_iff.1 rfl

theorem dropped_of_le {n : Nat} (h : n ≤ l.capacity) : l.dropped n = 0 := by
  have hpos := l.trim_pos
  have hzero : l.dropped n = l.trim * 0 := dropped_eq_iff.2 (by omega)
  exact hzero

/-- The newest record is not dropped. -/
theorem dropped_lt {n : Nat} (h : 0 < n) : l.dropped n < n := by
  by_cases hle : n ≤ l.capacity
  · rw [dropped_of_le hle]
    exact h
  · have htrim := l.trim_le_capacity
    obtain ⟨-, hhigh⟩ := l.dropped_bounds n
    omega

/-- With room left, one more record makes no difference. -/
theorem dropped_succ_of_lt {n : Nat} (h : n < l.dropped n + l.capacity) :
    l.dropped (n + 1) = l.dropped n := by
  obtain ⟨-, hhigh⟩ := l.dropped_bounds n
  refine dropped_eq_iff.2 ?_
  change n + 1 - l.capacity ≤ l.dropped n ∧ l.dropped n < n + 1 - l.capacity + l.trim
  omega

/-- A full log makes one more trim. -/
theorem dropped_succ_of_eq {n : Nat} (h : n = l.dropped n + l.capacity) :
    l.dropped (n + 1) = l.dropped n + l.trim := by
  have hpos := l.trim_pos
  have hnext : l.dropped n + l.trim =
      l.trim * ((n - l.capacity + (l.trim - 1)) / l.trim + 1) := (Nat.mul_succ ..).symm
  rw [hnext, dropped_eq_iff, ← hnext]
  omega

/-! ## The closed form -/

/-- What the log holds of the records appended since the last clearing. -/
def Keeps (l : ExecutionLog) (rs : List ExecutionRecord) : Prop :=
  l.records.toList = rs.drop (l.dropped rs.length)

theorem toList_append_of_lt (h : l.records.size < l.capacity) (r : ExecutionRecord) :
    (l.append r).records.toList = l.records.toList ++ [r] := by
  rw [append]
  simp only [if_neg (Nat.not_le.2 h), Array.toList_push]

theorem toList_append_of_le (h : l.capacity ≤ l.records.size) (r : ExecutionRecord) :
    (l.append r).records.toList = l.records.toList.drop l.trim ++ [r] := by
  rw [append]
  simp [if_pos h]

namespace Keeps

theorem size_eq (h : l.Keeps rs) : l.records.size = rs.length - l.dropped rs.length := by
  rw [← Array.length_toList, h, List.length_drop]

theorem empty (h : l.records = #[]) : l.Keeps [] := by
  rw [Keeps, h, List.drop_nil]

/-- The log is full exactly when the number of records calls for one more trim. -/
theorem append (h : l.Keeps rs) (r : ExecutionRecord) : (l.append r).Keeps (rs ++ [r]) := by
  have hsize := h.size_eq
  obtain ⟨hlow, hhigh⟩ := l.dropped_bounds rs.length
  have htrim := l.trim_le_capacity
  change (l.append r).records.toList = (rs ++ [r]).drop (l.dropped (rs ++ [r]).length)
  rw [List.length_append, List.length_singleton]
  by_cases hfull : l.capacity ≤ l.records.size
  · have hcount : rs.length = l.dropped rs.length + l.capacity := by omega
    have hdrop : l.dropped rs.length + l.trim ≤ rs.length := by omega
    rw [toList_append_of_le hfull, dropped_succ_of_eq hcount, h, List.drop_drop,
      List.drop_append_of_le_length hdrop]
  · have hroom : rs.length < l.dropped rs.length + l.capacity := by omega
    have hdrop : l.dropped rs.length ≤ rs.length := by
      rcases Nat.eq_zero_or_pos rs.length with hzero | hpos
      · rw [hzero, dropped_of_le (Nat.zero_le _)]
      · exact Nat.le_of_lt (dropped_lt hpos)
    rw [toList_append_of_lt (Nat.lt_of_not_le hfull), dropped_succ_of_lt hroom, h,
      List.drop_append_of_le_length hdrop]

theorem perform (h : l.Keeps rs) (op : Operation) : (l.perform op).Keeps (op.extend rs) := by
  cases op with
  | append r => exact h.append r
  | clear => exact empty rfl

theorem after (h : l.Keeps rs) (ops : List Operation) :
    (l.after ops).Keeps (ops.foldl Operation.extend rs) := by
  induction ops generalizing l rs with
  | nil => exact h
  | cons op rest ih => exact ih (h.perform op)

end Keeps

theorem capacity_after (l : ExecutionLog) (ops : List Operation) :
    (l.after ops).capacity = l.capacity := by
  induction ops generalizing l with
  | nil => rfl
  | cons op rest ih =>
    have hop : (l.perform op).capacity = l.capacity := by cases op <;> rfl
    exact (ih _).trans hop

/-- Whatever is appended and cleared, a log of a capacity retains the latest of the records appended
since the last clearing, without a gap and in order: all of them as long as they are within the
capacity, and afterwards at least what one trim leaves of a full log, and the newest one. The newest
record is always there to be read, and the failures are those among what is retained. -/
theorem retains_recent_suffix (c : Nat) (ops : List Operation) :
    let log := (ofCapacity c).after ops
    let appended := sinceClear ops
    let capacity := max c 1
    let trim := max (capacity / 10) 1
    log.records.toList <:+ appended ∧
    log.size ≤ capacity ∧
    (appended.length ≤ capacity → log.records.toList = appended) ∧
    (capacity < appended.length → capacity - trim + 1 ≤ log.size) ∧
    log.last? = appended.getLast? ∧
    log.failures = log.records.toList.filter fun r => !r.success := by
  intro log appended capacity trim
  have hkeeps : log.Keeps appended := (Keeps.empty rfl).after ops
  have hcapacity : log.capacity = capacity := capacity_after (ofCapacity c) ops
  have htrim : log.trim = trim := by rw [ExecutionLog.trim, hcapacity]
  obtain ⟨hlow, hhigh⟩ := log.dropped_bounds appended.length
  have hsize : log.size = appended.length - log.dropped appended.length := hkeeps.size_eq
  rw [hcapacity, htrim] at hhigh
  rw [hcapacity] at hlow
  have hle : trim ≤ capacity := htrim ▸ hcapacity ▸ log.trim_le_capacity
  refine ⟨?suffix, by omega, ?all, ?most, ?last, rfl⟩
  case suffix =>
    rw [hkeeps]
    exact List.drop_suffix ..
  case all =>
    intro hwithin
    rw [hkeeps, dropped_of_le (hcapacity ▸ hwithin), List.drop_zero]
  case most =>
    intro hbeyond
    omega
  case last =>
    rw [last?, ← Array.getLast?_toList, hkeeps, List.getLast?_drop]
    split
    · next hall =>
      rcases Nat.eq_zero_or_pos appended.length with hzero | hpos
      · rw [List.length_eq_zero_iff.1 hzero, List.getLast?_nil]
      · exact absurd (dropped_lt hpos) (Nat.not_lt.2 hall)
    · rfl

/-- A log of twenty records drops two at a time, a log of three one at a time. -/
example : (ofCapacity 20).dropped 21 = 2 ∧ (ofCapacity 3).dropped 5 = 2 := by
  decide

end IntentGate.ExecutionLog
