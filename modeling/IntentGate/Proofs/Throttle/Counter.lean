import IntentGate.Proofs.Throttle.Run

/-!
# Independent counters

A throttle keeps the buckets of all keys in one table and sweeps it on a schedule that any key
advances. None of this shows: `grantsOn_log_eq_answers` says that the acquisitions of one key and
window length are answered as by a `Counter` that sees nothing but them and the resets of the key.

The throttle and the counter do not hold the same. A sweep drops a bucket whose window has run out,
while the counter keeps what it held; `Stands` relates the two, and it lasts because readings do not
decrease, so that a window which has run out stays run out. What a run does to the two is said once,
in `Stands.run`.
-/

namespace IntentGate.Throttle

/-- A counter of one key and window length on its own. -/
inductive Counter where
  /-- Nothing has been counted. -/
  | idle
  /-- When the window began and how many acquisitions it has seen. -/
  | counting (start count : Nat)
deriving DecidableEq, Repr

namespace Counter

/-- What a counter sees. -/
inductive Input where
  | acquire (limit now : Nat)
  | reset
deriving DecidableEq, Repr

/-- When the window of an acquisition began and its number in that window. -/
def next (window now : Nat) : Counter → Nat × Nat
  | .idle => (now, 1)
  | .counting start count =>
    if window ≤ now - start then (now, 1) else (start, min (count + 1) (UInt32.size - 1))

/-- The answer to the acquisition with a number in the window that began at `start`. -/
def answer (window limit now start count : Nat) : Grant where
  allowed := count ≤ limit
  count := count
  limit := limit
  retryAfter := if count ≤ limit then none else some (window - (now - start))

/-- What an input is answered, if it is an acquisition, and the counter after it. -/
def serve (window : Nat) (c : Counter) : Input → Option Grant × Counter
  | .acquire limit now =>
    let (start, count) := c.next window now
    (some (answer window limit now start count), .counting start count)
  | .reset => (none, .idle)

/-- The counter that some inputs leave. -/
def after (window : Nat) (c : Counter) (is : List Input) : Counter :=
  is.foldl (fun c i => (c.serve window i).2) c

theorem after_append (window : Nat) (c : Counter) (is is' : List Input) :
    c.after window (is ++ is') = (c.after window is).after window is' :=
  List.foldl_append ..

/-- The answers to the acquisitions among some inputs, in order. -/
def answers (window : Nat) (c : Counter) : List Input → List Grant
  | [] => []
  | i :: rest => (c.serve window i).1.toList ++ (c.serve window i).2.answers window rest

/-- How an input is counted, if it is an acquisition. -/
def counted? (window : Nat) (c : Counter) : Input → Option Counted
  | .acquire limit now =>
    let (start, count) := c.next window now
    some ⟨now, start, answer window limit now start count⟩
  | .reset => none

/-- How a counter counts the acquisitions among some inputs, in order. -/
def counts (window : Nat) (c : Counter) : List Input → List Counted
  | [] => []
  | i :: rest => (c.counted? window i).toList ++ (c.serve window i).2.counts window rest

/-- Every answer of a counter is counted, in its place. -/
theorem grants_counts (window : Nat) (c : Counter) (is : List Input) :
    (c.counts window is).map (·.grant) = c.answers window is := by
  induction is generalizing c with
  | nil => rfl
  | cons i rest ih =>
    rw [counts, answers, List.map_append, ih]
    cases i <;> rfl

end Counter

/-- What the counter of a key and window length sees of a request. -/
def Request.input? (key : String) (window : Nat) : Request → Option Counter.Input
  | .acquire k limit w now => if k = key ∧ w = window then some (.acquire limit now) else none
  | .reset k => if k = key then some .reset else none
  | .cleanup _ => none

theorem Request.eq_acquire_of_input? {key : String} {window limit now : Nat} {r : Request}
    (h : r.input? key window = some (.acquire limit now)) : r = .acquire key limit window now := by
  cases r with
  | acquire k l w at_ =>
    by_cases hpair : k = key ∧ w = window
    · obtain ⟨rfl, rfl⟩ := hpair
      obtain ⟨rfl, rfl⟩ : l = limit ∧ at_ = now := by simpa [Request.input?] using h
      rfl
    · simp [Request.input?, hpair] at h
  | reset k => by_cases hkey : k = key <;> simp [Request.input?, hkey] at h
  | cleanup at_ => cases h

/-- What the counter of a key and window length sees of some requests. -/
def feed (key : String) (window : Nat) (rs : List Request) : List Counter.Input :=
  rs.filterMap (Request.input? key window)

/-! ## Buckets and counters -/

/-- A bucket stands for a counter that holds the same. No bucket stands for a counter that holds
nothing or whose window had run out at the reading `now`. -/
def Stands (window now : Nat) : Option Bucket → Counter → Prop
  | none, .idle => True
  | none, .counting start _ => window ≤ now - start
  | some _, .idle => False
  | some b, .counting start count => b.start = start ∧ b.count = count

/-- A window that has run out stays run out. -/
theorem Stands.mono {window now later : Nat} {b : Option Bucket} {c : Counter}
    (h : Stands window now b c) (hle : now ≤ later) : Stands window later b c := by
  cases b with
  | none =>
    cases c with
    | idle => trivial
    | counting start count => exact Nat.le_trans h (Nat.sub_le_sub_right hle start)
  | some b => cases c <;> exact h

/-- Dropping a bucket whose window has run out does not show. -/
theorem Stands.sweep {window now : Nat} {b : Option Bucket} {c : Counter}
    (h : Stands window now b c) :
    Stands window now (b.filter fun b => b.elapsed now < window) c := by
  cases b with
  | none => exact h
  | some b =>
    cases c with
    | idle => exact h.elim
    | counting start count =>
      obtain ⟨rfl, rfl⟩ := h
      by_cases hlive : b.elapsed now < window
      · rw [Option.filter_some_pos (by simpa using hlive)]
        exact ⟨rfl, rfl⟩
      · rw [Option.filter_some_neg (by simpa using hlive)]
        exact Nat.le_of_not_lt hlive

/-- What an acquisition makes of a bucket, or of none, is what it makes of the counter. -/
theorem Stands.acquire {window now : Nat} {b : Option Bucket} {c : Counter}
    (h : Stands window now b c) :
    (b.getD ⟨0, now⟩).acquire window now = ⟨(c.next window now).2, (c.next window now).1⟩ := by
  cases b with
  | none =>
    have hnew : (⟨0, now⟩ : Bucket).acquire window now = ⟨1, now⟩ := by
      simp only [Bucket.acquire]
      split <;> rfl
    cases c with
    | idle => exact hnew
    | counting start count =>
      have hover : window ≤ now - start := h
      simpa only [Option.getD_none, Counter.next, if_pos hover] using hnew
  | some b =>
    cases c with
    | idle => exact h.elim
    | counting start count =>
      obtain ⟨rfl, rfl⟩ := h
      simp only [Option.getD_some, Bucket.acquire, Counter.next]
      by_cases hover : window ≤ b.elapsed now
      · rw [if_pos hover, if_pos (show window ≤ now - b.start from hover)]
      · rw [if_neg hover, if_neg (show ¬window ≤ now - b.start from hover)]
        rfl

theorem grant_eq_answer (window limit now start count : Nat) :
    grant ⟨count, start⟩ limit window now = Counter.answer window limit now start count := by
  by_cases h : count ≤ limit
  · simp [grant, Counter.answer, h]
  · simp [grant, Counter.answer, h, Bucket.elapsed]

/-- The sweep that may come before an acquisition does not show. -/
theorem Stands.prepared {t : Throttle} {key : String} {window now : Nat} {c : Counter}
    (h : Stands window now (t.bucket? key window) c) :
    Stands window now ((t.prepared now).bucket? key window) c := by
  unfold Throttle.prepared
  split
  · rw [bucket?_sweep]
    exact h.sweep
  · exact h

/-- An acquisition leaves the bucket of the counter after it. -/
theorem Stands.acquired_eq {t : Throttle} {key : String} {window now : Nat} {c : Counter}
    (h : Stands window now (t.bucket? key window) c) :
    t.acquired key window now = ⟨(c.next window now).2, (c.next window now).1⟩ :=
  h.prepared.acquire

/-! ## One request and a run -/

section Run

variable {key : String} {window : Nat}

/-- A request that the counter of the pair does not see leaves the pair's bucket standing for it,
and is not counted. -/
theorem Stands.serve_unseen {t : Throttle} {now : Nat} {c : Counter} {r : Request}
    (h : Stands window now (t.bucket? key window) c) (hnow : ∀ n ∈ r.reading?, now ≤ n)
    (hr : r.input? key window = none) :
    Stands window (r.reading?.getD now) ((t.serve r).2.bucket? key window) c ∧
      counted? key window t r = none := by
  cases r with
  | acquire k limit w at_ =>
    have hother : ¬(k = key ∧ w = window) := fun hpair => by simp [Request.input?, hpair] at hr
    have h := (h.mono (hnow at_ rfl)).prepared
    refine ⟨?_, counted?_of_not_granted (if_neg hother)⟩
    change Stands window at_ ((t.acquire k limit w at_).2.bucket? key window) c
    rw [bucket?_acquire, if_neg fun hpair => hother ⟨hpair.1.symm, hpair.2.symm⟩]
    exact h
  | reset k =>
    have hother : ¬k = key := fun hkey => by simp [Request.input?, hkey] at hr
    refine ⟨?_, counted?_of_not_granted rfl⟩
    change Stands window now ((t.reset k).bucket? key window) c
    rw [bucket?_reset, if_neg fun hkey => hother hkey.symm]
    exact h
  | cleanup at_ =>
    refine ⟨?_, counted?_of_not_granted rfl⟩
    change Stands window at_ ((t.sweep at_).bucket? key window) c
    rw [bucket?_sweep]
    exact (h.mono (hnow at_ rfl)).sweep

/-- A request that the counter of the pair sees is counted as the counter counts it, and leaves the
pair's bucket standing for the counter after it. -/
theorem Stands.serve_seen {t : Throttle} {now : Nat} {c : Counter} {r : Request}
    {i : Counter.Input} (h : Stands window now (t.bucket? key window) c)
    (hnow : ∀ n ∈ r.reading?, now ≤ n) (hr : r.input? key window = some i) :
    Stands window (r.reading?.getD now) ((t.serve r).2.bucket? key window)
        (c.serve window i).2 ∧
      counted? key window t r = c.counted? window i := by
  cases r with
  | acquire k limit w at_ =>
    by_cases hpair : k = key ∧ w = window
    · obtain ⟨rfl, rfl⟩ := hpair
      obtain rfl : .acquire limit at_ = i := by simpa [Request.input?] using hr
      have hb := (h.mono (hnow at_ rfl)).acquired_eq
      constructor
      · change Stands w at_ ((t.acquire k limit w at_).2.bucket? k w) _
        rw [bucket?_acquire, if_pos ⟨rfl, rfl⟩, hb]
        exact ⟨rfl, rfl⟩
      · rw [counted?_acquire, hb, grant_eq_answer]
        rfl
    · simp [Request.input?, hpair] at hr
  | reset k =>
    by_cases hkey : k = key
    · obtain rfl : .reset = i := by simpa [Request.input?, hkey] using hr
      refine ⟨?_, counted?_of_not_granted rfl⟩
      change Stands window now ((t.reset k).bucket? key window) .idle
      rw [bucket?_reset, if_pos hkey.symm]
      trivial
    · simp [Request.input?, hkey] at hr
  | cleanup at_ => simp [Request.input?] at hr

/-- From a throttle whose bucket stands for a counter, a run counts the acquisitions of the pair as
the counter does, and leaves a bucket that stands for what it leaves of the counter, at its last
reading. -/
theorem Stands.run {rs : List Request} :
    ∀ {t : Throttle} {now : Nat} {c : Counter}, Stands window now (t.bucket? key window) c →
      (∀ n ∈ readings rs, now ≤ n) → Chronological rs →
      countedOn key window t rs = c.counts window (feed key window rs) ∧
        Stands window ((readings rs).getLastD now) ((t.after rs).bucket? key window)
          (c.after window (feed key window rs)) := by
  induction rs with
  | nil => intro t now c h _ _; exact ⟨rfl, h⟩
  | cons r rest ih =>
    intro t now c h hnow hrs
    obtain ⟨hr, hlater⟩ := hrs.later hnow
    rw [countedOn, getLastD_readings_cons]
    change _ ∧ Stands window _ (((t.serve r).2.after rest).bucket? key window) _
    cases hseen : r.input? key window with
    | none =>
      obtain ⟨h', hcounted⟩ := h.serve_unseen hr hseen
      have hfeed : feed key window (r :: rest) = feed key window rest :=
        List.filterMap_cons_none hseen
      rw [hfeed, hcounted]
      exact ih h' hlater hrs.tail
    | some i =>
      obtain ⟨h', hcounted⟩ := h.serve_seen hr hseen
      have hfeed : feed key window (r :: rest) = i :: feed key window rest :=
        List.filterMap_cons_some hseen
      obtain ⟨hcounts, hafter⟩ := ih h' hlater hrs.tail
      rw [hfeed, hcounted, hcounts]
      exact ⟨rfl, hafter⟩

end Run

/-- A run from the empty throttle counts the acquisitions of each pair as an idle counter does. -/
theorem countedOn_eq_counts {rs : List Request} (h : Chronological rs) (key : String)
    (window : Nat) :
    countedOn key window empty rs = Counter.idle.counts window (feed key window rs) := by
  have hidle : Stands window 0 (empty.bucket? key window) .idle := trivial
  exact (hidle.run (fun n _ => Nat.zero_le n) h).1

/-- What a run from the empty throttle leaves of a pair's bucket stands for what the run leaves of an
idle counter. -/
theorem stands_after {rs : List Request} (h : Chronological rs) {later : Nat}
    (hlater : ∀ n ∈ readings rs, n ≤ later) (key : String) (window : Nat) :
    Stands window later ((empty.after rs).bucket? key window)
      (Counter.idle.after window (feed key window rs)) := by
  have hidle : Stands window 0 (empty.bucket? key window) .idle := trivial
  have hlast : (readings rs).getLastD 0 ≤ later := by
    rcases List.mem_cons.1 (List.getLastD_mem_cons (l := readings rs) (a := 0)) with hzero | hmem
    · rw [hzero]
      exact Nat.zero_le later
    · exact hlater _ hmem
  exact (hidle.run (fun n _ => Nat.zero_le n) h).2.mono hlast

/-- A run answers the acquisitions of each pair as an idle counter does that sees nothing but them
and the resets of the key. So runs that the counter cannot tell apart answer them alike, whatever
else they acquire, reset or clean up. -/
theorem grantsOn_log_eq_answers (rs : List Request) (h : Chronological rs) (key : String)
    (window : Nat) :
    grantsOn key window (empty.log rs) = Counter.idle.answers window (feed key window rs) ∧
    ∀ rs', Chronological rs' → feed key window rs' = feed key window rs →
      grantsOn key window (empty.log rs') = grantsOn key window (empty.log rs) := by
  have hrun {rs' : List Request} (h' : Chronological rs') :
      grantsOn key window (empty.log rs') = Counter.idle.answers window (feed key window rs') := by
    rw [← grants_countedOn, countedOn_eq_counts h', Counter.grants_counts]
  refine ⟨hrun h, fun rs' h' hfeed => ?_⟩
  rw [hrun h', hrun h, hfeed]

/-- The hundredth acquisition sweeps, and drops the bucket of a pair whose window is over; the pair
is answered as if nothing had come between. -/
theorem grantsOn_log_across_sweep :
    grantsOn "a" 10 (empty.log ([.acquire "a" 1 10 0, .acquire "a" 1 10 4] ++
        List.replicate 98 (.acquire "b" 5 1 10) ++ [.cleanup 11, .acquire "a" 1 10 12])) =
      [⟨true, 1, 1, none⟩, ⟨false, 2, 1, some 6⟩, ⟨true, 1, 1, none⟩] ∧
    grantsOn "a" 10 (empty.log [.acquire "a" 1 10 0, .acquire "a" 1 10 4, .acquire "a" 1 10 12]) =
      grantsOn "a" 10 (empty.log ([.acquire "a" 1 10 0, .acquire "a" 1 10 4] ++
        List.replicate 98 (.acquire "b" 5 1 10) ++ [.cleanup 11, .acquire "a" 1 10 12])) := by
  have hlaw := grantsOn_log_eq_answers ([.acquire "a" 1 10 0, .acquire "a" 1 10 4] ++
    List.replicate 98 (.acquire "b" 5 1 10) ++ [.cleanup 11, .acquire "a" 1 10 12])
    (by decide +kernel) "a" 10
  constructor
  · rw [hlaw.1]
    decide +kernel
  · exact hlaw.2 _ (by decide) (by decide +kernel)

end IntentGate.Throttle
