import IntentGate.Proofs.Throttle.Counter
import Mathlib.Data.List.Basic

/-!
# What a limit allows

A limit bounds how many acquisitions of a key and window length are allowed, in each window that
the throttle opens and, within a factor of two, in any interval of one window length: the theorem is
`allowed_bounded`. The windows are the throttle's own, so they begin with whatever acquisition comes
first, and a sweep may forget one that is over. How a counter, which remembers more than the
throttle, counts one acquisition after another is said once in `Counted.Follows`. From it follow that
windows begin at least a window length apart, so that an interval of that length meets two of them
at most, and that the acquisitions of a window are numbered from one.
-/

namespace IntentGate.Throttle

/-! ## Acquisitions with one limit -/

/-- The readings of the acquisitions of a key and window length. -/
def acquiredAt (key : String) (window : Nat) (rs : List Request) : List Nat :=
  rs.filterMap fun
    | .acquire k _ w now => if k = key ∧ w = window then some now else none
    | _ => none

theorem pairwise_acquiredAt {rs : List Request} (h : Chronological rs) (key : String)
    (window : Nat) : (acquiredAt key window rs).Pairwise (· ≤ ·) := by
  rw [Chronological, readings, List.pairwise_filterMap] at h
  rw [acquiredAt, List.pairwise_filterMap]
  refine h.imp fun {r r'} hle n hn m hm => ?_
  cases r <;> cases r' <;> simp_all [Request.reading?]

/-- With one limit and no resets the counter of a pair sees acquisitions only. -/
theorem feed_eq_map {key : String} {window limit : Nat} {rs : List Request}
    (hlimit : ∀ l now, .acquire key l window now ∈ rs → l = limit) (hreset : .reset key ∉ rs) :
    feed key window rs = (acquiredAt key window rs).map (.acquire limit) := by
  rw [feed, acquiredAt, List.map_filterMap]
  refine List.filterMap_congr fun r hr => ?_
  cases r with
  | acquire k l w now =>
    by_cases hpair : k = key ∧ w = window
    · obtain ⟨rfl, rfl⟩ := hpair
      simp [Request.input?, hlimit l now hr]
    · simp [Request.input?, hpair]
  | reset k =>
    have hkey : k ≠ key := fun hkey => hreset (hkey ▸ hr)
    simp [Request.input?, hkey]
  | cleanup now => rfl

namespace Counter

/-- When the window began that a counter is in. -/
def start? : Counter → Option Nat
  | idle => none
  | counting start _ => some start

/-- How many acquisitions a counter has seen in the window that began at `start`. -/
def seenIn (start : Nat) : Counter → Nat
  | idle => 0
  | counting s count => if s = start then count else 0

end Counter

/-- An acquisition falls into the window that counts it. This is the window that the counter was in,
or a later one that begins when that is over; and the number of the acquisition is the next one in
its window. -/
structure Counted.Follows (window limit : Nat) (c : Counter) (v : Counted) : Prop where
  start_le : v.start ≤ v.now
  now_lt : v.now < v.start + window
  later : ∀ s ∈ c.start?, v.start = s ∨ s + window ≤ v.start
  count_eq : v.grant.count = min (c.seenIn v.start + 1) Bucket.maxCount
  allowed_eq : v.grant.allowed = decide (v.grant.count ≤ limit)

theorem Counter.follows {window : Nat} (hwindow : 0 < window) (limit : Nat) {c : Counter}
    {now : Nat} (hnow : ∀ s ∈ c.start?, s ≤ now) :
    Counted.Follows window limit c ⟨now, (c.next window now).1,
      answer window limit now (c.next window now).1 (c.next window now).2⟩ := by
  cases c with
  | idle => exact ⟨Nat.le_refl now, Nat.lt_add_of_pos_right hwindow, nofun, rfl, rfl⟩
  | counting s count =>
    have hs : s ≤ now := hnow s rfl
    by_cases hover : window ≤ now - s
    · have hnext : (counting s count).next window now = (now, 1) := if_pos hover
      have hne : s ≠ now := by omega
      have hcount : 1 = min ((counting s count).seenIn now + 1) Bucket.maxCount := by
        rw [seenIn, if_neg hne]
        rfl
      rw [hnext]
      refine ⟨Nat.le_refl now, Nat.lt_add_of_pos_right hwindow, fun s' hs' => .inr ?_, hcount, rfl⟩
      obtain rfl : s = s' := Option.some.inj hs'
      change s + window ≤ now
      omega
    · have hnext : (counting s count).next window now = (s, min (count + 1) Bucket.maxCount) :=
        if_neg hover
      have hcount : min (count + 1) Bucket.maxCount =
          min ((counting s count).seenIn s + 1) Bucket.maxCount := by
        rw [seenIn, if_pos rfl]
      have hlt : now < s + window := by omega
      rw [hnext]
      exact ⟨hs, hlt, fun s' hs' => .inl (Option.some.inj hs'), hcount, rfl⟩

/-- Acquisitions with one limit as a counter counts them, one after another. -/
inductive Tally (window limit : Nat) : Counter → List Counted → Prop where
  | nil {c : Counter} : Tally window limit c []
  | cons {c : Counter} {v : Counted} {vs : List Counted} (hv : v.Follows window limit c)
      (hvs : Tally window limit (.counting v.start v.grant.count) vs) : Tally window limit c (v :: vs)

theorem Counter.tally_counts {window : Nat} (hwindow : 0 < window) (limit : Nat) {nows : List Nat}
    (hnows : nows.Pairwise (· ≤ ·)) {c : Counter} (hc : ∀ s ∈ c.start?, ∀ n ∈ nows, s ≤ n) :
    Tally window limit c (c.counts window (nows.map (.acquire limit))) := by
  induction nows generalizing c with
  | nil => exact .nil
  | cons now rest ih =>
    obtain ⟨hfirst, hrest⟩ := List.pairwise_cons.1 hnows
    have hv := c.follows hwindow limit fun s hs => hc s hs now List.mem_cons_self
    refine .cons hv (ih hrest fun s hs n hn => ?_)
    obtain rfl : (c.next window now).1 = s := Option.some.inj hs
    exact Nat.le_trans hv.start_le (hfirst n hn)

namespace Tally

variable {window limit : Nat} {c : Counter} {vs : List Counted}

theorem later (h : Tally window limit c vs) :
    ∀ v ∈ vs, ∀ s ∈ c.start?, v.start = s ∨ s + window ≤ v.start := by
  induction h with
  | nil => nofun
  | @cons c v vs hv _ ih =>
    intro w hw s hs
    rcases List.mem_cons.1 hw with rfl | hw
    · exact hv.later s hs
    · have hfirst := hv.later s hs
      have hrest := ih w hw v.start rfl
      omega

theorem within (h : Tally window limit c vs) :
    ∀ v ∈ vs, v.start ≤ v.now ∧ v.now < v.start + window := by
  induction h with
  | nil => nofun
  | cons hv _ ih => exact List.forall_mem_cons.2 ⟨⟨hv.start_le, hv.now_lt⟩, ih⟩

/-- Windows begin at least a window length apart. -/
theorem apart (h : Tally window limit c vs) :
    ∀ v ∈ vs, ∀ w ∈ vs,
      v.start = w.start ∨ v.start + window ≤ w.start ∨ w.start + window ≤ v.start := by
  induction h with
  | nil => nofun
  | @cons c v vs _ hvs ih =>
    have hfirst : ∀ w ∈ vs, w.start = v.start ∨ v.start + window ≤ w.start :=
      fun w hw => hvs.later w hw v.start rfl
    intro w hw u hu
    rcases List.mem_cons.1 hw with rfl | hw₁ <;> rcases List.mem_cons.1 hu with rfl | hu₁
    · exact .inl rfl
    · exact (hfirst u hu₁).imp Eq.symm .inl
    · exact (hfirst w hw₁).imp_right .inr
    · exact ih w hw₁ u hu₁

/-- Once a later window has begun, nothing is counted in an earlier one. -/
theorem filter_start_eq_nil (h : Tally window limit c vs) {start : Nat}
    (hc : ∃ s ∈ c.start?, start < s) : vs.filter (·.start = start) = [] := by
  obtain ⟨s, hs, hlt⟩ := hc
  refine List.filter_eq_nil_iff.2 fun v hv heq => ?_
  have hstart : v.start = start := of_decide_eq_true heq
  have hlater := h.later v hv s hs
  omega

/-- Of the acquisitions of one window as many are allowed as the limit has room for. -/
theorem countP_allowed (hlimit : limit < Bucket.maxCount) (h : Tally window limit c vs)
    (start : Nat) :
    min limit (c.seenIn start) + (vs.filter (·.start = start)).countP (·.grant.allowed) =
      min limit (c.seenIn start + (vs.filter (·.start = start)).length) := by
  induction h with
  | nil => rfl
  | @cons c v vs hv hvs ih =>
    by_cases hstart : v.start = start
    · subst hstart
      have hseen : (Counter.counting v.start v.grant.count).seenIn v.start = v.grant.count :=
        if_pos rfl
      rw [hseen] at ih
      rw [List.filter_cons_of_pos (by simp), List.countP_cons, List.length_cons, hv.allowed_eq]
      have hcount := hv.count_eq
      simp only [decide_eq_true_eq]
      split <;> omega
    · have hseen : (Counter.counting v.start v.grant.count).seenIn start = 0 := if_neg hstart
      rw [hseen] at ih
      rw [List.filter_cons_of_neg (by simpa using hstart)]
      -- the window has ended if the counter was in it, and has not begun otherwise
      cases c with
      | idle => exact ih
      | counting s count =>
        by_cases hs : s = start
        · have hlater := hv.later s rfl
          rw [hvs.filter_start_eq_nil ⟨v.start, rfl, by omega⟩]
          rfl
        · rw [Counter.seenIn, if_neg hs]
          exact ih

theorem countP_allowed_le_of_start_eq (hlimit : limit < Bucket.maxCount)
    (h : Tally window limit .idle vs) {p : Counted → Bool} {start : Nat}
    (hp : ∀ v ∈ vs, p v → v.start = start) :
    (vs.filter p).countP (·.grant.allowed) ≤ limit := by
  have hwindow := h.countP_allowed hlimit start
  rw [show Counter.idle.seenIn start = 0 from rfl] at hwindow
  calc (vs.filter p).countP (·.grant.allowed)
      ≤ (vs.filter (·.start = start)).countP (·.grant.allowed) := by
        rw [List.countP_filter, List.countP_filter]
        refine List.countP_mono_left fun v hv => ?_
        simp only [Bool.and_eq_true, decide_eq_true_eq]
        exact And.imp_right (hp v hv)
    _ ≤ limit := by omega

/-- Of acquisitions that all fall into one window at most as many are allowed as the limit says. -/
theorem countP_allowed_le (hlimit : limit < Bucket.maxCount) (h : Tally window limit .idle vs)
    {p : Counted → Bool} (hp : ∀ v ∈ vs, ∀ w ∈ vs, p v → p w → v.start = w.start) :
    (vs.filter p).countP (·.grant.allowed) ≤ limit := by
  by_cases hsome : ∃ w ∈ vs, p w
  · obtain ⟨w, hw, hpw⟩ := hsome
    exact h.countP_allowed_le_of_start_eq hlimit fun v hv hpv => hp v hv w hw hpv hpw
  · have hnone : vs.filter p = [] := List.filter_eq_nil_iff.2 fun v hv hpv => hsome ⟨v, hv, hpv⟩
    rw [hnone]
    exact Nat.zero_le limit

/-- An interval of one window length meets two windows at most: one that began before the interval,
and one that begins in it. -/
theorem countP_allowed_interval_le (hlimit : limit < Bucket.maxCount)
    (h : Tally window limit .idle vs) (t : Nat) :
    (vs.filter fun v => t ≤ v.now ∧ v.now < t + window).countP (·.grant.allowed) ≤ 2 * limit := by
  have hsame : ∀ v ∈ vs, ∀ w ∈ vs, (t ≤ v.now ∧ v.now < t + window) →
      (t ≤ w.now ∧ w.now < t + window) → (v.start < t ↔ w.start < t) → v.start = w.start := by
    intro v hv w hw hvin hwin hside
    have hv' := h.within v hv
    have hw' := h.within w hw
    have hapart := h.apart v hv w hw
    omega
  rw [List.countP_eq_countP_filter_add _ _ fun v => decide (v.start < t), List.filter_filter,
    List.filter_filter, Nat.two_mul]
  refine Nat.add_le_add (h.countP_allowed_le hlimit fun v hv w hw hpv hpw => ?_)
    (h.countP_allowed_le hlimit fun v hv w hw hpv hpw => ?_)
  · simp only [Bool.and_eq_true, decide_eq_true_eq] at hpv hpw
    exact hsame v hv w hw hpv.2 hpw.2 (iff_of_true hpv.1 hpw.1)
  · simp only [Bool.and_eq_true, Bool.not_eq_true', decide_eq_false_iff_not, decide_eq_true_eq]
      at hpv hpw
    exact hsame v hv w hw hpv.2 hpw.2 (iff_of_false hpv.1 hpw.1)

end Tally

/-- In a run in which the acquisitions of a pair have one limit below the largest count and the key
is not reset, as many acquisitions of each window of the pair are allowed as the limit has room for,
and at most twice the limit of those in any interval of one window length. -/
theorem allowed_bounded {key : String} {window limit : Nat} (hlimit : limit < Bucket.maxCount)
    (hwindow : 0 < window) {rs : List Request} (h : Chronological rs)
    (hlimits : ∀ l now, .acquire key l window now ∈ rs → l = limit) (hreset : .reset key ∉ rs) :
    let counted := countedOn key window empty rs
    counted.map (·.grant) = grantsOn key window (empty.log rs) ∧
    (∀ start, (counted.filter (·.start = start)).countP (·.grant.allowed) =
      min limit (counted.filter (·.start = start)).length) ∧
    ∀ t, (counted.filter fun c => t ≤ c.now ∧ c.now < t + window).countP (·.grant.allowed) ≤
      2 * limit := by
  intro counted
  have hcounted : counted = Counter.idle.counts window
      ((acquiredAt key window rs).map (.acquire limit)) := by
    rw [← feed_eq_map hlimits hreset]
    exact countedOn_eq_counts h key window
  have htally : Tally window limit .idle counted := by
    rw [hcounted]
    exact Counter.tally_counts hwindow limit (pairwise_acquiredAt h key window) nofun
  refine ⟨grants_countedOn key window empty rs, fun start => ?_,
    htally.countP_allowed_interval_le hlimit⟩
  have hwindows := htally.countP_allowed hlimit start
  rwa [show Counter.idle.seenIn start = 0 from rfl, Nat.min_zero, Nat.zero_add,
    Nat.zero_add] at hwindows

/-- An interval that lies across two windows, of which the first is forgotten before the second
begins; other keys and another window length of the same key do not count. -/
theorem allowed_bounded_across_windows :
    let rs : List Request := [.acquire "a" 2 10 0, .acquire "a" 2 10 9, .acquire "a" 7 3 9,
      .acquire "a" 2 10 9, .reset "b", .cleanup 10, .acquire "a" 2 10 10, .acquire "b" 1 10 11,
      .acquire "a" 2 10 12, .acquire "a" 2 10 18]
    let counted := countedOn "a" 10 empty rs
    let within := counted.filter fun c => 9 ≤ c.now ∧ c.now < 9 + 10
    counted.map (·.start) = [0, 0, 0, 10, 10, 10] ∧
    (counted.filter (·.start = 10)).countP (·.grant.allowed) = 2 ∧
    within.countP (·.grant.allowed) ≤ 2 * 2 ∧ within.map (·.grant.allowed) =
      [true, false, true, true, false] := by
  intro rs counted within
  have hlimits : ∀ l now, .acquire "a" l 10 now ∈ rs → l = 2 := by
    intro l now hmem
    simp [rs] at hmem
    omega
  obtain ⟨-, hwindow, hinterval⟩ :=
    allowed_bounded (by decide) (by decide) (show Chronological rs by decide) hlimits (by decide)
  exact ⟨by decide +kernel, (hwindow 10).trans (by decide +kernel), hinterval 9, by decide +kernel⟩

end IntentGate.Throttle
