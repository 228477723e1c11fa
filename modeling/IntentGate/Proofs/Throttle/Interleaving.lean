import IntentGate.Proofs.Throttle.Run
import Mathlib.Data.List.Perm.Basic

/-!
# Callers side by side

Many callers may use a throttle at once. A call is not one step: an acquisition takes its number,
sweeps if one is due, and is counted, and between these steps other callers may take theirs. The
callers bring readings of the clock that they took before, so readings come in any order. A schedule
says whose turn it is; a call that is let run alone is served as in a run (`Shared.ends_serve`).

`counts_in_turn` says that no acquisition of a key and window length is lost as long as all readings
lie within less than one window length of each other: then the bucket of the pair is neither swept
nor begun again (`Holds`), whatever the schedule and whatever the other calls are.
-/

namespace IntentGate.Throttle

/-- A caller with what is left to do of its call. -/
inductive Caller where
  /-- Nothing has been done. -/
  | arrived (r : Request)
  /-- An acquisition has its number, and a sweep is due. -/
  | sweeping (key : String) (limit window now : Nat)
  /-- An acquisition is counted next. -/
  | counting (key : String) (limit window now : Nat)
  | answered (r : Request) (reply : Reply)
deriving DecidableEq, Repr

/-- Takes a number. -/
def numbered (t : Throttle) : Throttle :=
  { t with acquisitions := t.acquisitions + 1 }

/-- Counts an acquisition on the bucket that is there. -/
def count (t : Throttle) (key : String) (limit window now : Nat) : Grant × Throttle :=
  let b := ((t.bucket? key window).getD ⟨0, now⟩).acquire window now
  (grant b limit window now, { t with buckets := t.buckets.put (key, window) b })

theorem grant_count (b : Bucket) (limit window now : Nat) :
    (grant b limit window now).count = b.count := by
  unfold grant
  split <;> rfl

theorem grant_allowed_iff (b : Bucket) (limit window now : Nat) :
    (grant b limit window now).allowed = true ↔ (grant b limit window now).count ≤ limit := by
  rw [grant_count]
  by_cases h : b.count ≤ limit <;> simp [grant, h]

namespace Caller

/-- What a caller has been answered. -/
def entry? : Caller → Option (Request × Reply)
  | answered r reply => some (r, reply)
  | _ => none

/-- The request of a caller. -/
def request : Caller → Request
  | arrived r => r
  | sweeping key limit window now => .acquire key limit window now
  | counting key limit window now => .acquire key limit window now
  | answered r _ => r

/-- The next step of a caller, which has the numbers or the buckets to itself for it. -/
def step? (t : Throttle) : Caller → Option (Caller × Throttle)
  | arrived (.acquire key limit window now) =>
    let t := t.numbered
    if t.acquisitions % sweepInterval = 0 then some (sweeping key limit window now, t)
    else some (counting key limit window now, t)
  | arrived (.reset key) => some (answered (.reset key) .done, t.reset key)
  | arrived (.cleanup now) =>
    some (answered (.cleanup now) (.dropped (t.cleanup now).1), (t.cleanup now).2)
  | sweeping key limit window now => some (counting key limit window now, t.sweep now)
  | counting key limit window now =>
    let counted := t.count key limit window now
    some (answered (.acquire key limit window now) (.granted counted.1), counted.2)
  | answered _ _ => none

/-- How many steps a caller has left at most. -/
def left : Caller → Nat
  | arrived _ => 3
  | sweeping .. => 2
  | counting .. => 1
  | answered .. => 0

/-- What the next step of a caller can be. -/
inductive Step (t : Throttle) : Caller → Caller → Throttle → Prop where
  | number {key : String} {limit window now : Nat} :
      Step t (arrived (.acquire key limit window now)) (counting key limit window now) t.numbered
  | numberDue {key : String} {limit window now : Nat} :
      Step t (arrived (.acquire key limit window now)) (sweeping key limit window now) t.numbered
  | sweep {key : String} {limit window now : Nat} :
      Step t (sweeping key limit window now) (counting key limit window now) (t.sweep now)
  | count {key : String} {limit window now : Nat} :
      Step t (counting key limit window now)
        (answered (.acquire key limit window now) (.granted (t.count key limit window now).1))
        (t.count key limit window now).2
  | reset {key : String} :
      Step t (arrived (.reset key)) (answered (.reset key) .done) (t.reset key)
  | cleanup {now : Nat} :
      Step t (arrived (.cleanup now)) (answered (.cleanup now) (.dropped (t.cleanup now).1))
        (t.sweep now)

theorem step_of_step? {t t' : Throttle} {c next : Caller} (h : c.step? t = some (next, t')) :
    Step t c next t' := by
  cases c with
  | arrived r =>
    cases r with
    | acquire key limit window now =>
      by_cases hdue : t.numbered.acquisitions % sweepInterval = 0
      · obtain ⟨rfl, rfl⟩ := Prod.mk.inj (Option.some.inj ((if_pos hdue).symm.trans h))
        exact .numberDue
      · obtain ⟨rfl, rfl⟩ := Prod.mk.inj (Option.some.inj ((if_neg hdue).symm.trans h))
        exact .number
    | reset key =>
      obtain ⟨rfl, rfl⟩ := Prod.mk.inj (Option.some.inj h)
      exact .reset
    | cleanup now =>
      obtain ⟨rfl, rfl⟩ := Prod.mk.inj (Option.some.inj h)
      exact .cleanup
  | sweeping key limit window now =>
    obtain ⟨rfl, rfl⟩ := Prod.mk.inj (Option.some.inj h)
    exact .sweep
  | counting key limit window now =>
    obtain ⟨rfl, rfl⟩ := Prod.mk.inj (Option.some.inj h)
    exact .count
  | answered r reply => cases h

namespace Step

variable {t t' : Throttle} {c next : Caller}

theorem request_eq (h : Step t c next t') : next.request = c.request := by
  cases h <;> rfl

/-- A step brings a call nearer to its end. -/
theorem left_lt (h : Step t c next t') : next.left < c.left := by
  cases h <;> simp [left]

theorem entry?_eq_none (h : Step t c next t') : c.entry? = none := by
  cases h <;> rfl

/-- An acquisition is allowed up to its own limit. -/
theorem allowed_iff {key : String} {limit window now : Nat} {g : Grant}
    (h : Step t c (answered (.acquire key limit window now) (.granted g)) t') :
    g.allowed = true ↔ g.count ≤ limit := by
  cases h
  exact grant_allowed_iff ..

end Step

theorem eq_answered {c : Caller} (h : c.left = 0) : ∃ r reply, c = answered r reply := by
  cases c with
  | answered r reply => exact ⟨r, reply, rfl⟩
  | arrived r => cases h
  | sweeping key limit window now => cases h
  | counting key limit window now => cases h

/-- A caller without a next step has been answered. -/
theorem left_eq_zero {t : Throttle} {c : Caller} (h : c.step? t = none) : c.left = 0 := by
  cases c with
  | arrived r =>
    cases r with
    | acquire key limit window now =>
      simp only [step?] at h
      split at h <;> cases h
    | reset key => cases h
    | cleanup now => cases h
  | sweeping key limit window now => cases h
  | counting key limit window now => cases h
  | answered r reply => rfl

end Caller

/-- A throttle and its callers. -/
structure Shared where
  throttle : Throttle
  callers : List Caller

namespace Shared

/-- Requests that have arrived at a throttle. -/
def ofRequests (t : Throttle) (rs : List Request) : Shared :=
  ⟨t, rs.map .arrived⟩

/-- The turn of the caller at a place, with what it is answered if its call ends; one that has been
answered does nothing. -/
def turn (s : Shared) (place : Nat) : Option (Request × Reply) × Shared :=
  match s.callers[place]?.bind (Caller.step? s.throttle) with
  | none => (none, s)
  | some (next, t) => (next.entry?, ⟨t, s.callers.set place next⟩)

/-- The requests whose calls end in a schedule with what they are answered, in the order of the
turns. -/
def log (s : Shared) : List Nat → List (Request × Reply)
  | [] => []
  | place :: rest => (s.turn place).1.toList ++ (s.turn place).2.log rest

/-- What a schedule leaves. -/
def after (s : Shared) (schedule : List Nat) : Shared :=
  schedule.foldl (fun s place => (s.turn place).2) s

section Turn

variable {s : Shared} {place : Nat} {c next : Caller} {t : Throttle}

theorem turn_of_step (hc : s.callers[place]? = some c)
    (hstep : c.step? s.throttle = some (next, t)) :
    s.turn place = (next.entry?, ⟨t, s.callers.set place next⟩) := by
  rw [turn, hc, Option.bind_some, hstep]

theorem turn_of_stuck (h : ∀ c, s.callers[place]? = some c → c.step? s.throttle = none) :
    s.turn place = (none, s) := by
  rw [turn, Option.bind_eq_none_iff.2 h]

/-- A turn does nothing or is a step of the caller whose turn it is. -/
theorem turn_cases (s : Shared) (place : Nat) :
    s.turn place = (none, s) ∧ (∀ c, s.callers[place]? = some c → c.step? s.throttle = none) ∨
    ∃ c next t, s.callers[place]? = some c ∧ c.Step s.throttle next t ∧
      s.turn place = (next.entry?, ⟨t, s.callers.set place next⟩) := by
  by_cases h : ∀ c, s.callers[place]? = some c → c.step? s.throttle = none
  · exact .inl ⟨turn_of_stuck h, h⟩
  · simp only [not_forall, ← ne_eq, Option.ne_none_iff_exists'] at h
    obtain ⟨c, hc, ⟨next, t⟩, hstep⟩ := h
    exact .inr ⟨c, next, t, hc, Caller.step_of_step? hstep, turn_of_step hc hstep⟩

end Turn

end Shared

/-! ## A caller alone -/

theorem acquire_eq_count (t : Throttle) (key : String) (limit window now : Nat) :
    t.acquire key limit window now =
      (if t.numbered.acquisitions % sweepInterval = 0 then t.numbered.sweep now
        else t.numbered).count key limit window now := by
  by_cases hdue : (t.acquisitions + 1) % sweepInterval = 0
  · have hdue' : t.numbered.acquisitions % sweepInterval = 0 := hdue
    simp only [acquire, if_pos hdue, if_pos hdue']
    rfl
  · have hdue' : ¬t.numbered.acquisitions % sweepInterval = 0 := hdue
    simp only [acquire, if_neg hdue, if_neg hdue']
    rfl

namespace Shared

/-- Turns of one caller after another answer its call with `reply` and leave the throttle `t`. -/
def Ends (s : Shared) (place turns : Nat) (r : Request) (reply : Reply) (t : Throttle) : Prop :=
  s.log (List.replicate turns place) = [(r, reply)] ∧
    s.after (List.replicate turns place) = ⟨t, s.callers.set place (.answered r reply)⟩

variable {s : Shared} {place turns : Nat} {c next : Caller} {r : Request} {reply : Reply}
  {t last : Throttle}

theorem callers_set_self (hc : s.callers[place]? = some c) (next : Caller) :
    (s.callers.set place next)[place]? = some next :=
  List.getElem?_set_self (List.getElem?_eq_some_iff.1 hc).1

theorem turns_of_answered (h : s.callers[place]? = some (.answered r reply)) (turns : Nat) :
    s.log (List.replicate turns place) = [] ∧ s.after (List.replicate turns place) = s := by
  have hturn : s.turn place = (none, s) := turn_of_stuck fun c hc => by
    rw [h] at hc
    obtain rfl := Option.some.inj hc
    rfl
  induction turns with
  | zero => exact ⟨rfl, rfl⟩
  | succ turns ih =>
    rw [List.replicate_succ, log, after, List.foldl_cons, hturn]
    exact ih

theorem ends_of_step (hc : s.callers[place]? = some c)
    (hstep : c.step? s.throttle = some (.answered r reply, t)) (turns : Nat) :
    s.Ends place (turns + 1) r reply t := by
  have hset : (s.callers.set place (.answered r reply))[place]? = some (.answered r reply) :=
    callers_set_self hc _
  have hrest := turns_of_answered (s := ⟨t, s.callers.set place (.answered r reply)⟩) hset turns
  rw [Ends, List.replicate_succ, log, after, List.foldl_cons, turn_of_step hc hstep, hrest.1]
  exact ⟨rfl, hrest.2⟩

theorem Ends.of_step (hc : s.callers[place]? = some c)
    (hstep : c.step? s.throttle = some (next, t)) (hnext : next.entry? = none)
    (h : Ends ⟨t, s.callers.set place next⟩ place turns r reply last) :
    s.Ends place (turns + 1) r reply last := by
  rw [Ends, List.replicate_succ, log, after, List.foldl_cons, turn_of_step hc hstep, hnext, h.1]
  refine ⟨rfl, h.2.trans ?_⟩
  rw [List.set_set]

/-- A call that is let run without an interruption is served as in a run. -/
theorem ends_serve (h : s.callers[place]? = some (.arrived r)) :
    s.Ends place 3 r (s.throttle.serve r).1 (s.throttle.serve r).2 := by
  cases r with
  | acquire key limit window now =>
    rw [serve, acquire_eq_count]
    by_cases hdue : s.throttle.numbered.acquisitions % sweepInterval = 0
    · have hsweeping := callers_set_self h (.sweeping key limit window now)
      rw [if_pos hdue]
      refine .of_step h (if_pos hdue) rfl (.of_step hsweeping rfl rfl ?_)
      exact ends_of_step (callers_set_self hsweeping _) rfl 0
    · rw [if_neg hdue]
      exact .of_step h (if_neg hdue) rfl (ends_of_step (callers_set_self h _) rfl 1)
  | reset key => exact ends_of_step h rfl 2
  | cleanup now => exact ends_of_step h rfl 2

end Shared

/-! ## The bucket of a pair -/

/-- The bucket of a pair has counted `n` acquisitions since one of some readings; before the first
of them there is none. -/
def Holds (nows : List Nat) (n : Nat) : Option Bucket → Prop
  | none => n = 0
  | some b => b.count = n ∧ b.start ∈ nows

section Pair

variable {key : String} {window n now : Nat} {nows : List Nat} {b : Option Bucket}
  (hclose : ∀ m ∈ nows, ∀ n ∈ nows, m < n + window)

include hclose

/-- A reading that is close to the start of the window does not sweep it. -/
theorem Holds.sweep (h : Holds nows n b) (hnow : now ∈ nows) :
    Holds nows n (b.filter fun b => b.elapsed now < window) := by
  cases b with
  | none => exact h
  | some b =>
    have hlive : b.elapsed now < window := by
      have := hclose now hnow b.start h.2
      have := hclose now hnow now hnow
      rw [Bucket.elapsed]
      omega
    rw [Option.filter_some_pos (by simpa using hlive)]
    exact h

/-- Nor does it begin the next window. -/
theorem Holds.acquire (h : Holds nows n b) (hnow : now ∈ nows) (hn : n + 1 ≤ Bucket.maxCount) :
    Holds nows (n + 1) (some ((b.getD ⟨0, now⟩).acquire window now)) := by
  have hself := hclose now hnow now hnow
  cases b with
  | none =>
    obtain rfl : n = 0 := h
    have hlive : ¬window ≤ now - now := by omega
    rw [Option.getD_none, Bucket.acquire, Bucket.elapsed, if_neg hlive]
    exact ⟨Nat.min_eq_left hn, hnow⟩
  | some b =>
    obtain ⟨rfl, hstart⟩ := h
    have hlive : ¬window ≤ b.elapsed now := by
      have := hclose now hnow b.start hstart
      rw [Bucket.elapsed]
      omega
    rw [Option.getD_some, Bucket.acquire, if_neg hlive]
    exact ⟨Nat.min_eq_left hn, hstart⟩

omit hclose in
theorem bucket?_count (t : Throttle) (k key : String) (limit w window now : Nat) :
    (t.count k limit w now).2.bucket? key window =
      if key = k ∧ window = w then some (((t.bucket? k w).getD ⟨0, now⟩).acquire w now)
      else t.bucket? key window := by
  change (t.buckets.put (k, w) _).find? (key, window) = _
  rw [Table.find?_put]
  simp only [Prod.mk.injEq, bucket?]

/-- A step of a caller counts one acquisition of the pair, or it leaves the pair's bucket. -/
theorem Holds.step {c next : Caller} {t t' : Throttle}
    (h : Holds nows n (t.bucket? key window)) (hstep : c.Step t next t')
    (hread : ∀ m ∈ c.request.reading?, m ∈ nows) (hreset : c.request ≠ .reset key) :
    next.entry?.bind (grantOn? key window) = none ∧ Holds nows n (t'.bucket? key window) ∨
    ∃ g, next.entry?.bind (grantOn? key window) = some g ∧
      (n + 1 ≤ Bucket.maxCount → g.count = n + 1 ∧ Holds nows (n + 1) (t'.bucket? key window)) := by
  cases hstep with
  | number => exact .inl ⟨rfl, h⟩
  | numberDue => exact .inl ⟨rfl, h⟩
  | @sweep _ _ _ at_ =>
    rw [bucket?_sweep]
    exact .inl ⟨rfl, h.sweep hclose (hread at_ rfl)⟩
  | @count k limit w at_ =>
    by_cases hpair : k = key ∧ w = window
    · obtain ⟨rfl, rfl⟩ := hpair
      refine .inr ⟨_, if_pos ⟨rfl, rfl⟩, fun hn => ?_⟩
      have hcounted := h.acquire hclose (hread at_ rfl) hn
      rw [bucket?_count, if_pos ⟨rfl, rfl⟩]
      exact ⟨(grant_count ..).trans hcounted.1, hcounted⟩
    · rw [bucket?_count, if_neg fun h => hpair ⟨h.1.symm, h.2.symm⟩]
      exact .inl ⟨if_neg hpair, h⟩
  | @reset k =>
    have hkey : key ≠ k := fun hkey => hreset (hkey ▸ rfl)
    rw [bucket?_reset, if_neg hkey]
    exact .inl ⟨rfl, h⟩
  | @cleanup at_ =>
    rw [bucket?_sweep]
    exact .inl ⟨rfl, h.sweep hclose (hread at_ rfl)⟩

/-- In a schedule the acquisitions of the pair are numbered on from those that its bucket has
counted. -/
theorem Holds.counts_log {schedule : List Nat} :
    ∀ {s : Shared} {n : Nat}, Holds nows n (s.throttle.bucket? key window) →
      (∀ c ∈ s.callers, (∀ m ∈ c.request.reading?, m ∈ nows) ∧ c.request ≠ .reset key) →
      n + (grantsOn key window (s.log schedule)).length ≤ Bucket.maxCount →
      (grantsOn key window (s.log schedule)).map (·.count) =
        List.range' (n + 1) (grantsOn key window (s.log schedule)).length := by
  induction schedule with
  | nil => intros; rfl
  | cons place rest ih =>
    intro s n h hcallers hlength
    have hgrants (e : Option (Request × Reply)) (s' : Shared) :
        grantsOn key window (e.toList ++ s'.log rest) =
          (e.bind (grantOn? key window)).toList ++ grantsOn key window (s'.log rest) := by
      cases e with
      | none => rfl
      | some e => exact grantsOn_cons key window e _
    rw [Shared.log, hgrants] at hlength ⊢
    obtain ⟨hturn, -⟩ | ⟨c, next, t, hc, hstep, hturn⟩ := s.turn_cases place
    · rw [hturn] at hlength ⊢
      exact ih h hcallers hlength
    · have hmem := List.mem_of_getElem? hc
      have hcallers' : ∀ c' ∈ s.callers.set place next,
          (∀ m ∈ c'.request.reading?, m ∈ nows) ∧ c'.request ≠ .reset key := by
        intro c' hc'
        rcases List.mem_or_eq_of_mem_set hc' with hc' | rfl
        · exact hcallers c' hc'
        · rw [hstep.request_eq]
          exact hcallers c hmem
      rw [hturn] at hlength ⊢
      obtain ⟨hnone, hholds⟩ | ⟨g, hg, hcounted⟩ :=
        h.step hclose hstep (hcallers c hmem).1 (hcallers c hmem).2
      · rw [hnone] at hlength ⊢
        exact ih hholds hcallers' hlength
      · rw [hg] at hlength ⊢
        simp only [Option.toList_some, List.singleton_append, List.length_cons] at hlength ⊢
        obtain ⟨hcount, hholds⟩ := hcounted (by omega)
        rw [List.map_cons, List.range'_succ, hcount, ih hholds hcallers' (by omega)]

end Pair

/-! ## The answers -/

theorem Shared.exists_step_of_mem_log {schedule : List Nat} {e : Request × Reply} :
    ∀ {s : Shared}, e ∈ s.log schedule →
      ∃ (c : Caller) (t t' : Throttle), c.Step t (.answered e.1 e.2) t' := by
  induction schedule with
  | nil => nofun
  | cons place rest ih =>
    intro s he
    rcases List.mem_append.1 he with he | he
    · obtain ⟨hturn, -⟩ | ⟨c, next, t, -, hstep, hturn⟩ := s.turn_cases place
      · rw [hturn] at he
        cases he
      · rw [hturn] at he
        have hnext : next.entry? = some e := Option.mem_toList.1 he
        cases next with
        | answered r reply =>
          obtain rfl := Option.some.inj hnext
          exact ⟨c, s.throttle, t, hstep⟩
        | arrived r => cases hnext
        | sweeping key limit window now => cases hnext
        | counting key limit window now => cases hnext
    · exact ih he

/-- What a schedule answers is what its callers have been answered. -/
theorem Shared.log_perm (schedule : List Nat) (s : Shared) :
    (s.log schedule ++ s.callers.filterMap Caller.entry?).Perm
      ((s.after schedule).callers.filterMap Caller.entry?) := by
  induction schedule generalizing s with
  | nil => exact .refl _
  | cons place rest ih =>
    rw [log, after, List.foldl_cons]
    obtain ⟨hturn, -⟩ | ⟨c, next, t, hc, hstep, hturn⟩ := s.turn_cases place
    · rw [hturn]
      exact ih s
    · rw [hturn, List.append_assoc]
      refine .trans ?_ (ih ⟨t, s.callers.set place next⟩)
      -- the caller that was stepped had no answer, so its place has gained one if there is one
      obtain ⟨hplace, rfl⟩ := List.getElem?_eq_some_iff.1 hc
      obtain ⟨before, behind, hcallers, -, hset⟩ : ∃ before behind,
          s.callers = before ++ s.callers[place] :: behind ∧ before.length = place ∧
            s.callers.set place next = before ++ next :: behind :=
        List.exists_of_set hplace
      rw [hset, hcallers]
      simp only [List.filterMap_append, List.filterMap_cons_none hstep.entry?_eq_none]
      cases hnext : next.entry? with
      | none =>
        rw [List.filterMap_cons_none hnext]
        exact .refl _
      | some e =>
        rw [List.filterMap_cons_some hnext, ← List.append_assoc, ← List.append_assoc,
          ← List.append_assoc]
        exact List.perm_middle.symm

/-- Turns bring a call to its end. -/
theorem Shared.left_after (schedule : List Nat) {s : Shared} {place : Nat} {c : Caller}
    (h : s.callers[place]? = some c) :
    ∃ c', (s.after schedule).callers[place]? = some c' ∧ c'.request = c.request ∧
      c'.left ≤ c.left - schedule.count place := by
  induction schedule generalizing s c with
  | nil => exact ⟨c, h, rfl, Nat.le_refl _⟩
  | cons first rest ih =>
    rw [after, List.foldl_cons, List.count_cons]
    obtain ⟨hturn, hstuck⟩ | ⟨c₁, next, t, hc₁, hstep, hturn⟩ := s.turn_cases first
    · obtain ⟨c', hc', hrequest, hleft⟩ := ih h
      rw [hturn]
      refine ⟨c', hc', hrequest, ?_⟩
      by_cases hfirst : first = place
      · have hzero := Caller.left_eq_zero (hstuck c (hfirst ▸ h))
        omega
      · simpa [hfirst] using hleft
    · rw [hturn]
      by_cases hfirst : first = place
      · subst hfirst
        obtain rfl := Option.some.inj (hc₁.symm.trans h)
        obtain ⟨c', hc', hrequest, hleft⟩ :=
          ih (s := ⟨t, s.callers.set first next⟩) (callers_set_self h next)
        refine ⟨c', hc', hrequest.trans hstep.request_eq, ?_⟩
        have hlt := hstep.left_lt
        simp only [beq_self_eq_true, if_true]
        omega
      · have hsame : (s.callers.set first next)[place]? = some c := by
          rw [List.getElem?_set_ne hfirst, h]
        obtain ⟨c', hc', hrequest, hleft⟩ := ih (s := ⟨t, s.callers.set first next⟩) hsame
        exact ⟨c', hc', hrequest, by simpa [hfirst] using hleft⟩

/-- However the calls are interleaved, and in whatever order their readings come, as long as these
lie within less than a window length of each other: the acquisitions of a pair without a bucket are
numbered from one in the order of the turns that count them, and each is allowed if its number is
within its own limit. What is answered is what the callers get, and a call ends by its third turn. -/
theorem counts_in_turn {key : String} {window : Nat} {t : Throttle}
    (hfresh : t.bucket? key window = none) {rs : List Request}
    (hclose : ∀ m ∈ readings rs, ∀ n ∈ readings rs, m < n + window) (hreset : .reset key ∉ rs)
    (schedule : List Nat)
    (hcount : (grantsOn key window ((Shared.ofRequests t rs).log schedule)).length < UInt32.size) :
    let s := Shared.ofRequests t rs
    let entries := s.log schedule
    (grantsOn key window entries).map (·.count) =
      List.range' 1 (grantsOn key window entries).length ∧
    (∀ limit now g, (.acquire key limit window now, .granted g) ∈ entries →
      (g.allowed = true ↔ g.count ≤ limit)) ∧
    entries.Perm ((s.after schedule).callers.filterMap Caller.entry?) ∧
    ∀ place r, rs[place]? = some r → 3 ≤ schedule.count place →
      ∃ reply, (s.after schedule).callers[place]? = some (.answered r reply) := by
  intro s entries
  have hholds : Holds (readings rs) 0 (s.throttle.bucket? key window) := by
    change Holds (readings rs) 0 (t.bucket? key window)
    rw [hfresh]
    rfl
  have hcallers : ∀ c ∈ s.callers,
      (∀ m ∈ c.request.reading?, m ∈ readings rs) ∧ c.request ≠ .reset key := by
    intro c hc
    obtain ⟨r, hr, rfl⟩ := List.mem_map.1 hc
    exact ⟨fun m hm => List.mem_filterMap.2 ⟨r, hr, hm⟩, fun heq => hreset (heq ▸ hr)⟩
  refine ⟨?_, fun limit now g hg => ?_, ?_, fun place r hr hturns => ?_⟩
  · exact hholds.counts_log hclose hcallers (by rw [Nat.zero_add]; exact Nat.le_pred_of_lt hcount)
  · obtain ⟨c, _, _, hstep⟩ := Shared.exists_step_of_mem_log hg
    exact hstep.allowed_iff
  · have hnone : s.callers.filterMap Caller.entry? = [] := by
      rw [List.filterMap_eq_nil_iff]
      intro c hc
      obtain ⟨r, -, rfl⟩ := List.mem_map.1 hc
      rfl
    have hperm := Shared.log_perm schedule s
    rwa [hnone, List.append_nil] at hperm
  · have harrived : s.callers[place]? = some (.arrived r) := by
      change (rs.map Caller.arrived)[place]? = _
      rw [List.getElem?_map, hr, Option.map_some]
    obtain ⟨c, hc, hrequest, hleft⟩ := Shared.left_after schedule harrived
    have hzero : c.left = 0 := by
      change c.left ≤ 3 - schedule.count place at hleft
      omega
    obtain ⟨r', reply, rfl⟩ := Caller.eq_answered hzero
    obtain rfl : r' = r := hrequest
    exact ⟨reply, hc⟩

/-- The second acquisition brings the earliest reading, and its number asks for a sweep, which comes
when the first one has been counted and before the last one is. -/
theorem counts_in_turn_across_sweep :
    let rs : List Request := [.acquire "a" 1 10 7, .acquire "a" 3 10 3, .acquire "b" 1 10 12,
      .cleanup 11, .acquire "a" 2 10 5, .reset "b"]
    let s := Shared.ofRequests { acquisitions := 98 } rs
    let schedule := [0, 1, 2, 0, 4, 3, 1, 2, 1, 5, 4, 4]
    (grantsOn "a" 10 (s.log schedule)).map (·.count) = [1, 2, 3] ∧
    (s.log schedule).Perm ((s.after schedule).callers.filterMap Caller.entry?) ∧
    (s.after schedule).callers[4]? =
      some (.answered (.acquire "a" 2 10 5) (.granted ⟨false, 3, 2, some 10⟩)) ∧
    ∃ reply, (s.after schedule).callers[1]? = some (.answered (.acquire "a" 3 10 3) reply) := by
  intro rs s schedule
  have hfresh : s.throttle.bucket? "a" 10 = none := rfl
  have hclose : ∀ m ∈ readings rs, ∀ n ∈ readings rs, m < n + 10 := by decide
  have hreset : .reset "a" ∉ rs := by decide
  obtain ⟨hcounts, -, hperm, hends⟩ :=
    counts_in_turn hfresh hclose hreset schedule (by decide +kernel)
  refine ⟨hcounts.trans (by decide +kernel), hperm, by decide +kernel, hends 1 _ rfl (by decide)⟩

end IntentGate.Throttle
