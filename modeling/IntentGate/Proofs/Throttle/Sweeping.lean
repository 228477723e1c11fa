import IntentGate.Proofs.Table
import IntentGate.Proofs.Throttle.Interleaving
import Mathlib.Data.List.Basic

/-!
# What sweeps leave

A bucket stays until its key is reset or a sweep finds that its window is over. Keys that are not
acquired any more would stay for good, were it not for the sweep before every hundredth acquisition.
`sweeps_bound_buckets` says what sweeps take away and what they leave in the course of a run.

All that a request can leave under a pair is listed once, in `bucket?_of_serve`: a bucket that was
there, and was live if the request sweeps, or the one that the request acquires. So whatever is
stored has been left by the latest sweep, or has been acquired since (`bucket?_of_after`); and since
the latest sweep there are few acquisitions, because their number, as a word of 64 bits, has not
come to a multiple of a hundred again (`acquisitions_of_unswept`). That the numbers start over does
no harm: the one after the largest is zero, which asks for a sweep as well.
-/

namespace IntentGate

theorem Bucket.start_acquire (b : Bucket) (window now : Nat) :
    (b.acquire window now).start = now ∨ (b.acquire window now).start = b.start := by
  unfold Bucket.acquire
  split
  · exact .inl rfl
  · exact .inr rfl

namespace Throttle

/-- The key and window length that a request acquires. -/
def Request.pair? : Request → Option (String × Nat)
  | .acquire key _ window _ => some (key, window)
  | .reset _ => none
  | .cleanup _ => none

/-- The key and window length of each acquisition, in order. -/
def acquiredPairs (rs : List Request) : List (String × Nat) :=
  rs.filterMap Request.pair?

/-- The reading at which a throttle is swept for a request, if it is. -/
def sweptAt? (t : Throttle) : Request → Option Nat
  | .acquire _ _ _ now => if (t.acquisitions + 1) % sweepInterval = 0 then some now else none
  | .reset _ => none
  | .cleanup now => some now

/-- None of some requests sweeps. -/
def Unswept (t : Throttle) : List Request → Prop
  | [] => True
  | r :: rest => t.sweptAt? r = none ∧ (t.serve r).2.Unswept rest

theorem acquiredPairs_cons (r : Request) (rest : List Request) :
    acquiredPairs (r :: rest) = r.pair?.toList ++ acquiredPairs rest := by
  unfold acquiredPairs
  cases h : r.pair? with
  | none => exact List.filterMap_cons_none h
  | some p => exact List.filterMap_cons_some h

theorem reading?_of_sweptAt? {t : Throttle} {r : Request} {now : Nat}
    (h : t.sweptAt? r = some now) : r.reading? = some now := by
  cases r with
  | acquire key limit window at_ =>
    simp only [sweptAt?, Option.ite_none_right_eq_some] at h
    exact h.2
  | reset key => cases h
  | cleanup at_ => exact h

/-! ## One request -/

theorem bucket?_sweep_eq_some_iff {t : Throttle} {now : Nat} {key : String} {window : Nat}
    {b : Bucket} : (t.sweep now).bucket? key window = some b ↔
      t.bucket? key window = some b ∧ b.elapsed now < window := by
  rw [bucket?_sweep, Option.filter_eq_some_iff, decide_eq_true_iff]

/-- What an acquisition finds was there before, and is live if the acquisition sweeps. -/
theorem bucket?_of_prepared {t : Throttle} {now : Nat} {key : String} {window : Nat} {b : Bucket}
    (h : (t.prepared now).bucket? key window = some b) :
    t.bucket? key window = some b ∧
      ((t.acquisitions + 1) % sweepInterval = 0 → b.elapsed now < window) := by
  unfold prepared at h
  split at h
  · obtain ⟨hb, hlive⟩ := bucket?_sweep_eq_some_iff.1 h
    exact ⟨hb, fun _ => hlive⟩
  · next hdue => exact ⟨h, fun hdue' => absurd hdue' hdue⟩

/-- What is left under a pair was there before, and is live if the request sweeps, or it is what the
request acquires. -/
theorem bucket?_of_serve {t : Throttle} {r : Request} {key : String} {window : Nat} {b : Bucket}
    (h : (t.serve r).2.bucket? key window = some b) :
    t.bucket? key window = some b ∧ (∀ now ∈ t.sweptAt? r, b.elapsed now < window) ∨
      ∃ limit now, r = .acquire key limit window now ∧ b = t.acquired key window now := by
  cases r with
  | acquire k limit w now =>
    change (t.acquire k limit w now).2.bucket? key window = some b at h
    rw [bucket?_acquire] at h
    split at h
    · next hpair =>
      obtain ⟨rfl, rfl⟩ := hpair
      exact .inr ⟨limit, now, rfl, (Option.some.inj h).symm⟩
    · obtain ⟨hb, hlive⟩ := bucket?_of_prepared h
      refine .inl ⟨hb, fun at_ hat => ?_⟩
      obtain ⟨hdue, ⟨⟩⟩ := Option.ite_none_right_eq_some.1 hat
      exact hlive hdue
  | reset k =>
    change (t.reset k).bucket? key window = some b at h
    rw [bucket?_reset] at h
    split at h
    · cases h
    · exact .inl ⟨h, nofun⟩
  | cleanup now =>
    obtain ⟨hb, hlive⟩ := bucket?_sweep_eq_some_iff.1 h
    exact .inl ⟨hb, fun _ hnow => Option.some.inj hnow ▸ hlive⟩

/-- The window of an acquisition begins with it, or it is the one of the bucket that was there. -/
theorem start_acquired (t : Throttle) (key : String) (window now : Nat) :
    (t.acquired key window now).start = now ∨
      ∃ b, t.bucket? key window = some b ∧ (t.acquired key window now).start = b.start := by
  unfold acquired
  cases hb : (t.prepared now).bucket? key window with
  | none => exact .inl ((Bucket.start_acquire ⟨0, now⟩ window now).elim id id)
  | some b =>
    exact (Bucket.start_acquire b window now).imp_right fun h => ⟨b, (bucket?_of_prepared hb).1, h⟩

/-- An acquisition that does not sweep is numbered on from the last multiple of the interval. -/
theorem acquisitions_serve_of_unswept {t : Throttle} {r : Request} (h : t.sweptAt? r = none) :
    t.acquisitions.toNat % 100 + r.pair?.toList.length =
      (t.serve r).2.acquisitions.toNat % 100 := by
  cases r with
  | acquire key limit window now =>
    have hdue : ¬(t.acquisitions + 1) % sweepInterval = 0 := by
      intro hdue
      rw [sweptAt?, if_pos hdue] at h
      cases h
    rw [← UInt64.toNat_inj, UInt64.toNat_mod] at hdue
    change ¬(t.acquisitions + 1).toNat % 100 = 0 at hdue
    change _ + 1 = (t.acquisitions + 1).toNat % 100
    rw [UInt64.toNat_add, UInt64.toNat_one] at hdue ⊢
    -- the number after the largest is zero, which asks for a sweep
    obtain hlast | hlt : t.acquisitions.toNat + 1 = 2 ^ 64 ∨ t.acquisitions.toNat + 1 < 2 ^ 64 :=
      Nat.eq_or_lt_of_le t.acquisitions.toNat_lt
    · rw [hlast] at hdue
      exact absurd rfl hdue
    · rw [Nat.mod_eq_of_lt hlt] at hdue ⊢
      omega
  | reset key => rfl
  | cleanup now => rfl

/-! ## Runs -/

/-- Whatever is stored after some requests was there before them or has been acquired. -/
theorem bucket?_of_after {rs : List Request} {key : String} {window : Nat} {b : Bucket} :
    ∀ {t : Throttle}, (t.after rs).bucket? key window = some b →
      t.bucket? key window = some b ∨ (key, window) ∈ acquiredPairs rs := by
  induction rs with
  | nil => exact fun h => .inl h
  | cons r rest ih =>
    intro t h
    rw [acquiredPairs_cons, List.mem_append]
    rcases ih (t := (t.serve r).2) h with h | hmem
    · rcases bucket?_of_serve h with ⟨hb, -⟩ | ⟨limit, now, rfl, -⟩
      · exact .inl hb
      · exact .inr (.inl (List.mem_singleton_self _))
    · exact .inr (.inr hmem)

/-- No window has begun after all of the readings. -/
theorem start_le_of_after {rs : List Request} {later : Nat} (hlater : ∀ n ∈ readings rs, n ≤ later)
    {key : String} {window : Nat} {b : Bucket} :
    ∀ {t : Throttle}, (∀ b, t.bucket? key window = some b → b.start ≤ later) →
      (t.after rs).bucket? key window = some b → b.start ≤ later := by
  induction rs with
  | nil => exact fun ht h => ht b h
  | cons r rest ih =>
    intro t ht h
    refine ih (fun n hn => hlater n (mem_readings_cons.2 (.inr hn))) (t := (t.serve r).2) ?_ h
    intro b hb
    rcases bucket?_of_serve hb with ⟨hb, -⟩ | ⟨limit, now, rfl, rfl⟩
    · exact ht b hb
    · rcases t.start_acquired key window now with hnow | ⟨b, hb, hstart⟩
      · rw [hnow]
        exact hlater now (mem_readings_cons.2 (.inl rfl))
      · rw [hstart]
        exact ht b hb

/-- As long as nothing is swept, the numbers of the acquisitions do not come to a multiple of the
interval. -/
theorem acquisitions_of_unswept {rs : List Request} :
    ∀ {t : Throttle}, t.Unswept rs →
      t.acquisitions.toNat % 100 + (acquiredPairs rs).length =
        (t.after rs).acquisitions.toNat % 100 := by
  induction rs with
  | nil => exact fun _ => rfl
  | cons r rest ih =>
    intro t h
    obtain ⟨hr, hrest⟩ := h
    rw [acquiredPairs_cons, List.length_append, ← Nat.add_assoc,
      acquisitions_serve_of_unswept hr]
    exact ih hrest

/-- A run sweeps nothing, or there is a sweep after which it sweeps nothing more. -/
theorem unswept_or_exists_latest (rs : List Request) : ∀ t : Throttle,
    t.Unswept rs ∨ ∃ before r later now, rs = before ++ r :: later ∧
      (t.after before).sweptAt? r = some now ∧ ((t.after before).serve r).2.Unswept later := by
  induction rs with
  | nil => exact fun _ => .inl trivial
  | cons r rest ih =>
    intro t
    rcases ih (t.serve r).2 with hrest | ⟨before, r', later, now, rfl, hdue, hlater⟩
    · cases hr : t.sweptAt? r with
      | none => exact .inl ⟨hr, hrest⟩
      | some now => exact .inr ⟨[], r, rest, now, rfl, hr, hrest⟩
    · exact .inr ⟨r :: before, r', later, now, rfl, hdue, hlater⟩

/-! ## Sweeps of a run -/

/-- A sweep in the run of some requests on an empty throttle: the requests before it, the one that
it is made for, those after, and its reading. -/
structure SweepIn (rs : List Request) where
  before : List Request
  request : Request
  later : List Request
  now : Nat
  requests_eq : rs = before ++ request :: later
  due : (empty.after before).sweptAt? request = some now

namespace SweepIn

variable {rs : List Request}

/-- What the sweep finds. -/
def found (s : SweepIn rs) : Throttle :=
  empty.after s.before

/-- How many buckets the sweep says that it has dropped. -/
def dropped (s : SweepIn rs) : Nat :=
  (s.found.cleanup s.now).1

/-- What the sweep leaves. -/
def swept (s : SweepIn rs) : Throttle :=
  (s.found.cleanup s.now).2

/-- The run sweeps nothing more. -/
def IsLatest (s : SweepIn rs) : Prop :=
  (s.found.serve s.request).2.Unswept s.later

/-- The key and window length of each acquisition since the sweep, which may be made for the first
one. -/
def since (s : SweepIn rs) : List (String × Nat) :=
  acquiredPairs (s.request :: s.later)

theorem after_eq (s : SweepIn rs) : empty.after rs = (s.found.serve s.request).2.after s.later :=
  (congrArg empty.after s.requests_eq).trans (after_append ..)

theorem start_le (s : SweepIn rs) (h : Chronological rs) {key : String} {window : Nat} {b : Bucket}
    (hb : s.found.bucket? key window = some b) : b.start ≤ s.now := by
  rw [s.requests_eq] at h
  obtain ⟨-, -, hle⟩ := chronological_append.1 h
  refine start_le_of_after (fun n hn => ?_) (fun _ hnone => by cases hnone) hb
  exact hle n hn s.now (mem_readings_cons.2 (.inl (reading?_of_sweptAt? s.due)))

theorem bucket?_swept (s : SweepIn rs) (h : Chronological rs) (key : String) (window : Nat)
    (b : Bucket) : s.swept.bucket? key window = some b ↔
      s.found.bucket? key window = some b ∧ ¬b.start + window ≤ s.now := by
  refine bucket?_sweep_eq_some_iff.trans (and_congr_right fun hb => ?_)
  -- elapsed time is cut off at zero, so the two tests agree from the start of the window on
  have hstart := s.start_le h hb
  rw [Bucket.elapsed]
  omega

theorem dropped_eq (s : SweepIn rs) (h : Chronological rs) :
    s.dropped = s.found.buckets.rows.countP fun row => row.2.start + row.1.2 ≤ s.now := by
  have hsplit := s.found.buckets.countP_add_size_filter fun key b => b.elapsed s.now < key.2
  have hended : (s.found.buckets.rows.countP fun row => !decide (row.2.elapsed s.now < row.1.2)) =
      s.found.buckets.rows.countP fun row => row.2.start + row.1.2 ≤ s.now := by
    refine List.countP_congr fun row hrow => ?_
    have hstored : s.found.bucket? row.1.1 row.1.2 = some row.2 := Table.find?_eq_some_iff.2 hrow
    have hstart := s.start_le h hstored
    rw [Bool.not_eq_true', decide_eq_false_iff_not, decide_eq_true_iff, Bucket.elapsed]
    omega
  rw [hended] at hsplit
  change s.found.buckets.size - (s.found.buckets.filter _).size = _
  omega

theorem dropped_add_size_swept (s : SweepIn rs) : s.dropped + s.swept.size = s.found.size :=
  Nat.sub_add_cancel (s.found.buckets.size_filter_le _)

/-- The request that the sweep is made for asks for nothing else, or it is an acquisition, which is
numbered and counted on what the sweep leaves. -/
theorem serve_eq (s : SweepIn rs) :
    s.request = .cleanup s.now ∧ s.found.serve s.request = (.dropped s.dropped, s.swept) ∨
    ∃ key limit window, s.request = .acquire key limit window s.now ∧
      s.found.serve s.request =
        Prod.map Reply.granted id (s.swept.numbered.count key limit window s.now) := by
  have hdue := s.due
  have hreading := reading?_of_sweptAt? hdue
  cases hr : s.request with
  | acquire key limit window now =>
    rw [hr] at hdue hreading
    obtain rfl : now = s.now := Option.some.inj hreading
    simp only [sweptAt?, Option.ite_none_right_eq_some] at hdue
    refine .inr ⟨key, limit, window, rfl, ?_⟩
    have hacquire := s.found.acquire_eq_count key limit window s.now
    rw [if_pos (show s.found.numbered.acquisitions % sweepInterval = 0 from hdue.1)] at hacquire
    exact congrArg (Prod.map Reply.granted id) hacquire
  | reset key =>
    rw [hr] at hreading
    cases hreading
  | cleanup now =>
    rw [hr] at hreading
    obtain rfl : now = s.now := Option.some.inj hreading
    exact .inl ⟨rfl, rfl⟩

theorem bucket?_of_after (s : SweepIn rs) {key : String} {window : Nat} {b : Bucket}
    (h : (empty.after rs).bucket? key window = some b) :
    s.swept.bucket? key window = some b ∨ (key, window) ∈ s.since := by
  rw [s.after_eq] at h
  rw [since, acquiredPairs_cons, List.mem_append]
  rcases Throttle.bucket?_of_after h with h | hmem
  · rcases bucket?_of_serve h with ⟨hb, hlive⟩ | ⟨limit, now, hr, -⟩
    · exact .inl (bucket?_sweep_eq_some_iff.2 ⟨hb, hlive s.now s.due⟩)
    · rw [hr]
      exact .inr (.inl (List.mem_singleton_self _))
  · exact .inr (.inr hmem)

theorem length_since_le (s : SweepIn rs) (h : s.IsLatest) : s.since.length ≤ 100 := by
  have hlater := acquisitions_of_unswept h
  have hfirst : s.request.pair?.toList.length ≤ 1 := by
    cases s.request.pair? <;> simp
  rw [since, acquiredPairs_cons, List.length_append]
  omega

end SweepIn

/-- The buckets of a throttle are at most as many as those that another one has and the pairs that
the others are stored under. -/
theorem size_le_of_bucket? {t t' : Throttle} {pairs : List (String × Nat)}
    (h : ∀ key window b, t.bucket? key window = some b →
      t'.bucket? key window = some b ∨ (key, window) ∈ pairs) :
    t.size ≤ t'.size + pairs.length :=
  Table.size_le_of_keys fun pair b hb => h pair.1 pair.2 b hb

/-- In a run each sweep takes away the buckets whose window has ended, says how many these are, and
takes away no other. Whatever is stored has been left by the latest sweep or has been acquired since
then, in one of at most a hundred acquisitions; if there was no sweep yet, in one of fewer than
that. Each pair has one bucket at most, and a reset takes away those of its key. -/
theorem sweeps_bound_buckets {rs : List Request} (h : Chronological rs) :
    let t := empty.after rs
    (∀ s : SweepIn rs,
      (∀ key window b, s.swept.bucket? key window = some b ↔
        s.found.bucket? key window = some b ∧ ¬b.start + window ≤ s.now) ∧
      (s.dropped = s.found.buckets.rows.countP fun row => row.2.start + row.1.2 ≤ s.now) ∧
      s.dropped + s.swept.size = s.found.size ∧
      (s.request = .cleanup s.now ∧ s.found.serve s.request = (.dropped s.dropped, s.swept) ∨
        ∃ key limit window, s.request = .acquire key limit window s.now ∧
          s.found.serve s.request =
            Prod.map Reply.granted id (s.swept.numbered.count key limit window s.now))) ∧
    (∀ s : SweepIn rs, s.IsLatest →
      s.since.length ≤ 100 ∧
      (∀ key window b, t.bucket? key window = some b →
        s.swept.bucket? key window = some b ∨ (key, window) ∈ s.since) ∧
      t.size ≤ s.swept.size + 100) ∧
    ((∃ s : SweepIn rs, s.IsLatest) ∨
      empty.Unswept rs ∧ (acquiredPairs rs).length < 100 ∧
      (∀ key window b, t.bucket? key window = some b → (key, window) ∈ acquiredPairs rs) ∧
      t.size < 100) ∧
    t.buckets.keys.Nodup ∧
    ∀ key k window,
      (t.reset key).bucket? k window = if k = key then none else t.bucket? k window := by
  intro t
  refine ⟨fun s => ⟨s.bucket?_swept h, s.dropped_eq h, s.dropped_add_size_swept, s.serve_eq⟩,
    fun s hlatest => ?_, ?_, t.buckets.nodup_keys, fun key k window => bucket?_reset t key k window⟩
  · have hsince := s.length_since_le hlatest
    have hsize : t.size ≤ s.swept.size + s.since.length :=
      size_le_of_bucket? fun _ _ _ => s.bucket?_of_after
    exact ⟨hsince, fun _ _ _ => s.bucket?_of_after, by omega⟩
  · rcases unswept_or_exists_latest rs empty with hnone | ⟨before, r, later, now, hrs, hdue, hlater⟩
    · -- the first sweep is still to come, so the numbers count all acquisitions
      right
      have hpairs := acquisitions_of_unswept hnone
      have hstored : ∀ key window b, t.bucket? key window = some b →
          empty.bucket? key window = some b ∨ (key, window) ∈ acquiredPairs rs :=
        fun _ _ _ => bucket?_of_after
      have hsize : t.size ≤ empty.size + (acquiredPairs rs).length := size_le_of_bucket? hstored
      have hempty : empty.size = 0 := rfl
      refine ⟨hnone, by omega, fun key window b hb => ?_, by omega⟩
      exact (hstored key window b hb).resolve_left nofun
    · exact .inl ⟨⟨before, r, later, now, hrs, hdue⟩, hlater⟩

/-- One key under 99 window lengths, one of them none: the hundredth acquisition drops the windows
that have ended, of which one is acquired again. -/
theorem sweeps_bound_buckets_across_windows :
    let idle := (List.range 99).map fun window => Request.acquire "k" 5 window 0
    let rs := idle ++ [.acquire "fresh" 5 1 50, .acquire "k" 5 0 51]
    Chronological rs ∧ (empty.after idle).size = 99 ∧
    ∃ s : SweepIn rs, s.IsLatest ∧ s.dropped = 51 ∧ s.swept.size = 48 ∧
      s.since = [("fresh", 1), ("k", 0)] ∧ (empty.after rs).size = 50 ∧
      (empty.after rs).size ≤ s.swept.size + 100 := by
  intro idle rs
  have hrun : Chronological rs := by decide +kernel
  have hidle : (empty.after idle).size = 99 := by decide +kernel
  let s : SweepIn rs :=
    ⟨idle, .acquire "fresh" 5 1 50, [.acquire "k" 5 0 51], 50, rfl, by decide +kernel⟩
  have hlatest : s.IsLatest := ⟨by decide +kernel, trivial⟩
  obtain ⟨hsweeps, hlast, -⟩ := sweeps_bound_buckets hrun
  obtain ⟨-, hdropped, hsplit, -⟩ := hsweeps s
  have hended : s.dropped = 51 := hdropped.trans (by decide +kernel)
  have hfound : s.found.size = 99 := hidle
  obtain ⟨-, -, hbound⟩ := hlast s hlatest
  exact ⟨hrun, hidle, s, hlatest, hended, by omega, rfl, by decide +kernel, hbound⟩

end Throttle

end IntentGate
