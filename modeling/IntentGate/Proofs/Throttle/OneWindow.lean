import IntentGate.Proofs.Throttle.Allowance

/-!
# One window

While a window of a pair runs, the pair's acquisitions are counted one by one up to the largest
count, and the first acquisition after its end begins the next one (`Counter.after_counting`,
`Counter.after_over`). This is what an answer says about acquisitions to come: a refused one is told
exactly how long others with no larger limit will be refused (`refused_until_hint`), and the `n`-th
one of a window is allowed exactly if `n` is within its limit, whatever limit below the largest
count that is (`allowed_up_to_limit`).

Both are followed through the counter of the pair, which no sweep touches.
-/

namespace IntentGate.Throttle

namespace Counter

variable {window start count now : Nat} {c : Counter}

theorem next_of_running (h : now - start < window) :
    (counting start count).next window now = (start, min (count + 1) Bucket.maxCount) :=
  if_neg (Nat.not_le.2 h)

/-- An acquisition that no running window counts begins one. -/
theorem next_of_over (h : ∀ s ∈ c.start?, window ≤ now - s) : c.next window now = (now, 1) := by
  cases c with
  | idle => rfl
  | counting s count => exact if_pos (h s rfl)

/-- The window of an acquisition begins with it, or has begun by then and is still running. -/
theorem next_start (h : ∀ s ∈ c.start?, s ≤ now) :
    (c.next window now).1 = now ∨
      (c.next window now).1 ≤ now ∧ now < (c.next window now).1 + window := by
  cases c with
  | idle => exact .inl rfl
  | counting s count =>
    have hs : s ≤ now := h s rfl
    by_cases hover : window ≤ now - s
    · rw [next, if_pos hover]
      exact .inl rfl
    · rw [next, if_neg hover]
      exact .inr ⟨hs, by change now < s + window; omega⟩

theorem next_count_le (c : Counter) (window now : Nat) :
    (c.next window now).2 ≤ Bucket.maxCount := by
  have hone : 1 ≤ Bucket.maxCount := by decide
  cases c with
  | idle => exact hone
  | counting s count =>
    rw [next]
    split
    · exact hone
    · exact Nat.min_le_right ..

theorem after_acquire (c : Counter) (window limit now : Nat) (is : List Input) :
    c.after window (.acquire limit now :: is) =
      (counting (c.next window now).1 (c.next window now).2).after window is :=
  rfl

/-- Acquisitions in the running window are counted on. -/
theorem after_counting (hcount : count ≤ Bucket.maxCount) {is : List Input} {nows : List Nat}
    (his : List.Forall₂ (fun i now => ∃ limit, i = .acquire limit now) is nows)
    (hnows : ∀ now ∈ nows, now - start < window) :
    (counting start count).after window is =
      counting start (min (count + nows.length) Bucket.maxCount) := by
  induction his generalizing count with
  | nil =>
    rw [List.length_nil, Nat.add_zero, Nat.min_eq_left hcount]
    rfl
  | cons hi _ ih =>
    obtain ⟨limit, rfl⟩ := hi
    obtain ⟨hnow, hnows⟩ := List.forall_mem_cons.1 hnows
    rw [after_acquire, next_of_running hnow, ih (Nat.min_le_right ..) hnows, List.length_cons]
    congr 1
    omega

/-- An acquisition after others in the running window is counted on, or begins the next window. -/
theorem next_after_counting (hcount : count ≤ Bucket.maxCount) {is : List Input} {nows : List Nat}
    (his : List.Forall₂ (fun i now => ∃ limit, i = .acquire limit now) is nows)
    (hnows : ∀ n ∈ nows, n - start < window) :
    ((counting start count).after window is).next window now =
      if window ≤ now - start then (now, 1)
      else (start, min (count + nows.length + 1) Bucket.maxCount) := by
  rw [after_counting hcount his hnows]
  by_cases hover : window ≤ now - start
  · rw [if_pos hover]
    exact if_pos hover
  · rw [if_neg hover, next_of_running (Nat.lt_of_not_le hover)]
    congr 1
    omega

/-- The acquisitions of a window that the first of them begins are numbered from one. -/
theorem next_after_over {is : List Input} {nows : List Nat}
    (his : List.Forall₂ (fun i now => ∃ limit, i = .acquire limit now) is nows)
    (hc : ∀ s ∈ c.start?, window ≤ nows.headD now - s)
    (hnows : ∀ n ∈ nows, n - nows.headD now < window) (hnow : now - nows.headD now < window) :
    (c.after window is).next window now =
      (nows.headD now, min (nows.length + 1) Bucket.maxCount) := by
  have hone : 1 ≤ Bucket.maxCount := by decide
  cases his with
  | nil => exact next_of_over hc
  | @cons i first is nows hi his =>
    obtain ⟨limit, rfl⟩ := hi
    obtain ⟨-, hrest⟩ := List.forall_mem_cons.1 hnows
    rw [List.headD_cons] at hc hrest hnow ⊢
    rw [after_acquire, next_of_over hc, next_after_counting hone his hrest,
      if_neg (Nat.not_le.2 hnow), List.length_cons, Nat.add_comm 1]

/-- A window has begun by any reading that is not before the acquisitions. -/
theorem start_le_after {later : Nat} {is : List Input}
    (his : ∀ limit now, .acquire limit now ∈ is → now ≤ later) (hc : ∀ s ∈ c.start?, s ≤ later) :
    ∀ s ∈ (c.after window is).start?, s ≤ later := by
  induction is generalizing c with
  | nil => exact hc
  | cons i is ih =>
    have his' : ∀ limit now, .acquire limit now ∈ is → now ≤ later :=
      fun limit now h => his limit now (List.mem_cons_of_mem i h)
    cases i with
    | reset => exact ih his' nofun
    | acquire limit now =>
      have hnow : now ≤ later := his limit now List.mem_cons_self
      refine ih (c := counting _ _) his' fun s hs => ?_
      obtain rfl : (c.next window now).1 = s := Option.some.inj hs
      cases c with
      | idle => exact hnow
      | counting s count =>
        rw [next]
        split
        · exact hnow
        · exact hc s rfl

/-- Resets alone leave an idle counter idle. -/
theorem idle_after {is : List Input} (his : ∀ limit now, .acquire limit now ∉ is) :
    idle.after window is = idle := by
  induction is with
  | nil => rfl
  | cons i is ih =>
    cases i with
    | acquire limit now => exact absurd List.mem_cons_self (his limit now)
    | reset => exact ih fun limit now h => his limit now (List.mem_cons_of_mem _ h)

end Counter

/-! ## Requests and what the counter sees -/

section Pair

variable {key : String} {window limit now : Nat} {rs : List Request}

theorem mem_acquiredAt : now ∈ acquiredAt key window rs ↔
    ∃ limit, .acquire key limit window now ∈ rs := by
  rw [acquiredAt, List.mem_filterMap]
  constructor
  · rintro ⟨r, hr, hnow⟩
    cases r with
    | acquire k limit w at_ =>
      dsimp only at hnow
      split at hnow
      · obtain ⟨rfl, rfl⟩ := ‹k = key ∧ w = window›
        obtain rfl : at_ = now := Option.some.inj hnow
        exact ⟨limit, hr⟩
      · cases hnow
    | reset k => cases hnow
    | cleanup at_ => cases hnow
  · rintro ⟨limit, hr⟩
    exact ⟨_, hr, if_pos ⟨rfl, rfl⟩⟩

theorem mem_readings_of_mem_acquiredAt (h : now ∈ acquiredAt key window rs) :
    now ∈ readings rs := by
  obtain ⟨limit, hr⟩ := mem_acquiredAt.1 h
  exact List.mem_filterMap.2 ⟨_, hr, rfl⟩

theorem feed_append (key : String) (window : Nat) (rs rs' : List Request) :
    feed key window (rs ++ rs') = feed key window rs ++ feed key window rs' :=
  List.filterMap_append

theorem feed_acquire (key : String) (limit window now : Nat) (rs : List Request) :
    feed key window (.acquire key limit window now :: rs) =
      .acquire limit now :: feed key window rs :=
  List.filterMap_cons_some (if_pos ⟨rfl, rfl⟩)

/-- Where the key is not reset the counter sees the acquisitions of the pair and nothing else. -/
theorem feed_acquiredAt (hreset : .reset key ∉ rs) :
    List.Forall₂ (fun i now => ∃ limit, i = .acquire limit now) (feed key window rs)
      (acquiredAt key window rs) := by
  induction rs with
  | nil => exact .nil
  | cons r rest ih =>
    have hrest := ih fun h => hreset (List.mem_cons_of_mem r h)
    cases r with
    | acquire k l w at_ =>
      by_cases hpair : k = key ∧ w = window
      · have hfeed : feed key window (.acquire k l w at_ :: rest) =
            .acquire l at_ :: feed key window rest := List.filterMap_cons_some (if_pos hpair)
        have hat : acquiredAt key window (.acquire k l w at_ :: rest) =
            at_ :: acquiredAt key window rest := List.filterMap_cons_some (if_pos hpair)
        rw [hfeed, hat]
        exact .cons ⟨l, rfl⟩ hrest
      · have hfeed : feed key window (.acquire k l w at_ :: rest) = feed key window rest :=
          List.filterMap_cons_none (if_neg hpair)
        have hat : acquiredAt key window (.acquire k l w at_ :: rest) =
            acquiredAt key window rest := List.filterMap_cons_none (if_neg hpair)
        rw [hfeed, hat]
        exact hrest
    | reset k =>
      have hkey : k ≠ key := fun hkey => hreset (hkey ▸ List.mem_cons_self)
      have hfeed : feed key window (.reset k :: rest) = feed key window rest :=
        List.filterMap_cons_none (if_neg hkey)
      rw [hfeed]
      exact hrest
    | cleanup at_ => exact hrest

theorem mem_acquiredAt_of_mem_feed (h : .acquire limit now ∈ feed key window rs) :
    now ∈ acquiredAt key window rs := by
  obtain ⟨r, hr, hi⟩ := List.mem_filterMap.1 h
  rw [Request.eq_acquire_of_input? hi] at hr
  exact mem_acquiredAt.2 ⟨limit, hr⟩

/-- An acquisition is answered as the counter answers it that the pair's bucket stands for, and
leaves the bucket of the counter after it. -/
theorem Stands.acquire_eq {t : Throttle} {c : Counter}
    (h : Stands window now (t.bucket? key window) c) (limit : Nat) :
    (t.acquire key limit window now).1 =
        Counter.answer window limit now (c.next window now).1 (c.next window now).2 ∧
      (t.acquire key limit window now).2.bucket? key window =
        some ⟨(c.next window now).2, (c.next window now).1⟩ := by
  rw [acquire_grant, bucket?_acquire, if_pos ⟨rfl, rfl⟩, h.acquired_eq, grant_eq_answer]
  exact ⟨rfl, rfl⟩

/-- In a run the counter of the pair says what an acquisition is answered and the bucket that it
leaves. -/
theorem acquire_after {before later : List Request}
    (h : Chronological (before ++ .acquire key limit window now :: later)) :
    let counted := (Counter.idle.after window (feed key window before)).next window now
    ((empty.after before).acquire key limit window now).1 =
        Counter.answer window limit now counted.1 counted.2 ∧
      ((empty.after before).acquire key limit window now).2.bucket? key window =
        some ⟨counted.2, counted.1⟩ := by
  obtain ⟨hbefore, -, hle⟩ := chronological_append.1 h
  have hstands := stands_after hbefore
    (fun n hn => hle n hn now (mem_readings_cons.2 (.inl rfl))) key window
  exact hstands.acquire_eq limit

/-- From one acquisition of the pair the counter goes on to a later one. -/
theorem acquire_after_acquire {limit' later : Nat} {before between rest : List Request}
    (h : Chronological (before ++ .acquire key limit window now ::
      (between ++ .acquire key limit' window later :: rest))) :
    let counted := (Counter.idle.after window (feed key window before)).next window now
    let counted' :=
      ((Counter.counting counted.1 counted.2).after window (feed key window between)).next window
        later
    let next := (((empty.after before).acquire key limit window now).2.after between).acquire key
      limit' window later
    next.1 = Counter.answer window limit' later counted'.1 counted'.2 ∧
      next.2.bucket? key window = some ⟨counted'.2, counted'.1⟩ := by
  intro counted counted' next
  rw [← List.cons_append, ← List.append_assoc] at h
  have hrun := acquire_after h
  rwa [after_append, feed_append, feed_acquire, Counter.after_append,
    Counter.after_acquire] at hrun

/-- In a run no window begins after a later acquisition. -/
theorem start_le_of_feed {before later : List Request}
    (h : Chronological (before ++ .acquire key limit window now :: later)) :
    ∀ s ∈ (Counter.idle.after window (feed key window before)).start?, s ≤ now := by
  obtain ⟨-, -, hle⟩ := chronological_append.1 h
  refine Counter.start_le_after (fun _ n hn => ?_) nofun
  have hread := mem_readings_of_mem_acquiredAt (mem_acquiredAt_of_mem_feed hn)
  exact hle n hread now (mem_readings_cons.2 (.inl rfl))

/-- The acquisitions between two others of a run come between them in time. -/
theorem acquiredAt_between {limit' later : Nat} {between rest : List Request}
    (h : Chronological (.acquire key limit window now ::
      (between ++ .acquire key limit' window later :: rest))) :
    now ≤ later ∧ ∀ n ∈ acquiredAt key window between, now ≤ n ∧ n ≤ later := by
  obtain ⟨-, -, hle⟩ := chronological_append.1 h.tail
  have hlast : later ∈ readings (.acquire key limit' window later :: rest) :=
    mem_readings_cons.2 (.inl rfl)
  refine ⟨h.le rfl ?_, fun n hn => ?_⟩
  · rw [readings_append]
    exact List.mem_append_right _ hlast
  · have hread := mem_readings_of_mem_acquiredAt hn
    refine ⟨h.le rfl ?_, hle n hread later hlast⟩
    rw [readings_append]
    exact List.mem_append_left _ hread

end Pair

/-! ## Refusals -/

/-- In a run, a refused acquisition is told a time, which is at most one window length, and is none
only if the window has none. As long as the key is not reset, each acquisition of the pair before
this time has passed is refused again if its limit is no larger, and told the rest of the time; and
the first one after it begins a window and is number one in it. -/
theorem refused_until_hint {key : String} {limit window now : Nat} {before later : List Request}
    (h : Chronological (before ++ .acquire key limit window now :: later))
    (hrefused : ((empty.after before).acquire key limit window now).1.allowed = false) :
    let refused := (empty.after before).acquire key limit window now
    ∃ hint, refused.1.retryAfter = some hint ∧ hint ≤ window ∧ (0 < hint ↔ 0 < window) ∧
      ∀ between limit' t rest, later = between ++ .acquire key limit' window t :: rest →
        .reset key ∉ between →
        let next := (refused.2.after between).acquire key limit' window t
        (t < now + hint → limit' ≤ limit →
          next.1.allowed = false ∧ next.1.retryAfter = some (now + hint - t)) ∧
        (now + hint ≤ t → (∀ n ∈ acquiredAt key window between, n < now + hint) →
          next.1.count = 1 ∧ (next.1.allowed = true ↔ 1 ≤ limit') ∧
          next.2.bucket? key window = some ⟨1, t⟩) := by
  intro refused
  -- the window that the refused acquisition is in, and its number
  let c := Counter.idle.after window (feed key window before)
  have hstart : (c.next window now).1 = now ∨
      (c.next window now).1 ≤ now ∧ now < (c.next window now).1 + window :=
    Counter.next_start (start_le_of_feed h)
  have hcount := c.next_count_le window now
  obtain ⟨hanswer, -⟩ := acquire_after h
  generalize hnext : c.next window now = counted at hstart hcount hanswer
  obtain ⟨start, count⟩ := counted
  dsimp only at hstart hcount hanswer
  have hover : ¬count ≤ limit := by
    rw [hanswer] at hrefused
    exact of_decide_eq_false hrefused
  have hhint : refused.1.retryAfter = some (window - (now - start)) := by
    rw [hanswer]
    exact if_neg hover
  have hends : now + (window - (now - start)) = start + window := by omega
  refine ⟨_, hhint, Nat.sub_le .., by omega, ?_⟩
  rw [hends]
  intro between limit' t rest hlater hreset next
  subst hlater
  obtain ⟨hnow, hbetween⟩ := acquiredAt_between (chronological_append.1 h).2.1
  obtain ⟨hanswer', hbucket⟩ := acquire_after_acquire h
  rw [hnext] at hanswer' hbucket
  have hthen (hin : ∀ n ∈ acquiredAt key window between, n < start + window) :
      ((Counter.counting start count).after window (feed key window between)).next window t =
        if window ≤ t - start then (t, 1)
        else (start, min (count + (acquiredAt key window between).length + 1) Bucket.maxCount) := by
    refine Counter.next_after_counting hcount (feed_acquiredAt hreset) fun n hn => ?_
    have := hbetween n hn
    have := hin n hn
    omega
  constructor
  · intro ht hlimit
    rw [hthen fun n hn => Nat.lt_of_le_of_lt (hbetween n hn).2 ht, if_neg (by omega)] at hanswer'
    have hover' : ¬min (count + (acquiredAt key window between).length + 1) Bucket.maxCount ≤
        limit' := by omega
    rw [hanswer']
    refine ⟨decide_eq_false hover', (if_neg hover').trans (congrArg some ?_)⟩
    omega
  · intro ht hfirst
    rw [hthen hfirst, if_pos (by omega)] at hanswer' hbucket
    rw [hanswer']
    exact ⟨rfl, decide_eq_true_iff, hbucket⟩

/-- A hint holds through a reset of another key and a cleanup that drops the bucket. -/
theorem refused_until_hint_across_cleanup :
    let between : List Request := [.acquire "b" 1 10 5, .reset "b", .acquire "a" 0 3 5]
    let later := between ++ [.acquire "a" 1 10 9, .cleanup 10, .acquire "a" 1 10 10]
    let refused := (empty.after [.acquire "a" 1 10 0]).acquire "a" 1 10 4
    Chronological ([.acquire "a" 1 10 0] ++ .acquire "a" 1 10 4 :: later) ∧
    refused.1 = ⟨false, 2, 1, some 6⟩ ∧
    ((refused.2.after between).acquire "a" 1 10 9).1.allowed = false ∧
    ((refused.2.after between).acquire "a" 1 10 9).1.retryAfter = some 1 ∧
    ((refused.2.after (between ++ [.acquire "a" 1 10 9, .cleanup 10])).bucket? "a" 10 = none) ∧
    ((refused.2.after (between ++ [.acquire "a" 1 10 9, .cleanup 10])).acquire "a" 1 10
      10).1.count = 1 := by
  intro between later refused
  have hrun : Chronological ([.acquire "a" 1 10 0] ++ .acquire "a" 1 10 4 :: later) := by decide
  have hanswer : refused.1 = ⟨false, 2, 1, some 6⟩ := by decide +kernel
  obtain ⟨hint, hhint, -, -, hlater⟩ :=
    refused_until_hint hrun (congrArg Grant.allowed hanswer)
  obtain rfl : 6 = hint := Option.some.inj ((congrArg Grant.retryAfter hanswer).symm.trans hhint)
  obtain ⟨hagain, -⟩ := hlater between 1 9 _ rfl (by decide)
  obtain ⟨-, hfirst⟩ :=
    hlater (between ++ [.acquire "a" 1 10 9, .cleanup 10]) 1 10 [] rfl (by decide)
  obtain ⟨hdenied, hrest⟩ := hagain (by decide) (by decide)
  exact ⟨hrun, hanswer, hdenied, hrest, by decide +kernel, (hfirst (by decide) (by decide)).1⟩

/-! ## The acquisitions of a window -/

/-- If no window of the bucket is running, none of the counter is. -/
theorem Stands.over {window now : Nat} {b : Option Bucket} {c : Counter}
    (h : Stands window now b c) (hb : ∀ b' ∈ b, window ≤ now - b'.start) :
    ∀ s ∈ c.start?, window ≤ now - s := by
  intro s hs
  cases c with
  | idle => cases hs
  | counting start count =>
    obtain rfl : start = s := Option.some.inj hs
    cases b with
    | none => exact h
    | some b =>
      obtain ⟨rfl, -⟩ := h
      exact hb b rfl

/-- Acquisitions of a pair fall into one window if no window of the pair is running when the first
of them comes, and the last comes before the window is over that the first begins. The number of the
last is how many they are, up to the largest count. -/
theorem acquire_in_window {key : String} {limit window now start : Nat}
    {before during later : List Request}
    (h : Chronological (before ++ (during ++ .acquire key limit window now :: later)))
    (hreset : .reset key ∉ during) (hstart : (acquiredAt key window during).headD now = start)
    (hfresh : ∀ b ∈ (empty.after before).bucket? key window, window ≤ start - b.start)
    (hnow : now < start + window) :
    start ≤ now ∧ ((empty.after (before ++ during)).acquire key limit window now).1 =
      Counter.answer window limit now start
        (min ((acquiredAt key window during).length + 1) Bucket.maxCount) := by
  obtain ⟨hbefore, hrest, hle⟩ := chronological_append.1 h
  obtain ⟨-, -, hlast⟩ := chronological_append.1 hrest
  have hin : ∀ n ∈ acquiredAt key window during, n ≤ now := fun n hn =>
    hlast n (mem_readings_of_mem_acquiredAt hn) now (mem_readings_cons.2 (.inl rfl))
  have hfirst : start = now ∨ start ∈ acquiredAt key window during := by
    cases hat : acquiredAt key window during with
    | nil =>
      rw [hat] at hstart
      exact .inl hstart.symm
    | cons first rest =>
      rw [hat] at hstart
      obtain rfl : first = start := hstart
      exact .inr List.mem_cons_self
  have hread : start ∈ readings (during ++ .acquire key limit window now :: later) := by
    rw [readings_append, List.mem_append]
    exact hfirst.symm.imp mem_readings_of_mem_acquiredAt fun h =>
      mem_readings_cons.2 (.inl (congrArg some h.symm))
  have hstartle : start ≤ now := hfirst.elim Nat.le_of_eq (hin start)
  have hover := (stands_after hbefore (fun n hn => hle n hn start hread) key window).over hfresh
  rw [← List.append_assoc] at h
  obtain ⟨hanswer, -⟩ := acquire_after h
  rw [feed_append, Counter.after_append] at hanswer
  subst hstart
  rw [hanswer, Counter.next_after_over (feed_acquiredAt hreset) hover
    (fun n hn => by have := hin n hn; omega) (by omega)]
  exact ⟨hstartle, rfl⟩

/-- After a reset nothing is counted until the next acquisition. -/
theorem acquire_after_reset {key : String} {limit window now : Nat}
    {before between later : List Request}
    (h : Chronological
      (before ++ .reset key :: (between ++ .acquire key limit window now :: later)))
    (hnone : acquiredAt key window between = []) :
    ((empty.after (before ++ .reset key :: between)).acquire key limit window now).1 =
      Counter.answer window limit now now 1 := by
  have hbetween : ∀ limit n, .acquire limit n ∉ feed key window between := fun limit n hn => by
    have hmem := mem_acquiredAt_of_mem_feed hn
    rw [hnone] at hmem
    cases hmem
  have hreset : feed key window (.reset key :: between) = .reset :: feed key window between :=
    List.filterMap_cons_some (if_pos rfl)
  have hidle : Counter.idle.after window (feed key window (before ++ .reset key :: between)) =
      .idle := by
    rw [feed_append, hreset, Counter.after_append]
    exact Counter.idle_after hbetween
  rw [← List.cons_append, ← List.append_assoc] at h
  obtain ⟨hanswer, -⟩ := acquire_after h
  rwa [hidle] at hanswer

/-- Acquisitions at one reading fall into one window, however many they are. -/
theorem acquire_after_replicate (key : String) (limit now m : Nat) {window : Nat}
    (hwindow : 0 < window) :
    ((empty.after (List.replicate m (.acquire key limit window now))).acquire key limit window
        now).1 =
      Counter.answer window limit now now (min (m + 1) Bucket.maxCount) := by
  let during := List.replicate m (Request.acquire key limit window now)
  have hat : acquiredAt key window during = List.replicate m now :=
    List.filterMap_replicate_of_some (if_pos ⟨rfl, rfl⟩)
  have hrun : Chronological ([] ++ (during ++ [.acquire key limit window now])) := by
    have hread : readings (during ++ [.acquire key limit window now]) =
        List.replicate (m + 1) now := by
      have hsome : (Request.acquire key limit window now).reading? = some now := rfl
      rw [readings_append, readings, List.filterMap_replicate_of_some hsome, List.replicate_succ']
      rfl
    rw [List.nil_append, Chronological, hread]
    exact List.pairwise_replicate.2 (.inr (Nat.le_refl now))
  have hfirst : (acquiredAt key window during).headD now = now := by
    rw [hat]
    cases m <;> rfl
  have hreset : .reset key ∉ during := fun h => by cases List.eq_of_mem_replicate h
  have hnone : ∀ b ∈ (empty.after []).bucket? key window, window ≤ now - b.start := by
    rintro b ⟨⟩
  obtain ⟨-, hanswer⟩ := acquire_in_window hrun hreset hfirst hnone (by omega)
  rwa [hat, List.length_replicate] at hanswer

/-- In a run, let an acquisition be the `n`-th one of a pair in a window that the first of them
begins. Up to the limit it is allowed, its count is `n`, and it carries no hint; beyond it, it is
refused with the rest of the window as its hint, unless the limit is the largest count, at which
counting stops. And the first one after a reset is number one again. -/
theorem allowed_up_to_limit {key : String} {limit window now start : Nat}
    {before during later : List Request}
    (h : Chronological (before ++ (during ++ .acquire key limit window now :: later)))
    (hreset : .reset key ∉ during) (hstart : (acquiredAt key window during).headD now = start)
    (hfresh : ∀ b ∈ (empty.after before).bucket? key window, window ≤ start - b.start)
    (hnow : now < start + window) (hlimit : limit ≤ Bucket.maxCount) :
    let n := (acquiredAt key window during).length + 1
    let acquired := (empty.after (before ++ during)).acquire key limit window now
    (n ≤ limit → acquired.1 = ⟨true, n, limit, none⟩) ∧
    (limit < n → limit < Bucket.maxCount →
      acquired.1 = ⟨false, min n Bucket.maxCount, limit, some (start + window - now)⟩) ∧
    (limit < n → limit = Bucket.maxCount → acquired.1 = ⟨true, Bucket.maxCount, limit, none⟩) ∧
    ∀ since between limit' t rest,
      later = since ++ .reset key :: (between ++ .acquire key limit' window t :: rest) →
      acquiredAt key window between = [] →
      let next := ((acquired.2.after since).reset key |>.after between).acquire key limit' window t
      next.1.count = 1 ∧ (next.1.allowed = true ↔ 1 ≤ limit') := by
  intro n acquired
  obtain ⟨hle, hanswer⟩ : start ≤ now ∧
      acquired.1 = Counter.answer window limit now start (min n Bucket.maxCount) :=
    acquire_in_window h hreset hstart hfresh hnow
  refine ⟨fun hn => ?_, fun hn hmax => ?_, fun hn hmax => ?_, ?_⟩
  · have hcount : min n Bucket.maxCount = n := by omega
    rw [hanswer, hcount, Counter.answer, decide_eq_true hn, if_pos hn]
  · have hover : ¬min n Bucket.maxCount ≤ limit := by omega
    have hrest : window - (now - start) = start + window - now := by omega
    rw [hanswer, Counter.answer, decide_eq_false hover, if_neg hover, hrest]
  · have hcount : min n Bucket.maxCount = Bucket.maxCount := by omega
    have hin : Bucket.maxCount ≤ limit := by omega
    rw [hanswer, hcount, Counter.answer, decide_eq_true hin, if_pos hin]
  · intro since between limit' t rest hlater hnone next
    have hrun : next = (empty.after ((before ++ (during ++ .acquire key limit window now ::
        since)) ++ .reset key :: between)).acquire key limit' window t := by
      rw [after_append, ← List.append_assoc, after_append]
      rfl
    have hreset : Chronological ((before ++ (during ++ .acquire key limit window now :: since)) ++
        .reset key :: (between ++ .acquire key limit' window t :: rest)) := by
      simpa [hlater] using h
    rw [hrun, acquire_after_reset hreset hnone]
    exact ⟨rfl, decide_eq_true_iff⟩

/-- A window that begins when the one before it is over and forgotten, with another limit and
another key in it, and a reset. -/
theorem allowed_up_to_limit_two :
    let before : List Request := [.acquire "a" 2 10 0, .cleanup 12]
    let during : List Request := [.acquire "a" 2 10 12, .acquire "b" 1 10 13, .acquire "a" 1 10 15]
    let later : List Request := [.cleanup 21, .reset "a", .acquire "a" 2 9 21, .acquire "a" 2 10 21]
    let third := (empty.after (before ++ during)).acquire "a" 2 10 21
    third.1 = ⟨false, 3, 2, some 1⟩ ∧
    Chronological (before ++ (during ++ .acquire "a" 2 10 21 :: later)) ∧
    ((((third.2.after [.cleanup 21]).reset "a").after [.acquire "a" 2 9 21]).acquire "a" 2 10
      21).1.count = 1 := by
  intro before during later third
  have hrun : Chronological (before ++ (during ++ .acquire "a" 2 10 21 :: later)) := by decide
  have hstart : (acquiredAt "a" 10 during).headD 21 = 12 := by decide
  obtain ⟨-, hover, -, hreset⟩ :=
    allowed_up_to_limit hrun (by decide) hstart (by decide +kernel) (by decide) (by decide)
  obtain ⟨hfirst, -⟩ := hreset [.cleanup 21] [.acquire "a" 2 9 21] 2 21 [] rfl (by decide)
  exact ⟨hover (by decide) (by decide), hrun, hfirst⟩

/-- The law ends with the largest count, at which one acquisition more is allowed. And it ends with
chronological runs: here the second acquisition of a window is number one, because a sweep at a
later reading has dropped the first. -/
theorem allowed_past_limit :
    let counted := List.replicate Bucket.maxCount (Request.acquire "k" Bucket.maxCount 10 0)
    let swept := .acquire "k" 1 10 0 :: List.replicate 99 (Request.acquire "o" 200 10 20)
    ((empty.after counted).acquire "k" Bucket.maxCount 10 0).1 =
      ⟨true, Bucket.maxCount, Bucket.maxCount, none⟩ ∧
    acquiredAt "k" 10 swept = [0] ∧ .reset "k" ∉ swept ∧
    ((empty.after swept).acquire "k" 1 10 5).1 = ⟨true, 1, 1, none⟩ := by
  intro counted swept
  refine ⟨?_, by decide +kernel, by decide +kernel, by decide +kernel⟩
  rw [acquire_after_replicate "k" Bucket.maxCount 0 Bucket.maxCount (by decide),
    Nat.min_eq_right (Nat.le_succ _), Counter.answer, decide_eq_true (Nat.le_refl _),
    if_pos (Nat.le_refl _)]

end IntentGate.Throttle
