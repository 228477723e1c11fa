import IntentGate.Throttle

/-!
# Runs of a throttle

A run serves requests one after another and logs what came of each. `bucket?` is the view of a
throttle that its runs are followed through: what each operation does to the bucket of one key and
window length is said here, once per operation, and `Throttle.acquire` is not opened elsewhere.
`countedOn` is what is followed of a run: its acquisitions of one key and window length, each with
the window that counts it.
-/

namespace IntentGate.Throttle

/-- What a throttle is asked to do. -/
inductive Request where
  | acquire (key : String) (limit window now : Nat)
  | reset (key : String)
  | cleanup (now : Nat)
deriving DecidableEq, Repr

/-- What comes of a request. -/
inductive Reply where
  | granted (g : Grant)
  | done
  | dropped (count : Nat)
deriving DecidableEq, Repr

/-- The clock reading that a request brings along. -/
def Request.reading? : Request → Option Nat
  | .acquire _ _ _ now => some now
  | .reset _ => none
  | .cleanup now => some now

/-- The clock readings of some requests, in order. -/
def readings (rs : List Request) : List Nat :=
  rs.filterMap Request.reading?

/-- No clock reading is smaller than one before it. -/
def Chronological (rs : List Request) : Prop :=
  (readings rs).Pairwise (· ≤ ·)

instance (rs : List Request) : Decidable (Chronological rs) :=
  inferInstanceAs (Decidable ((readings rs).Pairwise (· ≤ ·)))

theorem mem_readings_cons {r : Request} {rest : List Request} {n : Nat} :
    n ∈ readings (r :: rest) ↔ n ∈ r.reading? ∨ n ∈ readings rest := by
  simp only [readings, List.mem_filterMap, List.mem_cons, Option.mem_def]
  constructor
  · rintro ⟨q, rfl | hq, hn⟩
    · exact .inl hn
    · exact .inr ⟨q, hq, hn⟩
  · rintro (hn | ⟨q, hq, hn⟩)
    · exact ⟨r, .inl rfl, hn⟩
    · exact ⟨q, .inr hq, hn⟩

theorem readings_append (rs rs' : List Request) :
    readings (rs ++ rs') = readings rs ++ readings rs' :=
  List.filterMap_append

theorem chronological_append {rs rs' : List Request} :
    Chronological (rs ++ rs') ↔
      Chronological rs ∧ Chronological rs' ∧ ∀ n ∈ readings rs, ∀ m ∈ readings rs', n ≤ m := by
  rw [Chronological, readings_append, List.pairwise_append]
  rfl

theorem Chronological.tail {r : Request} {rest : List Request} (h : Chronological (r :: rest)) :
    Chronological rest := by
  rw [Chronological, readings] at h
  cases hr : r.reading? with
  | none => rwa [List.filterMap_cons_none hr] at h
  | some n =>
    rw [List.filterMap_cons_some hr] at h
    exact (List.pairwise_cons.1 h).2

/-- The reading of the first request is at most every later one. -/
theorem Chronological.le {r : Request} {rest : List Request} (h : Chronological (r :: rest))
    {n m : Nat} (hr : r.reading? = some n) (hm : m ∈ readings rest) : n ≤ m := by
  rw [Chronological, readings, List.filterMap_cons_some hr] at h
  exact (List.pairwise_cons.1 h).1 m hm

/-- If no reading is smaller than `now`, none after the first request is smaller than its reading. -/
theorem Chronological.later {r : Request} {rest : List Request} (h : Chronological (r :: rest))
    {now : Nat} (hnow : ∀ n ∈ readings (r :: rest), now ≤ n) :
    (∀ n ∈ r.reading?, now ≤ n) ∧ ∀ n ∈ readings rest, r.reading?.getD now ≤ n := by
  refine ⟨fun n hn => hnow n (mem_readings_cons.2 (.inl hn)), fun n hn => ?_⟩
  cases hr : r.reading? with
  | none => exact hnow n (mem_readings_cons.2 (.inr hn))
  | some m => exact h.le hr hn

theorem getLastD_readings_cons (r : Request) (rest : List Request) (now : Nat) :
    (readings (r :: rest)).getLastD now = (readings rest).getLastD (r.reading?.getD now) := by
  unfold readings
  cases hr : r.reading? with
  | none =>
    rw [List.filterMap_cons_none hr]
    rfl
  | some n =>
    rw [List.filterMap_cons_some hr, List.getLastD_cons]
    rfl

/-- Serves one request. -/
def serve (t : Throttle) : Request → Reply × Throttle
  | .acquire key limit window now =>
    let (g, t) := t.acquire key limit window now
    (.granted g, t)
  | .reset key => (.done, t.reset key)
  | .cleanup now =>
    let (n, t) := t.cleanup now
    (.dropped n, t)

/-- The requests of a run with their replies. -/
def log (t : Throttle) : List Request → List (Request × Reply)
  | [] => []
  | r :: rest => (r, (t.serve r).1) :: (t.serve r).2.log rest

/-- The throttle that some requests leave. -/
def after (t : Throttle) (rs : List Request) : Throttle :=
  rs.foldl (fun t r => (t.serve r).2) t

theorem after_append (t : Throttle) (rs rs' : List Request) :
    t.after (rs ++ rs') = (t.after rs).after rs' :=
  List.foldl_append ..

/-- The grant in an entry of the log, if it is an acquisition of this key and window length. -/
def grantOn? (key : String) (window : Nat) : Request × Reply → Option Grant
  | (.acquire k _ w _, .granted g) => if k = key ∧ w = window then some g else none
  | _ => none

/-- What the acquisitions of one key and window length were answered, in order. -/
def grantsOn (key : String) (window : Nat) (entries : List (Request × Reply)) : List Grant :=
  entries.filterMap (grantOn? key window)

theorem grantsOn_cons (key : String) (window : Nat) (entry : Request × Reply)
    (entries : List (Request × Reply)) :
    grantsOn key window (entry :: entries) =
      (grantOn? key window entry).toList ++ grantsOn key window entries := by
  unfold grantsOn
  cases h : grantOn? key window entry with
  | none => exact List.filterMap_cons_none h
  | some g => exact List.filterMap_cons_some h

/-! ## The view of one key and window length -/

/-- The bucket of a key and window length, if there is one. -/
def bucket? (t : Throttle) (key : String) (window : Nat) : Option Bucket :=
  t.buckets.find? (key, window)

@[simp] theorem bucket?_empty (key : String) (window : Nat) : empty.bucket? key window = none :=
  rfl

/-- A sweep leaves the bucket whose window still runs. -/
theorem bucket?_sweep (t : Throttle) (now : Nat) (key : String) (window : Nat) :
    (t.sweep now).bucket? key window =
      (t.bucket? key window).filter fun b => b.elapsed now < window :=
  Table.find?_filter ..

/-- A reset takes away every bucket of its key and no other. -/
theorem bucket?_reset (t : Throttle) (k key : String) (window : Nat) :
    (t.reset k).bucket? key window = if key = k then none else t.bucket? key window := by
  rw [bucket?, bucket?, reset, Table.find?_filter]
  by_cases h : key = k
  · simp [h]
  · cases t.buckets.find? (key, window) <;> simp [h]

/-- The throttle that an acquisition finds, after the sweep if one is due. -/
def prepared (t : Throttle) (now : Nat) : Throttle :=
  if (t.acquisitions + 1) % sweepInterval = 0 then t.sweep now else t

/-- The bucket that an acquisition leaves for its key and window length. -/
def acquired (t : Throttle) (key : String) (window now : Nat) : Bucket :=
  (((t.prepared now).bucket? key window).getD ⟨0, now⟩).acquire window now

theorem acquire_grant (t : Throttle) (key : String) (limit window now : Nat) :
    (t.acquire key limit window now).1 = grant (t.acquired key window now) limit window now :=
  rfl

/-- An acquisition changes one bucket; the others are those it found. -/
theorem bucket?_acquire (t : Throttle) (k key : String) (limit w window now : Nat) :
    (t.acquire k limit w now).2.bucket? key window =
      if key = k ∧ window = w then some (t.acquired k w now)
      else (t.prepared now).bucket? key window := by
  change (((t.prepared now).buckets.put (k, w) (t.acquired k w now)).find? (key, window)) = _
  rw [Table.find?_put]
  simp only [Prod.mk.injEq, bucket?]

/-! ## Acquisitions as they are counted -/

/-- An acquisition as it was counted: its clock reading, the start of the window that counts it, and
its answer. -/
structure Counted where
  now : Nat
  start : Nat
  grant : Grant
deriving DecidableEq, Repr

/-- How a request is counted, if it is an acquisition of this key and window length: its window is
the one of the bucket that it leaves. -/
def counted? (key : String) (window : Nat) (t : Throttle) (r : Request) : Option Counted := do
  let now ← r.reading?
  let grant ← grantOn? key window (r, (t.serve r).1)
  let bucket ← (t.serve r).2.bucket? key window
  return ⟨now, bucket.start, grant⟩

/-- How the acquisitions of a key and window length are counted in a run, in order. -/
def countedOn (key : String) (window : Nat) (t : Throttle) : List Request → List Counted
  | [] => []
  | r :: rest => (counted? key window t r).toList ++ countedOn key window (t.serve r).2 rest

theorem counted?_of_not_granted {key : String} {window : Nat} {t : Throttle} {r : Request}
    (h : grantOn? key window (r, (t.serve r).1) = none) : counted? key window t r = none := by
  cases hr : r.reading? <;> simp [counted?, hr, h]

theorem counted?_acquire (key : String) (limit window now : Nat) (t : Throttle) :
    counted? key window t (.acquire key limit window now) =
      some ⟨now, (t.acquired key window now).start,
        grant (t.acquired key window now) limit window now⟩ := by
  have hgrant : grantOn? key window
      (.acquire key limit window now, (t.serve (.acquire key limit window now)).1) =
        some (grant (t.acquired key window now) limit window now) := if_pos ⟨rfl, rfl⟩
  have hbucket : (t.serve (.acquire key limit window now)).2.bucket? key window =
      some (t.acquired key window now) :=
    (bucket?_acquire t key key limit window window now).trans (if_pos ⟨rfl, rfl⟩)
  rw [counted?, hgrant, hbucket]
  rfl

/-- Every grant of a run is counted, in its place. -/
theorem grants_countedOn (key : String) (window : Nat) (t : Throttle) (rs : List Request) :
    (countedOn key window t rs).map (·.grant) = grantsOn key window (t.log rs) := by
  induction rs generalizing t with
  | nil => rfl
  | cons r rest ih =>
    rw [countedOn, log, grantsOn_cons, List.map_append, ih]
    congr 1
    cases hgrant : grantOn? key window (r, (t.serve r).1) with
    | none =>
      rw [counted?_of_not_granted hgrant]
      rfl
    | some g =>
      cases r with
      | acquire k limit w now =>
        obtain ⟨⟨rfl, rfl⟩, rfl⟩ : (k = key ∧ w = window) ∧
            (t.acquire k limit w now).1 = g := by
          simpa [grantOn?, serve] using hgrant
        rw [counted?_acquire]
        rfl
      | reset k => cases hgrant
      | cleanup now => cases hgrant

end IntentGate.Throttle
