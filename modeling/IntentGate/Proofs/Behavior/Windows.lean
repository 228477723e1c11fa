import IntentGate.Proofs.Behavior.Coherence
import IntentGate.Proofs.Time.Ticks

/-!
# The events of a window

What lies in a window can be asked for on several routes: as events between two instants or in the
last span before one, as their vector, or by way of the filtered copy of the space, which is what
observing these events makes of a new space with the same tags. All routes keep the same events, in
the order of observation (`eventsBetween_eq_filtered`), and count them in the same vector, which a
normalization rescales without a change of its dimensions. None of them leaves a trace in the space
that was asked: `windowed_routes_agree`.

The last span as long as the time span of a space holds all of its events (`eventsInLast_timeSpan`).
-/

namespace IntentGate

namespace BehaviorVector

/-- Normalization keeps the dimensions, whatever the cap is. -/
theorem keys_normalized (v : BehaviorVector) (o : VectorOptions) :
    (v.normalized o).dimensions.keys = v.dimensions.keys := by
  unfold normalized
  cases o.normalization with
  | none => rfl
  | cap | softCap | shares =>
    dsimp only
    split
    · exact Dict.keys_mapValues ..
    · rfl

theorem normalized_empty (o : VectorOptions) : empty.normalized o = empty := by
  have hkeys : (empty.normalized o).dimensions.keys = [] := keys_normalized empty o
  exact congrArg mk (Dict.ext_entries (List.map_eq_nil_iff.1 hkeys))

end BehaviorVector

namespace Space

variable {s : Space} {start stop : Instant}

/-- The vector of all events as asked: normalized, or else as `toVector` gives it. -/
def vectorAs (s : Space) : Option VectorOptions → BehaviorVector
  | some o => s.vectorWith o
  | none => s.toVector.1

/-! ## Routes -/

theorem eventsBetween_eq_filtered (s : Space) (w : Window) :
    s.eventsBetween w.start w.stop = (s.filtered w).events :=
  rfl

theorem vectorBetween_eq_vectorAs {f : Space} (hevents : f.events = s.eventsBetween start stop)
    (hf : f.Coherent) (o : Option VectorOptions) : s.vectorBetween start stop o = f.vectorAs o := by
  unfold vectorBetween
  rw [← hevents]
  cases o with
  | some o => rfl
  | none => exact hf.vector_eq.symm

theorem foldl_observe (s : Space) (hs : s.cached = none) (events : List Event) :
    events.foldl observe s = ⟨s.events ++ events, s.tags, none⟩ := by
  induction events generalizing s with
  | nil =>
    rw [List.foldl_nil, List.append_nil, ← hs]
  | cons e events ih =>
    rw [List.foldl_cons, ih _ rfl]
    change Space.mk ((s.events ++ [e]) ++ events) _ _ = _
    rw [List.append_assoc]
    rfl

/-- The filtered copy is made of a new space with the tags by observing the events of the window. -/
theorem filtered_eq_foldl_observe (s : Space) (w : Window) :
    s.filtered w = (s.eventsBetween w.start w.stop).foldl observe (ofEvents [] s.tags) :=
  (foldl_observe (ofEvents [] s.tags) rfl _).symm

theorem eventsBetween_eq_self (h : ∀ e ∈ s.events, start ≤ e.occurredAt ∧ e.occurredAt ≤ stop) :
    s.eventsBetween start stop = s.events := by
  refine List.filter_eq_self.2 fun e he => ?_
  obtain ⟨hstart, hstop⟩ := h e he
  simp [hstart, hstop]

theorem eventsBetween_eq_nil (h : stop < start) : s.eventsBetween start stop = [] := by
  refine List.filter_eq_nil_iff.2 fun e _ hmem => ?_
  rw [Bool.and_eq_true, decide_eq_true_iff, decide_eq_true_iff] at hmem
  exact h (Instant.le_trans hmem.1 hmem.2)

theorem eventsInLast_eq_self {span : Span} {now : Instant}
    (h : ∀ e ∈ s.events, (Window.endingAt now span).contains e.occurredAt = true) :
    s.eventsInLast span now = s.events :=
  eventsBetween_eq_self fun e he => (Window.contains_iff _ _).1 (h e he)

/-! ## The time span -/

/-- The time span is that from a first to a last event. -/
theorem timeSpan?_eq_some (hs : s.events ≠ []) :
    ∃ first ∈ s.events.map Event.occurredAt, ∃ last ∈ s.events.map Event.occurredAt,
      s.timeSpan? = some (last.since first) ∧
        ∀ e ∈ s.events, first ≤ e.occurredAt ∧ e.occurredAt ≤ last := by
  unfold timeSpan?
  cases htimes : s.events.map Event.occurredAt with
  | nil => exact absurd (List.map_eq_nil_iff.1 htimes) hs
  | cons t ts =>
    obtain ⟨hfirst, hge⟩ := Instant.foldl_sooner t ts
    obtain ⟨hlast, hle⟩ := Instant.foldl_later t ts
    refine ⟨_, hfirst, _, hlast, rfl, fun e he => ?_⟩
    have hmem : e.occurredAt ∈ t :: ts := htimes ▸ List.mem_map_of_mem he
    exact ⟨hge _ hmem, hle _ hmem⟩

/-- Outside leap seconds, the last span before the last event that is as long as the time span holds
all events. -/
theorem eventsInLast_timeSpan (hs : s.events ≠ [])
    (hleap : ∀ e ∈ s.events, e.occurredAt.inLeapSecond = false) :
    ∃ span, s.timeSpan? = some span ∧ ∃ last ∈ s.events.map Event.occurredAt,
      (∀ e ∈ s.events, e.occurredAt ≤ last) ∧ s.eventsInLast span last = s.events := by
  obtain ⟨first, hfirst, last, hlast, hspan, hbounds⟩ := timeSpan?_eq_some hs
  have hordinary {t : Instant} (ht : t ∈ s.events.map Event.occurredAt) :
      t.inLeapSecond = false := by
    obtain ⟨e, he, rfl⟩ := List.mem_map.1 ht
    exact hleap e he
  refine ⟨_, hspan, last, hlast, fun e he => (hbounds e he).2, ?_⟩
  refine eventsInLast_eq_self fun e he => ?_
  obtain ⟨hge, hle⟩ := hbounds e he
  rw [Instant.le_iff_ticks_le (hleap e he) fun h => by rw [hordinary hfirst] at h; cases h] at hge
  rw [Window.contains_endingAt_iff _ (hleap e he),
    Instant.since_eq_ticks_sub (hordinary hlast) (hordinary hfirst)]
  exact ⟨hle, by omega⟩

/-! ## Agreement -/

theorem after_append (ops calls : List Operation) :
    after (ops ++ calls) = calls.foldl (fun spaces op => (perform spaces op).1) (after ops) :=
  List.foldl_append

/-- Changing the space that was made last leaves those before it as they are. -/
theorem prefix_modify_append (spaces new : List Space) (f : Space → Space) :
    spaces <+: (spaces ++ new).modify spaces.length f := by
  rw [List.modify_eq_take_drop, List.take_left]
  exact List.prefix_append ..

/-- In every run, whatever is asked about a window comes to the same on all routes. Between ordered
instants the vector is that of the filtered copy, taken with the same options or without, and the
events are those of the copy: all that are neither before the one nor after the other, in the order
of the space. Observing them one after another makes the copy of a new space with the tags. The
events of the last span are those of the copy for the window that ends now. A window that covers all
events gives what is given without one, and out of order nothing lies between the instants.
Normalization keeps the dimensions. All spaces made so far, with their events, tags and slots, stand
as they are, also when the raw vector of the copy is taken. -/
theorem windowed_routes_agree {ops : List Operation} {i : Nat} {s : Space}
    (hs : (after ops)[i]? = some s) (start stop now : Instant) (span : Span)
    (o : Option VectorOptions) :
    (start ≤ stop → ∃ w, Window.between start stop = .ok w ∧
      s.vectorBetween start stop o = (s.filtered w).vectorAs o ∧
      s.eventsBetween start stop = (s.filtered w).events ∧
      (s.filtered w).events =
        s.events.filter (fun e => start ≤ e.occurredAt && e.occurredAt ≤ stop) ∧
      s.filtered w = (s.eventsBetween start stop).foldl observe (ofEvents [] s.tags)) ∧
    s.eventsInLast span now = (s.filtered (Window.endingAt now span)).events ∧
    ((∀ e ∈ s.events, start ≤ e.occurredAt ∧ e.occurredAt ≤ stop) →
      s.vectorBetween start stop o = s.vectorAs o ∧ s.eventsBetween start stop = s.events) ∧
    ((∀ e ∈ s.events, (Window.endingAt now span).contains e.occurredAt = true) →
      s.eventsInLast span now = s.events) ∧
    (stop < start → s.vectorBetween start stop o = .empty ∧ s.eventsBetween start stop = []) ∧
    (∀ (v : BehaviorVector) (o : VectorOptions),
      (v.normalized o).dimensions.keys = v.dimensions.keys) ∧
    ∀ (w : Window) (o' : VectorOptions), ∀ calls ∈ [[.takeVectorBetween i start stop o],
        [.takeVectorWith i o'], [.filter i w], [.filter i w, .takeVector (after ops).length]],
      after ops <+: after (ops ++ calls) := by
  have hcoherent : s.Coherent := coherent_after ops s (List.mem_of_getElem? hs)
  refine ⟨fun hle => ?_, eventsBetween_eq_filtered s (Window.endingAt now span), fun hcovers => ?_,
    eventsInLast_eq_self, fun hlt => ?_, BehaviorVector.keys_normalized, fun w o' => ?_⟩
  · have hevents := eventsBetween_eq_filtered s ⟨start, stop⟩
    refine ⟨⟨start, stop⟩, if_neg (not_not_intro hle), ?_, hevents, rfl,
      filtered_eq_foldl_observe s _⟩
    exact vectorBetween_eq_vectorAs hevents.symm (.inl rfl) o
  · have hevents := eventsBetween_eq_self hcovers
    exact ⟨vectorBetween_eq_vectorAs hevents.symm hcoherent o, hevents⟩
  · refine ⟨?_, eventsBetween_eq_nil hlt⟩
    unfold vectorBetween
    rw [eventsBetween_eq_nil hlt]
    cases o with
    | none => rfl
    | some o => exact BehaviorVector.normalized_empty o
  · intro calls hcalls
    rw [after_append]
    simp only [List.mem_cons, List.not_mem_nil, or_false] at hcalls
    rcases hcalls with rfl | rfl | rfl | rfl
    · exact List.prefix_rfl
    · exact List.prefix_rfl
    · exact List.prefix_append ..
    -- the slot that is filled is that of the copy
    · exact prefix_modify_append ..

/-- Four events that were observed out of order, two of them alike: the window from the tenth to the
twentieth second holds both bounds, and the one from the twentieth to the tenth nothing. -/
theorem windowed_routes_agree_of_unordered :
    let second (n : Fin 60) : Instant := ⟨n, 0, by omega, by omega, by decide⟩
    let login (t : Instant) : Event := ⟨"u", "login", t, .empty⟩
    let pay : Event := ⟨"u", "pay", second 10, .empty⟩
    let ops : List Operation := [.create, .observe 0 (login (second 20)), .takeVector 0,
      .observe 0 pay, .observe 0 (login (second 0)), .observe 0 (login (second 20))]
    let s : Space := .ofEvents [login (second 20), pay, login (second 0), login (second 20)] .empty
    let shares : VectorOptions := ⟨.shares, 0⟩
    ∃ w, (after ops)[0]? = some s ∧ Window.between (second 10) (second 20) = .ok w ∧
      s.vectorBetween (second 10) (second 20) shares = (s.filtered w).vectorAs shares ∧
      (s.filtered w).events = [login (second 20), pay, login (second 20)] ∧
      s.vectorBetween (second 0) (second 20) none = s.vectorAs none ∧
      s.vectorBetween (second 20) (second 10) none = .empty ∧
      s.eventsInLast 10000000000 (second 20) = [login (second 20), pay, login (second 20)] ∧
      after ops <+: after (ops ++ [.filter 0 w, .takeVector 1]) := by
  intro second login pay ops s shares
  have hs : (after ops)[0]? = some s := by rfl
  obtain ⟨hroutes, hlast, -, -, -, -, hstands⟩ := windowed_routes_agree hs (second 10) (second 20)
    (second 20) 10000000000 (some shares)
  obtain ⟨w, hw, hvector, hevents, -⟩ := hroutes (by decide)
  obtain ⟨-, -, hcovers, -⟩ := windowed_routes_agree hs (second 0) (second 20) (second 20) 0 none
  obtain ⟨-, -, -, -, hnothing, -⟩ := windowed_routes_agree hs (second 20) (second 10) (second 0) 0
    none
  refine ⟨w, hs, hw, hvector, ?_, (hcovers ?_).1, (hnothing (by decide)).1, ?_, ?_⟩
  · rw [← hevents]
    decide
  · decide
  · rw [hlast]
    decide
  · exact hstands w shares _ (.tail _ (.tail _ (.tail _ (.head _))))

end Space

end IntentGate
