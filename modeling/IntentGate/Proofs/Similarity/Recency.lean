import IntentGate.Proofs.Time.Ticks
import IntentGate.Similarity
import Mathlib.Data.List.Basic
import Mathlib.Data.List.Induction

/-!
# What decay looks at

A score that forgets with time looks at a space for one thing only: the latest time of each
dimension (`IsLatest`). That time is the same whichever way the events are ordered, and is not moved
by further events that are no later. `inPasses` computes the score in the plainest way, with a table
of times that each event is entered in and with sums that each embedding is added to, and comes to
the same (`inPasses_eq`), bit for bit.
-/

namespace IntentGate.Similarity

/-! ## Latest times -/

/-- An event of the dimension has this time, and none has a later one. -/
structure IsLatest (events : List Event) (dimension : String) (t : Instant) : Prop where
  attained : ∃ e ∈ events, e.dimension = dimension ∧ e.occurredAt = t
  le : ∀ e ∈ events, e.dimension = dimension → e.occurredAt ≤ t

variable {events events' : List Event} {dimension : String} {t u : Instant}

theorem IsLatest.unique (ht : IsLatest events dimension t) (hu : IsLatest events dimension u) :
    t = u := by
  obtain ⟨e, he, hdimension, rfl⟩ := ht.attained
  obtain ⟨e', he', hdimension', rfl⟩ := hu.attained
  exact Instant.le_antisymm (hu.le e he hdimension) (ht.le e' he' hdimension')

theorem latest?_eq_some_iff : latest? events dimension = some t ↔ IsLatest events dimension t := by
  have hmem (u : Instant) :
      u ∈ (events.filter fun e => e.dimension == dimension).map Event.occurredAt ↔
        ∃ e ∈ events, e.dimension = dimension ∧ e.occurredAt = u := by
    simp [and_assoc]
  unfold latest?
  generalize (events.filter fun e => e.dimension == dimension).map Event.occurredAt = times at hmem
  cases times with
  | nil =>
    refine iff_of_false nofun fun ht => ?_
    cases (hmem t).2 ht.attained
  | cons v vs =>
    obtain ⟨hlast, hbound⟩ := Instant.foldl_later v vs
    have hlatest : IsLatest events dimension (vs.foldl Instant.later v) :=
      ⟨(hmem _).1 hlast, fun e he hdimension => hbound _ ((hmem _).2 ⟨e, he, hdimension, rfl⟩)⟩
    rw [Option.some.injEq]
    constructor
    · rintro rfl
      exact hlatest
    · exact hlatest.unique

theorem latest?_congr
    (h : ∀ t, IsLatest events dimension t ↔ IsLatest events' dimension t) :
    latest? events dimension = latest? events' dimension := by
  apply Option.ext
  intro t
  rw [latest?_eq_some_iff, latest?_eq_some_iff, h]

theorem isSome_latest?_iff :
    (latest? events dimension).isSome = true ↔ ∃ e ∈ events, e.dimension = dimension := by
  rw [Option.isSome_iff_exists]
  constructor
  · rintro ⟨t, ht⟩
    obtain ⟨e, he, hdimension, -⟩ := (latest?_eq_some_iff.1 ht).attained
    exact ⟨e, he, hdimension⟩
  · rintro ⟨e, he, hdimension⟩
    unfold latest?
    have hmem : e.occurredAt ∈
        (events.filter fun e => e.dimension == dimension).map Event.occurredAt :=
      List.mem_map_of_mem (List.mem_filter.2 ⟨he, beq_iff_eq.2 hdimension⟩)
    generalize (events.filter fun e => e.dimension == dimension).map Event.occurredAt = times
      at hmem ⊢
    cases times with
    | nil => cases hmem
    | cons v vs => exact ⟨_, rfl⟩

/-- Neither their order nor further events that are no later move the latest times. -/
theorem isLatest_iff_of_perm {extra : List Event} (hperm : events'.Perm (events ++ extra))
    (hextra : ∀ e ∈ extra, ∃ t, IsLatest events e.dimension t ∧ e.occurredAt ≤ t) :
    IsLatest events dimension t ↔ IsLatest events' dimension t := by
  have hmem {e : Event} : e ∈ events' ↔ e ∈ events ∨ e ∈ extra := by
    rw [hperm.mem_iff, List.mem_append]
  constructor
  · intro ht
    obtain ⟨e, he, hfirst⟩ := ht.attained
    refine ⟨⟨e, hmem.2 (.inl he), hfirst⟩, fun e' he' hdimension => ?_⟩
    rcases hmem.1 he' with he' | he'
    · exact ht.le e' he' hdimension
    · obtain ⟨u, hu, hle⟩ := hextra e' he'
      rw [hdimension] at hu
      rw [ht.unique hu]
      exact hle
  · intro ht
    refine ⟨?_, fun e he => ht.le e (hmem.2 (.inl he))⟩
    obtain ⟨e, he, rfl, rfl⟩ := ht.attained
    rcases hmem.1 he with he | he
    · exact ⟨e, he, rfl, rfl⟩
    · obtain ⟨u, hu, hle⟩ := hextra e he
      -- the event that is latest without the further ones is none of those, and not later than them
      obtain ⟨e', he', hdimension, rfl⟩ := hu.attained
      have hge := ht.le e' (hmem.2 (.inl he')) hdimension
      exact ⟨e', he', hdimension, Instant.le_antisymm hge hle⟩

/-! ## In two passes -/

/-- The times of dimensions, with an event entered. -/
def enterTime (times : Dict Instant) (e : Event) : Dict Instant :=
  times.insert e.dimension <|
    match times.get? e.dimension with
    | some t => t.later e.occurredAt
    | none => e.occurredAt

/-- The sums of weighted scores and of weights, with an embedding added if its source has a time. -/
def addDecayed (halfLife : Span) (reference : Instant) (times : Dict Instant) (sums : Float × Float)
    (e : Embedding Float) : Float × Float :=
  match times.get? e.source with
  | some t =>
    let factor := decayFactor halfLife (reference.since t)
    (sums.1 + e.score * factor, sums.2 + factor)
  | none => sums

/-- The decayed score, with one pass over the events and one over the embeddings. -/
def inPasses (halfLife : Span) (reference : Instant) (events : List Event)
    (es : List (Embedding Float)) : Float :=
  if es.isEmpty || events.isEmpty then 0
  else
    let times := events.foldl enterTime .empty
    let sums := es.foldl (addDecayed halfLife reference times) (0, 0)
    if 0 < sums.2 then sums.1 / sums.2 else 0

theorem latest?_append_singleton (e : Event) :
    latest? (events ++ [e]) dimension =
      if dimension = e.dimension then
        some (match latest? events dimension with
          | some t => t.later e.occurredAt
          | none => e.occurredAt)
      else latest? events dimension := by
  unfold latest?
  rw [List.filter_append, List.map_append]
  by_cases h : dimension = e.dimension
  · subst h
    have hkept : [e].filter (fun e' => e'.dimension == e.dimension) = [e] := by simp
    rw [if_pos rfl, hkept]
    cases (events.filter fun e' => e'.dimension == e.dimension).map Event.occurredAt with
    | nil => rfl
    | cons v vs => simp
  · have hdropped : [e].filter (fun e' => e'.dimension == dimension) = [] := by
      simpa using Ne.symm h
    rw [if_neg h, hdropped, List.map_nil, List.append_nil]

theorem get?_foldl_enterTime (events : List Event) (dimension : String) :
    (events.foldl enterTime .empty).get? dimension = latest? events dimension := by
  induction events using List.reverseRecOn generalizing dimension with
  | nil => rfl
  | append_singleton events e ih =>
    rw [List.foldl_append, latest?_append_singleton, List.foldl_cons, List.foldl_nil, enterTime,
      Dict.get?_insert]
    split
    · next h =>
      subst h
      rw [ih]
    · exact ih dimension

theorem foldl_addDecayed (halfLife : Span) (reference : Instant) (events : List Event)
    (es : List (Embedding Float)) :
    es.foldl (addDecayed halfLife reference (events.foldl enterTime .empty)) (0, 0) =
      Scalar.weightedSums (decayedPairs halfLife reference events es) := by
  unfold decayedPairs Scalar.weightedSums
  rw [List.foldl_filterMap]
  congr 1
  funext sums e
  unfold addDecayed
  rw [get?_foldl_enterTime]
  cases latest? events e.source <;> rfl

theorem decayedPairs_eq_nil (halfLife : Span) (reference : Instant) {es : List (Embedding Float)}
    (h : es = [] ∨ events = []) : decayedPairs halfLife reference events es = [] := by
  rcases h with rfl | rfl
  · rfl
  · unfold decayedPairs
    rw [List.filterMap_eq_nil_iff]
    intro e _
    rfl

/-- The two passes come to the decayed score. -/
theorem inPasses_eq (halfLife : Span) (reference : Instant) (events : List Event)
    (es : List (Embedding Float)) :
    inPasses halfLife reference events es = decayedScore halfLife reference events es := by
  unfold inPasses decayedScore
  split
  · next hempty =>
    rw [Bool.or_eq_true, List.isEmpty_iff, List.isEmpty_iff] at hempty
    rw [decayedPairs_eq_nil halfLife reference hempty]
    decide +kernel
  · dsimp only
    rw [foldl_addDecayed, Scalar.weightedMean?]
    generalize Scalar.weightedSums (decayedPairs halfLife reference events es) = sums
    change _ = (if decide (0 < sums.2) = true then some (sums.1 / sums.2) else none).getD 0
    simp only [decide_eq_true_eq]
    split <;> rfl

/-! ## Scores -/

/-- Embeddings whose source is no dimension of the events add nothing. -/
theorem decayedPairs_filter (halfLife : Span) (reference : Instant) (events : List Event)
    (es : List (Embedding Float)) :
    decayedPairs halfLife reference events
        (es.filter fun e => e.source ∈ events.map Event.dimension) =
      decayedPairs halfLife reference events es := by
  unfold decayedPairs
  rw [List.filterMap_filter]
  apply List.filterMap_congr
  intro e _
  split
  · rfl
  · next hunmatched =>
    have hnone : latest? events e.source = none := by
      rw [← Option.not_isSome_iff_eq_none, isSome_latest?_iff]
      rintro ⟨e', he', hsource⟩
      exact hunmatched (decide_eq_true (hsource ▸ List.mem_map_of_mem he'))
    rw [hnone]
    rfl

/-- With a reference of its own, a score that forgets with time does not read the wall clock, and is
that by age at the reference. -/
theorem timeAwareScore?_of_reference (halfLife : Span) (reference : Instant) (events : List Event)
    (es : List (Embedding Float)) :
    (timeDecay halfLife (some reference)).timeAwareScore? events es =
      some (pure (decayedScore halfLife reference events es)) := by
  refine congrArg some ?_
  unfold decayedScoreNow
  split
  · next hempty => rw [← inPasses_eq, inPasses, if_pos hempty]
  · rfl

/-- With a reference of its own, a score that forgets with time is that of two passes, whatever the
wall clock shows, which is not read. It is the same for all spaces whose dimensions have the same
latest times, so also if the events are put in another order and if further events come in between
that are no later than the latest of their dimension. Embeddings whose source is no dimension of the
space can be left out, and where these are all there are the score is zero. -/
theorem decayed_by_latest_times (halfLife : Span) (reference : Instant) (s s' : Space)
    (es : List (Embedding Float)) :
    let rule : Similarity Float := .timeDecay halfLife (some reference)
    let score := rule.timeAwareScore? s.events es
    let matched := es.filter fun e => e.source ∈ s.dimensions
    score = some (pure (inPasses halfLife reference s.events es)) ∧
    ((∀ dimension t, IsLatest s.events dimension t ↔ IsLatest s'.events dimension t) →
      rule.timeAwareScore? s'.events es = score) ∧
    (∀ extra, s'.events.Perm (s.events ++ extra) →
      (∀ e ∈ extra, ∃ t, IsLatest s.events e.dimension t ∧ e.occurredAt ≤ t) →
      rule.timeAwareScore? s'.events es = score) ∧
    rule.timeAwareScore? s.events matched = score ∧ (matched = [] → score = some (pure 0)) := by
  intro rule score matched
  have hscore (events : List Event) (es : List (Embedding Float)) :
      rule.timeAwareScore? events es = some (pure (decayedScore halfLife reference events es)) :=
    timeAwareScore?_of_reference halfLife reference events es
  have hcongr (h : ∀ dimension t, IsLatest s.events dimension t ↔ IsLatest s'.events dimension t) :
      rule.timeAwareScore? s'.events es = score := by
    have hlatest : latest? s'.events = latest? s.events := by
      funext dimension
      exact (latest?_congr (h dimension)).symm
    change _ = rule.timeAwareScore? s.events es
    rw [hscore, hscore]
    unfold decayedScore decayedPairs
    rw [hlatest]
  have hmatched : rule.timeAwareScore? s.events matched = score := by
    have hpairs : decayedPairs halfLife reference s.events matched =
        decayedPairs halfLife reference s.events es := decayedPairs_filter ..
    change _ = rule.timeAwareScore? s.events es
    rw [hscore, hscore, decayedScore, hpairs, decayedScore]
  refine ⟨?_, hcongr, ?_, hmatched, ?_⟩
  · change rule.timeAwareScore? s.events es = _
    rw [hscore, inPasses_eq]
  · intro extra hperm hextra
    exact hcongr fun _ _ => isLatest_iff_of_perm hperm hextra
  · intro hnone
    rw [← hmatched, hnone]
    rfl

/-- The second space has the events the other way round, with an earlier one of the same dimension
between them, and the third embedding has a source that no event has. -/
theorem decayed_by_latest_times_of_login :
    let early : Instant := ⟨900, 0, by decide, by decide, by decide⟩
    let late : Instant := ⟨1000, 0, by decide, by decide, by decide⟩
    let rule : Similarity Float := .timeDecay (Span.ofSeconds 100) (some late)
    let s : Space := .ofEvents [⟨"u", "retry", early, .empty⟩, ⟨"u", "login", late, .empty⟩] .empty
    let s' : Space := .ofEvents [⟨"u", "login", late, .empty⟩, ⟨"u", "login", early, .empty⟩,
      ⟨"u", "retry", early, .empty⟩] .empty
    let ghost : Embedding Float := ⟨"ghost:key", 1, none⟩
    let es : List (Embedding Float) := [⟨"u:login", 0.3, none⟩, ⟨"u:retry", 0.9, none⟩]
    rule.timeAwareScore? s'.events (ghost :: es) = rule.timeAwareScore? s.events (ghost :: es) ∧
      rule.timeAwareScore? s.events es = rule.timeAwareScore? s.events (ghost :: es) ∧
      rule.timeAwareScore? s.events [ghost] = some (pure 0) := by
  intro early late rule s s' ghost es
  obtain ⟨-, -, hperm, hmatched, -⟩ := decayed_by_latest_times (Span.ofSeconds 100) late s s'
    (ghost :: es)
  obtain ⟨-, -, -, -, hnone⟩ := decayed_by_latest_times (Span.ofSeconds 100) late s s' [ghost]
  have hlogin : IsLatest s.events "u:login" late := latest?_eq_some_iff.1 (by decide +kernel)
  have hkept : (ghost :: es).filter (fun e => e.source ∈ s.dimensions) = es := by decide +kernel
  have hghost : [ghost].filter (fun e => e.source ∈ s.dimensions) = [] := by decide +kernel
  rw [hkept] at hmatched
  have hturned : s'.events.Perm (s.events ++ [⟨"u", "login", early, .empty⟩]) :=
    List.perm_append_singleton (⟨"u", "retry", early, .empty⟩ : Event)
      [⟨"u", "login", late, .empty⟩, ⟨"u", "login", early, .empty⟩]
  refine ⟨hperm _ hturned fun e he => ?_, hmatched, hnone hghost⟩
  obtain rfl := List.mem_singleton.1 he
  exact ⟨late, hlogin, by decide⟩

end IntentGate.Similarity
