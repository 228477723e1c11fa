import IntentGate.Proofs.Behavior.Coherence
import IntentGate.Proofs.Text.Parts

/-!
# Which pairs share a dimension

The dimension of an event is its actor and action with a colon between them, and both may hold
colons themselves. So two pairs share a dimension exactly if one actor goes on, behind a colon, with
a text that opens the other action (`dimension_eq_iff`). Where no two observed events are related
like that, the vector has one dimension for each observed pair and counts the events of the pair
there; where two are, it has fewer and counts more.
-/

namespace IntentGate

namespace Event

/-- The actor and action of an event. -/
def pair (e : Event) : String × String :=
  (e.actor, e.action)

/-- `f`'s actor is `e`'s with a colon and some text behind it, and `e`'s action is `f`'s with that
text and a colon before it. -/
def Straddles (e f : Event) : Prop :=
  ∃ x, f.actor = e.actor ++ ":" ++ x ∧ e.action = x ++ ":" ++ f.action

/-- The dimension of a pair. -/
def join (p : String × String) : String :=
  p.1 ++ ":" ++ p.2

theorem dimension_eq_join (e : Event) : e.dimension = join e.pair :=
  rfl

theorem Straddles.dimension_eq {e f : Event} (h : e.Straddles f) : e.dimension = f.dimension := by
  obtain ⟨x, hactor, haction⟩ := h
  simp only [dimension, hactor, haction, String.append_assoc]

/-- The actors differ, one being longer. -/
theorem Straddles.pair_ne {e f : Event} (h : e.Straddles f) : e.pair ≠ f.pair := by
  obtain ⟨x, hactor, -⟩ := h
  intro heq
  have hlength := congrArg (fun p : String × String => p.1.length) heq
  simp only [pair, hactor, String.length_append] at hlength
  have hcolon : ":".length = 1 := rfl
  omega

theorem straddles_of_toList {e f : Event} {x : List Char}
    (hactor : f.actor.toList = e.actor.toList ++ ':' :: x)
    (haction : e.action.toList = x ++ ':' :: f.action.toList) : e.Straddles f := by
  refine ⟨String.ofList x, String.toList_inj.1 ?_, String.toList_inj.1 ?_⟩
  · simpa using hactor
  · simpa using haction

/-- Two events share a dimension exactly if their pairs are the same or one straddles the other. -/
theorem dimension_eq_iff (e f : Event) :
    e.dimension = f.dimension ↔ e.pair = f.pair ∨ e.Straddles f ∨ f.Straddles e := by
  constructor
  · intro h
    have hchars := congrArg String.toList h
    simp only [dimension, String.toList_append, List.append_assoc] at hchars
    rcases Text.append_cons_eq_append_cons hchars with ⟨ha, hb⟩ | ⟨x, ha, hb⟩ | ⟨x, ha, hb⟩
    · exact .inl (Prod.ext (String.toList_inj.1 ha) (String.toList_inj.1 hb))
    · exact .inr (.inl (straddles_of_toList ha hb))
    · exact .inr (.inr (straddles_of_toList ha hb))
  · rintro (h | h | h)
    · rw [dimension_eq_join, h, dimension_eq_join]
    · exact h.dimension_eq
    · exact h.dimension_eq.symm

end Event

namespace Space

/-- The space in which some events have been observed. -/
def observed (es : List Event) : Space :=
  es.foldl observe empty

theorem observed_append_singleton (es : List Event) (e : Event) :
    observed (es ++ [e]) = (observed es).observe e := by
  rw [observed, List.foldl_append]
  rfl

theorem events_observed (es : List Event) : (observed es).events = es := by
  induction es using List.reverseRecOn with
  | nil => rfl
  | append_singleton es e ih => rw [observed_append_singleton, observe, ih]

theorem coherent_observed (es : List Event) : (observed es).Coherent := by
  cases es using List.reverseRecOn with
  | nil => exact .inl rfl
  | append_singleton es e =>
    rw [observed_append_singleton]
    exact .inl rfl

/-- No observed event straddles another one. -/
def Apart (es : List Event) : Prop :=
  ∀ e ∈ es, ∀ f ∈ es, ¬e.Straddles f

theorem vector_observed (es : List Event) :
    (observed es).toVector.1 = BehaviorVector.ofKeys (es.map Event.dimension) := by
  change (observed es).vector = _
  rw [(coherent_observed es).vector_eq, counts, dimensions, events_observed]

/-- Events are apart exactly if those of one dimension are of one pair. -/
theorem apart_iff (es : List Event) :
    Apart es ↔ ∀ e ∈ es, ∀ f ∈ es, e.dimension = f.dimension → e.pair = f.pair := by
  constructor
  · intro h e he f hf hdimension
    rcases (Event.dimension_eq_iff e f).1 hdimension with hpair | hef | hfe
    · exact hpair
    · exact (h e he f hf hef).elim
    · exact (h f hf e he hfe).elim
  · intro h e he f hf hstraddles
    exact hstraddles.pair_ne (h e he f hf hstraddles.dimension_eq)

instance (es : List Event) : Decidable (Apart es) :=
  decidable_of_iff _ (apart_iff es).symm

theorem injOn_join_iff (es : List Event) :
    Set.InjOn Event.join ((es.map Event.pair).toFinset : Set (String × String)) ↔ Apart es := by
  rw [apart_iff]
  simp only [Set.InjOn, List.coe_toFinset, Set.mem_ofPred_eq, List.mem_map]
  constructor
  · intro h e he f hf hdimension
    exact h ⟨e, he, rfl⟩ ⟨f, hf, rfl⟩ hdimension
  · rintro h _ ⟨e, he, rfl⟩ _ ⟨f, hf, rfl⟩ hjoin
    exact h e he f hf hjoin

theorem size_eq_card_image (es : List Event) :
    (BehaviorVector.ofKeys (es.map Event.dimension)).size =
      ((es.map Event.pair).toFinset.image Event.join).card := by
  rw [BehaviorVector.size_ofKeys, ← List.card_toFinset]
  congr 1
  ext key
  simp [Event.dimension_eq_join]

/-- There are never more dimensions than pairs, and as many exactly if no event straddles
another. -/
theorem size_vector (es : List Event) :
    (observed es).toVector.1.size ≤ (es.map Event.pair).dedup.length ∧
      ((observed es).toVector.1.size = (es.map Event.pair).dedup.length ↔ Apart es) := by
  rw [vector_observed, size_eq_card_image, ← List.card_toFinset, Finset.card_image_iff,
    injOn_join_iff]
  exact ⟨Finset.card_image_le, Iff.rfl⟩

/-- As many members pass a test as pass a weaker one exactly if none passes only the weaker one. -/
theorem countP_eq_countP_iff {α : Type} {p q : α → Bool} (himp : ∀ a, p a = true → q a = true)
    (l : List α) : l.countP q = l.countP p ↔ ∀ a ∈ l, q a = true → p a = true := by
  induction l with
  | nil => simp
  | cons a l ih =>
    have hle : l.countP p ≤ l.countP q := List.countP_mono_left fun a _ => himp a
    rw [List.forall_mem_cons, ← ih, List.countP_cons, List.countP_cons]
    cases hp : p a with
    | true => simp [himp a hp]
    | false =>
      cases hq : q a with
      | true =>
        simp only [if_true, if_false, Bool.false_eq_true, imp_false, not_true, false_and, iff_false]
        omega
      | false => simp

section Values

variable {es : List Event} (hlt : es.length < 2 ^ 53)

include hlt

theorem get?_vector_observed {e : Event} (he : e ∈ es) :
    (observed es).toVector.1.get? e.dimension =
      some (Float.ofNat (es.countP fun f => f.dimension == e.dimension)) := by
  have hcounts := countsEvents_counts (observed es)
  rw [events_observed] at hcounts
  change (observed es).vector.get? e.dimension = _
  rw [(coherent_observed es).vector_eq]
  exact hcounts.value hlt e he

/-- The value at a dimension, zero without one, is the number of its events. -/
theorem value_vector_observed (e : Event) :
    ((observed es).toVector.1.get? e.dimension).getD 0 =
      Float.ofNat (es.countP fun f => f.dimension == e.dimension) := by
  by_cases h : ∃ f ∈ es, f.dimension = e.dimension
  · obtain ⟨f, hf, hdimension⟩ := h
    rw [← hdimension, get?_vector_observed hlt hf]
    rfl
  · have hnone : e.dimension ∉ es.map Event.dimension := fun hmem => h (List.mem_map.1 hmem)
    have hzero : es.countP (fun f => f.dimension == e.dimension) = 0 := by
      refine List.countP_eq_zero.2 fun f hf hdimension => h ⟨f, hf, ?_⟩
      exact beq_iff_eq.1 hdimension
    rw [vector_observed, BehaviorVector.get?_ofKeys, if_neg hnone, hzero]
    rfl

/-- The value at the dimension of a pair is the number of its events exactly if no observed event
straddles the pair or is straddled by it. -/
theorem value_vector_eq_count_iff (e : Event) :
    ((observed es).toVector.1.get? e.dimension).getD 0 =
        Float.ofNat (es.countP fun f => f.pair == e.pair) ↔
      ∀ f ∈ es, ¬e.Straddles f ∧ ¬f.Straddles e := by
  have himp (f : Event) (h : (f.pair == e.pair) = true) : (f.dimension == e.dimension) = true := by
    rw [beq_iff_eq] at h ⊢
    exact (Event.dimension_eq_iff f e).2 (.inl h)
  have hbound (p : Event → Bool) : es.countP p < 2 ^ 53 :=
    Nat.lt_of_le_of_lt List.countP_le_length hlt
  have hcount : Float.ofNat (es.countP fun f => f.dimension == e.dimension) =
      Float.ofNat (es.countP fun f => f.pair == e.pair) ↔
      (es.countP fun f => f.dimension == e.dimension) = es.countP fun f => f.pair == e.pair :=
    ⟨fun h => Double.ofNat_injective (hbound _) (hbound _) h, fun h => by rw [h]⟩
  rw [value_vector_observed hlt, hcount, countP_eq_countP_iff himp]
  refine forall₂_congr fun f _ => ?_
  rw [beq_iff_eq, beq_iff_eq, Event.dimension_eq_iff f e]
  constructor
  · intro h
    exact ⟨fun hef => hef.pair_ne (h (.inr (.inr hef))).symm,
      fun hfe => hfe.pair_ne (h (.inr (.inl hfe)))⟩
  · rintro ⟨hef, hfe⟩ (h | h | h)
    · exact h
    · exact (hfe h).elim
    · exact (hef h).elim

end Values

/-- Where no two observed pairs are the same and none straddles another, every event has a dimension
to itself. -/
theorem get?_vector_of_nodup {es : List Event} (hlt : es.length < 2 ^ 53) (hapart : Apart es)
    (hnodup : (es.map Event.pair).Nodup) {e : Event} (he : e ∈ es) :
    (observed es).toVector.1.get? e.dimension = some 1 := by
  have hone : (es.countP fun f => f.pair == e.pair) = 1 := by
    have hcount : es.countP (fun f => f.pair == e.pair) = (es.map Event.pair).count e.pair := by
      rw [List.count, List.countP_map]
      rfl
    rw [hcount]
    exact List.count_eq_one_of_mem hnodup (List.mem_map_of_mem he)
  have hvalue := (value_vector_eq_count_iff hlt e).2 fun f hf =>
    ⟨hapart e he f hf, hapart f hf e he⟩
  rw [get?_vector_observed hlt he, hone] at hvalue
  rw [get?_vector_observed hlt he]
  exact congrArg some hvalue

/-- The vector has one dimension for each observed pair exactly if no observed event straddles
another, and the value at the dimension of a pair is the number of its events exactly if no observed
event straddles the pair or is straddled by it. Pairwise distinct pairs that are apart have a
dimension with the value one each. -/
theorem vector_separates_pairs_iff {es : List Event} (hlt : es.length < 2 ^ 53) :
    ((observed es).toVector.1.size = (es.map Event.pair).dedup.length ↔ Apart es) ∧
    (∀ e : Event, ((observed es).toVector.1.get? e.dimension).getD 0 =
        Float.ofNat (es.countP fun f => f.pair == e.pair) ↔
      ∀ f ∈ es, ¬e.Straddles f ∧ ¬f.Straddles e) ∧
    (Apart es → (es.map Event.pair).Nodup → (observed es).toVector.1.size = es.length ∧
      ∀ e ∈ es, (observed es).toVector.1.get? e.dimension = some 1) := by
  refine ⟨(size_vector es).2, value_vector_eq_count_iff hlt, fun hapart hnodup => ⟨?_, ?_⟩⟩
  · rw [(size_vector es).2.2 hapart, hnodup.dedup, List.length_map]
  · intro e he
    exact get?_vector_of_nodup hlt hapart hnodup he

/-- The actor `a:b` with the action `c` and the actor `a` with the action `b:c` are two pairs on one
dimension, whose value counts both. -/
theorem vector_merges_straddling_pairs :
    (([⟨"a:b", "c", default, .empty⟩, ⟨"a", "b:c", default, .empty⟩] : List Event).map
        Event.pair).Nodup ∧
      (observed [⟨"a:b", "c", default, .empty⟩,
        ⟨"a", "b:c", default, .empty⟩]).toVector.1.size = 1 ∧
      (observed [⟨"a:b", "c", default, .empty⟩,
        ⟨"a", "b:c", default, .empty⟩]).toVector.1.get? "a:b:c" = some 2 := by
  decide +kernel

/-- Colons alone do no harm. -/
theorem vector_separates_colons :
    (observed [⟨"a", "b:c", default, .empty⟩, ⟨"a:b", "d", default, .empty⟩]).toVector.1.size = 2 ∧
      ∀ e ∈ ([⟨"a", "b:c", default, .empty⟩, ⟨"a:b", "d", default, .empty⟩] : List Event),
        (observed [⟨"a", "b:c", default, .empty⟩,
          ⟨"a:b", "d", default, .empty⟩]).toVector.1.get? e.dimension = some 1 :=
  (vector_separates_pairs_iff (by decide)).2.2 (by decide +kernel) (by decide)

end Space

end IntentGate
