import IntentGate.Proofs.Behavior.Coherence
import IntentGate.Proofs.Inference.Slot
import IntentGate.Proofs.Json.RoundTrip
import Mathlib.Data.List.Induction

/-!
# Restoring snapshots

A snapshot is read back member by member: each kind of value is read from what it was written as
exactly if the numbers in it are finite, since all others are written as null (`ofJson?_toJson` of
tags, events and spaces). Two fields of the tree are left out, dictionaries without entries and the
slot; an absent dictionary is read as the empty one, and an absent slot is empty. What texts of
numbers and of times read as is not proved here but taken for the ones that occur
(`NumbersReadBack`).
-/

namespace IntentGate

/-! ## Dictionaries -/

namespace Dict

variable {α : Type}

theorem insertEntry_eq_append {key : String} {value : α} {es : List (String × α)}
    (h : ∀ e ∈ es, e.1 < key) : insertEntry key value es = es ++ [(key, value)] := by
  induction es with
  | nil => rfl
  | cons e es ih =>
    obtain ⟨he, hes⟩ := List.forall_mem_cons.1 h
    have hne : key ≠ e.1 := fun heq => String.lt_irrefl _ (heq ▸ he)
    have hnlt : ¬key < e.1 := fun hlt => String.lt_irrefl _ (String.lt_trans hlt he)
    rw [insertEntry, if_neg hnlt, if_neg hne, ih hes, List.cons_append]

theorem entries_ofList {es : List (String × α)} (h : es.Pairwise fun a b => a.1 < b.1) :
    (ofList es).entries = es := by
  induction es using List.reverseRecOn with
  | nil => rfl
  | append_singleton es e ih =>
    obtain ⟨hes, -, hlast⟩ := List.pairwise_append.1 h
    have hinsert : ofList (es ++ [e]) = (ofList es).insert e.1 e.2 := by
      rw [ofList, List.foldl_append]
      rfl
    rw [hinsert]
    change insertEntry e.1 e.2 (ofList es).entries = _
    rw [ih hes]
    exact insertEntry_eq_append fun a ha => hlast a ha e List.mem_cons_self

/-- A dictionary is made of its entries. -/
theorem ofList_entries (d : Dict α) : ofList d.entries = d :=
  ext_entries (entries_ofList d.ascending)

end Dict

/-! ## Reading what was written -/

section Writing

variable {α τ : Type} {write : α → τ} {read : τ → Option α} {p : α → Prop} [DecidablePred p]

/-- A list is read back exactly if all of its members are. -/
theorem mapM_map_eq_ite {xs : List α}
    (h : ∀ x ∈ xs, read (write x) = if p x then some x else none) :
    (xs.map write).mapM read = if ∀ x ∈ xs, p x then some xs else none := by
  induction xs with
  | nil =>
    rw [if_pos nofun]
    rfl
  | cons x xs ih =>
    obtain ⟨hx, hxs⟩ := List.forall_mem_cons.1 h
    rw [List.map_cons, List.mapM_cons, hx, ih hxs]
    simp only [List.forall_mem_cons]
    by_cases hp : p x
    · by_cases hps : ∀ x ∈ xs, p x
      · rw [if_pos hp, if_pos hps, if_pos ⟨hp, hps⟩]
        rfl
      · rw [if_pos hp, if_neg hps, if_neg (not_and_of_not_right _ hps)]
        rfl
    · rw [if_neg hp, if_neg (not_and_of_not_left _ hp)]
      rfl

end Writing

namespace Json

variable {α : Type} {write : α → Json} {read : Json → Option α} {p : α → Prop} [DecidablePred p]

theorem toDict?_ofDict (h : ∀ a, read (write a) = if p a then some a else none) (d : Dict α) :
    toDict? read (ofDict write d) = if ∀ a ∈ d.values, p a then some d else none := by
  have hentries : (d.entries.map fun e => (e.1, write e.2)).mapM
      (fun f => (read f.2).map fun v => (f.1, v)) =
      if ∀ e ∈ d.entries, p e.2 then some d.entries else none := by
    refine mapM_map_eq_ite fun e _ => ?_
    rw [h]
    split <;> rfl
  change Option.map Dict.ofList _ = _
  rw [hentries]
  simp only [Dict.values, List.forall_mem_map]
  split
  · exact congrArg some d.ofList_entries
  · rfl

/-- What a document gives for a dictionary field: an empty dictionary is left out. -/
def dictSlot (write : α → Json) (d : Dict α) : Slot Json :=
  if d.isEmpty then .absent else .given (ofDict write d)

/-- A dictionary that is left out is empty. -/
theorem withDefault_dictSlot (h : ∀ a, read (write a) = if p a then some a else none)
    (d : Dict α) :
    (dictSlot write d).withDefault Dict.empty (toDict? read) =
      if ∀ a ∈ d.values, p a then some d else none := by
  unfold dictSlot
  cases hempty : d.isEmpty with
  | false =>
    rw [if_neg Bool.false_ne_true]
    exact toDict?_ofDict h d
  | true =>
    obtain rfl : d = Dict.empty := Dict.ext_entries (List.isEmpty_iff.1 hempty)
    rw [if_pos rfl, if_pos nofun]
    rfl

end Json

namespace Tag

/-- A number is finite. -/
def Finite : Tag → Prop
  | number x => x.isFinite = true
  | _ => True

instance : DecidablePred Finite
  | number x => inferInstanceAs (Decidable (x.isFinite = true))
  | text _ | flag _ => .isTrue trivial

theorem ofJson?_toJson (t : Tag) : ofJson? t.toJson = if t.Finite then some t else none := by
  cases t with
  | text s => rfl
  | flag b => rfl
  | number x =>
    by_cases hx : x.isFinite = true
    · rw [toJson, Json.ofFloat, if_pos hx]
      exact (if_pos hx).symm
    · rw [toJson, Json.ofFloat, if_neg hx]
      exact (if_neg hx).symm

end Tag

namespace Event

theorem slots?_toJson (e : Event) :
    e.toJson.slots? fieldNames = some [.given (.text e.actor), .given (.text e.action),
      .given e.occurredAt.toJson, Json.dictSlot Tag.toJson e.tags] := by
  unfold toJson Json.dictField Json.dictSlot
  cases e.tags.isEmpty <;> rfl

theorem ofJson?_of_slots {j time : Json} {actor action : String} {tags : Slot Json}
    (h : j.slots? fieldNames =
      some [.given (.text actor), .given (.text action), .given time, tags]) :
    ofJson? j = (Instant.ofJson? time).bind fun occurredAt =>
      (tags.withDefault Dict.empty (Json.toDict? Tag.ofJson?)).bind fun tags =>
        some ⟨actor, action, occurredAt, tags⟩ := by
  rw [ofJson?, h]
  rfl

/-- An event is read back if its time is and its numbers are finite. -/
theorem ofJson?_toJson {e : Event} (htime : Instant.ofJson? e.occurredAt.toJson = some e.occurredAt) :
    ofJson? e.toJson = if ∀ t ∈ e.tags.values, t.Finite then some e else none := by
  rw [ofJson?_of_slots e.slots?_toJson, htime, Json.withDefault_dictSlot Tag.ofJson?_toJson]
  split <;> rfl

end Event

namespace Space

/-- All tags of the space and of its events. -/
def tagValues (s : Space) : List Tag :=
  s.tags.values ++ s.events.flatMap fun e => e.tags.values

theorem slots?_toJson (s : Space) :
    s.toJson.slots? ["events", "metadata"] =
      some [.given (.array (s.events.map Event.toJson)), Json.dictSlot Tag.toJson s.tags] := by
  unfold toJson Json.dictField Json.dictSlot
  cases s.tags.isEmpty <;> rfl

theorem ofJson?_toJson {s : Space}
    (htimes : ∀ e ∈ s.events, Instant.ofJson? e.occurredAt.toJson = some e.occurredAt) :
    ofJson? s.toJson =
      if ∀ t ∈ s.tagValues, t.Finite then some (ofEvents s.events s.tags) else none := by
  have hevents := mapM_map_eq_ite fun e he => Event.ofJson?_toJson (htimes e he)
  rw [ofJson?, slots?_toJson]
  change ((s.events.map Event.toJson).mapM Event.ofJson?).bind (fun events =>
    ((Json.dictSlot Tag.toJson s.tags).withDefault Dict.empty (Json.toDict? Tag.ofJson?)).bind
      fun tags => some (ofEvents events tags)) = _
  rw [hevents, Json.withDefault_dictSlot Tag.ofJson?_toJson]
  simp only [tagValues, List.forall_mem_append, List.forall_mem_flatMap]
  by_cases hown : ∀ t ∈ s.tags.values, t.Finite
  · by_cases htheirs : ∀ e ∈ s.events, ∀ t ∈ e.tags.values, t.Finite
    · rw [if_pos hown, if_pos htheirs, if_pos ⟨hown, htheirs⟩]
      rfl
    · rw [if_neg htheirs, if_neg (not_and_of_not_right _ htheirs)]
      rfl
  · rw [if_neg hown, if_neg (not_and_of_not_left _ hown)]
    split <;> rfl

end Space

/-! ## The text -/

theorem Tag.legible_toJson {t : Tag}
    (hnumber : ∀ x, t = .number x → x.isFinite = true → (Json.ofFloat x).ReadsBack) :
    t.toJson.Legible := by
  cases t with
  | text s => exact .text s
  | flag b => exact .bool b
  | number x => exact Json.legible_ofFloat (hnumber x rfl)

/-- The numbers among some tags that are finite read back, each on its own. -/
def NumbersReadBack (tags : List Tag) : Prop :=
  ∀ x, Tag.number x ∈ tags → x.isFinite = true → (Json.ofFloat x).ReadsBack

theorem legible_ofTags {d : Dict Tag} (h : NumbersReadBack d.values) :
    (Json.ofDict Tag.toJson d).Legible := by
  refine .object fun f hf => ?_
  obtain ⟨e, he, rfl⟩ := List.mem_map.1 hf
  have hmem : e.2 ∈ d.values := List.mem_map_of_mem he
  exact Tag.legible_toJson fun x hx => h x (hx ▸ hmem)

theorem legible_tagsField {name : String} {d : Dict Tag} (h : NumbersReadBack d.values) :
    ∀ f ∈ Json.dictField name Tag.toJson d, f.2.Legible := by
  intro f hf
  unfold Json.dictField at hf
  split at hf
  · cases hf
  · obtain rfl := List.mem_singleton.1 hf
    exact legible_ofTags h

theorem Event.legible_toJson {e : Event} (h : NumbersReadBack e.tags.values) :
    e.toJson.Legible := by
  refine .object ?_
  rw [List.forall_mem_append]
  refine ⟨?_, legible_tagsField h⟩
  simp only [List.forall_mem_cons]
  exact ⟨.text e.actor, .text e.action, .text e.occurredAt.document, nofun⟩

namespace Space

theorem legible_toJson {s : Space} (h : NumbersReadBack s.tagValues) : s.toJson.Legible := by
  refine .object ?_
  rw [List.forall_mem_cons]
  refine ⟨.array fun j hj => ?_, legible_tagsField fun x hx => h x (List.mem_append_left _ hx)⟩
  obtain ⟨e, he, rfl⟩ := List.mem_map.1 hj
  refine Event.legible_toJson fun x hx => h x (List.mem_append_right _ ?_)
  exact List.mem_flatMap.2 ⟨e, he, hx⟩

theorem ofSnapshot?_snapshot {s : Space} (hnumbers : NumbersReadBack s.tagValues)
    (htimes : ∀ e ∈ s.events, Instant.ofText? e.occurredAt.document = some e.occurredAt) :
    ofSnapshot? s.snapshot =
      if ∀ t ∈ s.tagValues, t.Finite then some (ofEvents s.events s.tags) else none := by
  have hread : Json.parse? s.snapshot = some s.toJson := (legible_toJson hnumbers).readsBack
  rw [ofSnapshot?, Stored.ofText?, hread]
  refine ofJson?_toJson fun e he => ?_
  rw [Instant.ofJson?, Instant.toJson, Json.toText?, Option.bind_some]
  exact htimes e he

/-- A snapshot is restored exactly if all numbers among the tags of the space and of its events are
finite, given that the finite ones and the times read back from their own texts. The restored space
has the same events in the same order, the same tags and an empty slot; so it has the same vector,
and all inferences about it are those about the space: with no vector given whatever the leaves of
the model look at, and with any given if they do not look at the slot. -/
theorem restores_iff_finite {s : Space} (hcoherent : s.Coherent)
    (hnumbers : NumbersReadBack s.tagValues)
    (htimes : ∀ e ∈ s.events, Instant.ofText? e.occurredAt.document = some e.occurredAt) :
    ((∃ r, ofSnapshot? s.snapshot = some r) ↔
      ∀ x, Tag.number x ∈ s.tagValues → x.isFinite = true) ∧
    ∀ r, ofSnapshot? s.snapshot = some r →
      r.events = s.events ∧ r.tags = s.tags ∧ r.cached = none ∧ r.vector = s.vector ∧
      (∀ m, Model.Nested (Model.Basic fun _ => True) m → InferM.SameAbout (m none) r s) ∧
      ∀ m, Model.Nested Model.Observing m → ∀ given, InferM.SameAbout (m given) r s := by
  have hfinite : (∀ t ∈ s.tagValues, t.Finite) ↔
      ∀ x, Tag.number x ∈ s.tagValues → x.isFinite = true := by
    constructor
    · exact fun h x hx => h _ hx
    · rintro h (_ | x | _) ht
      · trivial
      · exact h x ht
      · trivial
  rw [ofSnapshot?_snapshot hnumbers htimes, ← hfinite]
  constructor
  · split
    · next h => exact iff_of_true ⟨_, rfl⟩ h
    · next h => exact iff_of_false nofun h
  · intro r hr
    split at hr <;> cases hr
    -- the restored space counts its events anew; a coherent one has these counts, cached or not
    have hvector : (ofEvents s.events s.tags).vector = s.vector := hcoherent.vector_eq.symm
    have hwarmed : (ofEvents s.events s.tags).warmed = s.warmed := by
      rw [warmed, hvector]
      rfl
    exact ⟨rfl, rfl, rfl, hvector, fun m hm => hm.ignoresSlot_none.sameAbout hwarmed,
      fun m hm given => (hm.ignoresSlot given).sameAbout hwarmed⟩

/-- Quotes, line ends and controls in texts make no difference, nor does a slot that is filled; with
an infinite number in a tag the snapshot is not restored. -/
theorem restores_iff_finite_of_quoted :
    let event (key : String) (value : Tag) : Event :=
      ⟨"a\"b", "log\n\x01in", default, Dict.empty.insert key value⟩
    let space (load : Float) : Space :=
      (ofEvents [event "load" (.number load), event "ok" (.flag true)]
        (Dict.empty.insert "note" (.text "\\"))).warmed
    (∃ r, ofSnapshot? (space 1.5).snapshot = some r ∧ r.events = (space 1.5).events ∧
      r.cached = none ∧ (space 1.5).cached = some r.vector) ∧
    ¬∃ r, ofSnapshot? (space (1 / 0)).snapshot = some r := by
  intro event space
  have hcoherent (load : Float) : (space load).Coherent := .inr rfl
  have htimes (load : Float) : ∀ e ∈ (space load).events,
      Instant.ofText? e.occurredAt.document = some e.occurredAt := by
    have hdefault : Instant.ofText? (default : Instant).document = some default := by
      decide +kernel
    intro e he
    rcases List.mem_pair.1 he with rfl | rfl <;> exact hdefault
  have hmem (load x : Float) : Tag.number x ∈ (space load).tagValues ↔ x = load := by
    change Tag.number x ∈ [.text "\\", .number load, .flag true] ↔ _
    simp
  have hreads : (Json.ofFloat 1.5).ReadsBack :=
    (Json.readsBack_ofFloat_iff (by decide +kernel)).2 (by decide +kernel)
  have hinfinite : ¬(1 / 0 : Float).isFinite = true := by decide +kernel
  obtain ⟨hfinite, hsame⟩ := restores_iff_finite (hcoherent 1.5)
    (fun x hx _ => (hmem 1.5 x).1 hx ▸ hreads) (htimes 1.5)
  obtain ⟨hrefused, -⟩ := restores_iff_finite (hcoherent (1 / 0))
    (fun x hx hfinite => absurd ((hmem _ x).1 hx ▸ hfinite) hinfinite) (htimes (1 / 0))
  constructor
  · obtain ⟨r, hr⟩ := hfinite.2 fun x hx => by rw [(hmem 1.5 x).1 hx]; decide +kernel
    obtain ⟨hevents, -, hcached, hvector, -⟩ := hsame r hr
    exact ⟨r, hr, hevents, hcached, congrArg some hvector.symm⟩
  · exact fun hrestored => hinfinite (hrefused.1 hrestored _ ((hmem _ _).2 rfl))

end Space

end IntentGate
