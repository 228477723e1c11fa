import IntentGate.Embedding
import IntentGate.Proofs.Inference.Range
import IntentGate.Proofs.Inference.StoredIntents
import IntentGate.Proofs.Json.FiniteNumbers
import IntentGate.Time.Window

/-!
# Stored values are taken as they stand

The constructors of confidences, signals and embeddings clamp, and the one of windows refuses bounds
out of order; the readers of stored values do neither. A decoded value has the very numbers that its
document gives, which are finite but may be out of range, so it is one that its constructor would
make exactly if the document was in range already (`decoded_as_written`).
-/

namespace IntentGate

/-! ## What constructors leave alone -/

theorem Signal.clampWeight_eq_self_iff {x : Float} :
    clampWeight x = x ↔ x.isNaN = false ∧ 0 ≤ x := by
  constructor
  · intro h
    rw [← h]
    exact clampWeight_nonneg x
  · rintro ⟨hnumber, hnonneg⟩
    rw [clampWeight, if_neg (Bool.eq_false_iff.1 hnumber), if_neg (Double.not_lt_of_le hnonneg)]

theorem Confidence.make_eq_self_iff {c : Confidence} :
    make c.score c.level = c ↔ InUnit c.score := by
  rw [← clampScore_eq_self_iff, make, Confidence.mk.injEq, and_iff_left rfl]

theorem Signal.make_eq_self_iff {s : Signal} :
    make s.source s.description s.weight = s ↔ s.weight.isNaN = false ∧ 0 ≤ s.weight := by
  rw [← clampWeight_eq_self_iff, make, Signal.mk.injEq, and_iff_right rfl, and_iff_right rfl]

/-- The confidence and the signals of an intent are those that their constructors make. -/
def Intent.Made (i : Intent) : Prop :=
  Confidence.make i.score i.level = i.confidence ∧
    ∀ s ∈ i.signals, Signal.make s.source s.description s.weight = s

theorem Intent.made_iff_inRange {i : Intent} : i.Made ↔ i.InRange := by
  simp only [Made, Signal.make_eq_self_iff]
  exact ⟨fun ⟨hscore, hweights⟩ => ⟨Confidence.make_eq_self_iff.1 hscore, hweights⟩,
    fun ⟨hscore, hweights⟩ => ⟨Confidence.make_eq_self_iff.2 hscore, hweights⟩⟩

theorem Embedding.make_eq_self_iff {e : Embedding Float} :
    { make e.source e.score with vector := e.vector } = e ↔ InUnit e.score := by
  rw [← clampScore_eq_self_iff, make, Embedding.mk.injEq, and_iff_right rfl, and_iff_left rfl]

theorem Window.between_eq_ok_iff {w : Window} :
    between w.start w.stop = .ok w ↔ w.start ≤ w.stop := by
  unfold between
  split
  next hlt => exact iff_of_false nofun (Instant.lt_def.1 hlt)
  next hlt => exact iff_of_true rfl (not_not.1 (mt Instant.lt_def.2 hlt))

/-! ## Values and documents -/

namespace Json

/-- The document gives a finite number for a field of a record. -/
def GivesNumber (j : Json) (names : List String) (name : String) (x : Float) : Prop :=
  j.givenNumber? names name = some x ∧ x.isFinite = true

/-- A finite number that is read back from its own text. -/
structure Exact (x : Float) : Prop where
  isFinite : x.isFinite = true
  readsBack : (ofFloat x).ReadsBack

section Slots

variable {j value : Json} {names : List String} {name : String} {slots : List (Slot Json)}

theorem given?_of_slots (hslots : j.slots? names = some slots)
    (hlookup : (names.zip slots).lookup name = some (.given value)) :
    j.given? names name = some value := by
  rw [given?, hslots, Option.bind_eq_bind, Option.bind_some, hlookup]

theorem givesNumber_of_slots (hj : j.FiniteNumbers) (hslots : j.slots? names = some slots)
    (hlookup : (names.zip slots).lookup name = some (.given value)) {x : Float}
    (hx : value.toFloat? = some x) : j.GivesNumber names name x := by
  constructor
  · rw [givenNumber?, given?_of_slots hslots hlookup]
    exact hx
  · have hmem : .given value ∈ slots := by
      obtain ⟨_, _, hzip, -⟩ := List.lookup_eq_some_iff.1 hlookup
      have hmem : (name, .given value) ∈ names.zip slots := by
        rw [hzip]
        exact List.mem_append_right _ List.mem_cons_self
      exact (List.of_mem_zip hmem).2
    exact (hj.of_slots? hslots hmem).isFinite hx

end Slots

theorem Exact.toFloat?_ofFloat {x : Float} (hx : Exact x) : (ofFloat x).toFloat? = some x := by
  rw [Json.toFloat?_ofFloat, if_pos hx.isFinite]

theorem Exact.legible {x : Float} (hx : Exact x) : (ofFloat x).Legible :=
  legible_ofFloat fun _ => hx.readsBack

end Json

theorem Slot.of_required {α : Type} {read : Json → Option α} {slot : Slot Json} {a : α}
    (h : slot.required read = some a) : ∃ j, slot = .given j ∧ read j = some a := by
  cases slot with
  | given j => exact ⟨j, rfl, h⟩
  | absent => cases h
  | beyond => cases h

namespace Confidence

variable {j : Json} {c : Confidence}

/-- The document gives the score. -/
def WrittenAs (c : Confidence) (j : Json) : Prop :=
  j.GivesNumber fieldNames "score" c.score

theorem writtenAs_of_ofJson? (hj : j.FiniteNumbers) (h : ofJson? j = some c) : c.WrittenAs j := by
  obtain ⟨slots, hslots, h⟩ := Option.bind_eq_some_iff.1 h
  split at h
  next score level =>
    -- the value has no other source for its score than what the slot gives
    obtain ⟨x, hx, h⟩ := Option.bind_eq_some_iff.1 h
    obtain ⟨l, -, h⟩ := Option.bind_eq_some_iff.1 h
    obtain rfl : ⟨x, l⟩ = c := Option.some.inj h
    obtain ⟨score, rfl, hx⟩ := Slot.of_required hx
    exact Json.givesNumber_of_slots hj hslots rfl hx
  · cases h

theorem legible_toJson (hscore : Json.Exact c.score) : c.toJson.Legible :=
  legible_toJson_of_finites fun _ => hscore.readsBack

theorem ofJson?_toJson (hscore : Json.Exact c.score) : ofJson? c.toJson = some c :=
  c.ofJson?_toJson_eq_ite.trans (if_pos hscore.isFinite)

end Confidence

namespace Signal

variable {j : Json} {s : Signal}

/-- The document gives the weight. -/
def WrittenAs (s : Signal) (j : Json) : Prop :=
  j.GivesNumber fieldNames "weight" s.weight

theorem writtenAs_of_ofJson? (hj : j.FiniteNumbers) (h : ofJson? j = some s) : s.WrittenAs j := by
  obtain ⟨slots, hslots, h⟩ := Option.bind_eq_some_iff.1 h
  split at h
  next source description weight =>
    obtain ⟨a, -, h⟩ := Option.bind_eq_some_iff.1 h
    obtain ⟨b, -, h⟩ := Option.bind_eq_some_iff.1 h
    obtain ⟨x, hx, h⟩ := Option.bind_eq_some_iff.1 h
    obtain rfl : ⟨a, b, x⟩ = s := Option.some.inj h
    obtain ⟨weight, rfl, hx⟩ := Slot.of_required hx
    exact Json.givesNumber_of_slots hj hslots rfl hx
  · cases h

theorem legible_toJson (hweight : Json.Exact s.weight) : s.toJson.Legible :=
  legible_toJson_of_finites fun _ => hweight.readsBack

theorem ofJson?_toJson (hweight : Json.Exact s.weight) : ofJson? s.toJson = some s :=
  s.ofJson?_toJson_eq_ite.trans (if_pos hweight.isFinite)

end Signal

namespace Intent

variable {j : Json} {i : Intent}

/-- The document gives the score of the confidence and the weights of all signals. -/
def WrittenAs (i : Intent) (j : Json) : Prop :=
  (∃ confidence, j.given? fieldNames "confidence" = some confidence ∧
    i.confidence.WrittenAs confidence) ∧
  ∃ signals, j.given? fieldNames "signals" = some (.array signals) ∧
    List.Forall₂ (fun signal s => Signal.WrittenAs s signal) signals i.signals

theorem writtenAs_of_ofJson? (hj : j.FiniteNumbers) (h : ofJson? j = some i) : i.WrittenAs j := by
  obtain ⟨slots, hslots, h⟩ := Option.bind_eq_some_iff.1 h
  split at h
  next name signals confidence reasoning =>
    obtain ⟨a, -, h⟩ := Option.bind_eq_some_iff.1 h
    obtain ⟨ss, hss, h⟩ := Option.bind_eq_some_iff.1 h
    obtain ⟨c, hc, h⟩ := Option.bind_eq_some_iff.1 h
    obtain ⟨r, -, h⟩ := Option.bind_eq_some_iff.1 h
    obtain rfl : ⟨a, ss, c, r⟩ = i := Option.some.inj h
    obtain ⟨signals, rfl, hss⟩ := Slot.of_required hss
    obtain ⟨confidence, rfl, hc⟩ := Slot.of_required hc
    have hconfidence : confidence.FiniteNumbers := hj.of_slots? hslots (by simp)
    have hsignals : signals.FiniteNumbers := hj.of_slots? hslots (by simp)
    refine ⟨⟨confidence, Json.given?_of_slots hslots rfl, ?_⟩, ?_⟩
    · exact Confidence.writtenAs_of_ofJson? hconfidence hc
    · cases hsignals with
      | @array items hitems =>
        refine ⟨items, Json.given?_of_slots hslots rfl, ?_⟩
        have hread : List.Forall₂ (fun item s => Signal.ofJson? item = some s) items ss :=
          Traversal.mapM_eq_some_iff.1 hss
        exact ((List.forall₂_and_left items ss).2 ⟨hitems, hread⟩).imp
          fun item s h => Signal.writtenAs_of_ofJson? h.1 h.2
      | _ => cases hss
  · cases h

theorem legible_toJson (hnumbers : ∀ x ∈ i.numbers, Json.Exact x) : i.toJson.Legible :=
  legible_toJson_of_finites fun x hx _ => (hnumbers x hx).readsBack

theorem ofJson?_toJson (hnumbers : ∀ x ∈ i.numbers, Json.Exact x) : ofJson? i.toJson = some i :=
  i.ofJson?_toJson_eq_ite.trans (if_pos fun x hx => (hnumbers x hx).isFinite)

end Intent

namespace Embedding

variable {j : Json} {e : Embedding Float}

/-- The document gives the score. -/
def WrittenAs (e : Embedding Float) (j : Json) : Prop :=
  j.GivesNumber fieldNames "score" e.score

/-- The score and the numbers of the vector. -/
def numbers (e : Embedding Float) : List Float :=
  e.score :: e.vector.getD []

theorem writtenAs_of_ofJson? (hj : j.FiniteNumbers) (h : ofJson? j = some e) : e.WrittenAs j := by
  obtain ⟨slots, hslots, h⟩ := Option.bind_eq_some_iff.1 h
  split at h
  next source score vector =>
    obtain ⟨a, -, h⟩ := Option.bind_eq_some_iff.1 h
    obtain ⟨x, hx, h⟩ := Option.bind_eq_some_iff.1 h
    obtain ⟨v, -, h⟩ := Option.bind_eq_some_iff.1 h
    obtain rfl : ⟨a, x, v⟩ = e := Option.some.inj h
    obtain ⟨score, rfl, hx⟩ := Slot.of_required hx
    exact Json.givesNumber_of_slots hj hslots rfl hx
  · cases h

theorem legible_toJson (hnumbers : ∀ x ∈ e.numbers, Json.Exact x) : e.toJson.Legible := by
  obtain ⟨hscore, hvector⟩ := List.forall_mem_cons.1 hnumbers
  refine .object ?_
  rw [List.forall_mem_append]
  constructor
  · exact List.forall_mem_cons.2 ⟨.text _, List.forall_mem_singleton.2 hscore.legible⟩
  · refine Json.legible_optionalField fun v hv => .array fun j hj => ?_
    obtain ⟨x, hx, rfl⟩ := List.mem_map.1 hj
    have hmem : x ∈ e.vector.getD [] := by
      rw [hv]
      exact hx
    exact (hvector x hmem).legible

theorem ofJson?_toJson (hnumbers : ∀ x ∈ e.numbers, Json.Exact x) : ofJson? e.toJson = some e := by
  obtain ⟨source, score, vector⟩ := e
  obtain ⟨hscore, hvector⟩ := List.forall_mem_cons.1 hnumbers
  have hslots : (toJson ⟨source, score, vector⟩).slots? fieldNames =
      some [.given (.text source), .given (.ofFloat score),
        Json.optionalSlot (fun v => .array (v.map Json.ofFloat)) vector] := by
    cases vector <;> rfl
  have hread : ∀ v ∈ vector,
      Json.toList? Json.toFloat? (.array (v.map Json.ofFloat)) = some v := by
    rintro v rfl
    change (v.map Json.ofFloat).mapM Json.toFloat? = _
    rw [Traversal.mapM_eq_some_iff, List.forall₂_map_left_iff, List.forall₂_same]
    exact fun x hx => (hvector x hx).toFloat?_ofFloat
  rw [ofJson?, hslots]
  change (Json.ofFloat score).toFloat?.bind (fun score =>
    ((Json.optionalSlot (fun v => .array (v.map Json.ofFloat)) vector).omittable
      (Json.toOptional? (Json.toList? Json.toFloat?))).bind
        fun vector => some (⟨source, score, vector⟩ : Embedding Float)) = _
  rw [hscore.toFloat?_ofFloat, Json.omittable_optionalSlot hread nofun]
  rfl

end Embedding

namespace Window

variable {j : Json} {w : Window}

/-- The document gives both bounds. -/
def WrittenAs (w : Window) (j : Json) : Prop :=
  (j.given? fieldNames "start").bind Instant.ofJson? = some w.start ∧
    (j.given? fieldNames "end").bind Instant.ofJson? = some w.stop

/-- Bounds that are read back from their own texts. -/
structure Exact (w : Window) : Prop where
  start : Instant.ofText? w.start.document = some w.start
  stop : Instant.ofText? w.stop.document = some w.stop

theorem writtenAs_of_ofJson? (h : ofJson? j = some w) : w.WrittenAs j := by
  obtain ⟨slots, hslots, h⟩ := Option.bind_eq_some_iff.1 h
  split at h
  next start stop =>
    obtain ⟨a, ha, h⟩ := Option.bind_eq_some_iff.1 h
    obtain ⟨b, hb, h⟩ := Option.bind_eq_some_iff.1 h
    obtain rfl : ⟨a, b⟩ = w := Option.some.inj h
    obtain ⟨start, rfl, ha⟩ := Slot.of_required ha
    obtain ⟨stop, rfl, hb⟩ := Slot.of_required hb
    rw [WrittenAs, Json.given?_of_slots hslots rfl, Json.given?_of_slots hslots rfl]
    exact ⟨ha, hb⟩
  · cases h

theorem legible_toJson : w.toJson.Legible :=
  .object (List.forall_mem_cons.2 ⟨.text _, List.forall_mem_singleton.2 (.text _)⟩)

/-- The slots are any documents here: with texts of instants in place, checking this would start to
read them. -/
theorem ofJson?_of_slots {start stop : Json}
    (h : j.slots? fieldNames = some [.given start, .given stop]) :
    ofJson? j = (Instant.ofJson? start).bind fun start =>
      (Instant.ofJson? stop).bind fun stop => some ⟨start, stop⟩ := by
  rw [ofJson?, h]
  rfl

theorem ofJson?_toJson (hw : w.Exact) : ofJson? w.toJson = some w := by
  have hslots : w.toJson.slots? fieldNames =
      some [.given (.text w.start.document), .given (.text w.stop.document)] := rfl
  rw [ofJson?_of_slots hslots, Instant.ofJson?, Json.toText?, Option.bind_some, hw.start]
  rw [Option.bind_some, Instant.ofJson?, Json.toText?, Option.bind_some, hw.stop, Option.bind_some]

end Window

/-! ## Decoding -/

section Decoding

variable {α : Type} [Stored α]

/-- A value is decoded from a text as it is written there: if it is decoded, the text is that of a
document that writes it, and it is decoded if the text is its own and its numbers and times are read
back from theirs. -/
def DecodedAsWritten (text : String) (writtenAs : Json → Prop) (exact : Prop) (a : α) : Prop :=
  (Stored.ofText? text = some a → ∃ j, Json.parse? text = some j ∧ writtenAs j) ∧
    (text = Stored.text a → exact → Stored.ofText? text = some a)

theorem decodedAsWritten_of {text : String} {writtenAs : Json → Prop} {exact : Prop} {a : α}
    (hwritten : ∀ {j}, Json.FiniteNumbers j → Stored.ofJson? j = some a → writtenAs j)
    (hlegible : exact → (Stored.toJson a).Legible)
    (hread : exact → Stored.ofJson? (Stored.toJson a) = some a) :
    DecodedAsWritten text writtenAs exact a := by
  constructor
  · intro h
    obtain ⟨j, hj, h⟩ := Option.bind_eq_some_iff.1 h
    exact ⟨j, hj, hwritten (Json.finiteNumbers_of_parse? hj) h⟩
  · rintro rfl hexact
    have hparse : Json.parse? (Stored.text a) = some (Stored.toJson a) :=
      (hlegible hexact).readsBack
    rw [Stored.ofText?, hparse]
    exact hread hexact

end Decoding

/-- Whatever text a confidence, a signal, an intent, an embedding or a window is decoded from, it
has the very numbers and times that the document gives, and these alone decide whether it is one
that its constructor would make: a score in the unit interval, a weight that is not negative, bounds
in order. Nothing of this is asked for in decoding: in range or not, each value is decoded from its
own text. -/
theorem decoded_as_written (text : String) :
    (∀ c : Confidence, DecodedAsWritten text c.WrittenAs (Json.Exact c.score) c ∧
      (.make c.score c.level = c ↔ InUnit c.score)) ∧
    (∀ s : Signal, DecodedAsWritten text s.WrittenAs (Json.Exact s.weight) s ∧
      (.make s.source s.description s.weight = s ↔ s.weight.isNaN = false ∧ 0 ≤ s.weight)) ∧
    (∀ i : Intent, DecodedAsWritten text i.WrittenAs (∀ x ∈ i.numbers, Json.Exact x) i ∧
      (i.Made ↔ i.InRange)) ∧
    (∀ e : Embedding Float, DecodedAsWritten text e.WrittenAs (∀ x ∈ e.numbers, Json.Exact x) e ∧
      ({ Embedding.make e.source e.score with vector := e.vector } = e ↔ InUnit e.score)) ∧
    ∀ w : Window, DecodedAsWritten text w.WrittenAs w.Exact w ∧
      (Window.between w.start w.stop = .ok w ↔ w.start ≤ w.stop) := by
  refine ⟨fun c => ⟨?_, Confidence.make_eq_self_iff⟩, fun s => ⟨?_, Signal.make_eq_self_iff⟩,
    fun i => ⟨?_, Intent.made_iff_inRange⟩, fun e => ⟨?_, Embedding.make_eq_self_iff⟩,
    fun w => ⟨?_, Window.between_eq_ok_iff⟩⟩
  · exact decodedAsWritten_of Confidence.writtenAs_of_ofJson? Confidence.legible_toJson
      Confidence.ofJson?_toJson
  · exact decodedAsWritten_of Signal.writtenAs_of_ofJson? Signal.legible_toJson
      Signal.ofJson?_toJson
  · exact decodedAsWritten_of Intent.writtenAs_of_ofJson? Intent.legible_toJson
      Intent.ofJson?_toJson
  · exact decodedAsWritten_of Embedding.writtenAs_of_ofJson? Embedding.legible_toJson
      Embedding.ofJson?_toJson
  · exact decodedAsWritten_of (fun _ => Window.writtenAs_of_ofJson?)
      (fun _ => Window.legible_toJson) Window.ofJson?_toJson

/-- A score and a weight out of range stand in an intent that is decoded from its own text, and the
window of its own text ends before it starts. -/
theorem decoded_as_written_beyond_range :
    let i : Intent := ⟨"login", [⟨"rules", "odd", -1⟩], ⟨7.5, .high⟩, none⟩
    let w : Window := ⟨default, .earliest⟩
    Stored.ofText? (Stored.text i) = some i ∧ ¬i.Made ∧
      (∃ j, Json.parse? (Stored.text i) = some j ∧ i.WrittenAs j) ∧
      Stored.ofText? (Stored.text w) = some w ∧ ¬Window.between w.start w.stop = .ok w := by
  intro i w
  obtain ⟨-, -, hintents, -, -⟩ := decoded_as_written (Stored.text i)
  obtain ⟨-, -, -, -, hwindows⟩ := decoded_as_written (Stored.text w)
  obtain ⟨⟨hwritten, htaken⟩, hmade⟩ := hintents i
  obtain ⟨⟨-, hwindow⟩, hbetween⟩ := hwindows w
  have hexact {x : Float} (hx : x.isFinite = true)
      (hreads : (Json.parse? (Json.ofFloat x).render).any (Json.isReal x) = true) :
      Json.Exact x :=
    ⟨hx, (Json.readsBack_ofFloat_iff hx).2 hreads⟩
  have hi : Stored.ofText? (Stored.text i) = some i := by
    refine htaken rfl (List.forall_mem_cons.2 ⟨?_, List.forall_mem_singleton.2 ?_⟩)
    · exact hexact (by decide +kernel) (by decide +kernel)
    · exact hexact (by decide +kernel) (by decide +kernel)
  have hbeyond : ¬(7.5 : Float) ≤ 1 := by decide +kernel
  refine ⟨hi, fun h => hbeyond (hmade.1 h).score.le_one, hwritten hi, ?_, ?_⟩
  · exact hwindow rfl ⟨by decide +kernel, by decide +kernel⟩
  · exact fun h => absurd (hbetween.1 h) (by decide +kernel)

/-- Texts of each type with a score above one, a weight below zero and an end before the start are
decoded. -/
theorem decoded_beyond_range :
    Stored.ofText? "\x7b\"score\":7.5,\"level\":\"High\"\x7d" =
      some (⟨7.5, .high⟩ : Confidence) ∧
    Stored.ofText? "[\"rules\",\"odd\",-1]" = some (⟨"rules", "odd", -1⟩ : Signal) ∧
    Stored.ofText? "[\"login\",[[\"rules\",\"odd\",-1]],[7.5,\"High\"]]" =
      some (⟨"login", [⟨"rules", "odd", -1⟩], ⟨7.5, .high⟩, none⟩ : Intent) ∧
    Stored.ofText? "\x7b\"source\":\"login\",\"score\":2\x7d" =
      some (⟨"login", 2, none⟩ : Embedding Float) ∧
    (Stored.ofText? "[\"1970-01-01T00:00:01Z\",\"1970-01-01T00:00:00Z\"]" : Option Window).any
      (fun w => w.stop < w.start) = true ∧
    ¬InUnit 7.5 ∧ ¬(0 : Float) ≤ -1 ∧ ¬InUnit 2 := by
  refine ⟨by decide +kernel, by decide +kernel, by decide +kernel, by decide +kernel,
    by decide +kernel, fun h => ?_, by decide +kernel, fun h => ?_⟩
  · exact absurd h.le_one (by decide +kernel)
  · exact absurd h.le_one (by decide +kernel)

end IntentGate
