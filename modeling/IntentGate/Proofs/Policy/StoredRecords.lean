import IntentGate.Proofs.Inference.StoredIntents
import IntentGate.Proofs.Policy.Identifiers

/-!
# Stored records

What a context, a record or an intent is read back as from its stored text. For each type the reader
is first run on the stored document (`ofJson?_toJson_eq_ite`): a number that is not finite is written
as null, and where the type asks for a number, null is refused. The load of a context is the one
number that may be missing, so there null is taken for a load that is not known and nothing is
refused (`Context.withFiniteLoad`). Identifiers are read back without any assumption; for the texts
of finite numbers and of times it is one (`Json.FinitesReadBack`). The outcome for all four types is
`stored_records_restore`.
-/

namespace IntentGate

/-! ## Fields -/

namespace Json

/-- A number that may be missing is missing when it is not finite. -/
theorem toOptional?_ofOptional_ofFloat (x : Option Float) :
    toOptional? toFloat? (ofOptional ofFloat x) = some (x.filter Float.isFinite) := by
  cases x with
  | none => rfl
  | some x =>
    by_cases hx : x.isFinite = true
    · rw [ofOptional, ofFloat, if_pos hx, Option.filter_some, if_pos hx]
      rfl
    · rw [ofOptional, ofFloat, if_neg hx, Option.filter_some, if_neg hx]
      rfl

theorem toOptional?_ofOptional_text (s : Option String) :
    toOptional? toText? (ofOptional text s) = some s := by
  cases s <;> rfl

theorem legible_ofOptional {α : Type} {write : α → Json} {a : Option α}
    (h : ∀ x ∈ a, (write x).Legible) : (ofOptional write a).Legible := by
  cases a with
  | none => exact .null
  | some x => exact h x rfl

end Json

theorem Decision.ofJson?_toJson (d : Decision) : ofJson? d.toJson = some d := by
  cases d <;> rfl

/-! ## Tags -/

/-- The numbers among the values of some tags. -/
def Dict.numbers (d : Dict Tag) : List Float :=
  d.values.filterMap fun
    | .number x => some x
    | _ => none

namespace Dict

variable {d : Dict Tag}

theorem mem_numbers_iff {x : Float} : x ∈ d.numbers ↔ Tag.number x ∈ d.values := by
  rw [numbers, List.mem_filterMap]
  constructor
  · rintro ⟨_ | y | _, hmem, hx⟩
    · cases hx
    · exact Option.some.inj hx ▸ hmem
    · cases hx
  · exact fun hmem => ⟨_, hmem, rfl⟩

theorem finite_numbers_iff :
    (∀ x ∈ d.numbers, x.isFinite = true) ↔ ∀ t ∈ d.values, t.Finite := by
  constructor
  · rintro h (_ | x | _) ht
    · trivial
    · exact h x (mem_numbers_iff.2 ht)
    · trivial
  · exact fun h x hx => h _ (mem_numbers_iff.1 hx)

theorem toDict?_ofDict_tags (d : Dict Tag) :
    Json.toDict? Tag.ofJson? (Json.ofDict Tag.toJson d) =
      if ∀ x ∈ d.numbers, x.isFinite = true then some d else none := by
  rw [Json.toDict?_ofDict Tag.ofJson?_toJson]
  exact if_congr finite_numbers_iff.symm rfl rfl

end Dict

/-! ## Contexts -/

namespace Summary

theorem ofJson?_of_slots {j level score : Json} {name : String}
    (h : j.slots? fieldNames = some [.given (.text name), .given level, .given score]) :
    ofJson? j = (Level.ofJson? level).bind fun level => score.toFloat?.bind fun score =>
      some ⟨name, level, score⟩ := by
  rw [ofJson?, h]
  rfl

theorem ofJson?_toJson_eq_ite (s : Summary) :
    ofJson? s.toJson = if s.score.isFinite = true then some s else none := by
  rw [ofJson?_of_slots rfl, Level.ofJson?_toJson, Option.bind_some, Json.toFloat?_ofFloat,
    Json.bind_ite_some]

theorem legible_toJson {s : Summary}
    (h : s.score.isFinite = true → (Json.ofFloat s.score).ReadsBack) : s.toJson.Legible := by
  refine .object ?_
  simp only [List.forall_mem_cons]
  exact ⟨.text _, .text _, Json.legible_ofFloat h, nofun⟩

end Summary

namespace Context

variable {c : Context}

/-- The numbers of a context that are not its load. -/
def numbersBeside (c : Context) : List Float :=
  c.recent.map Summary.score ++ c.custom.numbers

/-- All numbers of a context. -/
def numbers (c : Context) : List Float :=
  c.systemLoad.toList ++ c.numbersBeside

/-- The context without a load that is not finite. -/
def withFiniteLoad (c : Context) : Context :=
  { c with systemLoad := c.systemLoad.filter Float.isFinite }

theorem withFiniteLoad_eq (h : ∀ x ∈ c.numbers, x.isFinite = true) : c.withFiniteLoad = c := by
  have hload : c.systemLoad.filter Float.isFinite = c.systemLoad := by
    cases hload : c.systemLoad with
    | none => rfl
    | some x =>
      refine Option.filter_some_pos (h x (List.mem_append_left _ ?_))
      rw [hload]
      exact List.mem_cons_self
  rw [withFiniteLoad, hload]

theorem ofJson?_of_slots {j load region custom : Json} {recent : List Json}
    (h : j.slots? fieldNames =
      some [.given load, .given region, .given (.array recent), .given custom]) :
    ofJson? j = (Json.toOptional? Json.toFloat? load).bind fun load =>
      (Json.toOptional? Json.toText? region).bind fun region =>
        (recent.mapM Summary.ofJson?).bind fun recent =>
          (Json.toDict? Tag.ofJson? custom).bind fun custom =>
            some ⟨load, region, recent, custom⟩ := by
  rw [ofJson?, h]
  rfl

theorem ofJson?_toJson_eq_ite (c : Context) :
    ofJson? c.toJson =
      if ∀ x ∈ c.numbersBeside, x.isFinite = true then some c.withFiniteLoad else none := by
  rw [ofJson?_of_slots rfl, Json.toOptional?_ofOptional_ofFloat, Option.bind_some,
    Json.toOptional?_ofOptional_text, Option.bind_some,
    mapM_map_eq_ite fun s _ => s.ofJson?_toJson_eq_ite, Json.bind_ite_some,
    Dict.toDict?_ofDict_tags, Json.bind_ite_some, ← ite_and]
  refine if_congr ?_ rfl rfl
  rw [numbersBeside, List.forall_mem_append, List.forall_mem_map]

theorem legible_toJson (h : Json.FinitesReadBack c.numbers) : c.toJson.Legible := by
  obtain ⟨hload, hbeside⟩ := List.forall_mem_append.1 h
  obtain ⟨hrecent, hcustom⟩ := List.forall_mem_append.1 hbeside
  refine .object ?_
  simp only [List.forall_mem_cons]
  refine ⟨Json.legible_ofOptional fun x hx => ?_, Json.legible_ofOptional fun s _ => .text s,
    .array fun j hj => ?_, legible_ofTags fun x hx => ?_, nofun⟩
  · exact Json.legible_ofFloat (hload x (Option.mem_toList.2 hx))
  · obtain ⟨s, hs, rfl⟩ := List.mem_map.1 hj
    exact Summary.legible_toJson (hrecent _ (List.mem_map_of_mem hs))
  · exact hcustom x (Dict.mem_numbers_iff.2 hx)

end Context

/-! ## Records -/

namespace ExecutionRecord

variable {r : ExecutionRecord}

/-- The numbers of a record. -/
def numbers (r : ExecutionRecord) : List Float :=
  [r.milliseconds]

theorem slots?_toJson (r : ExecutionRecord) :
    r.toJson.slots? fieldNames = some [.given (.text r.intentName),
      .given (Json.ofOptional .text r.matchedRule), .given r.decision.toJson,
      .given (.ofFloat r.milliseconds), .given (.bool r.success),
      Json.optionalSlot .text r.errorMessage, Json.optionalSlot .text r.errorTrace,
      .given r.recordedAt.toJson] := by
  unfold toJson
  cases r.errorMessage <;> cases r.errorTrace <;> rfl

theorem ofJson?_of_slots {j matchedRule decision milliseconds recordedAt : Json}
    {intentName : String} {success : Bool} {message trace : Slot Json}
    (h : j.slots? fieldNames =
      some [.given (.text intentName), .given matchedRule, .given decision, .given milliseconds,
        .given (.bool success), message, trace, .given recordedAt]) :
    ofJson? j = (Json.toOptional? Json.toText? matchedRule).bind fun matchedRule =>
      (Decision.ofJson? decision).bind fun decision => milliseconds.toFloat?.bind fun milliseconds =>
        (message.omittable (Json.toOptional? Json.toText?)).bind fun message =>
          (trace.omittable (Json.toOptional? Json.toText?)).bind fun trace =>
            (Instant.ofJson? recordedAt).bind fun recordedAt =>
              some ⟨intentName, matchedRule, decision, milliseconds, success, message, trace,
                recordedAt⟩ := by
  rw [ofJson?, h]
  rfl

theorem ofJson?_toJson_eq_ite (htime : Instant.ofJson? r.recordedAt.toJson = some r.recordedAt) :
    ofJson? r.toJson = if ∀ x ∈ r.numbers, x.isFinite = true then some r else none := by
  rw [ofJson?_of_slots r.slots?_toJson, Json.toOptional?_ofOptional_text, Option.bind_some,
    Decision.ofJson?_toJson, Option.bind_some, Json.toFloat?_ofFloat, Json.bind_ite_some,
    Json.omittable_optionalSlot_text, Option.bind_some, Json.omittable_optionalSlot_text,
    Option.bind_some, htime, Option.bind_some]
  refine if_congr ?_ rfl rfl
  rw [numbers, List.forall_mem_singleton]

theorem legible_toJson (h : Json.FinitesReadBack r.numbers) : r.toJson.Legible := by
  refine .object ?_
  simp only [List.forall_mem_append, List.forall_mem_cons]
  refine ⟨⟨⟨⟨.text _, Json.legible_ofOptional fun s _ => .text s, .text _,
    Json.legible_ofFloat (h _ List.mem_cons_self), .bool _, nofun⟩, ?_⟩, ?_⟩, .text _, nofun⟩
  · exact Json.legible_optionalField fun s _ => .text s
  · exact Json.legible_optionalField fun s _ => .text s

end ExecutionRecord

namespace DecisionRecord

variable {r : DecisionRecord}

/-- The numbers of a record: its score and those of its metadata. -/
def numbers (r : DecisionRecord) : List Float :=
  r.score :: r.metadata.toList.flatMap Dict.numbers

theorem slots?_toJson (r : DecisionRecord) :
    r.toJson.slots? fieldNames = some [.given (.text (idText r.recordId)), .given (.text r.spaceId),
      .given (.text r.intentName), .given r.level.toJson, .given (.ofFloat r.score),
      .given r.decision.toJson, .given r.recordedAt.toJson,
      Json.optionalSlot (Json.ofDict Tag.toJson) r.metadata,
      Json.optionalSlot .text r.entityId] := by
  unfold toJson
  cases r.metadata <;> cases r.entityId <;> rfl

theorem ofJson?_of_slots {j level score decision recordedAt : Json}
    {id spaceId intentName : String} {metadata entityId : Slot Json}
    (h : j.slots? fieldNames =
      some [.given (.text id), .given (.text spaceId), .given (.text intentName), .given level,
        .given score, .given decision, .given recordedAt, metadata, entityId]) :
    ofJson? j = (idOfText? id).bind fun id => (Level.ofJson? level).bind fun level =>
      score.toFloat?.bind fun score => (Decision.ofJson? decision).bind fun decision =>
        (Instant.ofJson? recordedAt).bind fun recordedAt =>
          (metadata.omittable (Json.toOptional? (Json.toDict? Tag.ofJson?))).bind fun metadata =>
            (entityId.omittable (Json.toOptional? Json.toText?)).bind fun entityId =>
              some ⟨id, spaceId, intentName, level, score, decision, recordedAt, metadata,
                entityId⟩ := by
  rw [ofJson?, h]
  rfl

theorem ofJson?_toJson_eq_ite (htime : Instant.ofJson? r.recordedAt.toJson = some r.recordedAt) :
    ofJson? r.toJson = if ∀ x ∈ r.numbers, x.isFinite = true then some r else none := by
  rw [ofJson?_of_slots r.slots?_toJson, idOfText?_idText, Option.bind_some, Level.ofJson?_toJson,
    Option.bind_some, Json.toFloat?_ofFloat, Json.bind_ite_some, Decision.ofJson?_toJson,
    Option.bind_some, htime, Option.bind_some,
    Json.omittable_optionalSlot_eq_ite (fun d _ => d.toDict?_ofDict_tags) fun _ => Json.noConfusion,
    Json.bind_ite_some, Json.omittable_optionalSlot_text, Option.bind_some, ← ite_and]
  refine if_congr ?_ rfl rfl
  simp only [numbers, List.forall_mem_cons, List.forall_mem_flatMap, Option.mem_toList,
    Option.mem_def]

theorem legible_toJson (h : Json.FinitesReadBack r.numbers) : r.toJson.Legible := by
  obtain ⟨hscore, hmetadata⟩ := List.forall_mem_cons.1 h
  refine .object ?_
  simp only [List.forall_mem_append, List.forall_mem_cons]
  refine ⟨⟨⟨.text _, .text _, .text _, .text _, Json.legible_ofFloat hscore, .text _, .text _, nofun⟩,
    Json.legible_optionalField fun d hd => legible_ofTags fun x hx => ?_⟩,
    Json.legible_optionalField fun s _ => .text s⟩
  refine hmetadata x (List.mem_flatMap.2 ⟨d, Option.mem_toList.2 hd, ?_⟩)
  exact Dict.mem_numbers_iff.2 hx

end DecisionRecord

/-! ## Stored texts -/

namespace Stored

variable {α : Type} [Stored α]

theorem ofText?_text {a : α} (h : (toJson a).Legible) :
    ofText? (text a) = (ofJson? (toJson a) : Option α) := by
  have hparse : Json.parse? (text a) = some (toJson a) := h.readsBack
  rw [ofText?, hparse, Option.bind_some]

/-- The stored text of `a` is read as `b` if certain numbers are finite, and refused otherwise. -/
def Restores (a b : α) (numbers : List Float) : Prop :=
  ofText? (text a) = if ∀ x ∈ numbers, x.isFinite = true then some b else none

end Stored

theorem Instant.ofJson?_toJson {t : Instant} (h : ofText? t.document = some t) :
    ofJson? t.toJson = some t := by
  rw [ofJson?, toJson, Json.toText?, Option.bind_some, h]

/-- The stored text of a decision record, an execution record or an intent is read as the very same
value if all its numbers are finite, and refused otherwise. The text of a context is refused if a
number beside the load is not finite; else it is read as that context, but without the load if the
load is not finite, so it is the very same if all numbers are finite. -/
theorem stored_records_restore :
    (∀ c : Context, Json.FinitesReadBack c.numbers →
      Stored.Restores c c.withFiniteLoad c.numbersBeside ∧
      ((∀ x ∈ c.numbers, x.isFinite = true) → Stored.ofText? (Stored.text c) = some c)) ∧
    (∀ r : DecisionRecord, Json.FinitesReadBack r.numbers →
      Instant.ofText? r.recordedAt.document = some r.recordedAt →
      Stored.Restores r r r.numbers) ∧
    (∀ r : ExecutionRecord, Json.FinitesReadBack r.numbers →
      Instant.ofText? r.recordedAt.document = some r.recordedAt →
      Stored.Restores r r r.numbers) ∧
    ∀ i : Intent, Json.FinitesReadBack i.numbers → Stored.Restores i i i.numbers := by
  refine ⟨fun c hc => ?_, fun r hr htime => ?_, fun r hr htime => ?_, fun i hi => ?_⟩
  · have hrestores : Stored.Restores c c.withFiniteLoad c.numbersBeside :=
      (Stored.ofText?_text (Context.legible_toJson hc)).trans c.ofJson?_toJson_eq_ite
    refine ⟨hrestores, fun hfinite => ?_⟩
    have hbeside : ∀ x ∈ c.numbersBeside, x.isFinite = true :=
      fun x hx => hfinite x (List.mem_append_right _ hx)
    rw [hrestores, if_pos hbeside, Context.withFiniteLoad_eq hfinite]
  · exact (Stored.ofText?_text (DecisionRecord.legible_toJson hr)).trans
      (DecisionRecord.ofJson?_toJson_eq_ite (Instant.ofJson?_toJson htime))
  · exact (Stored.ofText?_text (ExecutionRecord.legible_toJson hr)).trans
      (ExecutionRecord.ofJson?_toJson_eq_ite (Instant.ofJson?_toJson htime))
  · exact (Stored.ofText?_text (Intent.legible_toJson_of_finites hi)).trans i.ofJson?_toJson_eq_ite

/-- Values of each type with finite numbers only come back as they are; with an infinite number in
its metadata a decision record is refused, while a context loses an infinite load. -/
theorem stored_records_restore_of_login :
    let c (load : Float) : Context :=
      { systemLoad := some load, recent := [⟨"login", .high, 1.5⟩],
        custom := Dict.empty.insert "beta" (.flag true) }
    let d (x : Float) : DecisionRecord :=
      (DecisionRecord.mk 1 "space" "log\"in" .high 1.5 .block default none none).withMetadata "load"
        (.number x)
    let e : ExecutionRecord := .succeeded "login" none .observe ⟨default, 1.5⟩
    let i : Intent := ⟨"login", [⟨"rules", "odd", 1.5⟩], ⟨1.5, .high⟩, some "why"⟩
    Stored.ofText? (Stored.text (c 1.5)) = some (c 1.5) ∧
    Stored.ofText? (Stored.text (c (1 / 0))) = some ({ c 1.5 with systemLoad := none } : Context) ∧
    Stored.ofText? (Stored.text (d 1.5)) = some (d 1.5) ∧
    (Stored.ofText? (Stored.text (d (1 / 0))) : Option DecisionRecord) = none ∧
    Stored.ofText? (Stored.text e) = some e ∧ Stored.ofText? (Stored.text i) = some i := by
  intro c d e i
  have hfinite : (1.5 : Float).isFinite = true := by decide +kernel
  have hinfinite : ¬(1 / 0 : Float).isFinite = true := by decide +kernel
  have hreads : (Json.ofFloat 1.5).ReadsBack :=
    (Json.readsBack_ofFloat_iff hfinite).2 (by decide +kernel)
  have htime : Instant.ofText? (default : Instant).document = some default := by decide +kernel
  have hnot : (1 / 0 : Float).isFinite = true → (Json.ofFloat (1 / 0)).ReadsBack :=
    (absurd · hinfinite)
  have htwo {p : Float → Prop} {x y : Float} (hx : p x) (hy : p y) : ∀ z ∈ [x, y], p z :=
    List.forall_mem_cons.2 ⟨hx, List.forall_mem_singleton.2 hy⟩
  have hback : Json.FinitesReadBack [1.5, 1.5] := htwo (fun _ => hreads) fun _ => hreads
  obtain ⟨hcontext, hdecision, hexecution, hintent⟩ := stored_records_restore
  refine ⟨(hcontext (c 1.5) hback).2 (htwo hfinite hfinite), ?_, ?_, ?_, ?_, ?_⟩
  · refine (hcontext (c (1 / 0)) (htwo hnot fun _ => hreads)).1.trans (Eq.trans (if_pos ?_) ?_)
    · exact List.forall_mem_singleton.2 hfinite
    · exact congrArg (fun load => some ({ c 1.5 with systemLoad := load } : Context))
        (Option.filter_some_neg (Bool.eq_false_iff.2 hinfinite))
  · exact (hdecision (d 1.5) hback htime).trans (if_pos (htwo hfinite hfinite))
  · refine (hdecision (d (1 / 0)) (htwo (fun _ => hreads) hnot) htime).trans (if_neg fun h => ?_)
    exact hinfinite (h _ (List.mem_cons_of_mem _ List.mem_cons_self))
  · refine (hexecution e ?_ htime).trans (if_pos ?_)
    · exact List.forall_mem_singleton.2 fun _ => hreads
    · exact List.forall_mem_singleton.2 hfinite
  · exact (hintent i hback).trans (if_pos (htwo hfinite hfinite))

/-- The text of a context with an infinite load is not refused: it is read as a context without one,
of which rules that need the load say that it is missing. -/
theorem stored_context_loses_load :
    let c : Context := { systemLoad := some (1 / 0) }
    ∃ b, Stored.ofText? (Stored.text c) = some b ∧ b ≠ c ∧ c.requireLoad = .ok (1 / 0) ∧
      b.requireLoad = .error (.missingContext "system_load") := by
  intro c
  refine ⟨{ c with systemLoad := none }, by decide +kernel, ?_, rfl, rfl⟩
  intro h
  cases congrArg Context.systemLoad h

end IntentGate
