import IntentGate.Proofs.Behavior.Snapshot

/-!
# Stored intents

The reader of a confidence, a signal or an intent, run on what the value is written as
(`ofJson?_toJson_eq_ite`): a number that is not finite is written as null, and where a number is
asked for, null is refused. So a value is read as itself exactly if its numbers are finite. Its text
is legible if these are read back, each from its own text (`Json.FinitesReadBack`).
-/

namespace IntentGate

/-! ## Fields -/

namespace Json

variable {α β : Type} {write : α → Json} {a : Option α}

theorem bind_ite_some {p : Prop} [Decidable p] (a : α) (f : α → Option β) :
    (if p then some a else none).bind f = if p then f a else none := by
  split <;> rfl

theorem toFloat?_ofFloat (x : Float) :
    (ofFloat x).toFloat? = if x.isFinite = true then some x else none := by
  unfold ofFloat
  split <;> rfl

/-- What a document gives for an optional field: no value is left out. -/
def optionalSlot (write : α → Json) : Option α → Slot Json
  | none => .absent
  | some a => .given (write a)

theorem omittable_optionalSlot_eq_ite {read : Json → Option α} {p : α → Prop} [DecidablePred p]
    (hread : ∀ x ∈ a, read (write x) = if p x then some x else none)
    (hnull : ∀ x, write x ≠ null) :
    (optionalSlot write a).omittable (toOptional? read) = if ∀ x ∈ a, p x then some a else none := by
  cases a with
  | none => exact (if_pos nofun).symm
  | some x =>
    change toOptional? read (write x) = _
    unfold toOptional?
    split
    next hx => exact absurd hx (hnull x)
    · rw [hread x rfl]
      simp only [Option.mem_some_iff, forall_eq']
      split <;> rfl

theorem omittable_optionalSlot {read : Json → Option α}
    (hread : ∀ x ∈ a, read (write x) = some x) (hnull : ∀ x, write x ≠ null) :
    (optionalSlot write a).omittable (toOptional? read) = some a := by
  have hall : ∀ x ∈ a, read (write x) = if True then some x else none :=
    fun x hx => (hread x hx).trans (if_pos trivial).symm
  rw [omittable_optionalSlot_eq_ite hall hnull, if_pos fun _ _ => trivial]

theorem omittable_optionalSlot_text (s : Option String) :
    (optionalSlot text s).omittable (toOptional? toText?) = some s :=
  omittable_optionalSlot (fun _ _ => rfl) fun _ => Json.noConfusion

/-- Those of some numbers that are finite are read back, each from its own text. -/
def FinitesReadBack (xs : List Float) : Prop :=
  ∀ x ∈ xs, x.isFinite = true → (ofFloat x).ReadsBack

theorem legible_optionalField {name : String} (h : ∀ x ∈ a, (write x).Legible) :
    ∀ f ∈ optionalField name write a, f.2.Legible := by
  cases a with
  | none => exact nofun
  | some x => exact List.forall_mem_singleton.2 (h x rfl)

end Json

theorem Level.ofJson?_toJson (l : Level) : ofJson? l.toJson = some l := by
  cases l <;> rfl

/-! ## Confidences and signals -/

namespace Confidence

variable {c : Confidence}

theorem ofJson?_of_slots {j score level : Json}
    (h : j.slots? fieldNames = some [.given score, .given level]) :
    ofJson? j = score.toFloat?.bind fun score => (Level.ofJson? level).bind fun level =>
      some ⟨score, level⟩ := by
  rw [ofJson?, h]
  rfl

theorem ofJson?_toJson_eq_ite (c : Confidence) :
    ofJson? c.toJson = if c.score.isFinite = true then some c else none := by
  rw [ofJson?_of_slots rfl, Json.toFloat?_ofFloat, Level.ofJson?_toJson, Json.bind_ite_some]
  rfl

theorem legible_toJson_of_finites (h : c.score.isFinite = true → (Json.ofFloat c.score).ReadsBack) :
    c.toJson.Legible := by
  refine .object ?_
  simp only [List.forall_mem_cons]
  exact ⟨Json.legible_ofFloat h, .text _, nofun⟩

end Confidence

namespace Signal

variable {s : Signal}

theorem ofJson?_of_slots {j weight : Json} {source description : String}
    (h : j.slots? fieldNames =
      some [.given (.text source), .given (.text description), .given weight]) :
    ofJson? j = weight.toFloat?.bind fun weight => some ⟨source, description, weight⟩ := by
  rw [ofJson?, h]
  rfl

theorem ofJson?_toJson_eq_ite (s : Signal) :
    ofJson? s.toJson = if s.weight.isFinite = true then some s else none := by
  rw [ofJson?_of_slots rfl, Json.toFloat?_ofFloat, Json.bind_ite_some]

theorem legible_toJson_of_finites
    (h : s.weight.isFinite = true → (Json.ofFloat s.weight).ReadsBack) : s.toJson.Legible := by
  refine .object ?_
  simp only [List.forall_mem_cons]
  exact ⟨.text _, .text _, Json.legible_ofFloat h, nofun⟩

end Signal

/-! ## Intents -/

namespace Intent

variable {i : Intent}

/-- The score and all weights. -/
def numbers (i : Intent) : List Float :=
  i.score :: i.signals.map Signal.weight

theorem ofJson?_of_slots {j confidence : Json} {name : String} {signals : List Json}
    {reasoning : Slot Json}
    (h : j.slots? fieldNames =
      some [.given (.text name), .given (.array signals), .given confidence, reasoning]) :
    ofJson? j = (signals.mapM Signal.ofJson?).bind fun signals =>
      (Confidence.ofJson? confidence).bind fun confidence =>
        (reasoning.omittable (Json.toOptional? Json.toText?)).bind fun reasoning =>
          some ⟨name, signals, confidence, reasoning⟩ := by
  rw [ofJson?, h]
  rfl

theorem slots?_toJson (i : Intent) :
    i.toJson.slots? fieldNames = some [.given (.text i.name),
      .given (.array (i.signals.map Signal.toJson)), .given i.confidence.toJson,
      Json.optionalSlot .text i.reasoning] := by
  unfold toJson
  cases i.reasoning <;> rfl

theorem ofJson?_toJson_eq_ite (i : Intent) :
    ofJson? i.toJson = if ∀ x ∈ i.numbers, x.isFinite = true then some i else none := by
  rw [ofJson?_of_slots i.slots?_toJson, mapM_map_eq_ite fun s _ => s.ofJson?_toJson_eq_ite,
    Json.bind_ite_some, Confidence.ofJson?_toJson_eq_ite, Json.bind_ite_some,
    Json.omittable_optionalSlot_text, ← ite_and]
  refine if_congr ?_ rfl rfl
  rw [numbers, List.forall_mem_cons, List.forall_mem_map, and_comm]
  rfl

theorem legible_toJson_of_finites (h : Json.FinitesReadBack i.numbers) : i.toJson.Legible := by
  obtain ⟨hscore, hweights⟩ := List.forall_mem_cons.1 h
  refine .object ?_
  rw [List.forall_mem_append]
  constructor
  · simp only [List.forall_mem_cons]
    refine ⟨.text _, .array fun j hj => ?_, Confidence.legible_toJson_of_finites hscore, nofun⟩
    obtain ⟨s, hs, rfl⟩ := List.mem_map.1 hj
    exact Signal.legible_toJson_of_finites (hweights _ (List.mem_map_of_mem hs))
  · exact Json.legible_optionalField fun reasoning _ => .text reasoning

end Intent

end IntentGate
