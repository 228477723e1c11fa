import IntentGate.Json.Stored
import IntentGate.Proofs.Double.Finite
import IntentGate.Proofs.Traversal

/-!
# Numbers of documents that are read

A document may write a number in many ways, but what is read from a text has finite numbers only
(`finiteNumbers_of_parse?`): integers fit a word of 64 bits, and a real beyond the range of doubles
is no number at all. What the fields of a record are given is given for good: a reader of records
takes the values of its slots as they stand (`given?`).
-/

namespace IntentGate.Json

open Text (digitsValue)

/-- All numbers of a document, at any depth, are finite. -/
inductive FiniteNumbers : Json → Prop where
  | null : FiniteNumbers .null
  | bool (b : Bool) : FiniteNumbers (.bool b)
  | number {n : Number} (hn : n.toFloat.isFinite = true) : FiniteNumbers (.number n)
  | text (s : String) : FiniteNumbers (.text s)
  | array {items : List Json} (hitems : ∀ item ∈ items, FiniteNumbers item) :
      FiniteNumbers (.array items)
  | object {fields : List (String × Json)} (hfields : ∀ f ∈ fields, FiniteNumbers f.2) :
      FiniteNumbers (.object fields)
  | unreadable : FiniteNumbers .unreadable

/-! ## Numbers -/

theorem isFinite_ofInt_ofNat {n : Nat} (hn : n < UInt64.size) :
    (Number.int n).toFloat.isFinite = true :=
  Double.isFinite_ofNat hn

theorem isFinite_ofInt_neg {n : Nat} (hn : n ≤ UInt64.size / 2) :
    (Number.int (-n)).toFloat.isFinite = true := by
  have hsize : UInt64.size / 2 < UInt64.size := by decide
  cases n with
  | zero => exact Double.isFinite_ofNat (by decide)
  | succ n => exact Double.isFinite_neg (Double.isFinite_ofNat (Nat.lt_of_le_of_lt hn hsize))

/-- A literal stands for a finite number or for none. -/
theorem finiteNumbers_toJson (l : Literal) : l.toJson.FiniteNumbers := by
  have hreal (w : Word) : FiniteNumbers (if w.toFloat.isFinite then
      .number (.real (if l.negative then -w.toFloat else w.toFloat)) else .unreadable) := by
    split
    next hfinite =>
      refine .number ?_
      change (if l.negative then -w.toFloat else w.toFloat).isFinite = true
      split
      · exact Double.isFinite_neg hfinite
      · exact hfinite
    · exact .unreadable
  obtain ⟨negative, whole, _ | ⟨fraction, exponent⟩⟩ := l
  · cases negative with
    | false =>
      change FiniteNumbers (if digitsValue whole < UInt64.size then _ else _)
      split
      next h => exact .number (isFinite_ofInt_ofNat h)
      · exact hreal _
    | true =>
      change FiniteNumbers (if digitsValue whole ≠ 0 ∧ digitsValue whole ≤ UInt64.size / 2 then _
        else _)
      split
      next h => exact .number (isFinite_ofInt_neg h.2)
      · exact hreal _
  · exact hreal _

theorem finiteNumbers_of_number? {cs rest : List Char} {j : Json}
    (h : number? cs = some (j, rest)) : j.FiniteNumbers := by
  obtain ⟨⟨l, _⟩, -, hl⟩ := Option.map_eq_some_iff.1 h
  obtain ⟨rfl, rfl⟩ := Prod.mk.inj hl
  exact finiteNumbers_toJson l

/-! ## Trees -/

/-- What the readers of one value, of items and of fields give with some fuel has finite numbers. -/
structure ReadsFinite (fuel : Nat) : Prop where
  value : ∀ {cs j rest}, value? fuel cs = some (j, rest) → j.FiniteNumbers
  items : ∀ {cs items rest}, items? fuel cs = some (items, rest) → ∀ j ∈ items, j.FiniteNumbers
  fields : ∀ {cs fields rest}, fields? fuel cs = some (some fields, rest) →
    ∀ f ∈ fields, f.2.FiniteNumbers

namespace ReadsFinite

variable {fuel : Nat} {cs rest : List Char}

theorem items_succ (h : ReadsFinite fuel) {items : List Json}
    (hread : items? (fuel + 1) cs = some (items, rest)) : ∀ j ∈ items, j.FiniteNumbers := by
  rw [items?] at hread
  obtain ⟨⟨item, cs'⟩, hitem, hread⟩ := Option.bind_eq_some_iff.1 hread
  have hfirst := h.value hitem
  dsimp only at hread
  split at hread
  · obtain ⟨rfl, -⟩ := Prod.mk.inj (Option.some.inj hread)
    exact List.forall_mem_singleton.2 hfirst
  · obtain ⟨⟨more, cs''⟩, hmore, hread⟩ := Option.bind_eq_some_iff.1 hread
    obtain ⟨rfl, -⟩ := Prod.mk.inj (Option.some.inj hread)
    exact List.forall_mem_cons.2 ⟨hfirst, h.items hmore⟩
  · cases hread

theorem fields_succ (h : ReadsFinite fuel) {fields : List (String × Json)}
    (hread : fields? (fuel + 1) cs = some (some fields, rest)) :
    ∀ f ∈ fields, f.2.FiniteNumbers := by
  unfold fields? at hread
  dsimp only at hread
  split at hread
  next cs =>
    obtain ⟨⟨name, cs'⟩, -, hread⟩ := Option.bind_eq_some_iff.1 hread
    dsimp only at hread
    split at hread
    next cs'' =>
      obtain ⟨⟨value, cs₁⟩, hvalue, hread⟩ := Option.bind_eq_some_iff.1 hread
      have hfirst := h.value hvalue
      dsimp only at hread
      split at hread
      next cs₂ =>
        obtain ⟨hfields, -⟩ := Prod.mk.inj (Option.some.inj hread)
        obtain ⟨f, hf, rfl⟩ := Option.map_eq_some_iff.1 hfields
        obtain ⟨name, -, rfl⟩ := Option.map_eq_some_iff.1 hf
        exact List.forall_mem_singleton.2 hfirst
      next cs₂ =>
        obtain ⟨⟨more, cs₃⟩, hmore, hread⟩ := Option.bind_eq_some_iff.1 hread
        obtain ⟨hfields, -⟩ := Prod.mk.inj (Option.some.inj hread)
        obtain ⟨f, hf, hfields⟩ := Option.bind_eq_some_iff.1 hfields
        obtain ⟨name, -, rfl⟩ := Option.map_eq_some_iff.1 hf
        obtain ⟨fs, rfl, rfl⟩ := Option.map_eq_some_iff.1 hfields
        exact List.forall_mem_cons.2 ⟨hfirst, h.fields hmore⟩
      · cases hread
    · cases hread
  · cases hread

theorem value_succ (h : ReadsFinite fuel) {j : Json}
    (hread : value? (fuel + 1) cs = some (j, rest)) : j.FiniteNumbers := by
  unfold value? at hread
  dsimp only at hread
  split at hread
  · cases hread
  next c cs =>
    split at hread
    · obtain ⟨_, -, hj⟩ := Option.map_eq_some_iff.1 hread
      obtain ⟨rfl, -⟩ := Prod.mk.inj hj
      exact .null
    split at hread
    · obtain ⟨_, -, hj⟩ := Option.map_eq_some_iff.1 hread
      obtain ⟨rfl, -⟩ := Prod.mk.inj hj
      exact .bool true
    split at hread
    · obtain ⟨_, -, hj⟩ := Option.map_eq_some_iff.1 hread
      obtain ⟨rfl, -⟩ := Prod.mk.inj hj
      exact .bool false
    split at hread
    · obtain ⟨⟨s, _⟩, -, hj⟩ := Option.map_eq_some_iff.1 hread
      obtain ⟨rfl, -⟩ := Prod.mk.inj hj
      cases s with
      | none => exact .unreadable
      | some s => exact .text s
    split at hread
    · split at hread
      · obtain ⟨rfl, -⟩ := Prod.mk.inj (Option.some.inj hread)
        exact .array nofun
      · obtain ⟨⟨items, _⟩, hitems, hj⟩ := Option.map_eq_some_iff.1 hread
        obtain ⟨rfl, -⟩ := Prod.mk.inj hj
        exact .array (h.items hitems)
    split at hread
    · split at hread
      · obtain ⟨rfl, -⟩ := Prod.mk.inj (Option.some.inj hread)
        exact .object nofun
      · obtain ⟨⟨fields, _⟩, hfields, hj⟩ := Option.map_eq_some_iff.1 hread
        obtain ⟨rfl, -⟩ := Prod.mk.inj hj
        cases fields with
        | none => exact .unreadable
        | some fields => exact .object (h.fields hfields)
    · exact finiteNumbers_of_number? hread

end ReadsFinite

theorem readsFinite (fuel : Nat) : ReadsFinite fuel := by
  induction fuel with
  | zero =>
    constructor
    · intro cs j rest h
      rw [value?] at h
      cases h
    · intro cs items rest h
      rw [items?] at h
      cases h
    · intro cs fields rest h
      rw [fields?] at h
      cases h
  | succ fuel ih => exact ⟨ih.value_succ, ih.items_succ, ih.fields_succ⟩

/-- Whatever is read from a text has finite numbers only. -/
theorem finiteNumbers_of_parse? {s : String} {j : Json} (h : parse? s = some j) :
    j.FiniteNumbers := by
  unfold parse? at h
  dsimp only at h
  split at h
  next j' rest hread =>
    split at h
    · obtain rfl : j' = j := Option.some.inj h
      exact (readsFinite _).value hread
    · cases h
  · cases h

/-! ## Fields of records -/

/-- What a document gives for a field of a record. -/
def given? (names : List String) (name : String) (j : Json) : Option Json := do
  match (names.zip (← j.slots? names)).lookup name with
  | some (.given value) => some value
  | _ => none

/-- The number that a document gives for a field of a record. -/
def givenNumber? (names : List String) (name : String) (j : Json) : Option Float :=
  (j.given? names name).bind toFloat?

/-- What a document gives for a field is part of it. -/
theorem FiniteNumbers.of_slots? {j : Json} (hj : j.FiniteNumbers) {names : List String}
    {slots : List (Slot Json)} (hslots : j.slots? names = some slots) {value : Json}
    (hvalue : .given value ∈ slots) : value.FiniteNumbers := by
  cases hj with
  | @array items hitems =>
    unfold slots? Record.slotsOfItems? at hslots
    dsimp only at hslots
    split at hslots
    · cases hslots
    · obtain rfl := Option.some.inj hslots
      rcases List.mem_append.1 hvalue with hvalue | hvalue
      · obtain ⟨item, hitem, hgiven⟩ := List.mem_map.1 hvalue
        obtain rfl : item = value := Slot.given.inj hgiven
        exact hitems item hitem
      · cases List.eq_of_mem_replicate hvalue
  | @object fields hfields =>
    obtain ⟨name, -, hslot⟩ := Traversal.exists_of_mem_mapM hslots hvalue
    split at hslot
    · cases hslot
    next f hfilter =>
      obtain rfl : f.2 = value := Slot.given.inj (Option.some.inj hslot)
      refine hfields f (List.mem_of_mem_filter (p := fun f => f.1 == name) ?_)
      rw [hfilter]
      exact List.mem_singleton_self f
    · cases hslot
  | _ => cases hslots

theorem FiniteNumbers.isFinite {j : Json} (hj : j.FiniteNumbers) {x : Float}
    (hx : j.toFloat? = some x) : x.isFinite = true := by
  cases hj with
  | number hn =>
    obtain rfl := Option.some.inj hx
    exact hn
  | _ => cases hx

end IntentGate.Json
