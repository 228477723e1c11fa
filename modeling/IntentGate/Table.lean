/-!
# Tables

A `Table κ α` keeps one value per key and promises no order: it is what caches and counters are
stored in. A key that is put again leaves its old place, so keys stay distinct.
-/

namespace IntentGate

universe u v

/-- One value per key, in no promised order. -/
structure Table (κ : Type u) (α : Type v) where
  rows : List (κ × α)
  distinct : rows.Pairwise fun a b => a.1 ≠ b.1

namespace Table

variable {κ : Type u} {α : Type v}

/-- The table without rows. -/
def empty : Table κ α := ⟨[], List.Pairwise.nil⟩

instance : EmptyCollection (Table κ α) := ⟨empty⟩

instance : Inhabited (Table κ α) := ⟨empty⟩

/-- Keeps the rows that pass a test. -/
def filter (t : Table κ α) (keep : κ → α → Bool) : Table κ α :=
  ⟨t.rows.filter fun r => keep r.1 r.2, t.distinct.filter _⟩

/-- The number of rows. -/
def size (t : Table κ α) : Nat :=
  t.rows.length

variable [DecidableEq κ]

/-- Removes the row of a key, if it has one. -/
def erase (t : Table κ α) (key : κ) : Table κ α :=
  t.filter fun k _ => k ≠ key

/-- Stores a value at a key, in the stead of the one that was there. -/
def put (t : Table κ α) (key : κ) (value : α) : Table κ α :=
  ⟨(key, value) :: (t.erase key).rows, by
    refine List.pairwise_cons.2 ⟨fun r hr => ?_, (t.erase key).distinct⟩
    have := (List.mem_filter.1 hr).2
    simpa using fun h => (of_decide_eq_true this) h.symm⟩

/-- The value at a key. -/
def find? (t : Table κ α) (key : κ) : Option α :=
  (t.rows.find? fun r => r.1 = key).map (·.2)

@[simp] theorem find?_empty (key : κ) : (empty : Table κ α).find? key = none := rfl

/-- What a key finds is its row. -/
theorem find?_eq_some_iff {t : Table κ α} {key : κ} {value : α} :
    t.find? key = some value ↔ (key, value) ∈ t.rows := by
  obtain ⟨rows, distinct⟩ := t
  simp only [find?]
  induction rows with
  | nil => simp
  | cons r rest ih =>
    obtain ⟨hhead, hrest⟩ := List.pairwise_cons.1 distinct
    rw [List.find?_cons, List.mem_cons]
    by_cases h : r.1 = key
    · have hnot : (key, value) ∉ rest := fun hmem => hhead _ hmem h
      simp only [h, decide_true, Option.map_some, Option.some.injEq, hnot, or_false]
      exact ⟨fun hv => Prod.ext h.symm hv.symm, fun hv => (congrArg Prod.snd hv).symm⟩
    · have hne : (key, value) ≠ r := fun he => h (congrArg Prod.fst he).symm
      simp only [h, decide_false, ih hrest, hne, false_or]

/-- A key finds in a filtered table what it found before, if that passes the test. -/
theorem find?_filter (t : Table κ α) (keep : κ → α → Bool) (key : κ) :
    (t.filter keep).find? key = (t.find? key).filter (keep key) := by
  refine Option.ext fun value => ?_
  rw [find?_eq_some_iff, filter, List.mem_filter, ← find?_eq_some_iff, Option.filter_eq_some_iff]

/-- A key that was put finds its new value; every other key finds what it found before. -/
theorem find?_put (t : Table κ α) (key k : κ) (value : α) :
    (t.put key value).find? k = if k = key then some value else t.find? k := by
  refine Option.ext fun v => ?_
  rw [find?_eq_some_iff]
  by_cases h : k = key
  · subst h
    have hnot : (k, v) ∉ (t.erase k).rows := fun hmem => by
      have := (List.mem_filter.1 hmem).2
      simp at this
    simp [put, hnot, eq_comm]
  · have hmem : (k, v) ∈ (t.erase key).rows ↔ (k, v) ∈ t.rows := by
      simp [erase, filter, h]
    simp [put, h, hmem, find?_eq_some_iff]

end Table

end IntentGate
