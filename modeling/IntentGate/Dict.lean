/-!
# Dictionaries

A `Dict α` maps texts to values. Its entries stand in ascending key order and no key occurs twice,
so the entries are the dictionary: two dictionaries with the same value at every key are equal.
`insert` replaces the value of a key that is already there, hence in `ofList` the last value given
for a key wins.
-/

namespace IntentGate

universe u v

/-- A map from texts to values, its entries in strictly ascending key order. -/
structure Dict (α : Type u) where
  entries : List (String × α)
  ascending : entries.Pairwise fun a b => a.1 < b.1

namespace Dict

variable {α : Type u} {β : Type v}

/-- Puts a value at its place among ascending entries, in the stead of the one with its key. -/
def insertEntry (key : String) (value : α) : List (String × α) → List (String × α)
  | [] => [(key, value)]
  | e :: rest =>
    if key < e.1 then (key, value) :: e :: rest
    else if key = e.1 then (key, value) :: rest
    else e :: insertEntry key value rest

/-- The keys after an insertion are those before it and the new one. -/
theorem mem_keys_insertEntry {key k : String} {value : α} {es : List (String × α)} :
    k ∈ (insertEntry key value es).map (·.1) ↔ k = key ∨ k ∈ es.map (·.1) := by
  induction es with
  | nil => simp [insertEntry]
  | cons e rest ih =>
    simp only [insertEntry]
    split
    · simp
    · split
      · next h => simp [h]
      · simp only [List.map_cons, List.mem_cons, ih]
        constructor
        · rintro (h | h | h) <;> simp [h]
        · rintro (h | h | h) <;> simp [h]

/-- Insertion keeps the entries in ascending key order. -/
theorem insertEntry_ascending {key : String} {value : α} {es : List (String × α)}
    (h : es.Pairwise fun a b => a.1 < b.1) :
    (insertEntry key value es).Pairwise fun a b => a.1 < b.1 := by
  induction es with
  | nil => simp [insertEntry]
  | cons e rest ih =>
    obtain ⟨hhead, hrest⟩ := List.pairwise_cons.1 h
    simp only [insertEntry]
    split
    · next hlt =>
      refine List.pairwise_cons.2 ⟨fun b hb => ?_, h⟩
      rcases List.mem_cons.1 hb with rfl | hb
      · exact hlt
      · exact String.lt_trans hlt (hhead b hb)
    · split
      · next heq =>
        exact List.pairwise_cons.2 ⟨fun b hb => heq ▸ hhead b hb, hrest⟩
      · next hnlt hne =>
        refine List.pairwise_cons.2 ⟨fun b hb => ?_, ih hrest⟩
        have hb' : b.1 ∈ (insertEntry key value rest).map (·.1) := List.mem_map_of_mem hb
        rcases mem_keys_insertEntry.1 hb' with hk | hk
        · rw [hk]
          rcases String.le_total key e.1 with hle | hle
          · exact absurd (String.le_antisymm hle (String.not_lt.1 hnlt)) hne
          · refine String.not_le.1 fun hge => hne (String.le_antisymm hge hle)
        · obtain ⟨b', hb'', hkey⟩ := List.mem_map.1 hk
          exact hkey ▸ hhead b' hb''

/-- The dictionary without entries. -/
def empty : Dict α := ⟨[], List.Pairwise.nil⟩

instance : EmptyCollection (Dict α) := ⟨empty⟩

instance : Inhabited (Dict α) := ⟨empty⟩

/-- Two dictionaries with the same entries are the same. -/
theorem ext_entries {d e : Dict α} (h : d.entries = e.entries) : d = e := by
  cases d; cases e; simp_all

instance [DecidableEq α] : DecidableEq (Dict α) := fun d e =>
  if h : d.entries = e.entries then isTrue (ext_entries h)
  else isFalse fun he => h (he ▸ rfl)

/-- Puts a value at a key. -/
def insert (d : Dict α) (key : String) (value : α) : Dict α :=
  ⟨insertEntry key value d.entries, insertEntry_ascending d.ascending⟩

/-- The value of the first entry with a key. -/
def findEntry (key : String) : List (String × α) → Option α
  | [] => none
  | e :: rest => if key = e.1 then some e.2 else findEntry key rest

/-- The value at a key. -/
def get? (d : Dict α) (key : String) : Option α :=
  findEntry key d.entries

/-- Whether a key has a value. -/
def contains (d : Dict α) (key : String) : Bool :=
  (d.get? key).isSome

/-- The keys, ascending. -/
def keys (d : Dict α) : List String :=
  d.entries.map (·.1)

/-- The values, in the order of their keys. -/
def values (d : Dict α) : List α :=
  d.entries.map (·.2)

/-- The number of keys. -/
def size (d : Dict α) : Nat :=
  d.entries.length

/-- Whether there is no key. -/
def isEmpty (d : Dict α) : Bool :=
  d.entries.isEmpty

/-- Changes every value; the keys stay. -/
def mapValues (d : Dict α) (f : String → α → β) : Dict β :=
  ⟨d.entries.map fun e => (e.1, f e.1 e.2),
    List.pairwise_map.2 d.ascending⟩

/-- The dictionary of some entries, given in any order; the last value of a key wins. -/
def ofList (es : List (String × α)) : Dict α :=
  es.foldl (fun d e => d.insert e.1 e.2) empty

@[simp] theorem entries_empty : (empty : Dict α).entries = [] := rfl

@[simp] theorem keys_mapValues (d : Dict α) (f : String → α → β) :
    (d.mapValues f).keys = d.keys := by
  simp [keys, mapValues]

theorem findEntry_insertEntry (key k : String) (value : α) (es : List (String × α)) :
    findEntry k (insertEntry key value es) = if k = key then some value else findEntry k es := by
  induction es with
  | nil => simp [insertEntry, findEntry]
  | cons e rest ih =>
    simp only [insertEntry]
    split
    · simp [findEntry]
    · split
      · next heq =>
        by_cases h : k = e.1 <;> simp [findEntry, heq, h]
      · next hne =>
        by_cases hk : k = e.1
        · have h : k ≠ key := fun h => hne (h ▸ hk)
          simp only [findEntry, hk, if_true, hk ▸ h, if_false]
        · simp [findEntry, hk, ih]

/-- An inserted key has the new value; every other key keeps its own. -/
theorem get?_insert (d : Dict α) (key k : String) (value : α) :
    (d.insert key value).get? k = if k = key then some value else d.get? k :=
  findEntry_insertEntry key k value d.entries

@[simp] theorem get?_empty (key : String) : (empty : Dict α).get? key = none := rfl

/-- Changing every value changes the one at a key. -/
theorem get?_mapValues (d : Dict α) (f : String → α → β) (key : String) :
    (d.mapValues f).get? key = (d.get? key).map (f key) := by
  simp only [get?, mapValues]
  induction d.entries with
  | nil => rfl
  | cons e rest ih =>
    by_cases h : key = e.1
    · simp [findEntry, h]
    · simp [findEntry, h, ih]

/-- The value at a key is that of the entry with the key. -/
theorem get?_eq_some_iff {d : Dict α} {key : String} {value : α} :
    d.get? key = some value ↔ (key, value) ∈ d.entries := by
  obtain ⟨es, ascending⟩ := d
  simp only [get?]
  induction es with
  | nil => simp [findEntry]
  | cons e rest ih =>
    obtain ⟨hhead, hrest⟩ := List.pairwise_cons.1 ascending
    rw [findEntry, List.mem_cons]
    by_cases h : key = e.1
    · have hnot : (key, value) ∉ rest := fun hmem =>
        String.lt_irrefl e.1 (h ▸ hhead _ hmem)
      simp only [if_pos h, Option.some.injEq, hnot, or_false]
      exact ⟨fun hv => Prod.ext h hv.symm, fun hv => (congrArg Prod.snd hv).symm⟩
    · have hne : (key, value) ≠ e := fun he => h (congrArg Prod.fst he)
      simp only [if_neg h, hne, false_or]
      exact ih hrest

/-- The keys are those that have a value. -/
theorem mem_keys_iff {d : Dict α} {key : String} : key ∈ d.keys ↔ (d.get? key).isSome := by
  simp only [keys, List.mem_map, Option.isSome_iff_exists, get?_eq_some_iff]
  exact ⟨fun ⟨e, he, hk⟩ => ⟨e.2, hk ▸ he⟩, fun ⟨v, hv⟩ => ⟨(key, v), hv, rfl⟩⟩

theorem nodup_keys (d : Dict α) : d.keys.Nodup := by
  refine List.pairwise_map.2 (d.ascending.imp ?_)
  intro a b hlt heq
  exact String.lt_irrefl b.1 (heq ▸ hlt)

/-- Two dictionaries with the same value at every key are the same. -/
theorem ext_get? {d e : Dict α} (h : ∀ key, d.get? key = e.get? key) : d = e := by
  have hmem (x : String × α) : x ∈ d.entries ↔ x ∈ e.entries := by
    rw [← get?_eq_some_iff (d := d), ← get?_eq_some_iff (d := e), h]
  have hnodup (f : Dict α) : f.entries.Nodup :=
    (List.pairwise_map.1 f.nodup_keys).imp fun hne heq => hne (congrArg Prod.fst heq)
  have hperm := (List.perm_ext_iff_of_nodup (hnodup d) (hnodup e)).2 hmem
  refine ext_entries (hperm.eq_of_pairwise ?_ d.ascending e.ascending)
  intro a b _ _ hab hba
  exact absurd (String.lt_trans hab hba) (String.lt_irrefl _)

end Dict

end IntentGate
