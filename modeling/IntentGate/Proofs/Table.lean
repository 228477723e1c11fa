import IntentGate.Table
import Mathlib.Data.List.Perm.Subperm

/-!
# Keys and sizes of tables

Keys are distinct, so a table has as many rows as it has keys, and what is known of the keys that
find something bounds its size (`size_le_of_keys`).
-/

namespace IntentGate.Table

universe u v

variable {κ : Type u} {α : Type v}

/-- The keys that have a row. -/
def keys (t : Table κ α) : List κ :=
  t.rows.map (·.1)

theorem nodup_keys (t : Table κ α) : t.keys.Nodup :=
  List.pairwise_map.2 t.distinct

theorem length_keys (t : Table κ α) : t.keys.length = t.size :=
  List.length_map ..

theorem size_filter (t : Table κ α) (keep : κ → α → Bool) :
    (t.filter keep).size = t.rows.countP fun r => keep r.1 r.2 :=
  List.countP_eq_length_filter.symm

theorem size_filter_le (t : Table κ α) (keep : κ → α → Bool) : (t.filter keep).size ≤ t.size :=
  List.length_filter_le ..

/-- The rows that a test drops and those that it keeps are all there are. -/
theorem countP_add_size_filter (t : Table κ α) (keep : κ → α → Bool) :
    (t.rows.countP fun r => !keep r.1 r.2) + (t.filter keep).size = t.size := by
  rw [size_filter, Nat.add_comm, size, List.length_eq_countP_add_countP fun r => keep r.1 r.2]
  simp only [Bool.not_eq_true, Bool.decide_eq_false]

variable [DecidableEq κ]

theorem find?_erase (t : Table κ α) (key k : κ) :
    (t.erase key).find? k = if k = key then none else t.find? k := by
  rw [erase, find?_filter]
  by_cases h : k = key
  · simp [h]
  · cases t.find? k <;> simp [h]

theorem mem_keys_iff {t : Table κ α} {key : κ} :
    key ∈ t.keys ↔ ∃ value, t.find? key = some value := by
  simp only [keys, List.mem_map, find?_eq_some_iff]
  constructor
  · rintro ⟨r, hr, rfl⟩
    exact ⟨r.2, hr⟩
  · rintro ⟨value, hr⟩
    exact ⟨(key, value), hr, rfl⟩

/-- If each key of a table is one of another table or of a list, these bound its size. -/
theorem size_le_of_keys {t t' : Table κ α} {keys : List κ}
    (h : ∀ key value, t.find? key = some value → t'.find? key = some value ∨ key ∈ keys) :
    t.size ≤ t'.size + keys.length := by
  have hsub : t.keys ⊆ t'.keys ++ keys := fun key hkey => by
    obtain ⟨value, hvalue⟩ := mem_keys_iff.1 hkey
    exact List.mem_append.2 ((h key value hvalue).imp_left fun h' => mem_keys_iff.2 ⟨value, h'⟩)
  rw [← length_keys, ← length_keys, ← List.length_append]
  exact (t.nodup_keys.subperm hsub).length_le

end IntentGate.Table
