import IntentGate.Behavior.Vector
import IntentGate.Proofs.Double.Natural

/-!
# Counting dimensions

`BehaviorVector.ofKeys` adds one unit at a time to a double. Here the result is compared with the
number of occurrences: a dimension has a value exactly if it occurs (`mem_keys_ofKeys`), the value
is the number of its occurrences (`get?_ofKeys_eq_count`), and all values add up to the number of
keys (`total_ofKeys`), as long as there are fewer than `2 ^ 53` keys, beyond which a double no
longer counts. That the order of the keys does not matter (`ofKeys_perm`) holds without a bound.
-/

namespace IntentGate.BehaviorVector

/-! ## Units -/

/-- One unit added to zero so many times. -/
def units : Nat → Float
  | 0 => 0
  | n + 1 => units n + 1

theorem units_eq_ofNat {n : Nat} (hlt : n < 2 ^ 53) : units n = Float.ofNat n := by
  induction n with
  | zero => rfl
  | succ n ih =>
    rw [units, ih (by omega)]
    exact Double.ofNat_add hlt

/-- Doubles of natural numbers add up to the double of their sum. -/
theorem foldl_add_ofNat {ns : List Nat} {a : Nat} (hlt : a + ns.sum < 2 ^ 53) :
    (ns.map Float.ofNat).foldl (· + ·) (Float.ofNat a) = Float.ofNat (a + ns.sum) := by
  induction ns generalizing a with
  | nil => rfl
  | cons n rest ih =>
    rw [List.sum_cons] at hlt
    rw [List.map_cons, List.foldl_cons, Double.ofNat_add (by omega), ih (by omega), List.sum_cons,
      Nat.add_assoc]

theorem sum_ofNat {ns : List Nat} (hlt : ns.sum < 2 ^ 53) :
    Scalar.sum (ns.map Float.ofNat) = Float.ofNat ns.sum := by
  cases ns with
  | nil => rfl
  | cons n rest =>
    rw [List.sum_cons] at hlt ⊢
    exact foldl_add_ofNat hlt

/-! ## The vector of some keys -/

theorem ofKeys_append_singleton (keys : List String) (key : String) :
    ofKeys (keys ++ [key]) = (ofKeys keys).addUnit key := by
  rw [ofKeys, List.foldl_append]
  rfl

/-- Each occurrence of a key adds one unit to its value. -/
theorem get?_ofKeys (keys : List String) (key : String) :
    (ofKeys keys).get? key = if key ∈ keys then some (units (keys.count key)) else none := by
  induction keys using List.reverseRecOn with
  | nil => rfl
  | append_singleton keys k ih =>
    rw [get?] at ih
    rw [ofKeys_append_singleton, addUnit, get?, Dict.get?_insert]
    by_cases h : key = k
    · subst h
      have hlast : key ∈ keys ++ [key] := List.mem_append_right _ (List.mem_singleton_self key)
      rw [if_pos rfl, if_pos hlast, ih, List.count_append, List.count_singleton_self, units]
      by_cases hmem : key ∈ keys
      · rw [if_pos hmem]
        rfl
      · rw [if_neg hmem, List.count_eq_zero_of_not_mem hmem]
        rfl
    · rw [if_neg h, ih]
      have hcount : (keys ++ [k]).count key = keys.count key := by
        simp [List.count_append, Ne.symm h]
      simp [h, hcount]

/-- The order of the keys does not matter. -/
theorem ofKeys_perm {keys keys' : List String} (h : keys.Perm keys') :
    ofKeys keys = ofKeys keys' := by
  have hget (key : String) : (ofKeys keys).get? key = (ofKeys keys').get? key := by
    simp only [get?_ofKeys, h.mem_iff, h.count_eq]
  exact congrArg BehaviorVector.mk (Dict.ext_get? hget)

theorem mem_keys_ofKeys {keys : List String} {key : String} :
    key ∈ (ofKeys keys).dimensions.keys ↔ key ∈ keys := by
  rw [Dict.mem_keys_iff]
  change ((ofKeys keys).get? key).isSome ↔ _
  rw [get?_ofKeys]
  by_cases h : key ∈ keys <;> simp [h]

/-- The dimensions are the distinct keys. -/
theorem keys_ofKeys_perm (keys : List String) : (ofKeys keys).dimensions.keys.Perm keys.dedup := by
  refine (List.perm_ext_iff_of_nodup (Dict.nodup_keys _) keys.nodup_dedup).2 fun key => ?_
  rw [mem_keys_ofKeys, List.mem_dedup]

theorem size_ofKeys (keys : List String) : (ofKeys keys).size = keys.dedup.length := by
  rw [← (keys_ofKeys_perm keys).length_eq]
  exact (List.length_map ..).symm

section Exact

variable {keys : List String} (hlt : keys.length < 2 ^ 53)

include hlt

/-- The value of a dimension is the number of its occurrences. -/
theorem get?_ofKeys_eq_count {key : String} (hmem : key ∈ keys) :
    (ofKeys keys).get? key = some (Float.ofNat (keys.count key)) := by
  rw [get?_ofKeys, if_pos hmem, units_eq_ofNat]
  exact Nat.lt_of_le_of_lt List.count_le_length hlt

theorem values_ofKeys :
    (ofKeys keys).dimensions.values =
      ((ofKeys keys).dimensions.keys.map (keys.count ·)).map Float.ofNat := by
  rw [Dict.values, Dict.keys, List.map_map, List.map_map]
  refine List.map_congr_left fun e he => ?_
  have hmem : e.1 ∈ keys := mem_keys_ofKeys.1 (List.mem_map_of_mem he)
  have hget : (ofKeys keys).get? e.1 = some e.2 := Dict.get?_eq_some_iff.2 he
  exact Option.some.inj (hget.symm.trans (get?_ofKeys_eq_count hlt hmem))

/-- The values add up to the number of keys. -/
theorem total_ofKeys : (ofKeys keys).total = Float.ofNat keys.length := by
  have hsum : ((ofKeys keys).dimensions.keys.map (keys.count ·)).sum = keys.length := by
    rw [((keys_ofKeys_perm keys).map _).sum_eq]
    exact List.sum_map_count_dedup_eq_length keys
  rw [total, values_ofKeys hlt, sum_ofNat (by rw [hsum]; exact hlt), hsum]

end Exact

end IntentGate.BehaviorVector
