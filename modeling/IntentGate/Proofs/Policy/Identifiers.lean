import IntentGate.Policy.Execution
import IntentGate.Proofs.Traversal
import Mathlib.Algebra.GroupWithZero.Nat

/-!
# Identifiers read back

The text of an identifier is read as the identifier (`idOfText?_idText`). The digits of its number,
filled up with zeros, have that number for their value, and taking the hyphens out of grouped digits
gives the digits. That the text is taken for a grouped one, and not for one after a scheme, is seen
from its length and its first character.
-/

namespace IntentGate.DecisionRecord

/-! ## Digits -/

/-- The characters are the hexadecimal digits of a number, most significant first. -/
def HexDigits (ds : List Char) (n : Nat) : Prop :=
  ∃ vs : List Nat, ds = vs.map Nat.digitChar ∧ (∀ v ∈ vs, v < 16) ∧
    vs.foldl (fun n v => 16 * n + v) 0 = n

theorem hexValue?_digitChar {n : Nat} (hn : n < 16) : Json.hexValue? (Nat.digitChar n) = some n := by
  revert n
  decide

theorem toLower_digitChar_ne {n : Nat} (hn : n < 16) : (Nat.digitChar n).toLower ≠ 'u' := by
  revert n
  decide

theorem hexDigits_toDigits (n : Nat) : HexDigits (Nat.toDigits 16 n) n := by
  induction n using Nat.strongRecOn with
  | ind n ih =>
    rw [Nat.toDigits_eq_if (by decide)]
    split
    next hlt => exact ⟨[n], rfl, List.forall_mem_singleton.2 hlt, Nat.zero_add n⟩
    next hge =>
      have hlast : n % 16 < 16 := Nat.mod_lt n (by decide)
      obtain ⟨vs, hvs, hdigits, hn⟩ := ih (n / 16) (by omega)
      refine ⟨vs ++ [n % 16], by rw [hvs, List.map_append]; rfl, ?_, ?_⟩
      · exact List.forall_mem_append.2 ⟨hdigits, List.forall_mem_singleton.2 hlast⟩
      · rw [List.foldl_append, hn]
        exact Nat.div_add_mod n 16

theorem HexDigits.zeros {ds : List Char} {n : Nat} (h : HexDigits ds n) (k : Nat) :
    HexDigits (List.replicate k '0' ++ ds) n := by
  induction k with
  | zero => exact h
  | succ k ih =>
    obtain ⟨vs, hvs, hdigits, hn⟩ := ih
    refine ⟨0 :: vs, ?_, List.forall_mem_cons.2 ⟨by decide, hdigits⟩, hn⟩
    rw [List.replicate_succ, List.cons_append, hvs]
    rfl

theorem HexDigits.mapM_hexValue? {ds : List Char} {n : Nat} (h : HexDigits ds n) :
    ∃ vs, ds.mapM Json.hexValue? = some vs ∧ vs.foldl (fun n v => 16 * n + v) 0 = n := by
  obtain ⟨vs, rfl, hdigits, hn⟩ := h
  refine ⟨vs, ?_, hn⟩
  rw [Traversal.mapM_eq_some_iff, List.forall₂_map_left_iff, List.forall₂_same]
  exact fun v hv => hexValue?_digitChar (hdigits v hv)

/-- The digits of an identifier, filled up to thirty-two. -/
def idDigits (id : BitVec 128) : List Char :=
  let ds := Nat.toDigits 16 id.toNat
  List.replicate (32 - ds.length) '0' ++ ds

theorem hexDigits_idDigits (id : BitVec 128) : HexDigits (idDigits id) id.toNat :=
  (hexDigits_toDigits id.toNat).zeros _

theorem length_idDigits (id : BitVec 128) : (idDigits id).length = 32 := by
  have hle : (Nat.toDigits 16 id.toNat).length ≤ 32 :=
    (Nat.length_toDigits_le_iff (by decide) (by decide)).2 id.isLt
  rw [idDigits, List.length_append, List.length_replicate]
  omega

theorem idOfDigits?_idDigits (id : BitVec 128) : idOfDigits? (idDigits id) = some id := by
  obtain ⟨vs, hvs, hn⟩ := (hexDigits_idDigits id).mapM_hexValue?
  rw [idOfDigits?, if_pos (length_idDigits id), hvs, Option.map_some, hn, BitVec.ofNat_toNat,
    BitVec.setWidth_eq]

/-! ## Groups -/

theorem ungrouped?_hyphenated {ns : List Nat} (hns : ns ≠ []) {ds : List Char}
    (hlength : ds.length = ns.sum) : ungrouped? ns (hyphenated ns ds) = some ds := by
  induction ns generalizing ds with
  | nil => exact absurd rfl hns
  | cons n ns ih =>
    cases ns with
    | nil =>
      rw [hyphenated, ungrouped?, if_pos]
      simpa using hlength
    | cons m ns =>
      rw [List.sum_cons] at hlength
      have htake : (ds.take n).length = n := List.length_take_of_le (by omega)
      have hrest : ungrouped? (m :: ns) (hyphenated (m :: ns) (ds.drop n)) = some (ds.drop n) :=
        ih (List.cons_ne_nil _ _) (by rw [List.length_drop]; omega)
      change ungrouped? (n :: m :: ns) (ds.take n ++ '-' :: hyphenated (m :: ns) (ds.drop n)) = _
      rw [ungrouped?, List.drop_left' htake]
      · change (ungrouped? (m :: ns) (hyphenated (m :: ns) (ds.drop n))).map _ = _
        rw [hrest, List.take_left' htake, Option.map_some, List.take_append_drop]
      · exact List.cons_ne_nil _ _

theorem length_hyphenated_idGroups {ds : List Char} (h : ds.length = 32) :
    (hyphenated idGroups ds).length = 36 := by
  simp [hyphenated, idGroups, h]

/-- Grouped digits do not start like a scheme. -/
theorem HexDigits.ne_scheme {ds : List Char} {n : Nat} (h : HexDigits ds n)
    (hlength : ds.length = 32) :
    ((hyphenated idGroups ds).take 9).map Char.toLower ≠ "urn:uuid:".toList := by
  obtain ⟨vs, rfl, hdigits, -⟩ := h
  cases vs with
  | nil => cases hlength
  | cons v vs =>
    intro heq
    exact toLower_digitChar_ne (hdigits v List.mem_cons_self) (List.cons.inj heq).1

/-- The text of an identifier is read as the identifier. -/
theorem idOfText?_idText (id : BitVec 128) : idOfText? (idText id) = some id := by
  have hlength := length_hyphenated_idGroups (length_idDigits id)
  have hscheme := (hexDigits_idDigits id).ne_scheme (length_idDigits id)
  have hgrouped : ungrouped? idGroups (hyphenated idGroups (idDigits id)) = some (idDigits id) :=
    ungrouped?_hyphenated (by decide) (length_idDigits id)
  change idOfText? (String.ofList (hyphenated idGroups (idDigits id))) = _
  rw [idOfText?, String.toList_ofList]
  generalize hyphenated idGroups (idDigits id) = cs at hlength hscheme hgrouped
  have hplain : ¬cs.length = 32 := by omega
  have hbraces : ¬(cs.length = 38 && cs.head? == some '\x7b' && cs.getLast? == some '\x7d') = true := by
    rw [hlength]
    exact Bool.false_ne_true
  have hbeq : ¬((cs.take 9).map Char.toLower == "urn:uuid:".toList) = true :=
    fun h => hscheme (eq_of_beq h)
  dsimp only
  rw [if_neg hplain, if_neg hbraces, if_neg hbeq, hgrouped, Option.bind_some]
  exact idOfDigits?_idDigits id

end IntentGate.DecisionRecord
