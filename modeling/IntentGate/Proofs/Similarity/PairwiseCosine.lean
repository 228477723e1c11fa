import IntentGate.Proofs.Double.Rounding
import IntentGate.Proofs.Traversal
import IntentGate.Similarity
import Mathlib.Data.List.Nodup
import Mathlib.Data.List.Pairwise

/-!
# The rules of the cosine score

What a cosine score goes by is decided by the whole list of embeddings and not by their order
(`CosineRule`), although two loops find it out on the way, with a sum that they throw away when two
vectors differ in length (`inLoops`). These come to the same as the cosine score (`inLoops_eq`).
The pairs of places that they visit (`placePairs`) are all pairs `i < j`, each of them once, so
there are `n (n - 1) / 2` of them, and the vectors at these places are the pairs of vectors.
-/

namespace IntentGate.Similarity

/-! ## Pairs of places -/

/-- The pairs of places `i < j` in a list of a length, by `i` and then by `j`. -/
def placePairs (n : Nat) : List (Nat × Nat) :=
  (List.range n).flatMap fun i => (List.range' (i + 1) (n - (i + 1))).map fun j => (i, j)

theorem mem_placePairs {n i j : Nat} : (i, j) ∈ placePairs n ↔ i < j ∧ j < n := by
  simp only [placePairs, List.mem_flatMap, List.mem_range, List.mem_map, List.mem_range'_1,
    Prod.mk.injEq]
  constructor
  · rintro ⟨i', hi, j', hj, rfl, rfl⟩
    omega
  · intro h
    exact ⟨i, by omega, j, by omega, rfl, rfl⟩

theorem nodup_placePairs (n : Nat) : (placePairs n).Nodup := by
  refine List.nodup_flatMap.2 ⟨fun i _ => ?_, ?_⟩
  · exact (List.nodup_range' ..).map fun _ _ h => (Prod.mk.inj h).2
  · refine List.nodup_range.imp fun {i i'} hne => ?_
    intro p hp hp'
    obtain ⟨j, -, rfl⟩ := List.mem_map.1 hp
    obtain ⟨j', -, heq⟩ := List.mem_map.1 hp'
    exact hne (Prod.mk.inj heq).1.symm

/-- The pairs of the first place come first, and then those of the others. -/
theorem placePairs_succ (n : Nat) :
    placePairs (n + 1) =
      (List.range n).map (fun j => (0, j + 1)) ++
        (placePairs n).map fun p => (p.1 + 1, p.2 + 1) := by
  have hlater (i : Nat) :
      (List.range' (i + 1 + 1) (n + 1 - (i + 1 + 1))).map (fun j => (i + 1, j)) =
        ((List.range' (i + 1) (n - (i + 1))).map fun j => (i, j)).map
          fun p => (p.1 + 1, p.2 + 1) := by
    rw [Nat.add_sub_add_right, List.range'_eq_map_range, List.range'_eq_map_range, List.map_map,
      List.map_map, List.map_map]
    refine List.map_congr_left fun j _ => ?_
    simp only [Function.comp_apply, Prod.mk.injEq, true_and]
    omega
  unfold placePairs
  rw [List.range_succ_eq_map, List.flatMap_cons, List.flatMap_map, List.map_flatMap]
  simp only [Nat.succ_eq_add_one, hlater]
  rw [Nat.zero_add, Nat.add_sub_cancel, List.range'_eq_map_range, List.map_map]
  congr 1
  refine List.map_congr_left fun j _ => ?_
  simp only [Function.comp_apply, Nat.add_comm 1]

theorem length_placePairs (n : Nat) : (placePairs n).length = n * (n - 1) / 2 := by
  have htwice : 2 * (placePairs n).length = n * (n - 1) := by
    induction n with
    | zero => rfl
    | succ n ih =>
      rw [placePairs_succ, List.length_append, List.length_map, List.length_map, List.length_range,
        Nat.mul_add, ih]
      cases n with
      | zero => rfl
      | succ n =>
        simp only [Nat.add_sub_cancel]
        ring
  omega

/-- The pairs of members are those at the pairs of places. -/
theorem map_getD_placePairs {β : Type} (xs : List β) (d : β) :
    (placePairs xs.length).map (fun p => (xs.getD p.1 d, xs.getD p.2 d)) = pairs xs := by
  induction xs with
  | nil => rfl
  | cons x xs ih =>
    have hrest : (List.range xs.length).map (fun j => xs.getD j d) = xs := by
      refine List.ext_getElem (by simp) fun j _ hj => ?_
      simp [hj]
    have hfirst : ((List.range xs.length).map fun j => (0, j + 1)).map
        (fun p : Nat × Nat => ((x :: xs).getD p.1 d, (x :: xs).getD p.2 d)) =
          xs.map fun y => (x, y) := by
      nth_rewrite 4 [← hrest]
      rw [List.map_map, List.map_map]
      rfl
    rw [List.length_cons, placePairs_succ, List.map_append, hfirst, List.map_map, pairs, ← ih]
    rfl

/-- What holds of all pairs of members holds of all members at different places. -/
theorem forall_mem_pairs {β : Type} {R : β → β → Prop} {xs : List β} :
    (∀ p ∈ pairs xs, R p.1 p.2) ↔ xs.Pairwise R := by
  induction xs with
  | nil => simp [pairs]
  | cons x xs ih =>
    rw [pairs, List.forall_mem_append, List.forall_mem_map, List.pairwise_cons, ih]

/-! ## The two loops -/

/-- Adds the cosine of two members to the sum and counts it, if there is one. -/
def addCosine (vectors : List (List Float)) (i : Nat) (sums : Float × Nat) (j : Nat) :
    Option (Float × Nat) :=
  (mappedCosine? (vectors.getD i []) (vectors.getD j [])).map fun c => (sums.1 + c, sums.2 + 1)

/-- The sum and the number of the cosines, none as soon as two vectors differ in length. -/
def cosineSums? (vectors : List (List Float)) : Option (Float × Nat) :=
  (List.range vectors.length).foldlM (fun sums i =>
    (List.range' (i + 1) (vectors.length - (i + 1))).foldlM (addCosine vectors i) sums) (0, 0)

/-- The cosine score, with one loop in another that is left as soon as two vectors differ in
length. -/
def inLoops (es : List (Embedding Float)) : Float :=
  match es with
  | [] => 0
  | first :: _ =>
    match es.mapM Embedding.usableVector? with
    | none => meanScore es
    | some vectors =>
      if vectors.length = 1 then first.score
      else
        match cosineSums? vectors with
        | none => meanScore es
        | some (sum, count) => sum / Float.ofNat count

theorem foldlM_flatMap {α β γ : Type} (xs : List α) (f : α → List β) (g : γ → β → Option γ)
    (s : γ) : (xs.flatMap f).foldlM g s = xs.foldlM (fun s x => (f x).foldlM g s) s := by
  induction xs generalizing s with
  | nil => rfl
  | cons x xs ih =>
    rw [List.flatMap_cons, List.foldlM_append, List.foldlM_cons]
    congr 1
    funext s
    exact ih s

theorem foldlM_addCosine {α : Type} (f : α → Option Float) (xs : List α) (sums : Float × Nat) :
    xs.foldlM (fun sums x => (f x).map fun c => (sums.1 + c, sums.2 + 1)) sums =
      (xs.mapM f).map fun cs => (cs.foldl (· + ·) sums.1, sums.2 + cs.length) := by
  induction xs generalizing sums with
  | nil => rfl
  | cons x xs ih =>
    rw [List.foldlM_cons, List.mapM_cons]
    cases f x with
    | none => rfl
    | some c =>
      simp only [Option.map_some, Option.bind_eq_bind, Option.bind_some, ih]
      cases xs.mapM f with
      | none => rfl
      | some cs => simp [Nat.add_right_comm, Nat.add_assoc]

/-- The loops come to the sum and the number of the cosines of all pairs. -/
theorem cosineSums?_eq (vectors : List (List Float)) :
    cosineSums? vectors =
      ((pairs vectors).mapM fun p => mappedCosine? p.1 p.2).map
        fun cosines => (cosines.foldl (· + ·) 0, cosines.length) := by
  have hloops : cosineSums? vectors = (placePairs vectors.length).foldlM
      (fun sums p => addCosine vectors p.1 sums p.2) (0, 0) := by
    unfold cosineSums? placePairs
    rw [foldlM_flatMap]
    simp only [List.foldlM_map]
  have hsums := foldlM_addCosine
    (fun p => mappedCosine? (vectors.getD p.1 []) (vectors.getD p.2 []))
    (placePairs vectors.length) (0, 0)
  rw [hloops]
  refine hsums.trans ?_
  rw [← map_getD_placePairs vectors [], List.mapM_map]
  simp only [Nat.zero_add]
  rfl

theorem length_of_mapM {es : List (Embedding Float)} {vectors : List (List Float)}
    (h : es.mapM Embedding.usableVector? = some vectors) : es.length = vectors.length :=
  (Traversal.mapM_eq_some_iff.1 h).length_eq

/-- The loops come to the cosine score. -/
theorem inLoops_eq (es : List (Embedding Float)) : inLoops es = cosineScore es := by
  cases es with
  | nil => rfl
  | cons first rest =>
    unfold inLoops cosineScore
    cases hvectors : (first :: rest).mapM Embedding.usableVector? with
    | none => rfl
    | some vectors =>
      have hlength := length_of_mapM hvectors
      have hsingle : vectors.length = 1 ↔ rest.isEmpty = true := by
        rw [← hlength, List.length_cons, List.isEmpty_iff, ← List.length_eq_zero_iff]
        omega
      simp only [hsingle, cosineSums?_eq]
      split
      · rfl
      · cases (pairs vectors).mapM fun p => mappedCosine? p.1 p.2 with
        | none => rfl
        | some cosines => rfl

/-! ## Rules -/

/-- Every embedding has a vector that is not empty. -/
def AllUsable (es : List (Embedding Float)) : Prop :=
  ∀ e ∈ es, e.usableVector?.isSome = true

/-- All these vectors have one length. -/
def SameLength (es : List (Embedding Float)) : Prop :=
  ∀ e ∈ es, ∀ e' ∈ es, e.usableVector?.map List.length = e'.usableVector?.map List.length

instance (es : List (Embedding Float)) : Decidable (AllUsable es) :=
  inferInstanceAs (Decidable (∀ e ∈ es, e.usableVector?.isSome = true))

instance (es : List (Embedding Float)) : Decidable (SameLength es) :=
  inferInstanceAs (Decidable (∀ e ∈ es, ∀ e' ∈ es,
    e.usableVector?.map List.length = e'.usableVector?.map List.length))

/-- What a cosine score goes by. -/
inductive CosineRule where
  | empty
  | unusable
  | single
  | uneven
  | pairwise

/-- When a rule applies. Nothing of this is about places in the list. -/
def CosineRule.Applies (es : List (Embedding Float)) : CosineRule → Prop
  | empty => es = []
  | unusable => ¬AllUsable es
  | single => AllUsable es ∧ es.length = 1
  | uneven => AllUsable es ∧ ¬SameLength es
  | pairwise => AllUsable es ∧ SameLength es ∧ 1 < es.length

variable {es es' : List (Embedding Float)} {vectors : List (List Float)} {a b : List Float}

theorem CosineRule.applies_perm (h : es.Perm es') (rule : CosineRule) :
    rule.Applies es ↔ rule.Applies es' := by
  have hempty : es = [] ↔ es' = [] := by
    rw [← List.length_eq_zero_iff, h.length_eq, List.length_eq_zero_iff]
  cases rule <;> simp only [Applies, AllUsable, SameLength, h.mem_iff, h.length_eq, hempty]

theorem sameLength_of_length_le_one (h : es.length ≤ 1) : SameLength es := by
  match es, h with
  | [], _ => exact nofun
  | [e], _ =>
    intro e₁ h₁ e₂ h₂
    rw [List.mem_singleton.1 h₁, List.mem_singleton.1 h₂]

/-- One rule applies to embeddings, and no other one does. -/
theorem CosineRule.existsUnique_applies (es : List (Embedding Float)) :
    ∃! rule : CosineRule, rule.Applies es := by
  suffices h : ∃ rule, ∀ rule', Applies es rule' ↔ rule' = rule by
    obtain ⟨rule, hrule⟩ := h
    exact ⟨rule, (hrule rule).2 rfl, fun rule' => (hrule rule').1⟩
  by_cases hempty : es = []
  · subst hempty
    have husable : AllUsable [] := nofun
    have hsame : SameLength [] := nofun
    exact ⟨empty, fun rule' => by cases rule' <;> simp [Applies, husable, hsame]⟩
  by_cases husable : AllUsable es
  · by_cases hsame : SameLength es
    · by_cases hlength : es.length = 1
      · exact ⟨single, fun rule' => by
          cases rule' <;> simp [Applies, hempty, husable, hsame, hlength]⟩
      · have hpos := List.length_pos_iff.2 hempty
        have hmore : 1 < es.length := by omega
        exact ⟨pairwise, fun rule' => by
          cases rule' <;> simp [Applies, hempty, husable, hsame, hlength, hmore]⟩
    · have hlength : es.length ≠ 1 := fun h => hsame (sameLength_of_length_le_one h.le)
      exact ⟨uneven, fun rule' => by
        cases rule' <;> simp [Applies, hempty, husable, hsame, hlength]⟩
  · exact ⟨unusable, fun rule' => by cases rule' <;> simp [Applies, hempty, husable]⟩

/-! ## Scores -/

theorem mapM_usableVector_eq_none_iff :
    es.mapM Embedding.usableVector? = none ↔ ¬AllUsable es := by
  simp [Traversal.mapM_eq_none_iff, AllUsable]

theorem exists_vectors (h : AllUsable es) :
    ∃ vectors, es.mapM Embedding.usableVector? = some vectors :=
  Option.ne_none_iff_exists'.1 fun hnone => mapM_usableVector_eq_none_iff.1 hnone h

theorem mappedCosine?_eq_none_iff : mappedCosine? a b = none ↔ a.length ≠ b.length := by
  unfold mappedCosine?
  split
  · next hne => exact iff_of_true rfl hne
  · next heq =>
    refine iff_of_false ?_ heq
    dsimp only
    split <;> exact nofun

/-- A vector without direction adds nothing. -/
theorem mappedCosine?_of_lt (hlength : a.length = b.length)
    (h : (dot a a).sqrt < minMagnitude ∨ (dot b b).sqrt < minMagnitude) :
    mappedCosine? a b = some 0 := by
  unfold mappedCosine?
  rw [if_neg (not_not.2 hlength)]
  exact if_pos h

/-- There are cosines of all pairs exactly if all vectors have one length. -/
theorem mapM_mappedCosine_eq_none_iff (h : es.mapM Embedding.usableVector? = some vectors) :
    (pairs vectors).mapM (fun p => mappedCosine? p.1 p.2) = none ↔ ¬SameLength es := by
  have hlengths : es.map (fun e => e.usableVector?.map List.length) =
      vectors.map fun v => some v.length := by
    have hmap := congrArg (List.map (Option.map List.length))
      (Traversal.mapM_eq_some_iff_map.1 h)
    rwa [List.map_map, List.map_map] at hmap
  have hsame : SameLength es ↔ vectors.Pairwise fun v w => v.length = w.length := by
    have hall : SameLength es ↔ ∀ x ∈ vectors.map fun v => some v.length,
        ∀ y ∈ vectors.map fun v => some v.length, x = y := by
      rw [← hlengths]
      simp [SameLength]
    rw [hall]
    constructor
    · intro hall
      exact List.pairwise_of_forall_mem_list fun v hv w hw => Option.some.inj
        (hall _ (List.mem_map_of_mem hv) _ (List.mem_map_of_mem hw))
    · intro hpairwise x hx y hy
      obtain ⟨v, hv, rfl⟩ := List.mem_map.1 hx
      obtain ⟨w, hw, rfl⟩ := List.mem_map.1 hy
      refine congrArg some ?_
      refine hpairwise.forall_of_forall_of_flip (fun v _ => ?_) (hpairwise.imp fun h => ?_) hv hw
      · rfl
      · exact h.symm
  rw [hsame, ← forall_mem_pairs, Traversal.mapM_eq_none_iff]
  simp only [mappedCosine?_eq_none_iff]
  push Not
  rfl

theorem cosineScore_of_unusable (h : ¬AllUsable es) : cosineScore es = meanScore es := by
  cases es with
  | nil => exact absurd nofun h
  | cons first rest =>
    unfold cosineScore
    rw [mapM_usableVector_eq_none_iff.2 h]

theorem cosineScore_singleton {e : Embedding Float} (h : AllUsable [e]) :
    cosineScore [e] = e.score := by
  obtain ⟨vectors, hvectors⟩ := exists_vectors h
  unfold cosineScore
  rw [hvectors]
  rfl

theorem cosineScore_of_vectors (h : es.mapM Embedding.usableVector? = some vectors)
    (hlength : 1 < es.length) :
    cosineScore es =
      match (pairs vectors).mapM fun p => mappedCosine? p.1 p.2 with
      | none => meanScore es
      | some cosines => cosines.foldl (· + ·) 0 / Float.ofNat cosines.length := by
  match es, hlength with
  | first :: second :: rest, _ =>
    unfold cosineScore
    rw [h]
    rfl

/-- The mean of the mapped cosines of all vectors at places `i < j`, each pair taken once. -/
structure IsPairwiseMean (vectors : List (List Float)) (cosines : List Float) (s : Float) :
    Prop where
  map_cosine : (placePairs vectors.length).map (fun p =>
    mappedCosine? (vectors.getD p.1 []) (vectors.getD p.2 [])) = cosines.map some
  eq : s = cosines.foldl (· + ·) 0 / Float.ofNat (vectors.length * (vectors.length - 1) / 2)
  divisor_pos : 0 < Float.ofNat (vectors.length * (vectors.length - 1) / 2)

theorem cosineScore_of_uneven (husable : AllUsable es) (hsame : ¬SameLength es) :
    cosineScore es = meanScore es := by
  obtain ⟨vectors, hvectors⟩ := exists_vectors husable
  have hlength : 1 < es.length := by
    by_contra hle
    exact hsame (sameLength_of_length_le_one (by omega))
  rw [cosineScore_of_vectors hvectors hlength,
    (mapM_mappedCosine_eq_none_iff hvectors).2 hsame]

theorem isPairwiseMean_cosineScore (husable : AllUsable es) (hsame : SameLength es)
    (hlength : 1 < es.length) :
    ∃ vectors cosines, es.map Embedding.usableVector? = vectors.map some ∧
      IsPairwiseMean vectors cosines (cosineScore es) := by
  obtain ⟨vectors, hvectors⟩ := exists_vectors husable
  obtain ⟨cosines, hcosines⟩ := Option.ne_none_iff_exists'.1 fun hnone =>
    (mapM_mappedCosine_eq_none_iff hvectors).1 hnone hsame
  have hmap : (placePairs vectors.length).map (fun p =>
      mappedCosine? (vectors.getD p.1 []) (vectors.getD p.2 [])) = cosines.map some := by
    rw [← Traversal.mapM_eq_some_iff_map.1 hcosines, ← map_getD_placePairs vectors [],
      List.map_map]
    rfl
  have hcount : cosines.length = vectors.length * (vectors.length - 1) / 2 := by
    rw [← length_placePairs, ← List.length_map (fun p : Nat × Nat =>
      mappedCosine? (vectors.getD p.1 []) (vectors.getD p.2 [])), hmap, List.length_map]
  have hpositive : 0 < vectors.length * (vectors.length - 1) / 2 := by
    rw [← length_of_mapM hvectors]
    have htwo : 2 * 1 ≤ es.length * (es.length - 1) := Nat.mul_le_mul (by omega) (by omega)
    omega
  refine ⟨vectors, cosines, Traversal.mapM_eq_some_iff_map.1 hvectors, hmap, ?_, ?_⟩
  · rw [cosineScore_of_vectors hvectors hlength, hcosines, ← hcount]
  · exact Double.lt_of_lt_of_le (by decide +kernel) (Double.one_le_ofNat hpositive)

/-- The cosine score is that of two loops, which look at one pair of vectors after the other and
turn to the mean score as soon as two lengths differ. One rule applies to embeddings, the same one
in whatever order they come, and tells the score: zero if there are none; the mean score if one has
no vector, an empty one or one of another length; the own score of a single one; else the mean of
the mapped cosines of all pairs, of which there are some. Each pair of places `i < j` is one of
these and counts once, and a vector without direction adds nothing. -/
theorem cosineScore_by_rule (es : List (Embedding Float)) :
    inLoops es = cosineScore es ∧
    (∃! rule : CosineRule, rule.Applies es) ∧
    (∀ es', es.Perm es' → ∀ rule : CosineRule, rule.Applies es ↔ rule.Applies es') ∧
    (CosineRule.empty.Applies es → cosineScore es = 0) ∧
    (CosineRule.unusable.Applies es ∨ CosineRule.uneven.Applies es →
      cosineScore es = meanScore es) ∧
    (∀ e, es = [e] → CosineRule.single.Applies es → cosineScore es = e.score) ∧
    (CosineRule.pairwise.Applies es →
      ∃ vectors cosines, es.map Embedding.usableVector? = vectors.map some ∧
        IsPairwiseMean vectors cosines (cosineScore es)) ∧
    (placePairs es.length).Nodup ∧
    (∀ i j, (i, j) ∈ placePairs es.length ↔ i < j ∧ j < es.length) ∧
    ∀ a b, a.length = b.length →
      ((dot a a).sqrt < minMagnitude ∨ (dot b b).sqrt < minMagnitude) →
      mappedCosine? a b = some 0 := by
  refine ⟨inLoops_eq es, CosineRule.existsUnique_applies es,
    fun _ hperm => CosineRule.applies_perm hperm, ?_, ?_, ?_, ?_, nodup_placePairs es.length,
    fun _ _ => mem_placePairs, fun _ _ => mappedCosine?_of_lt⟩
  · rintro rfl
    rfl
  · rintro (hunusable | ⟨husable, hsame⟩)
    · exact cosineScore_of_unusable hunusable
    · exact cosineScore_of_uneven husable hsame
  · rintro e rfl ⟨husable, -⟩
    exact cosineScore_singleton husable
  · rintro ⟨husable, hsame, hlength⟩
    exact isPairwiseMean_cosineScore husable hsame hlength

/-- The vector of another length comes last, first and between the others; without it there are
three pairs. -/
theorem cosineScore_by_rule_of_three :
    let north : Embedding Float := ⟨"north", 0.2, some [0, 1]⟩
    let east : Embedding Float := ⟨"east", 0.4, some [1, 0]⟩
    let zero : Embedding Float := ⟨"zero", 0.9, some [0, 0]⟩
    let long : Embedding Float := ⟨"long", 0.6, some [1, 0, 0]⟩
    cosineScore [north, east, long] = meanScore [north, east, long] ∧
      cosineScore [long, north, east] = meanScore [long, north, east] ∧
      cosineScore [north, long, east] = meanScore [north, long, east] ∧
      cosineScore [north] = 0.2 ∧
      ∃ vectors cosines, vectors = [[0, 1], [1, 0], [0, 0]] ∧
        IsPairwiseMean vectors cosines (cosineScore [north, east, zero]) := by
  intro north east zero long
  have huneven {es : List (Embedding Float)} (h : CosineRule.uneven.Applies es) :
      cosineScore es = meanScore es := by
    obtain ⟨-, -, -, -, hmean, -⟩ := cosineScore_by_rule es
    exact hmean (.inr h)
  obtain ⟨-, -, -, -, -, hsingle, -⟩ := cosineScore_by_rule [north]
  obtain ⟨-, -, -, -, -, -, hpairwise, -⟩ := cosineScore_by_rule [north, east, zero]
  refine ⟨huneven ?_, huneven ?_, huneven ?_, hsingle north rfl ?_, ?_⟩
  · exact ⟨by decide +kernel, by decide +kernel⟩
  · exact ⟨by decide +kernel, by decide +kernel⟩
  · exact ⟨by decide +kernel, by decide +kernel⟩
  · exact ⟨by decide +kernel, rfl⟩
  · obtain ⟨vectors, cosines, hvectors, hmean⟩ :=
      hpairwise ⟨by decide +kernel, by decide +kernel, by decide⟩
    refine ⟨vectors, cosines, ?_, hmean⟩
    exact ((List.map_inj_right fun _ _ => Option.some.inj).1 hvectors).symm

end IntentGate.Similarity
