import IntentGate.Similarity
import Mathlib.Algebra.BigOperators.Ring.List
import Mathlib.Algebra.Order.BigOperators.Group.List
import Mathlib.Algebra.Order.Field.Basic
import Mathlib.Algebra.Order.Field.Rat
import Mathlib.Tactic.Linarith
import Mathlib.Tactic.Ring

/-!
# Weighing in exact arithmetic

Read over the rationals, a mean is what its name says, and rules that only weigh (`Weighing`) can be
followed through composites of any depth. For given sources each of them is a fixed combination of
their scores (`Weighing.exists_shares`), and so keeps scores in the unit interval exactly if no
source has a negative share and the shares add up to one at most (`combination_mem_iff`). If no
weight is negative, that is so (`Weighing.scoreBy_mem`). Nothing is guarded but the sum of the
weights, which are not used unless it is positive: a negative weight that others outweigh passes,
and gives its source a negative share (`sharesOf_safe_iff`).
-/

namespace IntentGate

open Set (Icc)

/-- Exact arithmetic. -/
instance : Scalar ℚ where
  zero := 0
  one := 1
  ofNat := Nat.cast
  add := (· + ·)
  mul := (· * ·)
  div := (· / ·)
  isPositive x := 0 < x

/-! ## Means -/

namespace Scalar

variable {xs : List ℚ} {pairs : List (ℚ × ℚ)} {fallback : ℚ}

theorem sum_eq_sum (xs : List ℚ) : Scalar.sum xs = xs.sum := by
  cases xs with
  | nil => rfl
  | cons x xs =>
    rw [List.sum_eq_foldl, List.foldl_cons, zero_add]
    rfl

theorem mean_eq (xs : List ℚ) : Scalar.mean xs = xs.sum / xs.length := by
  unfold Scalar.mean
  split
  · next hempty =>
    rw [List.isEmpty_iff.1 hempty, List.sum_nil, zero_div]
    rfl
  · rw [sum_eq_sum]
    rfl

theorem mean_mem (hxs : ∀ x ∈ xs, x ∈ Icc (0 : ℚ) 1) : Scalar.mean xs ∈ Icc (0 : ℚ) 1 := by
  have hle : xs.sum ≤ xs.length := by
    simpa using List.sum_le_card_nsmul xs 1 fun x hx => (hxs x hx).2
  rw [mean_eq]
  exact ⟨div_nonneg (List.sum_nonneg fun x hx => (hxs x hx).1) (Nat.cast_nonneg _),
    div_le_one_of_le₀ hle (Nat.cast_nonneg _)⟩

theorem weightedSums_eq (pairs : List (ℚ × ℚ)) :
    weightedSums pairs = ((pairs.map fun p => p.1 * p.2).sum, (pairs.map Prod.snd).sum) := by
  have hfoldl (s : ℚ × ℚ) :
      pairs.foldl (fun s p => (Scalar.add s.1 (Scalar.mul p.1 p.2), Scalar.add s.2 p.2)) s =
        (s.1 + (pairs.map fun p => p.1 * p.2).sum, s.2 + (pairs.map Prod.snd).sum) := by
    induction pairs generalizing s with
    | nil => simp
    | cons p pairs ih =>
      rw [List.foldl_cons, ih, List.map_cons, List.map_cons, List.sum_cons, List.sum_cons,
        ← add_assoc, ← add_assoc]
      rfl
  refine (hfoldl (0, 0)).trans ?_
  rw [zero_add, zero_add]

/-- The factor that turns weights of this sum into shares of a mean: nothing, unless it is
positive. -/
def perUnit (total : ℚ) : ℚ :=
  if 0 < total then total⁻¹ else 0

/-- The weighted mean, which there is if the weights add up to something positive. -/
theorem weightedMean?_eq (pairs : List (ℚ × ℚ)) :
    weightedMean? pairs =
      if 0 < (pairs.map Prod.snd).sum then
        some ((pairs.map fun p => p.1 * p.2).sum * perUnit (pairs.map Prod.snd).sum)
      else none := by
  unfold weightedMean? perUnit
  rw [weightedSums_eq]
  change (if decide (0 < (pairs.map Prod.snd).sum) = true then _ else _) = _
  simp only [decide_eq_true_eq]
  split
  · rw [← div_eq_mul_inv]
    rfl
  · rfl

theorem weightedMean?_getD_zero (pairs : List (ℚ × ℚ)) :
    (weightedMean? pairs).getD 0 =
      (pairs.map fun p => p.1 * p.2).sum * perUnit (pairs.map Prod.snd).sum := by
  rw [weightedMean?_eq]
  split
  · rfl
  · next htotal => rw [Option.getD_none, perUnit, if_neg htotal, mul_zero]

/-- A convex combination stays where its members are. -/
theorem weightedMean?_mem (hvalues : ∀ p ∈ pairs, p.1 ∈ Icc (0 : ℚ) 1)
    (hweights : ∀ p ∈ pairs, 0 ≤ p.2) (hfallback : fallback ∈ Icc (0 : ℚ) 1) :
    (weightedMean? pairs).getD fallback ∈ Icc (0 : ℚ) 1 := by
  rw [weightedMean?_eq]
  split
  · next htotal =>
    have hnonneg : 0 ≤ (pairs.map fun p => p.1 * p.2).sum := by
      refine List.sum_nonneg (List.forall_mem_map.2 fun p hp => ?_)
      exact mul_nonneg (hvalues p hp).1 (hweights p hp)
    have hle : (pairs.map fun p => p.1 * p.2).sum ≤ (pairs.map Prod.snd).sum :=
      List.sum_le_sum fun p hp => mul_le_of_le_one_left (hweights p hp) (hvalues p hp).2
    rw [Option.getD_some, perUnit, if_pos htotal, ← div_eq_mul_inv]
    exact ⟨div_nonneg hnonneg htotal.le, (div_le_one₀ htotal).2 hle⟩
  · exact hfallback

end Scalar

namespace Similarity

/-- All scores lie in the unit interval. -/
def ScoresInUnit (es : List (Embedding ℚ)) : Prop :=
  ∀ e ∈ es, e.score ∈ Icc (0 : ℚ) 1

instance (es : List (Embedding ℚ)) : Decidable (ScoresInUnit es) :=
  inferInstanceAs (Decidable (∀ e ∈ es, e.score ∈ Icc (0 : ℚ) 1))

/-! ## Combinations -/

section Combination

variable {es : List (Embedding ℚ)} {sources : List String} {shares c d : List ℚ}

/-- The sum of the scores, each taken by its share. -/
def combination (es : List (Embedding ℚ)) (shares : List ℚ) : ℚ :=
  ((es.zip shares).map fun p => p.1.score * p.2).sum

theorem combination_map (es : List (Embedding ℚ)) (f : String → ℚ) :
    combination es ((es.map Embedding.source).map f) =
      (es.map fun e => e.score * f e.source).sum := by
  induction es with
  | nil => rfl
  | cons e es ih => simpa [combination] using ih

theorem combination_mul (es : List (Embedding ℚ)) (shares : List ℚ) (t : ℚ) :
    combination es (shares.map (· * t)) = combination es shares * t := by
  unfold combination
  rw [List.zip_map_right, List.map_map, ← List.sum_map_mul_right]
  congr 1
  refine List.map_congr_left fun p _ => ?_
  simp only [Function.comp_apply, Prod.map, id]
  ring

theorem combination_add (hc : c.length = es.length) (hd : d.length = es.length) :
    combination es (List.zipWith (· + ·) c d) = combination es c + combination es d := by
  induction es generalizing c d with
  | nil => exact (add_zero 0).symm
  | cons e es ih =>
    cases c with
    | nil => cases hc
    | cons x c =>
      cases d with
      | nil => cases hd
      | cons y d =>
        have hrest := ih (Nat.succ.inj hc) (Nat.succ.inj hd)
        simp only [combination, List.zipWith_cons_cons, List.zip_cons_cons, List.map_cons,
          List.sum_cons] at hrest ⊢
        rw [hrest]
        ring

/-- Scores for the sources that are chosen by the shares. -/
def scoredBy (f : ℚ → ℚ) (sources : List String) (shares : List ℚ) : List (Embedding ℚ) :=
  (sources.zip shares).map fun p => ⟨p.1, f p.2, none⟩

theorem combination_scoredBy (f : ℚ → ℚ) (hlength : shares.length = sources.length) :
    combination (scoredBy f sources shares) shares = (shares.map fun x => f x * x).sum := by
  induction sources generalizing shares with
  | nil =>
    cases shares with
    | nil => rfl
    | cons x shares => cases hlength
  | cons source sources ih =>
    cases shares with
    | nil => cases hlength
    | cons x shares => simpa [combination, scoredBy] using ih (Nat.succ.inj hlength)

/-- A combination keeps scores in the unit interval exactly if no share is negative and they add up
to one at most. -/
theorem combination_mem_iff (hlength : shares.length = sources.length) :
    (∀ es, es.map Embedding.source = sources → ScoresInUnit es →
      combination es shares ∈ Icc (0 : ℚ) 1) ↔
    (∀ share ∈ shares, 0 ≤ share) ∧ shares.sum ≤ 1 := by
  have hzero : (0 : ℚ) ∈ Icc (0 : ℚ) 1 := ⟨le_refl 0, zero_le_one⟩
  have hone : (1 : ℚ) ∈ Icc (0 : ℚ) 1 := ⟨zero_le_one, le_refl 1⟩
  constructor
  · intro h
    have hchosen (f : ℚ → ℚ) (hf : ∀ x, f x ∈ Icc (0 : ℚ) 1) :
        (shares.map fun x => f x * x).sum ∈ Icc (0 : ℚ) 1 := by
      rw [← combination_scoredBy f hlength]
      refine h _ ?_ (List.forall_mem_map.2 fun p _ => hf p.2)
      rw [scoredBy, List.map_map]
      exact List.map_fst_zip hlength.ge
    constructor
    · -- with scores at the negative shares alone, one such share takes the sum below zero
      intro share hshare
      by_contra hneg
      have hsum := (hchosen (fun x => if x < 0 then 1 else 0) fun x => by
        split
        · exact hone
        · exact hzero).1
      refine absurd hsum (not_le.2 ?_)
      have hlt : (shares.map fun x => (if x < 0 then 1 else 0) * x).sum <
          (shares.map fun _ => (0 : ℚ)).sum := by
        refine List.sum_lt_sum _ _ (fun x _ => ?_) ⟨share, hshare, ?_⟩
        · split <;> linarith
        · rw [if_pos (not_le.1 hneg)]
          linarith
      simpa using hlt
    · simpa using (hchosen (fun _ => 1) fun _ => hone).2
  · rintro ⟨hnonneg, hsum⟩ es rfl hes
    rw [List.length_map] at hlength
    have hshares : ((es.zip shares).map Prod.snd).sum = shares.sum := by
      rw [List.map_snd_zip hlength.le]
    have hscore {p : Embedding ℚ × ℚ} (hp : p ∈ es.zip shares) :=
      hes p.1 (List.of_mem_zip hp).1
    have hshare {p : Embedding ℚ × ℚ} (hp : p ∈ es.zip shares) :=
      hnonneg p.2 (List.of_mem_zip hp).2
    constructor
    · refine List.sum_nonneg (List.forall_mem_map.2 fun p hp => ?_)
      exact mul_nonneg (hscore hp).1 (hshare hp)
    · rw [← hshares] at hsum
      refine le_trans (List.sum_le_sum fun p hp => ?_) hsum
      exact mul_le_of_le_one_left (hshare hp) (hscore hp).2

/-- For these sources a score is the combination with these shares. -/
structure HasShares (sources : List String) (score : List (Embedding ℚ) → ℚ) (shares : List ℚ) :
    Prop where
  length_eq : shares.length = sources.length
  eq : ∀ es, es.map Embedding.source = sources → score es = combination es shares

variable {score score' : List (Embedding ℚ) → ℚ}

theorem HasShares.congr (h : HasShares sources score shares) (hscore : ∀ es, score es = score' es) :
    HasShares sources score' shares :=
  funext hscore ▸ h

theorem HasShares.mul (h : HasShares sources score shares) (t : ℚ) :
    HasShares sources (fun es => score es * t) (shares.map (· * t)) where
  length_eq := by rw [List.length_map, h.length_eq]
  eq es hes := by rw [h.eq es hes, combination_mul]

theorem HasShares.add (hc : HasShares sources score c) (hd : HasShares sources score' d) :
    HasShares sources (fun es => score es + score' es) (List.zipWith (· + ·) c d) where
  length_eq := by rw [List.length_zipWith, hc.length_eq, hd.length_eq, Nat.min_self]
  eq es hes := by
    have hlength : sources.length = es.length := by rw [← hes, List.length_map]
    rw [hc.eq es hes, hd.eq es hes,
      combination_add (hc.length_eq.trans hlength) (hd.length_eq.trans hlength)]

theorem hasShares_zero (sources : List String) :
    HasShares sources (fun _ => 0) (sources.map fun _ => 0) where
  length_eq := List.length_map ..
  eq es hes := by
    subst hes
    rw [combination_map es fun _ => 0]
    simp

theorem HasShares.mem_iff (h : HasShares sources score shares) :
    (∀ es, es.map Embedding.source = sources → ScoresInUnit es → score es ∈ Icc (0 : ℚ) 1) ↔
      (∀ share ∈ shares, 0 ≤ share) ∧ shares.sum ≤ 1 := by
  rw [← combination_mem_iff h.length_eq]
  refine forall_congr' fun es => ⟨fun hscore hes => ?_, fun hscore hes => ?_⟩
  · rw [← h.eq es hes]
    exact hscore hes
  · rw [h.eq es hes]
    exact hscore hes

end Combination

/-! ## Weighing by source -/

section BySource

variable {weightOf : String → ℚ} {es : List (Embedding ℚ)} {sources : List String}

theorem meanScore_mem (hes : ScoresInUnit es) : meanScore es ∈ Icc (0 : ℚ) 1 :=
  Scalar.mean_mem (List.forall_mem_map.2 hes)

theorem weightedScore_mem {fallback : ℚ} (hes : ScoresInUnit es)
    (hweights : ∀ e ∈ es, 0 ≤ weightOf e.source) (hfallback : fallback ∈ Icc (0 : ℚ) 1) :
    (weightedScore? weightOf es).getD fallback ∈ Icc (0 : ℚ) 1 :=
  Scalar.weightedMean?_mem (List.forall_mem_map.2 hes) (List.forall_mem_map.2 hweights) hfallback

/-- The shares of sources in a mean that is weighted by source. -/
def sharesOf (weightOf : String → ℚ) (sources : List String) : List ℚ :=
  (sources.map weightOf).map (· * Scalar.perUnit (sources.map weightOf).sum)

theorem weightedScore?_eq (weightOf : String → ℚ) (es : List (Embedding ℚ)) :
    weightedScore? weightOf es =
      if 0 < ((es.map Embedding.source).map weightOf).sum then
        some (combination es (sharesOf weightOf (es.map Embedding.source)))
      else none := by
  unfold weightedScore? sharesOf
  rw [Scalar.weightedMean?_eq, combination_mul, combination_map, List.map_map, List.map_map,
    List.map_map]
  rfl

theorem hasShares_weightedScore (weightOf : String → ℚ) (sources : List String) :
    HasShares sources (fun es => (weightedScore? weightOf es).getD 0)
      (sharesOf weightOf sources) where
  length_eq := by rw [sharesOf, List.length_map, List.length_map]
  eq es hes := by
    subst hes
    unfold weightedScore? sharesOf
    rw [Scalar.weightedMean?_getD_zero, combination_mul, combination_map, List.map_map,
      List.map_map, List.map_map]
    rfl

/-- The plain mean is the one with equal weights. -/
theorem weightedScore?_one (hes : es ≠ []) :
    weightedScore? (fun _ => 1) es = some (meanScore es) := by
  have hlength : (0 : ℚ) < es.length := Nat.cast_pos.2 (List.length_pos_iff.2 hes)
  have htotal : (es.map fun _ => (1 : ℚ)).sum = es.length := by simp
  unfold weightedScore?
  rw [Scalar.weightedMean?_eq, List.map_map, List.map_map, meanScore, Scalar.mean_eq,
    List.length_map]
  simp only [Function.comp_def, mul_one, htotal]
  rw [if_pos hlength, Scalar.perUnit, if_pos hlength, div_eq_mul_inv]

theorem meanScore_eq_getD (es : List (Embedding ℚ)) :
    meanScore es = (weightedScore? (fun _ => 1) es).getD 0 := by
  by_cases hes : es = []
  · subst hes
    rfl
  · rw [weightedScore?_one hes, Option.getD_some]

/-- The shares in a mean add up to one, so they are safe exactly if no weight is negative. -/
theorem sharesOf_safe_iff (htotal : 0 < (sources.map weightOf).sum) :
    ((∀ share ∈ sharesOf weightOf sources, 0 ≤ share) ∧ (sharesOf weightOf sources).sum ≤ 1) ↔
      ∀ source ∈ sources, 0 ≤ weightOf source := by
  have hunit : Scalar.perUnit (sources.map weightOf).sum = (sources.map weightOf).sum⁻¹ :=
    if_pos htotal
  have hsum : (sharesOf weightOf sources).sum = 1 := by
    rw [sharesOf, List.sum_map_mul_right, List.map_id', hunit, mul_inv_cancel₀ htotal.ne']
  rw [hsum, and_iff_left (le_refl 1), sharesOf, List.forall_mem_map, List.forall_mem_map, hunit]
  refine forall₂_congr fun source _ => ?_
  exact mul_nonneg_iff_of_pos_right (inv_pos.2 htotal)

/-- Weights by source are safe exactly if they are not used or none of them is negative. -/
theorem weightedScore_mem_iff (weightOf : String → ℚ) (sources : List String)
    {fallback : List (Embedding ℚ) → ℚ}
    (hfallback : ∀ es, ScoresInUnit es → fallback es ∈ Icc (0 : ℚ) 1) :
    (∀ es, es.map Embedding.source = sources → ScoresInUnit es →
      (weightedScore? weightOf es).getD (fallback es) ∈ Icc (0 : ℚ) 1) ↔
    (sources.map weightOf).sum ≤ 0 ∨ ∀ source ∈ sources, 0 ≤ weightOf source := by
  by_cases htotal : 0 < (sources.map weightOf).sum
  · have hshares : HasShares sources (fun es => (weightedScore? weightOf es).getD (fallback es))
        (sharesOf weightOf sources) := by
      refine ⟨(hasShares_weightedScore weightOf sources).length_eq, ?_⟩
      rintro es rfl
      rw [weightedScore?_eq, if_pos htotal, Option.getD_some]
    rw [hshares.mem_iff, sharesOf_safe_iff htotal, or_iff_right (not_le.2 htotal)]
  · refine iff_of_true (fun es hsources hes => ?_) (.inl (not_lt.1 htotal))
    rw [weightedScore?_eq, hsources, if_neg htotal]
    exact hfallback es hes

end BySource

/-! ## Rules that only weigh -/

/-- A rule that only weighs, made by the constructors, and all its weights are allowed. -/
inductive Weighing (allowed : ℚ → Prop) : Similarity ℚ → Prop where
  | average : Weighing allowed .average
  | weighted {weights : Dict ℚ} {default : ℚ}
      (hweights : ∀ w ∈ weights.values, allowed w) (hdefault : allowed default) :
      Weighing allowed (.weighted weights default)
  | composite {members : List (Similarity ℚ × ℚ)} {s : Similarity ℚ}
      (hs : composite? members = .ok s) (hmembers : ∀ m ∈ members, Weighing allowed m.1)
      (hweights : ∀ m ∈ members, allowed m.2) : Weighing allowed s

variable {weights : Dict ℚ} {default : ℚ} {es : List (Embedding ℚ)} {s : Similarity ℚ}

theorem composite?_eq_ok {members : List (Similarity ℚ × ℚ)} (h : composite? members = .ok s) :
    s = .composite members := by
  unfold composite? at h
  split at h
  · cases h
  · exact (Except.ok.inj h).symm

theorem memberScoresBy_eq_map (cosineScore : List (Embedding ℚ) → ℚ) (es : List (Embedding ℚ))
    (members : List (Similarity ℚ × ℚ)) :
    memberScoresBy cosineScore es members =
      members.map fun m => (scoreBy cosineScore es m.1, m.2) := by
  induction members with
  | nil => rfl
  | cons m members ih => rw [memberScoresBy, ih, List.map_cons]

theorem scoreBy_composite (cosineScore : List (Embedding ℚ) → ℚ) (hes : es ≠ [])
    (members : List (Similarity ℚ × ℚ)) :
    scoreBy cosineScore es (.composite members) =
      (members.map fun m => scoreBy cosineScore es m.1 * m.2).sum *
        Scalar.perUnit (members.map Prod.snd).sum := by
  rw [scoreBy, if_neg fun hempty => hes (List.isEmpty_iff.1 hempty), memberScoresBy_eq_map]
  refine (Scalar.weightedMean?_getD_zero _).trans ?_
  rw [List.map_map, List.map_map]
  rfl

/-- The sum of the weighted scores of members is a combination if each of these is. -/
theorem exists_shares_sum (cosineScore : List (Embedding ℚ) → ℚ) {sources : List String}
    (members : List (Similarity ℚ × ℚ))
    (h : ∀ m ∈ members, ∃ shares, HasShares sources (fun es => scoreBy cosineScore es m.1) shares) :
    ∃ shares, HasShares sources
      (fun es => (members.map fun m => scoreBy cosineScore es m.1 * m.2).sum) shares := by
  induction members with
  | nil => exact ⟨_, hasShares_zero sources⟩
  | cons m members ih =>
    obtain ⟨⟨first, hfirst⟩, hrest⟩ := List.forall_mem_cons.1 h
    obtain ⟨rest, hrest⟩ := ih hrest
    exact ⟨_, (hfirst.mul m.2).add hrest⟩

/-- For given sources a rule that only weighs is a fixed combination of the scores. -/
theorem Weighing.exists_shares {allowed : ℚ → Prop} (h : Weighing allowed s)
    (cosineScore : List (Embedding ℚ) → ℚ) (sources : List String) :
    ∃ shares, HasShares sources (fun es => scoreBy cosineScore es s) shares := by
  induction h with
  | average =>
    refine ⟨_, (hasShares_weightedScore (fun _ => 1) sources).congr fun es => ?_⟩
    exact (meanScore_eq_getD es).symm
  | @weighted weights default _ _ =>
    exact ⟨_, hasShares_weightedScore (weightIn weights default) sources⟩
  | @composite members s hs _ _ ih =>
    obtain rfl := composite?_eq_ok hs
    obtain ⟨shares, hshares⟩ := exists_shares_sum cosineScore members ih
    have hscaled := hshares.mul (Scalar.perUnit (members.map Prod.snd).sum)
    refine ⟨_, hscaled.length_eq, fun es hsources => ?_⟩
    rw [← hscaled.eq es hsources]
    by_cases hes : es = []
    · -- no embeddings have the score zero, as their combinations do
      subst hes
      rw [hscaled.eq [] hsources]
      rfl
    · exact scoreBy_composite cosineScore hes members

theorem weightIn_nonneg (hweights : ∀ w ∈ weights.values, 0 ≤ w) (hdefault : 0 ≤ default)
    (source : String) : 0 ≤ weightIn weights default source := by
  unfold weightIn
  cases hw : weights.get? source with
  | none => exact hdefault
  | some w => exact hweights w (List.mem_map_of_mem (Dict.get?_eq_some_iff.1 hw))

/-- Without negative weights scores stay in the unit interval, through composites of any depth. -/
theorem Weighing.scoreBy_mem (h : Weighing (0 ≤ ·) s) (hes : ScoresInUnit es)
    (cosineScore : List (Embedding ℚ) → ℚ) : scoreBy cosineScore es s ∈ Icc (0 : ℚ) 1 := by
  have hzero : (Scalar.zero : ℚ) ∈ Icc (0 : ℚ) 1 := ⟨le_refl 0, zero_le_one⟩
  induction h with
  | average => exact meanScore_mem hes
  | weighted hweights hdefault =>
    exact weightedScore_mem hes (fun e _ => weightIn_nonneg hweights hdefault e.source) hzero
  | composite hs _ hweights ih =>
    obtain rfl := composite?_eq_ok hs
    rw [scoreBy, memberScoresBy_eq_map]
    split
    · exact hzero
    · exact Scalar.weightedMean?_mem (List.forall_mem_map.2 ih) (List.forall_mem_map.2 hweights)
        hzero

/-- In exact arithmetic the early returns of the simple average only save work. -/
theorem weightedScoreBy_average (cosineScore : List (Embedding ℚ) → ℚ) (es : List (Embedding ℚ))
    (ws : Dict ℚ) :
    weightedScoreBy cosineScore es (some ws) .average =
      (weightedScore? (weightIn ws 1) es).getD (meanScore es) := by
  rw [weightedScoreBy]
  split
  · next hempty =>
    rw [Bool.or_eq_true, List.isEmpty_iff, Dict.isEmpty, List.isEmpty_iff] at hempty
    by_cases hes : es = []
    · subst hes
      rfl
    · have hone : weightIn ws (1 : ℚ) = fun _ => 1 := by
        funext source
        rw [weightIn, Dict.get?, hempty.resolve_left hes]
        rfl
      rw [hone, weightedScore?_one hes, Option.getD_some]
  · rfl

theorem Weighing.weightedScoreBy_mem (h : Weighing (0 ≤ ·) s) (hes : ScoresInUnit es)
    {sourceWeights : Option (Dict ℚ)} (hsources : ∀ ws ∈ sourceWeights, ∀ w ∈ ws.values, 0 ≤ w)
    (cosineScore : List (Embedding ℚ) → ℚ) :
    weightedScoreBy cosineScore es sourceWeights s ∈ Icc (0 : ℚ) 1 := by
  cases h with
  | average =>
    cases sourceWeights with
    | none => exact meanScore_mem hes
    | some ws =>
      rw [weightedScoreBy_average]
      exact weightedScore_mem hes
        (fun e _ => weightIn_nonneg (hsources ws rfl) zero_le_one e.source) (meanScore_mem hes)
  | weighted hweights hdefault =>
    cases sourceWeights with
    | none => exact (Weighing.weighted hweights hdefault).scoreBy_mem hes cosineScore
    | some ws => exact (Weighing.weighted (hsources ws rfl) hdefault).scoreBy_mem hes cosineScore
  | composite hs hmembers hweights =>
    have hcomposite := (Weighing.composite hs hmembers hweights).scoreBy_mem hes cosineScore
    obtain rfl := composite?_eq_ok hs
    exact hcomposite

/-- Rules that only weigh have scores in the unit interval for scores in it, if no weight is
negative; it does not matter how deeply composites are nested. With any weights such a rule is a
fixed combination of the scores of given sources, and it keeps them all in the interval exactly if
no share is negative and the shares add up to one at most. Where a rule weighs by source, with
weights of its own or of the caller, that means: if these add up to nothing positive or none of
them is negative. -/
theorem scores_in_unit_interval (cosineScore : List (Embedding ℚ) → ℚ) :
    (∀ s, Weighing (0 ≤ ·) s → ∀ es, ScoresInUnit es → ∀ sourceWeights : Option (Dict ℚ),
      (∀ ws ∈ sourceWeights, ∀ w ∈ ws.values, 0 ≤ w) →
      scoreBy cosineScore es s ∈ Icc (0 : ℚ) 1 ∧
        weightedScoreBy cosineScore es sourceWeights s ∈ Icc (0 : ℚ) 1) ∧
    (∀ s, Weighing (fun _ => True) s → ∀ sources, ∃ shares,
      HasShares sources (fun es => scoreBy cosineScore es s) shares ∧
      ((∀ es, es.map Embedding.source = sources → ScoresInUnit es →
        scoreBy cosineScore es s ∈ Icc (0 : ℚ) 1) ↔
      (∀ share ∈ shares, 0 ≤ share) ∧ shares.sum ≤ 1)) ∧
    (∀ weights default sources,
      (∀ es, es.map Embedding.source = sources → ScoresInUnit es →
        scoreBy cosineScore es (.weighted weights default) ∈ Icc (0 : ℚ) 1) ↔
      (sources.map (weightIn weights default)).sum ≤ 0 ∨
        ∀ source ∈ sources, 0 ≤ weightIn weights default source) ∧
    ∀ sourceWeights sources,
      (∀ es, es.map Embedding.source = sources → ScoresInUnit es →
        weightedScoreBy cosineScore es (some sourceWeights) .average ∈ Icc (0 : ℚ) 1) ↔
      (sources.map (weightIn sourceWeights 1)).sum ≤ 0 ∨
        ∀ source ∈ sources, 0 ≤ weightIn sourceWeights 1 source := by
  refine ⟨fun s hs es hes sourceWeights hsources => ?_, fun s hs sources => ?_,
    fun weights default sources => ?_, fun sourceWeights sources => ?_⟩
  · exact ⟨hs.scoreBy_mem hes cosineScore, hs.weightedScoreBy_mem hes hsources cosineScore⟩
  · obtain ⟨shares, hshares⟩ := hs.exists_shares cosineScore sources
    exact ⟨shares, hshares, hshares.mem_iff⟩
  · exact weightedScore_mem_iff (weightIn weights default) sources
      fun _ _ => ⟨le_refl 0, zero_le_one⟩
  · simp only [weightedScoreBy_average]
    exact weightedScore_mem_iff (weightIn sourceWeights 1) sources fun _ hes => meanScore_mem hes

/-- A composite in a composite, and a caller that lets one source weigh nothing. -/
theorem scores_in_unit_interval_of_nested :
    let fraud : Similarity ℚ := .weighted (Dict.ofList [("fraud:signal", 4)]) 1
    let inner : Similarity ℚ := .composite [(fraud, 3), (.average, 1)]
    let outer : Similarity ℚ := .composite [(inner, 1), (.average, 0)]
    let es : List (Embedding ℚ) := [⟨"fraud:signal", 1, none⟩, ⟨"noise", 0, none⟩]
    let sourceWeights : Dict ℚ := Dict.ofList [("noise", 0)]
    scoreBy meanScore es outer ∈ Icc (0 : ℚ) 1 ∧
      weightedScoreBy meanScore es (some sourceWeights) outer ∈ Icc (0 : ℚ) 1 := by
  intro fraud inner outer es sourceWeights
  have hfraud : Weighing (0 ≤ ·) fraud := .weighted (by decide +kernel) (by decide)
  have hinner : Weighing (0 ≤ ·) inner :=
    @Weighing.composite _ [(fraud, 3), (.average, 1)] _ rfl (by simp [hfraud, Weighing.average])
      (by simp)
  have houter : Weighing (0 ≤ ·) outer :=
    @Weighing.composite _ [(inner, 1), (.average, 0)] _ rfl (by simp [hinner, Weighing.average])
      (by simp)
  obtain ⟨hmem, -⟩ := scores_in_unit_interval meanScore
  refine hmem outer houter es (by decide +kernel) (some sourceWeights) ?_
  rintro ws ⟨⟩
  decide +kernel

/-- A negative weight that the other one outweighs, in exact arithmetic and in doubles. -/
theorem weighted_score_beyond_one :
    let rule : Similarity ℚ := .weighted (Dict.ofList [("a", 2), ("b", -1)]) 1
    let es : List (Embedding ℚ) := [⟨"a", 1, none⟩, ⟨"b", 0, none⟩]
    Weighing (fun _ => True) rule ∧ ScoresInUnit es ∧ scoreBy meanScore es rule = 2 ∧
      scoreBy meanScore es rule ∉ Icc (0 : ℚ) 1 ∧
      score (.weighted (Dict.ofList [("a", 2), ("b", -1)]) 1)
        [⟨"a", 1, none⟩, ⟨"b", 0, none⟩] = 2 := by
  intro rule es
  have hscore : scoreBy meanScore es rule = 2 := by decide +kernel
  refine ⟨.weighted (fun _ _ => trivial) trivial, by decide +kernel, hscore, ?_, by decide +kernel⟩
  rw [hscore]
  exact fun h => absurd h.2 (by decide)

end Similarity

end IntentGate
