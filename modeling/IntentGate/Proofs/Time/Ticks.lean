import IntentGate.Time.Window
import Mathlib.Logic.Basic

/-!
# Windows in ticks

Outside leap seconds instants are ordered and subtracted as their ticks are. Going back by a span is
exact (`before?_cases`): it gives the instant so many ticks before, and fails if that would be before
the first instant. So a window that ends at a reference and is clamped at its start holds the
instants that are at most its length before the reference, no others and no fewer
(`contains_endingAt_iff`), however long the length is and wherever the reference lies.
-/

namespace IntentGate

namespace Instant

variable {a b : Instant}

theorem ticks_eq (t : Instant) : t.ticks = t.second * 1000000000 + t.nano :=
  rfl

theorem nano_lt_of_not_leap (h : a.inLeapSecond = false) : a.nano < 1000000000 :=
  Nat.not_le.1 (of_decide_eq_false h)

theorem nano_ge_of_leap (h : a.inLeapSecond = true) : 1000000000 ≤ a.nano :=
  of_decide_eq_true h

theorem earliest_le (t : Instant) : earliest ≤ t := by
  have hsecond := t.second_ge
  rw [le_def]
  change -8334601228800 < t.second ∨ (-8334601228800 = t.second ∧ 0 ≤ t.nano)
  omega

theorem ticks_earliest_le (t : Instant) : earliest.ticks ≤ t.ticks := by
  have hsecond := t.second_ge
  rw [ticks_eq, ticks_eq]
  change -8334601228800 * 1000000000 + 0 ≤ _
  omega

/-- Instants are ordered as their ticks are, if the later one is in no leap second and the earlier one
in none that comes before it. -/
theorem le_iff_ticks_le (hb : b.inLeapSecond = false)
    (ha : a.inLeapSecond = true → b.second ≤ a.second) : a ≤ b ↔ a.ticks ≤ b.ticks := by
  have hnb := nano_lt_of_not_leap hb
  rw [le_def, ticks_eq, ticks_eq]
  cases hleap : a.inLeapSecond with
  | false =>
    have hna := nano_lt_of_not_leap hleap
    omega
  | true =>
    have hna := nano_ge_of_leap hleap
    have hsecond := ha hleap
    omega

/-- Outside leap seconds the span between instants is that between their ticks. -/
theorem since_eq_ticks_sub (ha : a.inLeapSecond = false) (hb : b.inLeapSecond = false) :
    a.since b = a.ticks - b.ticks := by
  simp [since, ha, hb]

theorem ofParts?_of_bounds {second : Int} {nano : Nat} (hge : -8334601228800 ≤ second)
    (hle : second ≤ 8210266876799) (hlt : nano < 2000000000) :
    ofParts? second nano = some ⟨second, nano, hge, hle, hlt⟩ :=
  dif_pos ⟨hge, hle, hlt⟩

/-- Going back by a span gives the instant so many ticks before, which is in a leap second only if
that is the one of the reference; it fails if the result would be before the first instant. -/
theorem before?_cases (t : Instant) (span : Nat) :
    (t.before? span = none ∧ t.ticks - span < earliest.ticks) ∨
      ∃ u, t.before? span = some u ∧ u ≤ t ∧ u.ticks = t.ticks - span ∧
        (u.inLeapSecond = true → t.inLeapSecond = true ∧ u.second = t.second) := by
  have hge := t.second_ge
  have hle := t.second_le
  have hnano := t.nano_lt
  by_cases hwithin : t.inLeapSecond = true ∧ span < 1000000000
  · have hbefore : t.before? span = ofParts? t.second (t.nano - span) := if_pos hwithin
    have hreference := nano_ge_of_leap hwithin.1
    rw [hbefore, ofParts?_of_bounds hge hle (by omega)]
    refine .inr ⟨_, rfl, .inr ⟨rfl, Nat.sub_le ..⟩, ?_, fun _ => ⟨hwithin.1, rfl⟩⟩
    rw [ticks_eq, ticks_eq]
    dsimp only
    omega
  · have hbefore : t.before? span = ofParts? ((t.ticks - span) / 1000000000)
        ((t.ticks - span) % 1000000000).toNat := if_neg hwithin
    have hticks := t.ticks_eq
    have hearliest : earliest.ticks = -8334601228800 * 1000000000 := rfl
    -- a leap second is left for the second that it prolongs
    have hafter : t.ticks - span < (t.second + 1) * 1000000000 := by
      cases hleap : t.inLeapSecond with
      | true =>
        have hspan : ¬span < 1000000000 := fun hspan => hwithin ⟨hleap, hspan⟩
        omega
      | false =>
        have hlt := nano_lt_of_not_leap hleap
        omega
    rw [hbefore]
    by_cases hearly : t.ticks - span < earliest.ticks
    · refine .inl ⟨dif_neg ?_, hearly⟩
      omega
    · rw [ofParts?_of_bounds (by omega) (by omega) (by omega)]
      refine .inr ⟨_, rfl, ?_, ?_, fun hleap => ?_⟩
      · rw [le_def]
        dsimp only
        omega
      · rw [ticks_eq]
        dsimp only
        omega
      · have hlong := nano_ge_of_leap hleap
        dsimp only at hlong
        omega

/-! ## The first and the last of some instants -/

theorem le_later_left (a b : Instant) : a ≤ later a b := by
  unfold later
  split
  · next h => exact h
  · exact le_refl a

theorem le_later_right (a b : Instant) : b ≤ later a b := by
  unfold later
  split
  · exact le_refl b
  · next h => exact (le_total a b).resolve_left h

theorem sooner_le_left (a b : Instant) : sooner a b ≤ a := by
  unfold sooner
  split
  · exact le_refl a
  · next h => exact (le_total a b).resolve_left h

theorem sooner_le_right (a b : Instant) : sooner a b ≤ b := by
  unfold sooner
  split
  · next h => exact h
  · exact le_refl b

/-- Folding a choice between two over a list comes to a member of it that bounds all members, if the
chosen one bounds both. -/
theorem foldl_choice {R : Instant → Instant → Prop} {f : Instant → Instant → Instant}
    (hrefl : ∀ a, R a a) (htrans : ∀ a b c, R a b → R b c → R a c)
    (hchoice : ∀ a b, f a b = a ∨ f a b = b) (hleft : ∀ a b, R a (f a b))
    (hright : ∀ a b, R b (f a b)) (t : Instant) (ts : List Instant) :
    ts.foldl f t ∈ t :: ts ∧ ∀ u ∈ t :: ts, R u (ts.foldl f t) := by
  induction ts generalizing t with
  | nil => exact ⟨List.mem_singleton_self t, fun u hu => List.mem_singleton.1 hu ▸ hrefl t⟩
  | cons v ts ih =>
    rw [List.foldl_cons]
    obtain ⟨hmem, hbound⟩ := ih (f t v)
    have hchosen := hbound (f t v) List.mem_cons_self
    constructor
    · rcases List.mem_cons.1 hmem with heq | hmem
      · rw [heq]
        rcases hchoice t v with h | h <;> rw [h] <;> simp
      · exact List.mem_cons_of_mem _ (List.mem_cons_of_mem _ hmem)
    · intro u hu
      rcases List.mem_cons.1 hu with rfl | hu
      · exact htrans _ _ _ (hleft u v) hchosen
      · rcases List.mem_cons.1 hu with rfl | hu
        · exact htrans _ _ _ (hright t u) hchosen
        · exact hbound u (List.mem_cons_of_mem _ hu)

theorem foldl_later (t : Instant) (ts : List Instant) :
    ts.foldl later t ∈ t :: ts ∧ ∀ u ∈ t :: ts, u ≤ ts.foldl later t :=
  foldl_choice le_refl (fun _ _ _ => le_trans) (fun _ _ => (ite_eq_or_eq _ _ _).symm)
    le_later_left le_later_right t ts

theorem foldl_sooner (t : Instant) (ts : List Instant) :
    ts.foldl sooner t ∈ t :: ts ∧ ∀ u ∈ t :: ts, ts.foldl sooner t ≤ u :=
  foldl_choice (R := fun a b => b ≤ a) le_refl (fun _ _ _ hab hbc => le_trans hbc hab)
    (fun _ _ => ite_eq_or_eq _ _ _) sooner_le_left sooner_le_right t ts

end Instant

namespace Window

open Instant

variable {reference t : Instant}

theorem contains_iff (w : Window) (t : Instant) :
    w.contains t = true ↔ w.start ≤ t ∧ t ≤ w.stop := by
  rw [contains, Bool.and_eq_true, decide_eq_true_iff, decide_eq_true_iff]

/-- The window begins its length before the reference, or at the first instant if that is later. -/
theorem start_endingAt (reference : Instant) (length : Span) :
    (reference.ticks - max length 0 < earliest.ticks ∧
        (endingAt reference length).start = earliest) ∨
      ((endingAt reference length).start ≤ reference ∧
        (endingAt reference length).start.ticks = reference.ticks - max length 0 ∧
        ((endingAt reference length).start.inLeapSecond = true →
          reference.inLeapSecond = true ∧
            (endingAt reference length).start.second = reference.second)) := by
  rw [← Int.toNat_eq_max length, endingAt]
  rcases before?_cases reference length.toNat with ⟨hnone, hearly⟩ | ⟨u, hsome, hu⟩
  · rw [hnone]
    exact .inl ⟨hearly, rfl⟩
  · rw [hsome]
    exact .inr hu

theorem start_endingAt_le (reference : Instant) (length : Span) :
    (endingAt reference length).start ≤ reference := by
  rcases start_endingAt reference length with ⟨-, hstart⟩ | ⟨hle, -⟩
  · rw [hstart]
    exact earliest_le reference
  · exact hle

/-- A window that ends at a reference holds the instants outside leap seconds that are not after it
and at most its length before it; a negative length counts as zero. -/
theorem contains_endingAt_iff (length : Span) (ht : t.inLeapSecond = false) :
    (endingAt reference length).contains t = true ↔
      t ≤ reference ∧ reference.ticks - t.ticks ≤ max length 0 := by
  rw [contains_iff, and_comm]
  refine and_congr_right fun hle => ?_
  rcases start_endingAt reference length with ⟨hearly, hstart⟩ | ⟨-, hticks, hleap⟩
  · have hearliest := ticks_earliest_le t
    rw [hstart]
    exact iff_of_true (earliest_le t) (by omega)
  · have hsecond (h : (endingAt reference length).start.inLeapSecond = true) :
        t.second ≤ (endingAt reference length).start.second := by
      rw [(hleap h).2]
      exact hle.elim Int.le_of_lt fun h => Int.le_of_eq h.1
    rw [le_iff_ticks_le ht hsecond, hticks]
    omega

/-- The length is the one asked for, or all the time there is before the reference. -/
theorem length_endingAt (length : Span) (hreference : reference.inLeapSecond = false) :
    (endingAt reference length).length =
      min (max length 0) (reference.ticks - earliest.ticks) := by
  have hearliest := ticks_earliest_le reference
  change reference.since (endingAt reference length).start = _
  rcases start_endingAt reference length with ⟨hearly, hstart⟩ | ⟨-, hticks, hleap⟩
  · rw [hstart, since_eq_ticks_sub hreference rfl]
    exact (Int.min_eq_right (by omega)).symm
  · have hstart : (endingAt reference length).start.inLeapSecond = false := by
      rw [Bool.eq_false_iff]
      intro h
      rw [(hleap h).1] at hreference
      cases hreference
    have hfirst := ticks_earliest_le (endingAt reference length).start
    rw [since_eq_ticks_sub hreference hstart, hticks, Int.sub_sub_self]
    exact (Int.min_eq_left (by omega)).symm

end Window

end IntentGate
