import IntentGate.Text.Ascii
import IntentGate.Text.Blank
import IntentGate.Text.LowerCase
import Mathlib.Data.List.Basic
import Mathlib.Data.List.Forall2
import Mathlib.Data.List.Infix

/-!
# Trimming and lowering together

Lowering takes each character of a text to one or two characters of its own
(`lowerCaseFrom_pieces`). None of these is a capital of ASCII, and none is a blank where there was
none. So a text that has been trimmed and lowered stays as it is when it is trimmed once more
(`trim_lowerCase_trim`) or when ASCII capitals are folded in it (`asciiLower_lowerCase`): whoever
ignores case in one way or in the other reads it alike.
-/

namespace IntentGate.Text

/-! ## Single characters -/

/-- A code point that is neither a blank nor a capital of ASCII. -/
def IsSettled (n : Nat) : Prop :=
  isBlank (Char.ofNat n) = false ∧ (Char.ofNat n).toLower = Char.ofNat n

instance (n : Nat) : Decidable (IsSettled n) :=
  inferInstanceAs (Decidable (_ ∧ _))

/-- What a run of the mapping gives is settled. -/
theorem isSettled_of_mem_lowerRuns :
    ∀ r ∈ lowerRuns.toList, ∀ k ∈ List.range (r.2.1 + 1 - r.1),
      IsSettled (((r.1 + k : Nat) : Int) + r.2.2.2).toNat := by
  decide +kernel

theorem toLower_ascii : ∀ n ∈ List.range 0x80,
    (Char.ofNat n).toLower.toLower = (Char.ofNat n).toLower ∧
      isBlank (Char.ofNat n).toLower = isBlank (Char.ofNat n) := by
  decide +kernel

theorem toLower_of_not_ascii {c : Char} (h : ¬c.toNat < 0x80) : c.toLower = c := by
  refine dif_neg fun hupper => h ?_
  have hletter : c.toNat ≤ 90 := hupper.2
  omega

/-- The lower-case form of a character has no capital of ASCII, and a blank only if the character
is one. -/
theorem of_mem_lowerChar {c d : Char} (h : d ∈ lowerChar c) :
    d.toLower = d ∧ (isBlank c = false → isBlank d = false) := by
  unfold lowerChar at h
  dsimp only at h
  split at h
  · next hascii =>
    obtain rfl := List.mem_singleton.1 h
    obtain ⟨hidem, hblank⟩ := toLower_ascii c.toNat (List.mem_range.2 hascii)
    rw [Char.ofNat_toNat] at hidem hblank
    exact ⟨hidem, fun hc => hblank.trans hc⟩
  · next hbeyond =>
    split at h
    · simp only [List.mem_cons, List.not_mem_nil, or_false] at h
      rcases h with rfl | rfl <;> exact ⟨by decide, fun _ => by decide⟩
    · split at h
      · next first last stride offset hrun =>
        obtain rfl := List.mem_singleton.1 h
        have hmem := Array.mem_of_find?_eq_some hrun
        have hwithin := Array.find?_some hrun
        simp only [Bool.and_eq_true, decide_eq_true_eq] at hwithin
        obtain ⟨⟨hfirst, hlast⟩, -⟩ := hwithin
        have hplace : first + (c.toNat - first) = c.toNat := by omega
        have hsettled := isSettled_of_mem_lowerRuns _ (Array.mem_toList_iff.2 hmem)
          (c.toNat - first) (List.mem_range.2 (by dsimp only; omega))
        dsimp only at hsettled
        rw [hplace] at hsettled
        exact ⟨hsettled.2, fun _ => hsettled.1⟩
      · obtain rfl := List.mem_singleton.1 h
        exact ⟨toLower_of_not_ascii hbeyond, id⟩

/-! ## Pieces of a text -/

/-- What a character may become, by itself or, for the capital sigma, by its neighbours. -/
inductive Lowers (c : Char) : List Char → Prop
  | alone : Lowers c (lowerChar c)
  | sigma {n : Nat} (hn : n = 0x3C2 ∨ n = 0x3C3) : Lowers c [Char.ofNat n]

theorem Lowers.ne_nil {c : Char} {ds : List Char} (h : Lowers c ds) : ds ≠ [] := by
  cases h with
  | alone =>
    unfold lowerChar
    dsimp only
    split
    · exact List.cons_ne_nil _ _
    · split
      · exact List.cons_ne_nil _ _
      · split <;> exact List.cons_ne_nil _ _
  | sigma hn => exact List.cons_ne_nil _ _

theorem Lowers.settled {c d : Char} {ds : List Char} (h : Lowers c ds) (hd : d ∈ ds) :
    d.toLower = d ∧ (isBlank c = false → isBlank d = false) := by
  cases h with
  | alone => exact of_mem_lowerChar hd
  | @sigma n hn =>
    obtain rfl := List.mem_singleton.1 hd
    have hsigma : IsSettled n := by rcases hn with rfl | rfl <;> decide
    exact ⟨hsigma.2, fun _ => hsigma.1⟩

/-- A lowered text is put together from what its characters become. -/
theorem lowerCaseFrom_pieces (before cs : List Char) :
    ∃ pieces, List.Forall₂ Lowers cs pieces ∧ lowerCaseFrom before cs = pieces.flatten := by
  induction cs generalizing before with
  | nil => exact ⟨[], .nil, rfl⟩
  | cons c rest ih =>
    obtain ⟨pieces, hpieces, heq⟩ := ih (c :: before)
    rw [lowerCaseFrom, heq]
    split
    · refine ⟨_, .cons (.sigma ?_) hpieces, rfl⟩
      split
      · exact .inl rfl
      · exact .inr rfl
    · exact ⟨_, .cons .alone hpieces, rfl⟩

theorem exists_piece {cs : List Char} {pieces : List (List Char)}
    (h : List.Forall₂ Lowers cs pieces) {d : Char} (hd : d ∈ pieces.flatten) :
    ∃ c ∈ cs, ∃ ds, Lowers c ds ∧ d ∈ ds := by
  induction h with
  | nil => cases hd
  | @cons c ds cs pieces hc _ ih =>
    rw [List.flatten_cons, List.mem_append] at hd
    rcases hd with hd | hd
    · exact ⟨c, List.mem_cons_self, ds, hc, hd⟩
    · obtain ⟨c', hc', ds', hds', hd'⟩ := ih hd
      exact ⟨c', List.mem_cons_of_mem _ hc', ds', hds', hd'⟩

/-- A text in lower case has no capitals of ASCII. -/
theorem asciiLower_lowerCase (s : String) : asciiLower (lowerCase s) = lowerCase s := by
  obtain ⟨pieces, hpieces, heq⟩ := lowerCaseFrom_pieces [] s.toList
  have hfolded : ∀ d ∈ pieces.flatten, d.toLower = id d := by
    intro d hd
    obtain ⟨c, -, ds, hds, hd⟩ := exists_piece hpieces hd
    exact (hds.settled hd).1
  rw [asciiLower, lowerCase, heq]
  apply String.toList_injective
  rw [String.toList_map, String.toList_ofList, List.map_congr_left hfolded, List.map_id]

/-! ## Ends of a text -/

/-- Neither end is a blank. -/
structure IsTrimmed (cs : List Char) : Prop where
  start : ∀ c ∈ cs.head?, isBlank c = false
  stop : ∀ c ∈ cs.getLast?, isBlank c = false

theorem trimStartChars_of_start {cs : List Char} (h : ∀ c ∈ cs.head?, isBlank c = false) :
    trimStartChars cs = cs := by
  cases cs with
  | nil => rfl
  | cons c rest =>
    rw [trimStartChars, List.dropWhile_cons_of_neg]
    rw [h c rfl]
    decide

theorem start_trimStartChars (cs : List Char) :
    ∀ c ∈ (trimStartChars cs).head?, isBlank c = false := by
  intro c hc
  have hhead := List.head?_dropWhile_not isBlank cs
  rw [← trimStartChars, hc] at hhead
  exact hhead

theorem isTrimmed_trimChars (cs : List Char) : IsTrimmed (trimChars cs) := by
  constructor
  · intro c hc
    refine start_trimStartChars cs c ?_
    -- what is trimmed at the end is a front of what was trimmed at the start
    have hsuffix : trimStartChars (trimStartChars cs).reverse <:+ (trimStartChars cs).reverse :=
      List.dropWhile_suffix _
    have hprefix : trimChars cs <+: trimStartChars cs := by
      rw [trimChars, ← List.reverse_suffix, List.reverse_reverse]
      exact hsuffix
    obtain ⟨rest, hrest⟩ := hprefix
    rw [← hrest, List.head?_append, hc]
    rfl
  · rw [trimChars, List.getLast?_reverse]
    exact start_trimStartChars _

theorem IsTrimmed.trimChars_eq {cs : List Char} (h : IsTrimmed cs) : trimChars cs = cs := by
  rw [trimChars, trimStartChars_of_start h.start, trimStartChars_of_start, List.reverse_reverse]
  rw [List.head?_reverse]
  exact h.stop

theorem exists_last_piece {cs : List Char} {pieces : List (List Char)}
    (h : List.Forall₂ Lowers cs pieces) {d : Char} (hd : d ∈ pieces.flatten.getLast?) :
    ∃ c ∈ cs.getLast?, ∃ ds, Lowers c ds ∧ d ∈ ds := by
  induction h with
  | nil => cases hd
  | @cons c ds cs pieces hc hrest ih =>
    cases hrest with
    | nil =>
      rw [List.flatten_cons, List.flatten_nil, List.append_nil] at hd
      exact ⟨c, rfl, ds, hc, List.mem_of_getLast? hd⟩
    | cons hc' hrest =>
      rw [List.flatten_cons, List.getLast?_append_of_ne_nil] at hd
      · exact ih hd
      · rw [List.flatten_cons]
        exact List.append_ne_nil_of_left_ne_nil hc'.ne_nil _

/-- Each end of a lowered text comes from that end of the text. -/
theorem IsTrimmed.flatten {cs : List Char} {pieces : List (List Char)} (h : IsTrimmed cs)
    (hpieces : List.Forall₂ Lowers cs pieces) : IsTrimmed pieces.flatten := by
  constructor
  · intro d hd
    cases hpieces with
    | nil => cases hd
    | @cons c ds cs pieces hc hrest =>
      rw [List.flatten_cons, List.head?_append_of_ne_nil _ hc.ne_nil] at hd
      exact (hc.settled (List.mem_of_head? hd)).2 (h.start c rfl)
  · intro d hd
    obtain ⟨c, hlast, ds, hc, hd⟩ := exists_last_piece hpieces hd
    exact (hc.settled hd).2 (h.stop c hlast)

/-- Lowering leaves no blank to be trimmed. -/
theorem trim_lowerCase_trim (s : String) : trim (lowerCase (trim s)) = lowerCase (trim s) := by
  obtain ⟨pieces, hpieces, heq⟩ := lowerCaseFrom_pieces [] (trimChars s.toList)
  have htrimmed := (isTrimmed_trimChars s.toList).flatten hpieces
  simp only [trim, lowerCase, String.toList_ofList, heq, htrimmed.trimChars_eq]

end IntentGate.Text
