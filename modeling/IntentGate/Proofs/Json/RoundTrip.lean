import IntentGate.Json.Writer
import IntentGate.Proofs.Decimal.Numerals
import IntentGate.Proofs.Json.Numbers

/-!
# Documents read back

The compact text of a document is read as that document (`Legible.readsBack`), if this is so of the text
of each number in it alone. Texts are read back whatever characters they have: what is escaped is
undone, and no character is half of a surrogate pair. For trees the fuel is what has to be watched:
two steps for each character are enough (`ReadsFrom`).
-/

namespace IntentGate.Json

/-! ## Texts -/

theorem hexUnit?_control {n : Nat} (hn : n < 0x20) :
    hexUnit? '0' '0' (Nat.digitChar (n / 16)) (Nat.digitChar (n % 16)) = some n := by
  revert n
  decide

theorem units?_escape {c : Char} {n : Nat} (hc : c ≠ 'u') (hn : escapeLetter? c = some n)
    (rest : List Char) :
    units? ('\\' :: c :: rest) = (units? rest).map (Prod.map (n :: ·) id) := by
  rw [units?]
  · rw [hn]
    rcases units? rest with _ | ⟨us, rest⟩ <;> rfl
  · intro _ _ _ _ _ hu _
    exact hc hu

theorem units?_plain {c : Char} (hquote : c ≠ '"') (hslash : c ≠ '\\') (hc : ¬c.toNat < 0x20)
    (rest : List Char) :
    units? (c :: rest) = (units? rest).map (Prod.map (c.toNat :: ·) id) := by
  rw [units?]
  · rw [if_neg hc]
    rcases units? rest with _ | ⟨us, rest⟩ <;> rfl
  · exact hquote
  · exact fun _ _ _ _ _ h _ => hslash h
  · exact fun _ _ h _ => hslash h

/-- A character is read as it was written. -/
theorem units?_escapedChar (c : Char) (rest : List Char) :
    units? (escapedChar c ++ rest) = (units? rest).map (Prod.map (c.toNat :: ·) id) := by
  unfold escapedChar
  split
  iterate 7
    -- a letter stands for the character
    · exact units?_escape (by decide) rfl rest
  · next hquote hslash _ _ _ _ _ =>
    dsimp only
    split
    · next hcontrol =>
      change units? ('\\' :: 'u' :: '0' :: '0' :: _ :: _ :: rest) = _
      rw [units?, hexUnit?_control hcontrol]
      rcases units? rest with _ | ⟨us, rest⟩ <;> rfl
    · next hc => exact units?_plain hquote hslash hc rest

theorem units?_textChars (cs rest : List Char) :
    units? (cs.flatMap escapedChar ++ '"' :: rest) = some (cs.map Char.toNat, rest) := by
  induction cs with
  | nil => rfl
  | cons c cs ih =>
    rw [List.flatMap_cons, List.append_assoc, units?_escapedChar, ih]
    rfl

/-- Characters are no halves of surrogate pairs. -/
theorem joinUnits?_toNat (cs : List Char) : joinUnits? (cs.map Char.toNat) = some cs := by
  induction cs with
  | nil => rfl
  | cons c cs ih =>
    have hvalid : c.toNat < 0xD800 ∨ 0xE000 ≤ c.toNat := by
      rcases c.valid with h | h
      · exact .inl h
      · exact .inr (by have := h.1; change 0xE000 ≤ c.val.toNat; omega)
    have hhigh : isHighHalf c.toNat = false := by
      simp only [isHighHalf, Bool.and_eq_false_iff, decide_eq_false_iff_not]
      omega
    have hlow : isLowHalf c.toNat = false := by
      simp only [isLowHalf, Bool.and_eq_false_iff, decide_eq_false_iff_not]
      omega
    rw [List.map_cons]
    unfold joinUnits?
    rw [if_neg (Bool.eq_false_iff.1 hhigh), if_neg (Bool.eq_false_iff.1 hlow), ih, Char.ofNat_toNat]
    rfl

theorem text?_textChars (s : String) (rest : List Char) :
    text? (s.toList.flatMap escapedChar ++ '"' :: rest) = some (some s, rest) := by
  rw [text?, units?_textChars]
  simp [joinUnits?_toNat, String.ofList_toList]

/-! ## Trees -/

/-- The text of a document alone is read as the document. -/
def ReadsBack (j : Json) : Prop :=
  parse? j.render = some j

/-- Whether the document is a certain real number. -/
def isReal (x : Float) : Json → Bool
  | number (.real y) => y = x
  | _ => false

theorem eq_of_isReal {x : Float} {j : Json} (h : j.isReal x = true) : j = number (.real x) := by
  unfold isReal at h
  split at h
  · rw [of_decide_eq_true h]
  · cases h

/-- Whether a number reads back can be computed. -/
theorem readsBack_ofFloat_iff {x : Float} (hx : x.isFinite = true) :
    (ofFloat x).ReadsBack ↔ (parse? (ofFloat x).render).any (isReal x) = true := by
  have hfloat : ofFloat x = number (.real x) := if_pos hx
  rw [ReadsBack, Option.any_eq_true]
  constructor
  · intro hparse
    refine ⟨_, hparse, ?_⟩
    rw [hfloat]
    exact decide_eq_true rfl
  · rintro ⟨j, hparse, hreal⟩
    rw [hparse, hfloat, eq_of_isReal hreal]

/-- Documents whose numbers read back, each on its own. -/
inductive Legible : Json → Prop where
  | null : Legible .null
  | bool (b : Bool) : Legible (.bool b)
  | number {n : Number} (hn : ∀ c ∈ n.chars, IsNumeral c) (hreads : ReadsBack (.number n)) :
      Legible (.number n)
  | text (s : String) : Legible (.text s)
  | array {items : List Json} (hitems : ∀ item ∈ items, Legible item) : Legible (.array items)
  | object {fields : List (String × Json)} (hfields : ∀ f ∈ fields, Legible f.2) :
      Legible (.object fields)

/-- A double has a legible document, as one that is not finite is written as null. -/
theorem legible_ofFloat {x : Float} (hreads : x.isFinite = true → (ofFloat x).ReadsBack) :
    (ofFloat x).Legible := by
  by_cases hx : x.isFinite = true
  · specialize hreads hx
    rw [ofFloat, if_pos hx] at hreads ⊢
    exact .number (Layout.document.isNumeral_chars hx) hreads
  · rw [ofFloat, if_neg hx]
    exact .null

/-- Tokens that stand at the front are no blanks. -/
theorem skipGap_cons {c : Char} (hc : isGap c = false) (cs : List Char) :
    skipGap (c :: cs) = c :: cs :=
  List.dropWhile_cons_of_neg (Bool.eq_false_iff.1 hc)

section Numeral

variable {c : Char} (hc : IsNumeral c)

include hc

theorem isGap_of_isNumeral : isGap c = false := by
  unfold isGap
  have hne (d : Char) (hd : ¬IsNumeral d) : (c == d) = false :=
    beq_eq_false_iff_ne.2 fun h => hd (h ▸ hc)
  rw [hne ' ' (by decide), hne '\n' (by decide), hne '\t' (by decide), hne '\r' (by decide)]
  rfl

/-- What starts like a number is read as one. -/
theorem value?_of_isNumeral (fuel : Nat) (cs : List Char) :
    value? (fuel + 1) (c :: cs) = number? (c :: cs) := by
  have hne (d : Char) (hd : ¬IsNumeral d) : c ≠ d := fun h => hd (h ▸ hc)
  rw [value?, if_neg (hne _ (by decide)), if_neg (hne _ (by decide)), if_neg (hne _ (by decide)),
    if_neg (hne _ (by decide)), if_neg (hne _ (by decide)), if_neg (hne _ (by decide))]

end Numeral

theorem number?_chars {n : Number} (hn : ∀ c ∈ n.chars, IsNumeral c)
    (hreads : ReadsBack (.number n)) : number? n.chars = some (.number n, []) := by
  rw [ReadsBack, render, chars, parse?, String.toList_ofList] at hreads
  rcases hchars : n.chars with _ | ⟨c, cs⟩ <;> rw [hchars] at hreads hn
  · cases hreads
  have hc : IsNumeral c := hn c List.mem_cons_self
  rw [skipGap_cons (isGap_of_isNumeral hc), value?_of_isNumeral hc] at hreads
  rcases hnumber : number? (c :: cs) with _ | ⟨j, r⟩ <;> rw [hnumber] at hreads
  · cases hreads
  dsimp only at hreads
  split at hreads
  · next hend =>
    cases hreads
    rcases r with _ | ⟨d, r⟩
    · rfl
    -- what is left is blank, but all of it is part of the number's text
    · have hd : IsNumeral d := hn d ((suffix_of_number? hnumber).subset List.mem_cons_self)
      rw [skipGap_cons (isGap_of_isNumeral hd)] at hend
      cases hend
  · cases hreads

/-- The text of a document starts with a token, and not with the end of an array. -/
theorem Legible.chars_eq_cons {j : Json} (hj : Legible j) :
    ∃ c cs, j.chars = c :: cs ∧ isGap c = false ∧ c ≠ ']' := by
  cases hj with
  | null => exact ⟨_, _, rfl, rfl, by decide⟩
  | bool b => cases b <;> exact ⟨_, _, rfl, rfl, by decide⟩
  | @number n hn hreads =>
    have hnumber := number?_chars hn hreads
    rw [chars]
    rcases hchars : n.chars with _ | ⟨c, cs⟩ <;> rw [hchars] at hnumber hn
    · cases hnumber
    · have hc : IsNumeral c := hn c List.mem_cons_self
      exact ⟨c, cs, rfl, isGap_of_isNumeral hc, fun h => by subst h; revert hc; decide⟩
  | text s => exact ⟨_, _, rfl, rfl, by decide⟩
  | array _ => exact ⟨_, _, by rw [chars], rfl, by decide⟩
  | object _ => exact ⟨_, _, by rw [chars], rfl, by decide⟩

theorem Legible.skipGap_chars {j : Json} (hj : Legible j) (rest : List Char) :
    skipGap (j.chars ++ rest) = j.chars ++ rest := by
  obtain ⟨c, cs, hchars, hc, -⟩ := hj.chars_eq_cons
  rw [hchars, List.cons_append, skipGap_cons hc]

theorem endsNumber_cons {c : Char} (hc : c ∈ [',', ']', '\x7d']) (rest : List Char) :
    EndsNumber (c :: rest) := by
  rintro _ ⟨⟩
  obtain rfl | rfl | rfl : c = ',' ∨ c = ']' ∨ c = '\x7d' := by simpa using hc
  · exact ⟨rfl, by simp⟩
  · exact ⟨rfl, by simp⟩
  · exact ⟨rfl, by simp⟩

/-- With enough fuel the document is read from the front of its text. -/
def ReadsFrom (j : Json) : Prop :=
  ∀ fuel rest, 2 * j.chars.length ≤ fuel → EndsNumber rest →
    value? fuel (j.chars ++ rest) = some (j, rest)

/-! ### Items -/

theorem itemsChars_cons_cons (item second : Json) (items : List Json) :
    itemsChars (item :: second :: items) = item.chars ++ ',' :: itemsChars (second :: items) := by
  rw [itemsChars]
  exact List.cons_ne_nil _ _

theorem itemsChars_eq_cons {first : Json} (hfirst : Legible first) (items : List Json) :
    ∃ c cs, itemsChars (first :: items) = c :: cs ∧ isGap c = false ∧ c ≠ ']' := by
  obtain ⟨c, cs, hchars, hc⟩ := hfirst.chars_eq_cons
  cases items with
  | nil => exact ⟨c, cs ++ [']'], by rw [itemsChars, hchars]; rfl, hc⟩
  | cons second items =>
    exact ⟨c, cs ++ ',' :: itemsChars (second :: items), by
      rw [itemsChars_cons_cons, hchars]; rfl, hc⟩

/-- An array is read from the first of its items on. -/
theorem value?_bracket {c : Char} (hc : isGap c = false) (hne : c ≠ ']') (fuel : Nat)
    (cs : List Char) :
    value? (fuel + 1) ('[' :: c :: cs) = (items? fuel (c :: cs)).map (Prod.map array id) := by
  rw [value?, if_neg (by decide), if_neg (by decide), if_neg (by decide), if_neg (by decide),
    if_pos rfl, skipGap_cons hc]
  split
  · next hbracket => exact absurd (List.cons.inj hbracket).1 hne
  · rfl

section Items

variable {fuel : Nat} {cs rest : List Char} {item : Json}

theorem items?_last (hvalue : value? fuel cs = some (item, ']' :: rest)) :
    items? (fuel + 1) cs = some ([item], rest) := by
  rw [items?, hvalue]
  rfl

theorem items?_more {more : List Char} {items : List Json}
    (hvalue : value? fuel cs = some (item, ',' :: more))
    (hmore : items? fuel (skipGap more) = some (items, rest)) :
    items? (fuel + 1) cs = some (item :: items, rest) := by
  rw [items?, hvalue]
  change (items? fuel (skipGap more)).bind _ = _
  rw [hmore]
  rfl

end Items

theorem items?_itemsChars {first : Json} {items : List Json}
    (hlegible : ∀ item ∈ first :: items, Legible item)
    (hitems : ∀ item ∈ first :: items, ReadsFrom item) {fuel : Nat}
    (hfuel : 2 * (itemsChars (first :: items)).length ≤ fuel) (rest : List Char) :
    items? fuel (itemsChars (first :: items) ++ rest) = some (first :: items, rest) := by
  induction items generalizing first fuel with
  | nil =>
    rw [itemsChars, List.length_append, List.length_singleton] at hfuel
    obtain ⟨fuel, rfl⟩ := Nat.exists_eq_succ_of_ne_zero (show fuel ≠ 0 by omega)
    rw [itemsChars, List.append_assoc]
    refine items?_last (hitems first List.mem_cons_self fuel _ (by omega) ?_)
    exact endsNumber_cons (by decide) rest
  | cons second items ih =>
    obtain ⟨hfirst, hmore⟩ := List.forall_mem_cons.1 hitems
    obtain ⟨-, hlegible⟩ := List.forall_mem_cons.1 hlegible
    rw [itemsChars_cons_cons, List.length_append, List.length_cons] at hfuel
    obtain ⟨fuel, rfl⟩ := Nat.exists_eq_succ_of_ne_zero (show fuel ≠ 0 by omega)
    rw [itemsChars_cons_cons, List.append_assoc]
    -- the comma behind the first item pays for the step to the others
    refine items?_more (hfirst fuel _ (by omega) (endsNumber_cons (by decide) _)) ?_
    change items? fuel (skipGap (itemsChars (second :: items) ++ rest)) = _
    obtain ⟨c, cs, hchars, hc, -⟩ :=
      itemsChars_eq_cons (hlegible second List.mem_cons_self) items
    rw [hchars, List.cons_append, skipGap_cons hc, ← List.cons_append, ← hchars]
    exact ih hlegible hmore (by omega)

/-! ### Fields -/

theorem fieldsChars_cons_cons (name : String) (value : Json) (second : String × Json)
    (fields : List (String × Json)) :
    fieldsChars ((name, value) :: second :: fields) =
      textChars name ++ ':' :: value.chars ++ ',' :: fieldsChars (second :: fields) := by
  rw [fieldsChars]
  exact List.cons_ne_nil _ _

theorem fieldsChars_eq_cons (first : String × Json) (fields : List (String × Json)) :
    ∃ cs, fieldsChars (first :: fields) = '"' :: cs := by
  cases fields with
  | nil => exact ⟨_, rfl⟩
  | cons second fields =>
    rw [fieldsChars_cons_cons]
    exact ⟨_, rfl⟩

theorem textChars_append (s : String) (rest : List Char) :
    textChars s ++ rest = '"' :: (s.toList.flatMap escapedChar ++ '"' :: rest) := by
  simp [textChars]

section Fields

variable {fuel : Nat} {cs after rest : List Char} {name : String} {value : Json}

theorem fields?_last (hname : text? cs = some (some name, ':' :: after))
    (hvalue : value? fuel (skipGap after) = some (value, '\x7d' :: rest)) :
    fields? (fuel + 1) ('"' :: cs) = some (some [(name, value)], rest) := by
  rw [fields?, hname]
  change (value? fuel (skipGap after)).bind _ = _
  rw [hvalue]
  rfl

theorem fields?_more {more : List Char} {fields : List (String × Json)}
    (hname : text? cs = some (some name, ':' :: after))
    (hvalue : value? fuel (skipGap after) = some (value, ',' :: more))
    (hmore : fields? fuel (skipGap more) = some (some fields, rest)) :
    fields? (fuel + 1) ('"' :: cs) = some (some ((name, value) :: fields), rest) := by
  rw [fields?, hname]
  change (value? fuel (skipGap after)).bind _ = _
  rw [hvalue]
  change (fields? fuel (skipGap more)).bind _ = _
  rw [hmore]
  rfl

end Fields

theorem fields?_fieldsChars {first : String × Json} {fields : List (String × Json)}
    (hlegible : ∀ f ∈ first :: fields, Legible f.2) (hfields : ∀ f ∈ first :: fields, ReadsFrom f.2)
    {fuel : Nat} (hfuel : 2 * (fieldsChars (first :: fields)).length ≤ fuel) (rest : List Char) :
    fields? fuel (fieldsChars (first :: fields) ++ rest) = some (some (first :: fields), rest) := by
  induction fields generalizing first fuel with
  | nil =>
    obtain ⟨name, value⟩ := first
    have hread : ReadsFrom value := (List.forall_mem_cons.1 hfields).1
    obtain ⟨hvalue, -⟩ := List.forall_mem_cons.1 hlegible
    rw [fieldsChars, List.length_append, List.length_append, List.length_cons,
      List.length_singleton] at hfuel
    obtain ⟨fuel, rfl⟩ := Nat.exists_eq_succ_of_ne_zero (show fuel ≠ 0 by omega)
    rw [fieldsChars, List.append_assoc, List.append_assoc, textChars_append]
    refine fields?_last (text?_textChars name _) ?_
    change value? fuel (skipGap (value.chars ++ '\x7d' :: rest)) = _
    rw [hvalue.skipGap_chars]
    exact hread fuel _ (by omega) (endsNumber_cons (by decide) rest)
  | cons second fields ih =>
    obtain ⟨name, value⟩ := first
    have hread : ReadsFrom value := (List.forall_mem_cons.1 hfields).1
    have hmore := (List.forall_mem_cons.1 hfields).2
    obtain ⟨hvalue, hlegible⟩ := List.forall_mem_cons.1 hlegible
    rw [fieldsChars_cons_cons, List.length_append, List.length_append, List.length_cons,
      List.length_cons] at hfuel
    obtain ⟨fuel, rfl⟩ := Nat.exists_eq_succ_of_ne_zero (show fuel ≠ 0 by omega)
    rw [fieldsChars_cons_cons, List.append_assoc, List.append_assoc, textChars_append]
    let more := fieldsChars (second :: fields) ++ rest
    have hvalue : value? fuel (skipGap (value.chars ++ ',' :: more)) = some (value, ',' :: more) := by
      rw [hvalue.skipGap_chars]
      exact hread fuel _ (by omega) (endsNumber_cons (by decide) more)
    refine fields?_more (text?_textChars name _) hvalue ?_
    obtain ⟨cs, hchars⟩ := fieldsChars_eq_cons second fields
    have hskip : skipGap more = more := by
      unfold more
      rw [hchars, List.cons_append, skipGap_cons rfl]
    rw [hskip]
    exact ih hlegible hmore (by omega)

/-! ### Documents -/

/-- As every text has a character, there is fuel for one step. -/
theorem readsFrom_of_succ {j : Json} (hj : Legible j)
    (hread : ∀ fuel rest, 2 * j.chars.length ≤ fuel + 1 → EndsNumber rest →
      value? (fuel + 1) (j.chars ++ rest) = some (j, rest)) : ReadsFrom j := by
  intro fuel rest hfuel
  obtain ⟨c, cs, hchars, -⟩ := hj.chars_eq_cons
  have hpos : 0 < j.chars.length := by
    rw [hchars]
    exact Nat.succ_pos _
  obtain ⟨fuel, rfl⟩ := Nat.exists_eq_succ_of_ne_zero (show fuel ≠ 0 by omega)
  exact hread fuel rest hfuel

/-- A legible document is read from the front of its text. -/
theorem Legible.readsFrom {j : Json} (hj : Legible j) : ReadsFrom j := by
  induction hj with
  | null => exact readsFrom_of_succ .null fun _ _ _ _ => rfl
  | bool b =>
    refine readsFrom_of_succ (.bool b) fun _ _ _ _ => ?_
    cases b <;> rfl
  | @number n hn hreads =>
    refine readsFrom_of_succ (.number hn hreads) fun fuel rest _ hrest => ?_
    -- a number has no end mark, so what comes after it must not go on with it
    obtain ⟨c, cs, hchars, -⟩ := (Legible.number hn hreads).chars_eq_cons
    rw [chars] at hchars
    have hnumber := number?_append hrest n.chars
    rw [number?_chars hn hreads, hchars] at hnumber
    rw [hchars] at hn
    rw [chars, hchars, List.cons_append, value?_of_isNumeral (hn c List.mem_cons_self)]
    exact hnumber
  | text s =>
    refine readsFrom_of_succ (.text s) fun fuel rest _ _ => ?_
    rw [chars, textChars_append]
    change (text? (s.toList.flatMap escapedChar ++ '"' :: rest)).map _ = _
    rw [text?_textChars]
    rfl
  | @array items hitems ih =>
    refine readsFrom_of_succ (.array hitems) fun fuel rest hfuel _ => ?_
    rw [chars, List.length_cons] at hfuel
    rw [chars]
    cases items with
    | nil => rfl
    | cons first items =>
      have hread : items? fuel (itemsChars (first :: items) ++ rest) = some (first :: items, rest) :=
        items?_itemsChars hitems ih (by omega) rest
      obtain ⟨c, cs, hchars, hc, hne⟩ := itemsChars_eq_cons (hitems first List.mem_cons_self) items
      rw [hchars] at hread ⊢
      rw [List.cons_append, List.cons_append, value?_bracket hc hne]
      rw [List.cons_append] at hread
      rw [hread]
      rfl
  | @object fields hfields ih =>
    refine readsFrom_of_succ (.object hfields) fun fuel rest hfuel _ => ?_
    rw [chars, List.length_cons] at hfuel
    rw [chars]
    cases fields with
    | nil => rfl
    | cons first fields =>
      have hread : fields? fuel (fieldsChars (first :: fields) ++ rest) =
          some (some (first :: fields), rest) := fields?_fieldsChars hfields ih (by omega) rest
      obtain ⟨cs, hchars⟩ := fieldsChars_eq_cons first fields
      rw [hchars, List.cons_append] at hread
      rw [hchars]
      change (fields? fuel ('"' :: (cs ++ rest))).map _ = _
      rw [hread]
      rfl

/-- The text of a legible document is read as the document. -/
theorem Legible.readsBack {j : Json} (hj : Legible j) : ReadsBack j := by
  have hfuel : 2 * j.chars.length ≤ 2 * j.chars.length + 2 := by omega
  have hread := hj.readsFrom _ [] hfuel (by rintro _ ⟨⟩)
  have hskip := hj.skipGap_chars []
  rw [List.append_nil] at hread hskip
  rw [ReadsBack, parse?, render, String.toList_ofList, hskip]
  rw [hread]
  rfl

end IntentGate.Json
