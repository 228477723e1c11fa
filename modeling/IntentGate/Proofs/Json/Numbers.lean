import IntentGate.Json.Reader

/-!
# Where numbers end

A number of a document ends where the comma or the bracket behind it begins, so it is read the same
there as it is alone (`number?_append`), and what is left behind it is the end of what was there
(`suffix_of_number?`).
-/

namespace IntentGate.Json

open Text (isDigit digitsValue)

/-- What comes next is no part of a number. -/
def EndsNumber (rest : List Char) : Prop :=
  ∀ c ∈ rest.head?, isDigit c = false ∧ ∀ mark ∈ ['.', '-', '+', 'e', 'E'], c ≠ mark

/-- The digits to come, times a sign. -/
def digitsTimes? (sign : Int) (cs : List Char) : Option (Int × List Char) :=
  match cs.takeWhile isDigit with
  | [] => none
  | ds => some (sign * digitsValue ds, cs.dropWhile isDigit)

theorem exponentDigits?_eq (cs : List Char) :
    exponentDigits? cs =
      match cs with
      | '-' :: rest => digitsTimes? (-1) rest
      | '+' :: rest => digitsTimes? 1 rest
      | rest => digitsTimes? 1 rest :=
  rfl

theorem number?_of_head {cs : List Char} (hcs : cs.head? ≠ some '-') :
    number? cs = (unsignedLiteral? false cs).map (Prod.map Literal.toJson id) := by
  rcases cs with _ | ⟨c, cs⟩
  · rfl
  · have hminus : c ≠ '-' := fun h => hcs (by rw [h]; rfl)
    simp [number?, hminus]
    rfl

section Append

variable {rest : List Char} (hrest : EndsNumber rest) (cs : List Char)

include hrest

theorem takeWhile_isDigit_append : (cs ++ rest).takeWhile isDigit = cs.takeWhile isDigit := by
  induction cs with
  | nil =>
    cases rest with
    | nil => rfl
    | cons c rest => exact List.takeWhile_cons_of_neg (Bool.eq_false_iff.1 (hrest c rfl).1)
  | cons c cs ih =>
    rw [List.cons_append, List.takeWhile_cons, List.takeWhile_cons, ih]

theorem dropWhile_isDigit_append : (cs ++ rest).dropWhile isDigit = cs.dropWhile isDigit ++ rest := by
  induction cs with
  | nil =>
    cases rest with
    | nil => rfl
    | cons c rest => exact List.dropWhile_cons_of_neg (Bool.eq_false_iff.1 (hrest c rfl).1)
  | cons c cs ih =>
    rw [List.cons_append, List.dropWhile_cons, List.dropWhile_cons, ih]
    split <;> rfl

theorem whole?_append : whole? (cs ++ rest) = (whole? cs).map (Prod.map id (· ++ rest)) := by
  unfold whole?
  rw [takeWhile_isDigit_append hrest, dropWhile_isDigit_append hrest]
  generalize cs.takeWhile isDigit = ds
  generalize cs.dropWhile isDigit = more
  split <;> rfl

theorem fraction?_append :
    fraction? (cs ++ rest) = (fraction? cs).map (Prod.map id (· ++ rest)) := by
  rcases cs with _ | ⟨c, cs⟩
  · rcases rest with _ | ⟨c, rest⟩
    · rfl
    · have hc : c ≠ '.' := (hrest c rfl).2 _ (by decide)
      simp [fraction?, hc]
  · by_cases hc : c = '.'
    · subst hc
      simp only [fraction?, List.cons_append]
      rw [takeWhile_isDigit_append hrest, dropWhile_isDigit_append hrest]
      split <;> rfl
    · simp [fraction?, hc]

theorem digitsTimes?_append (sign : Int) :
    digitsTimes? sign (cs ++ rest) = (digitsTimes? sign cs).map (Prod.map id (· ++ rest)) := by
  unfold digitsTimes?
  rw [takeWhile_isDigit_append hrest, dropWhile_isDigit_append hrest]
  split <;> rfl

theorem exponentDigits?_append :
    exponentDigits? (cs ++ rest) = (exponentDigits? cs).map (Prod.map id (· ++ rest)) := by
  rcases cs with _ | ⟨c, cs⟩
  · rcases rest with _ | ⟨c, rest⟩
    · rfl
    · have hminus : c ≠ '-' := (hrest c rfl).2 _ (by decide)
      have hplus : c ≠ '+' := (hrest c rfl).2 _ (by decide)
      simpa [exponentDigits?_eq, hminus, hplus] using digitsTimes?_append hrest [] 1
  · by_cases hminus : c = '-'
    · subst hminus
      exact digitsTimes?_append hrest cs (-1)
    · by_cases hplus : c = '+'
      · subst hplus
        exact digitsTimes?_append hrest cs 1
      · simpa [exponentDigits?_eq, hminus, hplus] using digitsTimes?_append hrest (c :: cs) 1

theorem exponent?_append :
    exponent? (cs ++ rest) = (exponent? cs).map (Prod.map id (· ++ rest)) := by
  have hdigits (cs : List Char) :
      (exponentDigits? (cs ++ rest)).map (Prod.map some id) =
        ((exponentDigits? cs).map (Prod.map some id)).map (Prod.map id (· ++ rest)) := by
    rw [exponentDigits?_append hrest]
    cases exponentDigits? cs <;> rfl
  rcases cs with _ | ⟨c, cs⟩
  · rcases rest with _ | ⟨c, rest⟩
    · rfl
    · have hlower : c ≠ 'e' := (hrest c rfl).2 _ (by decide)
      have hupper : c ≠ 'E' := (hrest c rfl).2 _ (by decide)
      simp [exponent?, hlower, hupper]
  · by_cases hlower : c = 'e'
    · subst hlower
      exact hdigits cs
    · by_cases hupper : c = 'E'
      · subst hupper
        exact hdigits cs
      · simp [exponent?, hlower, hupper]

theorem unsignedLiteral?_append (negative : Bool) :
    unsignedLiteral? negative (cs ++ rest) =
      (unsignedLiteral? negative cs).map (Prod.map id (· ++ rest)) := by
  unfold unsignedLiteral?
  rw [whole?_append hrest]
  rcases whole? cs with _ | ⟨ds, cs⟩
  · rfl
  change (fraction? (cs ++ rest)).bind _ = ((fraction? cs).bind _).map _
  rw [fraction?_append hrest]
  rcases fraction? cs with _ | ⟨fraction, cs⟩
  · rfl
  change (exponent? (cs ++ rest)).bind _ = ((exponent? cs).bind _).map _
  rw [exponent?_append hrest]
  rcases exponent? cs with _ | ⟨exponent, cs⟩ <;> rfl

/-- A number is read the same whatever comes after it. -/
theorem number?_append : number? (cs ++ rest) = (number? cs).map (Prod.map id (· ++ rest)) := by
  have hliteral (negative : Bool) (cs : List Char) :
      (unsignedLiteral? negative (cs ++ rest)).map (Prod.map Literal.toJson id) =
        ((unsignedLiteral? negative cs).map (Prod.map Literal.toJson id)).map
          (Prod.map id (· ++ rest)) := by
    rw [unsignedLiteral?_append hrest]
    cases unsignedLiteral? negative cs <;> rfl
  by_cases hminus : cs.head? = some '-'
  · obtain ⟨cs, rfl⟩ := List.head?_eq_some_iff.1 hminus
    exact hliteral true cs
  · have hminus' : (cs ++ rest).head? ≠ some '-' := by
      rcases cs with _ | ⟨c, cs⟩
      · exact fun h => (hrest '-' h).2 _ (by decide) rfl
      · exact hminus
    rw [number?_of_head hminus, number?_of_head hminus', hliteral]

end Append

/-! ## What is left behind a number -/

section Suffix

variable {cs r : List Char}

theorem suffix_of_whole? {ds : List Char} (h : whole? cs = some (ds, r)) : r <:+ cs := by
  unfold whole? at h
  split at h <;> cases h <;> exact List.dropWhile_suffix _

theorem suffix_of_fraction? {ds : Option (List Char)} (h : fraction? cs = some (ds, r)) :
    r <:+ cs := by
  unfold fraction? at h
  split at h
  · split at h <;> cases h
    exact (List.dropWhile_suffix _).trans (List.suffix_cons _ _)
  · cases h
    exact List.suffix_rfl

theorem suffix_of_digitsTimes? {sign n : Int} (h : digitsTimes? sign cs = some (n, r)) :
    r <:+ cs := by
  unfold digitsTimes? at h
  split at h <;> cases h
  exact List.dropWhile_suffix _

theorem suffix_of_exponentDigits? {n : Int} (h : exponentDigits? cs = some (n, r)) : r <:+ cs := by
  rw [exponentDigits?_eq] at h
  split at h
  · exact (suffix_of_digitsTimes? h).trans (List.suffix_cons _ _)
  · exact (suffix_of_digitsTimes? h).trans (List.suffix_cons _ _)
  · exact suffix_of_digitsTimes? h

theorem suffix_of_exponent? {n : Option Int} (h : exponent? cs = some (n, r)) : r <:+ cs := by
  unfold exponent? at h
  split at h
  · obtain ⟨⟨_, _⟩, hdigits, h⟩ := Option.map_eq_some_iff.1 h
    cases h
    exact (suffix_of_exponentDigits? hdigits).trans (List.suffix_cons _ _)
  · obtain ⟨⟨_, _⟩, hdigits, h⟩ := Option.map_eq_some_iff.1 h
    cases h
    exact (suffix_of_exponentDigits? hdigits).trans (List.suffix_cons _ _)
  · cases h
    exact List.suffix_rfl

theorem suffix_of_unsignedLiteral? {negative : Bool} {l : Literal}
    (h : unsignedLiteral? negative cs = some (l, r)) : r <:+ cs := by
  obtain ⟨⟨_, afterWhole⟩, hwhole, h⟩ := Option.bind_eq_some_iff.1 h
  obtain ⟨⟨_, afterFraction⟩, hfraction, h⟩ := Option.bind_eq_some_iff.1 h
  obtain ⟨⟨_, afterExponent⟩, hexponent, h⟩ := Option.bind_eq_some_iff.1 h
  cases h
  have hread := (suffix_of_fraction? hfraction).trans (suffix_of_whole? hwhole)
  exact (suffix_of_exponent? hexponent).trans hread

theorem suffix_of_number? {j : Json} (h : number? cs = some (j, r)) : r <:+ cs := by
  obtain ⟨⟨_, _⟩, hliteral, h⟩ := Option.map_eq_some_iff.1 h
  cases h
  split at hliteral
  · exact (suffix_of_unsignedLiteral? hliteral).trans (List.suffix_cons _ _)
  · exact suffix_of_unsignedLiteral? hliteral

end Suffix

end IntentGate.Json
