import IntentGate.Behavior.Vector
import IntentGate.Proofs.Decimal.Numerals
import IntentGate.Proofs.Digest.Hexadecimal
import IntentGate.Proofs.Text.Parts

/-!
# Canonical texts of vectors

A key may hold any characters, those of whole records included, and still a canonical text can be
taken apart in one way only (`entryChars_append_inj`): the length ends at the first colon, because
it is made of digits; the key ends where its bytes do, whatever they are; and the value ends at the
first line end, because no text of a number holds one. So two vectors have one canonical text
exactly if they are `Alike`, and as long as the digests of their texts do not collide, the same goes
for their cache keys.
-/

namespace IntentGate

namespace BehaviorVector

/-- The first dimension of a canonical text can be taken off in one way. -/
theorem entryChars_append_inj {key key' : String} {x x' : Float} {rest rest' : List Char}
    (h : entryChars key x ++ rest = entryChars key' x' ++ rest') :
    key = key' ∧ Layout.plain.chars x = Layout.plain.chars x' ∧ rest = rest' := by
  have hcolon (n : Nat) : ':' ∉ Text.decimalDigits n := fun hmem =>
    absurd (isNumeral_decimalDigits n ':' hmem) (by decide)
  simp only [entryChars, List.append_assoc, List.cons_append, List.nil_append] at h
  obtain ⟨hsize, hkeys⟩ := Text.append_cons_inj (hcolon _) (hcolon _) h
  have hbytes : String.utf8Len key.toList = String.utf8Len key'.toList := by
    rw [String.utf8Len_toList, String.utf8Len_toList]
    exact Text.decimalDigits_injective hsize
  obtain ⟨hkey, hvalues⟩ := Text.append_inj_of_utf8Len hkeys hbytes
  obtain ⟨hvalue, hrest⟩ := Text.append_cons_inj (Layout.plain.newline_notMem_chars x)
    (Layout.plain.newline_notMem_chars x') (List.cons.inj hvalues).2
  exact ⟨String.toList_inj.1 hkey, hvalue, hrest⟩

/-- Every dimension takes up room in a canonical text. -/
theorem entryChars_append_ne_nil (key : String) (x : Float) (rest : List Char) :
    entryChars key x ++ rest ≠ [] := by
  simp [entryChars]

/-- A dimension with the text of its value. -/
def entryText (e : String × Float) : String × String :=
  (e.1, Layout.plain.text e.2)

theorem map_entryText_of_chars {es fs : List (String × Float)}
    (h : es.flatMap (fun e => entryChars e.1 e.2) = fs.flatMap fun e => entryChars e.1 e.2) :
    es.map entryText = fs.map entryText := by
  induction es generalizing fs with
  | nil =>
    cases fs with
    | nil => rfl
    | cons f fs => exact (entryChars_append_ne_nil _ _ _ h.symm).elim
  | cons e es ih =>
    cases fs with
    | nil => exact (entryChars_append_ne_nil _ _ _ h).elim
    | cons f fs =>
      rw [List.flatMap_cons, List.flatMap_cons] at h
      obtain ⟨hkey, hvalue, hrest⟩ := entryChars_append_inj h
      have hhead : entryText e = entryText f := by
        rw [entryText, entryText, Layout.text, Layout.text, hkey, hvalue]
      rw [List.map_cons, List.map_cons, hhead, ih hrest]

/-- The text of a dimension is made from the texts of its key and its value. -/
theorem flatMap_entryChars (es : List (String × Float)) :
    es.flatMap (fun e => entryChars e.1 e.2) =
      (es.map entryText).flatMap fun e =>
        Text.decimalDigits e.1.utf8ByteSize ++ ':' :: e.1.toList
          ++ '=' :: e.2.toList ++ ['\n'] := by
  rw [List.flatMap_map]
  simp only [entryText, entryChars, Layout.text, String.toList_ofList]

/-- Two vectors have the same dimensions, and values with the same text in each of them. -/
structure Alike (v w : BehaviorVector) : Prop where
  keys_eq : v.dimensions.keys = w.dimensions.keys
  text_eq : ∀ {key : String} {x y : Float}, v.get? key = some x → w.get? key = some y →
    Layout.plain.text x = Layout.plain.text y

theorem Alike.map_text {v w : BehaviorVector} (h : v.Alike w) (key : String) :
    (v.get? key).map Layout.plain.text = (w.get? key).map Layout.plain.text := by
  have hkey : (v.get? key).isSome ↔ (w.get? key).isSome := by
    rw [get?, get?, ← Dict.mem_keys_iff, ← Dict.mem_keys_iff, h.keys_eq]
  cases hv : v.get? key with
  | none =>
    cases hw : w.get? key with
    | none => rfl
    | some y => simp [hv, hw] at hkey
  | some x =>
    cases hw : w.get? key with
    | none => simp [hv, hw] at hkey
    | some y => exact congrArg some (h.text_eq hv hw)

theorem alike_iff_map_entryText (v w : BehaviorVector) :
    v.Alike w ↔ v.entries.map entryText = w.entries.map entryText := by
  have htexts (u : BehaviorVector) :
      (u.dimensions.mapValues fun _ => Layout.plain.text).entries = u.entries.map entryText := rfl
  rw [← htexts, ← htexts]
  constructor
  · intro h
    refine congrArg Dict.entries (Dict.ext_get? fun key => ?_)
    rw [Dict.get?_mapValues, Dict.get?_mapValues]
    exact h.map_text key
  · intro h
    have hdict := Dict.ext_entries h
    refine ⟨?_, fun {key x y} hx hy => ?_⟩
    · have hkeys := congrArg Dict.keys hdict
      rwa [Dict.keys_mapValues, Dict.keys_mapValues] at hkeys
    · have hvalue := congrArg (fun d => Dict.get? d key) hdict
      simp only [Dict.get?_mapValues] at hvalue
      rw [show v.dimensions.get? key = some x from hx,
        show w.dimensions.get? key = some y from hy] at hvalue
      exact Option.some.inj hvalue

theorem canonicalText_eq_iff_alike (v w : BehaviorVector) :
    v.canonicalText = w.canonicalText ↔ v.Alike w := by
  rw [alike_iff_map_entryText]
  constructor
  · intro h
    exact map_entryText_of_chars (String.ofList_injective h)
  · intro h
    rw [canonicalText, canonicalText, flatMap_entryChars, flatMap_entryChars, h]

/-- Two vectors have one canonical text exactly if they have the same dimensions and values with the
same text in each of them. Unless the digests of their texts collide, that is also when they have
one cache key. -/
theorem cacheKey_eq_iff_alike (v w : BehaviorVector) :
    (v.canonicalText = w.canonicalText ↔ v.Alike w) ∧
    ((Digest.ofText v.canonicalText = Digest.ofText w.canonicalText →
        v.canonicalText = w.canonicalText) →
      (v.cacheKey = w.cacheKey ↔ v.Alike w)) := by
  have htext := canonicalText_eq_iff_alike v w
  refine ⟨htext, fun hdigest => ?_⟩
  rw [← htext]
  constructor
  · exact fun hkey => hdigest (Digest.hex_injective hkey)
  · intro h
    rw [cacheKey, cacheKey, h]

/-- One key that spells out two records is not taken for the two dimensions it spells out. -/
theorem cacheKey_ne_of_imitation :
    let v : BehaviorVector := ⟨Dict.ofList [("a", 1), ("b", 2)]⟩
    let w : BehaviorVector := ⟨Dict.ofList [("a=1\n1:b", 2)]⟩
    v.canonicalText = "1:a=1\n1:b=2\n" ∧ w.canonicalText = "7:a=1\n1:b=2\n" ∧
      v.canonicalText ≠ w.canonicalText ∧ v.cacheKey ≠ w.cacheKey := by
  intro v w
  have hlaw := cacheKey_eq_iff_alike v w
  have hunlike : ¬v.Alike w := fun h => absurd h.keys_eq (by decide)
  refine ⟨by decide +kernel, by decide +kernel, ?_, ?_⟩
  · exact fun h => hunlike (hlaw.1.1 h)
  · exact fun h => hunlike ((hlaw.2 (by decide +kernel)).1 h)

/-! ## Vectors that are told apart -/

/-- Nothing that a cache key is made of mistakes one of some vectors for another: the digests of
their canonical texts do not collide, and the texts of their values tell numbers apart. -/
structure Distinguished (vs : List BehaviorVector) : Prop where
  digest : ∀ v ∈ vs, ∀ w ∈ vs,
    Digest.ofText v.canonicalText = Digest.ofText w.canonicalText →
      v.canonicalText = w.canonicalText
  text : ∀ v ∈ vs, ∀ w ∈ vs, ∀ x ∈ v.dimensions.values, ∀ y ∈ w.dimensions.values,
    x.isNaN = false → y.isNaN = false → Layout.plain.text x = Layout.plain.text y → x = y

theorem mem_values_of_get? {v : BehaviorVector} {key : String} {x : Float}
    (h : v.get? key = some x) : x ∈ v.dimensions.values :=
  List.mem_map_of_mem (Dict.get?_eq_some_iff.1 h)

/-- Among vectors that are told apart, alike ones are the same. -/
theorem Distinguished.eq_of_alike {vs : List BehaviorVector} (h : Distinguished vs)
    {v w : BehaviorVector} (hv : v ∈ vs) (hw : w ∈ vs) (halike : v.Alike w) : v = w := by
  obtain ⟨d⟩ := v
  obtain ⟨e⟩ := w
  refine congrArg BehaviorVector.mk (Dict.ext_get? fun key => ?_)
  have htext : (d.get? key).map Layout.plain.text = (e.get? key).map Layout.plain.text :=
    halike.map_text key
  cases hx : d.get? key with
  | none =>
    rw [hx] at htext
    exact (Option.map_eq_none_iff.1 htext.symm).symm
  | some x =>
    rw [hx] at htext
    obtain ⟨y, hy, hxy⟩ := Option.map_eq_some_iff.1 htext.symm
    have hnumbers (hxnum : x.isNaN = false) (hynum : y.isNaN = false) : x = y :=
      h.text _ hv _ hw x (mem_values_of_get? hx) y (mem_values_of_get? hy) hxnum hynum hxy.symm
    rw [hy, Layout.eq_of_chars_eq (String.ofList_injective hxy.symm) hnumbers]

/-- Among vectors that are told apart, those with one cache key are the same. -/
theorem Distinguished.eq_of_cacheKey {vs : List BehaviorVector} (h : Distinguished vs)
    {v w : BehaviorVector} (hv : v ∈ vs) (hw : w ∈ vs) (hkey : v.cacheKey = w.cacheKey) : v = w :=
  h.eq_of_alike hv hw <|
    (canonicalText_eq_iff_alike v w).1 (h.digest v hv w hw (Digest.hex_injective hkey))

end BehaviorVector

end IntentGate
