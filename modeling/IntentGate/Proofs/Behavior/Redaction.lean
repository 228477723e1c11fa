import IntentGate.Proofs.Behavior.Coherence
import IntentGate.Proofs.Behavior.Concealment

/-!
# What masking changes

A masked space has the events of its source one for one (`EventFrame`): each at its time, with the
tags it had, and with both names as they were unless they are masked and not empty. Tags are
redacted in place, so no key is lost and none is added (`Redacted`); the tags of events and those of
the space are listed by different rules, and redacted by the same one. Nothing is left to be masked
where a placeholder stands, as it is its own mask (`mask_mask`), while a digest is not: there the
digits are all that is said of a name, and they are the same wherever the name stands (`Shows`).
-/

namespace IntentGate

namespace Dict

variable {α : Type}

/-- The same keys, with one value at all hidden ones and the old value at every other one. -/
structure Redacted (hidden : String → Prop) (value : α) (d e : Dict α) : Prop where
  agrees : d.AgreesOutside hidden e
  get? : ∀ key ∈ d.keys, hidden key → e.get? key = some value

theorem redacted_mapValues {hidden : String → Bool} {value : α} {d : Dict α} {f : String → α → α}
    (hf : ∀ key v, f key v = if hidden key then value else v) :
    d.Redacted (hidden · = true) value (d.mapValues f) where
  agrees := by
    refine ⟨(d.keys_mapValues f).symm, fun key hkey => ?_⟩
    have hkept : f key = id := funext fun v => by rw [hf, if_neg hkey, id]
    rw [get?_mapValues, hkept, Option.map_id_fun, id]
  get? key hmem hkey := by
    obtain ⟨v, hv⟩ := Option.isSome_iff_exists.1 (mem_keys_iff.1 hmem)
    rw [get?_mapValues, hv, Option.map_some, hf, if_pos hkey]

/-- What is redacted by the same rule once more stays as it is. -/
theorem mapValues_mapValues {d : Dict α} {f : String → α → α}
    (hf : ∀ key v, f key (f key v) = f key v) : (d.mapValues f).mapValues f = d.mapValues f := by
  refine ext_get? fun key => ?_
  rw [get?_mapValues, get?_mapValues, Option.map_map]
  exact congrArg (Option.map · _) (funext (hf key))

end Dict

namespace Digest

/-- The digits of a mask. -/
def upperDigits : List Char := "0123456789ABCDEF".toList

theorem length_hexChars (d : Digest) : d.hexChars.length = 8 * d.words.length := by
  have hbytes : d.bytes.length = d.words.length * 4 := by
    simp [bytes, List.length_flatMap, wordBytes]
  have hdigits : d.hexChars.length = d.bytes.length * 2 := by
    simp [hexChars, List.length_flatMap, byteChars]
  omega

/-- The state has eight words. -/
theorem length_hexChars_ofText (s : String) : (ofText s).hexChars.length = 64 :=
  length_hexChars _

theorem toUpper_digitChar_mem {n : Nat} (hn : n < 16) :
    (Nat.digitChar n).toUpper ∈ upperDigits := by
  revert n
  decide

theorem mem_upperHexPrefix {d : Digest} {n : Nat} {c : Char} (hc : c ∈ (d.upperHexPrefix n).toList) :
    c ∈ upperDigits := by
  rw [upperHexPrefix, String.toList_ofList] at hc
  obtain ⟨digit, hdigit, rfl⟩ := List.mem_map.1 (List.mem_of_mem_take hc)
  obtain ⟨k, hk, rfl⟩ := mem_hexChars hdigit
  exact toUpper_digitChar_mem hk

theorem length_upperHexPrefix_ofText (s : String) {n : Nat} (hn : n ≤ 64) :
    ((ofText s).upperHexPrefix n).length = n := by
  rw [upperHexPrefix, String.length_ofList, List.length_take, List.length_map,
    length_hexChars_ofText, Nat.min_eq_left hn]

end Digest

namespace Masking

variable {m m' : Masking}

/-! ## Names -/

theorem mask_empty (m : Masking) : m.mask "" = "" :=
  rfl

theorem mask_of_ne_empty {name : String} (h : name ≠ "") :
    m.mask name =
      if m.useDigest then (Digest.ofText name).upperHexPrefix digestDigits else m.placeholder := by
  rw [mask, if_neg (mt String.isEmpty_iff.1 h)]

/-- A placeholder that is masked is the placeholder, and if it is empty it stays empty. -/
theorem mask_mask (h : m.useDigest = false) (name : String) : m.mask (m.mask name) = m.mask name := by
  by_cases hname : name = ""
  · rw [hname]
    rfl
  · have hmask : m.mask name = m.placeholder := by
      rw [mask_of_ne_empty hname, h, if_neg Bool.false_ne_true]
    rw [hmask]
    by_cases hempty : m.placeholder = ""
    · rw [hempty]
      rfl
    · rw [mask_of_ne_empty hempty, h, if_neg Bool.false_ne_true]

/-- How digests are used is all that the mask of a name depends on. -/
theorem mask_eq_of_useDigest (h : m.useDigest = true) (h' : m'.useDigest = true) (name : String) :
    m.mask name = m'.mask name := by
  rw [mask, mask, h, h', if_pos rfl, if_pos rfl]

/-! ## Events -/

/-- What an event keeps when it is masked. -/
structure EventFrame (m : Masking) (e f : Event) : Prop where
  occurredAt : f.occurredAt = e.occurredAt
  actor : m.maskActor = false ∨ e.actor = "" → f.actor = e.actor
  action : m.maskAction = false ∨ e.action = "" → f.action = e.action
  tags : e.tags.Redacted (· ∈ m.redactedKeys) redacted f.tags

theorem redacted_redactEventTags (m : Masking) (tags : Dict Tag) :
    tags.Redacted (· ∈ m.redactedKeys) redacted (m.redactEventTags tags) := by
  have h : tags.Redacted (m.redactedKeys.contains · = true) redacted (m.redactEventTags tags) :=
    Dict.redacted_mapValues fun _ _ => rfl
  simpa only [List.contains_iff_mem] using h

theorem redacted_redactSpaceTags (m : Masking) (tags : Dict Tag) :
    tags.Redacted (fun key => ∃ k ∈ m.redactedKeys, Text.sameIgnoringCase k key) redacted
      (m.redactSpaceTags tags) := by
  have h : tags.Redacted (fun key => m.redactedKeys.any (Text.sameIgnoringCase · key) = true)
      redacted (m.redactSpaceTags tags) := Dict.redacted_mapValues fun _ _ => rfl
  simpa only [List.any_eq_true] using h

theorem name_of_kept {masks : Bool} {name : String} (h : masks = false ∨ name = "") :
    (if masks then m.mask name else name) = name := by
  rcases h with rfl | rfl
  · exact if_neg Bool.false_ne_true
  · rw [mask_empty, ite_self]

theorem eventFrame_maskEvent (m : Masking) (e : Event) : m.EventFrame e (m.maskEvent e) where
  occurredAt := rfl
  actor := name_of_kept
  action := name_of_kept
  tags := m.redacted_redactEventTags e.tags

theorem maskEvent_maskEvent (h : m.useDigest = false) (e : Event) :
    m.maskEvent (m.maskEvent e) = m.maskEvent e := by
  have hname (masks : Bool) (name : String) :
      (if masks then m.mask (if masks then m.mask name else name)
        else if masks then m.mask name else name) = if masks then m.mask name else name := by
    cases masks with
    | false => rfl
    | true => exact mask_mask h name
  have htags : m.redactEventTags (m.redactEventTags e.tags) = m.redactEventTags e.tags :=
    Dict.mapValues_mapValues fun key v => by split <;> rfl
  rw [Event.mk.injEq]
  exact ⟨hname .., hname .., rfl, htags⟩

/-! ## Spaces -/

theorem apply_apply (h : m.useDigest = false) (s : Space) : m.apply (m.apply s) = m.apply s := by
  have hevents : ((s.events.map m.maskEvent).map m.maskEvent) = s.events.map m.maskEvent := by
    rw [List.map_map]
    exact List.map_congr_left fun e _ => maskEvent_maskEvent h e
  have htags : m.redactSpaceTags (m.redactSpaceTags s.tags) = m.redactSpaceTags s.tags :=
    Dict.mapValues_mapValues fun key v => by split <;> rfl
  change Space.ofEvents _ _ = Space.ofEvents _ _
  rw [← hevents, ← htags]
  rfl

/-- At some place of the space a name stands that is masked, and `shown` stands there in the masked
space. -/
def Shows (m : Masking) (s : Space) (name shown : String) : Prop :=
  ∃ (n : Nat) (e f : Event), s.events[n]? = some e ∧ (m.apply s).events[n]? = some f ∧
    (m.maskActor = true ∧ e.actor = name ∧ f.actor = shown ∨
      m.maskAction = true ∧ e.action = name ∧ f.action = shown)

theorem Shows.eq_mask {s : Space} {name shown : String} (h : m.Shows s name shown) :
    shown = m.mask name := by
  obtain ⟨n, e, f, he, hf, h⟩ := h
  have hf' : (m.apply s).events[n]? = some (m.maskEvent e) := by
    change (s.events.map m.maskEvent)[n]? = _
    rw [List.getElem?_map, he]
    rfl
  obtain rfl := Option.some.inj (hf.symm.trans hf')
  rcases h with ⟨hmasks, rfl, rfl⟩ | ⟨hmasks, rfl, rfl⟩ <;> exact if_pos hmasks

theorem Shows.eq_placeholder {s : Space} {name shown : String} (h : m.Shows s name shown)
    (hplaceholder : m.useDigest = false) (hname : name ≠ "") : shown = m.placeholder := by
  rw [h.eq_mask, mask_of_ne_empty hname, hplaceholder, if_neg Bool.false_ne_true]

theorem Shows.digits {s : Space} {name shown : String} (h : m.Shows s name shown)
    (hdigest : m.useDigest = true) (hname : name ≠ "") :
    shown.length = 16 ∧ ∀ c ∈ shown.toList, c ∈ Digest.upperDigits := by
  rw [h.eq_mask, mask_of_ne_empty hname, hdigest, if_pos rfl]
  exact ⟨Digest.length_upperHexPrefix_ofText name (by decide),
    fun _ => Digest.mem_upperHexPrefix⟩

/-- Masking changes only what it has to. The masked space has the events of the space in their order
and the tags of the space, redacted where they are listed, and the spaces there are so far, the
masked one with its slot among them, stay as they are. Where a placeholder stands for names,
masking once more changes nothing. Where digests are used, names that are not empty are shown as
sixteen digits, the same for the same name wherever it stands and whatever else is masked. -/
theorem changes_only_masked (m : Masking) (s : Space) :
    List.Forall₂ m.EventFrame s.events (m.apply s).events ∧
    s.tags.Redacted (fun key => ∃ k ∈ m.redactedKeys, Text.sameIgnoringCase k key) redacted
      (m.apply s).tags ∧
    (m.apply s).cached = none ∧
    (∀ (spaces : List Space) (i : Nat), spaces[i]? = some s →
      (Space.perform spaces (.mask i m)).1 = spaces ++ [m.apply s]) ∧
    (m.useDigest = false → m.apply (m.apply s) = m.apply s ∧
      ∀ name shown, m.Shows s name shown → name ≠ "" → shown = m.placeholder) ∧
    (m.useDigest = true → ∀ name shown, m.Shows s name shown →
      (name ≠ "" → shown.length = 16 ∧ ∀ c ∈ shown.toList, c ∈ Digest.upperDigits) ∧
      ∀ (m' : Masking) (s' : Space) (shown' : String), m'.useDigest = true →
        m'.Shows s' name shown' → shown' = shown) := by
  refine ⟨?events, m.redacted_redactSpaceTags s.tags, rfl, ?source, ?placeholder, ?digest⟩
  case events =>
    change List.Forall₂ _ s.events (s.events.map m.maskEvent)
    rw [List.forall₂_map_right_iff, List.forall₂_same]
    exact fun e _ => m.eventFrame_maskEvent e
  case source =>
    intro spaces i hs
    change spaces ++ (spaces[i]?.map m.apply).toList = _
    rw [hs]
    rfl
  case placeholder =>
    exact fun h => ⟨apply_apply h s, fun _ _ hshown => hshown.eq_placeholder h⟩
  case digest =>
    intro hdigest name shown hshown
    refine ⟨hshown.digits hdigest, fun m' s' shown' hdigest' hshown' => ?_⟩
    rw [hshown.eq_mask, hshown'.eq_mask, mask_eq_of_useDigest hdigest' hdigest]

/-- A name that stands as an actor and as an action, beside an empty one, with a key that is listed
twice and an empty placeholder. Its digits are the same where only actions are masked. -/
theorem changes_only_masked_of_login :
    let address : Dict Tag := Dict.empty.insert "ip" (.text "10.0.0.1")
    let login : Event := ⟨"alice", "login", default, address⟩
    let called : Event := ⟨"", "alice", default, .empty⟩
    let s : Space := (Space.ofEvents [login, called] address).warmed
    let m (useDigest : Bool) : Masking :=
      { redactedKeys := ["IP", "ip", "IP"], useDigest, placeholder := "" }
    let actions : Masking := { maskActor := false }
    (Space.perform [s] (.mask 0 (m true))).1 = [s, (m true).apply s] ∧
    (m false).apply ((m false).apply s) = (m false).apply s ∧
    ∃ shown, (m true).Shows s "alice" shown ∧ shown.length = 16 ∧ actions.Shows s "alice" shown := by
  intro address login called s m actions
  obtain ⟨-, -, -, hsource, -, hdigest⟩ := changes_only_masked (m true) s
  obtain ⟨-, -, -, -, hplaceholder, -⟩ := changes_only_masked (m false) s
  have hactor : (m true).Shows s "alice" ((m true).mask "alice") :=
    ⟨0, login, (m true).maskEvent login, rfl, rfl, .inl ⟨rfl, rfl, rfl⟩⟩
  have haction : actions.Shows s "alice" (actions.mask "alice") :=
    ⟨1, called, actions.maskEvent called, rfl, rfl, .inr ⟨rfl, rfl, rfl⟩⟩
  obtain ⟨hdigits, hsame⟩ := hdigest rfl _ _ hactor
  refine ⟨hsource [s] 0 rfl, (hplaceholder rfl).1, _, hactor, (hdigits (by decide)).1, ?_⟩
  exact hsame actions s _ rfl haction ▸ haction

end Masking

end IntentGate
