import IntentGate.Behavior.Masking
import Mathlib.Data.List.Forall2

/-!
# What masking hides

Masking is followed through two spaces that are alike but for what is to be hidden: the names of
actors and actions, and the values of the tags that are listed (`Indistinct`). Where a placeholder
stands for names the two have the same masked space; where digits of a digest do, they have it
exactly if the digits for corresponding names agree (`apply_eq_iff_sameDigits`). So nothing else of
a hidden value gets through. The tags of events and those of the space are hidden under different
conditions on their keys, but by the same rule: whoever maps all hidden values to one tells no
difference between dictionaries that agree outside (`AgreesOutside.mapValues_eq`).
-/

namespace IntentGate

namespace Dict

variable {α β : Type}

/-- The same keys, and the same value at each key that is not hidden. -/
structure AgreesOutside (hidden : String → Prop) (d e : Dict α) : Prop where
  keys : d.keys = e.keys
  get? : ∀ key, ¬hidden key → d.get? key = e.get? key

theorem AgreesOutside.mapValues_eq {hidden : String → Prop} {d e : Dict α}
    (h : d.AgreesOutside hidden e) {f : String → α → β}
    (hf : ∀ key, hidden key → ∀ v w, f key v = f key w) : d.mapValues f = e.mapValues f := by
  refine ext_get? fun key => ?_
  rw [get?_mapValues, get?_mapValues]
  by_cases hkey : hidden key
  · have hsome : (d.get? key).isSome = (e.get? key).isSome := by
      rw [Bool.eq_iff_iff, ← mem_keys_iff, ← mem_keys_iff, h.keys]
    cases hd : d.get? key with
    | none =>
      rw [hd] at hsome
      rw [Option.isNone_iff_eq_none.1 (Option.isSome_eq_false_iff.1 hsome.symm)]
    | some v =>
      rw [hd] at hsome
      obtain ⟨w, he⟩ := Option.isSome_iff_exists.1 hsome.symm
      rw [he]
      exact congrArg some (hf key hkey v w)
  · rw [h.get? key hkey]

end Dict

namespace Digest

theorem mem_hexChars {d : Digest} {c : Char} (hc : c ∈ d.hexChars) :
    ∃ n < 16, c = Nat.digitChar n := by
  obtain ⟨b, -, hc⟩ := List.mem_flatMap.1 hc
  have hb : b.toNat < 256 := b.toNat_lt
  rcases List.mem_pair.1 hc with rfl | rfl
  · exact ⟨b.toNat / 16, by omega, rfl⟩
  · exact ⟨b.toNat % 16, by omega, rfl⟩

theorem toLower_toUpper_digitChar {n : Nat} (hn : n < 16) :
    (Nat.digitChar n).toUpper.toLower = Nat.digitChar n := by
  revert n
  decide

/-- Digits that are written in upper case are known from it. -/
theorem upperHexPrefix_eq_iff {d e : Digest} {n : Nat} :
    d.upperHexPrefix n = e.upperHexPrefix n ↔ d.hexChars.take n = e.hexChars.take n := by
  have hlower (d : Digest) :
      ((d.hexChars.map Char.toUpper).take n).map Char.toLower = d.hexChars.take n := by
    rw [← List.map_take, List.map_map]
    refine (List.map_congr_left fun c hc => ?_).trans (List.map_id _)
    obtain ⟨k, hk, rfl⟩ := mem_hexChars (List.mem_of_mem_take hc)
    exact toLower_toUpper_digitChar hk
  constructor
  · intro h
    rw [← hlower d, ← hlower e, String.ofList_injective h]
  · intro h
    rw [upperHexPrefix, upperHexPrefix, ← List.map_take, ← List.map_take, h]

end Digest

namespace Masking

/-- The digits that may stand for a name. -/
def nameDigits (name : String) : List Char :=
  (Digest.ofText name).hexChars.take digestDigits

/-- Two events that differ in nothing but names and listed tags; a name stays empty or not. -/
structure IndistinctEvents (m : Masking) (e f : Event) : Prop where
  occurredAt : e.occurredAt = f.occurredAt
  actor : e.actor = "" ↔ f.actor = ""
  action : e.action = "" ↔ f.action = ""
  tags : e.tags.AgreesOutside (· ∈ m.redactedKeys) f.tags

/-- Two spaces that differ in nothing but names and listed tags. -/
structure Indistinct (m : Masking) (s t : Space) : Prop where
  events : List.Forall₂ m.IndistinctEvents s.events t.events
  tags : s.tags.AgreesOutside (fun key => ∃ k ∈ m.redactedKeys, Text.sameIgnoringCase k key) t.tags

/-- The same digits for both names. -/
def SameDigits (e f : Event) : Prop :=
  nameDigits e.actor = nameDigits f.actor ∧ nameDigits e.action = nameDigits f.action

variable {m : Masking}

theorem mask_eq_iff {v w : String} (hempty : v = "" ↔ w = "") :
    m.mask v = m.mask w ↔ (m.useDigest = true → nameDigits v = nameDigits w) := by
  by_cases hv : v = ""
  -- masking leaves an empty name as it is, so emptiness is not hidden
  · have hw := hempty.1 hv
    subst hv hw
    exact iff_of_true rfl fun _ => rfl
  · have hw : w ≠ "" := fun hw => hv (hempty.2 hw)
    have hmask {u : String} (hu : u ≠ "") : m.mask u =
        if m.useDigest then (Digest.ofText u).upperHexPrefix digestDigits else m.placeholder := by
      rw [mask, if_neg (mt String.isEmpty_iff.1 hu)]
    rw [hmask hv, hmask hw]
    cases m.useDigest with
    | false =>
      rw [if_neg Bool.false_ne_true, if_neg Bool.false_ne_true]
      exact iff_of_true rfl nofun
    | true =>
      rw [if_pos rfl, if_pos rfl, Digest.upperHexPrefix_eq_iff]
      exact ⟨fun h _ => h, fun h => h rfl⟩

theorem redactEventTags_eq {d e : Dict Tag} (h : d.AgreesOutside (· ∈ m.redactedKeys) e) :
    m.redactEventTags d = m.redactEventTags e := by
  refine h.mapValues_eq fun key hkey v w => ?_
  have hlisted : m.redactedKeys.contains key = true := List.contains_iff_mem.2 hkey
  rw [if_pos hlisted, if_pos hlisted]

theorem redactSpaceTags_eq {d e : Dict Tag}
    (h : d.AgreesOutside (fun key => ∃ k ∈ m.redactedKeys, Text.sameIgnoringCase k key) e) :
    m.redactSpaceTags d = m.redactSpaceTags e := by
  refine h.mapValues_eq fun key hkey v w => ?_
  have hlisted : m.redactedKeys.any (Text.sameIgnoringCase · key) = true := List.any_eq_true.2 hkey
  rw [if_pos hlisted, if_pos hlisted]

section MaskNames

variable (hactor : m.maskActor = true) (haction : m.maskAction = true)

include hactor haction

theorem maskEvent_eq_iff {e f : Event} (h : m.IndistinctEvents e f) :
    m.maskEvent e = m.maskEvent f ↔ (m.useDigest = true → SameDigits e f) := by
  have hnames : m.maskEvent e = m.maskEvent f ↔
      m.mask e.actor = m.mask f.actor ∧ m.mask e.action = m.mask f.action := by
    rw [maskEvent, maskEvent, hactor, haction, h.occurredAt, redactEventTags_eq h.tags]
    simp
  rw [hnames, mask_eq_iff h.actor, mask_eq_iff h.action]
  exact imp_and.symm

theorem apply_eq_iff {s t : Space} (h : m.Indistinct s t) :
    m.apply s = m.apply t ↔
      List.Forall₂ (fun e f => m.useDigest = true → SameDigits e f) s.events t.events := by
  have hevents : m.apply s = m.apply t ↔
      List.Forall₂ (fun e f => m.maskEvent e = m.maskEvent f) s.events t.events := by
    rw [apply, apply, redactSpaceTags_eq h.tags]
    simp [Space.ofEvents, ← List.forall₂_eq_eq_eq]
  rw [hevents]
  constructor
  · exact h.events.mp fun e f hef => (maskEvent_eq_iff hactor haction hef).1
  · exact h.events.mp fun e f hef => (maskEvent_eq_iff hactor haction hef).2

end MaskNames

/-- Where names are masked, spaces that are alike but for names and listed tags have the same masked
space if a placeholder stands for names. If digits of a digest do, the masked spaces are the same
exactly if these digits agree for corresponding actors and for corresponding actions. -/
theorem apply_eq_iff_sameDigits (hactor : m.maskActor = true) (haction : m.maskAction = true)
    {s t : Space} (h : m.Indistinct s t) :
    (m.useDigest = false → m.apply s = m.apply t) ∧
    (m.useDigest = true →
      (m.apply s = m.apply t ↔ List.Forall₂ SameDigits s.events t.events)) := by
  have hiff := apply_eq_iff hactor haction h
  constructor
  · intro hplaceholder
    refine hiff.2 (h.events.imp fun e f _ hdigest => ?_)
    rw [hplaceholder] at hdigest
    cases hdigest
  · intro hdigest
    rw [hiff, hdigest]
    simp only [forall_const]

/-- The address of the event and the mail of the space are listed, the latter in another case. A
placeholder leaves nothing that tells the two actors apart; with digests their digits do, and two
spaces of one actor stay alike. -/
theorem apply_eq_iff_sameDigits_of_login :
    let event (actor address : String) : Event :=
      ⟨actor, "login", default, (Dict.empty.insert "device" (.text "phone")).insert "ip"
        (.text address)⟩
    let space (actor address mail : String) : Space :=
      .ofEvents [event actor address] <|
        (Dict.empty.insert "tenant" (.text "acme")).insert "Email" (.text mail)
    let m (useDigest : Bool) : Masking := { redactedKeys := ["ip", "email"], useDigest }
    (m false).apply (space "alice" "10.0.0.1" "a@x") =
      (m false).apply (space "bob" "10.0.0.2" "b@x") ∧
    (m true).apply (space "alice" "10.0.0.1" "a@x") =
      (m true).apply (space "alice" "10.0.0.2" "c@x") ∧
    ((m true).apply (space "alice" "10.0.0.1" "a@x") =
      (m true).apply (space "bob" "10.0.0.2" "b@x") ↔ nameDigits "alice" = nameDigits "bob") := by
  intro event space m
  have hinsert {hidden : String → Prop} {key : String} (hkey : hidden key) {d : Dict Tag}
      {v w : Tag} (hkeys : (d.insert key v).keys = (d.insert key w).keys) :
      (d.insert key v).AgreesOutside hidden (d.insert key w) := by
    refine ⟨hkeys, fun k hk => ?_⟩
    have hne : k ≠ key := fun heq => hk (heq ▸ hkey)
    rw [Dict.get?_insert, Dict.get?_insert, if_neg hne, if_neg hne]
  have hmail : Text.sameIgnoringCase "email" "Email" := by
    simp [Text.sameIgnoringCase, Text.asciiLower, ← String.toList_inj]
  have halike (useDigest : Bool) {actor actor' : String} (hempty : actor = "" ↔ actor' = "")
      (address address' mail mail' : String) :
      (m useDigest).Indistinct (space actor address mail) (space actor' address' mail') := by
    refine ⟨.cons ⟨rfl, hempty, Iff.rfl, ?_⟩ .nil, ?_⟩
    · exact hinsert List.mem_cons_self rfl
    · exact hinsert ⟨"email", List.mem_cons_of_mem _ List.mem_cons_self, hmail⟩ rfl
  have hnames : "alice" = "" ↔ "bob" = "" := by decide
  refine ⟨?_, ?_, ?_⟩
  · exact (apply_eq_iff_sameDigits rfl rfl (halike false hnames ..)).1 rfl
  · exact ((apply_eq_iff_sameDigits rfl rfl (halike true Iff.rfl ..)).2 rfl).2
      (.cons ⟨rfl, rfl⟩ .nil)
  · refine ((apply_eq_iff_sameDigits rfl rfl (halike true hnames ..)).2 rfl).trans ?_
    exact ⟨fun h => (List.forall₂_cons.1 h).1.1, fun h => .cons ⟨h, rfl⟩ .nil⟩

end Masking

end IntentGate
