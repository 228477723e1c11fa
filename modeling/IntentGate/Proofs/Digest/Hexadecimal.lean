import IntentGate.Digest

/-!
# Digests and their digits

The hexadecimal text of a digest determines the digest (`hex_injective`), so that two texts with
different digests are never stored under one key.
-/

namespace IntentGate.Digest

/-- Codes of one positive length for the members of a list can be told apart where they follow one
another. -/
theorem flatMap_injective {α β : Type} (code : α → List β) {n : Nat} (hpos : 0 < n)
    (hlength : ∀ a, (code a).length = n) (hcode : ∀ {a b}, code a = code b → a = b)
    {as bs : List α} (h : as.flatMap code = bs.flatMap code) : as = bs := by
  induction as generalizing bs with
  | nil =>
    cases bs with
    | nil => rfl
    | cons b bs =>
      have hsize := congrArg List.length h
      simp only [List.flatMap_nil, List.length_nil, List.flatMap_cons, List.length_append,
        hlength] at hsize
      omega
  | cons a as ih =>
    cases bs with
    | nil =>
      have hsize := congrArg List.length h
      simp only [List.flatMap_nil, List.length_nil, List.flatMap_cons, List.length_append,
        hlength] at hsize
      omega
    | cons b bs =>
      rw [List.flatMap_cons, List.flatMap_cons] at h
      obtain ⟨hhead, htail⟩ := List.append_inj h ((hlength a).trans (hlength b).symm)
      rw [hcode hhead, ih htail]

/-- The number of a hexadecimal digit in lower case. -/
def digitNumber (c : Char) : Nat :=
  if c.isDigit then c.toNat - 48 else c.toNat - 87

theorem digitNumber_digitChar {n : Nat} (hn : n < 16) : digitNumber (Nat.digitChar n) = n := by
  revert n
  decide

theorem byteChars_injective {a b : UInt8} (h : byteChars a = byteChars b) : a = b := by
  have ha : a.toNat < 256 := a.toNat_lt
  have hb : b.toNat < 256 := b.toNat_lt
  have hdigits := congrArg (List.map digitNumber) h
  simp only [byteChars, List.map_cons, List.map_nil, List.cons.injEq, and_true] at hdigits
  rw [digitNumber_digitChar (by omega), digitNumber_digitChar (by omega),
    digitNumber_digitChar (by omega), digitNumber_digitChar (by omega)] at hdigits
  apply UInt8.toNat_inj.1
  omega

theorem toNat_wordBytes (w : UInt32) :
    (wordBytes w).map UInt8.toNat =
      [w.toNat / 0x1000000 % 0x100, w.toNat / 0x10000 % 0x100, w.toNat / 0x100 % 0x100,
        w.toNat % 0x100] := by
  simp [wordBytes, Nat.shiftRight_eq_div_pow]

theorem wordBytes_injective {v w : UInt32} (h : wordBytes v = wordBytes w) : v = w := by
  have hv : v.toNat < 2 ^ 32 := v.toNat_lt
  have hw : w.toNat < 2 ^ 32 := w.toNat_lt
  have hbytes := congrArg (List.map UInt8.toNat) h
  simp only [toNat_wordBytes, List.cons.injEq, and_true] at hbytes
  apply UInt32.toNat_inj.1
  omega

theorem hex_injective {d e : Digest} (h : d.hex = e.hex) : d = e := by
  have hchars : d.hexChars = e.hexChars := String.ofList_injective h
  have hbytes : d.bytes = e.bytes :=
    flatMap_injective byteChars Nat.two_pos (fun _ => rfl) byteChars_injective hchars
  have hwords : d.words = e.words :=
    flatMap_injective wordBytes (Nat.succ_pos 3) (fun _ => rfl) wordBytes_injective hbytes
  cases d
  cases e
  exact congrArg Digest.mk hwords

end IntentGate.Digest
