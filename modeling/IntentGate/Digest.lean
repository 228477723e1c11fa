/-!
# Content digests

`Digest.ofBytes` is the SHA-256 digest of a byte string: the message is padded to whole blocks of
64 bytes, and each block is stirred into eight words of state. A digest is written in lower-case
hexadecimal, or cut to its first digits in upper case where it serves as a mask.
-/

namespace IntentGate

/-- The eight words of state of a digest under way. -/
structure DigestState where
  a : UInt32
  b : UInt32
  c : UInt32
  d : UInt32
  e : UInt32
  f : UInt32
  g : UInt32
  h : UInt32
deriving DecidableEq

namespace DigestState

/-- The state before the first block. -/
def initial : DigestState :=
  ⟨0x6a09e667, 0xbb67ae85, 0x3c6ef372, 0xa54ff53a, 0x510e527f, 0x9b05688c, 0x1f83d9ab, 0x5be0cd19⟩

/-- The constants of the sixty-four rounds. -/
def roundConstants : List UInt32 := [
  0x428a2f98, 0x71374491, 0xb5c0fbcf, 0xe9b5dba5, 0x3956c25b, 0x59f111f1, 0x923f82a4, 0xab1c5ed5,
  0xd807aa98, 0x12835b01, 0x243185be, 0x550c7dc3, 0x72be5d74, 0x80deb1fe, 0x9bdc06a7, 0xc19bf174,
  0xe49b69c1, 0xefbe4786, 0x0fc19dc6, 0x240ca1cc, 0x2de92c6f, 0x4a7484aa, 0x5cb0a9dc, 0x76f988da,
  0x983e5152, 0xa831c66d, 0xb00327c8, 0xbf597fc7, 0xc6e00bf3, 0xd5a79147, 0x06ca6351, 0x14292967,
  0x27b70a85, 0x2e1b2138, 0x4d2c6dfc, 0x53380d13, 0x650a7354, 0x766a0abb, 0x81c2c92e, 0x92722c85,
  0xa2bfe8a1, 0xa81a664b, 0xc24b8b70, 0xc76c51a3, 0xd192e819, 0xd6990624, 0xf40e3585, 0x106aa070,
  0x19a4c116, 0x1e376c08, 0x2748774c, 0x34b0bcb5, 0x391c0cb3, 0x4ed8aa4a, 0x5b9cca4f, 0x682e6ff3,
  0x748f82ee, 0x78a5636f, 0x84c87814, 0x8cc70208, 0x90befffa, 0xa4506ceb, 0xbef9a3f7, 0xc67178f2]

/-- Rotation to the right. -/
def rotate (x : UInt32) (n : UInt32) : UInt32 :=
  (x >>> n) ||| (x <<< (32 - n))

/-- One round with its constant and its word of the schedule. -/
def round (s : DigestState) (k w : UInt32) : DigestState :=
  let t1 := s.h + (rotate s.e 6 ^^^ rotate s.e 11 ^^^ rotate s.e 25)
    + ((s.e &&& s.f) ^^^ (~~~s.e &&& s.g)) + k + w
  let t2 := (rotate s.a 2 ^^^ rotate s.a 13 ^^^ rotate s.a 22)
    + ((s.a &&& s.b) ^^^ (s.a &&& s.c) ^^^ (s.b &&& s.c))
  ⟨t1 + t2, s.a, s.b, s.c, s.d + t1, s.e, s.f, s.g⟩

/-- Extends the words of a block, latest first, by the next word of the schedule. -/
def extendSchedule (latest : List UInt32) : List UInt32 :=
  let earlier (i : Nat) : UInt32 := latest.getD (i - 1) 0
  let s0 := rotate (earlier 15) 7 ^^^ rotate (earlier 15) 18 ^^^ (earlier 15 >>> 3)
  let s1 := rotate (earlier 2) 17 ^^^ rotate (earlier 2) 19 ^^^ (earlier 2 >>> 10)
  (earlier 16 + s0 + earlier 7 + s1) :: latest

/-- The sixty-four words of the schedule of a block of sixteen words. -/
def schedule (block : List UInt32) : List UInt32 :=
  ((List.range 48).foldl (fun latest _ => extendSchedule latest) block.reverse).reverse

/-- Word-wise sum of two states. -/
def add (s t : DigestState) : DigestState :=
  ⟨s.a + t.a, s.b + t.b, s.c + t.c, s.d + t.d, s.e + t.e, s.f + t.f, s.g + t.g, s.h + t.h⟩

/-- Stirs one block of sixteen words into the state. -/
def absorb (s : DigestState) (block : List UInt32) : DigestState :=
  s.add <| (roundConstants.zip (schedule block)).foldl (fun t kw => t.round kw.1 kw.2) s

/-- The eight words in order. -/
def words (s : DigestState) : List UInt32 :=
  [s.a, s.b, s.c, s.d, s.e, s.f, s.g, s.h]

end DigestState

/-- A digest of thirty-two bytes, as its eight words. -/
structure Digest where
  words : List UInt32
deriving DecidableEq

namespace Digest

/-- The bytes of a word, most significant first. -/
def wordBytes (w : UInt32) : List UInt8 :=
  [(w >>> 24).toUInt8, (w >>> 16).toUInt8, (w >>> 8).toUInt8, w.toUInt8]

/-- Four bytes as a word, most significant first. -/
def bytesWord (a b c d : UInt8) : UInt32 :=
  (a.toUInt32 <<< 24) ||| (b.toUInt32 <<< 16) ||| (c.toUInt32 <<< 8) ||| d.toUInt32

/-- The message followed by a one bit, zero bits and its length in bits. -/
def padded (message : List UInt8) : List UInt8 :=
  let bits := 8 * message.length
  let zeros := (119 - message.length % 64) % 64
  let size : List UInt8 :=
    [56, 48, 40, 32, 24, 16, 8, 0].map fun shift => UInt8.ofNat (bits >>> shift)
  message ++ 0x80 :: List.replicate zeros 0 ++ size

/-- Groups bytes into words; a rest of fewer than four is dropped. -/
def toWords : List UInt8 → List UInt32
  | a :: b :: c :: d :: rest => bytesWord a b c d :: toWords rest
  | _ => []

/-- Absorbs whole blocks from the words of a padded message. -/
def absorbAll (s : DigestState) (words : List UInt32) : DigestState :=
  match words with
  | [] => s
  | w :: ws => absorbAll (s.absorb ((w :: ws).take 16)) ((w :: ws).drop 16)
termination_by words.length
decreasing_by simp only [List.length_drop, List.length_cons]; omega

/-- The SHA-256 digest of a message. -/
def ofBytes (message : List UInt8) : Digest :=
  ⟨(absorbAll DigestState.initial (toWords (padded message))).words⟩

/-- The SHA-256 digest of the UTF-8 form of a text. -/
def ofText (s : String) : Digest :=
  ofBytes s.toUTF8.toList

/-- The thirty-two bytes. -/
def bytes (d : Digest) : List UInt8 :=
  d.words.flatMap wordBytes

/-- The two hexadecimal digits of a byte, in lower case. -/
def byteChars (b : UInt8) : List Char :=
  [Nat.digitChar (b.toNat / 16), Nat.digitChar (b.toNat % 16)]

/-- The sixty-four hexadecimal digits, in lower case. -/
def hexChars (d : Digest) : List Char :=
  d.bytes.flatMap byteChars

/-- The hexadecimal text. -/
def hex (d : Digest) : String :=
  String.ofList d.hexChars

/-- The first `n` hexadecimal digits, in upper case; all of them when there are fewer. -/
def upperHexPrefix (d : Digest) (n : Nat) : String :=
  String.ofList ((d.hexChars.map Char.toUpper).take n)

/-- The digest with the name of its function. -/
def display (d : Digest) : String :=
  "sha256:" ++ d.hex

end Digest

end IntentGate
