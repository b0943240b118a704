import Mathlib.Data.List.Basic

/-!
# SHA-256

The hash function of FIPS 180 on byte lists and its hexadecimal digest: padding, message schedule,
64 rounds per block, and the eight words of the state written as lower-case digits.
-/

set_option autoImplicit false

namespace Sha256

/-- The round constants. -/
def roundConstants : List UInt32 :=
  [0x428a2f98, 0x71374491, 0xb5c0fbcf, 0xe9b5dba5, 0x3956c25b, 0x59f111f1, 0x923f82a4, 0xab1c5ed5,
    0xd807aa98, 0x12835b01, 0x243185be, 0x550c7dc3, 0x72be5d74, 0x80deb1fe, 0x9bdc06a7, 0xc19bf174,
    0xe49b69c1, 0xefbe4786, 0x0fc19dc6, 0x240ca1cc, 0x2de92c6f, 0x4a7484aa, 0x5cb0a9dc, 0x76f988da,
    0x983e5152, 0xa831c66d, 0xb00327c8, 0xbf597fc7, 0xc6e00bf3, 0xd5a79147, 0x06ca6351, 0x14292967,
    0x27b70a85, 0x2e1b2138, 0x4d2c6dfc, 0x53380d13, 0x650a7354, 0x766a0abb, 0x81c2c92e, 0x92722c85,
    0xa2bfe8a1, 0xa81a664b, 0xc24b8b70, 0xc76c51a3, 0xd192e819, 0xd6990624, 0xf40e3585, 0x106aa070,
    0x19a4c116, 0x1e376c08, 0x2748774c, 0x34b0bcb5, 0x391c0cb3, 0x4ed8aa4a, 0x5b9cca4f, 0x682e6ff3,
    0x748f82ee, 0x78a5636f, 0x84c87814, 0x8cc70208, 0x90befffa, 0xa4506ceb, 0xbef9a3f7, 0xc67178f2]

/-- The working variables. -/
structure Words where
  a : UInt32
  b : UInt32
  c : UInt32
  d : UInt32
  e : UInt32
  f : UInt32
  g : UInt32
  h : UInt32

/-- The initial hash value. -/
def initial : Words :=
  ⟨0x6a09e667, 0xbb67ae85, 0x3c6ef372, 0xa54ff53a, 0x510e527f, 0x9b05688c, 0x1f83d9ab, 0x5be0cd19⟩

def rotateRight (x n : UInt32) : UInt32 := (x >>> n) ||| (x <<< (32 - n))

/-- `width` bytes of a number, most significant first. -/
def bigEndian : Nat → Nat → List UInt8
  | 0, _ => []
  | width + 1, n => bigEndian width (n / 256) ++ [UInt8.ofNat (n % 256)]

/-- The message with its padding, a multiple of 64 bytes. -/
def pad (message : List UInt8) : List UInt8 :=
  message ++ 0x80 :: List.replicate ((119 - message.length % 64) % 64) 0 ++
    bigEndian 8 (8 * message.length)

/-- Big-endian words of a byte list. -/
def words : List UInt8 → List UInt32
  | a :: b :: c :: d :: rest =>
      ((a.toUInt32 <<< 24) ||| (b.toUInt32 <<< 16) ||| (c.toUInt32 <<< 8) ||| d.toUInt32) ::
        words rest
  | _ => []

/-- The next word of the message schedule, whose words are listed latest first. -/
def nextWord (w : List UInt32) : UInt32 :=
  let x := w.getD 14 0
  let y := w.getD 1 0
  (rotateRight y 17 ^^^ rotateRight y 19 ^^^ (y >>> 10)) + w.getD 6 0 +
    (rotateRight x 7 ^^^ rotateRight x 18 ^^^ (x >>> 3)) + w.getD 15 0

/-- The message schedule of a block, extended by `n` words. -/
def extend : Nat → List UInt32 → List UInt32
  | 0, w => w
  | n + 1, w => extend n (nextWord w :: w)

/-- One round. -/
def round (v : Words) (k w : UInt32) : Words :=
  let t₁ := v.h + (rotateRight v.e 6 ^^^ rotateRight v.e 11 ^^^ rotateRight v.e 25) +
    ((v.e &&& v.f) ^^^ (~~~v.e &&& v.g)) + k + w
  let t₂ := (rotateRight v.a 2 ^^^ rotateRight v.a 13 ^^^ rotateRight v.a 22) +
    ((v.a &&& v.b) ^^^ (v.a &&& v.c) ^^^ (v.b &&& v.c))
  ⟨t₁ + t₂, v.a, v.b, v.c, v.d + t₁, v.e, v.f, v.g⟩

/-- One block of 16 words. -/
def compress (v : Words) (block : List UInt32) : Words :=
  let schedule := (extend 48 block.reverse).reverse
  let r := (roundConstants.zip schedule).foldl (fun v p => round v p.1 p.2) v
  ⟨v.a + r.a, v.b + r.b, v.c + r.c, v.d + r.d, v.e + r.e, v.f + r.f, v.g + r.g, v.h + r.h⟩

/-- The first `n` blocks. -/
def compressAll : Nat → List UInt32 → Words → Words
  | 0, _, v => v
  | n + 1, w, v => compressAll n (w.drop 16) (compress v (w.take 16))

/-- The hash of a message. -/
def hash (message : List UInt8) : Words :=
  let padded := words (pad message)
  compressAll (padded.length / 16) padded initial

/-- `width` hexadecimal digits of a number. -/
def hexDigits : Nat → Nat → List Char
  | 0, _ => []
  | width + 1, n => hexDigits width (n / 16) ++ [Nat.digitChar (n % 16)]

/-- `hexdigest()` -/
def hexDigest (message : List UInt8) : String :=
  let v := hash message
  String.ofList ([v.a, v.b, v.c, v.d, v.e, v.f, v.g, v.h].flatMap fun w => hexDigits 8 w.toNat)

theorem length_hexDigits (width n : Nat) : (hexDigits width n).length = width := by
  induction width generalizing n with
  | zero => rfl
  | succ width ih => rw [hexDigits, List.length_append, ih, List.length_singleton]

theorem length_hexDigest (message : List UInt8) : (hexDigest message).length = 64 := by
  rw [hexDigest, String.length_ofList]
  simp [length_hexDigits]

theorem digitChar_mem {n : Nat} (h : n < 16) : Nat.digitChar n ∈ "0123456789abcdef".toList := by
  revert n
  decide

theorem mem_hexDigits {width n : Nat} {c : Char} (h : c ∈ hexDigits width n) :
    c ∈ "0123456789abcdef".toList := by
  induction width generalizing n with
  | zero => cases h
  | succ width ih =>
      rcases List.mem_append.1 h with h | h
      · exact ih h
      · rw [List.mem_singleton.1 h]
        exact digitChar_mem (Nat.mod_lt _ (by decide))

/-- A digest is written in lower-case hexadecimal digits. -/
theorem mem_hexDigest {message : List UInt8} {c : Char} (h : c ∈ (hexDigest message).toList) :
    c ∈ "0123456789abcdef".toList := by
  rw [hexDigest, String.toList_ofList] at h
  obtain ⟨w, -, hw⟩ := List.mem_flatMap.1 h
  exact mem_hexDigits hw

end Sha256
