import Mathlib.Data.List.Basic

/-!
# URL-safe base64

`encode` is the URL-safe alphabet with padding. `decode` follows the strict decoder after the
URL-safe letters have been translated: whole groups of four, padding only in the last group, both
the URL-safe and the standard spelling of the letters 62 and 63, and unused low bits ignored.
-/

set_option autoImplicit false

namespace Base64

/-- The URL-safe alphabet. -/
def alphabet : List Char :=
  "ABCDEFGHIJKLMNOPQRSTUVWXYZabcdefghijklmnopqrstuvwxyz0123456789-_".toList

/-- Letter of a six-bit value. -/
def letter (n : Nat) : Char := alphabet.getD n 'A'

/-- Value of a letter in either spelling. -/
def value? (c : Char) : Option Nat :=
  if c = '+' then some 62
  else if c = '/' then some 63
  else alphabet.idxOf? c

/-- `base64.urlsafe_b64encode`. -/
def encode : List UInt8 → List Char
  | [] => []
  | [a] =>
      let n := a.toNat
      [letter (n / 4), letter (n % 4 * 16), '=', '=']
  | [a, b] =>
      let n := a.toNat * 256 + b.toNat
      [letter (n / 1024), letter (n / 16 % 64), letter (n % 16 * 4), '=']
  | a :: b :: c :: rest =>
      let n := (a.toNat * 256 + b.toNat) * 256 + c.toNat
      letter (n / 262144) :: letter (n / 4096 % 64) :: letter (n / 64 % 64) :: letter (n % 64) ::
        encode rest

/-- `base64.b64decode(…, altchars=b"-_", validate=True)`. -/
def decode : List Char → Option (List UInt8)
  | [] => some []
  | a :: b :: c :: d :: rest =>
      match value? a, value? b with
      | some x, some y =>
          if c = '=' then
            if d = '=' ∧ rest = [] then some [UInt8.ofNat (x * 4 + y / 16)] else none
          else
            match value? c with
            | none => none
            | some z =>
                if d = '=' then
                  if rest = [] then
                    some [UInt8.ofNat (x * 4 + y / 16), UInt8.ofNat (y % 16 * 16 + z / 4)]
                  else none
                else
                  match value? d, decode rest with
                  | some w, some tail =>
                      some (UInt8.ofNat (x * 4 + y / 16) :: UInt8.ofNat (y % 16 * 16 + z / 4) ::
                        UInt8.ofNat (z % 4 * 64 + w) :: tail)
                  | _, _ => none
      | _, _ => none
  | _ => none

/-- The bytes of a group that padding ends after two or three letters. -/
def paddedGroup : List Nat → List UInt8
  | [x, y] => [UInt8.ofNat (x * 4 + y / 16)]
  | [x, y, z] => [UInt8.ofNat (x * 4 + y / 16), UInt8.ofNat (y % 16 * 16 + z / 4)]
  | _ => []

/-- The lenient decoder. `group` are the values of the group begun, and `pads` counts the padding
since its last letter. Padding that ends the group ends the input; any other character that is no
letter is skipped. -/
def decodeLenient : List Nat → Nat → List Char → Option (List UInt8)
  | group, _, [] => if group = [] then some [] else none
  | group, pads, c :: cs =>
      if c = '=' then
        if group.length < 2 then decodeLenient group pads cs
        else if 4 ≤ group.length + (pads + 1) then some (paddedGroup group)
        else decodeLenient group (pads + 1) cs
      else
        match value? c, group with
        | none, _ => decodeLenient group pads cs
        | some w, [x, y, z] =>
            (decodeLenient [] 0 cs).map fun tail => UInt8.ofNat (x * 4 + y / 16) ::
              UInt8.ofNat (y % 16 * 16 + z / 4) :: UInt8.ofNat (z % 4 * 64 + w) :: tail
        | some w, group => decodeLenient (group ++ [w]) 0 cs

/-- `base64.urlsafe_b64decode`; `none` is `binascii.Error`. -/
def urlsafeDecode (cs : List Char) : Option (List UInt8) := decodeLenient [] 0 cs

/-! ## Decoding what was encoded -/

set_option maxRecDepth 4000 in
theorem value?_letter : ∀ n, n < 64 → value? (letter n) = some n := by decide

set_option maxRecDepth 4000 in
theorem letter_ne_pad : ∀ n, n < 64 → letter n ≠ '=' := by decide

/-- One whole group. -/
theorem decode_group {w x y z : Nat} (hw : w < 64) (hx : x < 64) (hy : y < 64) (hz : z < 64)
    (rest : List Char) :
    decode (letter w :: letter x :: letter y :: letter z :: rest) =
      (decode rest).map fun tail => UInt8.ofNat (w * 4 + x / 16) ::
        UInt8.ofNat (x % 16 * 16 + y / 4) :: UInt8.ofNat (y % 4 * 64 + z) :: tail := by
  rw [decode, value?_letter w hw, value?_letter x hx]
  simp only [if_neg (letter_ne_pad y hy), value?_letter y hy, if_neg (letter_ne_pad z hz),
    value?_letter z hz]
  cases decode rest <;> rfl

/-- **Round trip** of the codec. -/
theorem decode_encode (bytes : List UInt8) : decode (encode bytes) = some bytes := by
  induction bytes using encode.induct with
  | case1 => rfl
  | case2 a =>
      have ha : a.toNat < 256 := a.toNat_lt
      rw [encode]
      rw [decode, value?_letter _ (by omega), value?_letter _ (by omega)]
      simp only [if_true, and_self, Option.some.injEq, List.cons.injEq, and_true]
      rw [show a.toNat / 4 * 4 + a.toNat % 4 * 16 / 16 = a.toNat by omega, UInt8.ofNat_toNat]
  | case3 a b =>
      have ha : a.toNat < 256 := a.toNat_lt
      have hb : b.toNat < 256 := b.toNat_lt
      rw [encode]
      generalize hn : a.toNat * 256 + b.toNat = n
      rw [decode, value?_letter _ (by omega), value?_letter _ (by omega)]
      simp only [if_neg (letter_ne_pad (n % 16 * 4) (by omega)),
        value?_letter (n % 16 * 4) (by omega), if_true]
      rw [show n / 1024 * 4 + n / 16 % 64 / 16 = a.toNat by omega,
        show n / 16 % 64 % 16 * 16 + n % 16 * 4 / 4 = b.toNat by omega, UInt8.ofNat_toNat,
        UInt8.ofNat_toNat]
  | case4 a b c rest ih =>
      have ha : a.toNat < 256 := a.toNat_lt
      have hb : b.toNat < 256 := b.toNat_lt
      have hc : c.toNat < 256 := c.toNat_lt
      rw [encode]
      generalize hn : (a.toNat * 256 + b.toNat) * 256 + c.toNat = n
      rw [decode_group (by omega) (by omega) (by omega) (by omega), ih, Option.map_some,
        show n / 262144 * 4 + n / 4096 % 64 / 16 = a.toNat by omega,
        show n / 4096 % 64 % 16 * 16 + n / 64 % 64 / 4 = b.toNat by omega,
        show n / 64 % 64 % 4 * 64 + n % 64 = c.toNat by omega, UInt8.ofNat_toNat,
        UInt8.ofNat_toNat, UInt8.ofNat_toNat]

/-- The lenient decoder on the letters of a group begun. -/
theorem decodeLenient_letter {n : Nat} (h : n < 64) (group : List Nat) (pads : Nat)
    (rest : List Char) (hgroup : group.length < 3) :
    decodeLenient group pads (letter n :: rest) = decodeLenient (group ++ [n]) 0 rest := by
  conv => lhs; unfold decodeLenient
  rw [if_neg (letter_ne_pad n h), value?_letter n h]
  split
  · rename_i heq
    cases heq
  · rw [List.length_cons, List.length_cons, List.length_cons, List.length_nil] at hgroup
    omega
  · rename_i heq _
    cases heq
    rfl

theorem decodeLenient_last {n : Nat} (h : n < 64) (x y z pads : Nat) (rest : List Char) :
    decodeLenient [x, y, z] pads (letter n :: rest) =
      (decodeLenient [] 0 rest).map fun tail => UInt8.ofNat (x * 4 + y / 16) ::
        UInt8.ofNat (y % 16 * 16 + z / 4) :: UInt8.ofNat (z % 4 * 64 + n) :: tail := by
  conv => lhs; unfold decodeLenient
  rw [if_neg (letter_ne_pad n h), value?_letter n h]

/-- **Round trip** of the lenient decoder. -/
theorem urlsafeDecode_encode (bytes : List UInt8) : urlsafeDecode (encode bytes) = some bytes := by
  unfold urlsafeDecode
  induction bytes using encode.induct with
  | case1 => rfl
  | case2 a =>
      have ha : a.toNat < 256 := a.toNat_lt
      rw [encode]
      rw [decodeLenient_letter (by omega) _ _ _ (by decide),
        decodeLenient_letter (by omega) _ _ _ (by simp)]
      simp only [decodeLenient, List.nil_append, List.cons_append, List.length_cons,
        List.length_nil, paddedGroup, if_true, Nat.reduceAdd, Nat.reduceLT, if_false,
        Nat.reduceLeDiff, Nat.le_refl]
      rw [show a.toNat / 4 * 4 + a.toNat % 4 * 16 / 16 = a.toNat by omega, UInt8.ofNat_toNat]
  | case3 a b =>
      have ha : a.toNat < 256 := a.toNat_lt
      have hb : b.toNat < 256 := b.toNat_lt
      rw [encode]
      generalize hn : a.toNat * 256 + b.toNat = n
      rw [decodeLenient_letter (by omega) _ _ _ (by decide),
        decodeLenient_letter (by omega) _ _ _ (by simp),
        decodeLenient_letter (by omega) _ _ _ (by simp)]
      simp only [decodeLenient, List.nil_append, List.cons_append, List.length_cons,
        List.length_nil, paddedGroup, if_true, Nat.reduceAdd, Nat.reduceLT, if_false,
        Nat.le_refl]
      rw [show n / 1024 * 4 + n / 16 % 64 / 16 = a.toNat by omega,
        show n / 16 % 64 % 16 * 16 + n % 16 * 4 / 4 = b.toNat by omega, UInt8.ofNat_toNat,
        UInt8.ofNat_toNat]
  | case4 a b c rest ih =>
      have ha : a.toNat < 256 := a.toNat_lt
      have hb : b.toNat < 256 := b.toNat_lt
      have hc : c.toNat < 256 := c.toNat_lt
      rw [encode]
      generalize hn : (a.toNat * 256 + b.toNat) * 256 + c.toNat = n
      rw [decodeLenient_letter (by omega) _ _ _ (by decide),
        decodeLenient_letter (by omega) _ _ _ (by simp),
        decodeLenient_letter (by omega) _ _ _ (by simp)]
      simp only [List.nil_append, List.cons_append]
      rw [decodeLenient_last (by omega), ih, Option.map_some,
        show n / 262144 * 4 + n / 4096 % 64 / 16 = a.toNat by omega,
        show n / 4096 % 64 % 16 * 16 + n / 64 % 64 / 4 = b.toNat by omega,
        show n / 64 % 64 % 4 * 64 + n % 64 = c.toNat by omega, UInt8.ofNat_toNat,
        UInt8.ofNat_toNat, UInt8.ofNat_toNat]

set_option maxRecDepth 4000 in
/-- Letters are ASCII. -/
theorem letter_ascii : ∀ n, n < 64 → (letter n).toNat < 128 := by decide

/-- An encoded text consists of letters and padding. -/
theorem mem_encode {bytes : List UInt8} {c : Char} (h : c ∈ encode bytes) :
    (∃ n, n < 64 ∧ c = letter n) ∨ c = '=' := by
  induction bytes using encode.induct with
  | case1 => cases h
  | case2 a =>
      have ha : a.toNat < 256 := a.toNat_lt
      simp only [encode, List.mem_cons, List.not_mem_nil, or_false] at h
      rcases h with rfl | rfl | rfl | rfl
      · exact .inl ⟨_, by omega, rfl⟩
      · exact .inl ⟨_, by omega, rfl⟩
      · exact .inr rfl
      · exact .inr rfl
  | case3 a b =>
      have ha : a.toNat < 256 := a.toNat_lt
      have hb : b.toNat < 256 := b.toNat_lt
      simp only [encode, List.mem_cons, List.not_mem_nil, or_false] at h
      rcases h with rfl | rfl | rfl | rfl
      · exact .inl ⟨_, by omega, rfl⟩
      · exact .inl ⟨_, by omega, rfl⟩
      · exact .inl ⟨_, by omega, rfl⟩
      · exact .inr rfl
  | case4 a b c' rest ih =>
      have ha : a.toNat < 256 := a.toNat_lt
      have hb : b.toNat < 256 := b.toNat_lt
      have hc : c'.toNat < 256 := c'.toNat_lt
      simp only [encode, List.mem_cons] at h
      rcases h with rfl | rfl | rfl | rfl | h
      · exact .inl ⟨_, by omega, rfl⟩
      · exact .inl ⟨_, by omega, rfl⟩
      · exact .inl ⟨_, by omega, rfl⟩
      · exact .inl ⟨_, by omega, rfl⟩
      · exact ih h

/-- Four letters for every three bytes begun. -/
theorem length_encode (bytes : List UInt8) :
    (encode bytes).length = (bytes.length + 2) / 3 * 4 := by
  induction bytes using encode.induct with
  | case1 => rfl
  | case2 a =>
      rw [encode]
      simp
  | case3 a b =>
      rw [encode]
      simp
  | case4 a b c rest ih =>
      rw [encode]
      simp only [List.length_cons, ih]
      omega

end Base64
