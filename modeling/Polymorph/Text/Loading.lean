import Polymorph.Text.JsonDict

/-!
# Loading text

The UTF-8 bytes of characters, and what a loader checks besides the syntax: the digit limit that
the interpreter puts on integer literals, and that no object repeats a key.
-/

set_option autoImplicit false

namespace JsonText

/-- The UTF-8 bytes of some characters. -/
def utf8Bytes (chars : List Char) : List UInt8 := chars.flatMap String.utf8EncodeChar

theorem toByteArray_utf8Bytes (chars : List Char) :
    (⟨(utf8Bytes chars).toArray⟩ : ByteArray) = (String.ofList chars).toByteArray :=
  ByteArray.ext List.data_toByteArray.symm

theorem length_utf8Bytes (text : String) :
    (utf8Bytes text.toList).length = text.utf8ByteSize := by
  have hsize := congrArg ByteArray.size (toByteArray_utf8Bytes text.toList)
  rw [String.ofList_toList] at hsize
  exact hsize

/-- A text has at least one byte for each character. -/
theorem length_le_utf8ByteSize (text : String) : text.length ≤ text.utf8ByteSize := by
  have hbytes : ∀ chars : List Char, chars.length ≤ (utf8Bytes chars).length := by
    intro chars
    induction chars with
    | nil => exact Nat.le_refl 0
    | cons c chars ih =>
        have hpos := c.utf8Size_pos
        rw [utf8Bytes, List.flatMap_cons, List.length_append, String.length_utf8EncodeChar,
          List.length_cons]
        change chars.length ≤ (chars.flatMap String.utf8EncodeChar).length at ih
        omega
  have hlength := hbytes text.toList
  rwa [length_utf8Bytes, String.length_toList] at hlength

/-- `bytes.decode("utf-8")` -/
def decodeUtf8 (bytes : List UInt8) : Option String := String.fromUTF8? ⟨bytes.toArray⟩

theorem decodeUtf8_utf8Bytes (chars : List Char) :
    decodeUtf8 (utf8Bytes chars) = some (String.ofList chars) := by
  unfold decodeUtf8 String.fromUTF8?
  rw [toByteArray_utf8Bytes, dif_pos (String.ofList chars).isValidUTF8]
  rfl

/-! ## The digit limit -/

/-- The digit limit of the interpreter, `sys.int_info.default_max_str_digits`. -/
def maxStrDigits : Nat := 4300

mutual

/-- No integer has more digits than the limit. -/
def shortIntegers : Json → Bool
  | .int z => z.natAbs < 10 ^ maxStrDigits
  | .arr items => shortItems items
  | .obj members => shortMembers members
  | _ => true

def shortItems : List Json → Bool
  | [] => true
  | x :: xs => shortIntegers x && shortItems xs

def shortMembers : List (String × Json) → Bool
  | [] => true
  | (_, v) :: rest => shortIntegers v && shortMembers rest

end

/-! ## Repeated keys -/

mutual

/-- No object repeats a key. -/
def uniqueKeys : Json → Bool
  | .arr items => uniqueItems items
  | .obj members => distinctKeys members && uniqueMembers members
  | _ => true

def uniqueItems : List Json → Bool
  | [] => true
  | x :: xs => uniqueKeys x && uniqueItems xs

def uniqueMembers : List (String × Json) → Bool
  | [] => true
  | (_, v) :: rest => uniqueKeys v && uniqueMembers rest

end

end JsonText
