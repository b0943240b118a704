import Polymorph.Host
import Polymorph.Text.Sha256
import Polymorph.Time.Isoformat
import Mathlib.Data.Nat.Pairing
import Mathlib.Logic.Encodable.Basic

/-!
# An environment that satisfies the laws

`standardHost` hashes with SHA-256 and reads back every text it writes. Numbers and dates are
written as injective codes; the Unicode tables are those of ASCII.
-/

set_option autoImplicit false

namespace Polymorph

open Utc

/-- The value a writer gave a text, when there is one. -/
noncomputable def readBack {α τ : Type} (write : α → τ) (text : τ) : Option α :=
  open Classical in if h : ∃ a, write a = text then some h.choose else none

theorem readBack_write {α τ : Type} {write : α → τ} (h : Function.Injective write) (a : α) :
    readBack write (write a) = some a := by
  have hex : ∃ a', write a' = write a := ⟨a, rfl⟩
  unfold readBack
  rw [dif_pos hex]
  exact congrArg some (h hex.choose_spec)

/-- A number as a text of as many digits. -/
def unary (n : Nat) : String := String.ofList (List.replicate n '0')

theorem unary_injective : Function.Injective unary := by
  intro n m h
  have hlength := congrArg (fun s => s.toList.length) h
  simpa [unary] using hlength

theorem ofString_injective : Function.Injective PyText.ofString := by
  intro s t h
  have hchars : s.toList = t.toList :=
    List.map_injective_iff.2 (fun _ _ h => PyChar.scalar.inj h) h
  exact String.toList_injective hchars

/-- A number as a Python text. -/
def unaryText (n : Nat) : PyText := PyText.ofString (unary n)

theorem unaryText_injective : Function.Injective unaryText :=
  ofString_injective.comp unary_injective

/-- The code of a finite decimal. -/
def decimalCode : PyDecimal → Nat
  | .finite negative coefficient exponent =>
      Nat.pair (Encodable.encode negative) (Nat.pair coefficient (Encodable.encode exponent))
  | _ => 0

/-- A decimal with its code, for reading a code back as a finite decimal. -/
def decimalOfCode (n : Nat) : Option PyDecimal :=
  match Encodable.decode (α := Bool) n.unpair.1, Encodable.decode (α := Int) n.unpair.2.unpair.2 with
  | some negative, some exponent => some (.finite negative n.unpair.2.unpair.1 exponent)
  | _, _ => none

theorem decimalOfCode_decimalCode {d : PyDecimal} (h : d.isFinite = true) :
    decimalOfCode (decimalCode d) = some d := by
  cases d with
  | finite negative coefficient exponent =>
      rw [decimalCode, decimalOfCode, Nat.unpair_pair, Nat.unpair_pair, Encodable.encodek,
        Encodable.encodek]
  | infinity _ => cases h
  | nan _ _ _ => cases h

/-- The code of a date. -/
def dateCode (d : PyDate) : Nat := Nat.pair d.year (Nat.pair d.month d.day)

theorem dateCode_injective : Function.Injective dateCode := by
  intro d e h
  obtain ⟨hyear, hrest⟩ := Nat.pair_eq_pair.1 h
  obtain ⟨hmonth, hday⟩ := Nat.pair_eq_pair.1 hrest
  cases d
  cases e
  simp_all

/-- The code of a datetime. -/
def datetimeCode (d : PyDateTime) : Nat :=
  Nat.pair (Encodable.encode d.offset) (Nat.pair d.civil.year (Nat.pair d.civil.month
    (Nat.pair d.civil.day (Nat.pair d.civil.hour (Nat.pair d.civil.minute
      (Nat.pair d.civil.second d.civil.microsecond))))))

theorem datetimeCode_injective : Function.Injective datetimeCode := by
  intro d e h
  obtain ⟨⟨_, _, _, _, _, _, _⟩, _, _⟩ := d
  obtain ⟨⟨_, _, _, _, _, _, _⟩, _, _⟩ := e
  simp only [datetimeCode, Nat.pair_eq_pair, Encodable.encode_inj] at h
  simp [h]

/-- The text of a date. -/
def dateText (d : PyDate) : String := unary (dateCode d)

theorem dateText_injective : Function.Injective fun d => PyText.ofString (dateText d) :=
  fun _ _ h => dateCode_injective (unary_injective (ofString_injective h))

/-- The text of a datetime. -/
def datetimeText (d : PyDateTime) : String := unary (datetimeCode d)

theorem datetimeText_injective : Function.Injective fun d => PyText.ofString (datetimeText d) :=
  fun _ _ h => datetimeCode_injective (unary_injective (ofString_injective h))

/-- The text of a float. -/
def floatText (x : PyFloat) : List Char := (unary x.bits.toNat).toList

theorem floatText_injective : Function.Injective floatText := by
  intro x y h
  have hbits : x.bits = y.bits :=
    BitVec.eq_of_toNat_eq (unary_injective (String.toList_injective h))
  cases x
  cases y
  exact congrArg PyFloat.mk hbits

/-- The text of a decimal. -/
def decimalText (d : PyDecimal) : String := unary (decimalCode d)

theorem decimalText_read {d : PyDecimal} (h : d.isFinite = true) :
    (readBack unaryText (PyText.ofString (decimalText d))).bind decimalOfCode = some d := by
  have hread : readBack unaryText (PyText.ofString (decimalText d)) = some (decimalCode d) :=
    readBack_write unaryText_injective _
  rw [hread, Option.bind_some, decimalOfCode_decimalCode h]

/-- The SHA-256 digest of the UTF-8 bytes of a text. -/
def sha256Text (text : String) : String := Sha256.hexDigest text.toUTF8.toList

theorem isLowerHex_hexDigest (message : List UInt8) :
    isLowerHex 64 (Sha256.hexDigest message) = true := by
  have hall : (Sha256.hexDigest message).toList.all isLowerHexChar = true := by
    rw [List.all_eq_true]
    exact fun c hc => List.contains_iff_mem.2 (Sha256.mem_hexDigest hc)
  have hlength := Sha256.length_hexDigest message
  generalize Sha256.hexDigest message = digest at hall hlength ⊢
  rw [isLowerHex, hlength, hall]
  rfl

theorem isLowerHex_sha256Text (text : String) : isLowerHex 64 (sha256Text text) = true :=
  isLowerHex_hexDigest _

/-- Digests are SHA-256 digests, and a text is read back as the value it was written from. -/
noncomputable def standardHost : Host where
  sha256Hex := sha256Text
  sha256Hex_digits := isLowerHex_sha256Text
  intOfStr text := text.toInt?
  strOfJson := JsonText.dumps
  fromisoformat text := (readBack Instant.isoformat text).map Reading.aware
  fromisoformat_isoformat i := by rw [readBack_write isoformat_injective, Option.map_some]
  isPrintable c := decide (32 ≤ c.toNat ∧ c.toNat < 127)
  isAlnum := Char.isAlphanum
  isAlnum_ascii _ h := h
  isSpace := Char.isWhitespace
  strOfValue _ := []
  decimalStr := decimalText
  decimalOfStr text := (readBack unaryText text).bind decimalOfCode
  decimalOfStr_decimalStr _ h := decimalText_read h
  floatRepr := floatText
  floatOfStr text := (readBack floatText text).getD ⟨0⟩
  floatOfStr_floatRepr x _ := by rw [readBack_write floatText_injective, Option.getD_some]
  datetimeIsoformat := datetimeText
  datetimeFromisoformat := readBack fun d => PyText.ofString (datetimeText d)
  datetimeFromisoformat_isoformat := readBack_write datetimeText_injective
  dateIsoformat := dateText
  dateFromisoformat := readBack fun d => PyText.ofString (dateText d)
  dateFromisoformat_isoformat := readBack_write dateText_injective
  strptime _ _ := none

end Polymorph
