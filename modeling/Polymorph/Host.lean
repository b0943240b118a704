import Polymorph.Model.Values
import Polymorph.Text.JsonDict

/-!
# Services of the runtime environment

The functions of the interpreter, its Unicode tables and its hash library that the modelled code
calls and that have no closed form here. Each development over a `Host` holds for any such
environment.
-/

set_option autoImplicit false

namespace Polymorph

open JsonText Utc

/-- Lower-case hexadecimal characters. -/
def isLowerHexChar (c : Char) : Bool := "0123456789abcdef".toList.contains c

/-- A lower-case hexadecimal text of exactly `n` characters. -/
def isLowerHex (n : Nat) (text : String) : Bool :=
  text.length = n && text.toList.all isLowerHexChar

/-- A `datetime` read from a text or from a clock: without timezone, or an instant. -/
inductive Reading where
  | naive
  | aware (instant : Instant)

/-- The environment. -/
structure Host where
  /-- `hashlib.sha256(text.encode("utf-8")).hexdigest()` -/
  sha256Hex : String → String
  /-- A hexadecimal digest has 64 lower-case digits. -/
  sha256Hex_digits : ∀ text, isLowerHex 64 (sha256Hex text) = true
  /-- `int(text)` -/
  intOfStr : String → Option Int
  /-- `str(value)` of a decoded JSON value other than a string -/
  strOfJson : Json → String
  /-- `datetime.fromisoformat(text)` -/
  fromisoformat : String → Option Reading
  /-- `datetime.fromisoformat(d.isoformat())` is `d`. -/
  fromisoformat_isoformat : ∀ i : Instant, fromisoformat i.isoformat = some (.aware i)
  /-- `char.isprintable()` -/
  isPrintable : Char → Bool
  /-- `char.isalnum()` -/
  isAlnum : Char → Bool
  /-- ASCII letters and digits are alphanumeric. -/
  isAlnum_ascii : ∀ c : Char, c.isAlphanum = true → isAlnum c = true
  /-- `char.isspace()` -/
  isSpace : Char → Bool
  /-- `str(value)` of a value other than a text -/
  strOfValue : PyValue → PyText
  /-- `str(d)` -/
  decimalStr : PyDecimal → String
  /-- `Decimal(text)`; `none` is `InvalidOperation` -/
  decimalOfStr : PyText → Option PyDecimal
  /-- `Decimal(str(d))` is `d`. -/
  decimalOfStr_decimalStr : ∀ d, d.isFinite = true →
    decimalOfStr (PyText.ofString (decimalStr d)) = some d
  /-- `repr(x)` of a finite float, a JSON number with a fraction or an exponent -/
  floatRepr : PyFloat → List Char
  /-- `float(text)` of such a number -/
  floatOfStr : List Char → PyFloat
  /-- `float(repr(x))` is `x`. -/
  floatOfStr_floatRepr : ∀ x, x.isFinite = true → floatOfStr (floatRepr x) = x
  /-- `datetime.isoformat()` -/
  datetimeIsoformat : PyDateTime → String
  /-- `datetime.fromisoformat(text)` of a value -/
  datetimeFromisoformat : PyText → Option PyDateTime
  /-- `datetime.fromisoformat(d.isoformat())` is `d`. -/
  datetimeFromisoformat_isoformat :
    ∀ d, datetimeFromisoformat (PyText.ofString (datetimeIsoformat d)) = some d
  /-- `date.isoformat()` -/
  dateIsoformat : PyDate → String
  /-- `date.fromisoformat(text)` -/
  dateFromisoformat : PyText → Option PyDate
  /-- `date.fromisoformat(d.isoformat())` is `d`. -/
  dateFromisoformat_isoformat :
    ∀ d, dateFromisoformat (PyText.ofString (dateIsoformat d)) = some d
  /-- `datetime.strptime(text, format)` -/
  strptime : PyText → String → Option PyDateTime

namespace Host

variable (H : Host)

/-- `str(value)`. -/
def str : Json → String
  | .str s => s
  | j => H.strOfJson j

/-- `text.isprintable()`. -/
def printable (text : String) : Bool := text.toList.all H.isPrintable

/-- `text.strip()`. -/
def strip (text : String) : String :=
  String.ofList ((text.toList.dropWhile H.isSpace).reverse.dropWhile H.isSpace).reverse

end Host

end Polymorph
