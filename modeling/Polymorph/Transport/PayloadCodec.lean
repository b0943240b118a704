import Polymorph.Errors
import Polymorph.Host
import Polymorph.Text.Base64
import Polymorph.Text.JsonLayout
import Polymorph.Text.Loading

/-!
# The payload codec

`PayloadCodec.encode` and `PayloadCodec.decode` of the values inside an envelope. The serialiser
is that of `json.dumps(…, ensure_ascii=False, separators=(",", ":"), allow_nan=False)` on Python
values: it writes tuples as arrays, and the keys `None`, `bool`, `int` and `float` as texts.
-/

set_option autoImplicit false

namespace Polymorph

open JsonText

/-- `text.encode("ascii")` -/
def PyText.asciiChars? (t : PyText) : Option (List Char) :=
  t.mapM fun
    | .scalar c => if c.toNat < 128 then some c else none
    | .surrogate _ => none

namespace PayloadCodec

variable (H : Host)

/-! ## The serialiser -/

/-- `int(text)` and `str(n)` beyond the digit limit of the interpreter. -/
def digitsExceeded : Exn :=
  .valueError "Exceeds the limit (4300 digits) for integer string conversion"

/-- A float that `allow_nan=False` refuses. -/
def outOfRange : Exn := .valueError "Out of range float values are not JSON compliant"

/-- `type(value).__name__` -/
def className : PyValue → String
  | .none => "NoneType"
  | .bool _ => "bool"
  | .int _ => "int"
  | .float _ => "float"
  | .decimal _ => "Decimal"
  | .str _ => "str"
  | .bytes _ => "bytes"
  | .date _ => "date"
  | .datetime _ => "datetime"
  | .uuid _ => "UUID"
  | .list _ => "list"
  | .tuple _ => "tuple"
  | .dict _ => "dict"
  | .object description => description

/-- `str(n)` and `json.dumps(n)` of an integer. -/
def intJson (z : Int) : Except Exn Int :=
  if z.natAbs < 10 ^ JsonText.maxStrDigits then .ok z else .error digitsExceeded

/-- `repr(x)` of a float, which `allow_nan=False` restricts to finite ones. -/
def floatJson (x : PyFloat) : Except Exn (List Char) :=
  if x.isFinite = true then .ok (H.floatRepr x) else .error outOfRange

/-- The characters of a text. `encodable` rules out the other texts. -/
def characters (t : PyText) : List Char := t.chars?.getD []

/-- The key of a member. -/
def jsonKey : PyValue → Except Exn String
  | .str t => .ok (String.ofList (characters t))
  | .float x => do return String.ofList (← floatJson H x)
  | .bool true => .ok "true"
  | .bool false => .ok "false"
  | .none => .ok "null"
  | .int z => do return String.ofList (writeInt (← intJson z))
  | key => .error (.typeError
      ("keys must be str, int, float, bool or None, not " ++ className key))

mutual

/-- The JSON value of a Python value. -/
def jsonOf : PyValue → Except Exn Json
  | .none => .ok .null
  | .bool b => .ok (.bool b)
  | .int z => do return .int (← intJson z)
  | .float x => do return .real (← floatJson H x)
  | .str t => .ok (.str (String.ofList (characters t)))
  | .list items => do return .arr (← itemsOf items)
  | .tuple items => do return .arr (← itemsOf items)
  | .dict members => do return .obj (← membersOf members)
  | value => .error (.typeError
      ("Object of type " ++ className value ++ " is not JSON serializable"))

def itemsOf : List PyValue → Except Exn (List Json)
  | [] => .ok []
  | x :: xs => do
      let j ← jsonOf x
      let js ← itemsOf xs
      return j :: js

def membersOf : List (PyValue × PyValue) → Except Exn (List (String × Json))
  | [] => .ok []
  | (k, v) :: rest => do
      let key ← jsonKey H k
      let j ← jsonOf v
      let js ← membersOf rest
      return (key, j) :: js

end

mutual

/-- No text of the value has a lone surrogate. -/
def encodable : PyValue → Bool
  | .str t => t.chars?.isSome
  | .list items => encodableItems items
  | .tuple items => encodableItems items
  | .dict members => encodableMembers members
  | _ => true

def encodableItems : List PyValue → Bool
  | [] => true
  | x :: xs => encodable x && encodableItems xs

def encodableMembers : List (PyValue × PyValue) → Bool
  | [] => true
  | (k, v) :: rest => encodable k && encodable v && encodableMembers rest

end

/-- `json.dumps(payload, …).encode("utf-8")` -/
def dumpBytes (payload : PyValue) : Except Exn (List UInt8) := do
  let j ← jsonOf H payload
  if encodable payload = true then .ok (utf8Bytes (write j))
  else .error (.unicodeError "surrogates not allowed")

/-! ## Encoding -/

/-- `{"kind": kind, "value": value}` -/
def tagged (kind : String) (value : PyValue) : PyValue :=
  .dict [(.str (PyText.ofString "kind"), .str (PyText.ofString kind)),
    (.str (PyText.ofString "value"), value)]

/-- The payload of a value. -/
def payloadOf : PyValue → Except Exn PyValue
  | .decimal d =>
      if d.isFinite = true then
        .ok (tagged "decimal" (.str (PyText.ofString (H.decimalStr d))))
      else .error (.valueError "non-finite decimals are not transportable")
  | .datetime d => .ok (tagged "datetime" (.str (PyText.ofString (H.datetimeIsoformat d))))
  | .date d => .ok (tagged "date" (.str (PyText.ofString (H.dateIsoformat d))))
  | .bytes bs =>
      .ok (tagged "bytes" (.str (PyText.ofString (String.ofList (Base64.encode bs)))))
  | .float x =>
      if x.isFinite = true then .ok (tagged "json" (.float x))
      else .error (.valueError "non-finite floats are not transportable")
  | value => .ok (tagged "json" value)

/-- `PayloadCodec.encode` -/
def encode (value : PyValue) : Except Exn (List UInt8) := do
  let payload ← payloadOf H value
  dumpBytes H payload

/-! ## Decoding -/

/-- `reject_duplicate_keys`; `result` holds the members kept so far. -/
def rejectDuplicateKeys (result : List (String × PyValue)) :
    List (String × PyValue) → Except Exn (List (String × PyValue))
  | [] => .ok result
  | (key, value) :: pairs =>
      if key ∈ result.map Prod.fst then
        .error (.valueError ("duplicate payload key: " ++ key))
      else rejectDuplicateKeys (result ++ [(key, value)]) pairs

mutual

/-- The Python value that `json.loads` makes of a JSON value with the hooks of `decode`. -/
def valueOf : Json → Except Exn PyValue
  | .null => .ok .none
  | .bool b => .ok (.bool b)
  | .int z => do return .int (← intJson z)
  | .real lexeme => .ok (.float (H.floatOfStr lexeme))
  | .constant name => .error (.valueError
      ("non-finite JSON constant is not transportable: " ++ String.ofList name))
  | .str s => .ok (.str (PyText.ofString s))
  | .arr items => do return .list (← valuesOf items)
  | .obj members => do
      let pairs ← pairsOf members
      let result ← rejectDuplicateKeys [] pairs
      return .dict (result.map fun p => (.str (PyText.ofString p.1), p.2))

def valuesOf : List Json → Except Exn (List PyValue)
  | [] => .ok []
  | j :: js => do
      let x ← valueOf j
      let xs ← valuesOf js
      return x :: xs

def pairsOf : List (String × Json) → Except Exn (List (String × PyValue))
  | [] => .ok []
  | (k, j) :: rest => do
      let v ← valueOf j
      let pairs ← pairsOf rest
      return (k, v) :: pairs

end

/-- `json.loads(payload.decode("utf-8"), …)` -/
def loadBytes (payload : List UInt8) : Except Exn PyValue :=
  match decodeUtf8 payload with
  | none => .error (.unicodeError "invalid UTF-8")
  | some text =>
      match loads text with
      | none => .error (.valueError "invalid JSON text")
      | some j => valueOf H j

/-- `data[key]` of a dictionary. -/
def textMember? (key : String) : List (PyValue × PyValue) → Option PyValue
  | [] => none
  | (.str t, v) :: rest =>
      if t = PyText.ofString key then some v else textMember? key rest
  | _ :: rest => textMember? key rest

/-- A member `value` that has to be a string. -/
def requireText (kind : String) : PyValue → Except Exn PyText
  | .str t => .ok t
  | _ => .error (.valueError (kind ++ " payload value must be a string"))

/-- A text read by a constructor of the standard library. -/
def readText {α : Type} (e : Exn) : Option α → Except Exn α
  | some a => .ok a
  | none => .error e

/-- The value of a payload of a known kind. -/
def decodeKind (kind value : PyValue) : Except Exn PyValue :=
  match kind with
  | .str t =>
      if t = PyText.ofString "decimal" then do
        let text ← requireText "decimal" value
        let number ← readText (.other "decimal.InvalidOperation") (H.decimalOfStr text)
        if number.isFinite = true then .ok (.decimal number)
        else .error (.valueError "non-finite decimals are not transportable")
      else if t = PyText.ofString "datetime" then do
        let text ← requireText "datetime" value
        return .datetime (← readText (.valueError "Invalid isoformat string")
          (H.datetimeFromisoformat text))
      else if t = PyText.ofString "date" then do
        let text ← requireText "date" value
        return .date (← readText (.valueError "Invalid isoformat string")
          (H.dateFromisoformat text))
      else if t = PyText.ofString "bytes" then do
        let text ← requireText "bytes" value
        let chars ← readText (.unicodeError "ordinal not in range(128)") text.asciiChars?
        return .bytes (← readText (.valueError "Incorrect padding") (Base64.urlsafeDecode chars))
      else if t = PyText.ofString "json" then .ok value
      else .error (.valueError "unsupported payload kind")
  | _ => .error (.valueError "unsupported payload kind")

/-- `PayloadCodec.decode` -/
def decode (payload : List UInt8) : Except Exn PyValue := do
  let data ← loadBytes H payload
  match data with
  | .dict members =>
      match members.length, textMember? "kind" members, textMember? "value" members with
      | 2, some kind, some value => decodeKind H kind value
      | _, _, _ => .error (.valueError "payload must contain exactly kind and value")
  | _ => .error (.valueError "payload must contain exactly kind and value")

end PayloadCodec

end Polymorph
