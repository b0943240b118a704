import Polymorph.Text.Json

/-!
# The grammar of JSON

Strict JSON as relations between a text and what is left of it. A value has a shape: a
leaf, or a node with one child for each item or member. The nesting of a shape and the number of
its items are what a reader that limits them compares.
-/

set_option autoImplicit false

namespace JsonText

/-- The containers of a value. -/
inductive Shape where
  | leaf
  | node (children : List Shape)

namespace Shape

mutual

/-- How deep the containers are nested. -/
def nesting : Shape → Nat
  | .leaf => 0
  | .node children => nestingAll children + 1

def nestingAll : List Shape → Nat
  | [] => 0
  | t :: ts => max (nesting t) (nestingAll ts)

end

mutual

/-- The items and members of all containers. -/
def itemCount : Shape → Nat
  | .leaf => 0
  | .node children => itemCountAll children

def itemCountAll : List Shape → Nat
  | [] => 0
  | t :: ts => 1 + itemCount t + itemCountAll ts

end

end Shape

namespace Grammar

/-- White space. -/
inductive Blank : List Char → List Char → Prop
  | nil {cs : List Char} : Blank cs cs
  | cons {c : Char} {cs rest : List Char} (space : isWs c = true) (more : Blank cs rest) :
      Blank (c :: cs) rest

/-- One or more digits. -/
def Digits (ds : List Char) : Prop := ds ≠ [] ∧ ∀ d ∈ ds, isDigit d = true

/-- The integer part of a number: no leading zero. -/
def IntegerPart (cs : List Char) : Prop :=
  cs = ['0'] ∨ Digits cs ∧ cs.head? ≠ some '0'

/-- The fraction of a number. -/
def Fraction (cs : List Char) : Prop := cs = [] ∨ ∃ ds, cs = '.' :: ds ∧ Digits ds

/-- The exponent of a number. -/
def Exponent (cs : List Char) : Prop :=
  cs = [] ∨ ∃ mark sign ds, cs = mark :: (sign ++ ds) ∧ (mark = 'e' ∨ mark = 'E') ∧
    (sign = [] ∨ sign = ['+'] ∨ sign = ['-']) ∧ Digits ds

/-- A number. -/
def Number (cs : List Char) : Prop :=
  ∃ sign integer fraction exponent, cs = sign ++ integer ++ fraction ++ exponent ∧
    (sign = [] ∨ sign = ['-']) ∧ IntegerPart integer ∧ Fraction fraction ∧ Exponent exponent

/-- A name or a number. -/
def Literal (cs : List Char) : Prop :=
  cs = ['n', 'u', 'l', 'l'] ∨ cs = ['t', 'r', 'u', 'e'] ∨ cs = ['f', 'a', 'l', 's', 'e'] ∨ Number cs

/-- The characters of a string and its closing quote. -/
inductive StringBody : List Char → List Char → Prop
  | close {rest : List Char} : StringBody ('"' :: rest) rest
  | plain {c : Char} {cs rest : List Char} (printable : 32 ≤ c.toNat) (quote : c ≠ '"')
      (backslash : c ≠ '\\') (more : StringBody cs rest) : StringBody (c :: cs) rest
  | escape {e : Char} {cs rest : List Char}
      (known : e ∈ ['"', '\\', '/', 'b', 'f', 'n', 'r', 't']) (more : StringBody cs rest) :
      StringBody ('\\' :: e :: cs) rest
  | unicode {a b c d : Char} {n : Nat} {cs rest : List Char} (digits : hex4 a b c d = some n)
      (more : StringBody cs rest) : StringBody ('\\' :: 'u' :: a :: b :: c :: d :: cs) rest

mutual

/-- A value. -/
inductive Value : List Char → Shape → List Char → Prop
  | literal {cs rest : List Char} (lexeme : Literal cs) : Value (cs ++ rest) .leaf rest
  | string {cs rest : List Char} (body : StringBody cs rest) : Value ('"' :: cs) .leaf rest
  | emptyArray {cs rest : List Char} (blank : Blank cs (']' :: rest)) :
      Value ('[' :: cs) (.node []) rest
  | array {cs rest : List Char} {ts : List Shape} (items : Items cs ts (']' :: rest)) :
      Value ('[' :: cs) (.node ts) rest
  | emptyObject {cs rest : List Char} (blank : Blank cs ('}' :: rest)) :
      Value ('{' :: cs) (.node []) rest
  | object {cs rest : List Char} {ts : List Shape} (members : Members cs ts ('}' :: rest)) :
      Value ('{' :: cs) (.node ts) rest

/-- The items of an array. -/
inductive Items : List Char → List Shape → List Char → Prop
  | last {cs cs₁ cs₂ rest : List Char} {t : Shape} (before : Blank cs cs₁) (value : Value cs₁ t cs₂)
      (after : Blank cs₂ rest) : Items cs [t] rest
  | cons {cs cs₁ cs₂ cs₃ rest : List Char} {t : Shape} {ts : List Shape} (before : Blank cs cs₁)
      (value : Value cs₁ t cs₂) (after : Blank cs₂ (',' :: cs₃)) (more : Items cs₃ ts rest) :
      Items cs (t :: ts) rest

/-- The members of an object. -/
inductive Members : List Char → List Shape → List Char → Prop
  | last {cs cs₁ cs₂ cs₃ cs₄ cs₅ rest : List Char} {t : Shape} (before : Blank cs ('"' :: cs₁))
      (key : StringBody cs₁ cs₂) (colon : Blank cs₂ (':' :: cs₃)) (space : Blank cs₃ cs₄)
      (value : Value cs₄ t cs₅) (after : Blank cs₅ rest) : Members cs [t] rest
  | cons {cs cs₁ cs₂ cs₃ cs₄ cs₅ cs₆ rest : List Char} {t : Shape} {ts : List Shape}
      (before : Blank cs ('"' :: cs₁)) (key : StringBody cs₁ cs₂) (colon : Blank cs₂ (':' :: cs₃))
      (space : Blank cs₃ cs₄) (value : Value cs₄ t cs₅) (after : Blank cs₅ (',' :: cs₆))
      (more : Members cs₆ ts rest) : Members cs (t :: ts) rest

end

/-- A text with one value in it. -/
def Document (text : String) (t : Shape) : Prop :=
  ∃ cs rest, Blank text.toList cs ∧ Value cs t rest ∧ Blank rest []

end Grammar

end JsonText
