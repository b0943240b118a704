import Polymorph.Text.JsonGrammar

/-!
# The scan of JSON-like text

`_json_like_limits_exceeded` bounds the nesting and the items of JSON and JSON5 text before a parse
tree is built. It goes over the text once and keeps a flag for every open container: whether an
item has begun since the last comma.
-/

set_option autoImplicit false

namespace Polymorph

/-- `char.isspace()` -/
def isPySpace (c : Char) : Bool :=
  let n := c.toNat
  (9 ≤ n && n ≤ 13) || (28 ≤ n && n ≤ 32) || n = 0x85 || n = 0xa0 || n = 0x1680 ||
    (0x2000 ≤ n && n ≤ 0x200a) || n = 0x2028 || n = 0x2029 || n = 0x202f || n = 0x205f ||
    n = 0x3000

namespace ContentInspector

/-- The variables of the loop; the innermost container comes first in `currentItem`, and `skip`
says that the character was taken together with the one before it. -/
structure LimitScan where
  depth : Nat := 0
  rootStarted : Bool := false
  itemCount : Nat := 0
  currentItem : List Bool := []
  quote : Option Char := none
  escaped : Bool := false
  lineComment : Bool := false
  blockComment : Bool := false
  skip : Bool := false

/-- `current_item[-1] = True`, if there is an open container. -/
def markItem : List Bool → List Bool
  | [] => []
  | _ :: outer => true :: outer

/-- Count an item that has begun. -/
def countItem (maxItems : Nat) (begun : Bool) (s : LimitScan) : Except (Bool × Bool) LimitScan :=
  if begun then
    if maxItems < s.itemCount + 1 then .error (false, true)
    else .ok { s with itemCount := s.itemCount + 1 }
  else .ok s

/-- A character outside strings and comments, after the root has started. -/
def scanStructure (maxDepth maxItems : Nat) (char : Char) (s : LimitScan) :
    Except (Bool × Bool) LimitScan :=
  if char = '[' ∨ char = '{' then
    if maxDepth < s.depth + 1 then .error (true, false)
    else .ok { s with depth := s.depth + 1, currentItem := false :: markItem s.currentItem }
  else
    match s.currentItem with
    | [] => .ok s
    | begun :: outer =>
        if char = ',' then do
          let s ← countItem maxItems begun s
          return { s with currentItem := false :: outer }
        else if (char = ']' ∨ char = '}') ∧ s.depth ≠ 0 then do
          let s ← countItem maxItems begun s
          return { s with currentItem := outer, depth := s.depth - 1 }
        else if !isPySpace char then .ok { s with currentItem := true :: outer }
        else .ok s

/-- One turn of the loop; an error is a value that the function returns at once. -/
def scanChar (maxDepth maxItems : Nat) (char : Char) (following : Option Char) (s : LimitScan) :
    Except (Bool × Bool) LimitScan :=
  if s.skip then .ok { s with skip := false }
  else if s.lineComment then
    if char ∈ ['\r', '\n', '\u2028', '\u2029'] then .ok { s with lineComment := false } else .ok s
  else if s.blockComment then
    if char = '*' ∧ following = some '/' then .ok { s with blockComment := false, skip := true }
    else .ok s
  else
    match s.quote with
    | some quote =>
        if s.escaped then .ok { s with escaped := false }
        else if char = '\\' then .ok { s with escaped := true }
        else if char = quote then .ok { s with quote := none }
        else .ok s
    | none =>
        if char = '/' ∧ following = some '/' then .ok { s with lineComment := true, skip := true }
        else if char = '/' ∧ following = some '*' then
          .ok { s with blockComment := true, skip := true }
        else if char = '\'' ∨ char = '"' then
          if !s.rootStarted then .error (false, false)
          else .ok { s with currentItem := markItem s.currentItem, quote := some char }
        else if !s.rootStarted then
          if isPySpace char ∨ char = '\ufeff' then .ok s
          else if char = '[' ∨ char = '{' then
            scanStructure maxDepth maxItems char { s with rootStarted := true }
          else .error (false, false)
        else scanStructure maxDepth maxItems char s

/-- The loop. -/
def scanText (maxDepth maxItems : Nat) : List Char → LimitScan → Bool × Bool
  | [], _ => (false, false)
  | char :: rest, s =>
      match scanChar maxDepth maxItems char rest.head? s with
      | .error exceeded => exceeded
      | .ok s => scanText maxDepth maxItems rest s

/-- `_json_like_limits_exceeded` -/
def jsonLikeLimitsExceeded (text : String) (maxDepth maxItems : Nat) : Bool × Bool :=
  scanText maxDepth maxItems text.toList {}

end ContentInspector

end Polymorph
