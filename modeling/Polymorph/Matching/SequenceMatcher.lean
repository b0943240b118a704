import Mathlib.Data.List.Basic

/-!
# `difflib.SequenceMatcher`

The number of characters in the matching blocks of two texts, found by recursion on the longest
common block. Characters that are popular in a long second text start no block.
-/

set_option autoImplicit false

namespace Polymorph.SequenceMatcher

/-- A common block: its start in `a`, its start in `b`, and its size. -/
structure Block where
  a : Nat
  b : Nat
  size : Nat

/-- `b2j.get(c, nothing)`: where `c` occurs in `b`, unless it is popular there. -/
def occurrences (b : List Char) (c : Char) : List Nat :=
  if 200 ≤ b.length ∧ b.length / 100 + 1 < b.count c then []
  else (List.range b.length).filter fun j => b[j]? = some c

/-- `j2len.get(j, 0)` -/
def runLength (j2len : List (Nat × Nat)) (j : Nat) : Nat := (j2len.lookup j).getD 0

/-- One column of a row of `find_longest_match`; `j2len` is the row above. -/
def scanColumn (j2len : List (Nat × Nat)) (i : Nat) (state : List (Nat × Nat) × Block) (j : Nat) :
    List (Nat × Nat) × Block :=
  let k := (if j = 0 then 0 else runLength j2len (j - 1)) + 1
  let best := if state.2.size < k then ⟨i + 1 - k, j + 1 - k, k⟩ else state.2
  ((j, k) :: state.1, best)

/-- One row of `find_longest_match`. -/
def scanRow (a b : List Char) (blo bhi : Nat) (state : List (Nat × Nat) × Block) (i : Nat) :
    List (Nat × Nat) × Block :=
  let columns := ((a[i]?.map (occurrences b)).getD []).filter fun j => blo ≤ j ∧ j < bhi
  columns.foldl (scanColumn state.1 i) ([], state.2)

/-- Extension of a block to the left, by recursion on its start in `a`. -/
def extendLeft (a b : List Char) (alo blo : Nat) : Nat → Nat → Nat → Block
  | 0, j, size => ⟨0, j, size⟩
  | i + 1, j, size =>
      if alo < i + 1 ∧ blo < j ∧ a[i]? = b[j - 1]? then extendLeft a b alo blo i (j - 1) (size + 1)
      else ⟨i + 1, j, size⟩

/-- Extension of a block to the right by at most `room` characters. -/
def extendRight (a b : List Char) (bhi : Nat) : Nat → Block → Block
  | 0, block => block
  | room + 1, block =>
      if block.b + block.size < bhi ∧ a[block.a + block.size]? = b[block.b + block.size]? then
        extendRight a b bhi room { block with size := block.size + 1 }
      else block

/-- `find_longest_match` -/
def findLongestMatch (a b : List Char) (alo ahi blo bhi : Nat) : Block :=
  let best := ((List.range' alo (ahi - alo)).foldl (scanRow a b blo bhi) ([], ⟨alo, blo, 0⟩)).2
  let left := extendLeft a b alo blo best.a best.b best.size
  extendRight a b bhi (ahi - (left.a + left.size)) left

/-- Total size of the matching blocks of `a[alo:ahi]` and `b[blo:bhi]`. Each level of the recursion
removes a block from the range in `a`, so its length bounds the depth. -/
def matchedCharacters (a b : List Char) : Nat → Nat → Nat → Nat → Nat → Nat
  | 0, _, _, _, _ => 0
  | depth + 1, alo, ahi, blo, bhi =>
      let block := findLongestMatch a b alo ahi blo bhi
      if block.size = 0 then 0
      else
        block.size +
          (if alo < block.a ∧ blo < block.b then
            matchedCharacters a b depth alo block.a blo block.b else 0) +
          if block.a + block.size < ahi ∧ block.b + block.size < bhi then
            matchedCharacters a b depth (block.a + block.size) ahi (block.b + block.size) bhi
          else 0

/-- `sum(triple[-1] for triple in self.get_matching_blocks())` -/
def blockTotal (a b : List Char) : Nat := matchedCharacters a b a.length 0 a.length 0 b.length

example : blockTotal "abxcd".toList "abcd".toList = 4 := by decide

end Polymorph.SequenceMatcher
