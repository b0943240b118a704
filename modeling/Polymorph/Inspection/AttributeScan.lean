import Polymorph.Control.Loop
import Polymorph.Text.XmlGrammar

/-!
# The scan of XML start tags

`_xml_attribute_limit_exceeded` counts the assignment signs of every start tag before a parser
allocates the attributes. A turn of its loop goes from one markup to the text after it; the state is
the text from `index` on. The turns always come to an end, and on a document the scan decides
whether a tag has too many attributes.
-/

set_option autoImplicit false

namespace Polymorph

namespace ContentInspector

open Loop

/-- The text behind the first occurrence of a pattern, which `text.find` gives the offset of. -/
def afterFirst (pattern : List Char) : List Char → Option (List Char)
  | [] => if pattern = [] then some [] else none
  | c :: rest =>
      if pattern.isPrefixOf (c :: rest) then some ((c :: rest).drop pattern.length)
      else afterFirst pattern rest

/-- A markup that ends at the first occurrence of a mark. -/
def skipMarkup (closing rest : List Char) : Turn Bool (List Char) :=
  match afterFirst closing rest with
  | none => .leave false
  | some after => .again after

/-- The loop over the characters of a start tag. -/
def startTag (maxAttributes : Nat) : Nat → Option Char → List Char → Turn Bool (List Char)
  | _, _, [] => .leave false
  | attributes, some quote, c :: rest =>
      startTag maxAttributes attributes (if c = quote then none else some quote) rest
  | attributes, none, c :: rest =>
      if c = '\'' ∨ c = '"' then startTag maxAttributes attributes (some c) rest
      else if c = '=' then
        if maxAttributes < attributes + 1 then .leave true
        else startTag maxAttributes (attributes + 1) none rest
      else if c = '>' then .again rest
      else if c = '<' then .again (c :: rest)
      else startTag maxAttributes attributes none rest

/-- A turn at the text behind a `<`. -/
def markup (maxAttributes : Nat) (rest : List Char) : Turn Bool (List Char) :=
  if rest = [] then .leave false
  else if ['!', '-', '-'].isPrefixOf rest then skipMarkup ['-', '-', '>'] (rest.drop 3)
  else if ['!', '[', 'C', 'D', 'A', 'T', 'A', '['].isPrefixOf rest then
    skipMarkup [']', ']', '>'] (rest.drop 8)
  else if ['?'].isPrefixOf rest then skipMarkup ['?', '>'] (rest.drop 1)
  else if rest.head? = some '/' ∨ rest.head? = some '!' then skipMarkup ['>'] (rest.drop 1)
  else startTag maxAttributes 0 none (rest.drop 1)

/-- A turn of the loop. -/
def xmlTurn (maxAttributes : Nat) (text : List Char) : Turn Bool (List Char) :=
  match afterFirst ['<'] text with
  | none => .leave false
  | some rest => markup maxAttributes rest

/-- `_xml_attribute_limit_exceeded`, with a bound on the turns of its loop. -/
def xmlAttributeLimitExceeded (turns : Nat) (text : String) (maxAttributes : Nat) : Option Bool :=
  run (xmlTurn maxAttributes) turns text.toList

/-! ## Progress -/

theorem length_afterFirst_le {pattern text after : List Char}
    (h : afterFirst pattern text = some after) : after.length ≤ text.length := by
  induction text with
  | nil =>
      rw [afterFirst] at h
      split at h
      · cases h
        exact Nat.le_refl 0
      · exact nomatch h
  | cons c rest ih =>
      rw [afterFirst] at h
      split at h
      · cases h
        exact List.length_drop ▸ Nat.sub_le ..
      · exact Nat.le_succ_of_le (ih h)

theorem length_afterFirst_lt {pattern text after : List Char} (hpattern : pattern ≠ [])
    (h : afterFirst pattern text = some after) : after.length < text.length := by
  cases text with
  | nil =>
      rw [afterFirst, if_neg hpattern] at h
      exact nomatch h
  | cons c rest =>
      rw [afterFirst] at h
      split at h
      · cases h
        have hpos := List.length_pos_iff.mpr hpattern
        rw [List.length_drop, List.length_cons]
        omega
      · exact Nat.lt_succ_of_le (length_afterFirst_le h)

theorem length_skipMarkup_le {closing rest after : List Char}
    (h : skipMarkup closing rest = .again after) : after.length ≤ rest.length := by
  rw [skipMarkup] at h
  cases hfind : afterFirst closing rest with
  | none =>
      rw [hfind] at h
      exact nomatch h
  | some found =>
      rw [hfind] at h
      cases h
      exact length_afterFirst_le hfind

theorem length_startTag_le {maxAttributes attributes : Nat} {quote : Option Char}
    {rest after : List Char} (h : startTag maxAttributes attributes quote rest = .again after) :
    after.length ≤ rest.length := by
  induction rest generalizing attributes quote with
  | nil =>
      rw [startTag] at h
      exact nomatch h
  | cons c rest ih =>
      cases quote with
      | some quote =>
          rw [startTag] at h
          exact Nat.le_succ_of_le (ih h)
      | none =>
          rw [startTag] at h
          split at h
          · exact Nat.le_succ_of_le (ih h)
          · split at h
            · split at h
              · exact nomatch h
              · exact Nat.le_succ_of_le (ih h)
            · split at h
              · cases h
                exact Nat.le_succ _
              · split at h
                · cases h
                  exact Nat.le_refl _
                · exact Nat.le_succ_of_le (ih h)

theorem length_markup_le {maxAttributes : Nat} {rest after : List Char}
    (h : markup maxAttributes rest = .again after) : after.length ≤ rest.length := by
  have hdrop (n : Nat) : (rest.drop n).length ≤ rest.length :=
    List.length_drop ▸ Nat.sub_le ..
  rw [markup] at h
  split at h
  · exact nomatch h
  · split at h
    · exact Nat.le_trans (length_skipMarkup_le h) (hdrop 3)
    · split at h
      · exact Nat.le_trans (length_skipMarkup_le h) (hdrop 8)
      · split at h
        · exact Nat.le_trans (length_skipMarkup_le h) (hdrop 1)
        · split at h
          · exact Nat.le_trans (length_skipMarkup_le h) (hdrop 1)
          · exact Nat.le_trans (length_startTag_le h) (hdrop 1)

/-- Every turn leaves less of the text, also the one that starts again at a `<` inside a tag. -/
theorem length_xmlTurn_lt {maxAttributes : Nat} {text after : List Char}
    (h : xmlTurn maxAttributes text = .again after) : after.length < text.length := by
  rw [xmlTurn] at h
  cases hfind : afterFirst ['<'] text with
  | none =>
      rw [hfind] at h
      exact nomatch h
  | some rest =>
      rw [hfind] at h
      have hlt := length_afterFirst_lt (List.cons_ne_nil _ _) hfind
      exact Nat.lt_of_le_of_lt (length_markup_le h) hlt

/-- The scan of any text comes to an end. -/
theorem run_xmlTurn (maxAttributes : Nat) (text : List Char) :
    ∃ answer, run (xmlTurn maxAttributes) (text.length + 1) text = some answer :=
  run_of_measure (fun _ _ (_ : True) _ => trivial) (fun _ _ _ h => length_xmlTurn_lt h) trivial

end ContentInspector

end Polymorph
