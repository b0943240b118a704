import Polymorph.Inspection.LimitScan
import Polymorph.Model.Values
import Mathlib.Data.List.DropRight

/-!
# White space at the ends of a text

`str.strip` takes the white space off both ends of a text and leaves the rest as it is.
-/

set_option autoImplicit false

namespace Polymorph

/-- `char.isspace()`; a lone surrogate is no white space. -/
def PyChar.isSpace : PyChar → Bool
  | .scalar c => isPySpace c
  | .surrogate _ => false

namespace PyText

/-- `text.strip()` -/
def strip (text : PyText) : PyText := (text.dropWhile PyChar.isSpace).rdropWhile PyChar.isSpace

/-- A text that is nothing but white space is stripped to the empty text, and only such a text. -/
theorem strip_eq_nil_iff {text : PyText} :
    text.strip = [] ↔ ∀ c ∈ text, c.isSpace = true := by
  rw [strip, List.rdropWhile_eq_nil_iff]
  constructor
  · intro h c hc
    rw [← List.takeWhile_append_dropWhile (p := PyChar.isSpace) (l := text)] at hc
    cases List.mem_append.mp hc with
    | inl hbefore => exact List.mem_takeWhile_imp hbefore
    | inr hafter => exact h c hafter
  · intro h c hc
    exact h c ((List.dropWhile_sublist _).subset hc)

@[simp] theorem strip_nil : strip [] = [] := rfl

/-- What is left of a text starts with no white space. -/
theorem strip_head {text rest : PyText} {c : PyChar} (h : text.strip = c :: rest) :
    c.isSpace = false := by
  have hprefix : text.strip <+: text.dropWhile PyChar.isSpace := List.rdropWhile_prefix _ _
  rw [h] at hprefix
  obtain ⟨after, hafter⟩ := hprefix
  have hfirst := List.head?_dropWhile_not PyChar.isSpace text
  rw [← hafter] at hfirst
  exact hfirst

/-- Stripping a text twice is stripping it once. -/
theorem strip_strip (text : PyText) : text.strip.strip = text.strip := by
  have hstart : text.strip.dropWhile PyChar.isSpace = text.strip := by
    cases hstrip : text.strip with
    | nil => rfl
    | cons c rest => rw [List.dropWhile_cons, strip_head hstrip, if_neg Bool.false_ne_true]
  calc text.strip.strip
      = (text.strip.dropWhile PyChar.isSpace).rdropWhile PyChar.isSpace := rfl
    _ = text.strip.rdropWhile PyChar.isSpace := by rw [hstart]
    _ = text.strip := List.rdropWhile_idempotent PyChar.isSpace _

end PyText

end Polymorph
