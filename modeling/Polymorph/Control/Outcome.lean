/-!
# Programs that leave early

A program that returns a value or is left with an exit, and the rules of its two postconditions: one
for the exit and one for the value.
-/

set_option autoImplicit false

/-- Every exit of the program satisfies `left`, and every value `returned`. -/
def Outcome {ε α : Type} (left : ε → Prop) (returned : α → Prop) : Except ε α → Prop
  | .error e => left e
  | .ok a => returned a

namespace Outcome

variable {ε α β : Type} {left : ε → Prop} {returned : α → Prop}

theorem of_ok {x : Except ε α} {a : α} (h : Outcome left returned x) (hx : x = .ok a) :
    returned a := by
  subst hx
  exact h

theorem of_error {x : Except ε α} {e : ε} (h : Outcome left returned x) (hx : x = .error e) :
    left e := by
  subst hx
  exact h

theorem mono {weaker : α → Prop} {x : Except ε α} (h : Outcome left returned x)
    (hweaker : ∀ a, returned a → weaker a) : Outcome left weaker x := by
  cases x with
  | error e => exact h
  | ok a => exact hweaker a h

/-- The rule of composition. -/
theorem bind {later : β → Prop} {x : Except ε α} {f : α → Except ε β}
    (h : Outcome left returned x) (hf : ∀ a, returned a → Outcome left later (f a)) :
    Outcome left later (x >>= f) := by
  cases x with
  | error e => exact h
  | ok a => exact hf a h

/-- The rule of a check that leaves the program. -/
theorem guard {c : Prop} [Decidable c] {e : ε} {f : β → Except ε α} {x : Except ε α}
    (he : c → left e) (hx : ¬c → Outcome left returned x) :
    Outcome left returned (if c then (throw e : Except ε β) >>= f else x) := by
  split
  · exact he ‹_›
  · exact hx ‹_›

theorem ite {c : Prop} [Decidable c] {x y : Except ε α} (hx : c → Outcome left returned x)
    (hy : ¬c → Outcome left returned y) : Outcome left returned (if c then x else y) := by
  split
  · exact hx ‹_›
  · exact hy ‹_›

end Outcome
