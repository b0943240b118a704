import Mathlib.Data.List.Forall2

/-!
# Files of lines

Reading a file line by line with a bound on the length of a line. What is read back from lines
that were written one behind the other is what each of them says.
-/

set_option autoImplicit false

namespace Bytes

/-- `handle.readline(limit)` with what it leaves: the bytes up to and with the next line feed, at
most so many. -/
def readline : Nat → List UInt8 → List UInt8 × List UInt8
  | 0, bytes => ([], bytes)
  | _ + 1, [] => ([], [])
  | limit + 1, b :: bytes =>
      if b = 10 then ([b], bytes)
      else (b :: (readline limit bytes).1, (readline limit bytes).2)

/-- A line of at most so many bytes, with its line feed. -/
def IsLine (limit : Nat) (line : List UInt8) : Prop :=
  ∃ body, line = body ++ [10] ∧ 10 ∉ body ∧ line.length ≤ limit

theorem readline_line {limit : Nat} {line : List UInt8} (h : IsLine limit line)
    (rest : List UInt8) : readline limit (line ++ rest) = (line, rest) := by
  obtain ⟨body, rfl, hbody, hlength⟩ := h
  induction body generalizing limit with
  | nil =>
      cases limit with
      | zero => cases hlength
      | succ limit => simp [readline]
  | cons b body ih =>
      rw [List.mem_cons, not_or] at hbody
      cases limit with
      | zero => cases hlength
      | succ limit =>
          have hrest := ih hbody.2 (Nat.le_of_succ_le_succ hlength)
          simp only [List.cons_append, readline, if_neg (Ne.symm hbody.1), hrest]

theorem length_readline_rest (limit : Nat) (bytes : List UInt8) :
    (readline limit bytes).2.length ≤ bytes.length := by
  induction bytes generalizing limit with
  | nil => cases limit <;> exact Nat.le_refl 0
  | cons b bytes ih =>
      cases limit with
      | zero => exact Nat.le_refl _
      | succ limit =>
          rw [readline]
          split
          · exact Nat.le_succ _
          · exact Nat.le_succ_of_le (ih limit)

theorem length_readline_rest_lt (limit : Nat) (b : UInt8) (bytes : List UInt8) :
    (readline (limit + 1) (b :: bytes)).2.length < (b :: bytes).length := by
  rw [readline]
  split
  · exact Nat.lt_succ_self _
  · exact Nat.lt_succ_of_le (length_readline_rest limit bytes)

section Lines

variable {ε α : Type} (limit : Nat) (read : Nat → List UInt8 → Except ε α)

/-- What each line says, with its number; reading stops at the first line that is refused. -/
def forLines (number : Nat) : List UInt8 → Except ε (List α)
  | [] => .ok []
  | b :: bytes =>
      match read number (readline (limit + 1) (b :: bytes)).1 with
      | .error e => .error e
      | .ok x =>
          match forLines (number + 1) (readline (limit + 1) (b :: bytes)).2 with
          | .error e => .error e
          | .ok xs => .ok (x :: xs)
termination_by bytes => bytes.length
decreasing_by exact length_readline_rest_lt limit b bytes

/-- Lines written one behind the other are read back. -/
theorem forLines_flatten {lines : List (List UInt8)} {xs : List α}
    (h : List.Forall₂ (fun line x => IsLine limit line ∧ ∀ number, read number line = .ok x) lines xs)
    (number : Nat) : forLines limit read number lines.flatten = .ok xs := by
  induction h generalizing number with
  | nil => rw [List.flatten_nil, forLines]
  | @cons line x lines xs hline _ ih =>
      obtain ⟨⟨body, hbody, hfeed, hlength⟩, hread⟩ := hline
      have hreadline : readline (limit + 1) (line ++ lines.flatten) = (line, lines.flatten) :=
        readline_line ⟨body, hbody, hfeed, Nat.le_succ_of_le hlength⟩ _
      obtain ⟨b, bytes, hcons⟩ : ∃ b bytes, line ++ lines.flatten = b :: bytes :=
        List.exists_cons_of_ne_nil (by simp [hbody])
      rw [List.flatten_cons, hcons, forLines, ← hcons, hreadline]
      simp only [hread, ih]

end Lines

end Bytes
