import Mathlib.Data.List.Infix

/-!
# Searching a stream in chunks

A search that looks at one chunk after another together with the last symbols before it. It finds a
word if and only if some occurrence reaches no further back than the overlap from the last end of a
chunk inside it. The search equals the search of the whole stream for words that are short enough.
-/

set_option autoImplicit false

namespace ChunkedSearch

variable {α : Type}

/-- A word of the language occurs. -/
def Occurs (language : List α → Prop) (symbols : List α) : Prop :=
  ∃ before word after, symbols = before ++ (word ++ after) ∧ language word

/-- The last symbols, at most so many. -/
def lastOf (width : Nat) (symbols : List α) : List α := symbols.drop (symbols.length - width)

/-- The search in chunks. -/
def scan (found : List α → Bool) (width : Nat) : List α → List (List α) → Bool
  | _, [] => false
  | overlap, chunk :: rest =>
      if found (overlap ++ chunk) then true
      else scan found width (lastOf width (overlap ++ chunk)) rest

/-- Where the chunks end. -/
def ends (start : Nat) : List (List α) → List Nat
  | [] => []
  | chunk :: rest => (start + chunk.length) :: ends (start + chunk.length) rest

/-- An occurrence that no end of a chunk cuts off from its overlap. -/
def OccursUncut (language : List α → Prop) (width : Nat) (chunks : List (List α)) : Prop :=
  ∃ before word after, chunks.flatten = before ++ (word ++ after) ∧ language word ∧
    ∀ stop ∈ ends 0 chunks, stop < before.length + word.length → stop ≤ before.length + width

/-! ## Windows -/

theorem le_of_mem_ends {start stop : Nat} {chunks : List (List α)} (h : stop ∈ ends start chunks) :
    start ≤ stop := by
  induction chunks generalizing start with
  | nil => exact nomatch h
  | cons chunk rest ih =>
      rcases List.mem_cons.mp h with rfl | h
      · exact Nat.le_add_right _ _
      · exact Nat.le_trans (Nat.le_add_right _ _) (ih h)

theorem length_lastOf (width : Nat) (symbols : List α) :
    (lastOf width symbols).length = min symbols.length width := by
  rw [lastOf, List.length_drop]
  omega

theorem lastOf_suffix (width : Nat) (symbols : List α) : lastOf width symbols <:+ symbols :=
  List.drop_suffix _ _

/-- The overlap of a probe is the overlap of all that was seen. -/
theorem lastOf_append (width : Nat) (seen chunk : List α) :
    lastOf width (lastOf width seen ++ chunk) = lastOf width (seen ++ chunk) := by
  obtain ⟨front, hfront⟩ := lastOf_suffix width seen
  have hprobe : lastOf width seen ++ chunk <:+ seen ++ chunk :=
    ⟨front, by rw [← List.append_assoc, hfront]⟩
  have hleft := (lastOf_suffix width (lastOf width seen ++ chunk)).trans hprobe
  have hright := lastOf_suffix width (seen ++ chunk)
  have hlength : (lastOf width (lastOf width seen ++ chunk)).length =
      (lastOf width (seen ++ chunk)).length := by
    rw [length_lastOf, length_lastOf, List.length_append, List.length_append, length_lastOf]
    omega
  have hsuffix := List.suffix_of_suffix_length_le hleft hright (Nat.le_of_eq hlength)
  exact hsuffix.eq_of_length hlength

/-- A word inside what was seen that reaches no further back than the overlap lies in the
overlap. -/
theorem occurs_lastOf {language : List α → Prop} {width : Nat} {seen before word after : List α}
    (hseen : seen = before ++ (word ++ after)) (hword : language word)
    (hback : seen.length ≤ before.length + width) : Occurs language (lastOf width seen) := by
  refine ⟨before.drop (seen.length - width), word, after, ?_, hword⟩
  have hshort : seen.length - width ≤ before.length := by omega
  rw [lastOf, hseen, List.drop_append_of_le_length (hseen ▸ hshort)]

theorem Occurs.mono {language : List α → Prop} {part whole : List α} (h : Occurs language part)
    (hpart : part <:+: whole) : Occurs language whole := by
  obtain ⟨before, word, after, rfl, hword⟩ := h
  obtain ⟨left, right, rfl⟩ := hpart
  exact ⟨left ++ before, word, after ++ right, by simp only [List.append_assoc], hword⟩

section Scan

variable {language : List α → Prop} {found : List α → Bool} {width : Nat}
  (hfound : ∀ symbols, found symbols = true ↔ Occurs language symbols)
include hfound

/-- A probe holds a word: one that reaches back to the overlap and ends in the chunk. -/
theorem found_probe_iff {seen chunk : List α} (rest : List α) :
    found (lastOf width seen ++ chunk) = true ↔
      ∃ before word after, seen ++ (chunk ++ rest) = before ++ (word ++ after) ∧ language word ∧
        seen.length ≤ before.length + width ∧
        before.length + word.length ≤ seen.length + chunk.length := by
  have hlength := length_lastOf width seen
  obtain ⟨front, hfront⟩ := lastOf_suffix width seen
  have hsum := congrArg List.length hfront
  rw [List.length_append, hlength] at hsum
  rw [hfound]
  constructor
  · rintro ⟨before, word, after, hprobe, hword⟩
    have hend := congrArg List.length hprobe
    simp only [List.length_append, hlength] at hend
    refine ⟨front ++ before, word, after ++ rest, ?_, hword, ?_, ?_⟩
    · calc seen ++ (chunk ++ rest) = front ++ (lastOf width seen ++ chunk) ++ rest := by
            rw [← List.append_assoc front, hfront, List.append_assoc]
        _ = front ++ before ++ (word ++ (after ++ rest)) := by
            rw [hprobe]
            simp only [List.append_assoc]
    · rw [List.length_append]
      omega
    · rw [List.length_append]
      omega
  · rintro ⟨before, word, after, hall, hword, hback, hend⟩
    have hstart : front.length ≤ before.length := by omega
    -- cut the whole at the end of the chunk and at the start of the overlap
    have hcut := congrArg (fun l => (l.take (seen.length + chunk.length)).drop front.length) hall
    rw [← List.append_assoc, List.take_append_of_le_length (by rw [List.length_append]),
      List.take_of_length_le (by rw [List.length_append]), ← hfront, List.append_assoc,
      List.drop_left] at hcut
    rw [hcut]
    refine ⟨before.drop front.length, word,
      after.take (seen.length + chunk.length - before.length - word.length), ?_, hword⟩
    have hle : before.length ≤ seen.length + chunk.length := by omega
    rw [hfront, List.take_append, List.take_of_length_le hle,
      List.drop_append_of_le_length hstart, List.take_append,
      List.take_of_length_le (by omega : word.length ≤ _)]

/-- The scan of the rest of a stream, when there is no word in the overlap. -/
theorem scan_iff_of_seen (chunks : List (List α)) {seen : List α}
    (hseen : found (lastOf width seen) = false) :
    scan found width (lastOf width seen) chunks = true ↔
      ∃ before word after, seen ++ chunks.flatten = before ++ (word ++ after) ∧ language word ∧
        seen.length ≤ before.length + width ∧
        ∀ stop ∈ ends seen.length chunks,
          stop < before.length + word.length → stop ≤ before.length + width := by
  induction chunks generalizing seen with
  | nil =>
      refine iff_of_false (fun h => nomatch h) ?_
      rintro ⟨before, word, after, hall, hword, hback, -⟩
      rw [List.flatten_nil, List.append_nil] at hall
      have hoccurs := (hfound _).mpr (occurs_lastOf hall hword hback)
      rw [hseen] at hoccurs
      exact nomatch hoccurs
  | cons chunk rest ih =>
      rw [scan, List.flatten_cons]
      have hprobe := @found_probe_iff α language found width hfound seen chunk rest.flatten
      split
      · rename_i hhere
        refine iff_of_true rfl ?_
        obtain ⟨before, word, after, hall, hword, hback, hend⟩ := hprobe.mp hhere
        refine ⟨before, word, after, hall, hword, hback, ?_⟩
        intro stop hstop hinside
        rcases List.mem_cons.mp hstop with rfl | hstop
        · omega
        · have hlater := le_of_mem_ends hstop
          omega
      · rename_i hhere
        have hnext : found (lastOf width (seen ++ chunk)) = false := by
          rw [Bool.eq_false_iff]
          intro hword
          rw [← lastOf_append] at hword
          exact hhere ((hfound _).mpr (((hfound _).mp hword).mono (lastOf_suffix _ _).isInfix))
        rw [lastOf_append, ih hnext, List.append_assoc, List.length_append]
        constructor
        · rintro ⟨before, word, after, hall, hword, hback, hstops⟩
          refine ⟨before, word, after, hall, hword, by omega, ?_⟩
          intro stop hstop hinside
          rcases List.mem_cons.mp hstop with rfl | hstop
          · exact hback
          · exact hstops stop hstop hinside
        · rintro ⟨before, word, after, hall, hword, hback, hstops⟩
          refine ⟨before, word, after, hall, hword, ?_, fun stop hstop hinside =>
            hstops stop (List.mem_cons_of_mem _ hstop) hinside⟩
          by_cases hinside : seen.length + chunk.length < before.length + word.length
          · exact hstops _ List.mem_cons_self hinside
          · exact absurd (hprobe.mpr ⟨before, word, after, hall, hword, hback,
              Nat.not_lt.mp hinside⟩) hhere

/-- What the search in chunks finds. -/
theorem scan_iff (hempty : found [] = false) (chunks : List (List α)) :
    scan found width [] chunks = true ↔ OccursUncut language width chunks := by
  have hscan := @scan_iff_of_seen α language found width hfound chunks [] (by
    rw [lastOf, List.drop_nil]
    exact hempty)
  rw [lastOf, List.drop_nil] at hscan
  rw [hscan, OccursUncut]
  simp only [List.nil_append, List.length_nil, Nat.zero_le, true_and]

end Scan

/-- Words that are at most one symbol longer than the overlap are never cut. -/
theorem OccursUncut.of_short {language : List α → Prop} {width : Nat} {chunks : List (List α)}
    (h : ∃ before word after, chunks.flatten = before ++ (word ++ after) ∧ language word ∧
      word.length ≤ width + 1) : OccursUncut language width chunks := by
  obtain ⟨before, word, after, hall, hword, hshort⟩ := h
  exact ⟨before, word, after, hall, hword, fun stop _ hinside => by omega⟩

end ChunkedSearch
