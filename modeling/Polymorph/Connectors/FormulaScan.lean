import Polymorph.Binary.ChunkedSearch

/-!
# Formulas in a worksheet

`ExcelConnector._has_formulas` searches the XML of a worksheet for formula tags, in chunks with an
overlap of eight bytes. The tag may have a namespace prefix of any length, so that a tag with a long
prefix can be cut.
-/

set_option autoImplicit false

namespace Polymorph

namespace ExcelConnector

open ChunkedSearch

/-- `[A-Za-z_]` -/
def isPrefixStart (b : UInt8) : Bool :=
  (0x41 ≤ b && b ≤ 0x5a) || (0x61 ≤ b && b ≤ 0x7a) || b = 0x5f

/-- `[A-Za-z0-9_.-]` -/
def isPrefixByte (b : UInt8) : Bool :=
  isPrefixStart b || (0x30 ≤ b && b ≤ 0x39) || b = 0x2e || b = 0x2d

/-- `(?:\s|>)` -/
def isTagEnd (b : UInt8) : Bool := (9 ≤ b && b ≤ 13) || b = 0x20 || b = 0x3e

/-- `f(?:\s|>)` at the start. -/
def matchName : List UInt8 → Bool
  | b :: c :: _ => b = 0x66 && isTagEnd c
  | _ => false

/-- `[A-Za-z0-9_.-]*:f(?:\s|>)` at the start. -/
def matchPrefix : List UInt8 → Bool
  | [] => false
  | b :: rest => if isPrefixByte b then matchPrefix rest else b = 0x3a && matchName rest

/-- `_FORMULA_TAG` at the start. -/
def matchFormulaTag : List UInt8 → Bool
  | b :: c :: rest =>
      b = 0x3c && (matchName (c :: rest) || (isPrefixStart c && matchPrefix rest))
  | _ => false

/-- `_FORMULA_TAG.search` -/
def searchFormulaTag : List UInt8 → Bool
  | [] => false
  | b :: rest => matchFormulaTag (b :: rest) || searchFormulaTag rest

/-- The loop over `stream.read`; no bytes are read at the end, and a read that raises counts as
formulas. -/
def formulaLoop : List UInt8 → List (Option (List UInt8)) → Bool
  | _, [] => false
  | _, none :: _ => true
  | overlap, some chunk :: reads =>
      if chunk = [] then false
      else
        let probe := overlap ++ chunk
        if searchFormulaTag probe then true
        else formulaLoop (probe.drop (probe.length - 8)) reads

/-- `_has_formulas`, from the path of the worksheet's member and the reads of its stream, if the
archive could be opened. -/
def hasFormulas (member : Option String) (reads : Option (List (Option (List UInt8)))) : Bool :=
  match member with
  | none => true
  | some path =>
      if path = "" then true
      else
        match reads with
        | none => true
        | some reads => formulaLoop [] reads

/-! ## The pattern -/

/-- The texts that `_FORMULA_TAG` matches. -/
inductive FormulaTag : List UInt8 → Prop
  | plain {stop : UInt8} (hstop : isTagEnd stop = true) : FormulaTag [0x3c, 0x66, stop]
  | prefixed {first stop : UInt8} {others : List UInt8} (hfirst : isPrefixStart first = true)
      (hothers : ∀ b ∈ others, isPrefixByte b = true) (hstop : isTagEnd stop = true) :
      FormulaTag (0x3c :: first :: (others ++ [0x3a, 0x66, stop]))

theorem matchName_iff (bytes : List UInt8) :
    matchName bytes = true ↔ ∃ stop after, bytes = 0x66 :: stop :: after ∧ isTagEnd stop = true := by
  constructor
  · intro h
    match bytes, h with
    | b :: c :: rest, h =>
        rw [matchName, Bool.and_eq_true, decide_eq_true_eq] at h
        exact ⟨c, rest, by rw [h.1], h.2⟩
  · rintro ⟨stop, after, rfl, hstop⟩
    rw [matchName, hstop]
    rfl

theorem matchPrefix_iff (bytes : List UInt8) :
    matchPrefix bytes = true ↔ ∃ others stop after,
      bytes = others ++ 0x3a :: 0x66 :: stop :: after ∧
        (∀ b ∈ others, isPrefixByte b = true) ∧ isTagEnd stop = true := by
  induction bytes with
  | nil =>
      refine iff_of_false (fun h => nomatch h) ?_
      rintro ⟨others, stop, after, hbytes, -⟩
      exact absurd hbytes.symm (List.append_ne_nil_of_right_ne_nil _ (List.cons_ne_nil _ _))
  | cons b rest ih =>
      rw [matchPrefix]
      split
      · rename_i hb
        rw [ih]
        constructor
        · rintro ⟨others, stop, after, rfl, hothers, hstop⟩
          refine ⟨b :: others, stop, after, rfl, ?_, hstop⟩
          intro c hc
          rcases List.mem_cons.mp hc with rfl | hc
          · exact hb
          · exact hothers c hc
        · rintro ⟨others, stop, after, hbytes, hothers, hstop⟩
          cases others with
          | nil =>
              -- a colon is no byte of a prefix
              cases hbytes
              exact absurd hb (by decide)
          | cons c others =>
              cases hbytes
              exact ⟨others, stop, after, rfl, fun d hd => hothers d (List.mem_cons_of_mem _ hd),
                hstop⟩
      · rename_i hb
        rw [Bool.and_eq_true, decide_eq_true_eq, matchName_iff]
        constructor
        · rintro ⟨rfl, stop, after, rfl, hstop⟩
          exact ⟨[], stop, after, rfl, fun c hc => (nomatch hc), hstop⟩
        · rintro ⟨others, stop, after, hbytes, hothers, hstop⟩
          cases others with
          | nil =>
              cases hbytes
              exact ⟨rfl, stop, after, rfl, hstop⟩
          | cons c others =>
              cases hbytes
              exact absurd (hothers b List.mem_cons_self) hb

theorem matchFormulaTag_iff (bytes : List UInt8) :
    matchFormulaTag bytes = true ↔ ∃ tag after, bytes = tag ++ after ∧ FormulaTag tag := by
  constructor
  · intro h
    match bytes, h with
    | b :: c :: rest, h =>
        rw [matchFormulaTag, Bool.and_eq_true, decide_eq_true_eq, Bool.or_eq_true,
          Bool.and_eq_true] at h
        obtain ⟨rfl, hname | ⟨hfirst, hrest⟩⟩ := h
        · obtain ⟨stop, after, hbytes, hstop⟩ := (matchName_iff _).mp hname
          exact ⟨_, after, by rw [hbytes]; rfl, .plain hstop⟩
        · obtain ⟨others, stop, after, hbytes, hothers, hstop⟩ := (matchPrefix_iff _).mp hrest
          refine ⟨_, after, ?_, .prefixed hfirst hothers hstop⟩
          rw [hbytes]
          simp only [List.cons_append, List.append_assoc, List.nil_append]
  · rintro ⟨tag, after, rfl, htag⟩
    cases htag with
    | plain hstop =>
        have hname := (matchName_iff (0x66 :: _ :: after)).mpr ⟨_, after, rfl, hstop⟩
        simp only [List.cons_append, List.nil_append, matchFormulaTag, hname, Bool.true_or]
        rfl
    | @prefixed first stop others hfirst hothers hstop =>
        have hrest := (matchPrefix_iff (others ++ 0x3a :: 0x66 :: stop :: after)).mpr
          ⟨others, stop, after, rfl, hothers, hstop⟩
        simp only [List.cons_append, List.append_assoc, List.nil_append, matchFormulaTag, hrest,
          hfirst, Bool.and_true, Bool.or_true]
        rfl

theorem searchFormulaTag_iff (bytes : List UInt8) :
    searchFormulaTag bytes = true ↔ Occurs FormulaTag bytes := by
  induction bytes with
  | nil =>
      refine iff_of_false (fun h => nomatch h) ?_
      rintro ⟨before, tag, after, hbytes, htag⟩
      obtain ⟨-, hrest⟩ := List.append_eq_nil_iff.mp hbytes.symm
      obtain ⟨rfl, -⟩ := List.append_eq_nil_iff.mp hrest
      exact nomatch htag
  | cons b rest ih =>
      rw [searchFormulaTag, Bool.or_eq_true, matchFormulaTag_iff, ih]
      constructor
      · rintro (⟨tag, after, hbytes, htag⟩ | ⟨before, tag, after, rfl, htag⟩)
        · exact ⟨[], tag, after, hbytes, htag⟩
        · exact ⟨b :: before, tag, after, rfl, htag⟩
      · rintro ⟨before, tag, after, hbytes, htag⟩
        cases before with
        | nil => exact .inl ⟨tag, after, hbytes, htag⟩
        | cons c before =>
            cases hbytes
            exact .inr ⟨before, tag, after, rfl, htag⟩

/-! ## The chunks -/

theorem formulaLoop_eq_scan {chunks : List (List UInt8)} (hchunks : ∀ chunk ∈ chunks, chunk ≠ [])
    (overlap : List UInt8) :
    formulaLoop overlap (chunks.map some) = scan searchFormulaTag 8 overlap chunks := by
  induction chunks generalizing overlap with
  | nil => rfl
  | cons chunk rest ih =>
      rw [List.map_cons, formulaLoop, scan, if_neg (hchunks chunk List.mem_cons_self)]
      dsimp only
      split
      · rfl
      · exact ih (fun c hc => hchunks c (List.mem_cons_of_mem _ hc)) _

/-- The loop finds formulas exactly when the whole stream has a formula tag, if and only if there is
no tag or one of the tags begins at most eight bytes before the last end of a chunk inside it. -/
theorem formulaLoop_exact_iff {chunks : List (List UInt8)}
    (hchunks : ∀ chunk ∈ chunks, chunk ≠ [] ∧ chunk.length ≤ 64 * 1024) :
    (formulaLoop [] (chunks.map some) = true ↔ Occurs FormulaTag chunks.flatten) ↔
      (Occurs FormulaTag chunks.flatten →
        ∃ before tag after, chunks.flatten = before ++ (tag ++ after) ∧ FormulaTag tag ∧
          ∀ stop ∈ ends 0 chunks,
            stop < before.length + tag.length → stop ≤ before.length + 8) := by
  rw [formulaLoop_eq_scan fun chunk hchunk => (hchunks chunk hchunk).1,
    scan_iff searchFormulaTag_iff rfl]
  constructor
  · exact fun h hoccurs => h.mpr hoccurs
  · refine fun h => ⟨?_, h⟩
    rintro ⟨before, tag, after, hall, htag, -⟩
    exact ⟨before, tag, after, hall, htag⟩

/-- In particular there is nothing to find, or a tag of at most nine bytes. -/
theorem formulaLoop_exact_of_short {chunks : List (List UInt8)}
    (hchunks : ∀ chunk ∈ chunks, chunk ≠ [])
    (hshort : Occurs FormulaTag chunks.flatten →
      Occurs (fun tag => FormulaTag tag ∧ tag.length ≤ 9) chunks.flatten) :
    formulaLoop [] (chunks.map some) = true ↔ Occurs FormulaTag chunks.flatten := by
  rw [formulaLoop_eq_scan hchunks, scan_iff searchFormulaTag_iff rfl]
  constructor
  · rintro ⟨before, tag, after, hall, htag, -⟩
    exact ⟨before, tag, after, hall, htag⟩
  · intro hoccurs
    obtain ⟨before, tag, after, hall, htag, hlength⟩ := hshort hoccurs
    exact .of_short ⟨before, tag, after, hall, htag, hlength⟩

/-! ## A tag that a full read cuts -/

/-- `<spreadsheet:` -/
def tagStart : List UInt8 :=
  [0x3c, 0x73, 0x70, 0x72, 0x65, 0x61, 0x64, 0x73, 0x68, 0x65, 0x65, 0x74, 0x3a]

/-- A worksheet stream whose first read of 64 KiB ends inside a tag: spaces and the prefix of the
tag in one chunk, `f>` in the next. -/
def cutTag : List (List UInt8) :=
  [List.replicate (64 * 1024 - 13) 0x20 ++ tagStart, [0x66, 0x3e]]

theorem searchFormulaTag_spaces (n : Nat) (bytes : List UInt8) :
    searchFormulaTag (List.replicate n 0x20 ++ bytes) = searchFormulaTag bytes := by
  induction n with
  | zero => rfl
  | succ n ih =>
      rw [List.replicate_succ, List.cons_append, searchFormulaTag, ih]
      cases List.replicate n 0x20 ++ bytes with
      | nil => rfl
      | cons b rest => rfl

/-- Spaces before a first chunk that is long enough do not change what the second probe is. -/
theorem formulaLoop_spaces (n : Nat) {first second : List UInt8} (hfirst : 8 ≤ first.length)
    (hnone : searchFormulaTag first = false) :
    formulaLoop [] [some (List.replicate n 0x20 ++ first), some second] =
      formulaLoop (first.drop (first.length - 8)) [some second] := by
  have hne : List.replicate n 0x20 ++ first ≠ [] := by
    apply List.append_ne_nil_of_right_ne_nil
    rintro rfl
    exact absurd hfirst (by decide)
  have hprobe : searchFormulaTag ([] ++ (List.replicate n 0x20 ++ first)) = false := by
    rw [List.nil_append, searchFormulaTag_spaces, hnone]
  have hoverlap : ([] ++ (List.replicate n 0x20 ++ first)).drop
      (([] ++ (List.replicate n 0x20 ++ first)).length - 8) = first.drop (first.length - 8) := by
    have hsplit : n + first.length - 8 = n + (first.length - 8) := by omega
    rw [List.nil_append, List.length_append, List.length_replicate, hsplit, ← List.drop_drop]
    congr 1
    exact List.drop_left' List.length_replicate
  rw [formulaLoop, if_neg hne]
  dsimp only
  rw [hprobe, if_neg Bool.false_ne_true, hoverlap]

/-- The loop misses a formula tag. -/
theorem formulaLoop_cutTag :
    (∀ chunk ∈ cutTag, chunk ≠ [] ∧ chunk.length ≤ 64 * 1024) ∧
      formulaLoop [] (cutTag.map some) = false ∧ Occurs FormulaTag cutTag.flatten := by
  refine ⟨?_, ?_, ?_⟩
  · intro chunk hchunk
    rcases List.mem_cons.mp hchunk with rfl | hchunk
    · refine ⟨List.append_ne_nil_of_right_ne_nil _ (List.cons_ne_nil _ _), ?_⟩
      rw [List.length_append, List.length_replicate]
      decide
    · rw [List.mem_singleton.mp hchunk]
      exact ⟨List.cons_ne_nil _ _, by decide⟩
  · exact (formulaLoop_spaces _ (by decide) (by decide)).trans (by decide)
  · refine ⟨List.replicate (64 * 1024 - 13) 0x20, tagStart ++ [0x66, 0x3e], [], ?_, ?_⟩
    · rw [cutTag, List.append_nil, List.flatten_cons, List.append_assoc]
      rfl
    · exact @FormulaTag.prefixed 0x73 0x3e
        [0x70, 0x72, 0x65, 0x61, 0x64, 0x73, 0x68, 0x65, 0x65, 0x74] (by decide)
        (List.all_eq_true.mp (by decide)) (by decide)

theorem formulaLoop_exact_iff_sample :
    formulaLoop [] [some tagStart, some [0x66, 0x3e], some [0x3c, 0x66, 0x3e]] = true := by
  have hiff := @formulaLoop_exact_iff [tagStart, [0x66, 0x3e], [0x3c, 0x66, 0x3e]] (by decide)
  have htag : FormulaTag [0x3c, 0x66, 0x3e] := .plain (by decide)
  refine (hiff.mpr fun _ => ⟨tagStart ++ [0x66, 0x3e], [0x3c, 0x66, 0x3e], [], rfl, htag, ?_⟩).mpr
    ⟨tagStart ++ [0x66, 0x3e], [0x3c, 0x66, 0x3e], [], rfl, htag⟩
  decide

end ExcelConnector

end Polymorph
