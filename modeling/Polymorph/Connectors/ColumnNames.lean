import Polymorph.Errors
import Polymorph.Model.Whitespace
import Polymorph.Text.JsonRoundTrip
import Polymorph.Text.Numbering

/-!
# Column names

A header row gives each column a name: the text of its cell, or `column_3` where the cell is blank.
A name that has occurred before gets the number of its occurrence, `name [2]`. The numbered names
are pairwise distinct, and so are the first occurrences; a numbered name and a literal one need not
be (`nodup_dedupe_iff`). Rows that are given by position become a dictionary keyed by these names.
-/

set_option autoImplicit false

namespace Polymorph

open JsonText

/-! ## The loop over a header row -/

/-- `f"{name} [{count}]"` -/
def numberedName (name : PyText) (count : Nat) : PyText :=
  name ++ .scalar ' ' :: .scalar '[' :: ((writeNat count).map PyChar.scalar ++ [.scalar ']'])

/-- `f"column_{index}"` -/
def columnName (index : Nat) : PyText :=
  PyText.ofString "column_" ++ (writeNat index).map PyChar.scalar

/-- The loop over the names of the columns: a name that the counter has seen is numbered. -/
def dedupe (names : List PyText) : List PyText := Numbering.pass numberedName names

namespace CsvConnector

/-- `raw.strip() or f"column_{index}"` -/
def headerName (index : Nat) (raw : PyText) : PyText :=
  if raw.strip.isEmpty then columnName index else raw.strip

/-- The names of the columns before they are numbered. -/
def headerNames (row : List PyText) : List PyText :=
  row.mapIdx fun index raw => headerName (index + 1) raw

/-- `_dedupe_headers` -/
def dedupeHeaders (row : List PyText) : Except Exn (List PyText) :=
  if row.isEmpty then .error (.valueError "CSV input does not contain a header row")
  else .ok (dedupe (headerNames row))

/-- `[f"c{index}" for index in range(1, len(headers) + 1)]` -/
def positional (headers : List PyText) : List PyText :=
  (List.range headers.length).map fun index =>
    .scalar 'c' :: (writeNat (index + 1)).map PyChar.scalar

/-- `dict(pairs)[key]`: the last pair with the key counts. -/
def lastValue? (key : PyText) (pairs : List (PyText × PyValue)) : Option PyValue :=
  (pairs.reverse.find? fun pair => pair.1 = key).map Prod.snd

/-- The cells that the writer takes from a row under the positional keys: the row's dictionary is
keyed by the names, and the writer looks up each name in it. -/
def positionalCells (headers : List PyText) (row : PyText → PyValue) : List (Option PyValue) :=
  headers.map fun name =>
    lastValue? name (headers.zip ((positional headers).map row))

end CsvConnector

/-- `str` of the value of a cell. A text is its own, and of no other value it is blank. -/
structure CellText where
  str : PyValue → PyText
  str_text : ∀ text, str (.str text) = text
  str_solid : ∀ value, (∀ text, value ≠ .str text) → (str value).strip ≠ []

namespace ExcelConnector

/-- `_is_empty` -/
def isEmptyCell : PyValue → Bool
  | .none => true
  | .str text => text.strip.isEmpty
  | _ => false

/-- `str(raw).strip() if not _is_empty(raw) else f"column_{index}"` -/
def headerName (cell : CellText) (index : Nat) (raw : PyValue) : PyText :=
  if isEmptyCell raw then columnName index else (cell.str raw).strip

/-- The names of the columns before they are numbered. -/
def headerNames (cell : CellText) (row : List PyValue) : List PyText :=
  row.mapIdx fun index raw => headerName cell (index + 1) raw

/-- `_headers` -/
def headers (cell : CellText) (row : List PyValue) : List PyText := dedupe (headerNames cell row)

end ExcelConnector

/-! ## Names that are distinct -/

theorem notMem_writeNat {c : Char} (hc : isDigit c = false) (n : Nat) :
    PyChar.scalar c ∉ (writeNat n).map PyChar.scalar := by
  intro h
  obtain ⟨d, hd, hsame⟩ := List.mem_map.mp h
  obtain rfl := PyChar.scalar.inj hsame
  rw [writeNat_digits n d hd] at hc
  cases hc

theorem writeNat_injective : Function.Injective writeNat := by
  intro n m h
  rw [← digitsValue_writeNat n, h, digitsValue_writeNat]

theorem scalar_injective : Function.Injective PyChar.scalar := fun _ _ h => PyChar.scalar.inj h

/-- A list splits at the first place of a character in one way. -/
theorem split_at_first {c : PyChar} {xs xs' ys ys' : PyText} (hxs : c ∉ xs) (hxs' : c ∉ xs')
    (h : xs ++ c :: ys = xs' ++ c :: ys') : xs = xs' ∧ ys = ys' := by
  induction xs generalizing xs' with
  | nil =>
      cases xs' with
      | nil => exact ⟨rfl, (List.cons_eq_cons.mp h).2⟩
      | cons d xs' => exact absurd ((List.cons_eq_cons.mp h).1 ▸ List.mem_cons_self) hxs'
  | cons d xs ih =>
      cases xs' with
      | nil => exact absurd ((List.cons_eq_cons.mp h).1 ▸ List.mem_cons_self) hxs
      | cons e xs' =>
          obtain ⟨rfl, hrest⟩ := List.cons_eq_cons.mp h
          obtain ⟨rfl, hys⟩ := ih (fun hmem => hxs (List.mem_cons_of_mem _ hmem))
            (fun hmem => hxs' (List.mem_cons_of_mem _ hmem)) hrest
          exact ⟨rfl, hys⟩

/-- A numbered name gives its name and its number away: what follows its last bracket are the
digits of the number. -/
theorem numberedName_inj (name : PyText) (k : Nat) (other : PyText) (l : Nat)
    (h : numberedName name k = numberedName other l) : name = other ∧ k = l := by
  have hreverse : ∀ (t : PyText) n, (numberedName t n).reverse =
      (.scalar ']' :: ((writeNat n).map PyChar.scalar).reverse) ++
        .scalar '[' :: .scalar ' ' :: t.reverse := by
    intro t n
    simp [numberedName]
  have hdigits : ∀ n, PyChar.scalar '[' ∉
      PyChar.scalar ']' :: ((writeNat n).map PyChar.scalar).reverse := by
    intro n hmem
    cases List.mem_cons.mp hmem with
    | inl hclose => cases hclose
    | inr hdigit => exact notMem_writeNat (by decide) n (List.mem_reverse.mp hdigit)
  have hsame := congrArg List.reverse h
  rw [hreverse, hreverse] at hsame
  obtain ⟨hnumber, hname⟩ := split_at_first (hdigits k) (hdigits l) hsame
  refine ⟨List.reverse_injective (List.cons_eq_cons.mp hname).2, writeNat_injective ?_⟩
  have hchars := List.reverse_injective (List.cons_eq_cons.mp hnumber).2
  exact scalar_injective.list_map hchars

theorem nodup_dedupe_iff (names : List PyText) :
    (dedupe names).Nodup ↔ Numbering.Apart numberedName names :=
  Numbering.nodup_pass_iff numberedName_inj names

theorem numberedName_ne_nil (name : PyText) (count : Nat) : numberedName name count ≠ [] :=
  List.append_ne_nil_of_right_ne_nil _ (List.cons_ne_nil _ _)

/-- No name of the result is empty when no name is. -/
theorem dedupe_ne_nil {names : List PyText} (h : [] ∉ names) : [] ∉ dedupe names := by
  intro hmem
  cases (Numbering.mem_pass numberedName).mp hmem with
  | inl hlit => exact h hlit
  | inr hlabel =>
      obtain ⟨name, k, -, -, hnil⟩ := hlabel
      exact numberedName_ne_nil name k hnil.symm

theorem columnName_ne_nil (index : Nat) : columnName index ≠ [] :=
  List.append_ne_nil_of_left_ne_nil (List.cons_ne_nil _ _) _

namespace CsvConnector

theorem headerName_ne_nil (index : Nat) (raw : PyText) : headerName index raw ≠ [] := by
  rw [headerName]
  split
  · exact columnName_ne_nil index
  · rename_i hsolid
    exact fun hnil => hsolid (List.isEmpty_iff.mpr hnil)

theorem nil_notMem_headerNames (row : List PyText) : [] ∉ headerNames row := by
  intro h
  obtain ⟨index, hindex, hname⟩ := List.mem_mapIdx.mp h
  exact headerName_ne_nil _ _ hname

end CsvConnector

namespace ExcelConnector

theorem headerName_ne_nil (cell : CellText) (index : Nat) (raw : PyValue) :
    headerName cell index raw ≠ [] := by
  rw [headerName]
  split
  · exact columnName_ne_nil index
  · rename_i hsolid
    cases raw with
    | none => exact absurd rfl hsolid
    | str text =>
        rw [cell.str_text]
        exact fun hnil => hsolid (List.isEmpty_iff.mpr hnil)
    | _ => exact cell.str_solid _ fun _ h => nomatch h

theorem nil_notMem_headerNames (cell : CellText) (row : List PyValue) :
    [] ∉ headerNames cell row := by
  intro h
  obtain ⟨index, hindex, hname⟩ := List.mem_mapIdx.mp h
  exact headerName_ne_nil _ _ _ hname

/-- A cell that holds a text gives its column the name that the CSV connector gives it. -/
theorem headerName_text (cell : CellText) (index : Nat) (raw : PyText) :
    headerName cell index (.str raw) = CsvConnector.headerName index raw := by
  rw [headerName, isEmptyCell, cell.str_text]
  rfl

theorem headerNames_text (cell : CellText) (row : List PyText) :
    headerNames cell (row.map .str) = CsvConnector.headerNames row := by
  apply List.ext_getElem
  · rw [headerNames, CsvConnector.headerNames, List.length_mapIdx, List.length_mapIdx,
      List.length_map]
  · intro index hleft hright
    simp only [headerNames, CsvConnector.headerNames, List.getElem_mapIdx, List.getElem_map,
      headerName_text]

end ExcelConnector

/-! ## Rows that are given by position -/

namespace CsvConnector

/-- Every cell of a row reaches the column of its position. -/
def KeepsColumns (headers : List PyText) : Prop :=
  ∀ row : PyText → PyValue,
    positionalCells headers row = (positional headers).map fun key => some (row key)

theorem length_positional (headers : List PyText) :
    (positional headers).length = headers.length := by
  rw [positional, List.length_map, List.length_range]

theorem positional_nodup (headers : List PyText) : (positional headers).Nodup := by
  refine List.nodup_range.map fun i j h => ?_
  have hdigits := scalar_injective.list_map (List.cons_eq_cons.mp h).2
  exact Nat.succ_injective (writeNat_injective hdigits)

/-- With distinct keys a dictionary holds every pair that it has been made from. -/
theorem lastValue?_of_mem {pairs : List (PyText × PyValue)} (hnodup : (pairs.map Prod.fst).Nodup)
    {key : PyText} {value : PyValue} (h : (key, value) ∈ pairs) :
    lastValue? key pairs = some value := by
  have hmem : (key, value) ∈ pairs.reverse := List.mem_reverse.mpr h
  cases hfind : pairs.reverse.find? fun pair => pair.1 = key with
  | none => exact absurd (decide_eq_true rfl) (List.find?_eq_none.mp hfind _ hmem)
  | some pair =>
      have hkey := List.find?_some hfind
      have hpair := List.mem_reverse.mp (List.mem_of_find?_eq_some hfind)
      have hsame := List.inj_on_of_nodup_map hnodup hpair h (of_decide_eq_true hkey)
      rw [lastValue?, hfind, hsame]
      rfl

theorem keepsColumns_iff (headers : List PyText) : KeepsColumns headers ↔ headers.Nodup := by
  constructor
  · intro hkeeps
    -- two columns of one name take the same cell, whatever the row holds for them
    rw [List.nodup_iff_getElem?_ne_getElem?]
    intro i j hij hj hsame
    have hi : i < headers.length := Nat.lt_trans hij hj
    have hip : i < (positional headers).length := (length_positional headers).symm ▸ hi
    have hjp : j < (positional headers).length := (length_positional headers).symm ▸ hj
    have hcell : ∀ row : PyText → PyValue,
        row (positional headers)[i] = row (positional headers)[j] := by
      intro row
      have hcells := hkeeps row
      have hat : ∀ n : Nat, (positionalCells headers row)[n]? =
          ((positional headers).map fun key => some (row key))[n]? := fun n => by rw [hcells]
      have hati := hat i
      have hatj := hat j
      rw [positionalCells, List.getElem?_map, List.getElem?_map,
        List.getElem?_eq_getElem hip] at hati
      rw [positionalCells, List.getElem?_map, List.getElem?_map,
        List.getElem?_eq_getElem hjp, ← hsame, hati] at hatj
      exact Option.some.inj (Option.some.inj hatj)
    have hkeys : (positional headers)[i] ≠ (positional headers)[j] := fun heq =>
      Nat.ne_of_lt hij ((positional_nodup headers).getElem_inj_iff.mp heq)
    have hdiffer := hcell fun key => if key = (positional headers)[i] then .none else .bool true
    rw [if_pos rfl, if_neg hkeys.symm] at hdiffer
    cases hdiffer
  · intro hnodup row
    have hlength : headers.length = ((positional headers).map row).length := by
      rw [List.length_map, length_positional]
    have hkeys : ((headers.zip ((positional headers).map row)).map Prod.fst).Nodup := by
      rw [List.map_fst_zip (Nat.le_of_eq hlength)]
      exact hnodup
    apply List.ext_getElem
    · rw [positionalCells, List.length_map, List.length_map, length_positional]
    · intro i hi hi'
      have hin : i < headers.length := by
        rwa [positionalCells, List.length_map] at hi
      rw [List.length_map] at hi'
      simp only [positionalCells, List.getElem_map]
      refine lastValue?_of_mem hkeys ?_
      have hzip := List.getElem_mem (l := headers.zip ((positional headers).map row)) (n := i)
        (by rw [List.length_zip, ← hlength, Nat.min_self]; exact hin)
      rwa [List.getElem_zip, List.getElem_map] at hzip

end CsvConnector

/-! ## Header rows -/

/-- The names of the columns are never empty. They are pairwise distinct, and a row given by
position keeps all of its cells, exactly when no name is the numbered form of another one. -/
theorem columnNames_distinct_iff (cell : CellText) :
    (∀ raw row, ∃ names, CsvConnector.dedupeHeaders (raw :: row) = .ok names ∧ [] ∉ names ∧
      (names.Nodup ↔ Numbering.Apart numberedName (CsvConnector.headerNames (raw :: row))) ∧
      (CsvConnector.KeepsColumns names ↔
        Numbering.Apart numberedName (CsvConnector.headerNames (raw :: row)))) ∧
    (∀ row, [] ∉ ExcelConnector.headers cell row ∧
      ((ExcelConnector.headers cell row).Nodup ↔
        Numbering.Apart numberedName (ExcelConnector.headerNames cell row))) := by
  refine ⟨fun raw row => ?_, fun row => ?_⟩
  · have hnodup := nodup_dedupe_iff (CsvConnector.headerNames (raw :: row))
    exact ⟨_, rfl, dedupe_ne_nil (CsvConnector.nil_notMem_headerNames _), hnodup,
      (CsvConnector.keepsColumns_iff _).trans hnodup⟩
  · exact ⟨dedupe_ne_nil (ExcelConnector.nil_notMem_headerNames cell row), nodup_dedupe_iff _⟩

/-- Two columns `a` and one `a [2]`: the second `a` gets the name of the third column. -/
def collidingRow : List PyText :=
  [PyText.ofString "a", PyText.ofString "a", PyText.ofString "a [2]"]

theorem numberedName_a : numberedName (PyText.ofString "a") 2 = PyText.ofString "a [2]" := by
  have hdigits : writeNat 2 = ['2'] := by simp [writeNat]
  rw [numberedName, hdigits]
  rfl

theorem columnNames_collide :
    (∃ names, CsvConnector.dedupeHeaders collidingRow = .ok names ∧ ¬names.Nodup ∧
      ¬CsvConnector.KeepsColumns names) ∧
    ∀ cell, ¬(ExcelConnector.headers cell (collidingRow.map .str)).Nodup := by
  have hnodup : ¬(dedupe (CsvConnector.headerNames collidingRow)).Nodup := by
    intro h
    have hapart := (nodup_dedupe_iff _).mp h
    refine hapart (PyText.ofString "a") 2 (Nat.le_refl 2) (by decide) ?_
    rw [numberedName_a]
    decide
  refine ⟨⟨_, rfl, hnodup, fun h => hnodup ((CsvConnector.keepsColumns_iff _).mp h)⟩, fun cell => ?_⟩
  rw [ExcelConnector.headers, ExcelConnector.headerNames_text]
  exact hnodup

end Polymorph
