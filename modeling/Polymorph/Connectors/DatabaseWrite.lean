import Mathlib.Logic.Nontrivial.Defs
import Mathlib.Data.List.Perm.Basic
import Polymorph.Errors
import Polymorph.Text.JsonDict

/-!
# Counted database writes

`DatabaseConnector` inserts a list of rows in one transaction and returns their number when the
driver proves it. The database behind SQLAlchemy is a parameter: what an insert gives, and which of
the other calls raise. What an insert is documented to do is a predicate on it: the columns of a
list of rows are those of the first one, a later row without one of them raises, and what else a
later row names is ignored.
-/

set_option autoImplicit false

namespace Polymorph

open JsonText

variable {V : Type}

/-- A row to write, a dictionary from columns to values. -/
abbrev Row (V : Type) := List (String × V)

/-- A row of the table: the value in each column. -/
abbrev TableRow (V : Type) := String → V

def Row.columns (row : Row V) : List String := row.map Prod.fst

/-- What `execute` takes with an insert: one row, or a list of rows. -/
inductive InsertParams (V : Type) where
  | one (row : Row V)
  | many (first : Row V) (rest : List (Row V))

/-- What a driver reports as `rowcount`: an `int`, or a value of another type. -/
inductive Rowcount where
  | int (count : Int)
  | other

/-- The parts of a `CursorResult` that are read, each of which may raise. -/
structure CursorResult where
  supportsSaneRowcount : Except Exn Bool
  supportsSaneMultiRowcount : Except Exn Bool
  rowcount : Except Exn Rowcount

/-- A database: the result of an insert into a table with the table after it, and which of the other
calls raise. -/
structure Database (V : Type) where
  connect : Option Exn := none
  startTransaction : Option Exn := none
  execute : InsertParams V → List (TableRow V) → Except Exn (CursorResult × List (TableRow V))
  rollback : Option Exn := none
  commit : Option Exn := none
  close : Option Exn := none

/-- The parts of `DatabaseConnector` that writing reads, with the columns of its reflected table. -/
structure DatabaseConnector where
  transactionalWrite : Bool
  columns : List String

namespace DatabaseConnector

/-! ## Writing rows -/

/-- `rows if is_multirow else rows[0]`, where an empty list has no first row. -/
def insertParams : List (Row V) → Option (InsertParams V)
  | [] => none
  | [row] => some (.one row)
  | first :: second :: rest => some (.many first (second :: rest))

/-- The outcome after a rollback that did not raise. -/
def rolledBack (connector : DatabaseConnector) : WriteOutcome :=
  if connector.transactionalWrite then .notCommitted else .unknown

/-- `_proves_exact_rowcount` -/
def provesExactRowcount (result : CursorResult) (expectedCount : Nat) (isMultirow : Bool) : Bool :=
  match if isMultirow then result.supportsSaneMultiRowcount else result.supportsSaneRowcount,
    result.rowcount with
  | .ok sane, .ok (.int count) => sane && count == expectedCount
  | _, _ => false

/-- The insert in the transaction of `_write_rows`, with the committed table. -/
def writeTransaction (db : Database V) (connector : DatabaseConnector) (rows : List (Row V))
    (table : List (TableRow V)) : Except Exn (Nat × List (TableRow V)) :=
  match (insertParams rows).map fun params => db.execute params table with
  | some (.ok (result, written)) =>
      if provesExactRowcount result rows.length (1 < rows.length) then
        match db.commit with
        | none => .ok (rows.length, written)
        | some _ => .error (.connectorWriteError "database commit outcome is unknown" .unknown)
      else
        match db.rollback with
        | none =>
            .error (.connectorWriteError "database did not prove the exact affected row count"
              connector.rolledBack)
        | some _ =>
            .error (.connectorWriteError
              "database row count is unproven and rollback outcome is unknown" .unknown)
  | _ =>
      match db.rollback with
      | none => .error (.connectorWriteError "database write failed" connector.rolledBack)
      | some _ => .error (.connectorWriteError "database write failed" .unknown)

/-- `_write_rows` -/
def writeRows (db : Database V) (connector : DatabaseConnector) (rows : List (Row V))
    (table : List (TableRow V)) : Except Exn (Nat × List (TableRow V)) :=
  if rows.any fun row => row.columns.any (· ∉ connector.columns) then
    .error (.connectorWriteError "record contains columns outside the destination schema"
      .notCommitted)
  else
    match db.connect, db.startTransaction, db.close with
    | some e, _, _ => .error e
    | none, some e, _ => .error e
    -- the connection is closed on every way out, and what closing raises replaces the rest
    | none, none, some e => .error e
    | none, none, none => writeTransaction db connector rows table

end DatabaseConnector

/-! ## What an insert is documented to do -/

namespace InsertParams

/-- The rows of an insert. -/
def rows : InsertParams V → List (Row V)
  | .one row => [row]
  | .many first rest => first :: rest

/-- The columns of an insert are those of its first row. -/
def columns : InsertParams V → List String
  | .one row => row.columns
  | .many first _ => first.columns

def isMultirow : InsertParams V → Bool
  | .one _ => false
  | .many _ _ => true

/-- Each row without the columns that the insert does not have. -/
def restrict (params : InsertParams V) : InsertParams V :=
  match params with
  | .one row => .one row
  | .many first rest => .many first (rest.map (·.filter (·.1 ∈ first.columns)))

end InsertParams

/-- A stored row holds the values of a row in some columns. -/
def HoldsOn (columns : List String) (row : Row V) (stored : TableRow V) : Prop :=
  ∀ column ∈ columns, ∀ value, dictGet column row = some value → stored column = value

/-- A stored row holds the value of a row in every column the row names. -/
def Holds (row : Row V) (stored : TableRow V) : Prop :=
  ∀ column value, dictGet column row = some value → stored column = value

/-- The documented behaviour of an insert. A trigger may skip rows; a count that the dialect
promises to be sane is the number of rows the table gained. -/
structure Database.Documented (db : Database V) : Prop where
  ignores : ∀ params table, db.execute params table = db.execute params.restrict table
  complete : ∀ params table result written, db.execute params table = .ok (result, written) →
    ∀ row ∈ params.rows, ∀ column ∈ params.columns, column ∈ row.columns
  stores : ∀ params table result written, db.execute params table = .ok (result, written) →
    ∃ kept added, kept.Sublist params.rows ∧ List.Forall₂ (HoldsOn params.columns) kept added ∧
      written.Perm (table ++ added)
  counts : ∀ params table result written count,
    db.execute params table = .ok (result, written) →
    (if params.isMultirow then result.supportsSaneMultiRowcount
      else result.supportsSaneRowcount) = .ok true →
    result.rowcount = .ok (.int count) → (written.length : Int) = table.length + count

/-- The table gained a row for each row, with its value in every column the row named. -/
def StoresEvery (rows : List (Row V)) (table : List (TableRow V)) (count : Nat)
    (written : List (TableRow V)) : Prop :=
  count = rows.length ∧ ∃ added, List.Forall₂ Holds rows added ∧ written.Perm (table ++ added)

/-- No later row names a column that the first lacks, or one of them lacks a column of the first. -/
def InsertKeeps : List (Row V) → Prop
  | [] => True
  | first :: rest =>
      (∀ row ∈ rest, row.columns ⊆ first.columns) ∨ (∃ row ∈ rest, ¬first.columns ⊆ row.columns)

namespace DatabaseConnector

/-! ## What a counted write stored -/

theorem provesExactRowcount_iff {result : CursorResult} {expected : Nat} {isMultirow : Bool} :
    provesExactRowcount result expected isMultirow = true ↔
      (if isMultirow then result.supportsSaneMultiRowcount else result.supportsSaneRowcount) =
        .ok true ∧ result.rowcount = .ok (.int expected) := by
  unfold provesExactRowcount
  split
  case h_1 sane count hsane hcount => simp [hsane, hcount]
  case h_2 hnone =>
    refine ⟨(nomatch ·), fun h => absurd h.2 (fun hcount => hnone true _ h.1 hcount)⟩

theorem insertParams_eq_some {rows : List (Row V)} {params : InsertParams V}
    (h : insertParams rows = some params) :
    params.rows = rows ∧ params.isMultirow = decide (1 < rows.length) ∧
      ∃ first rest, rows = first :: rest ∧ params.columns = first.columns := by
  unfold insertParams at h
  split at h
  · cases h
  · cases h
    exact ⟨rfl, rfl, _, _, rfl, rfl⟩
  · cases h
    exact ⟨rfl, by simp [InsertParams.isMultirow], _, _, rfl, rfl⟩

/-- What a write that returns has done. -/
theorem writeRows_ok {db : Database V} {connector : DatabaseConnector} {rows : List (Row V)}
    {table written : List (TableRow V)} {count : Nat}
    (h : writeRows db connector rows table = .ok (count, written)) :
    count = rows.length ∧ ∃ params result, insertParams rows = some params ∧
      db.execute params table = .ok (result, written) ∧
      provesExactRowcount result rows.length params.isMultirow = true := by
  unfold writeRows at h
  split at h
  · cases h
  · split at h
    case h_4 =>
      unfold writeTransaction at h
      split at h
      case h_1 result after hexecute =>
        obtain ⟨params, hparams, hresult⟩ := Option.map_eq_some_iff.mp hexecute
        obtain ⟨_, hmulti, _⟩ := insertParams_eq_some hparams
        split at h
        case isTrue hproves =>
          split at h
          · cases h
            exact ⟨rfl, params, result, hparams, hresult, hmulti ▸ hproves⟩
          · cases h
        case isFalse => split at h <;> cases h
      case h_2 => split at h <;> cases h
    all_goals cases h

/-- A write that returns has stored every row in the columns of the first one. -/
theorem writeRows_stores {db : Database V} (hdb : db.Documented) {connector : DatabaseConnector}
    {first : Row V} {rest : List (Row V)} {table written : List (TableRow V)} {count : Nat}
    (h : writeRows db connector (first :: rest) table = .ok (count, written)) :
    count = (first :: rest).length ∧ (∀ row ∈ rest, first.columns ⊆ row.columns) ∧
      ∃ added, List.Forall₂ (HoldsOn first.columns) (first :: rest) added ∧
        written.Perm (table ++ added) := by
  obtain ⟨hcount, params, result, hparams, hexecute, hproves⟩ := writeRows_ok h
  obtain ⟨hsane, hrowcount⟩ := provesExactRowcount_iff.mp hproves
  obtain ⟨hrows, _, _, _, hcons, hcolumns⟩ := insertParams_eq_some hparams
  cases hcons
  refine ⟨hcount, fun row hrow => ?_, ?_⟩
  · have hcomplete := hdb.complete params table result written hexecute row
      (hrows ▸ List.mem_cons_of_mem first hrow)
    exact hcolumns ▸ hcomplete
  · obtain ⟨kept, added, hkept, hholds, hperm⟩ := hdb.stores params table result written hexecute
    have hgained := hdb.counts params table result written _ hexecute hsane hrowcount
    rw [hrows] at hkept
    -- as many rows were stored as were given, so none was skipped
    have hlength : kept.length = (first :: rest).length := by
      have hadded := hholds.length_eq
      have htotal := hperm.length_eq
      rw [List.length_append] at htotal
      omega
    rw [hkept.eq_of_length hlength, hcolumns] at hholds
    exact ⟨added, hholds, hperm⟩

theorem mem_columns_iff {row : Row V} {column : String} :
    column ∈ row.columns ↔ ∃ value, dictGet column row = some value := by
  induction row with
  | nil => simp [Row.columns, dictGet]
  | cons p rest ih =>
      unfold Row.columns at ih
      by_cases hp : p.1 = column
      · simp [Row.columns, dictGet, hp]
      · simp [Row.columns, dictGet, hp, Ne.symm hp, ih]

theorem holds_of_holdsOn {columns : List String} {row : Row V} {stored : TableRow V}
    (h : HoldsOn columns row stored) (hsub : row.columns ⊆ columns) : Holds row stored :=
  fun column value hvalue => h column (hsub (mem_columns_iff.mpr ⟨value, hvalue⟩)) value hvalue

/-! ## A database that skips nothing -/

/-- The row that an insert with some columns stores for a row, with a value for the others. -/
def plainRow (rest : V) (columns : List String) (row : Row V) : TableRow V := fun column =>
  if column ∈ columns then (dictGet column row).getD rest else rest

/-- A table whose columns all have a default, in a database that reports what it does. -/
def plainDatabase (rest : V) : Database V where
  execute params table :=
    if params.rows.all fun row => params.columns.all (· ∈ row.columns) then
      .ok (⟨.ok true, .ok true, .ok (.int params.rows.length)⟩,
        table ++ params.rows.map (plainRow rest params.columns))
    else .error (.other "A value is required for bind parameter")

theorem dictGet_filter {columns : List String} {column : String} (h : column ∈ columns)
    (row : Row V) : dictGet column (row.filter (·.1 ∈ columns)) = dictGet column row := by
  simp only [dictGet, List.find?_filter]
  congr 2
  funext p
  by_cases hp : p.1 = column
  · simp [hp, h]
  · simp [hp]

theorem plainRow_filter (rest : V) (columns : List String) (row : Row V) :
    plainRow rest columns (row.filter (·.1 ∈ columns)) = plainRow rest columns row := by
  funext column
  by_cases h : column ∈ columns
  · simp only [plainRow, h, dictGet_filter h]
  · simp only [plainRow, h, if_false]

theorem plainRow_holdsOn (rest : V) (columns : List String) (row : Row V) :
    HoldsOn columns row (plainRow rest columns row) := by
  intro column hcolumn value hvalue
  simp [plainRow, hcolumn, hvalue]

theorem columns_filter {columns : List String} {row : Row V} :
    columns ⊆ Row.columns (row.filter (·.1 ∈ columns)) ↔ columns ⊆ row.columns := by
  refine forall₂_congr fun column hcolumn => ?_
  rw [mem_columns_iff, mem_columns_iff, dictGet_filter hcolumn]

theorem plainDatabase_execute (rest : V) (params : InsertParams V) (table : List (TableRow V)) :
    (plainDatabase rest).execute params table =
      if ∀ row ∈ params.rows, params.columns ⊆ row.columns then
        .ok (⟨.ok true, .ok true, .ok (.int params.rows.length)⟩,
          table ++ params.rows.map (plainRow rest params.columns))
      else .error (.other "A value is required for bind parameter") := by
  simp only [plainDatabase, List.all_eq_true, decide_eq_true_iff]
  rfl

theorem plainDatabase_documented (rest : V) : (plainDatabase rest).Documented where
  ignores params table := by
    cases params with
    | one row => rfl
    | many first others =>
        rw [plainDatabase_execute, plainDatabase_execute]
        simp [InsertParams.restrict, InsertParams.rows, InsertParams.columns, columns_filter,
          plainRow_filter, Function.comp_def]
  complete params table result written h row hrow column hcolumn := by
    rw [plainDatabase_execute] at h
    split at h
    case isTrue hall => exact hall row hrow hcolumn
    case isFalse => cases h
  stores params table result written h := by
    rw [plainDatabase_execute] at h
    split at h
    case isTrue =>
      cases h
      refine ⟨params.rows, _, List.Sublist.refl _, ?_, List.Perm.refl _⟩
      exact List.forall₂_map_right_iff.mpr
        (List.forall₂_same.mpr fun row _ => plainRow_holdsOn rest _ row)
    case isFalse => cases h
  counts params table result written count h _ hcount := by
    rw [plainDatabase_execute] at h
    split at h
    case isTrue =>
      cases h
      cases hcount
      simp
    case isFalse => cases h

theorem writeRows_plainDatabase (rest : V) {connector : DatabaseConnector} {first : Row V}
    {others : List (Row V)} (table : List (TableRow V))
    (hcolumns : ∀ row ∈ first :: others, row.columns ⊆ connector.columns)
    (hcomplete : ∀ row ∈ others, first.columns ⊆ row.columns) :
    writeRows (plainDatabase rest) connector (first :: others) table =
      .ok ((first :: others).length,
        table ++ (first :: others).map (plainRow rest first.columns)) := by
  have hknown : ¬(first :: others).any
      (fun row => row.columns.any (· ∉ connector.columns)) = true := by
    intro hunknown
    obtain ⟨row, hrow, hany⟩ := List.any_eq_true.mp hunknown
    obtain ⟨column, hcolumn, hnot⟩ := List.any_eq_true.mp hany
    exact of_decide_eq_true hnot (hcolumns row hrow hcolumn)
  obtain ⟨params, hparams⟩ : ∃ params, insertParams (first :: others) = some params := by
    cases others with
    | nil => exact ⟨_, rfl⟩
    | cons second others => exact ⟨_, rfl⟩
  obtain ⟨hrows, _, _, _, hcons, hfirst⟩ := insertParams_eq_some hparams
  cases hcons
  have hall : ∀ row ∈ params.rows, params.columns ⊆ row.columns := by
    rw [hrows, hfirst]
    intro row hrow
    cases hrow with
    | head => exact List.Subset.refl _
    | tail _ hrow => exact hcomplete row hrow
  rw [writeRows, if_neg hknown]
  change writeTransaction _ _ _ _ = _
  rw [writeTransaction, hparams]
  simp only [Option.map_some, plainDatabase_execute, if_pos hall]
  rw [hrows, hfirst, if_pos (provesExactRowcount_iff.mpr ⟨by split <;> rfl, rfl⟩)]
  rfl

/-- A counted write stores every value of its rows in every documented database exactly when no
column is named by a later row only. -/
theorem writeRows_storesEvery_iff [Nontrivial V] {connector : DatabaseConnector}
    {rows : List (Row V)} (hne : rows ≠ [])
    (hcolumns : ∀ row ∈ rows, row.columns ⊆ connector.columns) :
    (∀ db : Database V, db.Documented → ∀ table count written,
      writeRows db connector rows table = .ok (count, written) →
        StoresEvery rows table count written) ↔ InsertKeeps rows := by
  obtain ⟨first, others, rfl⟩ := List.exists_cons_of_ne_nil hne
  constructor
  · intro hstores
    by_contra hkeeps
    obtain ⟨hmore, hcomplete⟩ := not_or.mp hkeeps
    push Not at hcomplete
    obtain ⟨row, hrow, column, hcolumn, hnew⟩ :
        ∃ row ∈ others, ∃ column ∈ row.columns, column ∉ first.columns := by
      by_contra hnone
      push Not at hnone
      exact hmore hnone
    obtain ⟨value, hvalue⟩ := mem_columns_iff.mp hcolumn
    obtain ⟨other, hother⟩ := exists_ne value
    obtain ⟨_, added, hadded, hperm⟩ := hstores _ (plainDatabase_documented other) [] _ _
      (writeRows_plainDatabase other [] hcolumns hcomplete)
    obtain ⟨stored, hstored, hholds⟩ :=
      forall₂_partner hadded (List.mem_cons_of_mem first hrow)
    obtain ⟨source, _, rfl⟩ := List.mem_map.mp (hperm.mem_iff.mpr hstored)
    have hdropped := hholds column value hvalue
    rw [plainRow, if_neg hnew] at hdropped
    exact hother hdropped
  · intro hkeeps db hdb table count written hwrite
    obtain ⟨hcount, hcomplete, added, hadded, hperm⟩ := writeRows_stores hdb hwrite
    refine ⟨hcount, added, ?_, hperm⟩
    cases hkeeps with
    | inl hfewer =>
        have hsub : ∀ row ∈ first :: others, row.columns ⊆ first.columns :=
          List.forall_mem_cons.mpr ⟨List.Subset.refl _, hfewer⟩
        exact ((List.forall₂_and_left _ _).mpr ⟨hsub, hadded⟩).imp
          fun row stored h => holds_of_holdsOn h.2 h.1
    | inr hlacks =>
        obtain ⟨row, hrow, hlacks⟩ := hlacks
        exact absurd (hcomplete row hrow) hlacks

/-- Two orders of which only the second has a note. -/
def orderRows : List (Row (Option Int)) :=
  [[("reference", some 1)], [("reference", some 2), ("note", some 7)]]

/-- Two orders with a note each. -/
def notedRows : List (Row (Option Int)) :=
  [[("reference", some 1), ("note", some 6)], [("note", some 7), ("reference", some 2)]]

def ordersConnector : DatabaseConnector where
  transactionalWrite := true
  columns := ["reference", "note"]

theorem writeRows_storesEvery_iff_noted :
    StoresEvery notedRows [] 2 (notedRows.map (plainRow none ["reference", "note"])) :=
  (@writeRows_storesEvery_iff _ _ ordersConnector notedRows (by decide) (by decide)).mpr
    (.inl (by decide)) (plainDatabase none) (plainDatabase_documented none) [] 2 _
    (writeRows_plainDatabase none [] (by decide) (by decide))

/-- Two rows are counted and the note is not stored. -/
theorem writeRows_orderRows :
    (plainDatabase (none : Option Int)).Documented ∧
      writeRows (plainDatabase none) ordersConnector orderRows [] =
        .ok (2, orderRows.map (plainRow none ["reference"])) ∧
      ¬StoresEvery orderRows [] 2 (orderRows.map (plainRow none ["reference"])) := by
  refine ⟨plainDatabase_documented none,
    writeRows_plainDatabase none [] (by decide) (by decide), ?_⟩
  rintro ⟨_, added, hadded, hperm⟩
  obtain ⟨stored, hstored, hholds⟩ :=
    forall₂_partner hadded (List.mem_cons_of_mem _ (List.mem_singleton.mpr rfl))
  obtain ⟨source, _, rfl⟩ := List.mem_map.mp (hperm.mem_iff.mpr hstored)
  cases hholds "note" (some 7) rfl

end DatabaseConnector

end Polymorph
