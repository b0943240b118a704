import Mathlib.Logic.Function.Basic
import Mathlib.Data.List.Basic

/-!
# Tables with named columns

A table of a database file that outlives the code reading it: its columns are data, and a row gives a
value for each. Adding a column leaves every old value alone, and an update of one column leaves every
other column alone.
-/

set_option autoImplicit false

/-- A value of a column. -/
inductive SqlValue where
  | null
  | integer (value : Int)
  /-- a real number by its IEEE bits -/
  | real (bits : Nat)
  | text (value : String)
  | blob (bytes : List UInt8)
deriving DecidableEq

/-- A row: a value for each name of a column. -/
abbrev SqlRow := String → SqlValue

/-- The columns and the rows. -/
structure NamedTable where
  columns : List String
  rows : List SqlRow := []

namespace NamedTable

/-- `ALTER TABLE … ADD COLUMN name` -/
def addColumn (name : String) (t : NamedTable) : NamedTable where
  columns := t.columns ++ [name]
  rows := t.rows.map fun row => Function.update row name .null

/-- `ALTER TABLE … ADD COLUMN` for each name that is not among the columns. -/
def addMissing (names : List String) (t : NamedTable) : NamedTable :=
  names.foldl (fun t name => if name ∈ t.columns then t else t.addColumn name) t

/-- `UPDATE … SET name = value WHERE cond` -/
def updateWhere (name : String) (value : SqlValue) (cond : SqlRow → Bool) (t : NamedTable) :
    NamedTable :=
  { t with rows := t.rows.map fun row => if cond row then Function.update row name value else row }

variable {names : List String} {name : String} {value : SqlValue} {cond : SqlRow → Bool}
  {t : NamedTable}

@[simp] theorem updateWhere_columns : (t.updateWhere name value cond).columns = t.columns := rfl

@[simp] theorem updateWhere_rows : (t.updateWhere name value cond).rows =
    t.rows.map fun row => if cond row then Function.update row name value else row := rfl

@[simp] theorem addMissing_nil : t.addMissing [] = t := rfl

theorem addMissing_cons : t.addMissing (name :: names) =
    (if name ∈ t.columns then t else t.addColumn name).addMissing names := rfl

/-- The old columns stay. -/
theorem mem_addMissing {c : String} (h : c ∈ t.columns) : c ∈ (t.addMissing names).columns := by
  induction names generalizing t with
  | nil => exact h
  | cons name names ih =>
      rw [addMissing_cons]
      apply ih
      split
      · exact h
      · exact List.mem_append_left _ h

/-- Each name is a column afterwards. -/
theorem mem_addMissing_of_mem {c : String} (h : c ∈ names) :
    c ∈ (t.addMissing names).columns := by
  induction names generalizing t with
  | nil => cases h
  | cons name names ih =>
      rw [addMissing_cons]
      rcases List.mem_cons.1 h with rfl | h
      · apply mem_addMissing
        split
        · assumption
        · exact List.mem_append_right _ (List.mem_singleton_self _)
      · exact ih h

/-- Where no name is missing, nothing is added. -/
theorem addMissing_of_subset (h : ∀ c ∈ names, c ∈ t.columns) : t.addMissing names = t := by
  induction names with
  | nil => rfl
  | cons name names ih =>
      rw [addMissing_cons, if_pos (h name List.mem_cons_self)]
      exact ih fun c hc => h c (List.mem_cons_of_mem _ hc)

/-- The rows are widened one by one, and their old values stay. -/
theorem addMissing_rows : ∃ widen : SqlRow → SqlRow,
    (t.addMissing names).rows = t.rows.map widen ∧
      ∀ row, ∀ c ∈ t.columns, widen row c = row c := by
  induction names generalizing t with
  | nil => exact ⟨id, (List.map_id _).symm, fun _ _ _ => rfl⟩
  | cons name names ih =>
      rw [addMissing_cons]
      by_cases h : name ∈ t.columns
      · rw [if_pos h]
        exact ih
      · rw [if_neg h]
        obtain ⟨widen, hrows, hkept⟩ := @ih (t.addColumn name)
        refine ⟨fun row => widen (Function.update row name .null), ?_, ?_⟩
        · rw [hrows]
          exact List.map_map
        · intro row c hc
          have hne : c ≠ name := fun hsame => h (hsame ▸ hc)
          dsimp only
          rw [hkept _ c (List.mem_append_left _ hc), Function.update_of_ne hne]

end NamedTable
