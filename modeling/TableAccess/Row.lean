import TableAccess.Value

/-!
# Rows and results

A row is a list of named cells in the order of the columns.  A result is the list of its columns,
known even without rows, and its rows.
-/

namespace TableAccess

/-- A named value. -/
structure Cell where
  column : String
  value : Value
deriving DecidableEq

/-- Named cells in column order. -/
structure Row where
  cells : List Cell
deriving DecidableEq

namespace Row

/-- Pair columns with values, as far as both lists go. -/
def ofColumns (columns : List String) (values : List Value) : Row :=
  ⟨List.zipWith Cell.mk columns values⟩

def size (r : Row) : Nat := r.cells.length

def isEmpty (r : Row) : Bool := r.cells.isEmpty

def columns (r : Row) : List String := r.cells.map Cell.column

def values (r : Row) : List Value := r.cells.map Cell.value

/-- The value of the first cell of that name. -/
def get? (r : Row) (column : String) : Option Value :=
  (r.cells.find? fun cell => cell.column == column).map Cell.value

/-- The value at a position. -/
def at? (r : Row) (index : Nat) : Option Value := r.cells[index]?.map Cell.value

theorem columns_ofColumns {columns : List String} {values : List Value}
    (h : columns.length = values.length) : (ofColumns columns values).columns = columns := by
  induction columns generalizing values with
  | nil => rfl
  | cons c columns ih =>
    cases values with
    | nil => simp at h
    | cons v values =>
      have := @ih values (by simpa using h)
      simpa [ofColumns, Row.columns] using this

theorem values_ofColumns {columns : List String} {values : List Value}
    (h : columns.length = values.length) : (ofColumns columns values).values = values := by
  induction columns generalizing values with
  | nil =>
    cases values with
    | nil => rfl
    | cons v values => simp at h
  | cons c columns ih =>
    cases values with
    | nil => simp at h
    | cons v values =>
      have := @ih values (by simpa using h)
      simpa [ofColumns, Row.values] using this

end Row

/-- The columns of a query and its rows. -/
structure Result where
  columns : List String
  rows : List Row
deriving DecidableEq

end TableAccess
