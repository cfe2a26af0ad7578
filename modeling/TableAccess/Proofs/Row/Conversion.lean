import TableAccess.Row

/-!
# Results of converted cells

A source of rows gives cells in forms of its own, one for each of its columns.  Its result has a row
for each of its rows, and in it the value of each cell under the name of the column.
-/

namespace TableAccess

variable {γ κ : Type}

/-- The result has the columns and the rows of a source, and each value relates to the column and
the cell from which it comes. -/
structure Result.Converts (r : Result) (name : γ → String) (columns : List γ)
    (rows : List (List κ)) (law : γ → κ → Value → Prop) : Prop where
  names : r.columns = columns.map name
  size : r.rows.length = rows.length
  cells : ∀ (i j : Nat) (row : List κ) (c : γ) (cell : κ), rows[i]? = some row →
    columns[j]? = some c → row[j]? = some cell →
      ∃ found v, r.rows[i]? = some found ∧ found.cells[j]? = some ⟨name c, v⟩ ∧ law c cell v

namespace Result

variable {name : γ → String} {columns : List γ} {rows : List (List κ)}
  {law : γ → κ → Value → Prop} {value : γ → κ → Value}

/-- It is enough that the value of each cell in each column does. -/
theorem converts_of_values (hvalue : ∀ c cell, law c cell (value c cell)) :
    Converts ⟨columns.map name, rows.map fun row =>
      .ofColumns (columns.map name) (List.zipWith value columns row)⟩ name columns rows law where
  names := rfl
  size := List.length_map _
  cells i j row c cell hrow hc hcell := by
    refine ⟨.ofColumns (columns.map name) (List.zipWith value columns row), value c cell, ?_, ?_,
      hvalue c cell⟩
    · show (rows.map _)[i]? = _
      rw [List.getElem?_map, hrow]
      rfl
    · show (List.zipWith Cell.mk (columns.map name) (List.zipWith value columns row))[j]? = _
      rw [List.getElem?_zipWith, List.getElem?_map, List.getElem?_zipWith, hc, hcell]
      rfl

end Result

end TableAccess
