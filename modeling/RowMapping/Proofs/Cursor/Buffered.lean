import RowMapping.Cursor.Buffered

/-!
# What a buffered cursor shows

In a result set, a buffered cursor shows its columns, and the values of one row after the other.

* `BufferedCursor.view_eq_header`, `BufferedCursor.view_eq_rowView`: what can be seen before the
  first row, and at a row;
* `BufferedCursor.advance_of_drop_eq_cons`, `BufferedCursor.advance_of_drop_eq_nil`: advancing takes
  the first of the rows that are still to come, until there are none;
* `BufferedCursor.advanceResultSet_eq`: then the next result set comes, from before its first row.
-/

namespace RowMapping

namespace ResultSet

variable (s : ResultSet)

/-- The columns, without a current row. -/
def header : RowView where
  columnCount := s.columns.length
  name i := (s.columns[i]?.getD ⟨"", .null⟩).name
  type i := (s.columns[i]?.getD ⟨"", .null⟩).type
  value _ := .error (.input .noRow)

/-- The columns, with the values of a row. -/
def rowView (row : List Value) : RowView :=
  { s.header with
    value := fun i =>
      match row[i]? with
      | none => .error (.input (.columnIndex i row.length))
      | some v => .ok v }

end ResultSet

namespace BufferedCursor

variable {sets : List ResultSet} {i : Nat} {s : ResultSet} {row? : Option Nat}

theorem view_eq_header (hs : sets[i]? = some s) :
    view ⟨sets, i, none⟩ = s.header := by
  have hcurrent : current? ⟨sets, i, none⟩ = some s := hs
  have hvalue : value ⟨sets, i, none⟩ = fun _ => .error (.input .noRow) := by
    funext j
    simp only [value, hcurrent]
    rfl
  simp only [view, column, hcurrent, hvalue]
  rfl

theorem view_eq_rowView (hs : sets[i]? = some s) {n : Nat} {row : List Value}
    (hrow : s.rows[n]? = some row) : view ⟨sets, i, some n⟩ = s.rowView row := by
  have hcurrent : current? ⟨sets, i, some n⟩ = some s := hs
  have hvalue : value ⟨sets, i, some n⟩ = (s.rowView row).value := by
    funext j
    simp only [value, hcurrent, Option.bind_some, hrow]
    rfl
  simp only [view, column, hcurrent, hvalue]
  rfl

theorem advance_of_drop_eq_cons (hs : sets[i]? = some s) {row : List Value}
    {rows : List (List Value)} (hrows : s.rows.drop (nextRow ⟨sets, i, row?⟩) = row :: rows) :
    ∃ n, s.rows[n]? = some row ∧ s.rows.drop (nextRow ⟨sets, i, some n⟩) = rows ∧
      Cursor.advanceRow (σ := BufferedCursor) ⟨sets, i, row?⟩ = (.ok true, ⟨sets, i, some n⟩) := by
  have hcurrent : current? ⟨sets, i, row?⟩ = some s := hs
  generalize hn : nextRow ⟨sets, i, row?⟩ = n at hrows
  have hlt : n < s.rows.length := by
    have hlength := congrArg List.length hrows
    rw [List.length_drop, List.length_cons] at hlength
    omega
  rw [List.drop_eq_getElem_cons hlt] at hrows
  obtain ⟨hrow, hrest⟩ := List.cons.inj hrows
  refine ⟨n, by rw [List.getElem?_eq_getElem hlt, hrow], hrest, ?_⟩
  simp only [Cursor.advanceRow, advanceRow, hcurrent, hn, hlt, if_true]

theorem advance_of_drop_eq_nil (hs : sets[i]? = some s)
    (hrows : s.rows.drop (nextRow ⟨sets, i, row?⟩) = []) :
    Cursor.advanceRow (σ := BufferedCursor) ⟨sets, i, row?⟩ =
      (.ok false, ⟨sets, i, some s.rows.length⟩) := by
  have hcurrent : current? ⟨sets, i, row?⟩ = some s := hs
  have hle : ¬ nextRow ⟨sets, i, row?⟩ < s.rows.length := by
    have := List.drop_eq_nil_iff.1 hrows
    omega
  simp only [Cursor.advanceRow, advanceRow, hcurrent, hle, if_false]

theorem advanceResultSet_eq (hs : sets[i]? = some s) (row? : Option Nat) :
    Cursor.advanceResultSet (σ := BufferedCursor) ⟨sets, i, row?⟩ =
      (.ok (decide (i + 1 < sets.length)), ⟨sets, i + 1, none⟩) := by
  obtain ⟨hlt, -⟩ := List.getElem?_eq_some_iff.1 hs
  simp only [Cursor.advanceResultSet, advanceResultSet, hlt, if_true]

end BufferedCursor

end RowMapping
