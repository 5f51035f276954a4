import RowMapping.Cursor.Basic

/-!
# Buffered cursors

A cursor over result sets that are held in memory.  It begins in the first result set, before the
first row.
-/

namespace RowMapping

/-- Columns and rows held in memory. -/
structure ResultSet where
  /-- The columns. -/
  columns : List Column
  /-- The rows; each has a value for every column. -/
  rows : List (List Value) := []
  arity : ∀ row ∈ rows, row.length = columns.length := by simp
  deriving DecidableEq

namespace ResultSet

/-- A result set without rows. -/
def ofColumns (columns : List Column) : ResultSet := { columns }

/-- The result set with one more row. -/
def push (s : ResultSet) (row : List Value) : Except Error ResultSet :=
  if h : row.length = s.columns.length then
    .ok
      { s with
        rows := s.rows ++ [row]
        arity := by
          intro r hr
          rcases List.mem_append.1 hr with hr | hr
          · exact s.arity r hr
          · rw [List.mem_singleton.1 hr]; exact h }
  else .error (.input (.arity row.length s.columns.length))

/-- The result set with the given columns and rows. -/
def ofRows (columns : List Column) (rows : List (List Value)) : Except Error ResultSet :=
  rows.foldlM push (ofColumns columns)

end ResultSet

/-- A cursor over result sets in memory. -/
structure BufferedCursor where
  /-- All result sets. -/
  sets : List ResultSet
  /-- The place of the current result set, or their number behind the last. -/
  set : Nat := 0
  /-- The place of the current row, or the number of rows behind the last; none before the
  first. -/
  row : Option Nat := none
  deriving DecidableEq

namespace BufferedCursor

variable (c : BufferedCursor)

/-- The current result set. -/
def current? : Option ResultSet := c.sets[c.set]?

/-- The value of a column in the current row. -/
def value (i : Nat) : Except Error Value :=
  match c.current? with
  | none => .error (.input .noResultSet)
  | some s =>
    match c.row.bind (s.rows[·]?) with
    | none => .error (.input .noRow)
    | some row =>
      match row[i]? with
      | none => .error (.input (.columnIndex i row.length))
      | some v => .ok v

/-- The column at a place.  Where there is none, it has no name and no type. -/
def column (i : Nat) : Column := (c.current?.bind (·.columns[i]?)).getD ⟨"", .null⟩

/-- What can be seen of the cursor. -/
def view : RowView where
  columnCount := (c.current?.map (·.columns.length)).getD 0
  name i := (c.column i).name
  type i := (c.column i).type
  value := c.value

/-- The place of the row after the current one. -/
def nextRow : Nat := (c.row.map (· + 1)).getD 0

/-- The number of rows of the current result set. -/
def rowCount : Nat := (c.current?.map (·.rows.length)).getD 0

/-- Moves to the next row and says whether there is one. -/
def advanceRow : Bool × BufferedCursor :=
  match c.current? with
  | none => (false, c)
  | some s =>
    if c.nextRow < s.rows.length then (true, { c with row := some c.nextRow })
    else (false, { c with row := some s.rows.length })

/-- Moves to the next result set and says whether there is one. -/
def advanceResultSet : Bool × BufferedCursor :=
  let next := if c.set < c.sets.length then c.set + 1 else c.set
  (decide (next < c.sets.length), { c with set := next, row := none })

theorem advanceRow_of_true (h : c.advanceRow.1 = true) :
    c.nextRow < c.rowCount ∧ c.advanceRow.2 = { c with row := some c.nextRow } := by
  unfold advanceRow at h ⊢
  cases hs : c.current? with
  | none => simp [hs] at h
  | some s =>
    have hcount : c.rowCount = s.rows.length := by simp [rowCount, hs]
    by_cases hlt : c.nextRow < s.rows.length
    · simp [hlt, hcount]
    · simp [hs, hlt] at h

instance : Cursor BufferedCursor where
  view := view
  advanceRow c := (.ok c.advanceRow.1, c.advanceRow.2)
  advanceResultSet c := (.ok c.advanceResultSet.1, c.advanceResultSet.2)
  rowsLeft c := c.rowCount - c.nextRow
  rowsLeft_lt c h := by
    obtain ⟨hlt, heq⟩ := c.advanceRow_of_true (Except.ok.inj h)
    have hcount : ({ c with row := some c.nextRow } : BufferedCursor).rowCount = c.rowCount := rfl
    have hnext : ({ c with row := some c.nextRow } : BufferedCursor).nextRow = c.nextRow + 1 := rfl
    show c.advanceRow.2.rowCount - c.advanceRow.2.nextRow < c.rowCount - c.nextRow
    rw [heq, hcount, hnext]
    omega

end BufferedCursor

end RowMapping
