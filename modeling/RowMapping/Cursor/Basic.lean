import RowMapping.Error

/-!
# Cursors

A cursor walks over the rows of one result set after the other.  What can be seen of it at one
moment is a `RowView`: the columns of the current result set and the values of the current row.
Both ways to advance may fail.
-/

namespace RowMapping

/-- A name and a type of a column. -/
structure Column where
  /-- The name. -/
  name : String
  /-- The type. -/
  type : DbType
  deriving DecidableEq

/-- What can be seen of a cursor. -/
structure RowView where
  /-- The number of columns. -/
  columnCount : Nat
  /-- The name of a column. -/
  name : Nat → String
  /-- The type of a column. -/
  type : Nat → DbType
  /-- The value of a column in the current row. -/
  value : Nat → Except Error Value

namespace RowView

/-- The columns of a result set. -/
def columns (v : RowView) : List Column :=
  (List.range v.columnCount).map fun i => ⟨v.name i, v.type i⟩

end RowView

/-- A walk over result sets.  Every result set comes to an end: `rowsLeft` bounds the number of
times that the cursor still moves to a row. -/
class Cursor (σ : Type) where
  /-- What can be seen of the cursor. -/
  view : σ → RowView
  /-- Moves to the next row and says whether there is one. -/
  advanceRow : σ → Except Error Bool × σ
  /-- Moves to the next result set and says whether there is one. -/
  advanceResultSet : σ → Except Error Bool × σ
  /-- A bound on the rows that are still to come. -/
  rowsLeft : σ → Nat
  rowsLeft_lt : ∀ c : σ, (advanceRow c).1 = .ok true → rowsLeft (advanceRow c).2 < rowsLeft c

end RowMapping
