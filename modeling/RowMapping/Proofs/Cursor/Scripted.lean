import RowMapping.Cursor.Basic

/-!
# Scripted cursors

A scripted cursor gives the answers that were written down for it, errors included, in the order of
the calls.  So whatever finitely many answers a cursor gives, there is a cursor that gives them.
-/

namespace RowMapping

/-- A cursor with its answers written down. -/
structure ScriptedCursor where
  /-- The answers to the next calls for a row; after them no row comes. -/
  rows : List (Except Error Bool)
  /-- The answers to the next calls for a result set; after them none comes. -/
  sets : List (Except Error Bool)
  /-- What can be seen with so many answers for rows and for result sets still to come. -/
  views : Nat → Nat → RowView

namespace ScriptedCursor

instance : Cursor ScriptedCursor where
  view c := c.views c.rows.length c.sets.length
  advanceRow c :=
    match c.rows with
    | [] => (.ok false, c)
    | answer :: rows => (answer, { c with rows })
  advanceResultSet c :=
    match c.sets with
    | [] => (.ok false, c)
    | answer :: sets => (answer, { c with sets })
  rowsLeft c := c.rows.length
  rowsLeft_lt c h := by
    obtain ⟨rows, sets, views⟩ := c
    cases rows with
    | nil => cases h
    | cons answer rows => exact Nat.lt_succ_self _

end ScriptedCursor

end RowMapping
