import RowMapping.Error

/-!
# Positions of a grid reader

The result sets of a cursor, called grids, are read once each and in their order.  The position of a
reader says which grid is next, or which one is being read.
-/

namespace RowMapping

/-- Where a grid reader is. -/
inductive Position where
  /-- The grid is next and has not been read. -/
  | active (grid : Nat)
  /-- The grid is being read, or has been, and the cursor has not moved on. -/
  | consumed (grid : Nat)
  /-- There is no grid left, the cursor failed, or reading was stopped. -/
  | disposed
  deriving DecidableEq

namespace Position

/-- The position as text. -/
def display : Position → String
  | active grid => "Active(" ++ Text.natText grid ++ ")"
  | consumed grid => "Consumed(" ++ Text.natText grid ++ ")"
  | disposed => "Disposed"

/-- The grid of a position. -/
def grid? : Position → Option Nat
  | active grid | consumed grid => some grid
  | disposed => none

/-- The position after reading of a grid has begun; only the next grid can be read. -/
def begin (p : Position) (grid : Nat) : Except Error Position :=
  match p with
  | disposed => .error .disposed
  | active current =>
    if current = grid then .ok (consumed grid) else .error (.outOfOrder grid p.display)
  | consumed _ => .error (.outOfOrder grid p.display)

/-- The next grid, for a reader that asks for none in particular. -/
def nextGrid (p : Position) : Except Error Nat :=
  match p with
  | active grid => .ok grid
  | consumed grid => .error (.outOfOrder (grid + 1) p.display)
  | disposed => .error .disposed

/-- The position after the cursor has moved past a grid; `more` says whether it found another. -/
def after (grid : Nat) (more : Bool) : Position := if more then active (grid + 1) else disposed

end Position

end RowMapping
