import RowMapping.Cache
import RowMapping.Grid.Position
import RowMapping.Grid.Run

/-!
# Walking over grids

The steps that all readers share: beginning a grid, pulling objects from it, skipping what is left
of it, and moving on to the next one.  After an error of the cursor, and after an error that is
fatal for it, no further call is made and the position is `disposed`.
-/

namespace RowMapping

/-- A cursor and a position over its grids. -/
structure Walk (σ : Type) where
  /-- The cursor. -/
  cursor : σ
  /-- The position. -/
  position : Position

/-- What is left of a reader when it is given up at a call. -/
structure Keep (σ ρ : Type) where
  /-- While a row is asked for on behalf of a stream that can go on. -/
  streaming : Walk σ → ρ
  /-- At any other call. -/
  moving : Walk σ → ρ

/-- How many objects are asked for. -/
structure Demand where
  /-- At most that many. -/
  limit : Option Nat
  /-- None after the first error. -/
  untilError : Bool

namespace Demand

/-- Nothing more is asked for. -/
def isMet (d : Demand) : Bool := d.limit == some 0

/-- What is asked for after an item. -/
def after {α : Type} (d : Demand) (item : Except Error α) : Demand :=
  match item with
  | .ok _ => { d with limit := d.limit.map (· - 1) }
  | .error _ => { d with limit := if d.untilError then some 0 else d.limit.map (· - 1) }

/-- At most `n` items, errors included. -/
def atMost (n : Nat) : Demand := ⟨some n, false⟩

/-- Everything up to the first error. -/
def allGood : Demand := ⟨none, true⟩

end Demand

/-- What has been pulled from a grid. -/
structure Pulled (σ α : Type) where
  /-- The cursor and the position. -/
  walk : Walk σ
  /-- The objects and errors, in the order of the rows. -/
  items : List (Except Error α)
  /-- The grid can give no more. -/
  ended : Bool

namespace Pulled

variable {σ α : Type}

/-- The same with an item in front. -/
def cons (item : Except Error α) (p : Pulled σ α) : Pulled σ α :=
  { p with items := item :: p.items }

/-- The objects, or the first error. -/
def objects (p : Pulled σ α) : Except Error (List α) := p.items.mapM id

end Pulled

namespace Walk

variable {σ ρ : Type} [Cursor σ]

/-- What can be seen of the cursor. -/
def view (w : Walk σ) : RowView := Cursor.view w.cursor

/-- The walk with nothing left to read. -/
def dispose (w : Walk σ) : Walk σ := { w with position := .disposed }

/-- Moves the cursor past a grid. -/
def finish (keep : Walk σ → ρ) (grid : Nat) (w : Walk σ) : Run ρ (Option Error × Walk σ) := do
  let (answer, cursor) := Cursor.advanceResultSet w.cursor
  Run.ofCall .resultSet answer (keep w)
  match answer with
  | .ok more => return (none, ⟨cursor, .after grid more⟩)
  | .error e => return (some e, ⟨cursor, .disposed⟩)

/-- Skips the rest of a grid and moves past it.  Errors are not reported. -/
def skip (keep : Walk σ → ρ) (grid : Nat) (w : Walk σ) : Run ρ (Walk σ) :=
  let next : Walk σ := { w with cursor := (Cursor.advanceRow w.cursor).2 }
  match _h : (Cursor.advanceRow w.cursor).1 with
  | .ok true => do
    Run.ofCall .row (.ok true) (keep w)
    skip keep grid next
  | .ok false => do
    Run.ofCall .row (.ok false) (keep w)
    let r ← finish keep grid next
    return r.2
  | .error e => do
    Run.ofCall .row (.error e) (keep w)
    return next.dispose
termination_by Cursor.rowsLeft w.cursor
decreasing_by exact Cursor.rowsLeft_lt w.cursor _h

/-- Pulls items from a grid until the demand is met or the grid ends.  Rows without an object are
passed over, and without a row function all rows are. -/
def pull {α : Type} (keep : Keep σ ρ) (rowFn? : Option (RowFn α)) (grid : Nat) (demand : Demand)
    (w : Walk σ) : Run ρ (Pulled σ α) :=
  if demand.isMet then return ⟨w, [], false⟩
  else
    let next : Walk σ := { w with cursor := (Cursor.advanceRow w.cursor).2 }
    match _h : (Cursor.advanceRow w.cursor).1 with
    | .ok true => do
      Run.ofCall .row (.ok true) (keep.streaming w)
      match rowFn? with
      | none => pull keep rowFn? grid demand next
      | some rowFn =>
        match rowFn next.view with
        | .ok none => pull keep rowFn? grid demand next
        | .ok (some x) =>
          return (← pull keep rowFn? grid (demand.after (.ok x)) next).cons (.ok x)
        | .error e =>
          if e.isFatal then return ⟨next.dispose, [.error e], true⟩
          else
            let item : Except Error α := .error e
            return (← pull keep rowFn? grid (demand.after item) next).cons item
    | .ok false => do
      Run.ofCall .row (.ok false) (keep.streaming w)
      let r ← finish keep.moving grid next
      match r.1 with
      | none => return ⟨r.2, [], true⟩
      | some e => return ⟨r.2, [.error e], true⟩
    | .error e => do
      Run.ofCall .row (.error e) (keep.streaming w)
      return ⟨next.dispose, [.error e], true⟩
termination_by Cursor.rowsLeft w.cursor
decreasing_by all_goals exact Cursor.rowsLeft_lt w.cursor _h

/-- What beginning a grid gives: the walk, the cache, and the row function of the grid, which a grid
without columns does not have. -/
structure Opened (σ : Type) {κ : Type} [RowTypes κ] (k : κ) where
  /-- The cursor and the position. -/
  walk : Walk σ
  /-- The cache. -/
  cache : Cache κ
  /-- The row function, or why there is none. -/
  rowFn? : Except Error (Option (RowFn (Object k)))

/-- Begins to read a grid.  If no row function can be built, the grid is skipped. -/
def openGrid {κ : Type} [RowTypes κ] [DecidableEq κ] (keep : Walk σ → ρ) (cache : Cache κ) (k : κ)
    (grid : Nat) (w : Walk σ) : Run ρ (Opened σ k) :=
  match w.position.begin grid with
  | .error e => return ⟨w, cache, .error e⟩
  | .ok position =>
    let w : Walk σ := { w with position }
    if w.view.columnCount = 0 then return ⟨w, cache, .ok none⟩
    else
      match cache.getOrBuild k w.view .all false with
      | .ok (d, cache) => return ⟨w, cache, .ok (some d.rowFn)⟩
      | .error e => return ⟨← skip keep grid w, cache, .error e⟩

end Walk

end RowMapping
