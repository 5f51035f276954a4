import RowMapping.Grid.Walk

/-!
# Grid readers

A grid reader hands out the grids of a cursor one after the other.  Whatever an operation leaves of
its grid is skipped before the operation is over, so that the reader always stands before a grid or
is disposed of.
-/

namespace RowMapping

variable {σ κ : Type} [RowTypes κ]

/-- A reader that finishes each grid before it returns. -/
structure GridReader (σ κ : Type) [RowTypes κ] where
  /-- The cursor and the position. -/
  walk : Walk σ
  /-- The cache of row functions. -/
  cache : Cache κ

/-- The single object among the items of a grid. -/
def singleOf {α : Type} : List (Except Error α) → Except Error α
  | [] => .error (.input .noRows)
  | .error e :: _ => .error e
  | .ok _ :: .error e :: _ => .error e
  | .ok _ :: .ok _ :: _ => .error (.input .manyRows)
  | [.ok x] => .ok x

/-- The first object among the items of a grid, if there is one. -/
def firstOf {α : Type} : List (Except Error α) → Except Error (Option α)
  | [] => .ok none
  | .error e :: _ => .error e
  | .ok x :: _ => .ok (some x)

/-- What reading a stream gives. -/
structure Streamed (α : Type) where
  /-- The grid that was read. -/
  grid : Nat
  /-- The items that were pulled. -/
  items : List (Except Error α)

namespace GridReader

/-- A reader of a cursor that stands before its first grid. -/
def ofCursor (cursor : σ) (cache : Cache κ) : GridReader σ κ := ⟨⟨cursor, .active 0⟩, cache⟩

variable [DecidableEq κ] [Cursor σ]

/-- A call cannot be given up. -/
def keep : Keep σ Unit := ⟨fun _ => (), fun _ => ()⟩

/-- A result of an operation, with the reader after it. -/
abbrev Step (σ κ α : Type) [RowTypes κ] := Run Unit (Except Error α × GridReader σ κ)

variable (r : GridReader σ κ)

/-- Reads a grid as far as demanded and skips the rest. -/
def pullGrid (k : κ) (grid : Nat) (demand : Demand) : Step σ κ (Pulled σ (Object k)) := do
  let opened ← r.walk.openGrid keep.moving r.cache k grid
  match opened.rowFn? with
  | .error e => return (.error e, ⟨opened.walk, opened.cache⟩)
  | .ok rowFn? =>
    let pulled ← opened.walk.pull keep rowFn? grid demand
    if pulled.ended then return (.ok pulled, ⟨pulled.walk, opened.cache⟩)
    else return (.ok pulled, ⟨← pulled.walk.skip keep.moving grid, opened.cache⟩)

/-- Reads the next grid as far as demanded and skips the rest. -/
def pullNext (k : κ) (demand : Demand) : Step σ κ (Nat × Pulled σ (Object k)) :=
  match r.walk.position.nextGrid with
  | .error e => return (.error e, r)
  | .ok grid => do
    let (result, r) ← r.pullGrid k grid demand
    return (result.map (grid, ·), r)

/-- All objects of the next grid. -/
def read (k : κ) : Step σ κ (List (Object k)) := do
  let (result, r) ← r.pullNext k .allGood
  return (result.bind (·.2.objects), r)

/-- The items of the next grid, as many as asked for. -/
def stream (k : κ) (limit : Option Nat) : Step σ κ (Streamed (Object k)) := do
  let (result, r) ← r.pullNext k ⟨limit, false⟩
  return (result.map fun e => ⟨e.1, e.2.items⟩, r)

/-- The items of a grid, which has to be the next one, as many as asked for.  If buffered, the whole
grid is read first, and has to be free of errors. -/
def readGrid (k : κ) (grid : Nat) (buffered : Bool) (limit : Option Nat) :
    Step σ κ (Streamed (Object k)) := do
  if buffered then
    let (result, r) ← r.pullGrid k grid .allGood
    let objects := result.bind (·.objects)
    return (objects.map fun xs => ⟨grid, ((xs.take (limit.getD xs.length)).map .ok)⟩, r)
  else
    let (result, r) ← r.pullGrid k grid ⟨limit, false⟩
    return (result.map fun p => ⟨grid, p.items⟩, r)

/-- The first object of the next grid, if there is one. -/
def readFirst (k : κ) : Step σ κ (Option (Object k)) := do
  let (result, r) ← r.pullNext k (.atMost 1)
  return (result.bind (firstOf ·.2.items), r)

/-- The only object of the next grid. -/
def readSingle (k : κ) : Step σ κ (Object k) := do
  let (result, r) ← r.pullNext k ⟨some 2, true⟩
  return (result.bind (singleOf ·.2.items), r)

/-- The reader with nothing left to read. -/
def dispose : GridReader σ κ := { r with walk := r.walk.dispose }

end GridReader

end RowMapping
