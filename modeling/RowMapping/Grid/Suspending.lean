import RowMapping.Grid.Reader

/-!
# Suspending grid readers

A suspending reader waits for the answer to each call, and an operation may be given up while it
waits.  A stream that is given up before its end cannot wait for the rest of its grid to be skipped;
it only marks the grid as abandoned, and the next operation skips it first.
-/

namespace RowMapping

variable {σ κ : Type} [RowTypes κ]

/-- A reader that may leave a grid to be skipped by its next operation. -/
structure SuspendingReader (σ κ : Type) [RowTypes κ] where
  /-- The cursor and the position. -/
  walk : Walk σ
  /-- The cache of row functions. -/
  cache : Cache κ
  /-- The grid whose rest is still to be skipped. -/
  abandoned : Option Nat := none

/-- What is done with a stream after items were pulled from it. -/
inductive Ending where
  /-- It is given up. -/
  | drop
  /-- Its rest is skipped. -/
  | finish
  /-- Its rest is collected. -/
  | collect
  deriving DecidableEq

/-- What the ending of a stream gives. -/
inductive Ended (α : Type) where
  /-- The stream was given up. -/
  | dropped
  /-- The rest was skipped, or an error came up. -/
  | finished (result : Except Error Unit)
  /-- The rest, or the first error in it. -/
  | collected (result : Except Error (List α))

namespace SuspendingReader

/-- A reader of a cursor that stands before its first grid. -/
def ofCursor (cursor : σ) (cache : Cache κ) : SuspendingReader σ κ :=
  ⟨⟨cursor, .active 0⟩, cache, none⟩

variable [DecidableEq κ] [Cursor σ]

/-- A run of a suspending reader; what is left at a call is a reader again. -/
abbrev Step (σ κ α : Type) [RowTypes κ] :=
  Run (SuspendingReader σ κ) (Except Error α × SuspendingReader σ κ)

/-- What is left of a reader when an operation on a grid is given up.  While a row is asked for, the
grid is abandoned. -/
def keep (cache : Cache κ) (grid : Nat) : Keep σ (SuspendingReader σ κ) where
  streaming w := ⟨w, cache, some grid⟩
  moving w := ⟨w, cache, none⟩

variable (r : SuspendingReader σ κ)

/-- Skips the rest of an abandoned grid. -/
def settle : Run (SuspendingReader σ κ) (SuspendingReader σ κ) :=
  match r.abandoned with
  | none => return r
  | some grid => return ⟨← r.walk.skip (keep r.cache grid).moving grid, r.cache, none⟩

/-- What is left of a reader when a stream is given up: unless it has ended, its grid is
abandoned. -/
def release {α : Type} (cache : Cache κ) (grid : Nat) (p : Pulled σ α) : SuspendingReader σ κ :=
  ⟨p.walk, cache, if p.ended then none else some grid⟩

/-- A stream from which items were pulled. -/
structure Stream (σ : Type) {κ : Type} [RowTypes κ] (k : κ) where
  /-- The grid. -/
  grid : Nat
  /-- The cache. -/
  cache : Cache κ
  /-- The row function of the grid. -/
  rowFn? : Option (RowFn (Object k))
  /-- What was pulled. -/
  pulled : Pulled σ (Object k)

/-- Begins a grid and pulls items as far as demanded. -/
def pullGrid (k : κ) (grid : Nat) (demand : Demand) :
    Run (SuspendingReader σ κ) (Except (Error × SuspendingReader σ κ) (Stream σ k)) := do
  let opened ← r.walk.openGrid (keep r.cache grid).moving r.cache k grid
  match opened.rowFn? with
  | .error e => return .error (e, ⟨opened.walk, opened.cache, none⟩)
  | .ok rowFn? =>
    let pulled ← opened.walk.pull (keep opened.cache grid) rowFn? grid demand
    return .ok ⟨grid, opened.cache, rowFn?, pulled⟩

/-- Settles the reader, begins the next grid and pulls items as far as demanded. -/
def pullNext (k : κ) (demand : Demand) :
    Run (SuspendingReader σ κ) (Except (Error × SuspendingReader σ κ) (Stream σ k)) := do
  let r ← r.settle
  match r.walk.position.nextGrid with
  | .error e => return .error (e, r)
  | .ok grid => r.pullGrid k grid demand

namespace Stream

variable {k : κ} (s : Stream σ k)

/-- What is left of the reader when the stream is given up. -/
def drop : SuspendingReader σ κ := release s.cache s.grid s.pulled

/-- Pulls more items, through the given row function. -/
def pullMore (rowFn? : Option (RowFn (Object k))) (demand : Demand) :
    Run (SuspendingReader σ κ) (Pulled σ (Object k)) :=
  if s.pulled.ended then return { s.pulled with items := [] }
  else s.pulled.walk.pull (keep s.cache s.grid) rowFn? s.grid demand

/-- Skips the rest of the grid and moves past it. -/
def finish : Step σ κ Unit := do
  let rest ← s.pullMore none .allGood
  return (rest.objects.map fun _ => (), release s.cache s.grid rest)

/-- Collects the rest of the grid. -/
def collect : Step σ κ (List (Object k)) := do
  let rest ← s.pullMore s.rowFn? .allGood
  return (rest.objects, release s.cache s.grid rest)

/-- Ends the stream in the given way. -/
def endBy (ending : Ending) :
    Run (SuspendingReader σ κ) (Ended (Object k) × SuspendingReader σ κ) :=
  match ending with
  | .drop => return (.dropped, s.drop)
  | .finish => do
    let (result, r) ← s.finish
    return (.finished result, r)
  | .collect => do
    let (result, r) ← s.collect
    return (.collected result, r)

end Stream

/-- What reading a stream to an ending gives. -/
abbrev Outcome (α : Type) := Streamed α × Ended α

/-- Ends a stream, if there is one, in the given way. -/
def conclude {k : κ} (ending : Ending) :
    Except (Error × SuspendingReader σ κ) (Stream σ k) → Step σ κ (Outcome (Object k))
  | .error (e, r) => return (.error e, r)
  | .ok s => do
    let (ended, r) ← s.endBy ending
    return (.ok (⟨s.grid, s.pulled.items⟩, ended), r)

/-- All objects of the next grid. -/
def read (k : κ) : Step σ κ (List (Object k)) := do
  match ← r.pullNext k .allGood with
  | .error (e, r) => return (.error e, r)
  | .ok s => return (s.pulled.objects, s.drop)

/-- The items of the next grid, as many as asked for, and then what the ending gives. -/
def stream (k : κ) (limit : Option Nat) (ending : Ending) : Step σ κ (Outcome (Object k)) := do
  conclude ending (← r.pullNext k ⟨limit, false⟩)

/-- What the ending of a stream gives whose objects were read beforehand. -/
def endBuffered {α : Type} (rest : List α) : Ending → Ended α
  | .drop => .dropped
  | .finish => .finished (.ok ())
  | .collect => .collected (.ok rest)

/-- The items of a grid, which has to be the next one, as many as asked for.  If buffered, the whole
grid is read first, and has to be free of errors. -/
def readGrid (k : κ) (grid : Nat) (buffered : Bool) (limit : Option Nat) (ending : Ending) :
    Step σ κ (Outcome (Object k)) := do
  let r ← r.settle
  if buffered then
    match ← r.pullGrid k grid .allGood with
    | .error (e, r) => return (.error e, r)
    | .ok s =>
      match s.pulled.objects with
      | .error e => return (.error e, s.drop)
      | .ok xs =>
        let n := limit.getD xs.length
        return (.ok (⟨grid, (xs.take n).map .ok⟩, endBuffered (xs.drop n) ending), s.drop)
  else conclude ending (← r.pullGrid k grid ⟨limit, false⟩)

/-- The first object of the next grid, if there is one.  The rest of the grid is skipped. -/
def readFirst (k : κ) : Step σ κ (Option (Object k)) := do
  match ← r.pullNext k (.atMost 1) with
  | .error (e, r) => return (.error e, r)
  | .ok s =>
    match firstOf s.pulled.items with
    | .error e => return (.error e, s.drop)
    | .ok first =>
      let (result, r) ← s.finish
      return (result.map fun _ => first, r)

/-- The only object of the next grid. -/
def readSingle (k : κ) : Step σ κ (Object k) := do
  match ← r.pullNext k ⟨some 2, true⟩ with
  | .error (e, r) => return (.error e, r)
  | .ok s => return (singleOf s.pulled.items, s.drop)

/-- The reader with nothing left to read. -/
def dispose : SuspendingReader σ κ := { r with walk := r.walk.dispose, abandoned := none }

end SuspendingReader

end RowMapping
