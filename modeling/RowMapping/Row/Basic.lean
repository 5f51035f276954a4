import RowMapping.Conversion.Rule
import RowMapping.Row.Schema

/-!
# Dynamic rows

A dynamic row has a cell for each column of its schema up to the last one that was written.  A cell
that was not written, or was removed, is unset, which is not the same as set to null.
-/

namespace RowMapping

/-- A row whose columns are known only by name. -/
structure Row where
  /-- The schema that it shares with other rows. -/
  schema : SchemaId
  /-- The cells, in the order of the columns; those after the last are unset. -/
  cells : List (Option Value)
  deriving DecidableEq

namespace Row

/-- A row with all columns unset. -/
def new (schema : SchemaId) : Row := ⟨schema, []⟩

/-- A row with the first columns set. -/
def ofValues (schema : SchemaId) (vs : List Value) : Row := ⟨schema, vs.map some⟩

variable (r : Row) (ss : Schemas)

/-! ### Reading -/

/-- The value of a column, if it is set. -/
def get? (i : Nat) : Option Value := r.cells[i]?.join

/-- The value of the first column of that name, if there is one and it is set. -/
def getByName? (name : String) : Option Value :=
  ((ss.get r.schema).indexOf? name).bind r.get?

/-- The column of that name is set. -/
def contains (name : String) : Bool := (r.getByName? ss name).isSome

/-- The object for a column.  One that is unset or unknown is like a missing value. -/
def getAs {α : Type} (d : Destination α) (name : String) : Except Error α :=
  match r.getByName? ss name with
  | some v => d.read v
  | none => d.ofNull

/-- The number of cells that are set. -/
def size : Nat := r.cells.countP Option.isSome

/-- The names and values of the cells that are set, in the order of the columns. -/
def pairs : List (String × Value) :=
  ((ss.get r.schema).names.zip r.cells).filterMap fun e => e.2.map (e.1, ·)

/-- The values by name.  Of several cells with one name the first counts. -/
def toMap : List (String × Value) :=
  (r.pairs ss).foldl (fun m e => if m.any (·.1 == e.1) then m else m ++ [e]) []

/-- The text that shows a row to a reader. -/
def display : String :=
  "\x7bRow" ++
    String.join ((r.pairs ss).map fun e => ", " ++ e.1 ++ " = " ++ e.2.display) ++ "\x7d"

/-! ### Writing -/

/-- The row with a cell written; the cells before it are there from then on. -/
def put (i : Nat) (v : Value) : Row :=
  { r with cells := (r.cells ++ List.replicate (i + 1 - r.cells.length) none).set i (some v) }

/-- The row with the value of an existing column written. -/
def set (i : Nat) (v : Value) : Except Error Row :=
  let columns := (ss.get r.schema).names.length
  if i < columns then .ok (r.put i v) else .error (.input (.columnIndex i columns))

/-- The row with the first column of that name written, which is added to the schema if it is new.
The first result is the place of the column. -/
def setByName (name : String) (v : Value) : Nat × Row × Schemas :=
  let (i, s) := (ss.get r.schema).indexOrAdd name
  (i, r.put i v, ss.set r.schema s)

/-- The row with a cell unset, and the value that was there. -/
def remove (i : Nat) : Option Value × Row := (r.get? i, { r with cells := r.cells.set i none })

/-- The row with the first column of that name unset, and the value that was there. -/
def removeByName (name : String) : Option Value × Row :=
  match (ss.get r.schema).indexOf? name with
  | some i => r.remove i
  | none => (none, r)

end Row

end RowMapping
