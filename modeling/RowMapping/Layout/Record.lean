import RowMapping.Layout.Basic

/-!
# Tuples and records

A tuple takes its parts from columns in their order.  A record has named fields; it is made with
every field at its missing value, and then the fields that have a column are set.
-/

namespace RowMapping

/-! ### Tuples -/

/-- A part of a tuple. -/
structure Slot where
  /-- The objects of the part. -/
  Carrier : Type
  /-- How they are built. -/
  destination : Destination Carrier

/-- The tuples with the given parts. -/
def Tuple : List Slot → Type
  | [] => Unit
  | s :: ss => s.Carrier × Tuple ss

namespace Tuple

/-- The tuple with the given arguments, which are taken in their order. -/
def build : (slots : List Slot) → List Value → Except Error (Tuple slots)
  | [], _ => .ok ()
  | s :: ss, args => do
    let x ← s.destination.ofValue (args.headD .null)
    let xs ← build ss args.tail
    .ok (x, xs)

/-- How a tuple is made of columns. -/
def layout (slots : List Slot) : Layout (Tuple slots) :=
  .positional (slots.map (·.destination.info)) (build slots)

end Tuple

/-! ### Records -/

/-- Where a field of a record comes from. -/
inductive FieldSource (α : Type) where
  /-- A column of the given name. -/
  | column (name : String) (destination : Destination α)
  /-- No column; the field always has the given object. -/
  | skipped (object : α)

/-- A field of a record. -/
structure Field where
  /-- The objects of the field. -/
  Carrier : Type
  /-- Where they come from. -/
  source : FieldSource Carrier

/-- The records with the given fields. -/
def Record : List Field → Type
  | [] => Unit
  | f :: fs => f.Carrier × Record fs

namespace Record

/-- The object of a field that has no column. -/
def missing {α : Type} : FieldSource α → Except Error α
  | .column _ d => d.ofNull
  | .skipped x => .ok x

/-- The record with every field as if it had no column. -/
def initial : (fields : List Field) → Except Error (Record fields)
  | [] => .ok ()
  | f :: fs => do
    let x ← missing f.source
    let xs ← initial fs
    .ok (x, xs)

/-- A member of the fields after the first, as a member of the whole record. -/
def liftMember {f : Field} {fs : List Field} (m : Member (Record fs)) :
    Member (Record (f :: fs)) :=
  ⟨m.name, m.info, fun r v => (m.set r.2 v).map fun xs => (r.1, xs)⟩

/-- The members of a record: its fields that come from a column. -/
def members : (fields : List Field) → List (Member (Record fields))
  | [] => []
  | ⟨_, .column name d⟩ :: fs =>
    ⟨name, d.info, fun r v => (d.ofValue v).map fun x => (x, r.2)⟩ :: (members fs).map liftMember
  | ⟨_, .skipped _⟩ :: fs => (members fs).map liftMember

/-- How a record is made of columns. -/
def layout (typeId : TypeId) (fields : List Field) : Layout (Record fields) :=
  .named { typeId, default? := some (initial fields), members := members fields }

end Record

end RowMapping
