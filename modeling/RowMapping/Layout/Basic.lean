import RowMapping.Conversion.Scalar
import RowMapping.Row.Basic

/-!
# Layouts of row types

A row type says once how its objects are made of columns: from the first column, from the columns
in their order, from columns matched by name, or as a dynamic row.
-/

namespace RowMapping

/-- The argument at a place, as an object of a destination.  A missing argument is like a missing
value. -/
def argument {β : Type} (args : List Value) (i : Nat) (d : Destination β) : Except Error β :=
  d.ofValue (args.getD i .null)

/-- A parameter of a constructor. -/
structure Param where
  /-- The name. -/
  name : String
  /-- What is wanted of the column. -/
  info : TypeInfo
  deriving DecidableEq

/-- A parameter of the type of a destination. -/
def Param.of {β : Type} (name : String) (d : Destination β) : Param := ⟨name, d.info⟩

/-- A way to make an object from named parameters. -/
structure Constructor (α : Type) where
  /-- The parameters. -/
  params : List Param
  /-- Makes the object from one argument for each parameter. -/
  build : List Value → Except Error α

/-- A part of an object that can be set after it was made. -/
structure Member (α : Type) where
  /-- The name. -/
  name : String
  /-- What is wanted of the column. -/
  info : TypeInfo
  /-- The object with the part set from a value. -/
  set : α → Value → Except Error α

/-- A member of the type of a destination, set by a function that cannot fail. -/
def Member.of {α β : Type} (name : String) (d : Destination β) (set : α → β → α) : Member α :=
  ⟨name, d.info, fun x v => (d.ofValue v).map (set x)⟩

/-- A row type whose columns are matched by name. -/
structure Composite (α : Type) where
  /-- The type, for messages. -/
  typeId : TypeId
  /-- The constructors with parameters. -/
  constructors : List (Constructor α) := []
  /-- The constructor without parameters, for when no other one fits. -/
  default? : Option (Except Error α) := none
  /-- The members. -/
  members : List (Member α) := []

/-- How the objects of a row type are made of columns. -/
inductive Layout (α : Type) where
  /-- From the first column. -/
  | scalar (info : TypeInfo) (build : Value → Except Error α)
  /-- From the columns in their order, one for each entry of `fields`. -/
  | positional (fields : List TypeInfo) (build : List Value → Except Error α)
  /-- From columns matched by name. -/
  | named (composite : Composite α)
  /-- From a dynamic row. -/
  | dynamic (build : Row → Except Error α)

namespace Layout

/-- A destination as a row type of one column. -/
def ofDestination {α : Type} (d : Destination α) : Layout α := .scalar d.info d.ofValue

/-- Dynamic rows as they are. -/
def row : Layout Row := .dynamic .ok

/-- The layout makes dynamic rows. -/
def isDynamic {α : Type} : Layout α → Bool
  | .dynamic _ => true
  | _ => false

end Layout

end RowMapping
