import RowMapping.Error

/-!
# Destinations of conversions

A destination type says once what it wants of a column: a column type, whether it has a value of
its own for "missing", and whether it is an ordinary type, an enumeration, or takes every value as
it is.  `Destination` adds the two functions that build its objects.
-/

namespace RowMapping

/-- A name and a number of an enumeration. -/
structure EnumVariant where
  /-- The name. -/
  name : String
  /-- The number that stands for it. -/
  value : Int64
  deriving DecidableEq

/-- How a destination takes its values. -/
inductive TypeKind where
  /-- Converted to the column type that it names. -/
  | scalar
  /-- By the number or the name of a variant. -/
  | enumeration (variants : List EnumVariant)
  /-- As they are. -/
  | any
  deriving DecidableEq

/-- What a destination type wants of a column. -/
structure TypeInfo where
  /-- The column type that it is built from. -/
  dbType : DbType
  /-- The type has a value of its own for a missing one. -/
  nullable : Bool
  /-- How it takes its values. -/
  kind : TypeKind
  /-- Its identity in the table of handlers; an optional type has that of the type inside. -/
  typeId : TypeId
  deriving DecidableEq

namespace TypeInfo

/-- An ordinary type. -/
def scalar (typeId : TypeId) (dbType : DbType) : TypeInfo := ⟨dbType, false, .scalar, typeId⟩

/-- An enumeration. -/
def enumeration (typeId : TypeId) (variants : List EnumVariant) : TypeInfo :=
  ⟨.i64, false, .enumeration variants, typeId⟩

/-- The type of all values. -/
def any : TypeInfo := ⟨.null, true, .any, .value⟩

/-- The type with a value for "missing" added. -/
def orNull (info : TypeInfo) : TypeInfo := { info with nullable := true }

end TypeInfo

/-- A type whose objects are built from values. -/
structure Destination (α : Type) where
  /-- What the type wants of a column. -/
  info : TypeInfo
  /-- The object for a value, which is null or of the kind that `info` names.  Other values are
  converted to that kind first. -/
  ofValue : Value → Except Error α
  /-- The object for a missing value. -/
  ofNull : Except Error α

/-- The type with a missing object added: null is the missing one. -/
def Destination.option {α : Type} (d : Destination α) : Destination (Option α) where
  info := d.info.orNull
  ofValue
    | .null => .ok none
    | v => (d.ofValue v).map some
  ofNull := .ok none

end RowMapping
