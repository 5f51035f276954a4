import RowMapping.Cache

/-!
# Polymorphic loading

The value of a discriminator column says of which row type each row is made.  Every row type is
cached under its own key, so rows of one result may change types freely.  The objects of all types
are turned into one base type.
-/

namespace RowMapping

variable {κ : Type} [RowTypes κ]

/-- Loads rows as objects of several types. -/
structure Loader (κ : Type) [RowTypes κ] (β : Type) where
  /-- The name of the column that says the type. -/
  discriminator : String
  /-- The type for a value of that column other than null. -/
  resolve : Value → Option κ
  /-- An object of one of the types, as an object of the base type. -/
  embed : (k : κ) → Object k → β

/-- A loader bound to the columns of a result. -/
structure BoundLoader (κ : Type) [RowTypes κ] (β : Type) where
  /-- The loader. -/
  loader : Loader κ β
  /-- The place of the discriminator column. -/
  column : Nat
  /-- The columns that objects are made of. -/
  range : ColumnRange
  /-- A row whose first column is null has no object. -/
  firstMissing : Bool

namespace Loader

variable {β : Type} (l : Loader κ β)

/-- The place of the discriminator column in a range: of the first column of exactly its name, or
else of the first one of its name up to case. -/
def column? (v : RowView) (start length : Nat) : Option Nat :=
  let places := List.range' start length
  (places.find? fun i => v.name i == l.discriminator).or
    (places.find? fun i => Text.sameName (v.name i) l.discriminator)

/-- Binds the loader to a range of columns. -/
def bind (v : RowView) (range : ColumnRange) (firstMissing : Bool) :
    Except Error (BoundLoader κ β) := do
  let (start, length) ← range.resolve v.columnCount
  match l.column? v start length with
  | some column => return ⟨l, column, ⟨start, some length⟩, firstMissing⟩
  | none => throw (.configuration (.noDiscriminator l.discriminator))

end Loader

namespace BoundLoader

variable {β : Type} [DecidableEq κ] (b : BoundLoader κ β)

/-- The object of the current row, made by the given row type. -/
def loadAs (k : κ) (v : RowView) (c : Cache κ) : Except Error (Option β) × Cache κ :=
  match c.getOrBuild k v b.range b.firstMissing with
  | .error e => (.error e, c)
  | .ok (d, c) => ((d.rowFn v).map (Option.map (b.loader.embed k)), c)

/-- The object of the current row.  A row without discriminator has none. -/
def load (v : RowView) (c : Cache κ) : Except Error (Option β) × Cache κ :=
  match v.value b.column with
  | .error e => (.error e, c)
  | .ok x =>
    if x.isNull then (.ok none, c)
    else
      match b.loader.resolve x with
      | none => (.error (.configuration (.noSubtype b.loader.discriminator x)), c)
      | some k => b.loadAs k v c

end BoundLoader

end RowMapping
