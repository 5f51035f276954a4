import RowMapping.Cursor.Basic

/-!
# Shapes

A shape is the list of names and types of the columns in a range.  Its signature is a number that
is quick to compare; only the shape itself says whether two ranges are alike.
-/

namespace RowMapping

/-- A range of columns that follow each other.  Without a length it goes to the last column. -/
structure ColumnRange where
  /-- The first column. -/
  start : Nat
  /-- The number of columns. -/
  length : Option Nat
  deriving DecidableEq

namespace ColumnRange

/-- All columns. -/
def all : ColumnRange := ⟨0, none⟩

/-- The start and the length that a range has among `columns` columns. -/
def resolve (r : ColumnRange) (columns : Nat) : Except Error (Nat × Nat) :=
  if columns < r.start then .error (.input (.rangeStart r.start columns))
  else
    let length := r.length.getD (columns - r.start)
    if columns < r.start + length then .error (.input (.rangeEnd r.start length columns))
    else .ok (r.start, length)

end ColumnRange

/-- The columns of a range. -/
structure Shape where
  /-- The names and types. -/
  columns : List Column
  deriving DecidableEq

namespace Shape

/-- The shape of the columns in a range. -/
def capture (v : RowView) (start length : Nat) : Shape :=
  ⟨(List.range' start length).map fun i => ⟨v.name i, v.type i⟩⟩

/-- The columns in a range have the names and types of the shape. -/
def isShapeOf (s : Shape) (v : RowView) (start length : Nat) : Bool :=
  s.columns.length == length &&
    (s.columns.zip (List.range' start length)).all fun e =>
      e.1.type == v.type e.2 && e.1.name == v.name e.2

end Shape

/-- A function that gives a number of 64 bits for the columns in a range.  `salt` stands for what
else has to be alike. -/
abbrev Signature := (salt : Bool) → (start : Nat) → Shape → UInt64

namespace Signature

/-- The hash of a sequence of bytes: each byte is added by exclusive or, and the sum multiplied by
a prime. -/
def hash (bytes : List UInt8) : UInt64 :=
  bytes.foldl (fun h b => (h ^^^ b.toUInt64) * 0x100000001b3) 0xcbf29ce484222325

/-- The bytes of a text, with a byte behind them that is in no text. -/
def textBytes (s : String) : List UInt8 := s.toUTF8.data.toList ++ [0xff]

/-- The signature by hashing: no two ranges have the same bytes unless they are alike. -/
def hashed : Signature := fun salt start shape =>
  hash <|
    (if salt then [1] else [0]) ++ textBytes (Text.natText start) ++
      shape.columns.flatMap fun c => textBytes c.name ++ [UInt8.ofNat c.type.code]

end Signature

end RowMapping
