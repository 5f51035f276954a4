/-!
# Column types

The types that a cursor reports for its columns, and the integer types among them.  An integer of
some type is kept modulo a power of two: `IntType.wrap` is the representative that the type holds.
-/

namespace RowMapping

/-- The width of an integer type. -/
inductive IntWidth where
  | w8
  | w16
  | w32
  | w64
  deriving DecidableEq

/-- The number of bits of an integer. -/
def IntWidth.bits : IntWidth → Nat
  | .w8 => 8
  | .w16 => 16
  | .w32 => 32
  | .w64 => 64

/-- An integer type: with or without sign, of some width. -/
structure IntType where
  /-- The type has negative numbers. -/
  signed : Bool
  /-- The width. -/
  width : IntWidth
  deriving DecidableEq

namespace IntType

variable (t : IntType)

/-- The number of bits of an integer. -/
def bits : Nat := t.width.bits

/-- The least integer of the type. -/
def least : Int := if t.signed then -(2 ^ (t.bits - 1) : Nat) else 0

/-- The greatest integer of the type. -/
def greatest : Int := if t.signed then (2 ^ (t.bits - 1) : Nat) - 1 else (2 ^ t.bits : Nat) - 1

/-- The integer of the type that is congruent to `n` modulo `2 ^ bits`. -/
def wrap (n : Int) : Int := if t.signed then n.bmod (2 ^ t.bits) else n % (2 ^ t.bits : Nat)

/-- The name of the type. -/
def name : String :=
  (if t.signed then "I" else "U") ++
    match t.width with
    | .w8 => "8"
    | .w16 => "16"
    | .w32 => "32"
    | .w64 => "64"

end IntType

/-- The type of a column. -/
inductive DbType where
  /-- A column that was given no type. -/
  | null
  | bool
  | int (type : IntType)
  /-- Binary floating-point numbers of 32 bits. -/
  | f32
  /-- Binary floating-point numbers of 64 bits. -/
  | f64
  | decimal
  | text
  | bytes
  | dateTime
  | guid
  deriving DecidableEq

namespace DbType

/-- The signed integers of eight bits. -/
abbrev i8 : DbType := .int ⟨true, .w8⟩
/-- The signed integers of 16 bits. -/
abbrev i16 : DbType := .int ⟨true, .w16⟩
/-- The signed integers of 32 bits. -/
abbrev i32 : DbType := .int ⟨true, .w32⟩
/-- The signed integers of 64 bits. -/
abbrev i64 : DbType := .int ⟨true, .w64⟩
/-- The unsigned integers of eight bits. -/
abbrev u8 : DbType := .int ⟨false, .w8⟩
/-- The unsigned integers of 16 bits. -/
abbrev u16 : DbType := .int ⟨false, .w16⟩
/-- The unsigned integers of 32 bits. -/
abbrev u32 : DbType := .int ⟨false, .w32⟩
/-- The unsigned integers of 64 bits. -/
abbrev u64 : DbType := .int ⟨false, .w64⟩

/-- Every column type, in the order of the codes. -/
def all : List DbType :=
  [.null, .bool, i8, i16, i32, i64, u8, u16, u32, u64, .f32, .f64, .decimal, .text, .bytes,
    .dateTime, .guid]

/-- The number that stands for a type. -/
def code (t : DbType) : Nat := all.idxOf t

/-- The name of a type. -/
def name : DbType → String
  | .null => "Null"
  | .bool => "Bool"
  | .int type => type.name
  | .f32 => "F32"
  | .f64 => "F64"
  | .decimal => "Decimal"
  | .text => "Text"
  | .bytes => "Bytes"
  | .dateTime => "DateTime"
  | .guid => "Guid"

/-- The type of the given name. -/
def ofName? (s : String) : Option DbType := all.find? fun t => t.name = s

/-- Integers with sign. -/
def isSignedInteger : DbType → Bool
  | .int type => type.signed
  | _ => false

/-- Integers without sign. -/
def isUnsignedInteger : DbType → Bool
  | .int type => !type.signed
  | _ => false

/-- Integers of any width. -/
def isInteger : DbType → Bool
  | .int _ => true
  | _ => false

/-- Binary floating-point numbers. -/
def isFloat : DbType → Bool
  | .f32 | .f64 => true
  | _ => false

/-- Integers, binary and decimal numbers and truth values, which all convert between each
other. -/
def isNumeric : DbType → Bool
  | .int _ | .f32 | .f64 | .decimal | .bool => true
  | _ => false

/-- The width of an integer type in bits. -/
def integerBits? : DbType → Option Nat
  | .int type => some type.bits
  | _ => none

end DbType

end RowMapping
