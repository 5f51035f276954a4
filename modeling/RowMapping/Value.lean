import RowMapping.Binary.Shortest
import RowMapping.DateTime
import RowMapping.DbType
import RowMapping.Decimal.Basic
import RowMapping.Guid

/-!
# Values

A value is what a cursor delivers for one column of one row.  `Value.null` is the data source's
own mark for a missing value; a column that has no value at all is `none` of `Option Value`.
-/

namespace RowMapping

-- sequences of bytes are compared by the core library, whatever else is imported
attribute [local instance (high)] ByteArray.instDecidableEq

/-- The value of one column in one row. -/
inductive Value where
  /-- No value. -/
  | null
  /-- A truth value. -/
  | bool (b : Bool)
  /-- An integer with sign, of any width. -/
  | signed (n : Int64)
  /-- An integer without sign, of any width. -/
  | unsigned (n : UInt64)
  /-- A binary floating-point number of 32 bits. -/
  | float (x : Single)
  /-- A binary floating-point number of 64 bits. -/
  | double (x : Double)
  /-- A decimal number. -/
  | decimal (x : Decimal)
  /-- A text. -/
  | text (s : String)
  /-- A sequence of bytes. -/
  | bytes (bs : ByteArray)
  /-- A date with a time of day. -/
  | dateTime (t : DateTime)
  /-- A globally unique identifier. -/
  | guid (g : Guid)
  deriving DecidableEq

namespace Value

/-- The value is `null`. -/
def isNull : Value → Bool
  | .null => true
  | _ => false

/-- The column type that is natural for a value; integers have the widest one. -/
def dbType : Value → DbType
  | .null => .null
  | .bool _ => .bool
  | .signed _ => .i64
  | .unsigned _ => .u64
  | .float _ => .f32
  | .double _ => .f64
  | .decimal _ => .decimal
  | .text _ => .text
  | .bytes _ => .bytes
  | .dateTime _ => .dateTime
  | .guid _ => .guid

/-- The name of the kind of a value. -/
def kind : Value → String
  | .null => "null"
  | .bool _ => "bool"
  | .signed _ => "signed integer"
  | .unsigned _ => "unsigned integer"
  | .float _ => "float"
  | .double _ => "double"
  | .decimal _ => "decimal"
  | .text _ => "text"
  | .bytes _ => "bytes"
  | .dateTime _ => "datetime"
  | .guid _ => "guid"

/-- The text that shows a value to a reader; of bytes it shows only how many there are. -/
def display : Value → String
  | .null => "NULL"
  | .bool b => if b then "true" else "false"
  | .signed n => Text.intText n.toInt
  | .unsigned n => Text.natText n.toNat
  | .float x => x.text
  | .double x => x.text
  | .decimal x => x.text
  | .text s => "'" ++ s ++ "'"
  | .bytes bs => "<" ++ Text.natText bs.size ++ " bytes>"
  | .dateTime t => t.text
  | .guid g => g.text

/-- The two values are of one kind and equal as numbers, texts, bytes and so on.  Numbers compare
by value: the two zeros of a binary format are equal, a decimal's scale does not count, and what
is not a number equals nothing. -/
def sameAs : Value → Value → Bool
  | .float x, .float y => x.numericEq y
  | .double x, .double y => x.numericEq y
  | .decimal x, .decimal y => x.numericEq y
  | v, w => decide (v = w)

end Value

end RowMapping
