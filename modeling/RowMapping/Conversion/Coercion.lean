import RowMapping.Binary.Rounding
import RowMapping.Conversion.Destination
import RowMapping.Decimal.OfBinary
import RowMapping.Decimal.Reading
import RowMapping.Decimal.ToBinary
import RowMapping.Text.Fold

/-!
# Coercion to a column type

`coerce` turns a value into one of the kind that belongs to a column type.  Numbers never fail for
being too large: integers are taken modulo a power of two, binary numbers lose their fraction and
stop at the ends of an integer type, decimal numbers lose their fraction.  Null stays null.
-/

namespace RowMapping

namespace Value

/-- The whole number that a value stands for; a decimal number loses its fraction. -/
def integral? : Value → Option Int
  | .bool b => some b.toNat
  | .signed n => some n.toInt
  | .unsigned n => some n.toNat
  | .decimal x => some x.truncate
  | _ => none

/-- The number of 64 bits nearest to a value. -/
def toDouble? : Value → Option Double
  | .bool b => some (Binary.ofInt b.toNat)
  | .signed n => some (Binary.ofInt n.toInt)
  | .unsigned n => some (Binary.ofInt n.toNat)
  | .float x => some x.convert
  | .double x => some x
  | .decimal x => some x.toDouble
  | _ => none

/-- The value for an integer of a type, taken modulo its size. -/
def ofInt (t : IntType) (n : Int) : Value :=
  if t.signed then .signed (Int64.ofInt (t.wrap n)) else .unsigned (UInt64.ofInt (t.wrap n))

/-- The value as an integer of a type. -/
def toInteger? (t : IntType) : Value → Option Value
  | .float x => some (ofInt t (x.truncate t.least t.greatest))
  | .double x => some (ofInt t (x.truncate t.least t.greatest))
  | v => v.integral?.map (ofInt t)

/-- The value as a truth value: a text that says so, or whether a whole number is not zero. -/
def toBool? : Value → Option Bool
  | .bool b => some b
  | .text s =>
    if Text.sameName s "true" then some true
    else if Text.sameName s "false" then some false
    else none
  | v => v.integral?.map (· != 0)

end Value

namespace Coercion

/-- The result if there is one, and otherwise the error that the value does not convert. -/
def orMismatch (v : Value) (wanted : DbType) : Option Value → Except Error Value
  | some w => .ok w
  | none => .error (.conversion (.mismatch v wanted))

/-- The value as a decimal number. -/
def toDecimal (v : Value) : Except Error Value :=
  match v with
  | .text s =>
    match Decimal.read? (Text.trim s) with
    | some x => .ok (.decimal x)
    | none => .error (.conversion (.invalidDecimal s))
  | .decimal x => .ok (.decimal x)
  | .bool b => .ok (.decimal (.ofBool b))
  | .signed n => .ok (.decimal (.ofSigned n))
  | .unsigned n => .ok (.decimal (.ofUnsigned n))
  | .float x => orMismatch v .decimal ((Decimal.ofSingle? x).map .decimal)
  | .double x => orMismatch v .decimal ((Decimal.ofDouble? x).map .decimal)
  | _ => orMismatch v .decimal none

/-- The value as a text: bytes have to be the encoding of one. -/
def toText (v : Value) : Except Error Value :=
  match v with
  | .text s => .ok (.text s)
  | .bytes bs =>
    match String.fromUTF8? bs with
    | some s => .ok (.text s)
    | none => .error (.conversion .invalidEncoding)
  | .guid g => .ok (.text g.text)
  | _ => orMismatch v .text none

/-- The value as a sequence of bytes. -/
def toBytes (v : Value) : Except Error Value :=
  match v with
  | .bytes bs => .ok (.bytes bs)
  | .text s => .ok (.bytes s.toUTF8)
  | .guid g => .ok (.bytes ⟨g.bytes.toArray⟩)
  | _ => orMismatch v .bytes none

/-- The value as an identifier. -/
def toGuid (v : Value) : Except Error Value :=
  match v with
  | .guid g => .ok (.guid g)
  | .text s =>
    match Guid.read? (Text.trim s) with
    | some g => .ok (.guid g)
    | none => .error (.conversion (.invalidGuid s))
  | .bytes bs =>
    match Guid.ofBytes? bs.data.toList with
    | some g => .ok (.guid g)
    | none => .error (.conversion (.guidLength bs.size))
  | _ => orMismatch v .guid none

/-- The value as a date with a time of day. -/
def toDateTime (v : Value) : Except Error Value :=
  match v with
  | .dateTime t => .ok (.dateTime t)
  | .text s =>
    match DateTime.read? s with
    | some t => .ok (.dateTime t)
    | none => .error (.conversion (.invalidDateTime s))
  | _ => orMismatch v .dateTime none

end Coercion

/-- The value in the kind that belongs to a column type.  A column without a type takes every
value. -/
def coerce (v : Value) (wanted : DbType) : Except Error Value :=
  if v.isNull then .ok .null
  else
    match wanted with
    | .null => .ok v
    | .bool => Coercion.orMismatch v wanted (v.toBool?.map .bool)
    | .int t => Coercion.orMismatch v wanted (v.toInteger? t)
    | .f32 =>
      match v with
      | .float x => .ok (.float x)
      | _ => Coercion.orMismatch v wanted (v.toDouble?.map fun x => .float x.convert)
    | .f64 => Coercion.orMismatch v wanted (v.toDouble?.map .double)
    | .decimal => Coercion.toDecimal v
    | .text => Coercion.toText v
    | .bytes => Coercion.toBytes v
    | .guid => Coercion.toGuid v
    | .dateTime => Coercion.toDateTime v

end RowMapping
