import RowMapping.Conversion.Rule

/-!
# The scalar types

`ScalarType` lists the destination types that are built from a single value: numbers, texts and so
on, enumerations, all values, and optional ones.  `ScalarType.destination` is how each of them is
built.
-/

namespace RowMapping

/-- The integers of a type. -/
def IntType.Carrier (t : IntType) : Type := { n : Int // t.least ≤ n ∧ n ≤ t.greatest }

namespace IntType

variable (t : IntType)

theorem wrap_mem (n : Int) : t.least ≤ t.wrap n ∧ t.wrap n ≤ t.greatest := by
  obtain ⟨signed, width⟩ := t
  have hmod (m : Nat) (hm : 0 < m) : 0 ≤ n % m ∧ n % m < m :=
    ⟨Int.emod_nonneg _ (by omega), Int.emod_lt_of_pos _ (by omega)⟩
  cases signed
  · have := hmod (2 ^ width.bits) (Nat.two_pow_pos _)
    simp only [wrap, least, greatest, bits, Bool.false_eq_true, if_false]
    omega
  · have hlow := Int.le_bmod (x := n) (m := 2 ^ width.bits) (Nat.two_pow_pos _)
    have hhigh := Int.bmod_lt (x := n) (m := 2 ^ width.bits) (Nat.two_pow_pos _)
    simp only [wrap, least, greatest, bits, if_true]
    cases width <;> simp only [IntWidth.bits] at hlow hhigh ⊢ <;> omega

/-- The integer of the type that is congruent to `n`. -/
def wrapped (n : Int) : t.Carrier := ⟨t.wrap n, t.wrap_mem n⟩

end IntType

/-- An enumeration with at least one variant. -/
structure EnumType where
  /-- The name of the type. -/
  name : String
  /-- The variants in their order. -/
  variants : List EnumVariant
  variants_ne : variants ≠ []
  deriving DecidableEq

namespace EnumType

variable (e : EnumType)

/-- The variant for a missing value. -/
def defaultVariant : Fin e.variants.length :=
  ((e.variants.findFinIdx? fun x => decide (x.value = 0)).getD
    ⟨0, List.length_pos_iff.2 e.variants_ne⟩)

/-- How a variant is built from a value. -/
def destination : Destination (Fin e.variants.length) where
  info := .enumeration (.declared e.name) e.variants
  ofValue v := if v.isNull then .ok e.defaultVariant else Enumeration.find e.variants v
  ofNull := .ok e.defaultVariant

end EnumType

namespace Destination

variable {α : Type}

/-- A type whose objects are picked from values of one kind.  A value of another kind is coerced
first, and null stands for the object `missing`. -/
def ofPick (typeId : TypeId) (dbType : DbType) (pick : Value → Option α) (missing : α) :
    Destination α where
  info := .scalar typeId dbType
  ofValue v :=
    match pick v with
    | some x => .ok x
    | none =>
      if v.isNull then .ok missing
      else do
        let w ← coerce v dbType
        match pick w with
        | some x => .ok x
        | none => .error (.conversion (.mismatch w dbType))
  ofNull := .ok missing

/-- The integers of a type. -/
def int (t : IntType) : Destination t.Carrier :=
  ofPick (.int t) (.int t)
    (fun
      | .signed n => if t.signed then some (t.wrapped n.toInt) else none
      | .unsigned n => if t.signed then none else some (t.wrapped n.toNat)
      | _ => none)
    (t.wrapped 0)

/-- Truth values. -/
def bool : Destination Bool :=
  ofPick .bool .bool (fun | .bool b => some b | _ => none) false

/-- Binary numbers of 32 bits. -/
def single : Destination Single :=
  ofPick .single .f32 (fun | .float x => some x | _ => none) (Binary.zero false)

/-- Binary numbers of 64 bits. -/
def double : Destination Double :=
  ofPick .double .f64 (fun | .double x => some x | _ => none) (Binary.zero false)

/-- Decimal numbers. -/
def decimal : Destination Decimal :=
  ofPick .decimal .decimal (fun | .decimal x => some x | _ => none) .zero

/-- Texts. -/
def text : Destination String :=
  ofPick .text .text (fun | .text s => some s | _ => none) ""

/-- Sequences of bytes. -/
def bytes : Destination ByteArray :=
  ofPick .bytes .bytes (fun | .bytes bs => some bs | _ => none) .empty

/-- Dates with a time of day. -/
def dateTime : Destination DateTime :=
  ofPick .dateTime .dateTime (fun | .dateTime t => some t | _ => none) .epoch

/-- Identifiers. -/
def guid : Destination Guid :=
  ofPick .guid .guid (fun | .guid g => some g | _ => none) .nil

/-- All values, as they are. -/
def value : Destination Value := ⟨.any, .ok, .ok .null⟩

end Destination

/-- The types that are built from a single value. -/
inductive ScalarType where
  | int (type : IntType)
  | bool
  | single
  | double
  | decimal
  | text
  | bytes
  | dateTime
  | guid
  | value
  | enumeration (type : EnumType)
  /-- The objects of a type and a missing one. -/
  | option (inner : ScalarType)
  deriving DecidableEq

namespace ScalarType

/-- The objects of a type. -/
def Carrier : ScalarType → Type
  | .int t => t.Carrier
  | .bool => Bool
  | .single => Single
  | .double => Double
  | .decimal => Decimal
  | .text => String
  | .bytes => ByteArray
  | .dateTime => DateTime
  | .guid => Guid
  | .value => Value
  | .enumeration e => Fin e.variants.length
  | .option t => Option t.Carrier

/-- How the objects of a type are built. -/
def destination : (t : ScalarType) → Destination t.Carrier
  | .int t => .int t
  | .bool => .bool
  | .single => .single
  | .double => .double
  | .decimal => .decimal
  | .text => .text
  | .bytes => .bytes
  | .dateTime => .dateTime
  | .guid => .guid
  | .value => .value
  | .enumeration e => e.destination
  | .option t => t.destination.option

end ScalarType

end RowMapping
