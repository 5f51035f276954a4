import RowMapping.Text.Numeral

/-!
# Decimal numbers

A decimal number has a sign, a coefficient of at most 96 bits and a scale of at most 28 decimal
places.  The scale belongs to the number: `1.50` and `1.5` are different numbers with the same
value, and so are the two zeros.
-/

namespace RowMapping

/-- A decimal number. -/
structure Decimal where
  /-- The number has a minus sign. -/
  negative : Bool
  /-- The digits without the point. -/
  coefficient : Nat
  /-- The number of digits after the point. -/
  scale : Nat
  coefficient_lt : coefficient < 2 ^ (96 : Nat)
  scale_le : scale ≤ 28
  deriving DecidableEq

namespace Decimal

/-- The number with the given parts, if they are in range. -/
def ofParts? (negative : Bool) (coefficient scale : Nat) : Option Decimal :=
  if h : coefficient < 2 ^ (96 : Nat) ∧ scale ≤ 28 then
    some ⟨negative, coefficient, scale, h.1, h.2⟩
  else none

/-- An integer of at most 64 bits. -/
def ofInt (n : Int) (h : n.natAbs < 2 ^ (64 : Nat)) : Decimal where
  negative := decide (n < 0)
  coefficient := n.natAbs
  scale := 0
  coefficient_lt := Nat.lt_trans h (by decide)
  scale_le := by decide

/-- A signed integer. -/
def ofSigned (n : Int64) : Decimal :=
  ofInt n.toInt (by have := n.le_toInt; have := n.toInt_lt; omega)

/-- An unsigned integer. -/
def ofUnsigned (n : UInt64) : Decimal :=
  ofInt n.toNat (by have := n.toNat_lt; omega)

/-- One or zero. -/
def ofBool (b : Bool) : Decimal := ofInt b.toNat (by cases b <;> decide)

/-- The number zero, of scale zero. -/
def zero : Decimal := ofBool false

/-- A coefficient without its last `n` digits, rounded; a half is rounded up. -/
def dropDigits (n coefficient : Nat) : Nat := (2 * coefficient + 10 ^ n) / (2 * 10 ^ n)

variable (x y : Decimal)

/-- The coefficient with its sign. -/
def signedCoefficient : Int := if x.negative then -(x.coefficient : Int) else x.coefficient

/-- The whole part; the fraction is dropped. -/
def truncate : Int := x.signedCoefficient.tdiv (10 ^ x.scale : Nat)

/-- Equality of values, whatever the scales. -/
def numericEq : Bool :=
  x.signedCoefficient * (10 ^ y.scale : Nat) == y.signedCoefficient * (10 ^ x.scale : Nat)

/-- The text of a number, with as many places as its scale says. -/
def text : String :=
  let unit := 10 ^ x.scale
  let whole := Text.natText (x.coefficient / unit)
  (if x.negative then "-" else "") ++ whole ++
    (if x.scale = 0 then "" else "." ++ Text.zeroPadded x.scale (x.coefficient % unit))

end Decimal

end RowMapping
