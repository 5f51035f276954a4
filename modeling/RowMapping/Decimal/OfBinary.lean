import RowMapping.Binary.Basic
import RowMapping.Decimal.Basic

/-!
# Decimal numbers near binary ones

A finite binary number is turned into a decimal one of about as many significant digits as its
format is sure of.  A whole number is taken as it is.  Otherwise the powers of two are first
exchanged for powers of ten, one at a time and in 96 bits, by `1/2 = 5/10`; then surplus digits are
rounded away.  The sign is kept, also of a number of which no digit is left.
-/

namespace RowMapping.Decimal

/-- The number `coefficient * 10 ^ exponent`. -/
structure Draft where
  /-- The digits, read as one number. -/
  coefficient : Nat
  /-- The power of ten of the last digit. -/
  exponent : Int

namespace Draft

variable (x : Draft)

/-- Half of a number; its last bit is lost if five times the number has more than 96 bits. -/
def half : Draft :=
  if x.coefficient % 2 = 0 then { x with coefficient := x.coefficient / 2 }
  else if x.coefficient * 5 < 2 ^ (96 : Nat) then ⟨x.coefficient * 5, x.exponent - 1⟩
  else { x with coefficient := x.coefficient / 2 }

/-- The number rounded to one digit less; a half is rounded up. -/
def dropDigit : Draft := ⟨dropDigits 1 x.coefficient, x.exponent + 1⟩

/-- Drops digits until there are at most 28 places.  A number with no digit left is zero. -/
def limitPlaces : (fuel : Nat) → Draft → Draft
  | 0, x => x
  | fuel + 1, x =>
    if -28 ≤ x.exponent then x
    else if x.coefficient < 10 then ⟨0, 0⟩
    else limitPlaces fuel x.dropDigit

/-- Drops decimal places while the coefficient is not below `limit`. -/
def limitDigits (limit : Nat) : (fuel : Nat) → Draft → Draft
  | 0, x => x
  | fuel + 1, x =>
    if x.exponent < 0 ∧ limit ≤ x.coefficient then limitDigits limit fuel x.dropDigit else x

/-- Drops decimal places that hold a zero. -/
def dropZeros : (fuel : Nat) → Draft → Draft
  | 0, x => x
  | fuel + 1, x =>
    if x.exponent < 0 ∧ x.coefficient % 10 = 0 then
      dropZeros fuel ⟨x.coefficient / 10, x.exponent + 1⟩
    else x

/-- The number `significand / 2 ^ n`, as far as 96 bits hold it. -/
def ofFraction (significand n : Nat) : Draft := Nat.repeat half n ⟨significand, 0⟩

end Draft

/-- The decimal number nearest to a datum, with a coefficient below `limit` unless the number is
whole.  There is none for a number that is too large, an infinity or what is not a number. -/
def ofDatum? (limit : Nat) : Datum → Option Decimal
  | .nan => none
  | .infinite _ => none
  | .finite negative significand exponent =>
    if 0 ≤ exponent then ofParts? negative (significand * 2 ^ exponent.toNat) 0
    else
      let x := Draft.ofFraction significand (-exponent).toNat
      let y := x.limitPlaces (-x.exponent).toNat
      let z := (y.limitDigits limit 28).dropZeros 28
      ofParts? negative z.coefficient (-z.exponent).toNat

/-- The decimal number nearest to a number of 64 bits, to about 15 digits. -/
def ofDouble? (x : Double) : Option Decimal := ofDatum? (2 ^ (52 : Nat)) x.datum

/-- The decimal number nearest to a number of 32 bits, to about 7 digits. -/
def ofSingle? (x : Single) : Option Decimal := ofDatum? (2 ^ (24 : Nat)) x.datum

end RowMapping.Decimal
