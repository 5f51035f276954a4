import RowMapping.Binary.Basic

/-!
# Rounding to a binary format

`Binary.roundRatio` takes an exact quotient to the nearest number of a format, the even neighbour
in a tie.  Conversions from integers, from rational numbers and between formats are rounded by it;
`Binary.truncate` goes the other way, to an integer in a given interval.
-/

namespace RowMapping

/-- The quotient rounded to the nearest natural number, to the even one in a tie. -/
def divNearestEven (num den : Nat) : Nat :=
  let q := num / den
  let r := num % den
  if 2 * r < den then q
  else if den < 2 * r then q + 1
  else if q % 2 = 0 then q else q + 1

/-- The integer `e` such that `2 ^ e ≤ num / den < 2 ^ (e + 1)`, for positive numbers. -/
def log2Ratio (num den : Nat) : Int :=
  let e : Int := (Nat.log2 num : Int) - Nat.log2 den
  if den * 2 ^ e.toNat ≤ num * 2 ^ (-e).toNat then e else e - 1

namespace Binary

variable {f g : Format}

/-- The number nearest to `num / den`, with the given sign; infinity if that is too large. -/
def roundRatio (negative : Bool) (num den : Nat) : Binary f :=
  if num = 0 then zero negative
  else
    let exponent := max f.leastExponent (log2Ratio num den - f.fractionBits)
    let significand := divNearestEven (num * 2 ^ (-exponent).toNat) (den * 2 ^ exponent.toNat)
    let magnitude := (exponent - f.leastExponent).toNat * 2 ^ f.fractionBits + significand
    ofMagnitude negative (min magnitude f.infinity)

/-- The number nearest to an integer. -/
def ofInt (n : Int) : Binary f := roundRatio (decide (n < 0)) n.natAbs 1

/-- The number nearest to a rational number. -/
def ofRat (x : Rat) : Binary f := roundRatio (decide (x.num < 0)) x.num.natAbs x.den

/-- The exact value of a finite number. -/
def toRat? (x : Binary f) : Option Rat :=
  match x.datum with
  | .finite negative significand exponent =>
    let magnitude : Rat := mkRat (significand * 2 ^ exponent.toNat) (2 ^ (-exponent).toNat)
    some (if negative then -magnitude else magnitude)
  | _ => none

/-- The nearest number in another format; signs of zero and infinity are kept. -/
def convert (x : Binary f) : Binary g :=
  match x.datum with
  | .nan => nan
  | .infinite negative => ofMagnitude negative g.infinity
  | .finite negative significand exponent =>
    roundRatio negative (significand * 2 ^ exponent.toNat) (2 ^ (-exponent).toNat)

/-- The number without its fraction, moved to the nearest end if it lies outside `lo` to `hi`.
What is not a number gives zero. -/
def truncate (lo hi : Int) (x : Binary f) : Int :=
  match x.datum with
  | .nan => 0
  | .infinite negative => if negative then lo else hi
  | .finite negative significand exponent =>
    let whole : Int := (significand * 2 ^ exponent.toNat / 2 ^ (-exponent).toNat : Nat)
    max lo (min hi (if negative then -whole else whole))

end Binary

end RowMapping
