import RowMapping.Binary.Rounding
import RowMapping.Decimal.Basic

/-!
# Binary numbers near decimal ones

The number of 64 bits for a decimal number is computed in 64 bits throughout: the whole part and
the fraction are rounded one by one and added, and the sum is then rounded to the decimal number's
own places, which removes most of the error of the addition.
-/

namespace RowMapping.Decimal

/-- The rational number nearest to `x` among the numbers of 64 bits. -/
def inDouble (x : Rat) : Rat := ((Binary.ofRat x : Double).toRat?).getD 0

/-- The whole number nearest to a positive `x`; a half goes up. -/
def roundHalfUp (x : Rat) : Int := (x + mkRat 1 2).floor

/-- The magnitude of a decimal number as a number of 64 bits, rounded at each step. -/
def magnitudeInDouble (x : Decimal) : Rat :=
  let unit := 10 ^ x.scale
  let whole := inDouble ((x.coefficient / unit : Nat) : Rat)
  let fraction := x.coefficient % unit
  if fraction = 0 then whole
  else
    let places := inDouble (unit : Nat)
    let sum := inDouble (whole + inDouble (inDouble (fraction : Nat) / places))
    inDouble ((roundHalfUp (inDouble (sum * places)) : Rat) / places)

/-- A decimal number as a number of 64 bits.  A zero without places loses its sign. -/
def toDouble (x : Decimal) : Double :=
  if x.scale = 0 then Binary.ofInt x.signedCoefficient
  else
    let magnitude := x.magnitudeInDouble
    Binary.roundRatio x.negative magnitude.num.natAbs magnitude.den

end RowMapping.Decimal
