import RowMapping.Binary.Basic
import RowMapping.Text.Numeral

/-!
# The shortest decimal text of a binary number

A finite number is written with the fewest digits that read back as the same number, and with the
digits nearest to it among those.  The text is always positional, however long it gets.
-/

namespace RowMapping

/-- A positive decimal number, `digits * 10 ^ exponent`. -/
structure Scientific where
  /-- The digits, read as one number. -/
  digits : Nat
  /-- The power of ten of the last digit. -/
  exponent : Int
  deriving DecidableEq

namespace Scientific

/-- The number of digits of `n`; zero has one. -/
def digitCount (n : Nat) : Nat := (Nat.toDigits 10 n).length

/-- The positional text: no point in a whole number, a zero before the point of a fraction. -/
def text (x : Scientific) : String :=
  if 0 ≤ x.exponent then Text.natText (x.digits * 10 ^ x.exponent.toNat)
  else
    let places := (-x.exponent).toNat
    Text.natText (x.digits / 10 ^ places) ++ "." ++
      Text.zeroPadded places (x.digits % 10 ^ places)

/-- The number without zeros at its end. -/
def stripZeros : (fuel : Nat) → Scientific → Scientific
  | 0, x => x
  | fuel + 1, x =>
    if x.digits % 10 = 0 ∧ x.digits ≠ 0 then stripZeros fuel ⟨x.digits / 10, x.exponent + 1⟩ else x

end Scientific

/-- The positive numbers that round to one binary number: those between `num - below` and
`num + above`, each over `den`, where `num / den` is the binary number itself. -/
structure Neighbourhood where
  /-- The numerator of the number. -/
  num : Nat
  /-- The common denominator. -/
  den : Nat
  /-- The distance to the lower end. -/
  below : Nat
  /-- The distance to the upper end. -/
  above : Nat
  /-- Both ends belong to the neighbourhood. -/
  closed : Bool

namespace Neighbourhood

/-- The numbers that round to `significand * 2 ^ exponent`.  The gap below a power of two is half
the gap above it, and a tie goes to the even significand. -/
def of (f : Format) (significand : Nat) (exponent : Int) : Neighbourhood :=
  let scale := 2 ^ (exponent - 2).toNat
  { num := 4 * significand * scale
    den := 2 ^ (2 - exponent).toNat
    below := (if significand = 2 ^ f.fractionBits then 1 else 2) * scale
    above := 2 * scale
    closed := significand % 2 == 0 }

variable (n : Neighbourhood)

/-- The decimal number lies in the neighbourhood. -/
def contains (x : Scientific) : Bool :=
  let v := x.digits * 10 ^ x.exponent.toNat * n.den
  let unit := 10 ^ (-x.exponent).toNat
  if n.closed then decide ((n.num - n.below) * unit ≤ v) && decide (v ≤ (n.num + n.above) * unit)
  else decide ((n.num - n.below) * unit < v) && decide (v < (n.num + n.above) * unit)

/-- The number of digits before the decimal point of `num / den`, zero or negative for fractions
below one tenth. -/
def wholeDigits : Int :=
  let e : Int := (Scientific.digitCount n.num : Int) - Scientific.digitCount n.den
  if n.den * 10 ^ e.toNat ≤ n.num * 10 ^ (-e).toNat then e + 1 else e

/-- The two neighbours of `num / den` with last digit at `10 ^ exponent`; they are equal to it or
lie on either side. -/
def candidates (exponent : Int) : Scientific × Scientific :=
  let q := n.num * 10 ^ (-exponent).toNat / (n.den * 10 ^ exponent.toNat)
  (⟨q, exponent⟩, ⟨q + 1, exponent⟩)

/-- The upper candidate is at least as near to `num / den` as the lower one. -/
def nearerAbove (exponent : Int) : Bool :=
  let unit := n.den * 10 ^ exponent.toNat
  decide (unit ≤ 2 * (n.num * 10 ^ (-exponent).toNat % unit))

/-- The best number in the neighbourhood with last digit at `10 ^ exponent`, if there is one. -/
def at? (exponent : Int) : Option Scientific :=
  let (low, high) := n.candidates exponent
  match n.contains low, n.contains high with
  | true, true => some (if n.nearerAbove exponent then high else low)
  | true, false => some low
  | false, true => some high
  | false, false => none

/-- The shortest number in the neighbourhood.  Seventeen digits are enough for every format in
use. -/
def shortest : Scientific :=
  let found := (List.range 17).findSome? fun k => n.at? (n.wholeDigits - 1 - (k : Nat))
  (found.getD (n.candidates (n.wholeDigits - 17)).1).stripZeros 17

end Neighbourhood

namespace Binary

variable {f : Format}

/-- The text of a number: shortest digits, positional, with a minus sign also before zero. -/
def text (x : Binary f) : String :=
  let signed (negative : Bool) (t : String) := if negative then "-" ++ t else t
  match x.datum with
  | .nan => "NaN"
  | .infinite negative => signed negative "inf"
  | .finite negative significand exponent =>
    signed negative <|
      if significand = 0 then "0" else (Neighbourhood.of f significand exponent).shortest.text

end Binary

end RowMapping
