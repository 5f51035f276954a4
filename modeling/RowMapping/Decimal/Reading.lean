import RowMapping.Decimal.Basic

/-!
# Reading decimal numbers

A decimal numeral is an optional sign, digits with at most one point, and optionally `e` or `E`
with an exponent of ten.  After the first digit underscores may separate digits.  Places that do
not fit are cut off, rounding by the first of them; a whole part that does not fit is refused.  A
zero that is read has no sign, but one that comes about by an exponent keeps it.
-/

namespace RowMapping.Decimal

/-- What has been read of a numeral. -/
structure Reading where
  /-- The digits, read as one number. -/
  coefficient : Nat := 0
  /-- The number of places after the point. -/
  scale : Nat := 0
  /-- The point has been read. -/
  pointed : Bool := false
  /-- At least one digit has been read. -/
  started : Bool := false

namespace Reading

variable (r : Reading)

/-- The number that has been read.  A zero has no sign. -/
def toDecimal? (negative : Bool) : Option Decimal :=
  if r.started then ofParts? (negative && r.coefficient != 0) r.coefficient r.scale else none

/-- The number rounded by the digit `next`, the first one that is cut off.  A half is rounded up,
and if the coefficient then has too many bits, its last place is dropped. -/
def round? (negative : Bool) (next : Nat) : Option Decimal :=
  if next < 5 then r.toDecimal? negative
  else if r.coefficient + 1 < 2 ^ (96 : Nat) then
    ({ r with coefficient := r.coefficient + 1 } : Reading).toDecimal? negative
  else if r.scale = 0 then none
  else
    let coefficient := dropDigits 1 r.coefficient
    ({ r with coefficient, scale := r.scale - 1 } : Reading).toDecimal? negative

/-- A coefficient below this bound is sure to have room for another digit in 64 bits. -/
def wordBound : Nat := (2 ^ (64 : Nat) - 1) / 10 - 255

/-- The coefficient was too long for a word of 64 bits before its last digit was read. -/
def isLong : Bool := decide (wordBound ≤ r.coefficient / 10)

/-- The character may stand among the places that are cut off. -/
def isSurplus (c : Char) : Bool := c.isDigit || c == '_'

/-- The number with the places in `cs` cut off.  Underscores before the first of them are passed
over if the coefficient is long; behind a short one an underscore is like the digit zero. -/
def cut? (negative : Bool) (cs : List Char) : Option Decimal :=
  match if r.isLong then cs.dropWhile (· == '_') else cs with
  | [] => r.toDecimal? negative
  | c :: rest =>
    if (c :: rest).all isSurplus then r.round? negative ((Text.digitValue c).getD 0) else none

/-- Reads the rest of a numeral. -/
def finish? (negative : Bool) : Reading → List Char → Option Decimal
  | r, [] => r.toDecimal? negative
  | r, c :: cs =>
    if r.pointed && r.scale == 28 then r.cut? negative (c :: cs)
    else
      match Text.digitValue c with
      | some d =>
        let coefficient := r.coefficient * 10 + d
        if coefficient < 2 ^ (96 : Nat) then
          finish? negative ⟨coefficient, if r.pointed then r.scale + 1 else 0, r.pointed, true⟩ cs
        else if r.pointed then r.cut? negative (c :: cs)
        else none
      | none =>
        if c = '.' && !r.pointed then finish? negative { r with pointed := true } cs
        else if c = '_' && r.started then finish? negative r cs
        else none

end Reading

/-- The number that a numeral without exponent denotes. -/
def readPlain? : List Char → Option Decimal
  | '-' :: cs => Reading.finish? true {} cs
  | '+' :: cs => Reading.finish? false {} cs
  | cs => Reading.finish? false {} cs

/-- The number times `10 ^ n`, if it is in range. -/
def scaleUp? (x : Decimal) (n : Nat) : Option Decimal :=
  if n ≤ x.scale then ofParts? x.negative x.coefficient (x.scale - n)
  else ofParts? x.negative (x.coefficient * 10 ^ (n - x.scale)) 0

/-- The number divided by `10 ^ n`, rounded to 28 places. -/
def scaleDown? (x : Decimal) (n : Nat) : Option Decimal :=
  ofParts? x.negative (dropDigits (x.scale + n - 28) x.coefficient) (min (x.scale + n) 28)

/-- The exponent of ten that a text denotes: a number up to 28. -/
def readExponent? (cs : List Char) : Option Nat :=
  match Text.readUnsigned (String.ofList cs) with
  | .ok n => if n ≤ 28 then some n else none
  | .error _ => none

/-- The number that a numeral denotes. -/
def read? (s : String) : Option Decimal :=
  let isMark (c : Char) : Bool := c == 'e' || c == 'E'
  let base := s.toList.takeWhile (!isMark ·)
  match s.toList.dropWhile (!isMark ·) with
  | [] => readPlain? base
  | _ :: '-' :: exponent => do scaleDown? (← readPlain? base) (← readExponent? exponent)
  | _ :: exponent => do scaleUp? (← readPlain? base) (← readExponent? exponent)

end RowMapping.Decimal
