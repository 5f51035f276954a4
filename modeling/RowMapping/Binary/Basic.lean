/-!
# Binary floating-point numbers

A binary floating-point number is a bit pattern: a sign bit, an exponent field and a fraction
field, from the highest bit down.  `Binary.datum` reads a pattern as the number it stands for.  The
two formats in use are `Single` (32 bits) and `Double` (64 bits).
-/

namespace RowMapping

-- a power of a natural number is the one of the core library, whatever else is imported
attribute [scoped instance (high)] instPowNat

/-- The widths of the two lower fields of a binary format. -/
structure Format where
  /-- The width of the fraction field. -/
  fractionBits : Nat
  /-- The width of the exponent field. -/
  exponentBits : Nat
  deriving DecidableEq

namespace Format

/-- The width of a pattern: sign, exponent and fraction. -/
def width (f : Format) : Nat := 1 + f.exponentBits + f.fractionBits

/-- The exponent of the last place of a number below the smallest normal one. -/
def leastExponent (f : Format) : Int := 2 - (2 ^ (f.exponentBits - 1) : Nat) - f.fractionBits

/-- The pattern of infinity without its sign bit; every larger magnitude is not a number. -/
def infinity (f : Format) : Nat := (2 ^ f.exponentBits - 1) * 2 ^ f.fractionBits

/-- The format of 32 bits. -/
def single : Format := ⟨23, 8⟩

/-- The format of 64 bits. -/
def double : Format := ⟨52, 11⟩

end Format

/-- A number in the binary format `f`, as its bit pattern. -/
structure Binary (f : Format) where
  /-- Sign, exponent and fraction. -/
  bits : BitVec f.width
  deriving DecidableEq

/-- A number of 32 bits. -/
abbrev Single := Binary .single

/-- A number of 64 bits. -/
abbrev Double := Binary .double

/-- What a bit pattern stands for. -/
inductive Datum where
  /-- Not a number. -/
  | nan
  /-- An infinity. -/
  | infinite (negative : Bool)
  /-- The number `significand * 2 ^ exponent`, negated if `negative`.  Zero has a sign. -/
  | finite (negative : Bool) (significand : Nat) (exponent : Int)
  deriving DecidableEq

namespace Binary

variable {f : Format}

/-- The sign bit is set. -/
def negative (x : Binary f) : Bool := decide (2 ^ (f.width - 1) ≤ x.bits.toNat)

/-- The pattern without its sign bit. -/
def magnitude (x : Binary f) : Nat := x.bits.toNat % 2 ^ (f.width - 1)

/-- The number that the pattern stands for. -/
def datum (x : Binary f) : Datum :=
  let fraction := x.magnitude % 2 ^ f.fractionBits
  let exponent := x.magnitude / 2 ^ f.fractionBits
  if x.magnitude = f.infinity then .infinite x.negative
  else if f.infinity < x.magnitude then .nan
  else if exponent = 0 then .finite x.negative fraction f.leastExponent
  else .finite x.negative (2 ^ f.fractionBits + fraction) (f.leastExponent + (exponent - 1 : Nat))

/-- The pattern with the given sign and magnitude. -/
def ofMagnitude (negative : Bool) (magnitude : Nat) : Binary f :=
  ⟨BitVec.ofNat _ ((if negative then 2 ^ (f.width - 1) else 0) + magnitude)⟩

/-- The zero of the given sign. -/
def zero (negative : Bool) : Binary f := ofMagnitude negative 0

/-- The quiet pattern that is not a number. -/
def nan : Binary f := ofMagnitude false (f.infinity + 2 ^ (f.fractionBits - 1))

/-- The pattern is not a number. -/
def isNan (x : Binary f) : Bool := decide (f.infinity < x.magnitude)

/-- The pattern is a number other than an infinity. -/
def isFinite (x : Binary f) : Bool := decide (x.magnitude < f.infinity)

/-- Equality as numbers: the two zeros are equal, and what is not a number equals nothing. -/
def numericEq (x y : Binary f) : Bool :=
  !x.isNan && !y.isNan && (decide (x = y) || (x.magnitude == 0 && y.magnitude == 0))

end Binary

end RowMapping
