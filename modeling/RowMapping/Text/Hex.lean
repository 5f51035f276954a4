/-!
# Hexadecimal digits

Bytes are written with two small hexadecimal digits each; capital digits are read as well.
-/

namespace RowMapping.Text

/-- The small hexadecimal digit of a number below sixteen. -/
def hexDigit (n : Nat) : Char := Nat.digitChar (n % 16)

/-- The value of a hexadecimal digit of either case. -/
def hexValue? (c : Char) : Option Nat :=
  if c.isDigit then some (c.toNat - 48)
  else if 'a' ≤ c ∧ c ≤ 'f' then some (c.toNat - 87)
  else if 'A' ≤ c ∧ c ≤ 'F' then some (c.toNat - 55)
  else none

/-- The two digits of a byte. -/
def hexByte (b : UInt8) : List Char := [hexDigit (b.toNat / 16), hexDigit b.toNat]

/-- The digits of a sequence of bytes. -/
def hexBytes (bs : List UInt8) : List Char := bs.flatMap hexByte

/-- The bytes that a sequence of digits denotes, two digits for each. -/
def readHexBytes? : List Char → Option (List UInt8)
  | [] => some []
  | [_] => none
  | high :: low :: cs => do
    let h ← hexValue? high
    let l ← hexValue? low
    let bs ← readHexBytes? cs
    some (UInt8.ofNat (h * 16 + l) :: bs)

end RowMapping.Text
