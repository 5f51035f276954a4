/-!
# Decimal numerals

Writing natural numbers and integers in decimal, with and without leading zeros, and reading an
unsigned number of 64 bits.  A numeral that cannot be read is refused with the first fault from
the left.
-/

namespace RowMapping.Text

/-- The decimal numeral of a natural number, without leading zeros. -/
def natText (n : Nat) : String := String.ofList (Nat.toDigits 10 n)

/-- The decimal numeral of an integer; a negative one starts with a minus sign. -/
def intText : Int → String
  | .ofNat n => natText n
  | .negSucc n => "-" ++ natText (n + 1)

/-- The decimal numeral of `n`, filled up to `width` digits with leading zeros. -/
def zeroPadded (width n : Nat) : String :=
  let digits := Nat.toDigits 10 n
  String.ofList (List.replicate (width - digits.length) '0' ++ digits)

/-- The value of a decimal digit. -/
def digitValue (c : Char) : Option Nat := if c.isDigit then some (c.toNat - 48) else none

/-- The number that a list of digit values denotes. -/
def ofDigits (ds : List Nat) : Nat := ds.foldl (fun n d => n * 10 + d) 0

/-- The leading decimal digits of `cs`, at most `limit` of them, as values, and what follows. -/
def splitDigits : (limit : Nat) → (cs : List Char) → List Nat × List Char
  | 0, cs => ([], cs)
  | _, [] => ([], [])
  | limit + 1, c :: cs =>
    match digitValue c with
    | some d => let (ds, rest) := splitDigits limit cs; (d :: ds, rest)
    | none => ([], c :: cs)

/-- Why a text is not an unsigned number of 64 bits. -/
inductive NumeralFault where
  /-- There is no character at all. -/
  | empty
  /-- A character is not a digit, or a sign stands alone. -/
  | invalidDigit
  /-- The number does not fit. -/
  | tooLarge
  deriving DecidableEq

/-- The wording of a fault. -/
def NumeralFault.message : NumeralFault → String
  | .empty => "cannot parse integer from empty string"
  | .invalidDigit => "invalid digit found in string"
  | .tooLarge => "number too large to fit in target type"

/-- Reads digits onto the number read so far. -/
def readOnto (n : Nat) : List Char → Except NumeralFault Nat
  | [] => .ok n
  | c :: cs =>
    match digitValue c with
    | none => .error .invalidDigit
    | some d => if n * 10 + d < 2 ^ (64 : Nat) then readOnto (n * 10 + d) cs else .error .tooLarge

/-- Reads an unsigned number of 64 bits; a plus sign may stand in front of its digits. -/
def readUnsigned (s : String) : Except NumeralFault Nat :=
  match s.toList with
  | [] => .error .empty
  | ['+'] => .error .invalidDigit
  | '+' :: cs => readOnto 0 cs
  | cs => readOnto 0 cs

end RowMapping.Text
