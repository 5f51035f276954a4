import RowMapping.Text.Blank
import RowMapping.Text.Numeral

/-!
# Dates with a time of day

A point in time in the Gregorian calendar, without a time zone, to the nanosecond.  A minute may
have a sixty-first second.  `DateTime.text` writes one and `DateTime.read?` reads one; the reader
also takes numbers with fewer digits and any blanks in front of a number.
-/

namespace RowMapping

/-- The year has a 29th of February. -/
def isLeapYear (year : Int) : Bool :=
  year % 4 == 0 && (year % 100 != 0 || year % 400 == 0)

/-- The number of days of a month. -/
def daysInMonth (year : Int) (month : Nat) : Nat :=
  if month = 2 then (if isLeapYear year then 29 else 28)
  else if month = 4 ∨ month = 6 ∨ month = 9 ∨ month = 11 then 30
  else 31

/-- A date and a time of day. -/
structure DateTime where
  /-- The year; the year before 1 is 0. -/
  year : Int
  /-- The month, from 1. -/
  month : Nat
  /-- The day of the month, from 1. -/
  day : Nat
  /-- The hour of the day. -/
  hour : Nat
  /-- The minute of the hour. -/
  minute : Nat
  /-- The second of the minute. -/
  second : Nat
  /-- The nanosecond of the second. -/
  nanosecond : Nat
  year_mem : -262143 ≤ year ∧ year ≤ 262142
  month_mem : 1 ≤ month ∧ month ≤ 12
  day_mem : 1 ≤ day ∧ day ≤ daysInMonth year month
  time_mem : hour ≤ 23 ∧ minute ≤ 59 ∧ second ≤ 60 ∧ nanosecond < 10 ^ (9 : Nat)
  deriving DecidableEq

namespace DateTime

/-- The point in time with the given fields, if there is one. -/
def ofFields? (year : Int) (month day hour minute second nanosecond : Nat) : Option DateTime :=
  if h : (-262143 ≤ year ∧ year ≤ 262142) ∧ (1 ≤ month ∧ month ≤ 12) ∧
      (1 ≤ day ∧ day ≤ daysInMonth year month) ∧
      (hour ≤ 23 ∧ minute ≤ 59 ∧ second ≤ 60 ∧ nanosecond < 10 ^ (9 : Nat)) then
    some ⟨year, month, day, hour, minute, second, nanosecond, h.1, h.2.1, h.2.2.1, h.2.2.2⟩
  else none

/-- The start of the year 1970. -/
def epoch : DateTime where
  year := 1970
  month := 1
  day := 1
  hour := 0
  minute := 0
  second := 0
  nanosecond := 0
  year_mem := by decide
  month_mem := by decide
  day_mem := by decide
  time_mem := by decide

/-! ### Writing -/

/-- A year has four digits; one that needs more, or is negative, has a sign. -/
def yearText (year : Int) : String :=
  if 0 ≤ year ∧ year ≤ 9999 then Text.zeroPadded 4 year.toNat
  else (if year < 0 then "-" else "+") ++ Text.zeroPadded 4 year.natAbs

/-- A fraction of a second has three, six or nine digits, as few as are exact, and is left out if
it is zero. -/
def fractionText (nanosecond : Nat) : String :=
  if nanosecond = 0 then ""
  else if nanosecond % 1000000 = 0 then "." ++ Text.zeroPadded 3 (nanosecond / 1000000)
  else if nanosecond % 1000 = 0 then "." ++ Text.zeroPadded 6 (nanosecond / 1000)
  else "." ++ Text.zeroPadded 9 nanosecond

/-- The text of a point in time, with `separator` between date and time of day. -/
def textWith (separator : String) (t : DateTime) : String :=
  yearText t.year ++ "-" ++ Text.zeroPadded 2 t.month ++ "-" ++ Text.zeroPadded 2 t.day ++
    separator ++
    Text.zeroPadded 2 t.hour ++ ":" ++ Text.zeroPadded 2 t.minute ++ ":" ++
    Text.zeroPadded 2 t.second ++ fractionText t.nanosecond

/-- The text of a point in time, with a space between date and time of day. -/
def text (t : DateTime) : String := t.textWith " "

/-! ### Reading -/

/-- A number of one to `limit` digits, with blanks in front. -/
def readNumber? (limit : Nat) (cs : List Char) : Option (Nat × List Char) :=
  match Text.splitDigits limit (Text.trimFront cs) with
  | ([], _) => none
  | (ds, rest) => some (Text.ofDigits ds, rest)

/-- A year: up to four digits, or a sign and any number of digits. -/
def readYear? (cs : List Char) : Option (Int × List Char) :=
  let digits (limit : Nat) (cs : List Char) : Option (Nat × List Char) :=
    match Text.splitDigits limit cs with
    | ([], _) => none
    | (ds, rest) => some (Text.ofDigits ds, rest)
  match Text.trimFront cs with
  | '-' :: cs => (digits cs.length cs).map fun (n, rest) => (-(n : Int), rest)
  | '+' :: cs => (digits cs.length cs).map fun (n, rest) => ((n : Int), rest)
  | cs => (digits 4 cs).map fun (n, rest) => ((n : Int), rest)

/-- The given character, and nothing else. -/
def readChar? (c : Char) : List Char → Option (List Char)
  | [] => none
  | d :: cs => if d = c then some cs else none

/-- The fraction of a second, in nanoseconds: a point with at least one digit, or nothing.  Digits
after the ninth are dropped. -/
def readFraction? : List Char → Option (Nat × List Char)
  | '.' :: cs =>
    match Text.splitDigits 9 cs with
    | ([], _) => none
    | (ds, rest) => some (Text.ofDigits ds * 10 ^ (9 - ds.length), rest.dropWhile Char.isDigit)
  | cs => some (0, cs)

/-- What may stand between the date and the time of day. -/
inductive Separator where
  /-- Any number of blanks. -/
  | blanks
  /-- The letter `T`. -/
  | letter

/-- Reads a separator. -/
def Separator.read? : Separator → List Char → Option (List Char)
  | .blanks, cs => some (Text.trimFront cs)
  | .letter, cs => readChar? 'T' cs

/-- Reads a whole text with the given separator. -/
def readWith? (separator : Separator) (cs : List Char) : Option DateTime := do
  let (year, cs) ← readYear? cs
  let cs ← readChar? '-' cs
  let (month, cs) ← readNumber? 2 cs
  let cs ← readChar? '-' cs
  let (day, cs) ← readNumber? 2 cs
  let cs ← separator.read? cs
  let (hour, cs) ← readNumber? 2 cs
  let cs ← readChar? ':' cs
  let (minute, cs) ← readNumber? 2 cs
  let cs ← readChar? ':' cs
  let (second, cs) ← readNumber? 2 cs
  let (nanosecond, cs) ← readFraction? cs
  if cs.isEmpty then ofFields? year month day hour minute second nanosecond else none

/-- The point in time that a text denotes, blanks at its ends left out. -/
def read? (s : String) : Option DateTime :=
  let cs := Text.trimChars s.toList
  (readWith? .blanks cs).or (readWith? .letter cs)

end DateTime

end RowMapping
