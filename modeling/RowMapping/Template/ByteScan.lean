import RowMapping.Template.Basic

/-!
# Scanning bytes

The placeholders of a template, as a scan of its bytes finds them.  The scan goes from one place to
the next, and jumps over quoted texts, comments and names.  It is a fault to look at a byte that is
not there, or to take a text from a place to another one if these are not borders of characters;
a function that has an option as its result has none in this case.
-/

namespace RowMapping

namespace Text

/-! ### Classes of bytes -/

/-- The number is the code of a letter, a digit or an underscore, or it is not in ASCII. -/
def isWordCode (n : Nat) : Bool :=
  decide (48 ≤ n ∧ n ≤ 57) || decide (65 ≤ n ∧ n ≤ 90) || decide (97 ≤ n ∧ n ≤ 122) || n == 95 ||
    decide (128 ≤ n)

/-- The number is the code of a letter or an underscore, or it is not in ASCII. -/
def isNameStartCode (n : Nat) : Bool :=
  decide (65 ≤ n ∧ n ≤ 90) || decide (97 ≤ n ∧ n ≤ 122) || n == 95 || decide (128 ≤ n)

/-- The byte may be one of a name. -/
def isWordByte (b : UInt8) : Bool := isWordCode b.toNat

/-- The byte may be the first one of a name. -/
def isNameStartByte (b : UInt8) : Bool := isNameStartCode b.toNat

/-- The byte opens and closes a quoted text. -/
def isQuoteByte (b : UInt8) : Bool :=
  b == '\x27'.toUInt8 || b == '\x22'.toUInt8 || b == '\x60'.toUInt8

/-- The byte is an ASCII blank. -/
def isGapByte (b : UInt8) : Bool :=
  b == ' '.toUInt8 || b == '\t'.toUInt8 || b == '\n'.toUInt8 || b == '\x0c'.toUInt8 ||
    b == '\r'.toUInt8

/-- The byte, next to a question mark, makes that part of an operator or a name. -/
def joinsQuestionMarkByte (b : UInt8) : Bool :=
  isWordByte b || b == '?'.toUInt8 || b == '|'.toUInt8 || b == '&'.toUInt8

/-- The byte is the letter, in lower or in upper case. -/
def isLetterByte (lower upper : Char) (b : UInt8) : Bool :=
  b == lower.toUInt8 || b == upper.toUInt8

/-! ### Slices -/

/-- The text from one place to another, which have to be borders of characters. -/
def slice? (text : String) (start stop : Nat) : Option String :=
  if h : start ≤ stop ∧ String.Pos.Raw.IsValid text ⟨start⟩ ∧
      String.Pos.Raw.IsValid text ⟨stop⟩ then
    some (text.extract ⟨⟨start⟩, h.2.1⟩ ⟨⟨stop⟩, h.2.2⟩)
  else none

end Text

namespace ByteScan

/-! ### Jumps -/

section Jumps

variable (bytes : ByteArray)

/-- The first place from `i` on that is not in a name. -/
def wordEnd (i : Nat) : Nat :=
  if h : i < bytes.size then
    if Text.isWordByte bytes[i] then wordEnd (i + 1) else i
  else i
termination_by bytes.size - i

/-- The place behind the closing quote, seen from a place behind the opening one.  A doubled quote
does not close. -/
def quoteEnd (quote : UInt8) (i : Nat) : Nat :=
  if h : i < bytes.size then
    if bytes[i] = quote then
      if bytes[i + 1]? = some quote then quoteEnd quote (i + 2) else i + 1
    else quoteEnd quote (i + 1)
  else bytes.size
termination_by bytes.size - i

/-- The bytes from `i` on. -/
def suffix? (i : Nat) : Option (List UInt8) :=
  if i ≤ bytes.size then some (bytes.data.toList.drop i) else none

/-- The place behind the end of the line. -/
def lineEnd? (i : Nat) : Option Nat :=
  (suffix? bytes i).map fun rest =>
    ((rest.findIdx? (· == '\n'.toUInt8)).map (i + · + 1)).getD bytes.size

/-- The place of the first star with a slash. -/
def starSlash? (bs : List UInt8) : Option Nat :=
  (bs.zip bs.tail).findIdx? (· == ('*'.toUInt8, '/'.toUInt8))

/-- The place behind the first star with a slash from `i` on. -/
def blockEnd? (i : Nat) : Option Nat :=
  (suffix? bytes i).map fun rest => ((starSlash? rest).map (i + · + 2)).getD bytes.size

/-- The place where the blanks before a place begin. -/
def gapStart? : (i : Nat) → Option Nat
  | 0 => some 0
  | i + 1 => do
    let b ← bytes[i]?
    if Text.isGapByte b then gapStart? i else some (i + 1)

/-- The keyword `IN` ends at a place, and no name runs into it. -/
def endsIn? (stop : Nat) : Option Bool :=
  if stop < 2 then some false
  else do
    let first ← bytes[stop - 2]?
    let second ← bytes[stop - 1]?
    if Text.isLetterByte 'i' 'I' first && Text.isLetterByte 'n' 'N' second then
      if stop = 2 then some true else (bytes[stop - 3]?).map fun b => !Text.isWordByte b
    else some false

/-- The keyword `IN` and at least one blank stand before a place. -/
def followsIn? (i : Nat) : Option Bool := do
  let stop ← gapStart? bytes i
  if stop = i then some false else endsIn? bytes stop

/-- No name runs into a place. -/
def standsAlone? (i : Nat) : Option Bool :=
  if i = 0 then some true else (bytes[i - 1]?).map fun b => !Text.isWordByte b

end Jumps

/-! ### Placeholders -/

variable (text : String)

/-- The characters of a token; they are empty where there are none. -/
def source (start stop : Nat) : String := (Text.slice? text start stop).getD ""

/-- The token from one place to another, whose name goes from the third place to the fourth. -/
def token? (kind : TokenKind) (start stop nameStart nameStop : Nat) : Option Token :=
  (Text.slice? text nameStart nameStop).map fun name =>
    ⟨kind, start, stop, name, source text start stop⟩

/-- The literal token that begins with a brace and an equals sign at `i`, or else nothing, and the
place where the scan goes on. -/
def braced? (i : Nat) : Option (Option Token × Nat) :=
  let stop := wordEnd text.toUTF8 (i + 2)
  if i + 2 < stop ∧ text.toUTF8[stop]? = some '\x7d'.toUInt8 then
    (token? text .literal i (stop + 1) (i + 2) stop).map fun token => (some token, stop + 1)
  else some (none, i + 1)

/-- The placeholder that begins with a marker at `i`, or else nothing, and the place where the scan
goes on. -/
def marked? (i : Nat) : Option (Option Token × Nat) := do
  let alone ← standsAlone? text.toUTF8 i
  if alone && text.toUTF8[i + 1]?.any Text.isNameStartByte then
    let stop := wordEnd text.toUTF8 (i + 1)
    let afterIn ← followsIn? text.toUTF8 i
    let token ← token? text (if afterIn then .listExpansion else .named) i stop (i + 1) stop
    some (some token, stop)
  else some (none, i + 1)

/-- The placeholder that a question mark at `i` is, or else nothing, and the place where the scan
goes on. -/
def question (i : Nat) : Option Token × Nat :=
  let before := if i = 0 then none else text.toUTF8[i - 1]?
  let after := text.toUTF8[i + 1]?
  if before.any Text.joinsQuestionMarkByte || after.any Text.joinsQuestionMarkByte then
    (none, i + 1)
  else (some ⟨.positional, i, i + 1, "", source text i (i + 1)⟩, i + 1)

/-! ### The scan -/

/-- What is found at a place, given its byte and the next one, and the place where the scan goes
on. -/
def read? (flags : Flags) (i : Nat) (b : UInt8) (next : Option UInt8) :
    Option (Option Token × Nat) :=
  if Text.isQuoteByte b then some (none, quoteEnd text.toUTF8 b (i + 1))
  else if b = '-'.toUInt8 ∧ next = some '-'.toUInt8 then
    (lineEnd? text.toUTF8 i).map (none, ·)
  else if b = '/'.toUInt8 ∧ next = some '*'.toUInt8 then
    (blockEnd? text.toUTF8 (i + 2)).map (none, ·)
  else if b = '\x7b'.toUInt8 ∧ next = some '='.toUInt8 ∧ flags.literalTokens = true then
    braced? text i
  else if (b = '@'.toUInt8 ∨ b = ':'.toUInt8) ∧ next = some b then
    some (none, wordEnd text.toUTF8 (i + 2))
  else if b = '@'.toUInt8 ∨ b = ':'.toUInt8 then marked? text i
  else if b = '?'.toUInt8 ∧ flags.legacyMarkers = true then some (question text i)
  else some (none, i + 1)

/-- What is found at a place, and the place where the scan goes on. -/
def step? (flags : Flags) (i : Nat) : Option (Option Token × Nat) := do
  let b ← text.toUTF8[i]?
  read? text flags i b text.toUTF8[i + 1]?

theorem le_wordEnd (bytes : ByteArray) (i : Nat) : i ≤ wordEnd bytes i := by
  fun_induction wordEnd bytes i with
  | case1 i _ _ ih => omega
  | case2 | case3 => exact Nat.le_refl _

theorem lt_quoteEnd {bytes : ByteArray} {quote : UInt8} {i j : Nat} (hij : i < j)
    (hi : i < bytes.size) : i < quoteEnd bytes quote j := by
  fun_induction quoteEnd bytes quote j with
  | case1 j _ _ _ ih => exact ih (by omega)
  | case2 => omega
  | case3 j _ _ ih => exact ih (by omega)
  | case4 => exact hi

theorem lt_lineEnd? {bytes : ByteArray} {i j : Nat} (hi : i < bytes.size)
    (h : lineEnd? bytes i = some j) : i < j := by
  obtain ⟨rest, -, rfl⟩ := Option.map_eq_some_iff.1 h
  cases rest.findIdx? (· == '\n'.toUInt8) with
  | none => exact hi
  | some n => exact Nat.lt_succ_of_le (Nat.le_add_right i n)

theorem lt_blockEnd? {bytes : ByteArray} {i j k : Nat} (hij : i ≤ j) (hi : i < bytes.size)
    (h : blockEnd? bytes j = some k) : i < k := by
  obtain ⟨rest, -, rfl⟩ := Option.map_eq_some_iff.1 h
  cases starSlash? rest with
  | none => exact hi
  | some n =>
    rw [Option.map_some, Option.getD_some]
    omega

variable {text} {flags : Flags} {i j : Nat} {found : Option Token}

theorem lt_of_braced? (h : braced? text i = some (found, j)) : i < j := by
  have hle := le_wordEnd text.toUTF8 (i + 2)
  simp only [braced?] at h
  split at h
  · obtain ⟨_, -, heq⟩ := Option.map_eq_some_iff.1 h
    cases heq
    omega
  · cases h
    exact Nat.lt_succ_self i

theorem lt_of_marked? (h : marked? text i = some (found, j)) : i < j := by
  have hle := le_wordEnd text.toUTF8 (i + 1)
  obtain ⟨alone, -, h⟩ := Option.bind_eq_some_iff.1 h
  split at h
  · obtain ⟨afterIn, -, h⟩ := Option.bind_eq_some_iff.1 h
    obtain ⟨token, -, h⟩ := Option.bind_eq_some_iff.1 h
    cases h
    exact hle
  · cases h
    exact Nat.lt_succ_self i

theorem question_snd (text : String) (i : Nat) : (question text i).2 = i + 1 := by
  rw [question, apply_ite Prod.snd, ite_self]

theorem lt_of_step? (h : step? text flags i = some (found, j)) : i < j := by
  obtain ⟨b, hb, h⟩ := Option.bind_eq_some_iff.1 h
  have hi : i < text.toUTF8.size := (getElem?_eq_some_iff.1 hb).1
  unfold read? at h
  split at h
  · cases h
    exact lt_quoteEnd (Nat.lt_succ_self i) hi
  split at h
  · obtain ⟨k, hk, heq⟩ := Option.map_eq_some_iff.1 h
    cases heq
    exact lt_lineEnd? hi hk
  split at h
  · obtain ⟨k, hk, heq⟩ := Option.map_eq_some_iff.1 h
    cases heq
    exact lt_blockEnd? (Nat.le_add_right i 2) hi hk
  split at h
  · exact lt_of_braced? h
  split at h
  · cases h
    exact Nat.lt_of_lt_of_le (Nat.lt_add_of_pos_right (by decide)) (le_wordEnd _ _)
  split at h
  · exact lt_of_marked? h
  split at h
  · have hj := question_snd text i
    rw [Option.some.inj h] at hj
    exact Nat.lt_of_succ_le (Nat.le_of_eq hj.symm)
  · cases h
    exact Nat.lt_succ_self i

/-- The tokens from a place on. -/
def scanFrom? (text : String) (flags : Flags) (i : Nat) : Option (List Token) :=
  if _hi : i < text.toUTF8.size then
    match _hstep : step? text flags i with
    | none => none
    | some (found, j) => (scanFrom? text flags j).map (found.toList ++ ·)
  else some []
termination_by text.toUTF8.size - i
decreasing_by
  have := lt_of_step? _hstep
  omega

/-- The tokens of a text. -/
def scan? (text : String) (flags : Flags) : Option (List Token) := scanFrom? text flags 0

/-- The texts between tokens, from a place to the end. -/
def between? (text : String) : (done : Nat) → List Token → Option (List String)
  | done, [] => (Text.slice? text done text.utf8ByteSize).map ([·])
  | done, token :: tokens => do
    let s ← Text.slice? text done token.start
    let rest ← between? text token.stop tokens
    some (s :: rest)

end ByteScan

end RowMapping
