import RowMapping.Template.Options
import RowMapping.Template.Piece

/-!
# Scanning a template

`scan` cuts the characters of a template into pieces, from left to right.  Which piece begins at a
character depends on the characters after it and, for placeholders, on those before it.  Nothing is
lost: the texts of the pieces make up the template (`text_scan`).
-/

namespace RowMapping.Template

/-! ### Characters -/

/-- The character may stand in a name.  Every character outside ASCII may. -/
def isWord (c : Char) : Bool := c.isAlphanum || c == '_' || decide (128 ≤ c.toNat)

/-- The character may begin a name. -/
def isNameStart (c : Char) : Bool := c.isAlpha || c == '_' || decide (128 ≤ c.toNat)

/-- The character opens and closes a quoted text. -/
def isQuote (c : Char) : Bool := c == '\x27' || c == '\x22' || c == '\x60'

/-- The character is an ASCII blank. -/
def isGap (c : Char) : Bool :=
  c == ' ' || c == '\t' || c == '\n' || c == '\x0c' || c == '\r'

/-- The character, next to a question mark, makes that part of an operator or a name. -/
def joinsQuestionMark (c : Char) : Bool := isWord c || c == '?' || c == '|' || c == '&'

/-! ### Quoted texts and comments -/

/-- Cuts after the closing quote; a doubled quote does not close. -/
def throughQuote (quote : Char) : List Char → List Char × List Char
  | [] => ([], [])
  | [c] => ([c], [])
  | c :: d :: cs =>
    if c ≠ quote then
      let r := throughQuote quote (d :: cs)
      (c :: r.1, r.2)
    else if d = quote then
      let r := throughQuote quote cs
      (c :: d :: r.1, r.2)
    else ([c], d :: cs)

/-- Cuts after the end of the line. -/
def throughNewline : List Char → List Char × List Char
  | [] => ([], [])
  | c :: cs =>
    if c = '\n' then ([c], cs)
    else
      let r := throughNewline cs
      (c :: r.1, r.2)

/-- Cuts after the first star with a slash. -/
def throughStarSlash : List Char → List Char × List Char
  | [] => ([], [])
  | [c] => ([c], [])
  | c :: d :: cs =>
    if c = '*' ∧ d = '/' then ([c, d], cs)
    else
      let r := throughStarSlash (d :: cs)
      (c :: r.1, r.2)

theorem throughQuote_append (quote : Char) (cs : List Char) :
    (throughQuote quote cs).1 ++ (throughQuote quote cs).2 = cs := by
  fun_induction throughQuote quote cs <;> simp_all +zetaDelta

theorem throughNewline_append (cs : List Char) :
    (throughNewline cs).1 ++ (throughNewline cs).2 = cs := by
  fun_induction throughNewline cs <;> simp_all +zetaDelta

theorem throughStarSlash_append (cs : List Char) :
    (throughStarSlash cs).1 ++ (throughStarSlash cs).2 = cs := by
  fun_induction throughStarSlash cs <;> simp_all +zetaDelta

/-! ### Placeholders -/

/-- The text, given backwards, ends in the keyword `IN` and at least one blank. -/
def followsIn (before : List Char) : Bool :=
  match before.takeWhile isGap, before.dropWhile isGap with
  | _ :: _, n :: i :: front => n.toLower == 'n' && i.toLower == 'i' && !front.head?.any isWord
  | _, _ => false

/-- The placeholder, or else the single character, that begins with a marker. -/
def marked (before : List Char) (marker : Char) (rest : List Char) : Piece × List Char :=
  if !before.head?.any isWord && rest.head?.any isNameStart then
    (.named marker (rest.takeWhile isWord) (followsIn before), rest.dropWhile isWord)
  else (.code marker, rest)

/-- The placeholder, or else the single character, that begins with a question mark. -/
def question (before rest : List Char) : Piece × List Char :=
  if before.head?.any joinsQuestionMark || rest.head?.any joinsQuestionMark then (.code '?', rest)
  else (.positional, rest)

/-- The literal token, or else the single character, that begins with a brace and an equals sign;
`rest` is what follows them. -/
def braced (rest : List Char) : Piece × List Char :=
  match rest.takeWhile isWord, rest.dropWhile isWord with
  | c :: name, '\x7d' :: after => (.literal (c :: name), after)
  | _, _ => (.code '\x7b', '=' :: rest)

/-! ### The scanner -/

/-- The piece that begins with the character `c`, and what follows it.  The text before `c` is
given backwards. -/
def firstPiece (flags : Flags) (before : List Char) (c : Char) (rest : List Char) :
    Piece × List Char :=
  if isQuote c then
    let r := throughQuote c rest
    (.quoted (c :: r.1), r.2)
  else
    match c, rest with
    | '-', '-' :: cs =>
      let r := throughNewline cs
      (.comment ('-' :: '-' :: r.1), r.2)
    | '/', '*' :: cs =>
      let r := throughStarSlash cs
      (.comment ('/' :: '*' :: r.1), r.2)
    | '\x7b', '=' :: cs => if flags.literalTokens then braced cs else (.code c, rest)
    | '@', '@' :: cs => (.system '@' (cs.takeWhile isWord), cs.dropWhile isWord)
    | ':', ':' :: cs => (.system ':' (cs.takeWhile isWord), cs.dropWhile isWord)
    | '@', _ => marked before '@' rest
    | ':', _ => marked before ':' rest
    | '?', _ => if flags.legacyMarkers then question before rest else (.code c, rest)
    | _, _ => (.code c, rest)

theorem text_marked (before : List Char) (c : Char) (rest : List Char) :
    (marked before c rest).1.text ++ (marked before c rest).2 = c :: rest := by
  unfold marked
  split <;> simp [Piece.text]

theorem text_question (before rest : List Char) :
    (question before rest).1.text ++ (question before rest).2 = '?' :: rest := by
  unfold question
  split <;> simp [Piece.text]

theorem text_braced (rest : List Char) :
    (braced rest).1.text ++ (braced rest).2 = '\x7b' :: '=' :: rest := by
  unfold braced
  split
  · next h₁ h₂ =>
    have := List.takeWhile_append_dropWhile (p := isWord) (l := rest)
    rw [h₁, h₂] at this
    simpa [Piece.text] using this
  · simp [Piece.text]

/-- A piece and what follows it are the text from which it was cut. -/
theorem text_firstPiece (flags : Flags) (before : List Char) (c : Char) (rest : List Char) :
    (firstPiece flags before c rest).1.text ++ (firstPiece flags before c rest).2 = c :: rest := by
  unfold firstPiece
  split
  · simp [Piece.text, throughQuote_append]
  · split
    · simp [Piece.text, throughNewline_append]
    · simp [Piece.text, throughStarSlash_append]
    · split
      · exact text_braced _
      · simp [Piece.text]
    · simp [Piece.text]
    · simp [Piece.text]
    · exact text_marked before _ _
    · exact text_marked before _ _
    · split
      · exact text_question before _
      · simp [Piece.text]
    · simp [Piece.text]

theorem text_firstPiece_ne (flags : Flags) (before : List Char) (c : Char) (rest : List Char) :
    (firstPiece flags before c rest).1.text ≠ [] := by
  unfold firstPiece marked question braced
  repeat' split
  all_goals simp [Piece.text]

theorem length_firstPiece (flags : Flags) (before : List Char) (c : Char) (rest : List Char) :
    (firstPiece flags before c rest).2.length ≤ rest.length := by
  have h := congrArg List.length (text_firstPiece flags before c rest)
  have hne := List.length_pos_iff.2 (text_firstPiece_ne flags before c rest)
  simp only [List.length_append, List.length_cons] at h
  omega

/-- The pieces of a text; what comes before it is given backwards. -/
def scanFrom (flags : Flags) (before : List Char) : List Char → List Piece
  | [] => []
  | c :: rest =>
    let r := firstPiece flags before c rest
    r.1 :: scanFrom flags (r.1.text.reverse ++ before) r.2
termination_by cs => cs.length
decreasing_by exact Nat.lt_succ_of_le (length_firstPiece flags before c rest)

/-- The pieces of a text. -/
def scan (flags : Flags) (text : List Char) : List Piece := scanFrom flags [] text

theorem text_scanFrom (flags : Flags) (before cs : List Char) :
    (scanFrom flags before cs).flatMap Piece.text = cs := by
  fun_induction scanFrom flags before cs with
  | case1 => rfl
  | case2 before c rest r ih =>
    rw [List.flatMap_cons, ih]
    exact text_firstPiece flags before c rest

theorem text_scan (flags : Flags) (cs : List Char) :
    (scan flags cs).flatMap Piece.text = cs :=
  text_scanFrom flags [] cs

end RowMapping.Template
