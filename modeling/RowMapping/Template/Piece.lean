/-!
# Pieces of a template

A scanned template is a list of pieces that make up its text without loss: single characters of
code, quoted texts and comments, names that belong to the data source, and placeholders.
-/

namespace RowMapping

/-- A piece of a template. -/
inductive Piece where
  /-- A character of code. -/
  | code (c : Char)
  /-- A quoted text with its quotes; the closing one may be missing. -/
  | quoted (text : List Char)
  /-- A comment with its delimiters. -/
  | comment (text : List Char)
  /-- A doubled marker and a name: a system variable or a cast. -/
  | system (marker : Char) (name : List Char)
  /-- A bare question mark. -/
  | positional
  /-- A marker and a name; `afterIn` says whether it follows the keyword `IN`. -/
  | named (marker : Char) (name : List Char) (afterIn : Bool)
  /-- A name in braces, with an equals sign in front. -/
  | literal (name : List Char)
  deriving DecidableEq

namespace Piece

/-- The characters of a piece. -/
def text : Piece → List Char
  | code c => [c]
  | quoted cs => cs
  | comment cs => cs
  | system marker name => marker :: marker :: name
  | positional => ['?']
  | named marker name _ => marker :: name
  | literal name => '\x7b' :: '=' :: name ++ ['\x7d']

/-- The piece is a quoted text or a comment, in which no placeholder is looked for. -/
def isHidden : Piece → Bool
  | quoted _ | comment _ => true
  | _ => false

/-- The piece is a placeholder that is not named. -/
def isPositional : Piece → Bool
  | positional => true
  | _ => false

/-- The piece is a placeholder with a marker and a name. -/
def isNamed : Piece → Bool
  | named .. => true
  | _ => false

-- a sum of natural numbers starts at their literal zero, whatever else is imported
attribute [local instance (high)] Zero.ofOfNat0

/-- The number of bytes of a piece in UTF-8. -/
def byteSize (p : Piece) : Nat := (p.text.map Char.utf8Size).sum

end Piece

end RowMapping
