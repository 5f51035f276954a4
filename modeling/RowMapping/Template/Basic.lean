import RowMapping.Template.Kind
import RowMapping.Template.Scan

/-!
# Templates

A template is scanned once and rewritten as often as it is run.  Its tokens are its placeholders,
each with its place in the text, counted in bytes.
-/

namespace RowMapping

/-- The kind of a placeholder. -/
inductive TokenKind where
  /-- A bare question mark. -/
  | positional
  /-- A marker and a name. -/
  | named
  /-- A marker and a name after the keyword `IN`. -/
  | listExpansion
  /-- A name in braces, to be replaced by text. -/
  | literal
  deriving DecidableEq

/-- A placeholder in its place. -/
structure Token where
  /-- What kind of placeholder it is. -/
  kind : TokenKind
  /-- The first byte. -/
  start : Nat
  /-- The byte after the last one. -/
  stop : Nat
  /-- The parameter that it names; a positional one names none. -/
  name : String
  /-- Its characters. -/
  source : String
  deriving DecidableEq

namespace Token

/-- The character with which a placeholder begins. -/
def marker (t : Token) : Char := t.source.toList.headD '@'

/-- The kind of a piece and the name in it, if it is a placeholder. -/
def kindAndName? : Piece → Option (TokenKind × List Char)
  | .positional => some (.positional, [])
  | .named _ name afterIn => some (if afterIn then .listExpansion else .named, name)
  | .literal name => some (.literal, name)
  | _ => none

/-- The placeholders among pieces that begin at byte `start`. -/
def ofPieces (start : Nat) : List Piece → List Token
  | [] => []
  | p :: ps =>
    let stop := start + p.byteSize
    match kindAndName? p with
    | some (kind, name) =>
      ⟨kind, start, stop, String.ofList name, String.ofList p.text⟩ :: ofPieces stop ps
    | none => ofPieces stop ps

end Token

/-- A scanned template. -/
structure Template where
  /-- The text as it was given. -/
  text : String
  /-- How it is sent to the data source. -/
  kind : StatementKind
  /-- The pieces of the text; a bare name is not cut into pieces. -/
  pieces : List Piece
  deriving DecidableEq

namespace Template

/-- Scans a template. -/
def parse (text : String) (flags : Flags) : Template :=
  let kind := StatementKind.classify text
  ⟨text, kind, if kind = .text then scan flags text.toList else []⟩

/-- The placeholders of a template. -/
def tokens (t : Template) : List Token := Token.ofPieces 0 t.pieces

end Template

end RowMapping
