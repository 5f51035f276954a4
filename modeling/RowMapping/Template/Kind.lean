import RowMapping.Text.Blank
import RowMapping.Text.Fold

/-!
# Kinds of statements

A template that is a single bare name is not rewritten: it names a stored procedure or controls a
transaction.  Every other template is text.
-/

namespace RowMapping

/-- How a template is sent to the data source. -/
inductive StatementKind where
  /-- Text, which is rewritten. -/
  | text
  /-- The name of a stored procedure. -/
  | procedure
  /-- A verb that controls a transaction. -/
  | control
  deriving DecidableEq

namespace StatementKind

/-- The verbs that control a transaction. -/
def controlVerbs : List String := ["commit", "rollback", "revert", "vacuum", "begin"]

/-- The characters, besides blanks, that a bare name does not have. -/
def markers : List Char :=
  [';', '/', '-', '+', '*', '(', ')', ',', '=', '\x27', '\x22', '@', ':', '?', '\x7b']

/-- The character may stand in a bare name. -/
def isBare (c : Char) : Bool := !Text.isBlank c && !markers.contains c

/-- The kind of a template.  Blanks at its ends do not count. -/
def classify (template : String) : StatementKind :=
  let name := Text.trim template
  if name.isEmpty || !name.toList.all isBare then .text
  else if controlVerbs.any (Text.sameName name) then .control
  else .procedure

end StatementKind

end RowMapping
