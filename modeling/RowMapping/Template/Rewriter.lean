import RowMapping.Template.Rendering

/-!
# Rewriters

A rewriter renders templates with fixed options and keeps each template that it has scanned.
-/

namespace RowMapping

/-- Options and the templates scanned so far, by their text. -/
structure Rewriter where
  /-- The options of every statement. -/
  options : Options
  /-- The scanned templates. -/
  templates : List (String × Template) := []

namespace Rewriter

variable (r : Rewriter)

/-- The number of templates that are kept. -/
def size : Nat := r.templates.length

/-- The scanned template of a text, kept for the next time. -/
def parse (text : String) : Template × Rewriter :=
  match r.templates.lookup text with
  | some t => (t, r)
  | none =>
    let t := Template.parse text r.options.flags
    (t, { r with templates := (text, t) :: r.templates })

/-- The statement for a template and its parameters. -/
def rewrite (text : String) (p : Params) : Except Error Rendered × Rewriter :=
  let (t, r) := r.parse text
  (t.render p r.options, r)

/-- The rewriter with no template kept. -/
def clear : Rewriter := { r with templates := [] }

end Rewriter

end RowMapping
