import RowMapping.Template.Basic
import RowMapping.Template.Params

/-!
# Rendering a template

Rendering puts parameters into a template.  Each piece is first resolved to a `Part`, which says
what will stand in its place and what it binds; the statement's text is what the parts say, one
after the other, and its bindings are those of each part whose name comes for the first time.
-/

namespace RowMapping

/-- A statement that is ready to run. -/
structure Rendered where
  /-- The text. -/
  sql : String
  /-- The names and values that are bound, in the order of their placeholders. -/
  bindings : List (String × Value)
  /-- How the statement is sent to the data source. -/
  kind : StatementKind
  deriving DecidableEq

/-- What comes in the place of a piece. -/
inductive Part where
  /-- The characters given, binding nothing. -/
  | plain (text : List Char)
  /-- A question mark that binds a value. -/
  | positional (name : String) (v : Value)
  /-- The placeholder as it was written, bound to a single value. -/
  | scalar (marker : Char) (name : List Char) (v : Value)
  /-- Placeholders for the elements of a list, in brackets or not. -/
  | expanded (marker : Char) (name : List Char) (brackets : Bool) (vs : List Value)
  deriving DecidableEq

namespace Part

variable (o : Options)

/-- The number of placeholders for a list of `n` elements. -/
def paddedLength (n : Nat) : Nat :=
  if o.flags.padLists && decide (o.paddingThreshold ≤ n) then (n + 9) / 10 * 10 else n

/-- The name of the placeholder for one element of a list. -/
def elementName (name : List Char) (i : Nat) : List Char := name ++ '_' :: Nat.toDigits 10 i

/-- The text without the brackets at its ends, if both are there. -/
def withoutBrackets (cs : List Char) : List Char :=
  match cs with
  | '(' :: rest => if rest.getLast? = some ')' then rest.dropLast else cs
  | _ => cs

/-- The placeholders of a list, with the separator between them. -/
def elementsText (marker : Char) (name : List Char) (count : Nat) : List Char :=
  o.separator.toList.intercalate ((List.range count).map fun i => marker :: elementName name i)

/-- The text of a part. -/
def text : Part → List Char
  | plain cs => cs
  | positional _ _ => ['?']
  | scalar marker name _ => marker :: name
  | expanded marker name brackets vs =>
    if vs.isEmpty then
      if brackets then o.emptyList.toList else withoutBrackets o.emptyList.toList
    else
      let inner := elementsText o marker name (paddedLength o vs.length)
      if brackets then '(' :: inner ++ [')'] else inner

/-- The elements of a list up to `count`, the last one repeated. -/
def padded (vs : List Value) (count : Nat) : List Value :=
  vs ++ List.replicate (count - vs.length) (vs.getLastD .null)

/-- What a part binds where its name comes for the first time. -/
def bindings : Part → List (String × Value)
  | plain _ => []
  | positional name v => [(name, v)]
  | scalar _ name v => [(String.ofList name, v)]
  | expanded _ name _ vs =>
    let elements := if vs.isEmpty then [] else padded vs (paddedLength o vs.length)
    elements.zipIdx.map fun e => (String.ofList (elementName name e.2), e.1)

/-- The folded name of a part that binds only where the name comes for the first time. -/
def key? : Part → Option (List Char)
  | scalar _ name _ => some (name.map Char.toLower)
  | expanded _ name _ _ => some (name.map Char.toLower)
  | _ => none

/-- The bindings of the parts, given the folded names that are already bound. -/
def allBindings (seen : List (List Char)) : List Part → List (String × Value)
  | [] => []
  | part :: parts =>
    match part.key? with
    | none => bindings o part ++ allBindings seen parts
    | some key =>
      if seen.contains key then allBindings seen parts
      else bindings o part ++ allBindings (key :: seen) parts

end Part

namespace Template

/-! ### Resolving pieces -/

/-- The text of a value in a statement.  Texts, bytes and what is not a number have none. -/
def literalText (name : String) (v : Value) : Except Error String :=
  match v with
  | .null => .ok "NULL"
  | .bool b => .ok (if b then "1" else "0")
  | .signed n => .ok (Text.intText n.toInt)
  | .unsigned n => .ok (Text.natText n.toNat)
  | .float x =>
    if x.isFinite then .ok x.text else .error (.unsupportedLiteral name "non-finite float")
  | .double x =>
    if x.isFinite then .ok x.text else .error (.unsupportedLiteral name "non-finite float")
  | .decimal x => .ok x.text
  | .guid g => .ok ("'" ++ g.text ++ "'")
  | .dateTime t => .ok ("'" ++ t.text ++ "'")
  | .text _ | .bytes _ => .error (.unsupportedLiteral name v.kind)

/-- The part for a literal token. -/
def resolveLiteral (p : Params) (name : String) : Except Error Part :=
  match p.get? name with
  | some (.scalar v) => (literalText name v).map fun s => .plain s.toList
  | some (.list _) => .error (.unsupportedLiteral name "list")
  | none => .error (.input (.unboundLiteral name))

/-- The part for a named placeholder.  A name that is not bound stays as it was written. -/
def resolveNamed (p : Params) (marker : Char) (name : List Char) (afterIn : Bool) : Part :=
  match p.get? (String.ofList name) with
  | none => .plain (marker :: name)
  | some (.scalar v) => .scalar marker name v
  | some (.list vs) => .expanded marker name afterIn vs

/-- The part for a positional placeholder that is bound to the given parameter. -/
def resolvePositional (entry : String × ParamValue) : Except Error Part :=
  match entry.2 with
  | .scalar v => .ok (.positional entry.1 v)
  | .list _ => .error (.input (.positionalList entry.1))

/-- The parts for the pieces, given the parameters that are left for positional placeholders.  The
first piece that cannot be resolved gives the error. -/
def resolve (p : Params) : List (String × ParamValue) → List Piece → Except Error (List Part)
  | _, [] => .ok []
  | left, .positional :: ps =>
    match left with
    | [] => .error (.input .missingPositional)
    | entry :: left => do
      let part ← resolvePositional entry
      let parts ← resolve p left ps
      .ok (part :: parts)
  | left, .literal name :: ps => do
    let part ← resolveLiteral p (String.ofList name)
    let parts ← resolve p left ps
    .ok (part :: parts)
  | left, .named marker name afterIn :: ps => do
    let parts ← resolve p left ps
    .ok (resolveNamed p marker name afterIn :: parts)
  | left, piece :: ps => do
    let parts ← resolve p left ps
    .ok (.plain piece.text :: parts)

/-! ### Statements -/

/-- The number of positional placeholders. -/
def positionalCount (t : Template) : Nat := t.pieces.countP Piece.isPositional

/-- The placeholders of a template fit the parameters: they are of one style, and if they are
positional there is one for each parameter. -/
def checkStyle (t : Template) (p : Params) : Except Error Unit :=
  let count := t.positionalCount
  if count = 0 then .ok ()
  else
    match t.pieces.find? Piece.isNamed with
    | some piece => .error (.ambiguousStyle (.mixed count (String.ofList piece.text)))
    | none =>
      if count = p.size then .ok () else .error (.input (.positionalCount count p.size))

/-- The statement for a template of kind text. -/
def renderText (t : Template) (p : Params) (o : Options) : Except Error Rendered := do
  t.checkStyle p
  let parts ← resolve p p.entries t.pieces
  .ok ⟨String.ofList (parts.flatMap (Part.text o)), Part.allBindings o [] parts, .text⟩

/-- The arguments of a bare name, which takes single values only. -/
def arguments (statement : String) : List (String × ParamValue) →
    Except Error (List (String × Value))
  | [] => .ok []
  | (name, .scalar v) :: es => (arguments statement es).map ((name, v) :: ·)
  | (name, .list _) :: _ => .error (.input (.listArgument name statement))

/-- The statement for a template that is a bare name: the name, with all parameters as arguments. -/
def renderName (t : Template) (p : Params) : Except Error Rendered :=
  let name := Text.trim t.text
  (arguments name p.entries).map fun bindings => ⟨name, bindings, t.kind⟩

/-- The statement for a template and its parameters. -/
def render (t : Template) (p : Params) (o : Options) : Except Error Rendered :=
  if t.kind = .text then t.renderText p o else t.renderName p

/-- The statement for a template that is used once, with the default options. -/
def rewrite (text : String) (p : Params) : Except Error Rendered :=
  (parse text Options.default.flags).render p .default

end Template

end RowMapping
