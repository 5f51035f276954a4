import RowMapping.Cursor.Basic
import RowMapping.Materialize.Matching

/-!
# Row functions

A layout is bound once to a range of columns: names are matched and conversions planned.  The row
function that comes out of it only reads values and converts them.  It may say that a row has no
object, which is not an error.
-/

namespace RowMapping

/-- A function that makes the object of the current row, if it has one. -/
abbrev RowFn (α : Type) := RowView → Except Error (Option α)

/-- A column bound to a destination. -/
structure Binding where
  /-- The place of the column. -/
  column : Nat
  /-- Its name. -/
  name : String
  /-- How its values are converted. -/
  rule : Rule

namespace Binding

/-- Binds a column to a destination. -/
def plan (v : RowView) (handlers : Handlers) (column : Nat) (info : TypeInfo) :
    Except Error Binding :=
  ((Rule.plan (v.type column) info handlers).mapError (Error.inColumn (v.name column))).map
    fun rule => ⟨column, v.name column, rule⟩

/-- The converted value of the column in the current row. -/
def read (b : Binding) (v : RowView) : Except Error Value := do
  let x ← v.value b.column
  (b.rule.apply x).mapError (Error.inColumn b.name)

end Binding

namespace Layout

variable {α : Type} (v : RowView) (handlers : Handlers) (start length : Nat) (firstMissing : Bool)

/-- The first column of the range is null in the current row. -/
def firstIsNull (v : RowView) : Except Error Bool :=
  if length = 0 then .ok false else (v.value start).map Value.isNull

/-- A row function that makes no object where the first column is null, if that is asked for. -/
def unlessFirstIsNull (rowFn : RowView → Except Error α) : RowFn α := fun v => do
  if firstMissing then
    if ← firstIsNull start length v then return none
  return some (← rowFn v)

/-- The row function of a scalar.  A destination that has a missing object of its own makes that
object also where the column is null. -/
def buildScalar (info : TypeInfo) (build : Value → Except Error α) : Except Error (RowFn α) := do
  if length = 0 then throw (.configuration (.noColumn info.typeId))
  let binding ← Binding.plan v handlers start info
  let missing := firstMissing && !info.nullable
  return fun v => do
    let x ← binding.read v
    if missing && x.isNull then return none
    return some (← (build x).mapError (Error.inColumn binding.name))

/-- The row function of a tuple.  Columns that are not there give no argument, and columns that are
left over are not read. -/
def buildPositional (fields : List TypeInfo) (build : List Value → Except Error α) :
    Except Error (RowFn α) := do
  let bindings ← ((fields.take length).zipIdx start).mapM fun e =>
    Binding.plan v handlers e.2 e.1
  return unlessFirstIsNull start length firstMissing fun v => do
    build (← bindings.mapM (·.read v))

/-- Sets members one after the other, each from its column. -/
def setMembers (v : RowView) (object : α) (members : List (Binding × Member α)) :
    Except Error α :=
  members.foldlM
    (fun object e => do
      let x ← e.1.read v
      (e.2.set object x).mapError (Error.inColumn e.1.name))
    object

/-- How an object is made before its members are set: by a constructor from columns, or by the
constructor without parameters. -/
def buildInitial (composite : Composite α) (columns : List String) :
    Option (Matching.Choice α) → Except Error (RowView → Except Error α)
  | some (constructor, places) => do
    let bindings ← (constructor.params.zip places).mapM fun e =>
      Binding.plan v handlers (start + e.2) e.1.info
    return fun v => do constructor.build (← bindings.mapM (·.read v))
  | none =>
    match composite.default? with
    | some object => return fun _ => object
    | none => throw (.configuration (.noConstructor composite.typeId columns))

/-- The row function of a type whose columns are matched by name. -/
def buildNamed (composite : Composite α) : Except Error (RowFn α) := do
  let columns := (List.range' start length).map v.name
  let choice := Matching.choose? columns composite.constructors
  let initial ← buildInitial v handlers start composite columns choice
  let taken := (choice.map (·.2)).getD []
  let pairs := Matching.assignMembers (composite.members.map (·.name)) taken [] columns.zipIdx
  let members ← (pairs.filterMap fun e => composite.members[e.2]?.map (e.1, ·)).mapM fun e => do
    return ((← Binding.plan v handlers (start + e.1) e.2.info), e.2)
  return unlessFirstIsNull start length firstMissing fun v => do
    setMembers v (← initial v) members

/-- The row function of dynamic rows.  Every column of the range is read before the first one is
looked at. -/
def buildDynamic (schema : SchemaId) (build : Row → Except Error α) : RowFn α := fun v => do
  let values ← (List.range' start length).mapM v.value
  if firstMissing && values.head?.any Value.isNull then return none
  return some (← build (Row.ofValues schema values))

/-- The row function of a layout for a range of columns.  With `firstMissing`, a row whose first
column is null has no object.  Dynamic rows get the given schema. -/
def build (layout : Layout α) (schema : SchemaId) : Except Error (RowFn α) :=
  match layout with
  | .scalar info build => buildScalar v handlers start length firstMissing info build
  | .positional fields build => buildPositional v handlers start length firstMissing fields build
  | .named composite => buildNamed v handlers start length firstMissing composite
  | .dynamic build => .ok (buildDynamic start length firstMissing schema build)

/-- The heading for which the schema of the dynamic rows of a range is made. -/
def schemaOf : Heading := ⟨(List.range' start length).map v.name⟩

end Layout

end RowMapping
