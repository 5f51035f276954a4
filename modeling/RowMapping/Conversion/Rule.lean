import RowMapping.Conversion.Coercion
import RowMapping.Conversion.Enumeration
import RowMapping.Conversion.Handlers

/-!
# Conversion rules

When a column is bound to a destination, `Rule.plan` chooses from the column's type how its values
will be converted, or refuses the pair.  `Rule.apply` then converts one value.  `Destination.read`
converts a value without a column.
-/

namespace RowMapping

/-- How the values of a column are converted. -/
inductive Rule where
  /-- They stay as they are. -/
  | direct
  /-- They go from one kind of number to another. -/
  | numeric (wanted : DbType)
  /-- They name the variants of an enumeration. -/
  | enumeration (variants : List EnumVariant)
  /-- They are read as, or written as, text or bytes. -/
  | parse (wanted : DbType)
  /-- They go through a handler. -/
  | handler (h : Handler)

namespace Rule

/-- Values of the column type are read as, or written as, values of the wanted type. -/
def canParse (source wanted : DbType) : Bool :=
  match wanted with
  | .text => source == .bytes || source == .guid
  | .bytes => source == .text || source == .guid
  | .guid => source == .text || source == .bytes
  | .dateTime | .decimal | .bool => source == .text
  | _ => false

/-- The rule for a scalar destination that has no handler. -/
def planScalar? (source wanted : DbType) : Option Rule :=
  if source = wanted then some .direct
  else if source = .null then some (.parse wanted)
  else if source.isNumeric && wanted.isNumeric then some (.numeric wanted)
  else if canParse source wanted then some (.parse wanted)
  else none

/-- The rule for an enumeration that has no handler. -/
def planEnumeration? (source : DbType) (variants : List EnumVariant) : Option Rule :=
  if source.isInteger || source == .text || source == .null then some (.enumeration variants)
  else none

/-- The rule for a column type and a destination.  A destination that takes every value takes it as
it is; otherwise a handler goes first. -/
def plan (source : DbType) (info : TypeInfo) (handlers : Handlers) : Except Error Rule :=
  let orUnmappable : Option Rule → Except Error Rule
    | some rule => .ok rule
    | none => .error (.configuration (.unmappable source info.typeId info.dbType))
  match info.kind with
  | .any => .ok .direct
  | kind =>
    match handlers.find? info.typeId with
    | some h => .ok (.handler h)
    | none =>
      match kind with
      | .enumeration variants => orUnmappable (planEnumeration? source variants)
      | _ => orUnmappable (planScalar? source info.dbType)

/-- The converted value.  Null stays null, also where there is a handler. -/
def apply (rule : Rule) (v : Value) : Except Error Value :=
  if v.isNull then .ok .null
  else
    match rule with
    | .direct => .ok v
    | .numeric wanted | .parse wanted => coerce v wanted
    | .enumeration variants => Enumeration.discriminant variants v
    | .handler h => h v

/-- The text that shows a rule to a reader. -/
def display : Rule → String
  | .direct => "Direct"
  | .numeric wanted => "Numeric(" ++ wanted.name ++ ")"
  | .enumeration variants => "Enum(" ++ Text.natText variants.length ++ " variants)"
  | .parse wanted => "Parse(" ++ wanted.name ++ ")"
  | .handler _ => "Handler"

end Rule

/-- The value in the form that a destination wants, whatever column it comes from. -/
def TypeInfo.coerce (info : TypeInfo) (v : Value) : Except Error Value :=
  match info.kind with
  | .any => .ok v
  | .enumeration variants =>
    if v.isNull then RowMapping.coerce v info.dbType else Enumeration.discriminant variants v
  | .scalar => RowMapping.coerce v info.dbType

/-- The object for a value that comes from no column. -/
def Destination.read {α : Type} (d : Destination α) (v : Value) : Except Error α := do
  d.ofValue (← d.info.coerce v)

end RowMapping
