import RowMapping.TypeId
import RowMapping.Value

/-!
# Errors

Every operation that can fail does so with an `Error`, which says what went wrong as data.
`Error.message` is its wording.  After an error that is fatal for a cursor nobody knows where the
cursor stands.
-/

namespace RowMapping

/-- A function that spells destination types in messages. -/
abbrev Spelling := TypeId → String

/-! ### Input that cannot be used -/

/-- What is wrong with an input. -/
inductive InputFault where
  /-- A segment of an option text has no equals sign. -/
  | expectedPair (segment : String)
  /-- An option has no such key. -/
  | unknownOption (key : String)
  /-- The value of an option is not a truth value. -/
  | invalidBoolean (key value : String)
  /-- The padding threshold is not a number. -/
  | invalidThreshold (value : String) (fault : Text.NumeralFault)
  /-- There are not as many parameters as positional markers. -/
  | positionalCount (markers parameters : Nat)
  /-- There is no parameter for a positional marker. -/
  | missingPositional
  /-- A list stands where a positional marker wants a single value. -/
  | positionalList (name : String)
  /-- A literal token names no parameter. -/
  | unboundLiteral (name : String)
  /-- A list was given to a statement that takes none. -/
  | listArgument (name statement : String)
  /-- A range starts after the last column. -/
  | rangeStart (start columns : Nat)
  /-- A range ends after the last column. -/
  | rangeEnd (start length columns : Nat)
  /-- A row does not have one value for each column. -/
  | arity (values columns : Nat)
  /-- A cursor is behind its last result set. -/
  | noResultSet
  /-- A cursor is not on a row. -/
  | noRow
  /-- There is no column of that index. -/
  | columnIndex (index columns : Nat)
  /-- A grid that should have one row has none. -/
  | noRows
  /-- A grid that should have one row has more. -/
  | manyRows
  /-- Some other fault, in words. -/
  | other (message : String)
  deriving DecidableEq

/-- The wording of a fault. -/
def InputFault.message : InputFault → String
  | .expectedPair segment => "Expected key=value, got '" ++ segment ++ "'"
  | .unknownOption key => "Unknown option '" ++ key ++ "'"
  | .invalidBoolean key value => "Invalid boolean for '" ++ key ++ "': " ++ value
  | .invalidThreshold value fault =>
    "Invalid list_padding_threshold '" ++ value ++ "': " ++ fault.message
  | .positionalCount markers parameters =>
    Text.natText markers ++ " positional marker(s) but " ++ Text.natText parameters ++
      " parameter(s)"
  | .missingPositional => "missing positional parameter"
  | .positionalList name => "list parameter '" ++ name ++ "' cannot bind a positional marker"
  | .unboundLiteral name => "no value bound for literal \x7b=" ++ name ++ "\x7d"
  | .listArgument name statement =>
    "list parameter '" ++ name ++ "' cannot be passed to " ++ statement
  | .rangeStart start columns =>
    "column range starts at " ++ Text.natText start ++ " but the result has " ++
      Text.natText columns ++ " columns"
  | .rangeEnd start length columns =>
    "column range of " ++ Text.natText length ++ " columns from " ++ Text.natText start ++
      " exceeds the " ++ Text.natText columns ++ " result columns"
  | .arity values columns =>
    "row has " ++ Text.natText values ++ " values, result set has " ++ Text.natText columns ++
      " columns"
  | .noResultSet => "cursor has no current result set"
  | .noRow => "cursor has no current row"
  | .columnIndex index columns =>
    "column index " ++ Text.natText index ++ " out of range (" ++ Text.natText columns ++
      " columns)"
  | .noRows => "grid contains no rows"
  | .manyRows => "grid contains more than one row"
  | .other message => message

/-! ### Types that do not fit -/

/-- Why columns cannot be mapped to a destination. -/
inductive ConfigurationFault where
  /-- No rule converts the column type to the destination. -/
  | unmappable (source : DbType) (destination : TypeId) (wanted : DbType)
  /-- A single value was asked of no column. -/
  | noColumn (destination : TypeId)
  /-- No constructor has all its parameters among the columns. -/
  | noConstructor (destination : TypeId) (columns : List String)
  /-- The discriminator column is not in the range. -/
  | noDiscriminator (name : String)
  /-- No subtype belongs to a discriminator value. -/
  | noSubtype (discriminator : String) (value : Value)
  /-- Some other fault, in words. -/
  | other (message : String)
  /-- A fault in the column of that name. -/
  | inColumn (name : String) (fault : ConfigurationFault)
  deriving DecidableEq

/-- The wording of a fault. -/
def ConfigurationFault.message (spell : Spelling) : ConfigurationFault → String
  | .unmappable source destination wanted =>
    "cannot map a " ++ source.name ++ " column to " ++ spell destination ++ " (" ++ wanted.name ++
      ")"
  | .noColumn destination => spell destination ++ " needs at least one column"
  | .noConstructor destination columns =>
    spell destination ++ ": no constructor matches the columns [" ++
      String.intercalate ", " columns ++ "] and there is no default constructor"
  | .noDiscriminator name => "discriminator column not found: " ++ name
  | .noSubtype discriminator value => "no subtype for " ++ discriminator ++ " = " ++ value.display
  | .other message => message
  | .inColumn name fault => "column '" ++ name ++ "': " ++ fault.message spell

/-! ### Values that cannot be converted -/

/-- Why a value cannot be converted. -/
inductive ConversionFault where
  /-- Values of that kind do not convert to the wanted type, or this one does not. -/
  | mismatch (value : Value) (wanted : DbType)
  /-- Bytes are not the encoding of a text. -/
  | invalidEncoding
  /-- A text is not a decimal number. -/
  | invalidDecimal (text : String)
  /-- A text is not an identifier. -/
  | invalidGuid (text : String)
  /-- Not sixteen bytes. -/
  | guidLength (found : Nat)
  /-- A text is not a date with a time of day. -/
  | invalidDateTime (text : String)
  /-- A value names no variant of an enumeration. -/
  | noVariant (value : Value)
  /-- Some other fault, in words. -/
  | other (message : String)
  /-- A fault in the column of that name. -/
  | inColumn (name : String) (fault : ConversionFault)
  deriving DecidableEq

/-- The wording of a fault. -/
def ConversionFault.message : ConversionFault → String
  | .mismatch value wanted =>
    "cannot convert " ++ value.kind ++ " value " ++ value.display ++ " to " ++ wanted.name
  | .invalidEncoding => "invalid UTF-8 text: invalid utf-8 sequence"
  | .invalidDecimal text => "invalid decimal '" ++ text ++ "': not a decimal number"
  | .invalidGuid text => "invalid guid '" ++ text ++ "': not an identifier"
  | .guidLength found =>
    "invalid guid bytes: invalid length: expected 16 bytes, found " ++ Text.natText found
  | .invalidDateTime text => "invalid datetime '" ++ text ++ "'"
  | .noVariant value => value.display ++ " does not name an enum variant"
  | .other message => message
  | .inColumn name fault => "column '" ++ name ++ "': " ++ fault.message

/-! ### Styles that do not mix -/

/-- Why the style of the markers of a template is not clear. -/
inductive StyleFault where
  /-- There are that many positional markers and a named placeholder, of the given source text. -/
  | mixed (markers : Nat) (placeholder : String)
  /-- Some other fault, in words. -/
  | other (message : String)
  deriving DecidableEq

/-- The wording of a fault. -/
def StyleFault.message : StyleFault → String
  | .mixed markers placeholder =>
    Text.natText markers ++ " positional marker(s) mixed with named placeholder " ++ placeholder
  | .other message => message

/-! ### All errors -/

/-- What an operation can fail with. -/
inductive Error where
  /-- An input cannot be used. -/
  | input (fault : InputFault)
  /-- A schema already has a column of that name. -/
  | duplicateColumn (name : String)
  /-- Columns cannot be mapped to a destination. -/
  | configuration (fault : ConfigurationFault)
  /-- A value of that kind cannot be written into a statement. -/
  | unsupportedLiteral (name kind : String)
  /-- A template has positional and named markers. -/
  | ambiguousStyle (fault : StyleFault)
  /-- A grid was requested that is not the next one. -/
  | outOfOrder (requested : Nat) (current : String)
  /-- A reader has been disposed of. -/
  | disposed
  /-- A value cannot be converted. -/
  | conversion (fault : ConversionFault)
  /-- A cursor failed. -/
  | cursor (message : String)
  /-- An operation was cancelled. -/
  | cancelled
  /-- Something happened that cannot happen. -/
  | libraryBug (message : String)
  deriving DecidableEq

namespace Error

/-- The wording of an error. -/
def message (spell : Spelling) : Error → String
  | .input fault => "Invalid input: " ++ fault.message
  | .duplicateColumn name => "Duplicate column: " ++ name
  | .configuration fault => "Configuration error: " ++ fault.message spell
  | .unsupportedLiteral name kind =>
    "Unsupported literal type for \x7b=" ++ name ++ "\x7d: " ++ kind
  | .ambiguousStyle fault => "Ambiguous parameter style: " ++ fault.message
  | .outOfOrder requested current =>
    "Out of order access: requested grid " ++ Text.natText requested ++ ", reader is at " ++ current
  | .disposed => "The grid reader has been disposed"
  | .conversion fault => "Conversion error: " ++ fault.message
  | .cursor message => "Cursor error: " ++ message
  | .cancelled => "The operation was cancelled"
  | .libraryBug message => "Library bug: " ++ message

/-- The error leaves a cursor in an unknown position. -/
def isFatal : Error → Bool
  | .cursor _ | .cancelled | .libraryBug _ => true
  | _ => false

/-- The error as one of the column of that name; only errors about values and types are. -/
def inColumn (name : String) : Error → Error
  | .conversion fault => .conversion (.inColumn name fault)
  | .configuration fault => .configuration (.inColumn name fault)
  | e => e

end Error

end RowMapping
