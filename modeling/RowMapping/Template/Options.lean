import RowMapping.Error
import RowMapping.Text.Blank
import RowMapping.Text.Fold

/-!
# Options of rewriting

Which placeholders are recognised and how lists are written out.  Options are read from a text of
`key=value` segments with semicolons between them; blanks around a segment, a key or a value do
not count, and a key that comes twice takes its last value.
-/

namespace RowMapping

/-- The switches of rewriting. -/
structure Flags where
  /-- Lists are filled up to a multiple of ten. -/
  padLists : Bool
  /-- A bare question mark is a placeholder. -/
  legacyMarkers : Bool
  /-- A name in braces is replaced by the text of its value. -/
  literalTokens : Bool
  deriving DecidableEq

namespace Flags

/-- Both kinds of extra placeholder are recognised, and lists are not filled up. -/
def default : Flags := ⟨false, true, true⟩

end Flags

/-- The options of rewriting. -/
structure Options where
  /-- The text between the placeholders of a list. -/
  separator : String
  /-- The text for an empty list, in brackets. -/
  emptyList : String
  /-- The switches. -/
  flags : Flags
  /-- The length from which lists are filled up. -/
  paddingThreshold : Nat
  deriving DecidableEq

namespace Options

/-- The options where nothing is said. -/
def default : Options := ⟨",", "(SELECT NULL WHERE 1 = 0)", .default, 10⟩

/-- The truth value that a text denotes, in any case. -/
def readBool? (s : String) : Option Bool :=
  if ["true", "1", "yes", "on"].any (Text.sameName s) then some true
  else if ["false", "0", "no", "off"].any (Text.sameName s) then some false
  else none

/-- The truth value that an option's value denotes. -/
def readBool (key value : String) : Except Error Bool :=
  match readBool? value with
  | some b => .ok b
  | none => .error (.input (.invalidBoolean key value))

/-- The options with one of them set. -/
def set (o : Options) (key value : String) : Except Error Options :=
  match key with
  | "list_separator" => .ok { o with separator := value }
  | "empty_list_sql" => .ok { o with emptyList := value }
  | "list_padding_threshold" =>
    match Text.readUnsigned value with
    | .ok n => .ok { o with paddingThreshold := n }
    | .error fault => .error (.input (.invalidThreshold value fault))
  | "pad_lists" => (readBool key value).map fun b => { o with flags.padLists := b }
  | "legacy_markers" => (readBool key value).map fun b => { o with flags.legacyMarkers := b }
  | "literal_tokens" => (readBool key value).map fun b => { o with flags.literalTokens := b }
  | _ => .error (.input (.unknownOption key))

/-- The parts of a text between the characters `c`; there is always at least one. -/
def splitAll (c : Char) : List Char → List (List Char)
  | [] => [[]]
  | d :: ds =>
    match splitAll c ds with
    | [] => [[]]
    | part :: parts => if d = c then [] :: part :: parts else (d :: part) :: parts

/-- The parts of a text before and after the first character `c`. -/
def splitOnce? (c : Char) (cs : List Char) : Option (List Char × List Char) :=
  match cs.dropWhile (· != c) with
  | [] => none
  | _ :: rest => some (cs.takeWhile (· != c), rest)

/-- The options with what one segment says; a blank segment says nothing. -/
def addSegment (o : Options) (segment : List Char) : Except Error Options :=
  let segment := Text.trimChars segment
  if segment.isEmpty then .ok o
  else
    match splitOnce? '=' segment with
    | none => .error (.input (.expectedPair (String.ofList segment)))
    | some (key, value) =>
      o.set (String.ofList (Text.trimChars key)) (String.ofList (Text.trimChars value))

/-- The options that a text describes; what it does not mention is as in `default`. -/
def read (s : String) : Except Error Options := (splitAll ';' s.toList).foldlM addSegment default

end Options

end RowMapping
