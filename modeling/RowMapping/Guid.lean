import RowMapping.Text.Hex
import RowMapping.Text.Fold

/-!
# Globally unique identifiers

An identifier is sixteen bytes.  It is written as 32 hexadecimal digits in groups of 8, 4, 4, 4
and 12, with hyphens between the groups.  It is read in that form, with braces around it or
`urn:uuid:` before it, or as 32 digits without hyphens.
-/

namespace RowMapping

/-- An identifier of sixteen bytes. -/
structure Guid where
  /-- The bytes, in the order in which they are written. -/
  bytes : List UInt8
  length_bytes : bytes.length = 16
  deriving DecidableEq

namespace Guid

/-- The identifier with the given bytes, if they are sixteen. -/
def ofBytes? (bytes : List UInt8) : Option Guid :=
  if h : bytes.length = 16 then some ⟨bytes, h⟩ else none

/-- The identifier whose bytes are all zero. -/
def nil : Guid := ⟨List.replicate 16 0, by decide⟩

/-- The numbers of digits in the groups of the written form. -/
def groups : List Nat := [8, 4, 4, 4, 12]

/-- The characters cut into groups of the given sizes, with hyphens between them. -/
def hyphenate : List Nat → List Char → List Char
  | [], _ => []
  | [n], cs => cs.take n
  | n :: ns, cs => cs.take n ++ '-' :: hyphenate ns (cs.drop n)

/-- The characters without the hyphens between groups of the given sizes; none if the groups have
other sizes. -/
def joinGroups? : List Nat → List Char → Option (List Char)
  | [], cs => if cs.isEmpty then some [] else none
  | [n], cs => if cs.length = n then some cs else none
  | n :: ns, cs =>
    match cs.drop n with
    | '-' :: rest => (joinGroups? ns rest).map (cs.take n ++ ·)
    | _ => none

/-- The characters of the written form. -/
def chars (g : Guid) : List Char := hyphenate groups (Text.hexBytes g.bytes)

/-- The written form: small digits and hyphens. -/
def text (g : Guid) : String := String.ofList g.chars

/-- The identifier with the given digits. -/
def ofDigits? (cs : List Char) : Option Guid := (Text.readHexBytes? cs).bind ofBytes?

/-- The identifier with the given hyphenated digits. -/
def ofHyphenated? (cs : List Char) : Option Guid := (joinGroups? groups cs).bind ofDigits?

/-- The text in front of an identifier that is written as a name. -/
def nameStart : List Char := "urn:uuid:".toList

/-- The identifier that the characters denote, in any of the forms.  The form is known by the
number of characters. -/
def ofChars? (cs : List Char) : Option Guid :=
  if cs.length = 32 then ofDigits? cs
  else if cs.length = 36 then ofHyphenated? cs
  else if cs.length = 38 then
    if cs.head? = some '\x7b' && cs.getLast? = some '\x7d' then ofHyphenated? (cs.drop 1).dropLast
    else none
  else if cs.length = 45 then
    if (cs.take 9).map Char.toLower = nameStart then ofHyphenated? (cs.drop 9) else none
  else none

/-- The identifier that a text denotes. -/
def read? (s : String) : Option Guid := ofChars? s.toList

end Guid

end RowMapping
