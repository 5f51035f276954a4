import RowMapping.Conversion.Destination
import RowMapping.Text.Fold

/-!
# Variants of an enumeration

A value names a variant by its number or, as a text, by its name.  Names are compared without
regard to case and blanks around a text do not count; the first variant that fits is taken.
-/

namespace RowMapping.Enumeration

variable (variants : List EnumVariant)

/-- The variant that a value names. -/
def find? : Value → Option (Fin variants.length)
  | .signed n => variants.findFinIdx? fun x => decide (x.value = n)
  | .unsigned n => variants.findFinIdx? fun x => decide (x.value.toInt = (n.toNat : Int))
  | .text s => variants.findFinIdx? fun x => Text.sameName x.name (Text.trim s)
  | _ => none

/-- The variant that a value names, or the error that it names none. -/
def find (v : Value) : Except Error (Fin variants.length) :=
  match find? variants v with
  | some i => .ok i
  | none => .error (.conversion (.noVariant v))

/-- The number of the variant that a value names. -/
def discriminant (v : Value) : Except Error Value :=
  (find variants v).map fun i => .signed variants[i].value

/-- The variant for a missing value: the one with number zero, or else the first. -/
def defaultIndex : Nat := (variants.findIdx? fun x => decide (x.value = 0)).getD 0

end RowMapping.Enumeration
