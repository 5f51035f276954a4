/-!
# Comparing names without regard to case

Names of columns, members, parameters and variants are compared after folding the ASCII capital
letters; all other characters are compared as they are.
-/

namespace RowMapping.Text

/-- The characters of a name with ASCII capitals made small.  Two names are the same up to case
iff their folds are equal. -/
def fold (s : String) : List Char := s.toList.map Char.toLower

/-- The two names are equal up to the case of ASCII letters. -/
def sameName (a b : String) : Bool := fold a == fold b

theorem sameName_iff {a b : String} : sameName a b = true ↔ fold a = fold b := by
  simp [sameName]

end RowMapping.Text
