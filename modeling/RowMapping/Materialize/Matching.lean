import RowMapping.Layout.Basic
import RowMapping.Text.Fold

/-!
# Matching columns by name

Columns, parameters and members are matched by name: a name that is exactly the same is preferred,
and one that is the same up to case is taken otherwise.  What has been taken is not taken again.
The constructor with the most parameters that all find a column is chosen.
-/

namespace RowMapping.Matching

/-- The first place that is not taken and whose name satisfies a condition. -/
def firstFree? (taken : List Nat) (names : List String) (p : String → Bool) : Option Nat :=
  (names.zipIdx.find? fun e => !taken.contains e.2 && p e.1).map (·.2)

/-- The place of a name among those not taken: of an equal one, or else of one equal up to case. -/
def find? (taken : List Nat) (names : List String) (name : String) : Option Nat :=
  (firstFree? taken names (· == name)).or (firstFree? taken names (Text.sameName · name))

/-- The places of columns for all the names, each found among those that the names before it left
over. -/
def assign? (columns : List String) : (taken : List Nat) → List String → Option (List Nat)
  | _, [] => some []
  | taken, name :: names => do
    let i ← find? taken columns name
    let is ← assign? columns (i :: taken) names
    some (i :: is)

variable {α : Type}

/-- A constructor together with the places of the columns for its parameters. -/
abbrev Choice (α : Type) := Constructor α × List Nat

/-- The constructor with its columns, if all its parameters find one. -/
def complete? (columns : List String) (c : Constructor α) : Option (Choice α) :=
  (assign? columns [] (c.params.map (·.name))).map (c, ·)

/-- The choice with more parameters, the first one if they have the same number. -/
def better (best : Option (Choice α)) (candidate : Choice α) : Option (Choice α) :=
  match best with
  | none => some candidate
  | some b => if b.1.params.length < candidate.1.params.length then some candidate else some b

/-- The constructor that is chosen for the columns. -/
def choose? (columns : List String) (constructors : List (Constructor α)) : Option (Choice α) :=
  (constructors.filterMap (complete? columns)).foldl better none

/-- The members that are set, each with the place of its column.  The columns that are not taken
look for a member one after the other. -/
def assignMembers (names : List String) (taken : List Nat) :
    (assigned : List Nat) → List (String × Nat) → List (Nat × Nat)
  | _, [] => []
  | assigned, (column, i) :: rest =>
    if taken.contains i then assignMembers names taken assigned rest
    else
      match find? assigned names column with
      | some m => (i, m) :: assignMembers names taken (m :: assigned) rest
      | none => assignMembers names taken assigned rest

end RowMapping.Matching
