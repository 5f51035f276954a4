import RowMapping.Text.Fold
import RowMapping.Value

/-!
# Parameters

Parameters have a name and an order.  Names are compared without regard to case, and markers in
front of a name do not count when it is bound.  Binding a name again replaces its value in place.
-/

namespace RowMapping

/-- What is bound to a parameter. -/
inductive ParamValue where
  /-- A single value. -/
  | scalar (v : Value)
  /-- The elements of a list. -/
  | list (vs : List Value)
  deriving DecidableEq

namespace ParamValue

/-- A list is bound. -/
def isList : ParamValue → Bool
  | scalar _ => false
  | list _ => true

/-- The name of the kind of what is bound. -/
def kind : ParamValue → String
  | scalar v => v.kind
  | list _ => "list"

end ParamValue

/-- Parameters in the order in which they were first bound. -/
structure Params where
  /-- The names, as spelled at first, with what is bound to them now. -/
  entries : List (String × ParamValue) := []
  deriving DecidableEq

namespace Params

variable (p : Params)

/-- No parameters. -/
def empty : Params := {}

/-- The character may stand in front of a name. -/
def isMarker (c : Char) : Bool := c == '@' || c == ':'

/-- The name without markers in front. -/
def bareName (name : String) : String := String.ofList (name.toList.dropWhile isMarker)

/-- What is bound to a name. -/
def get? (name : String) : Option ParamValue :=
  (p.entries.find? fun e => Text.sameName e.1 name).map (·.2)

/-- The number of parameters. -/
def size : Nat := p.entries.length

/-- Puts the value in the place of the first entry of that name, or else at the end. -/
def put (name : String) (v : ParamValue) :
    List (String × ParamValue) → List (String × ParamValue)
  | [] => [(name, v)]
  | e :: es => if Text.sameName e.1 name then (e.1, v) :: es else e :: put name v es

/-- Binds a name. -/
def set (name : String) (v : ParamValue) : Params := ⟨put (bareName name) v p.entries⟩

/-- Binds a name to a single value. -/
def bind (name : String) (v : Value) : Params := p.set name (.scalar v)

/-- Binds a name to a list. -/
def bindList (name : String) (vs : List Value) : Params := p.set name (.list vs)

/-- Adds a parameter that is named for its place. -/
def push (v : Value) : Params := ⟨p.entries ++ [("p" ++ Text.natText p.size, .scalar v)]⟩

/-- The parameters with the given names and values, bound one after the other. -/
def ofList (pairs : List (String × Value)) : Params :=
  pairs.foldl (fun p pair => p.bind pair.1 pair.2) empty

end Params

end RowMapping
