import RowMapping.Error

/-!
# Row schemas

A schema is the list of column names that dynamic rows share, with an index that gives the place of
a name.  It only grows.  A name may occur twice at the start; the index keeps its first place.  Rows
hold a `SchemaId`, and the schemas themselves are kept in one place, so that a column added through
one row is there for all.
-/

namespace RowMapping

/-- Names in the order of their places, and an index of them. -/
structure Columns where
  /-- The names. -/
  names : List String
  /-- The place at which each name is found. -/
  index : List (String × Nat)
  deriving DecidableEq

namespace Columns

/-- No names. -/
def empty : Columns := ⟨[], []⟩

/-- The names with one more behind them.  The index keeps the place that it has for a name. -/
def push (c : Columns) (name : String) : Columns :=
  ⟨c.names ++ [name],
    match c.index.lookup name with
    | some _ => c.index
    | none => (name, c.names.length) :: c.index⟩

/-- The columns for a list of names. -/
def ofNames (names : List String) : Columns := names.foldl push empty

instance : Coe (List String) Columns := ⟨ofNames⟩

theorem names_foldl_push (c : Columns) (names : List String) :
    (names.foldl push c).names = c.names ++ names := by
  induction names generalizing c with
  | nil => exact (List.append_nil _).symm
  | cons name names ih =>
    rw [List.foldl_cons, ih, push, List.append_assoc]
    rfl

@[simp] theorem names_ofNames (names : List String) : (ofNames names).names = names :=
  names_foldl_push empty names

end Columns

/-- The column names of dynamic rows. -/
structure Schema where
  /-- The names and their index. -/
  columns : Columns
  deriving DecidableEq

namespace Schema

variable (s : Schema)

/-- The names, in the order of their places. -/
def names : List String := s.columns.names

/-- The place at which a name is found. -/
def indexOf? (name : String) : Option Nat := s.columns.index.lookup name

/-- The schema with one more column. -/
def append (name : String) : Schema := ⟨s.columns.push name⟩

@[simp] theorem names_mk (c : Columns) : names ⟨c⟩ = c.names := rfl

@[simp] theorem names_append (name : String) : (s.append name).names = s.names ++ [name] := rfl

/-- Adds a column of a new name and gives its place. -/
def addColumn (name : String) : Except Error (Nat × Schema) :=
  match s.indexOf? name with
  | some _ => .error (.duplicateColumn name)
  | none => .ok (s.names.length, s.append name)

/-- The place of a name, which is added if it is new. -/
def indexOrAdd (name : String) : Nat × Schema :=
  match s.indexOf? name with
  | some i => (i, s)
  | none => (s.names.length, s.append name)

end Schema

/-- The column names for which a schema is made; a name may occur twice. -/
structure Heading where
  /-- The names. -/
  names : List String
  deriving DecidableEq

/-- The identity of a shared schema. -/
structure SchemaId where
  /-- The number of schemas that were there before. -/
  index : Nat
  deriving DecidableEq

/-- All shared schemas. -/
structure Schemas where
  /-- The schemas in the order in which they were made. -/
  all : List Schema := []
  deriving DecidableEq

namespace Schemas

variable (ss : Schemas)

/-- The schema of an identity. -/
def get (id : SchemaId) : Schema := ss.all.getD id.index ⟨.empty⟩

/-- The schemas with one of them changed. -/
def set (id : SchemaId) (s : Schema) : Schemas := ⟨ss.all.set id.index s⟩

/-- The identity that the next schema will have. -/
def next : SchemaId := ⟨ss.all.length⟩

/-- The schemas with one more, made for a heading. -/
def push (heading : Heading) : Schemas := ⟨ss.all ++ [⟨heading.names⟩]⟩

end Schemas

end RowMapping
