import RowMapping.Error

/-!
# Handlers

A handler replaces the conversion to one destination type.  A table holds at most one handler for
each type.
-/

namespace RowMapping

/-- A conversion of values that are not null. -/
abbrev Handler := Value → Except Error Value

/-- The handlers by destination type. -/
structure Handlers where
  /-- The types with their handlers, the first of a type being the one that counts. -/
  entries : List (TypeId × Handler) := []

namespace Handlers

variable (h : Handlers)

/-- The table without handlers. -/
def empty : Handlers := {}

/-- The handler of a type. -/
def find? (t : TypeId) : Option Handler := h.entries.lookup t

/-- The table without a handler of the type. -/
def erase (t : TypeId) : Handlers := ⟨h.entries.filter fun e => e.1 != t⟩

/-- The table with the handler of a type put in, in place of an earlier one. -/
def insert (t : TypeId) (handler : Handler) : Handlers := ⟨(t, handler) :: (h.erase t).entries⟩

/-- The number of types with a handler. -/
def size : Nat := h.entries.length

end Handlers

end RowMapping
