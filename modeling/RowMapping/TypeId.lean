import RowMapping.DbType

/-!
# Identities of destination types

Handlers are registered for a destination type, and messages name one.  `TypeId` tells destination
types apart; how a type is spelled in a message is left to the caller.
-/

namespace RowMapping

/-- The identity of a destination type. -/
inductive TypeId where
  /-- Integers of fixed width. -/
  | int (type : IntType)
  /-- Truth values. -/
  | bool
  /-- Binary floating-point numbers of 32 bits. -/
  | single
  /-- Binary floating-point numbers of 64 bits. -/
  | double
  /-- Decimal numbers. -/
  | decimal
  /-- Texts. -/
  | text
  /-- Sequences of bytes. -/
  | bytes
  /-- Dates with a time of day. -/
  | dateTime
  /-- Globally unique identifiers. -/
  | guid
  /-- Values as they are. -/
  | value
  /-- A type of its own name. -/
  | declared (name : String)
  deriving DecidableEq

end RowMapping
