import RowMapping.Error

/-!
# Runs

What a reader does is a run: the calls that it makes to its cursor, each with the answer, and a
result.  With every call goes what would be left of the reader if the run were given up there,
before the call is made.
-/

namespace RowMapping

/-- A call to a cursor. -/
inductive Call where
  /-- For the next row. -/
  | row
  /-- For the next result set. -/
  | resultSet
  deriving DecidableEq

/-- A call that was made. -/
structure CallRecord (ρ : Type) where
  /-- The call. -/
  call : Call
  /-- Its answer. -/
  answer : Except Error Bool
  /-- What is left if the run is given up instead. -/
  held : ρ

/-- The calls that were made and a result. -/
structure Run (ρ α : Type) where
  /-- The calls, in their order. -/
  calls : List (CallRecord ρ)
  /-- The result. -/
  result : α

namespace Run

variable {ρ α β : Type}

/-- The run without calls. -/
protected def pure (x : α) : Run ρ α := ⟨[], x⟩

/-- A run followed by one that depends on its result. -/
protected def bind (r : Run ρ α) (f : α → Run ρ β) : Run ρ β :=
  ⟨r.calls ++ (f r.result).calls, (f r.result).result⟩

instance : Monad (Run ρ) where
  pure := Run.pure
  bind := Run.bind

instance : LawfulMonad (Run ρ) :=
  LawfulMonad.mk' _
    (fun r => by simp [Functor.map, Run.bind, Run.pure])
    (fun x f => by simp [bind, pure, Run.bind, Run.pure])
    (fun r f g => by simp [bind, Run.bind, List.append_assoc])

/-- The run of a single call. -/
def ofCall (call : Call) (answer : Except Error Bool) (held : ρ) : Run ρ Unit :=
  ⟨[⟨call, answer, held⟩], ()⟩

@[simp] theorem calls_pure (x : α) : (pure x : Run ρ α).calls = [] := rfl

@[simp] theorem result_pure (x : α) : (pure x : Run ρ α).result = x := rfl

@[simp] theorem calls_bind (r : Run ρ α) (f : α → Run ρ β) :
    (r >>= f).calls = r.calls ++ (f r.result).calls := rfl

@[simp] theorem result_bind (r : Run ρ α) (f : α → Run ρ β) :
    (r >>= f).result = (f r.result).result := rfl

end Run

end RowMapping
