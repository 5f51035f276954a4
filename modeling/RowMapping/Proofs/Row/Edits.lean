import RowMapping.Row.Basic

/-!
# Edits of dynamic rows

Rows can be edited after they were made.  Their schemas are shared, so that an edit of one row can
show in others: a column of a new name is put at the end of the schema.  Nothing else changes a
schema (`RowEdit.names_perform`).
-/

namespace RowMapping

namespace Schemas

/-- There is a schema of that identity. -/
def Has (ss : Schemas) (id : SchemaId) : Prop := id.index < ss.all.length

instance (ss : Schemas) (id : SchemaId) : Decidable (ss.Has id) :=
  inferInstanceAs (Decidable (id.index < ss.all.length))

variable {ss : Schemas} {id id' : SchemaId} (s : Schema) (heading : Heading)

theorem has_set : (ss.set id' s).Has id ↔ ss.Has id := by
  rw [Has, Has, set, List.length_set]

theorem Has.push (h : ss.Has id) : (ss.push heading).Has id := by
  rw [Has, Schemas.push, List.length_append]
  exact Nat.lt_add_right _ h

theorem not_has_next : ¬ ss.Has ss.next := Nat.lt_irrefl _

theorem has_push_next : (ss.push heading).Has ss.next := by simp [Has, push, next]

theorem get_set_self (h : ss.Has id) : (ss.set id s).get id = s := by
  simp [get, set, List.getD_eq_getElem?_getD, List.getElem?_set_self h]

theorem get_set_of_ne (h : id' ≠ id) : (ss.set id' s).get id = ss.get id := by
  have hindex : id'.index ≠ id.index := fun heq => h (by cases id; cases id'; cases heq; rfl)
  simp [get, set, List.getD_eq_getElem?_getD, List.getElem?_set_ne hindex]

theorem set_get_self : ss.set id (ss.get id) = ss := by
  by_cases h : id.index < ss.all.length
  · simp [get, set, List.getD_eq_getElem?_getD, List.getElem?_eq_getElem h]
  · rw [set, List.set_eq_of_length_le (Nat.le_of_not_lt h)]

theorem get_push (h : ss.Has id) : (ss.push heading).get id = ss.get id := by
  simp [get, push, List.getD_eq_getElem?_getD, List.getElem?_append_left h]

theorem get_push_next : (ss.push heading).get ss.next = ⟨heading.names⟩ := by
  simp [get, push, next, List.getD_eq_getElem?_getD]

end Schemas

/-- The names that are put behind those of a schema when a column of that name is wanted. -/
def Schema.missing (s : Schema) (name : String) : List String :=
  if (s.indexOf? name).isSome then [] else [name]

theorem Schema.names_indexOrAdd (s : Schema) (name : String) :
    (s.indexOrAdd name).2.names = s.names ++ s.missing name := by
  unfold indexOrAdd missing
  cases s.indexOf? name <;> simp

/-- An edit of a dynamic row. -/
inductive RowEdit where
  /-- The value of a column is written. -/
  | set (i : Nat) (v : Value)
  /-- The value of the first column of that name is written. -/
  | setByName (name : String) (v : Value)
  /-- A column is unset. -/
  | remove (i : Nat)
  /-- The first column of that name is unset. -/
  | removeByName (name : String)
  /-- A column is added to the schema of the row. -/
  | addColumn (name : String)

namespace RowEdit

variable (r : Row) (ss : Schemas)

/-- The row and the schemas after the edit.  An edit that is rejected changes nothing. -/
def perform : RowEdit → Row × Schemas
  | set i v => ((r.set ss i v).toOption.getD r, ss)
  | setByName name v => (r.setByName ss name v).2
  | remove i => ((r.remove i).2, ss)
  | removeByName name => ((r.removeByName ss name).2, ss)
  | addColumn name =>
    match (ss.get r.schema).addColumn name with
    | .ok (_, s) => (r, ss.set r.schema s)
    | .error _ => (r, ss)

/-- The name of which there is a column after the edit. -/
def name? : RowEdit → Option String
  | setByName name _ | addColumn name => some name
  | set _ _ | remove _ | removeByName _ => none

/-- The names that the edit of a row adds to a schema: at most one, which is new. -/
def additions (id : SchemaId) (edit : RowEdit) : List String :=
  if r.schema = id ∧ ss.Has id then edit.name?.toList.flatMap (ss.get id).missing else []

variable {r ss} {id : SchemaId} (edit : RowEdit)

theorem schemas_perform :
    (edit.perform r ss).2 =
      match edit.name? with
      | some name => ss.set r.schema ((ss.get r.schema).indexOrAdd name).2
      | none => ss := by
  cases edit with
  | addColumn name =>
    -- the schema is put in again if it has the name
    cases hindex : (ss.get r.schema).indexOf? name with
    | some i =>
      simp only [perform, Schema.addColumn, name?, Schema.indexOrAdd, hindex]
      exact Schemas.set_get_self.symm
    | none => simp only [perform, Schema.addColumn, name?, Schema.indexOrAdd, hindex]
  | _ => rfl

theorem schema_perform : (edit.perform r ss).1.schema = r.schema := by
  cases edit with
  | set i v =>
    simp only [perform, Row.set]
    split <;> rfl
  | removeByName name =>
    simp only [perform, Row.removeByName]
    split <;> rfl
  | addColumn name =>
    simp only [perform]
    split <;> rfl
  | setByName | remove => rfl

theorem has_perform : (edit.perform r ss).2.Has id ↔ ss.Has id := by
  rw [schemas_perform]
  cases edit.name? with
  | some name => exact Schemas.has_set _
  | none => rfl

theorem additions_of_not_has (h : ¬ ss.Has id) : edit.additions r ss id = [] :=
  if_neg fun hid => h hid.2

/-- **An edit only adds names.**  Every schema keeps its names and has what was added after them. -/
theorem names_perform (h : ss.Has id) :
    ((edit.perform r ss).2.get id).names = (ss.get id).names ++ edit.additions r ss id := by
  rw [schemas_perform]
  by_cases hid : r.schema = id
  · subst hid
    rw [additions, if_pos ⟨rfl, h⟩]
    cases edit.name? with
    | some name =>
      dsimp only
      rw [Schemas.get_set_self _ h, Schema.names_indexOrAdd, Option.toList_some,
        List.flatMap_singleton]
    | none => exact (List.append_nil _).symm
  · rw [additions, if_neg fun h => hid h.1, List.append_nil]
    cases edit.name? with
    | some name => exact congrArg _ (Schemas.get_set_of_ne _ hid)
    | none => rfl

end RowEdit

end RowMapping
