import RowMapping.Proofs.Row.Edits

/-!
# Rows that share a schema

A family of rows over one schema.  Its rows are made and edited in any order, and its schema gets
columns of its own besides those that the rows want.  The list of names and the index beside it are
kept in step by all of this.

* `Columns.Indexed.push`: a column that is added leaves the index giving first places;
* `RowFamily.Sound.run`: so it is after any history of a family;
* `RowFamily.names_prefix_run`: names are only added behind those that are there;
* `RowFamily.first_places`: what looking up, adding and writing by name do at any moment.
-/

namespace RowMapping

/-! ### Names and their index -/

namespace Columns

/-- The index gives the first place of a name, and none for a name that does not occur. -/
def Indexed (c : Columns) : Prop := ∀ name, c.index.lookup name = c.names.idxOf? name

variable {c : Columns} (h : c.Indexed) (name : String)
include h

/-- **Adding a column keeps the index right.**  A name that occurs already keeps its place; a new
one is entered with the place that it gets. -/
theorem Indexed.push : (c.push name).Indexed := by
  intro other
  have hnames : (c.push name).names.idxOf? other =
      (c.names.idxOf? other).or (if name == other then some c.names.length else none) := by
    rw [Columns.push, List.idxOf?, List.findIdx?_append]
    cases hname : name == other <;> simp [hname]
  rw [hnames, ← h other]
  cases hplace : c.index.lookup name with
  | some i =>
    have hindex : (c.push name).index = c.index := by simp only [Columns.push, hplace]
    rw [hindex]
    cases hname : name == other with
    | true =>
      rw [← eq_of_beq hname, hplace]
      rfl
    | false => exact (Option.or_none).symm
  | none =>
    have hindex : (c.push name).index = (name, c.names.length) :: c.index := by
      simp only [Columns.push, hplace]
    rw [hindex, List.lookup_cons, BEq.comm]
    cases hname : name == other with
    | true =>
      rw [← eq_of_beq hname, hplace]
      rfl
    | false => exact (Option.or_none).symm

omit h in
theorem indexed_ofNames (names : List String) : (ofNames names).Indexed := by
  suffices ∀ c : Columns, c.Indexed → (names.foldl Columns.push c).Indexed from
    this empty fun _ => rfl
  induction names with
  | nil => exact fun _ h => h
  | cons name names ih => exact fun c h => ih (c.push name) (h.push name)

end Columns

namespace Schema

variable {s : Schema} {name : String}

theorem indexOf?_eq_some_iff (h : s.columns.Indexed) {i : Nat} :
    s.indexOf? name = some i ↔ s.names[i]? = some name ∧ ∀ j < i, s.names[j]? ≠ some name := by
  rw [indexOf?, h name, List.idxOf?_eq_some_iff]
  constructor
  · rintro ⟨hi, hname, hbefore⟩
    refine ⟨List.getElem?_eq_some_iff.2 ⟨hi, hname⟩, fun j hj hother => ?_⟩
    exact hbefore j hj (List.getElem?_eq_some_iff.1 hother).2
  · rintro ⟨hname, hbefore⟩
    obtain ⟨hi, hname⟩ := List.getElem?_eq_some_iff.1 hname
    refine ⟨hi, hname, fun j hj hother => hbefore j hj ?_⟩
    exact List.getElem?_eq_some_iff.2 ⟨Nat.lt_trans hj hi, hother⟩

theorem indexOf?_eq_none_iff (h : s.columns.Indexed) : s.indexOf? name = none ↔ name ∉ s.names := by
  rw [indexOf?, h name]
  exact List.idxOf?_eq_none_iff

theorem exists_indexOf?_of_mem (h : s.columns.Indexed) (hname : name ∈ s.names) :
    ∃ i, s.indexOf? name = some i :=
  Option.ne_none_iff_exists'.1 fun hnone => (indexOf?_eq_none_iff h).1 hnone hname

theorem addColumn_of_mem (h : s.columns.Indexed) (hname : name ∈ s.names) :
    s.addColumn name = .error (.duplicateColumn name) := by
  obtain ⟨i, hi⟩ := exists_indexOf?_of_mem h hname
  simp only [addColumn, hi]

theorem addColumn_of_notMem (h : s.columns.Indexed) (hname : name ∉ s.names) :
    s.addColumn name = .ok (s.names.length, s.append name) := by
  simp only [addColumn, (indexOf?_eq_none_iff h).2 hname]

theorem indexOrAdd_of_mem (h : s.columns.Indexed) (hname : name ∈ s.names) :
    (s.indexOrAdd name).2 = s ∧ s.indexOf? name = some (s.indexOrAdd name).1 := by
  obtain ⟨i, hi⟩ := exists_indexOf?_of_mem h hname
  simp only [indexOrAdd, hi, and_self]

theorem indexOrAdd_of_notMem (h : s.columns.Indexed) (hname : name ∉ s.names) :
    s.indexOrAdd name = (s.names.length, s.append name) := by
  simp only [indexOrAdd, (indexOf?_eq_none_iff h).2 hname]

theorem indexed_indexOrAdd (h : s.columns.Indexed) (name : String) :
    (s.indexOrAdd name).2.columns.Indexed := by
  by_cases hname : name ∈ s.names
  · rw [(indexOrAdd_of_mem h hname).1]
    exact h
  · rw [indexOrAdd_of_notMem h hname]
    exact h.push name

theorem indexOf?_indexOrAdd (h : s.columns.Indexed) (name : String) :
    (s.indexOrAdd name).2.indexOf? name = some (s.indexOrAdd name).1 := by
  by_cases hname : name ∈ s.names
  · obtain ⟨hsame, hplace⟩ := indexOrAdd_of_mem h hname
    rw [hsame, hplace]
  · rw [indexOrAdd_of_notMem h hname]
    refine (indexOf?_eq_some_iff (s := s.append name) (h.push name)).2 ⟨by simp, ?_⟩
    intro j hj hother
    rw [names_append, List.getElem?_append_left hj] at hother
    exact hname (List.mem_of_getElem? hother)

theorem names_indexOrAdd_eq (h : s.columns.Indexed) (name : String) :
    (s.indexOrAdd name).2.names = if name ∈ s.names then s.names else s.names ++ [name] := by
  split
  · rename_i hname
    rw [(indexOrAdd_of_mem h hname).1]
  · rename_i hname
    rw [indexOrAdd_of_notMem h hname, names_append]

end Schema

/-! ### Families of rows -/

/-- Rows that share a schema, which is kept among all schemas. -/
structure RowFamily where
  /-- All schemas. -/
  schemas : Schemas
  /-- The schema that the rows share. -/
  schemaId : SchemaId
  /-- The rows, in the order in which they were made. -/
  rows : List Row

/-- What happens to a family of rows. -/
inductive FamilyEvent where
  /-- A row is made with the first columns set. -/
  | make (vs : List Value)
  /-- The row of that number is edited, if there is one. -/
  | edit (k : Nat) (edit : RowEdit)
  /-- A column is added to the schema. -/
  | addColumn (name : String)

namespace RowFamily

/-- A family without rows, over a new schema. -/
def fresh (ss : Schemas) (names : List String) : RowFamily := ⟨ss.push ⟨names⟩, ss.next, []⟩

variable (f : RowFamily)

/-- The shared schema. -/
def schema : Schema := f.schemas.get f.schemaId

/-- The family after an event. -/
def after : FamilyEvent → RowFamily
  | .make vs => { f with rows := f.rows ++ [.ofValues f.schemaId vs] }
  | .edit k edit =>
    { f with
      schemas :=
        match f.rows[k]? with
        | some row => (edit.perform row f.schemas).2
        | none => f.schemas
      rows := f.rows.modify k fun row => (edit.perform row f.schemas).1 }
  | .addColumn name =>
    match f.schema.addColumn name with
    | .ok (_, s) => { f with schemas := f.schemas.set f.schemaId s }
    | .error _ => f

/-- The family after a history. -/
def run (events : List FamilyEvent) : RowFamily := events.foldl after f

/-- The name of which a column is wanted in an event. -/
def wanted? : FamilyEvent → Option String
  | .make _ => none
  | .edit k edit => if k < f.rows.length then edit.name? else none
  | .addColumn name => some name

/-- The rows share the schema, which is there and has its index right. -/
structure Sound : Prop where
  /-- The schema is there. -/
  has : f.schemas.Has f.schemaId
  /-- All rows are rows of it. -/
  shared : ∀ row ∈ f.rows, row.schema = f.schemaId
  /-- Its index gives first places. -/
  indexed : f.schema.columns.Indexed

variable {f}

theorem sound_fresh (ss : Schemas) (names : List String) : (fresh ss names).Sound where
  has := Schemas.has_push_next _
  shared := nofun
  indexed := by
    rw [schema, fresh, Schemas.get_push_next]
    exact Columns.indexed_ofNames names

theorem schema_fresh (ss : Schemas) (names : List String) : (fresh ss names).schema = ⟨names⟩ :=
  Schemas.get_push_next _

/-! ### One event -/

/-- A column that is wanted in an event is added to the schema if it is new.  No event does anything
else to the schemas. -/
theorem schemas_after (h : f.Sound) (event : FamilyEvent) :
    (f.after event).schemas =
      match f.wanted? event with
      | some name => f.schemas.set f.schemaId (f.schema.indexOrAdd name).2
      | none => f.schemas := by
  cases event with
  | make vs => rfl
  | edit k edit =>
    cases hrow : f.rows[k]? with
    | none =>
      have hk : ¬ k < f.rows.length := Nat.not_lt.2 (List.getElem?_eq_none_iff.1 hrow)
      simp only [after, hrow, wanted?, if_neg hk]
    | some row =>
      have hk : k < f.rows.length := (List.getElem?_eq_some_iff.1 hrow).1
      have hshared : row.schema = f.schemaId := h.shared row (List.mem_of_getElem? hrow)
      have hwanted : f.wanted? (.edit k edit) = edit.name? := if_pos hk
      rw [hwanted]
      simp only [after, hrow, edit.schemas_perform, hshared]
      cases edit.name? with
      | none => rfl
      | some name => rfl
  | addColumn name =>
    cases hplace : f.schema.indexOf? name with
    | some i =>
      simp only [after, Schema.addColumn, wanted?, Schema.indexOrAdd, hplace]
      exact Schemas.set_get_self.symm
    | none => simp only [after, Schema.addColumn, wanted?, Schema.indexOrAdd, hplace]

theorem schemaId_after (event : FamilyEvent) : (f.after event).schemaId = f.schemaId := by
  cases event with
  | make | edit => rfl
  | addColumn name =>
    simp only [after]
    split <;> rfl

theorem rows_addColumn (name : String) : (f.after (.addColumn name)).rows = f.rows := by
  simp only [after]
  split <;> rfl

theorem schema_after (h : f.Sound) (event : FamilyEvent) :
    (f.after event).schema =
      match f.wanted? event with
      | some name => (f.schema.indexOrAdd name).2
      | none => f.schema := by
  rw [schema, schemas_after h, schemaId_after]
  cases f.wanted? event with
  | some name => exact Schemas.get_set_self _ h.has
  | none => rfl

/-- **Every event keeps a family sound.** -/
theorem Sound.after (h : f.Sound) (event : FamilyEvent) : (f.after event).Sound where
  has := by
    rw [schemas_after h, schemaId_after]
    cases f.wanted? event with
    | some name => exact (Schemas.has_set _).2 h.has
    | none => exact h.has
  shared := by
    rw [schemaId_after]
    intro row hrow
    cases event with
    | make vs =>
      rcases List.mem_append.1 hrow with hrow | hrow
      · exact h.shared row hrow
      · rw [List.mem_singleton.1 hrow]
        rfl
    | edit k edit =>
      obtain ⟨j, hj⟩ := List.mem_iff_getElem?.1 hrow
      simp only [RowFamily.after, List.getElem?_modify] at hj
      obtain ⟨old, hold, rfl⟩ := Option.map_eq_some_iff.1 hj
      have hshared := h.shared old (List.mem_of_getElem? hold)
      split
      · rw [edit.schema_perform, hshared]
      · exact hshared
    | addColumn name => exact h.shared row (rows_addColumn name ▸ hrow)
  indexed := by
    rw [schema_after h]
    cases f.wanted? event with
    | some name => exact Schema.indexed_indexOrAdd h.indexed name
    | none => exact h.indexed

/-! ### Histories -/

/-- **The index is right after any history.** -/
theorem Sound.run (h : f.Sound) (events : List FamilyEvent) : (f.run events).Sound := by
  induction events generalizing f with
  | nil => exact h
  | cons event events ih => exact ih (h.after event)

theorem names_prefix_after (h : f.Sound) (event : FamilyEvent) :
    f.schema.names <+: (f.after event).schema.names := by
  rw [schema_after h]
  cases f.wanted? event with
  | some name =>
    dsimp only
    rw [Schema.names_indexOrAdd]
    exact List.prefix_append _ _
  | none => exact List.prefix_rfl

/-- **Names are only added**, behind those that are there. -/
theorem names_prefix_run (h : f.Sound) (events : List FamilyEvent) :
    f.schema.names <+: (f.run events).schema.names := by
  induction events generalizing f with
  | nil => exact List.prefix_rfl
  | cons event events ih => exact (names_prefix_after h event).trans (ih (h.after event))

/-- A name that has a place keeps it. -/
theorem indexOf?_run (h : f.Sound) {name : String} {i : Nat}
    (hname : f.schema.indexOf? name = some i) (events : List FamilyEvent) :
    (f.run events).schema.indexOf? name = some i := by
  obtain ⟨added, hadded⟩ := names_prefix_run h events
  obtain ⟨hplace, hfirst⟩ := (Schema.indexOf?_eq_some_iff h.indexed).1 hname
  have hi : i < f.schema.names.length := (List.getElem?_eq_some_iff.1 hplace).1
  -- up to the place that it has, the names are the same as before
  have hsame {j : Nat} (hj : j ≤ i) : (f.run events).schema.names[j]? = f.schema.names[j]? := by
    rw [← hadded, List.getElem?_append_left (Nat.lt_of_le_of_lt hj hi)]
  rw [Schema.indexOf?_eq_some_iff (h.run events).indexed]
  refine ⟨(hsame (Nat.le_refl i)).trans hplace, fun j hj => ?_⟩
  rw [hsame (Nat.le_of_lt hj)]
  exact hfirst j hj

/-- **Names and places.**  At any moment in the life of a schema its names are the first ones and
behind them those that came later, and a name is found at the first place where it occurs, now and
from then on.  A column is refused iff there is one of its name; otherwise it gets the place behind
the last.  Writing to a row by name gives the place at which the name is found afterwards, and only
a name that is new is added. -/
theorem first_places (ss : Schemas) (names : List String) (past later : List FamilyEvent) :
    let f := (fresh ss names).run past
    let s := f.schema
    (names <+: s.names ∧ s.names <+: (f.run later).schema.names) ∧
      (∀ name i, s.indexOf? name = some i ↔
        s.names[i]? = some name ∧ ∀ j < i, s.names[j]? ≠ some name) ∧
      (∀ name, s.indexOf? name = none ↔ name ∉ s.names) ∧
      (∀ name i, s.indexOf? name = some i → (f.run later).schema.indexOf? name = some i) ∧
      (∀ name, name ∈ s.names →
        s.addColumn name = .error (.duplicateColumn name) ∧ f.after (.addColumn name) = f) ∧
      (∀ name, name ∉ s.names →
        s.addColumn name = .ok (s.names.length, (f.after (.addColumn name)).schema) ∧
          (f.after (.addColumn name)).schema.names = s.names ++ [name]) ∧
      ∀ cells name v,
        let r := Row.setByName ⟨f.schemaId, cells⟩ f.schemas name v
        (r.2.2.get f.schemaId).indexOf? name = some r.1 ∧
          (r.2.2.get f.schemaId).names =
            if name ∈ s.names then s.names else s.names ++ [name] := by
  intro f s
  have hfresh := sound_fresh ss names
  have h : f.Sound := hfresh.run past
  refine ⟨⟨?_, names_prefix_run h later⟩, fun _ _ => Schema.indexOf?_eq_some_iff h.indexed,
    fun _ => Schema.indexOf?_eq_none_iff h.indexed, fun _ _ hname => indexOf?_run h hname later,
    fun name hname => ?_, fun name hname => ?_, fun cells name v => ?_⟩
  · have hgrown := names_prefix_run hfresh past
    rwa [schema_fresh, Schema.names_mk, Columns.names_ofNames] at hgrown
  · have hrefused := Schema.addColumn_of_mem h.indexed hname
    exact ⟨hrefused, by simp only [after, hrefused]⟩
  · have hadded := Schema.addColumn_of_notMem h.indexed hname
    have hschema : (f.after (.addColumn name)).schema = s.append name := by
      simp only [schema_after h, wanted?]
      rw [Schema.indexOrAdd_of_notMem h.indexed hname]
    rw [hschema]
    exact ⟨hadded, Schema.names_append s name⟩
  · intro r
    have hget : r.2.2.get f.schemaId = (s.indexOrAdd name).2 := Schemas.get_set_self _ h.has
    rw [hget]
    exact ⟨Schema.indexOf?_indexOrAdd h.indexed name, Schema.names_indexOrAdd_eq h.indexed name⟩

/-- A name that occurs twice at the start, one that is added to the schema and one that comes by a
row. -/
theorem first_places_of_duplicate :
    let past : List FamilyEvent :=
      [.addColumn "age", .make [.signed 1], .edit 0 (.setByName "tag" .null)]
    let f := (fresh {} ["id", "name", "id"]).run past
    let later := f.run [.make [], .edit 1 (.setByName "id" .null), .addColumn "id"]
    f.schema.names = ["id", "name", "id", "age", "tag"] ∧
      f.schema.indexOf? "id" = some 0 ∧ later.schema.indexOf? "id" = some 0 ∧
      f.schema.addColumn "id" = .error (.duplicateColumn "id") ∧
      f.schema.addColumn "zip" = .ok (5, (f.after (.addColumn "zip")).schema) := by
  intro past f later
  obtain ⟨-, -, -, hkept, hrefused, hadded, -⟩ :=
    first_places {} ["id", "name", "id"] past
      [.make [], .edit 1 (.setByName "id" .null), .addColumn "id"]
  have hnames : f.schema.names = ["id", "name", "id", "age", "tag"] := by decide +kernel
  have hplace : f.schema.indexOf? "id" = some 0 := by decide +kernel
  refine ⟨hnames, hplace, hkept "id" 0 hplace, (hrefused "id" ?_).1, ?_⟩
  · exact hnames ▸ (by decide)
  · have hzip := (hadded "zip" (hnames ▸ (by decide))).1
    rwa [hnames] at hzip

end RowFamily

end RowMapping
