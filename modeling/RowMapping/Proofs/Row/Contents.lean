import Mathlib.Data.List.Forall2
import Mathlib.Data.List.Induction
import RowMapping.Proofs.Row.Family

/-!
# What rows contain

Rows over one schema are edited in any order, and their schema grows meanwhile.  What a row contains
depends on its own writes only: the last write to a column decides, whether it sets the column or
unsets it.

* `RowEdit.get?_perform`: an edit changes one cell of its row at most;
* `RowFamily.content_run`: after a history a row contains what its last writes left;
* `RowFamily.rows_independent`: this, and what writing to a row, listing it and reading it by name
  do at any moment.
-/

namespace RowMapping

/-! ### One cell -/

namespace Row

variable (r : Row) (i : Nat)

theorem get?_put (v : Value) (j : Nat) :
    (r.put i v).get? j = if j = i then some v else r.get? j := by
  have hlength : i < (r.cells ++ List.replicate (i + 1 - r.cells.length) none).length := by
    rw [List.length_append, List.length_replicate]
    omega
  simp only [get?, put]
  split
  · rename_i hj
    rw [hj, List.getElem?_set_self hlength, Option.join_some]
  · rename_i hj
    rw [List.getElem?_set_ne (Ne.symm hj), List.getElem?_append]
    split
    · rfl
    · rename_i hbehind
      -- the cells that are put in between are unset, like those that are not there
      rw [List.getElem?_eq_none (Nat.le_of_not_lt hbehind), List.getElem?_replicate]
      split <;> rfl

theorem length_put (v : Value) : (r.put i v).cells.length = max r.cells.length (i + 1) := by
  simp only [put, List.length_set, List.length_append, List.length_replicate]
  omega

theorem get?_remove (j : Nat) : (r.remove i).2.get? j = if j = i then none else r.get? j := by
  simp only [get?, remove, List.getElem?_set]
  split
  · rename_i hj
    rw [if_pos hj.symm]
    split <;> rfl
  · rename_i hj
    rw [if_neg (Ne.symm hj)]

theorem get?_ofValues (schema : SchemaId) (vs : List Value) :
    (ofValues schema vs).get? i = vs[i]? := by
  rw [get?, ofValues, List.getElem?_map]
  cases vs[i]? <;> rfl

end Row

/-! ### One edit -/

theorem Schema.indexOrAdd_fst {s : Schema} (h : s.columns.Indexed) (name : String) :
    (s.indexOrAdd name).1 = s.names.idxOf name := by
  rw [List.idxOf_eq_getD_idxOf?, names, ← h name]
  simp only [indexOrAdd, indexOf?]
  cases s.columns.index.lookup name <;> rfl

/-- What an edit writes to its row when the columns have these names: the column, and its new value
or none.  The place of a new name is behind the last. -/
def RowEdit.write? (names : List String) : RowEdit → Option (Nat × Option Value)
  | set i v => if i < names.length then some (i, some v) else none
  | setByName name v => some (names.idxOf name, some v)
  | remove i => some (i, none)
  | removeByName name => some (names.idxOf name, none)
  | addColumn _ => none

namespace RowEdit

variable {r : Row} {ss : Schemas} (edit : RowEdit)

/-- **An edit writes one cell.**  All other cells of the row stay as they are. -/
theorem get?_perform (hindexed : (ss.get r.schema).columns.Indexed)
    (hfits : r.cells.length ≤ (ss.get r.schema).names.length) (i : Nat) :
    (edit.perform r ss).1.get? i =
      match edit.write? (ss.get r.schema).names with
      | some (j, v) => if i = j then v else r.get? i
      | none => r.get? i := by
  cases edit with
  | set j v =>
    simp only [perform, Row.set, write?]
    split
    · exact r.get?_put j v i
    · rfl
  | setByName name v =>
    simp only [perform, Row.setByName, write?, ← Schema.indexOrAdd_fst hindexed name]
    exact r.get?_put _ v i
  | remove j => exact r.get?_remove j i
  | removeByName name =>
    have hplace := Schema.indexOrAdd_fst hindexed name
    simp only [perform, Row.removeByName, write?]
    cases hindex : (ss.get r.schema).indexOf? name with
    | some j =>
      simp only [Schema.indexOrAdd, hindex] at hplace
      rw [← hplace]
      exact r.get?_remove j i
    | none =>
      -- a name that does not occur has its place behind the last cell
      simp only [Schema.indexOrAdd, hindex] at hplace
      rw [← hplace]
      dsimp only
      split
      · rename_i hi
        rw [Row.get?, List.getElem?_eq_none (hi ▸ hfits), Option.join_none]
      · rfl
  | addColumn name =>
    simp only [perform, write?]
    split <;> rfl

theorem length_perform (hhas : ss.Has r.schema)
    (hindexed : (ss.get r.schema).columns.Indexed)
    (hfits : r.cells.length ≤ (ss.get r.schema).names.length) :
    (edit.perform r ss).1.cells.length ≤ ((edit.perform r ss).2.get r.schema).names.length := by
  cases edit with
  | set i v =>
    simp only [perform, Row.set]
    split
    · simp only [Except.toOption, Option.getD_some, Row.length_put]
      omega
    · exact hfits
  | setByName name v =>
    have hplace := Schema.indexOf?_indexOrAdd hindexed name
    have hnames := Schema.names_indexOrAdd (ss.get r.schema) name
    obtain ⟨hname, -⟩ :=
      (Schema.indexOf?_eq_some_iff (Schema.indexed_indexOrAdd hindexed name)).1 hplace
    have hlt := (List.getElem?_eq_some_iff.1 hname).1
    have hle := congrArg List.length hnames
    simp only [List.length_append] at hle
    simp only [perform, Row.setByName, Row.length_put, Schemas.get_set_self _ hhas]
    omega
  | remove i => exact (List.length_set ..).symm ▸ hfits
  | removeByName name =>
    simp only [perform, Row.removeByName]
    split
    · exact (List.length_set ..).symm ▸ hfits
    · exact hfits
  | addColumn name =>
    have hprefix := names_perform (.addColumn name) (r := r) hhas
    have hle := congrArg List.length hprefix
    simp only [List.length_append] at hle
    have hcells : ((addColumn name).perform r ss).1.cells = r.cells := by
      simp only [perform]
      split <;> rfl
    rw [hcells]
    omega

end RowEdit

/-! ### Writes -/

/-- The value that the last write to a column left there, none if that unset the column or if there
was no write to it. -/
def lastWrite (writes : List (Nat × Option Value)) (i : Nat) : Option Value :=
  (writes.reverse.lookup i).join

/-- The writes by which a row is made. -/
def initialWrites (vs : List Value) : List (Nat × Option Value) :=
  vs.zipIdx.map fun e => (e.2, some e.1)

theorem lookup_initialWrites (vs : List Value) (i : Nat) :
    (initialWrites vs).reverse.lookup i = vs[i]?.map some := by
  induction vs using List.reverseRecOn with
  | nil => rfl
  | append_singleton vs v ih =>
    simp only [initialWrites, List.zipIdx_append, List.map_append, List.reverse_append] at ih ⊢
    simp only [List.zipIdx_singleton, List.map_singleton, List.reverse_singleton, Nat.zero_add,
      List.singleton_append, List.lookup_cons, ih]
    by_cases hi : i = vs.length
    · simp [hi]
    · simp only [beq_eq_false_iff_ne.2 hi]
      rw [List.getElem?_append]
      split
      · rfl
      · rename_i hbehind
        rw [List.getElem?_eq_none (Nat.le_of_not_lt hbehind), List.getElem?_eq_none]
        simp only [List.length_singleton]
        omega

namespace RowFamily

variable (f : RowFamily)

/-- The writes of an event to the row of number `k`. -/
def writes (k : Nat) : FamilyEvent → List (Nat × Option Value)
  | .make vs => if k = f.rows.length then initialWrites vs else []
  | .edit j edit => if j = k ∧ k < f.rows.length then (edit.write? f.schema.names).toList else []
  | .addColumn _ => []

/-- The writes of a history to the row of number `k`, in their order. -/
def log (k : Nat) (f : RowFamily) : List FamilyEvent → List (Nat × Option Value)
  | [] => []
  | event :: events => f.writes k event ++ log k (f.after event) events

/-- A row that is made in the event has no more values than the schema has columns. -/
def MadeToFit : FamilyEvent → Prop
  | .make vs => vs.length ≤ f.schema.names.length
  | _ => True

/-- So it is for all rows that are made in a history, each at the moment when it is made. -/
def AllMadeToFit (f : RowFamily) : List FamilyEvent → Prop
  | [] => True
  | event :: events => f.MadeToFit event ∧ AllMadeToFit (f.after event) events

instance (event : FamilyEvent) : Decidable (f.MadeToFit event) :=
  match event with
  | .make vs => inferInstanceAs (Decidable (vs.length ≤ f.schema.names.length))
  | .edit .. | .addColumn _ => inferInstanceAs (Decidable True)

instance decidableAllMadeToFit (f : RowFamily) : (events : List FamilyEvent) →
    Decidable (f.AllMadeToFit events)
  | [] => inferInstanceAs (Decidable True)
  | event :: events =>
    have := decidableAllMadeToFit (f.after event) events
    inferInstanceAs (Decidable (f.MadeToFit event ∧ (f.after event).AllMadeToFit events))

/-- No row has more cells than the schema has columns. -/
def Fits : Prop := ∀ row ∈ f.rows, row.cells.length ≤ f.schema.names.length

/-- The value of a column in the row of number `k`. -/
def content (k i : Nat) : Option Value := f.rows[k]?.bind (·.get? i)

variable {f}

/-- **Rows stay within the schema**, whatever other rows do to it. -/
theorem Fits.after (h : f.Sound) (hfits : f.Fits) {event : FamilyEvent}
    (hmade : f.MadeToFit event) : (f.after event).Fits := by
  have hgrows := (names_prefix_after h event).length_le
  cases event with
  | make vs =>
    intro row hrow
    rcases List.mem_append.1 hrow with hrow | hrow
    · exact hfits row hrow
    · have hmade : vs.length ≤ f.schema.names.length := hmade
      rw [List.mem_singleton.1 hrow, Row.ofValues, List.length_map]
      exact hmade
  | edit k edit =>
    intro row hrow
    obtain ⟨j, hj⟩ := List.mem_iff_getElem?.1 hrow
    simp only [RowFamily.after, List.getElem?_modify] at hj
    obtain ⟨old, hold, rfl⟩ := Option.map_eq_some_iff.1 hj
    have hmem := List.mem_of_getElem? hold
    have hshared := h.shared old hmem
    split
    · rename_i hk
      have hschema : (f.after (.edit k edit)).schema =
          (edit.perform old f.schemas).2.get old.schema := by
        simp only [schema, RowFamily.after, hk, hold, hshared]
      rw [hschema]
      exact edit.length_perform (hshared ▸ h.has) (hshared ▸ h.indexed) (hshared ▸ hfits old hmem)
    · exact Nat.le_trans (hfits old hmem) hgrows
  | addColumn name =>
    intro row hrow
    rw [rows_addColumn] at hrow
    exact Nat.le_trans (hfits row hrow) hgrows

/-- **An event writes to one row.**  What any row contains afterwards is what its own writes in the
event left, and what it contained before in all other columns. -/
theorem content_after (h : f.Sound) (hfits : f.Fits) (event : FamilyEvent) (k i : Nat) :
    (f.after event).content k i =
      ((f.writes k event).reverse.lookup i).getD (f.content k i) := by
  cases event with
  | make vs =>
    simp only [content, after, writes]
    split
    · rename_i hk
      rw [hk, List.getElem?_concat_length, lookup_initialWrites,
        List.getElem?_eq_none (Nat.le_refl _)]
      simp only [Option.bind_some, Row.get?_ofValues]
      cases vs[i]? <;> rfl
    · rename_i hk
      rw [List.getElem?_append]
      split
      · rfl
      · rename_i hbehind
        rw [List.getElem?_eq_none (Nat.le_of_not_lt hbehind), List.getElem?_eq_none]
        · rfl
        · simp only [List.length_singleton]
          omega
  | edit j edit =>
    simp only [content, after, writes, List.getElem?_modify]
    cases hrow : f.rows[k]? with
    | none =>
      have hk : ¬ k < f.rows.length := Nat.not_lt.2 (List.getElem?_eq_none_iff.1 hrow)
      rw [if_neg fun h => hk h.2]
      rfl
    | some row =>
      have hk : k < f.rows.length := (List.getElem?_eq_some_iff.1 hrow).1
      have hmem := List.mem_of_getElem? hrow
      have hshared := h.shared row hmem
      have hindexed : (f.schemas.get row.schema).columns.Indexed := hshared ▸ h.indexed
      have hshort : row.cells.length ≤ (f.schemas.get row.schema).names.length :=
        hshared ▸ hfits row hmem
      have hcell := edit.get?_perform hindexed hshort i
      rw [hshared] at hcell
      by_cases hj : j = k
      · rw [if_pos ⟨hj, hk⟩]
        simp only [hj, if_true, Option.map_eq_map, Option.map_some, Option.bind_some, hcell]
        rw [schema]
        cases edit.write? (f.schemas.get f.schemaId).names with
        | none => rfl
        | some write =>
          obtain ⟨column, v⟩ := write
          simp only [Option.toList_some, List.reverse_singleton, List.lookup_cons, List.lookup_nil]
          by_cases hi : i = column
          · simp only [hi, if_true, beq_self_eq_true, Option.getD_some]
          · simp only [hi, if_false, beq_eq_false_iff_ne.2 hi, Option.getD_none]
      · rw [if_neg fun h => hj h.1]
        simp only [hj, if_false]
        rfl
  | addColumn name =>
    rw [content, rows_addColumn]
    rfl

/-- **What a row contains is what its last writes left.**  The induction is on the history; that
rows stay within the schema carries it. -/
theorem content_run (h : f.Sound) (hfits : f.Fits) {events : List FamilyEvent}
    (hmade : f.AllMadeToFit events) (k i : Nat) :
    (f.run events).content k i = ((f.log k events).reverse.lookup i).getD (f.content k i) ∧
      (f.run events).Fits := by
  induction events generalizing f with
  | nil => exact ⟨rfl, hfits⟩
  | cons event events ih =>
    obtain ⟨hcontent, hrun⟩ := ih (h.after event) (hfits.after h hmade.1) hmade.2
    refine ⟨?_, hrun⟩
    rw [log, List.reverse_append, List.lookup_append]
    refine hcontent.trans ?_
    rw [content_after h hfits]
    cases (log k (f.after event) events).reverse.lookup i <;> rfl

end RowFamily

/-! ### Listing a row -/

/-- What is kept of a list goes with what is made of it, where something is made of what is kept and
of nothing else. -/
theorem forall₂_filter_filterMap {α β : Type} {R : α → β → Prop} {p : α → Bool}
    {g : α → Option β} {l : List α}
    (h : ∀ a ∈ l, (p a = false ∧ g a = none) ∨ ∃ b, p a = true ∧ g a = some b ∧ R a b) :
    List.Forall₂ R (l.filter p) (l.filterMap g) := by
  induction l with
  | nil => exact .nil
  | cons a l ih =>
    have hrest := ih fun b hb => h b (List.mem_cons_of_mem a hb)
    rcases h a List.mem_cons_self with ⟨hp, hg⟩ | ⟨b, hp, hg, hb⟩
    · rw [List.filter_cons_of_neg (Bool.eq_false_iff.1 hp), List.filterMap_cons_none hg]
      exact hrest
    · rw [List.filter_cons_of_pos hp, List.filterMap_cons_some hg]
      exact .cons hb hrest

namespace Row

variable {r : Row} {ss : Schemas}

/-- The columns of a row that are set, in their order. -/
def places (r : Row) : List Nat := (List.range r.cells.length).filter fun i => (r.get? i).isSome

theorem lt_of_get?_eq_some {i : Nat} {v : Value} (h : r.get? i = some v) : i < r.cells.length := by
  by_contra hi
  rw [get?, List.getElem?_eq_none (Nat.le_of_not_lt hi)] at h
  cases h

theorem mem_places {i : Nat} : i ∈ r.places ↔ (r.get? i).isSome = true := by
  rw [places, List.mem_filter, List.mem_range, and_iff_right_iff_imp]
  intro h
  obtain ⟨v, hv⟩ := Option.isSome_iff_exists.1 h
  exact lt_of_get?_eq_some hv

theorem pairwise_places : r.places.Pairwise (· < ·) := List.pairwise_lt_range.filter _

theorem cells_eq : r.cells = (List.range r.cells.length).map r.get? := by
  refine List.ext_getElem (by simp) fun i hi _ => ?_
  simp [get?, hi]

theorem size_eq : r.size = r.places.length := by
  rw [size, places, ← List.countP_eq_length_filter]
  conv_lhs => rw [cells_eq, List.countP_map]
  rfl

/-- The name and the value of a column that is set. -/
def pair? (r : Row) (names : List String) (i : Nat) : Option (String × Value) :=
  names[i]?.bind fun name => (r.get? i).map (name, ·)

theorem pairs_eq (hfits : r.cells.length ≤ (ss.get r.schema).names.length) :
    r.pairs ss = (List.range r.cells.length).filterMap (r.pair? (ss.get r.schema).names) := by
  have hmap : ((ss.get r.schema).names.zip r.cells).map (fun e => e.2.map (e.1, ·)) =
      (List.range r.cells.length).map (r.pair? (ss.get r.schema).names) := by
    refine List.ext_getElem ?_ fun i hi hi' => ?_
    · rw [List.length_map, List.length_map, List.length_zip, List.length_range,
        Nat.min_eq_right hfits]
    · have hcell : i < r.cells.length := by simpa using hi'
      have hname : i < (ss.get r.schema).names.length := Nat.lt_of_lt_of_le hcell hfits
      simp [pair?, get?, hcell, hname]
  calc r.pairs ss
      = (((ss.get r.schema).names.zip r.cells).map fun e => e.2.map (e.1, ·)).filterMap id := by
        rw [List.filterMap_map]
        rfl
    _ = (List.range r.cells.length).filterMap (r.pair? (ss.get r.schema).names) := by
        rw [hmap, List.filterMap_map]
        rfl

/-- **A row lists its set columns in order**, each once and with its name, if it has no more cells
than its schema has columns. -/
theorem forall₂_places_pairs (hfits : r.cells.length ≤ (ss.get r.schema).names.length) :
    List.Forall₂
      (fun i e => (ss.get r.schema).names[i]? = some e.1 ∧ r.get? i = some e.2)
      r.places (r.pairs ss) := by
  rw [pairs_eq hfits]
  refine forall₂_filter_filterMap fun i hi => ?_
  have hname : i < (ss.get r.schema).names.length :=
    Nat.lt_of_lt_of_le (List.mem_range.1 hi) hfits
  cases hcell : r.get? i with
  | none => exact .inl ⟨rfl, by simp [pair?, hcell]⟩
  | some v =>
    exact .inr ⟨((ss.get r.schema).names[i], v), rfl, by simp [pair?, hcell, hname],
      List.getElem?_eq_getElem hname, rfl⟩

end Row

/-! ### Rows at any moment -/

namespace RowFamily

theorem after_set_of_le {f : RowFamily} {k i : Nat} {row : Row} (hrow : f.rows[k]? = some row)
    (hshared : row.schema = f.schemaId) (hi : f.schema.names.length ≤ i) (v : Value) :
    row.set f.schemas i v = .error (.input (.columnIndex i f.schema.names.length)) ∧
      f.after (.edit k (.set i v)) = f := by
  have hrefused : row.set f.schemas i v =
      .error (.input (.columnIndex i f.schema.names.length)) := by
    rw [Row.set, hshared]
    exact if_neg (Nat.not_lt.2 hi)
  refine ⟨hrefused, ?_⟩
  have hrows :
      (f.rows.modify k fun row => ((RowEdit.set i v).perform row f.schemas).1) = f.rows := by
    refine List.ext_getElem? fun j => ?_
    rw [List.getElem?_modify]
    by_cases hj : k = j
    · simp only [← hj, if_true, hrow, RowEdit.perform, Option.map_eq_map, Option.map_some, hrefused]
      rfl
    · simp only [hj, if_false]
      exact id_map _
  simp only [after, hrow, hrows]
  rfl

/-- **Rows that share a schema are independent.**  After any history of a family, each row contains
what its own writes left, the last one to a column deciding.  A write to a column that is not there
fails and changes nothing.  A row lists its set columns in their order, each once and with its name,
and its size is their number.  Reading by name is reading the first column of that name. -/
theorem rows_independent (ss : Schemas) (names : List String) {events : List FamilyEvent}
    (hmade : (fresh ss names).AllMadeToFit events) {k : Nat} {row : Row}
    (hrow : ((fresh ss names).run events).rows[k]? = some row) :
    let f := (fresh ss names).run events
    (∀ i, row.get? i = lastWrite ((fresh ss names).log k events) i) ∧
      (∀ i v, i < f.schema.names.length → ∃ row', row.set f.schemas i v = .ok row') ∧
      (∀ i v, f.schema.names.length ≤ i →
        row.set f.schemas i v = .error (.input (.columnIndex i f.schema.names.length)) ∧
          f.after (.edit k (.set i v)) = f) ∧
      (∃ places : List Nat, places.Pairwise (· < ·) ∧
        (∀ i, i ∈ places ↔ (row.get? i).isSome = true) ∧
        List.Forall₂ (fun i e => f.schema.names[i]? = some e.1 ∧ row.get? i = some e.2) places
          (row.pairs f.schemas) ∧
        row.size = places.length) ∧
      (∀ name i, f.schema.names[i]? = some name → (∀ j < i, f.schema.names[j]? ≠ some name) →
        row.getByName? f.schemas name = row.get? i) ∧
      ∀ name, name ∉ f.schema.names → row.getByName? f.schemas name = none := by
  intro f
  have hfresh := sound_fresh ss names
  have h : f.Sound := hfresh.run events
  have hmem : row ∈ f.rows := List.mem_of_getElem? hrow
  have hshared : row.schema = f.schemaId := h.shared row hmem
  have hfits : f.Fits := (content_run hfresh nofun hmade k 0).2
  have hget : f.schemas.get row.schema = f.schema := by rw [hshared, schema]
  have hread (name : String) :
      row.getByName? f.schemas name = (f.schema.indexOf? name).bind row.get? := by
    rw [Row.getByName?, hget]
  refine ⟨fun i => ?_, fun i v hi => ?_, fun i v hi => after_set_of_le hrow hshared hi v,
    ⟨row.places, Row.pairwise_places, fun i => Row.mem_places, ?_, Row.size_eq⟩, ?_, ?_⟩
  · have hcontent := (content_run hfresh nofun hmade k i).1
    rw [content, hrow] at hcontent
    refine hcontent.trans ?_
    rw [lastWrite]
    cases ((fresh ss names).log k events).reverse.lookup i <;> rfl
  · exact ⟨row.put i v, by rw [Row.set, hget]; exact if_pos hi⟩
  · have hshort : row.cells.length ≤ (f.schemas.get row.schema).names.length :=
      hget ▸ hfits row hmem
    have hpairs := Row.forall₂_places_pairs hshort
    rwa [hget] at hpairs
  · intro name i hname hfirst
    rw [hread, (Schema.indexOf?_eq_some_iff h.indexed).2 ⟨hname, hfirst⟩, Option.bind_some]
  · intro name hname
    rw [hread, (Schema.indexOf?_eq_none_iff h.indexed).2 hname, Option.bind_none]

/-- Two rows, one of which has a column set to null and one of which is shorter than the schema.
The name that is removed from the second row comes to the schema later. -/
theorem rows_independent_of_two_rows :
    let start := fresh {} ["id", "name"]
    let events : List FamilyEvent :=
      [.make [.signed 1, .text "x"], .make [.signed 2], .edit 1 (.removeByName "tag"),
        .edit 0 (.setByName "tag" .null), .addColumn "age", .edit 1 (.set 3 (.signed 30)),
        .edit 0 (.removeByName "name"), .edit 1 (.setByName "id" (.signed 5))]
    let f := start.run events
    ∃ first second, start.AllMadeToFit events ∧ f.rows = [first, second] ∧
      first.pairs f.schemas = [("id", .signed 1), ("tag", .null)] ∧
      second.pairs f.schemas = [("id", .signed 5), ("age", .signed 30)] ∧
      (∀ i, first.get? i = lastWrite (start.log 0 events) i) ∧
      (∀ i, second.get? i = lastWrite (start.log 1 events) i) ∧
      start.log 1 events =
        [(0, some (.signed 2)), (2, none), (3, some (.signed 30)), (0, some (.signed 5))] ∧
      f.after (.edit 1 (.set 4 .null)) = f := by
  intro start events f
  have hmade : start.AllMadeToFit events := by decide +kernel
  have hrow : f.rows[0]? = some ⟨⟨0⟩, [some (.signed 1), none, some .null]⟩ := by decide +kernel
  have hrow' : f.rows[1]? = some ⟨⟨0⟩, [some (.signed 5), none, none, some (.signed 30)]⟩ := by
    decide +kernel
  obtain ⟨hfirst, -⟩ := rows_independent {} ["id", "name"] hmade hrow
  obtain ⟨hsecond, -, hrefused, -⟩ := rows_independent {} ["id", "name"] hmade hrow'
  exact ⟨_, _, hmade, by decide +kernel, by decide +kernel, by decide +kernel, hfirst, hsecond,
    by decide +kernel, (hrefused 4 .null (by decide +kernel)).2⟩

end RowFamily

end RowMapping
