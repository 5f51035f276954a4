import RowMapping.Layout.Record
import RowMapping.Proofs.Materialize.Locality
import RowMapping.Proofs.Row.Edits
import RowMapping.Shape

/-!
# A range is a projection

Building over a range of columns and applying the row function is the same as cutting the columns of
the range out first, from the result and from each of its rows, and then taking all columns.  What
is outside of the range, names, types and values, has no influence.

* `RowView.sameColumns_project`, `RowView.sameValues_project`: what is cut out has the names, the
  types and the values of the range;
* `Layout.sameContents_buildDynamic`: dynamic rows get the same names and values, though in schemas
  of their own;
* `Layout.build_project`: what is cut out is all that building and the row function see.
-/

namespace RowMapping

namespace RowView

variable (v : RowView) (start length : Nat)

/-- The view that has the columns of a range and no others.  As everywhere, a column that is not
there has no name, no type and no value. -/
def project : RowView where
  columnCount := length
  name i := if i < length then v.name (start + i) else ""
  type i := if i < length then v.type (start + i) else .null
  value i :=
    if i < length then v.value (start + i) else .error (.input (.columnIndex i length))

theorem sameColumns_project : v.SameColumns start (v.project start length) 0 length where
  name i hi := by simp only [project, Nat.zero_add, if_pos hi]
  type i hi := by simp only [project, Nat.zero_add, if_pos hi]

theorem sameValues_project : v.SameValues start (v.project start length) 0 length := fun i hi => by
  simp only [project, Nat.zero_add, if_pos hi]

end RowView

/-- The two rows have the same names and the same cells, each in a schema of its own. -/
structure Row.SameContents (ss ss' : Schemas) (r r' : Row) : Prop where
  /-- The names are the same. -/
  names_eq : (ss.get r.schema).names = (ss'.get r'.schema).names
  /-- The cells are the same. -/
  cells_eq : r.cells = r'.cells

theorem Row.SameContents.pairs_eq {ss ss' : Schemas} {r r' : Row} (h : r.SameContents ss ss' r') :
    r.pairs ss = r'.pairs ss' := by
  rw [pairs, pairs, h.names_eq, h.cells_eq]

namespace Layout

variable {α : Type} (handlers : Handlers) (firstMissing : Bool) {v w x y : RowView}
  {start start' length : Nat}

theorem schemaOf_eq (h : v.SameColumns start w start' length) :
    schemaOf v start length = schemaOf w start' length :=
  congrArg Heading.mk h.names_eq

/-- Dynamic rows that are made of the same values have the same contents, if their schemas have the
same names. -/
theorem sameContents_buildDynamic {ss ss' : Schemas} {schema schema' : SchemaId}
    (hnames : (ss.get schema).names = (ss'.get schema').names)
    (hxy : x.SameValues start y start' length) :
    SameOutcome (Option.Rel (Row.SameContents ss ss'))
      (buildDynamic start length firstMissing schema .ok x)
      (buildDynamic start' length firstMissing schema' .ok y) := by
  unfold buildDynamic
  rw [mapM_value_eq hxy]
  cases (List.range' start' length).mapM y.value with
  | error e => exact .error e
  | ok values =>
    change SameOutcome _ (if _ then _ else _) (if _ then _ else _)
    split
    · exact .ok .none
    · exact .ok (.some ⟨hnames, rfl⟩)

/-- **A range is a projection.**  Building over a range fails with the same error as building over
all columns of what the range cuts out, or the two row functions give the same object, or the same
error, for each row and what the range cuts out of it; dynamic rows, whose schemas are made anew,
have the same contents.  Other columns and values outside of the range change nothing. -/
theorem build_project (layout : Layout α) (v : RowView) (start length : Nat) :
    ColumnRange.all.resolve (v.project start length).columnCount = .ok (0, length) ∧
      (∀ schema,
        SameOutcome (fun f g => ∀ row : RowView, f row = g (row.project start length))
          (layout.build v handlers start length firstMissing schema)
          (layout.build (v.project start length) handlers 0 length firstMissing schema)) ∧
      (∀ ss ss' : Schemas,
        SameOutcome
          (fun f g => ∀ row : RowView,
            SameOutcome
              (Option.Rel (Row.SameContents (ss.push (schemaOf v start length))
                (ss'.push (schemaOf (v.project start length) 0 length))))
              (f row) (g (row.project start length)))
          (row.build v handlers start length firstMissing ss.next)
          (row.build (v.project start length) handlers 0 length firstMissing ss'.next)) ∧
      ∀ schema w, v.SameColumns start w start length →
        layout.build w handlers start length firstMissing schema =
            layout.build v handlers start length firstMissing schema ∧
          ∀ f, layout.build v handlers start length firstMissing schema = .ok f →
            ∀ row row' : RowView, row.SameValues start row' start length → f row = f row' := by
  have hcolumns := v.sameColumns_project start length
  refine ⟨?_, fun schema => ?_, fun ss ss' => ?_, fun schema w hw => ⟨?_, ?_⟩⟩
  · simp [ColumnRange.resolve, ColumnRange.all, RowView.project]
  · refine (build_shift handlers firstMissing hcolumns layout schema).mono fun f g hfg row => ?_
    exact hfg row _ (row.sameValues_project start length)
  · refine .ok fun row => sameContents_buildDynamic firstMissing ?_
      (row.sameValues_project start length)
    rw [Schemas.get_push_next, Schemas.get_push_next, schemaOf_eq hcolumns]
  · exact (build_congr handlers firstMissing hw layout schema).symm
  · intro f hf row row' hrow
    have hself : v.SameColumns start v start length := ⟨fun _ _ => rfl, fun _ _ => rfl⟩
    have hsame := build_shift handlers firstMissing hself layout schema
    rw [hf] at hsame
    cases hsame with
    | ok hagree => exact hagree row row' hrow

/-- A pair behind a first column that has another name and type, and whose value cannot be read. -/
theorem build_project_of_unreadable_neighbour :
    let layout := Tuple.layout [⟨_, .int ⟨true, .w8⟩⟩, ⟨_, .text⟩]
    let v : RowView :=
      ⟨3, fun i => if i = 0 then "id" else "x", fun i => if i = 1 then .i64 else .text,
        fun i => .ok (if i = 1 then .signed 300 else .text "a")⟩
    let w : RowView :=
      ⟨3, fun i => if i = 0 then "key" else "x",
        fun i => if i = 0 then .guid else if i = 1 then .i64 else .text,
        fun i => if i = 0 then .error (.cursor "lost") else v.value i⟩
    (v.SameColumns 1 w 1 2 ∧ v.SameValues 1 w 1 2) ∧
      ∃ f, layout.build v .empty 1 2 true ⟨0⟩ = .ok f ∧
        layout.build w .empty 1 2 true ⟨0⟩ = .ok f ∧ f v = f w ∧
        ∃ g, layout.build (v.project 1 2) .empty 0 2 true ⟨0⟩ = .ok g ∧
          f v = g (v.project 1 2) := by
  intro layout v w
  have houtside (i : Nat) : 1 + i ≠ 0 := by omega
  have hcolumns : v.SameColumns 1 w 1 2 :=
    ⟨fun i _ => by simp only [v, w, if_neg (houtside i)],
      fun i _ => by simp only [v, w, if_neg (houtside i)]⟩
  have hvalues : v.SameValues 1 w 1 2 := fun i _ => (if_neg (houtside i)).symm
  obtain ⟨f, hf⟩ : ∃ f, layout.build v .empty 1 2 true ⟨0⟩ = .ok f := ⟨_, rfl⟩
  obtain ⟨-, hproject, -, hsame⟩ := build_project .empty true layout v 1 2
  obtain ⟨hbuild, hagree⟩ := hsame ⟨0⟩ w hcolumns
  have hprojected := hproject ⟨0⟩
  rw [hf] at hprojected
  cases hg : layout.build (v.project 1 2) .empty 0 2 true ⟨0⟩ with
  | error e =>
    rw [hg] at hprojected
    cases hprojected
  | ok g =>
    rw [hg] at hprojected
    cases hprojected with
    | ok hfg =>
      exact ⟨⟨hcolumns, hvalues⟩, f, hf, hbuild.trans hf, hagree f hf v w hvalues, g, rfl, hfg v⟩

end Layout

end RowMapping
