import Mathlib.Data.List.Nodup
import RowMapping.Layout.Record
import RowMapping.Proofs.Conversion.PlannedRead
import RowMapping.Proofs.Materialize.DistinctNames
import RowMapping.Proofs.Outcome

/-!
# Records are made field by field

The members of a record are set one after the other, in the order of the columns that were matched
to them.  If the names of the columns differ from each other up to case, and those of the members
too, then this is as if every field were made by itself: from the one column of its name, or as
missing (`Record.ofCells`).  So neither the order of the columns nor columns without a member
matter for the record.

* `Record.setMembers_column`, `Record.setMembers_skipped`: setting members sets each field on its
  own;
* `Record.setMembers_iff`: with the bindings of a range, this is what the fields give;
* `Record.exists_build_iff`, `Record.rowFn_eq_ok_iff`: what building a record and its row function
  come to.
-/

namespace RowMapping

/-- A column of a result with its value in the current row. -/
structure Cell where
  /-- The name. -/
  name : String
  /-- The type. -/
  type : DbType
  /-- The value. -/
  value : Except Error Value

/-- The columns of a range with the values of a row. -/
def RowView.cells (header row : RowView) (start length : Nat) : List Cell :=
  (List.range' start length).map fun i => ⟨header.name i, header.type i, row.value i⟩

theorem RowView.mem_cells {header row : RowView} {start length : Nat} {c : Cell} :
    c ∈ header.cells row start length ↔
      ∃ i < length,
        c = ⟨header.name (start + i), header.type (start + i), row.value (start + i)⟩ := by
  rw [cells, List.range'_eq_map_range, List.map_map, List.mem_map]
  simp only [List.mem_range, Function.comp_apply, eq_comm]

/-- The object that a cell gives, its value being converted as planned for its type. -/
def Cell.read {α : Type} (c : Cell) (handlers : Handlers) (d : Destination α) :
    Except Error α := do
  let rule ← Rule.plan c.type d.info handlers
  let x ← rule.apply (← c.value)
  d.ofValue x

theorem Cell.read_eq_ok {α : Type} {c : Cell} {handlers : Handlers} {d : Destination α} {x : α} :
    c.read handlers d = .ok x ↔ ∃ rule v w, Rule.plan c.type d.info handlers = .ok rule ∧
      c.value = .ok v ∧ rule.apply v = .ok w ∧ d.ofValue w = .ok x := by
  constructor
  · intro h
    obtain ⟨rule, hrule, h⟩ := bind_eq_ok.1 h
    obtain ⟨v, hv, h⟩ := bind_eq_ok.1 h
    obtain ⟨w, hw, hx⟩ := bind_eq_ok.1 h
    exact ⟨rule, v, w, hrule, hv, hw, hx⟩
  · rintro ⟨rule, v, w, hrule, hv, hw, hx⟩
    exact bind_eq_ok.2 ⟨rule, hrule, bind_eq_ok.2 ⟨v, hv, bind_eq_ok.2 ⟨w, hw, hx⟩⟩⟩

/-- The object of a field by itself: of the first cell of its name up to case, or a missing one. -/
def FieldSource.object {α : Type} (handlers : Handlers) (cells : List Cell) :
    FieldSource α → Except Error α
  | .skipped x => .ok x
  | .column name d =>
    match cells.find? fun c => Text.sameName c.name name with
    | some c => c.read handlers d
    | none => d.ofNull

theorem Binding.plan_of_rule {header : RowView} {handlers : Handlers} {i : Nat} {info : TypeInfo}
    {rule : Rule} (h : Rule.plan (header.type i) info handlers = .ok rule) :
    Binding.plan header handlers i info = .ok ⟨i, header.name i, rule⟩ := by
  unfold Binding.plan
  rw [h]
  rfl

namespace Record

/-- The record of the objects that the fields have by themselves. -/
def ofCells (handlers : Handlers) (cells : List Cell) :
    (fields : List Field) → Except Error (Record fields)
  | [] => .ok ()
  | f :: fs => do
    let x ← f.source.object handlers cells
    let xs ← ofCells handlers cells fs
    .ok (x, xs)

/-! ### Members are set independently -/

/-- The members at the given places, each with its binding. -/
def membersAt (fields : List Field) (bindings : List (Binding × Nat)) :
    List (Binding × Member (Record fields)) :=
  bindings.filterMap fun e => (members fields)[e.2]?.map (e.1, ·)

/-- The bindings of the first member. -/
def atHead (bindings : List (Binding × Nat)) : List Binding :=
  bindings.filterMap fun
    | (b, 0) => some b
    | (_, _ + 1) => none

/-- The bindings of the other members, with their places among these. -/
def behindHead (bindings : List (Binding × Nat)) : List (Binding × Nat) :=
  bindings.filterMap fun
    | (_, 0) => none
    | (b, m + 1) => some (b, m)

theorem mem_atHead {bindings : List (Binding × Nat)} {b : Binding} :
    b ∈ atHead bindings ↔ (b, 0) ∈ bindings := by
  rw [atHead, List.mem_filterMap]
  constructor
  · rintro ⟨⟨b', m⟩, hmem, heq⟩
    cases m with
    | zero => cases heq; exact hmem
    | succ m => cases heq
  · exact fun hmem => ⟨(b, 0), hmem, rfl⟩

theorem mem_behindHead {bindings : List (Binding × Nat)} {b : Binding} {m : Nat} :
    (b, m) ∈ behindHead bindings ↔ (b, m + 1) ∈ bindings := by
  rw [behindHead, List.mem_filterMap]
  constructor
  · rintro ⟨⟨b', m'⟩, hmem, heq⟩
    cases m' with
    | zero => cases heq
    | succ m' => cases heq; exact hmem
  · exact fun hmem => ⟨(b, m + 1), hmem, rfl⟩

variable {row : RowView} {fs : List Field}

theorem setMembers_cons_iff {α : Type} {binding : Binding} {member : Member α}
    {rest : List (Binding × Member α)} {x y : α} :
    Layout.setMembers row x ((binding, member) :: rest) = .ok y ↔
      ∃ v x', binding.read row = .ok v ∧ member.set x v = .ok x' ∧
        Layout.setMembers row x' rest = .ok y := by
  unfold Layout.setMembers
  rw [List.foldlM_cons]
  constructor
  · intro h
    obtain ⟨x', hset, hrest⟩ := bind_eq_ok.1 h
    obtain ⟨v, hv, hset⟩ := bind_eq_ok.1 hset
    exact ⟨v, x', hv, mapError_eq_ok.1 hset, hrest⟩
  · rintro ⟨v, x', hv, hset, hrest⟩
    exact bind_eq_ok.2 ⟨x', bind_eq_ok.2 ⟨v, hv, mapError_eq_ok.2 hset⟩, hrest⟩

/-- What comes of setting the first field of a record by one binding after the other. -/
def setHead {α : Type} (row : RowView) (d : Destination α) (x : α) (bindings : List Binding) :
    Except Error α :=
  bindings.foldlM (fun _ b => b.read row >>= d.ofValue) x

theorem setMembers_lift_iff {f : Field} {binding : Binding} {member : Member (Record fs)}
    {rest : List (Binding × Member (Record (f :: fs)))} {x : f.Carrier} {xs : Record fs}
    {r : Record (f :: fs)} :
    Layout.setMembers row (α := Record (f :: fs)) (x, xs)
        ((binding, liftMember member) :: rest) = .ok r ↔
      ∃ v xs', binding.read row = .ok v ∧ member.set xs v = .ok xs' ∧
        Layout.setMembers row (α := Record (f :: fs)) (x, xs') rest = .ok r := by
  refine setMembers_cons_iff.trans ⟨?_, ?_⟩
  · rintro ⟨v, r', hv, hset, hrest⟩
    obtain ⟨xs', hxs', rfl⟩ := map_eq_ok.1 hset
    exact ⟨v, xs', hv, hxs', hrest⟩
  · rintro ⟨v, xs', hv, hxs', hrest⟩
    exact ⟨v, (x, xs'), hv, map_eq_ok.2 ⟨xs', hxs', rfl⟩, hrest⟩

theorem setMembers_column {α : Type} {name : String} {d : Destination α}
    {bindings : List (Binding × Nat)} {x y : α} {xs ys : Record fs} :
    Layout.setMembers row (α := Record (⟨α, .column name d⟩ :: fs)) (x, xs)
        (membersAt (⟨α, .column name d⟩ :: fs) bindings) = .ok (y, ys) ↔
      setHead row d x (atHead bindings) = .ok y ∧
        Layout.setMembers row xs (membersAt fs (behindHead bindings)) = .ok ys := by
  induction bindings generalizing x xs with
  | nil =>
    change Except.ok (x, xs) = .ok (y, ys) ↔ Except.ok x = .ok y ∧ Except.ok xs = .ok ys
    simp only [Except.ok.injEq, Prod.mk.injEq]
  | cons e bindings ih =>
    obtain ⟨b, m⟩ := e
    cases m with
    | zero =>
      -- the first field is set, and then the rest
      refine setMembers_cons_iff.trans ⟨?_, ?_⟩
      · rintro ⟨v, r, hv, hset, hrest⟩
        obtain ⟨x', hx', rfl⟩ := map_eq_ok.1 hset
        obtain ⟨hhead, htail⟩ := ih.1 hrest
        exact ⟨bind_eq_ok.2 ⟨x', bind_eq_ok.2 ⟨v, hv, hx'⟩, hhead⟩, htail⟩
      · rintro ⟨hhead, htail⟩
        obtain ⟨x', hx', hhead⟩ := bind_eq_ok.1 hhead
        obtain ⟨v, hv, hx'⟩ := bind_eq_ok.1 hx'
        exact ⟨v, (x', xs), hv, map_eq_ok.2 ⟨x', hx', rfl⟩, ih.2 ⟨hhead, htail⟩⟩
    | succ m =>
      have hplace : (members (⟨α, .column name d⟩ :: fs))[m + 1]? =
          (members fs)[m]?.map liftMember := List.getElem?_map ..
      have hbehind : behindHead ((b, m + 1) :: bindings) = (b, m) :: behindHead bindings := rfl
      have hat : atHead ((b, m + 1) :: bindings) = atHead bindings := rfl
      rw [hbehind, hat, membersAt, List.filterMap_cons, hplace, membersAt, List.filterMap_cons]
      cases (members fs)[m]? with
      | none => exact ih
      | some member =>
        refine setMembers_lift_iff.trans ⟨?_, ?_⟩
        · rintro ⟨v, xs', hv, hxs', hrest⟩
          obtain ⟨hhead, htail⟩ := ih.1 hrest
          exact ⟨hhead, setMembers_cons_iff.2 ⟨v, xs', hv, hxs', htail⟩⟩
        · rintro ⟨hhead, htail⟩
          obtain ⟨v, xs', hv, hxs', htail⟩ := setMembers_cons_iff.1 htail
          exact ⟨v, xs', hv, hxs', ih.2 ⟨hhead, htail⟩⟩

theorem setMembers_skipped {α : Type} {object : α} {bindings : List (Binding × Nat)} {x y : α}
    {xs ys : Record fs} :
    Layout.setMembers row (α := Record (⟨α, .skipped object⟩ :: fs)) (x, xs)
        (membersAt (⟨α, .skipped object⟩ :: fs) bindings) = .ok (y, ys) ↔
      x = y ∧ Layout.setMembers row xs (membersAt fs bindings) = .ok ys := by
  induction bindings generalizing xs with
  | nil =>
    change Except.ok (x, xs) = .ok (y, ys) ↔ x = y ∧ Except.ok xs = .ok ys
    simp only [Except.ok.injEq, Prod.mk.injEq]
  | cons e bindings ih =>
    obtain ⟨b, m⟩ := e
    have hplace : (members (⟨α, .skipped object⟩ :: fs))[m]? =
        (members fs)[m]?.map liftMember := List.getElem?_map ..
    rw [membersAt, List.filterMap_cons, hplace, membersAt, List.filterMap_cons]
    cases (members fs)[m]? with
    | none => exact ih
    | some member =>
      refine setMembers_lift_iff.trans ⟨?_, ?_⟩
      · rintro ⟨v, xs', hv, hxs', hrest⟩
        obtain ⟨hhead, htail⟩ := ih.1 hrest
        exact ⟨hhead, setMembers_cons_iff.2 ⟨v, xs', hv, hxs', htail⟩⟩
      · rintro ⟨hhead, htail⟩
        obtain ⟨v, xs', hv, hxs', htail⟩ := setMembers_cons_iff.1 htail
        exact ⟨v, xs', hv, hxs', ih.2 ⟨hhead, htail⟩⟩

/-! ### The cell of a field -/

variable {handlers : Handlers} {header : RowView} {start length : Nat} {fields : List Field}

theorem find?_eq_some_iff {α : Type} {nameOf : α → String} {xs : List α}
    (h : Matching.Distinct (xs.map nameOf)) {name : String} {x : α} :
    (xs.find? fun x => Text.sameName (nameOf x) name) = some x ↔
      x ∈ xs ∧ Text.sameName (nameOf x) name = true := by
  constructor
  · intro hfind
    have hname := List.find?_some hfind
    exact ⟨List.mem_of_find?_eq_some hfind, hname⟩
  · rintro ⟨hx, hname⟩
    cases hfind : xs.find? fun x => Text.sameName (nameOf x) name with
    | none => exact absurd hname (List.find?_eq_none.1 hfind x hx)
    | some y =>
      have hname' := List.find?_some hfind
      have hfold : Text.fold (nameOf y) = Text.fold (nameOf x) :=
        (Text.sameName_iff.1 hname').trans (Text.sameName_iff.1 hname).symm
      unfold Matching.Distinct at h
      rw [List.map_map] at h
      rw [List.inj_on_of_nodup_map h (List.mem_of_find?_eq_some hfind) hx hfold]

theorem distinct_cells (hcolumns : Matching.Distinct ((List.range' start length).map header.name)) :
    Matching.Distinct ((header.cells row start length).map (·.name)) := by
  rw [RowView.cells, List.map_map]
  exact hcolumns

/-- Every column that has the name of a member can be converted for it. -/
def Plannable (handlers : Handlers) (fields : List Field) (cells : List Cell) : Prop :=
  ∀ c ∈ cells, ∀ member ∈ members fields, Text.sameName c.name member.name = true →
    ∃ rule, Rule.plan c.type member.info handlers = .ok rule

/-- The bindings are those of the columns of a range that have the name of a member, with the places
of the members. -/
structure BoundTo (header : RowView) (handlers : Handlers) (start length : Nat)
    (fields : List Field) (bindings : List (Binding × Nat)) : Prop where
  /-- No member has two bindings. -/
  pairwise : bindings.Pairwise fun e f => e.2 ≠ f.2
  /-- These are the bindings. -/
  mem_iff : ∀ b m, (b, m) ∈ bindings ↔ ∃ member, (members fields)[m]? = some member ∧
    ∃ i < length, Text.fold member.name = Text.fold (header.name (start + i)) ∧
      Binding.plan header handlers (start + i) member.info = .ok b

theorem BoundTo.skipped {α : Type} {object : α} {bindings : List (Binding × Nat)}
    (h : BoundTo header handlers start length (⟨α, .skipped object⟩ :: fs) bindings) :
    BoundTo header handlers start length fs bindings := by
  refine ⟨h.pairwise, fun b m => ?_⟩
  have hplace : (members (⟨α, .skipped object⟩ :: fs))[m]? =
      (members fs)[m]?.map liftMember := List.getElem?_map ..
  rw [h.mem_iff, hplace]
  cases (members fs)[m]? <;> simp [liftMember]

theorem BoundTo.behindHead {α : Type} {name : String} {d : Destination α}
    {bindings : List (Binding × Nat)}
    (h : BoundTo header handlers start length (⟨α, .column name d⟩ :: fs) bindings) :
    BoundTo header handlers start length fs (behindHead bindings) := by
  refine ⟨?_, fun b m => ?_⟩
  · refine h.pairwise.filterMap _ ?_
    rintro ⟨b, m⟩ ⟨b', m'⟩ hne
    cases m with
    | zero => exact fun _ heq => nomatch heq
    | succ m =>
      cases m' with
      | zero => exact fun _ _ _ heq => nomatch heq
      | succ m' =>
        rintro _ ⟨⟩ _ ⟨⟩ rfl
        exact hne rfl
  · have hplace : (members (⟨α, .column name d⟩ :: fs))[m + 1]? =
        (members fs)[m]?.map liftMember := List.getElem?_map ..
    rw [mem_behindHead, h.mem_iff, hplace]
    cases (members fs)[m]? <;> simp [liftMember]

theorem mem_members_of_mem {f : Field} {member : Member (Record fs)} (h : member ∈ members fs) :
    liftMember member ∈ members (f :: fs) := by
  obtain ⟨α, source⟩ := f
  cases source with
  | column name d => exact List.mem_cons_of_mem _ (List.mem_map_of_mem h)
  | skipped object => exact List.mem_map_of_mem h

theorem Plannable.tail {f : Field} {cells : List Cell}
    (h : Plannable handlers (f :: fs) cells) : Plannable handlers fs cells :=
  fun c hc _ hmember => h c hc _ (mem_members_of_mem hmember)

theorem setHead_iff {α : Type} {name : String} {d : Destination α}
    {bindings : List (Binding × Nat)}
    (h : BoundTo header handlers start length (⟨α, .column name d⟩ :: fs) bindings)
    (hplan : Plannable handlers (⟨α, .column name d⟩ :: fs) (header.cells row start length))
    {x y : α} (hx : d.ofNull = .ok x) :
    setHead row d x (atHead bindings) = .ok y ↔
      (FieldSource.column name d).object handlers (header.cells row start length) = .ok y := by
  have hmem (b : Binding) : b ∈ atHead bindings ↔ ∃ i < length,
      Text.fold name = Text.fold (header.name (start + i)) ∧
        Binding.plan header handlers (start + i) d.info = .ok b := by
    rw [mem_atHead, h.mem_iff]
    simp [members]
  simp only [FieldSource.object]
  cases hfind : (header.cells row start length).find? fun c => Text.sameName c.name name with
  | none =>
    have hnil : atHead bindings = [] := by
      refine List.eq_nil_iff_forall_not_mem.2 fun b hb => ?_
      obtain ⟨i, hi, hname, -⟩ := (hmem b).1 hb
      exact List.find?_eq_none.1 hfind _ (RowView.mem_cells.2 ⟨i, hi, rfl⟩)
        (Text.sameName_iff.2 hname.symm)
    rw [hnil, hx]
    rfl
  | some c =>
    have hc := List.mem_of_find?_eq_some hfind
    have hname := List.find?_some hfind
    obtain ⟨rule, hrule⟩ := hplan c hc _ List.mem_cons_self hname
    obtain ⟨i, hi, rfl⟩ := RowView.mem_cells.1 hc
    have hb := (hmem _).2
      ⟨i, hi, (Text.sameName_iff.1 hname).symm, Binding.plan_of_rule hrule⟩
    have hone : (atHead bindings).Pairwise fun _ _ => False := by
      refine h.pairwise.filterMap _ ?_
      rintro ⟨b, m⟩ ⟨b', m'⟩ hne c hc c' hc'
      cases m with
      | zero =>
        cases m' with
        | zero => exact hne rfl
        | succ m' => cases hc'
      | succ m => cases hc
    have hsingle : atHead bindings = [⟨start + i, header.name (start + i), rule⟩] := by
      cases hat : atHead bindings with
      | nil => rw [hat] at hb; cases hb
      | cons b bs =>
        rw [hat] at hb hone
        cases bs with
        | nil => rw [List.mem_singleton.1 hb]
        | cons b' bs => exact ((List.pairwise_cons.1 hone).1 b' List.mem_cons_self).elim
    rw [hsingle]
    simp only [setHead, List.foldlM_cons, List.foldlM_nil, bind_pure]
    rw [Cell.read_eq_ok]
    constructor
    · intro hread
      obtain ⟨w, hw, hy⟩ := bind_eq_ok.1 hread
      obtain ⟨v, hv, hw⟩ := bind_eq_ok.1 hw
      exact ⟨rule, v, w, hrule, hv, mapError_eq_ok.1 hw, hy⟩
    · rintro ⟨rule', v, w, hrule', hv, hw, hy⟩
      cases hrule.symm.trans hrule'
      exact bind_eq_ok.2 ⟨w, bind_eq_ok.2 ⟨v, hv, mapError_eq_ok.2 hw⟩, hy⟩

/-! ### The record of a row -/

theorem ofCells_cons_iff {f : Field} {cells : List Cell} {x : f.Carrier} {xs : Record fs} :
    ofCells handlers cells (f :: fs) = .ok (x, xs) ↔
      f.source.object handlers cells = .ok x ∧ ofCells handlers cells fs = .ok xs := by
  constructor
  · intro h
    obtain ⟨x', hx, h⟩ := bind_eq_ok.1 h
    obtain ⟨xs', hxs, h⟩ := bind_eq_ok.1 h
    cases h
    exact ⟨hx, hxs⟩
  · rintro ⟨hx, hxs⟩
    exact bind_eq_ok.2 ⟨x, hx, bind_eq_ok.2 ⟨xs, hxs, rfl⟩⟩

theorem initial_cons_iff {f : Field} {x : f.Carrier} {xs : Record fs} :
    initial (f :: fs) = .ok (x, xs) ↔ missing f.source = .ok x ∧ initial fs = .ok xs := by
  constructor
  · intro h
    obtain ⟨x', hx, h⟩ := bind_eq_ok.1 h
    obtain ⟨xs', hxs, h⟩ := bind_eq_ok.1 h
    cases h
    exact ⟨hx, hxs⟩
  · rintro ⟨hx, hxs⟩
    exact bind_eq_ok.2 ⟨x, hx, bind_eq_ok.2 ⟨xs, hxs, rfl⟩⟩

/-- **Setting members gives what the fields give**, if all of them have their bindings. -/
theorem setMembers_iff {bindings : List (Binding × Nat)}
    (h : BoundTo header handlers start length fields bindings)
    (hplan : Plannable handlers fields (header.cells row start length)) {r₀ r : Record fields}
    (h₀ : initial fields = .ok r₀) :
    Layout.setMembers row r₀ (membersAt fields bindings) = .ok r ↔
      ofCells handlers (header.cells row start length) fields = .ok r := by
  induction fields generalizing bindings with
  | nil =>
    have hnone : membersAt [] bindings = [] := by simp [membersAt, members]
    rw [hnone]
    rfl
  | cons f fs ih =>
    obtain ⟨α, source⟩ := f
    obtain ⟨x₀, xs₀⟩ := r₀
    obtain ⟨x, xs⟩ := r
    obtain ⟨hx₀, hxs₀⟩ := initial_cons_iff.1 h₀
    rw [ofCells_cons_iff]
    cases source with
    | column name d =>
      exact setMembers_column.trans
        (and_congr (setHead_iff h hplan hx₀) (ih h.behindHead hplan.tail hxs₀))
    | skipped object =>
      cases hx₀
      exact setMembers_skipped.trans
        (and_congr ⟨congrArg Except.ok, Except.ok.inj⟩ (ih h.skipped hplan.tail hxs₀))

/-! ### The bindings of a range -/

/-- The columns and members that are matched, by their places. -/
def matched (header : RowView) (start length : Nat) (fields : List Field) : List (Nat × Nat) :=
  Matching.assignMembers ((members fields).map (·.name)) [] []
    ((List.range' start length).map header.name).zipIdx

/-- The columns that are matched, each with its member. -/
def columnMembers (header : RowView) (start length : Nat) (fields : List Field) :
    List (Nat × Member (Record fields)) :=
  (matched header start length fields).filterMap fun e => (members fields)[e.2]?.map (e.1, ·)

/-- The bindings of the columns that are matched to members, as far as there are any. -/
def bindings (header : RowView) (handlers : Handlers) (start length : Nat) (fields : List Field) :
    List (Binding × Nat) :=
  (matched header start length fields).filterMap fun e =>
    ((members fields)[e.2]?.bind fun member =>
      (Binding.plan header handlers (start + e.1) member.info).toOption).map (·, e.2)

/-- Binds a column to a member. -/
def planMember (header : RowView) (handlers : Handlers) (start : Nat)
    (e : Nat × Member (Record fields)) : Except Error (Binding × Member (Record fields)) := do
  return ((← Binding.plan header handlers (start + e.1) e.2.info), e.2)

theorem layout_build (typeId : TypeId) (schema : SchemaId) :
    (layout typeId fields).build header handlers start length false schema =
      ((columnMembers header start length fields).mapM (planMember header handlers start)).map
        fun ms row => (initial fields >>= (Layout.setMembers row · ms)).map some := by
  change ((columnMembers header start length fields).mapM (planMember header handlers start) >>=
    fun ms => Except.ok (Layout.unlessFirstIsNull start length false fun row =>
      initial fields >>= fun r => Layout.setMembers row r ms)) = _
  cases (columnMembers header start length fields).mapM (planMember header handlers start) with
  | error e => rfl
  | ok ms =>
    refine congrArg Except.ok (funext fun row => ?_)
    change (initial fields >>= (Layout.setMembers row · ms)) >>= (fun r => .ok (some r)) =
      (initial fields >>= (Layout.setMembers row · ms)).map some
    cases initial fields >>= (Layout.setMembers row · ms) <;> rfl

theorem planMember_eq_ok {e : Nat × Member (Record fields)}
    {b : Binding × Member (Record fields)} :
    planMember header handlers start e = .ok b ↔
      Binding.plan header handlers (start + e.1) e.2.info = .ok b.1 ∧ b.2 = e.2 := by
  unfold planMember
  constructor
  · intro h
    obtain ⟨binding, hbinding, heq⟩ := bind_eq_ok.1 h
    cases heq
    exact ⟨hbinding, rfl⟩
  · rintro ⟨hbinding, hmember⟩
    exact bind_eq_ok.2 ⟨b.1, hbinding, by rw [← hmember]; rfl⟩

theorem filterMap_planMember :
    ((columnMembers header start length fields).filterMap fun e =>
      (planMember header handlers start e).toOption) =
      membersAt fields (bindings header handlers start length fields) := by
  rw [columnMembers, bindings, membersAt, List.filterMap_filterMap, List.filterMap_filterMap]
  refine List.filterMap_congr fun e _ => ?_
  obtain ⟨i, m⟩ := e
  dsimp only
  cases hmember : (members fields)[m]? with
  | none => rfl
  | some member =>
    simp only [Option.map_some, Option.bind_some, planMember]
    cases Binding.plan header handlers (start + i) member.info with
    | error e => rfl
    | ok b =>
      change some (b, member) = Option.map (b, ·) (members fields)[m]?
      rw [hmember]
      rfl

section Distinct

variable (hfields : Matching.Distinct ((members fields).map (·.name)))
  (hcolumns : Matching.Distinct ((List.range' start length).map header.name))

include hfields hcolumns

theorem mem_matched_iff {i m : Nat} : (i, m) ∈ matched header start length fields ↔
    i < length ∧ ∃ member, (members fields)[m]? = some member ∧
      Text.fold member.name = Text.fold (header.name (start + i)) := by
  have hcolumn : ((List.range' start length).map header.name)[i]? =
      if i < length then some (header.name (start + i)) else none := by
    split
    · rename_i hi
      rw [List.getElem?_map, List.getElem?_range' hi]
      simp
    · rename_i hi
      rw [List.getElem?_eq_none (by simpa using hi)]
  rw [matched, Matching.mem_assignMembers_iff hfields hcolumns, hcolumn, List.getElem?_map]
  constructor
  · rintro ⟨column, n, hi, hn, hname⟩
    obtain ⟨member, hmember, rfl⟩ := Option.map_eq_some_iff.1 hn
    split at hi
    · cases hi
      exact ⟨‹_›, member, hmember, hname⟩
    · cases hi
  · rintro ⟨hi, member, hmember, hname⟩
    exact ⟨header.name (start + i), member.name, if_pos hi, by rw [hmember]; rfl, hname⟩

theorem boundTo_bindings : BoundTo header handlers start length fields
    (bindings header handlers start length fields) := by
  refine ⟨?_, fun b m => ?_⟩
  · refine (Matching.pairwise_assignMembers ..).filterMap _ fun e f hne a ha c hc => ?_
    obtain ⟨b, -, rfl⟩ := Option.map_eq_some_iff.1 ha
    obtain ⟨b', -, rfl⟩ := Option.map_eq_some_iff.1 hc
    exact hne
  · rw [bindings, List.mem_filterMap]
    constructor
    · rintro ⟨⟨i, m'⟩, hmatched, heq⟩
      obtain ⟨b', hb, heq⟩ := Option.map_eq_some_iff.1 heq
      cases heq
      obtain ⟨hi, member, hmember, hname⟩ := (mem_matched_iff hfields hcolumns).1 hmatched
      obtain ⟨member', hmember', hb⟩ := Option.bind_eq_some_iff.1 hb
      cases hmember.symm.trans hmember'
      exact ⟨member, hmember, i, hi, hname, toOption_eq_some.1 hb⟩
    · rintro ⟨member, hmember, i, hi, hname, hb⟩
      refine ⟨(i, m), (mem_matched_iff hfields hcolumns).2 ⟨hi, member, hmember, hname⟩, ?_⟩
      rw [hmember, Option.bind_some, hb]
      rfl

theorem mem_columnMembers_iff {i : Nat} {member : Member (Record fields)} :
    (i, member) ∈ columnMembers header start length fields ↔
      i < length ∧ member ∈ members fields ∧
        Text.fold member.name = Text.fold (header.name (start + i)) := by
  rw [columnMembers, List.mem_filterMap]
  constructor
  · rintro ⟨⟨i', m⟩, hmatched, heq⟩
    obtain ⟨member', hmember, heq⟩ := Option.map_eq_some_iff.1 heq
    cases heq
    obtain ⟨hi, member'', hmember', hname⟩ := (mem_matched_iff hfields hcolumns).1 hmatched
    cases hmember.symm.trans hmember'
    exact ⟨hi, List.mem_of_getElem? hmember, hname⟩
  · rintro ⟨hi, hmember, hname⟩
    obtain ⟨m, hm⟩ := List.getElem?_of_mem hmember
    exact ⟨(i, m), (mem_matched_iff hfields hcolumns).2 ⟨hi, member, hm, hname⟩,
      Option.map_eq_some_iff.2 ⟨member, hm, rfl⟩⟩

/-- A record can be made if every column that has the name of a member can be converted for it. -/
theorem exists_build_iff (typeId : TypeId) (schema : SchemaId) (row : RowView) :
    (∃ rowFn, (layout typeId fields).build header handlers start length false schema =
        .ok rowFn) ↔ Plannable handlers fields (header.cells row start length) := by
  rw [layout_build]
  constructor
  · rintro ⟨rowFn, hbuild⟩ c hc member hmember hname
    obtain ⟨ms, hms, -⟩ := map_eq_ok.1 hbuild
    obtain ⟨i, hi, rfl⟩ := RowView.mem_cells.1 hc
    have hmem := (mem_columnMembers_iff hfields hcolumns).2
      ⟨hi, hmember, (Text.sameName_iff.1 hname).symm⟩
    obtain ⟨b, hb⟩ := (mapM_eq_ok hms).1 _ hmem
    exact ⟨b.1.rule, (Binding.plan_eq_ok (planMember_eq_ok.1 hb).1).1⟩
  · intro hplan
    have hall : ∀ e ∈ columnMembers header start length fields,
        ∃ b, planMember header handlers start e = .ok b := by
      rintro ⟨i, member⟩ he
      obtain ⟨hi, hmember, hname⟩ := (mem_columnMembers_iff hfields hcolumns).1 he
      obtain ⟨rule, hrule⟩ := hplan _ (RowView.mem_cells.2 ⟨i, hi, rfl⟩) member hmember
        (Text.sameName_iff.2 hname.symm)
      exact ⟨(_, member), planMember_eq_ok.2 ⟨Binding.plan_of_rule hrule, rfl⟩⟩
    obtain ⟨ms, hms⟩ := exists_mapM_eq_ok hall
    exact ⟨_, map_eq_ok.2 ⟨ms, hms, rfl⟩⟩

/-- The row function makes the record that the fields give, if there is one before members are
set. -/
theorem rowFn_eq_ok_iff {typeId : TypeId} {schema : SchemaId} {rowFn : RowFn (Record fields)}
    (hbuild : (layout typeId fields).build header handlers start length false schema = .ok rowFn)
    {row : RowView} {r : Record fields} :
    rowFn row = .ok (some r) ↔ (∃ r₀, initial fields = .ok r₀) ∧
      ofCells handlers (header.cells row start length) fields = .ok r := by
  have hplan := (exists_build_iff hfields hcolumns typeId schema row).1 ⟨rowFn, hbuild⟩
  rw [layout_build] at hbuild
  obtain ⟨ms, hms, rfl⟩ := map_eq_ok.1 hbuild
  rw [(mapM_eq_ok hms).2, filterMap_planMember]
  have hset {r₀ : Record fields} (h₀ : initial fields = .ok r₀) :=
    setMembers_iff (boundTo_bindings hfields hcolumns) hplan (r := r) h₀
  constructor
  · intro h
    obtain ⟨r', h, heq⟩ := map_eq_ok.1 h
    cases heq
    obtain ⟨r₀, h₀, h⟩ := bind_eq_ok.1 h
    exact ⟨⟨r₀, h₀⟩, (hset h₀).1 h⟩
  · rintro ⟨⟨r₀, h₀⟩, h⟩
    exact map_eq_ok.2 ⟨r, bind_eq_ok.2 ⟨r₀, h₀, (hset h₀).2 h⟩, rfl⟩

end Distinct

end Record

end RowMapping
