import RowMapping.Materialize.Build
import RowMapping.Proofs.Outcome

/-!
# Row functions see their range only

A row function is built from the names and types of the columns in its range and reads the values of
these columns.  So two ranges of one length, perhaps at different places of different results, give
row functions that do the same as long as names, types and values are the same place for place.

* `Matching.choose?_lt`, `Matching.assignMembers_lt`: only columns that there are get matched;
* `Layout.build_shift`: building over alike ranges fails in the same way, or gives row functions
  that agree on rows with the same values;
* `Layout.build_congr`: over one range, they are the same row function;
* `Layout.ne_none_of_build`: it makes an object of every row, unless told otherwise.
-/

namespace RowMapping

/-! ### Matched columns are in the range -/

namespace Matching

theorem firstFree?_lt {taken : List Nat} {names : List String} {p : String → Bool} {i : Nat}
    (h : firstFree? taken names p = some i) : i < names.length := by
  obtain ⟨⟨name, j⟩, hfind, rfl⟩ := Option.map_eq_some_iff.1 h
  exact (List.mem_zipIdx' (List.mem_of_find?_eq_some hfind)).1

theorem find?_lt {taken : List Nat} {names : List String} {name : String} {i : Nat}
    (h : find? taken names name = some i) : i < names.length := by
  rcases Option.or_eq_some_iff.1 h with h | ⟨-, h⟩
  · exact firstFree?_lt h
  · exact firstFree?_lt h

theorem assign?_lt {columns : List String} {taken : List Nat} {names : List String}
    {places : List Nat} (h : assign? columns taken names = some places) :
    ∀ i ∈ places, i < columns.length := by
  induction names generalizing taken places with
  | nil =>
    cases h
    simp
  | cons name names ih =>
    obtain ⟨i, hi, h⟩ := Option.bind_eq_some_iff.1 h
    obtain ⟨is, his, h⟩ := Option.bind_eq_some_iff.1 h
    cases h
    exact List.forall_mem_cons.2 ⟨find?_lt hi, ih his⟩

variable {α : Type}

theorem complete?_lt {columns : List String} {c : Constructor α} {choice : Choice α}
    (h : complete? columns c = some choice) : ∀ i ∈ choice.2, i < columns.length := by
  obtain ⟨places, hplaces, rfl⟩ := Option.map_eq_some_iff.1 h
  exact assign?_lt hplaces

theorem better_eq {best : Option (Choice α)} {candidate choice : Choice α}
    (h : better best candidate = some choice) : best = some choice ∨ candidate = choice := by
  unfold better at h
  split at h
  · exact .inr (Option.some.inj h)
  · split at h
    · exact .inr (Option.some.inj h)
    · exact .inl h

theorem mem_of_foldl_better {candidates : List (Choice α)} {best : Option (Choice α)}
    {choice : Choice α} (h : candidates.foldl better best = some choice) :
    best = some choice ∨ choice ∈ candidates := by
  -- the best so far changes with every candidate
  induction candidates generalizing best with
  | nil => exact .inl h
  | cons candidate candidates ih =>
    rcases ih h with h | h
    · rcases better_eq h with h | rfl
      · exact .inl h
      · exact .inr List.mem_cons_self
    · exact .inr (List.mem_cons_of_mem _ h)

theorem choose?_lt {columns : List String} {constructors : List (Constructor α)}
    {choice : Choice α} (h : choose? columns constructors = some choice) :
    ∀ i ∈ choice.2, i < columns.length := by
  rcases mem_of_foldl_better h with h | h
  · cases h
  · obtain ⟨c, -, hc⟩ := List.mem_filterMap.1 h
    exact complete?_lt hc

theorem mem_of_mem_assignMembers {names : List String} {taken assigned : List Nat}
    {columns : List (String × Nat)} {e : Nat × Nat}
    (h : e ∈ assignMembers names taken assigned columns) : ∃ name, (name, e.1) ∈ columns := by
  induction columns generalizing assigned with
  | nil => cases h
  | cons column columns ih =>
    obtain ⟨name, i⟩ := column
    simp only [assignMembers] at h
    split at h
    · obtain ⟨name', hmem⟩ := ih h
      exact ⟨name', List.mem_cons_of_mem _ hmem⟩
    · split at h
      · rcases List.mem_cons.1 h with rfl | h
        · exact ⟨name, List.mem_cons_self⟩
        · obtain ⟨name', hmem⟩ := ih h
          exact ⟨name', List.mem_cons_of_mem _ hmem⟩
      · obtain ⟨name', hmem⟩ := ih h
        exact ⟨name', List.mem_cons_of_mem _ hmem⟩

theorem pairwise_lt_assignMembers {names : List String} {taken assigned : List Nat}
    {columns : List (String × Nat)} (h : columns.Pairwise fun e f => e.2 < f.2) :
    (assignMembers names taken assigned columns).Pairwise fun e f => e.1 < f.1 := by
  induction columns generalizing assigned with
  | nil => exact .nil
  | cons column columns ih =>
    obtain ⟨hlt, h⟩ := List.pairwise_cons.1 h
    simp only [assignMembers]
    split
    · exact ih h
    · split
      · refine .cons (fun e he => ?_) (ih h)
        obtain ⟨name, hmem⟩ := mem_of_mem_assignMembers he
        exact hlt _ hmem
      · exact ih h

theorem assignMembers_lt {names columns : List String} {taken assigned : List Nat}
    {e : Nat × Nat} (h : e ∈ assignMembers names taken assigned columns.zipIdx) :
    e.1 < columns.length := by
  obtain ⟨name, hmem⟩ := mem_of_mem_assignMembers h
  exact (List.mem_zipIdx' hmem).1

end Matching

/-! ### Ranges that are alike -/

/-- The columns from `start` and those from `start'` of another view have the same names and types,
place for place. -/
structure RowView.SameColumns (v : RowView) (start : Nat) (w : RowView) (start' length : Nat) :
    Prop where
  /-- The names are the same. -/
  name : ∀ i < length, v.name (start + i) = w.name (start' + i)
  /-- The types are the same. -/
  type : ∀ i < length, v.type (start + i) = w.type (start' + i)

/-- The columns from `start` and those from `start'` of another view have the same values in the
current rows. -/
def RowView.SameValues (v : RowView) (start : Nat) (w : RowView) (start' length : Nat) : Prop :=
  ∀ i < length, v.value (start + i) = w.value (start' + i)

theorem RowView.SameColumns.names_eq {v w : RowView} {start start' length : Nat}
    (h : v.SameColumns start w start' length) :
    (List.range' start length).map v.name = (List.range' start' length).map w.name := by
  apply List.ext_getElem
  · simp
  · intro i hi _
    simp only [List.length_map, List.length_range'] at hi
    simpa using h.name i hi

/-- Both places are the same number of places into their ranges. -/
def SamePlace (start start' length i j : Nat) : Prop :=
  ∃ k < length, i = start + k ∧ j = start' + k

variable {v w x y : RowView} {start start' length : Nat}

theorem forall₂_samePlace_range' (start start' length : Nat) :
    List.Forall₂ (SamePlace start start' length) (List.range' start length)
      (List.range' start' length) := by
  rw [List.range'_eq_map_range, List.range'_eq_map_range, List.forall₂_map_left_iff,
    List.forall₂_map_right_iff, List.forall₂_same]
  exact fun k hk => ⟨k, List.mem_range.1 hk, rfl, rfl⟩

theorem forall₂_samePlace_zipIdx {α : Type} {xs : List α} (h : xs.length ≤ length) :
    List.Forall₂ (fun e f => e.1 = f.1 ∧ SamePlace start start' length e.2 f.2)
      (xs.zipIdx start) (xs.zipIdx start') := by
  rw [List.zipIdx_eq_map_add, List.zipIdx_eq_map_add (i := start'), List.forall₂_map_left_iff,
    List.forall₂_map_right_iff, List.forall₂_same]
  rintro ⟨a, k⟩ hk
  exact ⟨rfl, k, Nat.lt_of_lt_of_le (List.mem_zipIdx' hk).1 h, rfl, rfl⟩

theorem RowView.SameValues.value_eq (h : x.SameValues start y start' length) {i j : Nat}
    (hij : SamePlace start start' length i j) : x.value i = y.value j := by
  obtain ⟨k, hk, rfl, rfl⟩ := hij
  exact h k hk

/-! ### Bindings -/

/-- The two bindings convert in the same way what stands at the same place of their ranges. -/
structure Binding.Alike (start start' length : Nat) (b c : Binding) : Prop where
  /-- The columns are at the same place. -/
  place : SamePlace start start' length b.column c.column
  /-- The names are the same. -/
  name_eq : b.name = c.name
  /-- The rules are the same. -/
  rule_eq : b.rule = c.rule

namespace Binding

variable {b c : Binding}

theorem plan_alike (h : v.SameColumns start w start' length) {i j : Nat}
    (hij : SamePlace start start' length i j) (handlers : Handlers) (info : TypeInfo) :
    SameOutcome (Alike start start' length) (plan v handlers i info) (plan w handlers j info) := by
  obtain ⟨k, hk, rfl, rfl⟩ := hij
  unfold plan
  rw [h.name k hk, h.type k hk]
  cases Rule.plan (w.type (start' + k)) info handlers with
  | error e => exact .error _
  | ok rule => exact .ok ⟨⟨k, hk, rfl, rfl⟩, rfl, rfl⟩

theorem Alike.read_eq (h : b.Alike start start' length c)
    (hxy : x.SameValues start y start' length) : b.read x = c.read y := by
  unfold read
  rw [hxy.value_eq h.place, h.name_eq, h.rule_eq]

theorem mapM_read_eq {bs cs : List Binding} (h : List.Forall₂ (Alike start start' length) bs cs)
    (hxy : x.SameValues start y start' length) :
    bs.mapM (·.read x) = cs.mapM (·.read y) := by
  induction h with
  | nil => rfl
  | cons hbc _ ih => rw [List.mapM_cons, List.mapM_cons, hbc.read_eq hxy, ih]

end Binding

/-! ### Row functions -/

/-- The two functions agree on rows with the same values in their ranges. -/
def AgreeOnRange {β : Type} (start start' length : Nat) (f g : RowView → Except Error β) : Prop :=
  ∀ x y : RowView, x.SameValues start y start' length → f x = g y

namespace Layout

variable {α : Type} (handlers : Handlers) (firstMissing : Bool)

theorem firstIsNull_eq (hxy : x.SameValues start y start' length) :
    firstIsNull start length x = firstIsNull start' length y := by
  unfold firstIsNull
  split
  · rfl
  · rename_i hlength
    have hplace : SamePlace start start' length start start' :=
      ⟨0, Nat.pos_of_ne_zero hlength, rfl, rfl⟩
    rw [hxy.value_eq hplace]

theorem unlessFirstIsNull_agree {f g : RowView → Except Error α}
    (h : AgreeOnRange start start' length f g) :
    AgreeOnRange start start' length (unlessFirstIsNull start length firstMissing f)
      (unlessFirstIsNull start' length firstMissing g) := by
  intro x y hxy
  unfold unlessFirstIsNull
  rw [h x y hxy, firstIsNull_eq hxy]

theorem buildScalar_shift (h : v.SameColumns start w start' length) (info : TypeInfo)
    (build : Value → Except Error α) :
    SameOutcome (AgreeOnRange start start' length)
      (buildScalar v handlers start length firstMissing info build)
      (buildScalar w handlers start' length firstMissing info build) := by
  unfold buildScalar
  split
  · exact .error _
  · rename_i hlength
    have hplace : SamePlace start start' length start start' :=
      ⟨0, Nat.pos_of_ne_zero hlength, rfl, rfl⟩
    refine (Binding.plan_alike h hplace handlers info).bind fun b c hbc => .ok ?_
    intro x y hxy
    simp only [hbc.read_eq hxy, hbc.name_eq]

theorem buildPositional_shift (h : v.SameColumns start w start' length) (fields : List TypeInfo)
    (build : List Value → Except Error α) :
    SameOutcome (AgreeOnRange start start' length)
      (buildPositional v handlers start length firstMissing fields build)
      (buildPositional w handlers start' length firstMissing fields build) := by
  have hfields : List.Forall₂ (fun e f => e.1 = f.1 ∧ SamePlace start start' length e.2 f.2)
      ((fields.take length).zipIdx start) ((fields.take length).zipIdx start') :=
    forall₂_samePlace_zipIdx (List.length_take_le _ _)
  have hbindings := SameOutcome.mapM (S := Binding.Alike start start' length)
    (f := fun e => Binding.plan v handlers e.2 e.1) (g := fun e => Binding.plan w handlers e.2 e.1)
    (fun e f hef => by rw [hef.1]; exact Binding.plan_alike h hef.2 handlers f.1) hfields
  refine hbindings.bind fun bs cs hbs => .ok (unlessFirstIsNull_agree firstMissing ?_)
  intro x y hxy
  simp only [Binding.mapM_read_eq hbs hxy]

theorem setMembers_eq {ms ns : List (Binding × Member α)}
    (h : List.Forall₂ (fun m n => m.1.Alike start start' length n.1 ∧ m.2 = n.2) ms ns)
    (hxy : x.SameValues start y start' length) (object : α) :
    setMembers x object ms = setMembers y object ns := by
  induction h generalizing object with
  | nil => rfl
  | cons hmn _ ih =>
    obtain ⟨hbinding, hmember⟩ := hmn
    unfold setMembers at ih ⊢
    rw [List.foldlM_cons, List.foldlM_cons, hbinding.read_eq hxy, hbinding.name_eq, hmember]
    simp only [ih]

theorem buildInitial_shift (h : v.SameColumns start w start' length) (composite : Composite α)
    (columns : List String) {choice : Option (Matching.Choice α)}
    (hchoice : ∀ c, choice = some c → ∀ i ∈ c.2, i < length) :
    SameOutcome (AgreeOnRange start start' length)
      (buildInitial v handlers start composite columns choice)
      (buildInitial w handlers start' composite columns choice) := by
  cases choice with
  | none =>
    -- no column is read
    unfold buildInitial
    cases composite.default? with
    | none => exact .error _
    | some object => exact .ok fun _ _ _ => rfl
  | some c =>
    obtain ⟨constructor, places⟩ := c
    have hplaces : ∀ e ∈ constructor.params.zip places, e.2 < length :=
      fun e he => hchoice _ rfl _ (List.of_mem_zip he).2
    have hbindings := SameOutcome.mapM_same (S := Binding.Alike start start' length)
      (f := fun e : Param × Nat => Binding.plan v handlers (start + e.2) e.1.info)
      (g := fun e => Binding.plan w handlers (start' + e.2) e.1.info)
      fun e he => Binding.plan_alike h ⟨e.2, hplaces e he, rfl, rfl⟩ handlers e.1.info
    refine hbindings.bind fun bs cs hbs => .ok ?_
    intro x y hxy
    simp only [Binding.mapM_read_eq hbs hxy]

theorem buildNamed_shift (h : v.SameColumns start w start' length) (composite : Composite α) :
    SameOutcome (AgreeOnRange start start' length)
      (buildNamed v handlers start length firstMissing composite)
      (buildNamed w handlers start' length firstMissing composite) := by
  unfold buildNamed
  rw [h.names_eq]
  have hlength : ((List.range' start' length).map w.name).length = length := by simp
  -- from here on both sides match the same names to the same places
  generalize (List.range' start' length).map w.name = columns at hlength
  have hchoice : ∀ c, Matching.choose? columns composite.constructors = some c →
      ∀ i ∈ c.2, i < length := fun c hc => hlength ▸ Matching.choose?_lt hc
  refine (buildInitial_shift handlers h composite columns hchoice).bind fun f g hfg => ?_
  generalize ((Matching.choose? columns composite.constructors).map (·.2)).getD [] = taken
  have hpairs : ∀ e ∈ (Matching.assignMembers (composite.members.map (·.name)) taken []
      columns.zipIdx).filterMap fun e => composite.members[e.2]?.map (e.1, ·), e.1 < length := by
    intro e he
    obtain ⟨pair, hpair, he⟩ := List.mem_filterMap.1 he
    obtain ⟨member, -, rfl⟩ := Option.map_eq_some_iff.1 he
    exact hlength ▸ Matching.assignMembers_lt hpair
  have hmembers := SameOutcome.mapM_same
    (S := fun m n => m.1.Alike start start' length n.1 ∧ m.2 = n.2)
    (f := fun e : Nat × Member α => do
      return ((← Binding.plan v handlers (start + e.1) e.2.info), e.2))
    (g := fun e => do return ((← Binding.plan w handlers (start' + e.1) e.2.info), e.2))
    fun e he => (Binding.plan_alike h ⟨e.1, hpairs e he, rfl, rfl⟩ handlers e.2.info).bind
      fun b c hbc => .ok ⟨hbc, rfl⟩
  refine hmembers.bind fun ms ns hms => .ok (unlessFirstIsNull_agree firstMissing ?_)
  intro x y hxy
  simp only [hfg x y hxy, setMembers_eq hms hxy]

theorem mapM_value_eq (hxy : x.SameValues start y start' length) :
    (List.range' start length).mapM x.value = (List.range' start' length).mapM y.value := by
  have hvalues := SameOutcome.mapM (S := Eq) (f := x.value) (g := y.value)
    (fun i j hij => by rw [hxy.value_eq hij]; exact .refl (fun _ => rfl) _)
    (forall₂_samePlace_range' start start' length)
  rw [List.forall₂_eq_eq_eq] at hvalues
  exact hvalues.eq

theorem buildDynamic_agree (schema : SchemaId) (build : Row → Except Error α) :
    AgreeOnRange start start' length (buildDynamic start length firstMissing schema build)
      (buildDynamic start' length firstMissing schema build) := by
  intro x y hxy
  unfold buildDynamic
  rw [mapM_value_eq hxy]

/-- **A row function sees its range only.**  Over alike ranges, building fails in the same way or
gives row functions that agree on rows with the same values. -/
theorem build_shift (h : v.SameColumns start w start' length) (layout : Layout α)
    (schema : SchemaId) :
    SameOutcome (AgreeOnRange start start' length)
      (layout.build v handlers start length firstMissing schema)
      (layout.build w handlers start' length firstMissing schema) := by
  cases layout with
  | scalar info build => exact buildScalar_shift handlers firstMissing h info build
  | positional fields build => exact buildPositional_shift handlers firstMissing h fields build
  | named composite => exact buildNamed_shift handlers firstMissing h composite
  | dynamic build => exact .ok (buildDynamic_agree firstMissing schema build)

/-- Over one range with the same names and types, the same row function is built. -/
theorem build_congr (h : v.SameColumns start w start length) (layout : Layout α)
    (schema : SchemaId) :
    layout.build v handlers start length firstMissing schema =
      layout.build w handlers start length firstMissing schema := by
  apply SameOutcome.eq
  refine (build_shift handlers firstMissing h layout schema).mono fun f g hfg => ?_
  funext x
  exact hfg x x fun _ _ => rfl

/-! ### Rows without an object -/

theorem ne_none_of_unlessFirstIsNull {f : RowView → Except Error α} {x : RowView} :
    unlessFirstIsNull start length false f x ≠ .ok none := by
  intro h
  obtain ⟨object, -, h⟩ := bind_eq_ok.1 h
  cases h

theorem ne_none_of_build {layout : Layout α} {schema : SchemaId} {f : RowFn α}
    (h : layout.build v handlers start length false schema = .ok f) (x : RowView) :
    f x ≠ .ok none := by
  cases layout with
  | scalar info build =>
    simp only [Layout.build, buildScalar] at h
    split at h
    · cases h
    · obtain ⟨binding, -, h⟩ := bind_eq_ok.1 h
      cases h
      intro hx
      obtain ⟨value, -, hx⟩ := bind_eq_ok.1 hx
      obtain ⟨object, -, hx⟩ := bind_eq_ok.1 hx
      cases hx
  | positional fields build =>
    obtain ⟨bindings, -, h⟩ := bind_eq_ok.1 h
    cases h
    exact ne_none_of_unlessFirstIsNull
  | named composite =>
    obtain ⟨initial, -, h⟩ := bind_eq_ok.1 h
    obtain ⟨members, -, h⟩ := bind_eq_ok.1 h
    cases h
    exact ne_none_of_unlessFirstIsNull
  | dynamic build =>
    cases h
    intro hx
    obtain ⟨values, -, hx⟩ := bind_eq_ok.1 hx
    obtain ⟨object, -, hx⟩ := bind_eq_ok.1 hx
    cases hx

end Layout

end RowMapping
