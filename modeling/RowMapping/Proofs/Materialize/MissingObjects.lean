import RowMapping.Layout.Record
import RowMapping.Proofs.Conversion.PlannedRead
import RowMapping.Proofs.Materialize.Locality

/-!
# Rows without an object

If it is asked for, a row has no object where its first column is null.  Tuples, types matched by
name and dynamic rows look at the value as it is read.  A scalar looks at the value that its rule
made of it, and only a handler makes null of another value.

* `Rule.apply_eq_null_iff`: what a planned rule turns into null;
* `Layout.rowFn_eq_none_iff`: which rows have no object, in every layout.
-/

namespace RowMapping

/-! ### Values that become null -/

/-- The value is null, or the handler of the destination makes null of it. -/
def TypeInfo.MakesNull (info : TypeInfo) (handlers : Handlers) (v : Value) : Prop :=
  v = .null ∨ ∃ h, info.handler? handlers = some h ∧ h v = .ok .null

theorem Enumeration.discriminant_ne_null {variants : List EnumVariant} {v : Value} :
    discriminant variants v ≠ .ok .null := by
  intro h
  obtain ⟨i, -, hi⟩ := map_eq_ok.1 h
  cases hi

theorem coerce_ne_null {v : Value} {wanted : DbType} (hv : v.isNull = false) :
    coerce v wanted ≠ .ok .null := fun h => by
  have hnull := isNull_of_coerce h
  rw [hv] at hnull
  cases hnull

/-- A planned rule gives null for null, and otherwise only through a handler. -/
theorem Rule.apply_eq_null_iff {source : DbType} {info : TypeInfo} {handlers : Handlers}
    {rule : Rule} (h : plan source info handlers = .ok rule) (v : Value) :
    rule.apply v = .ok .null ↔ info.MakesNull handlers v := by
  cases hv : v.isNull with
  | true => exact ⟨fun _ => .inl (Value.eq_null_of_isNull hv), fun _ => apply_of_isNull hv⟩
  | false =>
    have hne : v ≠ .null := by rwa [← Bool.not_eq_true, Value.isNull_iff] at hv
    rw [apply_of_not_isNull rule hv]
    obtain ⟨f, hf, rfl⟩ | ⟨hnone, hrule⟩ := plan_cases h
    · refine ⟨fun hnull => .inr ⟨f, hf, hnull⟩, ?_⟩
      rintro (hnull | ⟨g, hg, hnull⟩)
      · exact absurd hnull hne
      · cases hf.symm.trans hg
        exact hnull
    · -- without a handler neither side holds
      have hmakes : ¬ info.MakesNull handlers v := by
        rintro (hnull | ⟨g, hg, -⟩)
        · exact hne hnull
        · cases hnone.symm.trans hg
      refine iff_of_false ?_ hmakes
      obtain ⟨-, rfl⟩ | ⟨variants, -, rfl⟩ | ⟨-, rfl | rfl | rfl⟩ := hrule
      · exact fun hnull => hne (Except.ok.inj hnull)
      · exact Enumeration.discriminant_ne_null
      · exact fun hnull => hne (Except.ok.inj hnull)
      · exact coerce_ne_null hv
      · exact coerce_ne_null hv

theorem Binding.read_eq_null_iff {v x : RowView} {handlers : Handlers} {i : Nat} {info : TypeInfo}
    {b : Binding} (h : plan v handlers i info = .ok b) :
    b.read x = .ok .null ↔ ∃ y, x.value i = .ok y ∧ info.MakesNull handlers y := by
  obtain ⟨hrule, hcolumn, -⟩ := plan_eq_ok h
  unfold read
  rw [bind_eq_ok, hcolumn]
  simp only [mapError_eq_ok, Rule.apply_eq_null_iff hrule]

namespace Layout

variable {α : Type} {v x : RowView} {handlers : Handlers} {start length : Nat}
  {firstMissing : Bool}

/-! ### Each layout -/

theorem firstIsNull_eq_true_iff (hlength : 0 < length) :
    firstIsNull start length x = .ok true ↔ x.value start = .ok .null := by
  unfold firstIsNull
  rw [if_neg (Nat.ne_of_gt hlength), map_eq_ok]
  constructor
  · rintro ⟨y, hy, hnull⟩
    rw [hy, Value.eq_null_of_isNull hnull]
  · exact fun h => ⟨.null, h, rfl⟩

/-- What looks at the first column before anything else makes no object just if that is null. -/
theorem unlessFirstIsNull_eq_none_iff (hlength : 0 < length) {f : RowView → Except Error α} :
    unlessFirstIsNull start length firstMissing f x = .ok none ↔
      firstMissing = true ∧ x.value start = .ok .null := by
  cases firstMissing with
  | false => exact iff_of_false ne_none_of_unlessFirstIsNull (fun h => nomatch h.1)
  | true =>
    rw [← firstIsNull_eq_true_iff hlength]
    simp only [unlessFirstIsNull, if_true, true_and]
    rw [bind_eq_ok]
    constructor
    · rintro ⟨b, hb, h⟩
      cases b with
      | true => exact hb
      | false =>
        obtain ⟨object, -, h⟩ := bind_eq_ok.1 h
        cases h
    · exact fun h => ⟨true, h, rfl⟩

/-- A scalar without a missing object of its own makes none where null comes out of its rule. -/
theorem eq_none_iff_of_buildScalar {info : TypeInfo} {build : Value → Except Error α}
    {f : RowFn α} (h : buildScalar v handlers start length firstMissing info build = .ok f) :
    f x = .ok none ↔ firstMissing = true ∧ info.nullable = false ∧
      ∃ y, x.value start = .ok y ∧ info.MakesNull handlers y := by
  unfold buildScalar at h
  split at h
  · cases h
  · obtain ⟨b, hb, h⟩ := bind_eq_ok.1 h
    cases h
    rw [← Binding.read_eq_null_iff hb, bind_eq_ok]
    constructor
    · rintro ⟨w, hw, h⟩
      split at h
      · rename_i hmissing
        simp only [Bool.and_eq_true, Bool.not_eq_true'] at hmissing
        obtain ⟨⟨hfirst, hnullable⟩, hnull⟩ := hmissing
        rw [hw, Value.eq_null_of_isNull hnull]
        exact ⟨hfirst, hnullable, rfl⟩
      · obtain ⟨object, -, h⟩ := bind_eq_ok.1 h
        cases h
    · rintro ⟨hfirst, hnullable, hnull⟩
      refine ⟨.null, hnull, ?_⟩
      rw [hfirst, hnullable]
      rfl

theorem exists_values (hlength : 0 < length)
    (hx : ∀ i < length, ∃ y, x.value (start + i) = .ok y) :
    ∃ y ys, x.value start = .ok y ∧ (List.range' start length).mapM x.value = .ok (y :: ys) := by
  have hread : ∀ i ∈ List.range' start length, ∃ y, x.value i = .ok y := by
    intro i hi
    obtain ⟨k, hk, rfl⟩ := List.mem_range'.1 hi
    rw [Nat.one_mul]
    exact hx k hk
  obtain ⟨values, hvalues⟩ := exists_mapM_eq_ok hread
  cases length with
  | zero => exact absurd hlength (Nat.lt_irrefl 0)
  | succ n =>
    rw [List.range'_succ] at hvalues ⊢
    cases forall₂_of_mapM_eq_ok hvalues with
    | cons hy _ => exact ⟨_, _, hy, hvalues⟩

theorem buildDynamic_eq_none_iff {schema : SchemaId} {build : Row → Except Error α}
    (hlength : 0 < length) (hx : ∀ i < length, ∃ y, x.value (start + i) = .ok y) :
    buildDynamic start length firstMissing schema build x = .ok none ↔
      firstMissing = true ∧ x.value start = .ok .null := by
  obtain ⟨y, ys, hy, hvalues⟩ := exists_values hlength hx
  unfold buildDynamic
  rw [hvalues, hy, Except.ok.injEq]
  change (if (firstMissing && y.isNull) = true then _ else _) = _ ↔ _
  split
  · rename_i hmissing
    rw [Bool.and_eq_true] at hmissing
    exact iff_of_true rfl ⟨hmissing.1, Value.eq_null_of_isNull hmissing.2⟩
  · rename_i hmissing
    refine iff_of_false (fun h => ?_) ?_
    · obtain ⟨object, -, h⟩ := bind_eq_ok.1 h
      cases h
    · rintro ⟨rfl, rfl⟩
      exact hmissing rfl

/-! ### All layouts -/

/-- The layout has a missing object of its own. -/
def isNullable : Layout α → Bool
  | .scalar info _ => info.nullable
  | _ => false

/-- The layout takes the value of the first column for null: it is null, or the handler of a scalar
makes null of it. -/
def TakesForNull (handlers : Handlers) : Layout α → Value → Prop
  | .scalar info _, y => info.MakesNull handlers y
  | _, y => y = .null

/-- **No object means a null first column.**  A row function for at least one column, applied to a
row whose columns can be read, makes no object just if that was asked for, the type has no missing
object of its own, and its layout takes the value of the first column for null.  So it is null
itself, unless a scalar's handler made null of it. -/
theorem rowFn_eq_none_iff {layout : Layout α} {schema : SchemaId} {f : RowFn α}
    (h : layout.build v handlers start length firstMissing schema = .ok f) (hlength : 0 < length)
    (hx : ∀ i < length, ∃ y, x.value (start + i) = .ok y) :
    f x = .ok none ↔ firstMissing = true ∧ layout.isNullable = false ∧
      ∃ y, x.value start = .ok y ∧ layout.TakesForNull handlers y := by
  cases layout with
  | scalar info build => exact eq_none_iff_of_buildScalar h
  | positional fields build =>
    obtain ⟨bindings, -, h⟩ := bind_eq_ok.1 h
    cases h
    simpa [isNullable, TakesForNull] using unlessFirstIsNull_eq_none_iff hlength
  | named composite =>
    obtain ⟨initial, -, h⟩ := bind_eq_ok.1 h
    obtain ⟨members, -, h⟩ := bind_eq_ok.1 h
    cases h
    simpa [isNullable, TakesForNull] using unlessFirstIsNull_eq_none_iff hlength
  | dynamic build =>
    cases h
    simpa [isNullable, TakesForNull] using buildDynamic_eq_none_iff hlength hx

/-- A join that found nothing on its right side, where the second column would not even convert. -/
theorem rowFn_eq_none_iff_of_join :
    let layout := Tuple.layout [⟨_, .int ⟨true, .w64⟩⟩, ⟨_, .int ⟨true, .w64⟩⟩]
    let view : RowView :=
      ⟨3, fun _ => "id", fun _ => .i64,
        fun i => .ok (if i = 0 then .signed 9 else if i = 1 then .null else .text "x")⟩
    ∃ f, layout.build view .empty 1 2 true ⟨0⟩ = .ok f ∧
      (∀ i < 2, ∃ y, view.value (1 + i) = .ok y) ∧
      (f view = .ok none ↔ true = true ∧ layout.isNullable = false ∧
        ∃ y, view.value 1 = .ok y ∧ layout.TakesForNull .empty y) ∧
      f view = .ok none := by
  intro layout view
  have hread : ∀ i < 2, ∃ y, view.value (1 + i) = .ok y := fun _ _ => ⟨_, rfl⟩
  obtain ⟨f, hf⟩ : ∃ f, layout.build view .empty 1 2 true ⟨0⟩ = .ok f := ⟨_, rfl⟩
  have hnone := rowFn_eq_none_iff hf (by decide) hread
  exact ⟨f, hf, hread, hnone, hnone.2 ⟨rfl, rfl, .null, rfl, rfl⟩⟩

/-- A scalar whose handler makes null of everything has no object where the column holds seven.  A
tuple with that scalar as its only part has one. -/
theorem rowFn_eq_none_of_handled_seven :
    let t : ScalarType := .int ⟨true, .w64⟩
    let handlers := Handlers.empty.insert t.destination.info.typeId fun _ => .ok .null
    let view : RowView := ⟨1, fun _ => "n", fun _ => .i64, fun _ => .ok (.signed 7)⟩
    ∃ f g, (ofDestination t.destination).build view handlers 0 1 true ⟨0⟩ = .ok f ∧
      (Tuple.layout [⟨_, t.destination⟩]).build view handlers 0 1 true ⟨0⟩ = .ok g ∧
      ¬ (f view = .ok none ↔ view.value 0 = .ok .null) ∧ ∃ object, g view = .ok (some object) := by
  intro t handlers view
  have hseven : view.value 0 ≠ .ok .null := fun h => nomatch h
  exact ⟨_, _, rfl, rfl, fun h => hseven (h.1 rfl), _, rfl⟩

end Layout

end RowMapping
