import RowMapping.Materialize.Build
import RowMapping.Proofs.Conversion.CanonicalForm
import RowMapping.Row.Basic

/-!
# Planned and unplanned reads agree

A value reaches a destination in two ways: by the rule that was planned from the type of its column,
and by coercion to the type that the destination wants, whatever column it comes from.  The rule
depends on the column's type only in whether there is one.

* `Rule.plan_cases`: what planning can give;
* `ScalarType.read_eq_ofValue`: coercing first changes nothing, as destinations coerce themselves;
* `ScalarType.planned_read`: without a handler both ways give the same object or the same error, and
  a dynamic row gives it as well.
-/

namespace RowMapping

/-- The handler that values of a column go through on their way to a destination.  A destination
that takes every value as it is has none. -/
def TypeInfo.handler? (info : TypeInfo) (handlers : Handlers) : Option Handler :=
  match info.kind with
  | .any => none
  | _ => handlers.find? info.typeId

/-! ### What planning gives -/

namespace Rule

variable {source : DbType} {info : TypeInfo} {handlers : Handlers} {rule : Rule}

/-- A scalar destination without a handler takes values as they are, if the column has its type,
or else coerced. -/
theorem planScalar?_cases {wanted : DbType} (h : planScalar? source wanted = some rule) :
    rule = .direct ∨ rule = .parse wanted ∨ rule = .numeric wanted := by
  unfold planScalar? at h
  split at h
  · exact .inl (Option.some.inj h).symm
  · split at h
    · exact .inr (.inl (Option.some.inj h).symm)
    · split at h
      · exact .inr (.inr (Option.some.inj h).symm)
      · split at h
        · exact .inr (.inl (Option.some.inj h).symm)
        · cases h

theorem planEnumeration?_eq {variants : List EnumVariant}
    (h : planEnumeration? source variants = some rule) : rule = .enumeration variants := by
  unfold planEnumeration? at h
  split at h
  · exact (Option.some.inj h).symm
  · cases h

/-- The rule goes through the handler of the destination; if it has none, it is the one of the
destination's kind. -/
theorem plan_cases (h : plan source info handlers = .ok rule) :
    (∃ f, info.handler? handlers = some f ∧ rule = .handler f) ∨
      info.handler? handlers = none ∧
        (info.kind = .any ∧ rule = .direct ∨
          (∃ variants, info.kind = .enumeration variants ∧ rule = .enumeration variants) ∨
          info.kind = .scalar ∧
            (rule = .direct ∨ rule = .parse info.dbType ∨ rule = .numeric info.dbType)) := by
  unfold plan at h
  unfold TypeInfo.handler?
  cases hkind : info.kind with
  | any =>
    simp only [hkind] at h
    exact .inr ⟨rfl, .inl ⟨rfl, (Except.ok.inj h).symm⟩⟩
  | scalar =>
    simp only [hkind] at h ⊢
    cases hf : handlers.find? info.typeId with
    | some f =>
      simp only [hf] at h
      exact .inl ⟨f, rfl, (Except.ok.inj h).symm⟩
    | none =>
      simp only [hf] at h
      split at h
      · rename_i hplan
        cases h
        exact .inr ⟨rfl, .inr (.inr ⟨trivial, planScalar?_cases hplan⟩)⟩
      · cases h
  | enumeration variants =>
    simp only [hkind] at h ⊢
    cases hf : handlers.find? info.typeId with
    | some f =>
      simp only [hf] at h
      exact .inl ⟨f, rfl, (Except.ok.inj h).symm⟩
    | none =>
      simp only [hf] at h
      split at h
      · rename_i hplan
        cases h
        exact .inr ⟨rfl, .inr (.inl ⟨variants, rfl, planEnumeration?_eq hplan⟩)⟩
      · cases h

theorem apply_of_isNull {v : Value} (hv : v.isNull = true) : rule.apply v = .ok .null := by
  unfold apply
  rw [if_pos hv]

theorem apply_of_not_isNull (rule : Rule) {v : Value} (hv : v.isNull = false) :
    rule.apply v = match rule with
      | .direct => .ok v
      | .numeric wanted | .parse wanted => coerce v wanted
      | .enumeration variants => Enumeration.discriminant variants v
      | .handler h => h v := by
  unfold apply
  rw [hv]
  rfl

end Rule

theorem Value.eq_null_of_isNull {v : Value} (h : v.isNull = true) : v = .null := by
  cases v <;> first | rfl | cases h

theorem Value.isNull_iff {v : Value} : v.isNull = true ↔ v = .null :=
  ⟨eq_null_of_isNull, fun h => by rw [h]; rfl⟩

/-! ### Destinations coerce themselves -/

namespace Destination

variable {α : Type}

/-- A destination that picks its objects from the values that its column type holds, and for which
coercing such a value picks the same object, gives the same for a value as for the coerced one. -/
theorem ofPick_read {typeId : TypeId} {dbType : DbType} {pick : Value → Option α} {missing : α}
    (hpick : ∀ v x, pick v = some x → ∃ w, coerce v dbType = .ok w ∧ pick w = some x)
    (hholds : ∀ w, dbType.Holds w → (pick w).isSome) (v : Value) :
    (ofPick typeId dbType pick missing).read v =
      (ofPick typeId dbType pick missing).ofValue v := by
  cases hv : v.isNull with
  | true => cases Value.eq_null_of_isNull hv; rfl
  | false =>
    change (coerce v dbType >>= (ofPick typeId dbType pick missing).ofValue) = _
    cases hp : pick v with
    | some x =>
      obtain ⟨w, hw, hx⟩ := hpick v x hp
      rw [hw]
      change (ofPick typeId dbType pick missing).ofValue w = _
      simp only [ofPick, hp, hx]
    | none =>
      simp only [ofPick, hp, hv, Bool.false_eq_true, if_false]
      cases hw : coerce v dbType with
      | error e => rfl
      | ok w =>
        obtain ⟨x, hx⟩ := Option.isSome_iff_exists.1 (hholds w (holds_of_coerce hv hw))
        simp only [bind, Except.bind, hx]

theorem ofPick_read_of_mk {typeId : TypeId} {pick : Value → Option α} {missing : α}
    (dbType : DbType) (mk : α → Value) (hmk : ∀ x, coerce (mk x) dbType = .ok (mk x))
    (hpick : ∀ x, pick (mk x) = some x) (hsome : ∀ v x, pick v = some x → v = mk x)
    (hholds : ∀ w, dbType.Holds w → ∃ x, w = mk x) (v : Value) :
    (ofPick typeId dbType pick missing).read v =
      (ofPick typeId dbType pick missing).ofValue v := by
  refine ofPick_read (fun v x hx => ?_) (fun w hw => ?_) v
  · cases hsome v x hx
    exact ⟨mk x, hmk x, hpick x⟩
  · obtain ⟨x, rfl⟩ := hholds w hw
    rw [hpick]
    rfl

end Destination

/-- The integer of a type that is picked from a value, which has to be of the kind that belongs to
the type's sign. -/
def IntType.pick (t : IntType) : Value → Option t.Carrier
  | .signed n => if t.signed then some (t.wrapped n.toInt) else none
  | .unsigned n => if t.signed then none else some (t.wrapped n.toNat)
  | _ => none

namespace IntType

variable (t : IntType)

theorem pick_ofInt (n : Int) : t.pick (.ofInt t n) = some (t.wrapped n) := by
  cases ht : t.signed
  · simp only [Value.ofInt, ht, Bool.false_eq_true, if_false, pick, t.toNat_ofInt_wrap ht,
      wrapped_wrap]
  · simp only [Value.ofInt, ht, if_true, pick, t.toInt_ofInt_wrap ht, wrapped_wrap]

theorem coerce_of_pick {v : Value} {x : t.Carrier} (h : t.pick v = some x) :
    ∃ n, coerce v (.int t) = .ok (.ofInt t n) ∧ x = t.wrapped n := by
  unfold pick at h
  split at h
  · rename_i n
    split at h
    · exact ⟨n.toInt, rfl, (Option.some.inj h).symm⟩
    · cases h
  · rename_i n
    split at h
    · cases h
    · exact ⟨n.toNat, rfl, (Option.some.inj h).symm⟩
  · cases h

end IntType

namespace Destination

theorem int_eq_ofPick (t : IntType) :
    int t = ofPick (.int t) (.int t) t.pick (t.wrapped 0) := rfl

theorem int_read (t : IntType) (v : Value) : (int t).read v = (int t).ofValue v := by
  rw [int_eq_ofPick]
  refine ofPick_read (fun v x hx => ?_) (fun w hw => ?_) v
  · obtain ⟨n, hn, rfl⟩ := t.coerce_of_pick hx
    exact ⟨_, hn, t.pick_ofInt n⟩
  · obtain ⟨n, rfl⟩ := hw
    rw [t.pick_ofInt]
    rfl

end Destination

/-! ### Optional destinations -/

namespace TypeInfo

variable (info : TypeInfo)

theorem coerce_null : info.coerce .null = .ok .null := by
  unfold coerce
  split <;> rfl

theorem isNull_of_coerce {v w : Value} (h : info.coerce v = .ok w) : w.isNull = v.isNull := by
  unfold coerce at h
  split at h
  · rw [Except.ok.inj h]
  · rename_i variants _
    split at h
    · exact RowMapping.isNull_of_coerce h
    · rename_i hv
      rw [Bool.not_eq_true] at hv
      unfold Enumeration.discriminant at h
      cases hi : Enumeration.find variants v with
      | error e => rw [hi] at h; cases h
      | ok i =>
        rw [hi] at h
        cases h
        exact hv.symm
  · exact RowMapping.isNull_of_coerce h

end TypeInfo

namespace Destination

variable {α : Type} (d : Destination α)

theorem read_null : d.read .null = d.ofValue .null := by
  unfold read
  rw [d.info.coerce_null]
  rfl

theorem option_ofValue (v : Value) :
    d.option.ofValue v = if v.isNull then .ok none else (d.ofValue v).map some := by
  cases v <;> rfl

theorem option_read (v : Value) :
    d.option.read v = if v.isNull then .ok none else (d.read v).map some := by
  cases hv : v.isNull with
  | true =>
    cases Value.eq_null_of_isNull hv
    exact d.option.read_null
  | false =>
    change (d.info.coerce v >>= d.option.ofValue) = (d.info.coerce v >>= d.ofValue).map some
    cases hw : d.info.coerce v with
    | error e => rfl
    | ok w =>
      have hnull : w.isNull = false := (d.info.isNull_of_coerce hw).trans hv
      change d.option.ofValue w = (d.ofValue w).map some
      simp only [option_ofValue, hnull, Bool.false_eq_true, if_false]

end Destination

/-! ### All scalar types -/

namespace ScalarType

theorem read_eq_ofValue (t : ScalarType) (h : t.destination.info.kind = .scalar) (v : Value) :
    t.destination.read v = t.destination.ofValue v := by
  induction t with
  | int t => exact Destination.int_read t v
  | bool =>
    exact Destination.ofPick_read_of_mk .bool .bool (fun _ => rfl) (fun _ => rfl)
      (fun v x hx => by cases v <;> cases hx; rfl) (fun _ hw => hw) v
  | single =>
    exact Destination.ofPick_read_of_mk .f32 .float (fun _ => rfl) (fun _ => rfl)
      (fun v x hx => by cases v <;> cases hx; rfl) (fun _ hw => hw) v
  | double =>
    exact Destination.ofPick_read_of_mk .f64 .double (fun _ => rfl) (fun _ => rfl)
      (fun v x hx => by cases v <;> cases hx; rfl) (fun _ hw => hw) v
  | decimal =>
    exact Destination.ofPick_read_of_mk .decimal .decimal (fun _ => rfl) (fun _ => rfl)
      (fun v x hx => by cases v <;> cases hx; rfl) (fun _ hw => hw) v
  | text =>
    exact Destination.ofPick_read_of_mk .text .text (fun _ => rfl) (fun _ => rfl)
      (fun v x hx => by cases v <;> cases hx; rfl) (fun _ hw => hw) v
  | bytes =>
    exact Destination.ofPick_read_of_mk .bytes .bytes (fun _ => rfl) (fun _ => rfl)
      (fun v x hx => by cases v <;> cases hx; rfl) (fun _ hw => hw) v
  | dateTime =>
    exact Destination.ofPick_read_of_mk .dateTime .dateTime (fun _ => rfl) (fun _ => rfl)
      (fun v x hx => by cases v <;> cases hx; rfl) (fun _ hw => hw) v
  | guid =>
    exact Destination.ofPick_read_of_mk .guid .guid (fun _ => rfl) (fun _ => rfl)
      (fun v x hx => by cases v <;> cases hx; rfl) (fun _ hw => hw) v
  | value => cases h
  | enumeration e => cases h
  | option t ih =>
    change t.destination.option.read v = t.destination.option.ofValue v
    rw [Destination.option_read, Destination.option_ofValue, ih h]

/-- The rule that was planned for a scalar type makes of a value what reading it without a column
makes of it, unless there is a handler for the type, which then takes the values that are not
null. -/
theorem apply_ofValue (t : ScalarType) {source : DbType} {handlers : Handlers} {rule : Rule}
    (h : Rule.plan source t.destination.info handlers = .ok rule) (v : Value) :
    (rule.apply v >>= t.destination.ofValue) =
      match t.destination.info.handler? handlers with
      | some f => if v.isNull then t.destination.read v else f v >>= t.destination.ofValue
      | none => t.destination.read v := by
  cases hv : v.isNull with
  | true =>
    cases Value.eq_null_of_isNull hv
    have hnull : (rule.apply .null >>= t.destination.ofValue) = t.destination.read .null := by
      rw [Rule.apply_of_isNull rfl, Destination.read_null]
      rfl
    rw [hnull]
    split <;> rfl
  | false =>
    have happly := Rule.apply_of_not_isNull rule hv
    obtain ⟨f, hf, rfl⟩ | ⟨hf, hrule⟩ := Rule.plan_cases h
    · rw [hf, happly]
      rfl
    · rw [hf]
      -- the rule is the coercion of the destination, or leaves the value to the destination
      obtain ⟨hkind, rfl⟩ | ⟨variants, hkind, rfl⟩ | ⟨hkind, rfl | rfl | rfl⟩ := hrule
      · simp only [happly, Destination.read, TypeInfo.coerce, hkind]
      · simp only [happly, Destination.read, TypeInfo.coerce, hkind, hv, Bool.false_eq_true,
          if_false]
      · rw [happly]
        exact (t.read_eq_ofValue hkind v).symm
      · simp only [happly, Destination.read, TypeInfo.coerce, hkind]
      · simp only [happly, Destination.read, TypeInfo.coerce, hkind]

end ScalarType

/-! ### Columns -/

theorem Binding.plan_eq_ok {header : RowView} {handlers : Handlers} {i : Nat} {info : TypeInfo}
    {b : Binding} (h : Binding.plan header handlers i info = .ok b) :
    Rule.plan (header.type i) info handlers = .ok b.rule ∧ b.column = i ∧
      b.name = header.name i := by
  unfold Binding.plan at h
  cases hrule : Rule.plan (header.type i) info handlers with
  | error e => rw [hrule] at h; cases h
  | ok rule =>
    rw [hrule] at h
    cases h
    exact ⟨rfl, rfl, rfl⟩

theorem Row.getAs_of_getByName? {α : Type} (d : Destination α) {row : Row} {ss : Schemas}
    {name : String} {v : Value} (h : row.getByName? ss name = some v) :
    row.getAs ss d name = d.read v := by
  unfold Row.getAs
  rw [h]

namespace ScalarType

variable (t : ScalarType) {header view : RowView} {handlers : Handlers} {i : Nat} {v : Value}

theorem read_of_plan {b : Binding}
    (h : Binding.plan header handlers i t.destination.info = .ok b)
    (hnone : t.destination.info.handler? handlers = none) (hv : view.value i = .ok v) :
    b.read view = (b.rule.apply v).mapError (Error.inColumn (header.name i)) ∧
      (b.rule.apply v >>= t.destination.ofValue) = t.destination.read v := by
  obtain ⟨hrule, hcolumn, hname⟩ := Binding.plan_eq_ok h
  have happly := t.apply_ofValue hrule v
  rw [hnone] at happly
  refine ⟨?_, happly⟩
  unfold Binding.read
  rw [hcolumn, hname, hv]
  rfl

/-- The object that is made of a column is the one that is read without a column, and an error is
the same up to the column's name in front. -/
theorem binding_read_ofValue {b : Binding}
    (h : Binding.plan header handlers i t.destination.info = .ok b)
    (hnone : t.destination.info.handler? handlers = none) (hv : view.value i = .ok v) :
    (b.read view >>= t.destination.ofValue) = t.destination.read v ∨
      (b.read view >>= t.destination.ofValue) =
        (t.destination.read v).mapError (Error.inColumn (header.name i)) := by
  obtain ⟨hread, happly⟩ := t.read_of_plan h hnone hv
  rw [hread, ← happly]
  cases b.rule.apply v with
  | error e => exact .inr rfl
  | ok w => exact .inl rfl

theorem rowFn_eq_read {length : Nat} {schema : SchemaId} {rowFn : RowFn t.Carrier}
    (h : (Layout.ofDestination t.destination).build header handlers i length false schema =
      .ok rowFn)
    (hnone : t.destination.info.handler? handlers = none) (hv : view.value i = .ok v) :
    rowFn view =
      ((t.destination.read v).mapError (Error.inColumn (header.name i))).map some := by
  change Layout.buildScalar header handlers i length false t.destination.info
    t.destination.ofValue = .ok rowFn at h
  unfold Layout.buildScalar at h
  split at h
  · cases h
  · cases hb : Binding.plan header handlers i t.destination.info with
    | error e => rw [hb] at h; cases h
    | ok b =>
      rw [hb] at h
      cases h
      obtain ⟨hread, happly⟩ := t.read_of_plan hb hnone hv
      simp only [hread, ← happly, (Binding.plan_eq_ok hb).2.2]
      cases b.rule.apply v with
      | error e => rfl
      | ok w =>
        change ((t.destination.ofValue w).mapError (Error.inColumn (header.name i)) >>=
          fun x => pure (some x)) =
          ((t.destination.ofValue w).mapError (Error.inColumn (header.name i))).map some
        cases t.destination.ofValue w <;> rfl

/-- **Planned and unplanned reads agree.**  Whatever the type of a column, a planned rule makes of a
value what its handler makes of it, or else what reading it without a column makes of it.  So a
column without a handler gives, up to its name in front of an error, what a dynamic row gives that
holds the value. -/
theorem planned_read (handlers : Handlers) :
    (∀ source rule v, Rule.plan source t.destination.info handlers = .ok rule →
      (rule.apply v >>= t.destination.ofValue) =
        match t.destination.info.handler? handlers with
        | some f => if v.isNull then t.destination.read v else f v >>= t.destination.ofValue
        | none => t.destination.read v) ∧
      (t.destination.info.handler? handlers = none →
        ∀ (header view : RowView) (i : Nat) (row : Row) (ss : Schemas) (name : String) (v : Value),
          view.value i = .ok v → row.getByName? ss name = some v →
            (∀ b, Binding.plan header handlers i t.destination.info = .ok b →
              (b.read view >>= t.destination.ofValue) = row.getAs ss t.destination name ∨
                (b.read view >>= t.destination.ofValue) =
                  (row.getAs ss t.destination name).mapError (Error.inColumn (header.name i))) ∧
              ∀ length schema rowFn,
                (Layout.ofDestination t.destination).build header handlers i length false schema =
                    .ok rowFn →
                  rowFn view =
                    ((row.getAs ss t.destination name).mapError
                      (Error.inColumn (header.name i))).map some) := by
  refine ⟨fun source rule v h => t.apply_ofValue h v, ?_⟩
  intro hnone header view i row ss name v hv hrow
  rw [Row.getAs_of_getByName? t.destination hrow]
  exact ⟨fun b hb => t.binding_read_ofValue hb hnone hv,
    fun length schema rowFn hrowFn => t.rowFn_eq_read hrowFn hnone hv⟩

/-- A text in a column of integers, which is neither what the column promises nor a number. -/
theorem planned_read_of_text_in_integer_column :
    let t : ScalarType := .option (.int ⟨true, .w8⟩)
    let view : RowView := ⟨1, fun _ => "n", fun _ => .i8, fun _ => .ok (.text "x")⟩
    let row := Row.ofValues ⟨0⟩ [.text "x"]
    let ss : Schemas := ⟨[⟨["n"]⟩]⟩
    let b : Binding := ⟨0, "n", .direct⟩
    Rule.plan .i8 t.destination.info .empty = .ok .direct ∧
      (Rule.direct.apply (.text "x") >>= t.destination.ofValue) = t.destination.read (.text "x") ∧
      t.destination.info.handler? .empty = none ∧ row.getByName? ss "n" = some (.text "x") ∧
      Binding.plan view .empty 0 t.destination.info = .ok b ∧
      ((b.read view >>= t.destination.ofValue) = row.getAs ss t.destination "n" ∨
        (b.read view >>= t.destination.ofValue) =
          (row.getAs ss t.destination "n").mapError (Error.inColumn "n")) ∧
      ∃ rowFn, (Layout.ofDestination t.destination).build view .empty 0 1 false ⟨0⟩ = .ok rowFn ∧
        rowFn view =
          ((row.getAs ss t.destination "n").mapError (Error.inColumn "n")).map some := by
  intro t view row ss b
  obtain ⟨hvalue, hcolumn⟩ := t.planned_read .empty
  have hrule : Rule.plan .i8 t.destination.info .empty = .ok .direct := rfl
  have hb : Binding.plan view .empty 0 t.destination.info = .ok b := rfl
  have hrow : row.getByName? ss "n" = some (.text "x") := rfl
  obtain ⟨hbinding, hrowFn⟩ := hcolumn rfl view view 0 row ss "n" (.text "x") rfl hrow
  exact ⟨hrule, hvalue .i8 .direct _ hrule, rfl, hrow, hb, hbinding b hb, _, rfl,
    hrowFn 1 ⟨0⟩ _ rfl⟩

end ScalarType

end RowMapping
