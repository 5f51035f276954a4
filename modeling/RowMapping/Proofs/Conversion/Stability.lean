import RowMapping.Proofs.Conversion.Narrowing
import RowMapping.Proofs.Conversion.PlannedRead

/-!
# Coerced values stay, and planning refuses no more than coercion

What is coerced to a column type has the form that is canonical for it, and coercing it once more
changes nothing.  The plan for a column looks at its type only, and coercion at the value only.  Yet
they agree where the plan refuses: no value of the column's own kind would have converted.

* `DbType.Holds.canonical`, `coerce_of_holds`: the canonical form, and that it stays;
* `Rule.exists_planScalar?_of_coerce`, `Rule.exists_planEnumeration?_of_discriminant`: what converts
  is planned;
* `coerce_canonical_and_planned`: both together.
-/

namespace RowMapping

/-! ### The canonical form stays -/

/-- The value is of the kind that is canonical for a column type.  One for an integer type is in its
range. -/
def DbType.Canonical (t : DbType) (v : Value) : Prop :=
  t.OwnKind v ∧ ∀ type, t = .int type → ∀ n, v.HasWholePart n → type.least ≤ n ∧ n ≤ type.greatest

theorem DbType.Holds.canonical {t : DbType} {v : Value} (ht : t ≠ .null) (h : t.Holds v) :
    t.Canonical v := by
  cases t with
  | null => exact absurd rfl ht
  | int type =>
    obtain ⟨n, rfl⟩ := h
    refine ⟨Value.ownKind_ofInt type n, ?_⟩
    rintro _ ⟨⟩ m hm
    have hwrap := Value.integral?_eq_some_iff.2 hm
    rw [Value.integral?_ofInt] at hwrap
    cases hwrap
    exact type.wrap_mem n
  | bool | f32 | f64 | decimal | text | bytes | dateTime | guid => exact ⟨h, nofun⟩

/-- **A value in canonical form stays as it is.** -/
theorem coerce_of_holds {t : DbType} {v : Value} (h : t.Holds v) : coerce v t = .ok v := by
  cases t with
  | null => cases v <;> rfl
  | int type =>
    obtain ⟨n, rfl⟩ := h
    rw [Value.coerce_int_of_hasWholePart type (Value.hasWholePart_ofInt type n)]
    simp only [Value.ofInt, type.wrap_wrap]
  | bool | f32 | f64 | decimal | text | bytes | dateTime | guid => obtain ⟨_, rfl⟩ := h; rfl

theorem coerce_of_coerce {t : DbType} {v w : Value} (h : coerce v t = .ok w) :
    coerce w t = .ok w := by
  cases hv : v.isNull with
  | true =>
    cases Value.eq_null_of_isNull hv
    cases h
    rfl
  | false => exact coerce_of_holds (holds_of_coerce hv h)

/-! ### What converts is planned -/

namespace DbType.OwnKind

variable {source : DbType} {v : Value}

theorem isNumeric (h : source.OwnKind v) (hv : v.isNumber = true) : source.isNumeric = true := by
  cases source with
  | bool | int | f32 | f64 | decimal => rfl
  | null => cases h
  | text | bytes | dateTime | guid =>
    obtain ⟨_, rfl⟩ := h
    cases hv

theorem eq_dbType (h : source.OwnKind v) (hv : v.isNumber = false) : source = v.dbType := by
  cases source with
  | null => cases h
  | int type =>
    simp only [OwnKind] at h
    split at h <;> obtain ⟨_, rfl⟩ := h <;> cases hv
  | bool | f32 | f64 | decimal | text | bytes | dateTime | guid =>
    obtain ⟨_, rfl⟩ := h
    rfl

theorem isNull_eq_false (h : source.OwnKind v) : v.isNull = false := by
  cases hv : v.isNull with
  | false => rfl
  | true =>
    cases Value.eq_null_of_isNull hv
    cases h.eq_dbType rfl
    exact h.elim

end DbType.OwnKind

theorem Value.isNumeric_of_coerce {v w : Value} {wanted : DbType} (hv : v.isNumber = true)
    (hwanted : wanted ≠ .null) (h : coerce v wanted = .ok w) : wanted.isNumeric = true := by
  cases wanted with
  | bool | int | f32 | f64 | decimal => rfl
  | null => exact absurd rfl hwanted
  | text | bytes | dateTime | guid =>
    cases v with
    | bool | signed | unsigned | float | double | decimal => cases h
    | null | text | bytes | dateTime | guid => cases hv

namespace Rule

variable {source wanted : DbType} {v w : Value}

theorem exists_planScalar?_of_isNumeric (hsource : source.isNumeric = true)
    (hwanted : wanted.isNumeric = true) : ∃ rule, planScalar? source wanted = some rule := by
  unfold planScalar?
  split
  · exact ⟨_, rfl⟩
  · split
    · exact ⟨_, rfl⟩
    · rw [hsource, hwanted]
      exact ⟨_, rfl⟩

/-- **What converts is planned.**  If a value of a column's own kind can be coerced, then there is a
rule from the type of the column. -/
theorem exists_planScalar?_of_coerce (hv : source.OwnKind v) (hwanted : wanted ≠ .null)
    (h : coerce v wanted = .ok w) : ∃ rule, planScalar? source wanted = some rule := by
  cases hnumber : v.isNumber with
  | true =>
    exact exists_planScalar?_of_isNumeric (hv.isNumeric hnumber)
      (v.isNumeric_of_coerce hnumber hwanted h)
  | false =>
    rw [hv.eq_dbType hnumber]
    cases v with
    | null => exact nomatch hv.isNull_eq_false
    | bool | signed | unsigned | float | double | decimal => cases hnumber
    | text s =>
      cases wanted with
      | null => exact absurd rfl hwanted
      | bool | decimal | text | bytes | dateTime | guid => exact ⟨_, rfl⟩
      | int | f32 | f64 => cases h
    | bytes bs =>
      cases wanted with
      | null => exact absurd rfl hwanted
      | text | bytes | guid => exact ⟨_, rfl⟩
      | bool | int | f32 | f64 | decimal | dateTime => cases h
    | dateTime t =>
      cases wanted with
      | null => exact absurd rfl hwanted
      | dateTime => exact ⟨_, rfl⟩
      | bool | int | f32 | f64 | decimal | text | bytes | guid => cases h
    | guid g =>
      cases wanted with
      | null => exact absurd rfl hwanted
      | text | bytes | guid => exact ⟨_, rfl⟩
      | bool | int | f32 | f64 | decimal | dateTime => cases h

/-- A value that names a variant of an enumeration comes from a column for which the enumeration is
planned. -/
theorem exists_planEnumeration?_of_discriminant {variants : List EnumVariant}
    (hv : source.OwnKind v) (h : Enumeration.discriminant variants v = .ok w) :
    ∃ rule, planEnumeration? source variants = some rule := by
  cases source with
  | int | text => exact ⟨_, rfl⟩
  | null => cases hv
  | bool | f32 | f64 | decimal | bytes | dateTime | guid =>
    obtain ⟨_, rfl⟩ := hv
    cases h

/-- Without a handler, planning fails just if the destination's kind has no rule for the column's
type. -/
theorem plan_eq_error_iff {info : TypeInfo} {handlers : Handlers}
    (hnone : handlers.find? info.typeId = none) :
    (∃ e, plan source info handlers = .error e) ↔
      match info.kind with
      | .any => False
      | .scalar => planScalar? source info.dbType = none
      | .enumeration variants => planEnumeration? source variants = none := by
  unfold plan
  cases info.kind with
  | any => exact iff_of_false nofun id
  | scalar =>
    simp only [hnone]
    cases planScalar? source info.dbType with
    | none => exact iff_of_true ⟨_, rfl⟩ rfl
    | some rule => exact iff_of_false nofun nofun
  | enumeration variants =>
    simp only [hnone]
    cases planEnumeration? source variants with
    | none => exact iff_of_true ⟨_, rfl⟩ rfl
    | some rule => exact iff_of_false nofun nofun

/-- **The plan refuses nothing that converts.**  Where there is no rule for a scalar destination of
a column type, or for an enumeration, no value of the column's own kind can be converted. -/
theorem exists_coerce_eq_error {info : TypeInfo} {handlers : Handlers}
    (hinfo : info.kind = .scalar ∧ info.dbType ≠ .null ∨
      ∃ variants, info.kind = .enumeration variants)
    (hnone : handlers.find? info.typeId = none) {e : Error}
    (h : plan source info handlers = .error e) (hv : source.OwnKind v) :
    ∃ e', info.coerce v = .error e' := by
  have hrefused := (plan_eq_error_iff hnone).1 ⟨e, h⟩
  cases hresult : info.coerce v with
  | error e' => exact ⟨e', rfl⟩
  | ok w =>
    exfalso
    obtain ⟨hkind, hwanted⟩ | ⟨variants, hkind⟩ := hinfo
    · simp only [TypeInfo.coerce, hkind] at hresult hrefused
      obtain ⟨rule, hrule⟩ := exists_planScalar?_of_coerce hv hwanted hresult
      cases hrefused.symm.trans hrule
    · simp only [TypeInfo.coerce, hkind, hv.isNull_eq_false, Bool.false_eq_true, if_false]
        at hresult hrefused
      obtain ⟨rule, hrule⟩ := exists_planEnumeration?_of_discriminant hv hresult
      cases hrefused.symm.trans hrule

end Rule

/-- **Coercion gives a canonical form that stays, and the plan refuses nothing that converts.**  For
a column type `t` other than `null`: what is coerced to `t` is null just if the value is, is in
canonical form for `t` otherwise, and stays the same when it is coerced to `t` again.  A plan that
fails for a scalar destination of column type `t`, or for an enumeration, without a handler, does so
for a column none of whose values would have converted.  (The column type `null` is no canonical
form of anything: coercion to it keeps every value, while the plan binds it to columns without a
type only.) -/
theorem coerce_canonical_and_planned {t : DbType} (ht : t ≠ .null) :
    (∀ v w, coerce v t = .ok w →
      (w = .null ↔ v = .null) ∧ (w ≠ .null → t.Canonical w) ∧ coerce w t = .ok w) ∧
    ∀ (source : DbType) (info : TypeInfo) (handlers : Handlers),
      (info.kind = .scalar ∧ info.dbType = t ∨ ∃ variants, info.kind = .enumeration variants) →
        handlers.find? info.typeId = none →
          (∃ e, Rule.plan source info handlers = .error e) →
            ∀ v, source.OwnKind v → ∃ e, info.coerce v = .error e := by
  refine ⟨fun v w h => ?_, fun source info handlers hinfo hnone ⟨e, he⟩ v hv => ?_⟩
  · have hnull := isNull_of_coerce h
    refine ⟨by rw [← Value.isNull_iff, ← Value.isNull_iff, hnull], fun hw => ?_,
      coerce_of_coerce h⟩
    have hv : v.isNull = false := by rwa [← hnull, ← Bool.not_eq_true, Value.isNull_iff]
    exact (holds_of_coerce hv h).canonical ht
  · refine Rule.exists_coerce_eq_error ?_ hnone he hv
    exact hinfo.imp_left fun ⟨hkind, hdbType⟩ => ⟨hkind, hdbType ▸ ht⟩

/-- A negative decimal number with a fraction, wanted as an unsigned integer of eight bits, and a
column of bytes bound to such an integer or to an enumeration. -/
theorem coerce_canonical_and_planned_of_bytes :
    let v : Value := .decimal ⟨true, 3007, 1, by decide, by decide⟩
    let w : Value := .unsigned 212
    let bytes : Value := .bytes ⟨#[1]⟩
    let number : TypeInfo := .scalar (.int ⟨false, .w8⟩) .u8
    let status : TypeInfo := .enumeration (.declared "Status") [⟨"Active", 1⟩]
    DbType.u8 ≠ .null ∧
      (coerce v .u8 = .ok w ∧ w ≠ .null ∧ DbType.u8.Canonical w ∧ coerce w .u8 = .ok w) ∧
      DbType.bytes.OwnKind bytes ∧
      (Rule.plan .bytes number .empty =
          .error (.configuration (.unmappable .bytes number.typeId .u8)) ∧
        ∃ e, number.coerce bytes = .error e) ∧
      Rule.plan .bytes status .empty =
          .error (.configuration (.unmappable .bytes status.typeId .i64)) ∧
        ∃ e, status.coerce bytes = .error e := by
  intro v w bytes number status
  have ht : DbType.u8 ≠ .null := by decide
  have hv : coerce v .u8 = .ok w := by decide
  have hbytes : DbType.bytes.OwnKind bytes := ⟨_, rfl⟩
  obtain ⟨hcanonical, hrefused⟩ := coerce_canonical_and_planned ht
  obtain ⟨-, hform, hstays⟩ := hcanonical v w hv
  exact ⟨ht, ⟨hv, nofun, hform nofun, hstays⟩, hbytes,
    ⟨rfl, hrefused .bytes number .empty (.inl ⟨rfl, rfl⟩) rfl ⟨_, rfl⟩ bytes hbytes⟩,
    rfl, hrefused .bytes status .empty (.inr ⟨_, rfl⟩) rfl ⟨_, rfl⟩ bytes hbytes⟩

end RowMapping
