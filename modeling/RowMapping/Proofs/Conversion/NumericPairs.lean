import RowMapping.Conversion.Rule
import RowMapping.Proofs.Conversion.CanonicalForm
import RowMapping.Proofs.Laws

/-!
# Conversions between numbers

Planning admits every pair of numeric column types.  Whether the values of such a column convert is
decided apart from that, by the kind of each value.

* `Value.exists_coerce_of_number`: a number coerces to every numeric type, except that a binary one
  coerces to no truth value and need not have a decimal number near it;
* `Rule.numeric_apply`: a planned pair of numeric types converts all values of its source, or none,
  and none only where binary numbers are wanted as truth values.
-/

namespace RowMapping

/-- The value is of the kind in which a cursor delivers a column of the type.  Its integers are of
any size.  A column without a type has no kind of its own. -/
def DbType.OwnKind : DbType → Value → Prop
  | .null, _ => False
  | .bool, v => ∃ b, v = .bool b
  | .int t, v => if t.signed then ∃ n, v = .signed n else ∃ n, v = .unsigned n
  | .f32, v => ∃ x, v = .float x
  | .f64, v => ∃ x, v = .double x
  | .decimal, v => ∃ x, v = .decimal x
  | .text, v => ∃ s, v = .text s
  | .bytes, v => ∃ bs, v = .bytes bs
  | .dateTime, v => ∃ t, v = .dateTime t
  | .guid, v => ∃ g, v = .guid g

/-! ### Numbers among the values -/

namespace Value

/-- The value is a binary floating-point number. -/
def isBinary : Value → Bool
  | .float _ | .double _ => true
  | _ => false

/-- The value is an integer, a decimal number or a truth value, each of which stands for a whole
number, or it is a binary number. -/
def isNumber (v : Value) : Bool := v.integral?.isSome || v.isBinary

variable {v : Value}

theorem isNull_eq_false_of_isNumber (h : v.isNumber = true) : v.isNull = false := by
  cases v <;> first | rfl | cases h

theorem exists_toDouble?_of_isNumber (h : v.isNumber = true) : ∃ x, v.toDouble? = some x := by
  cases v with
  | bool | signed | unsigned | float | double => exact ⟨_, rfl⟩
  | decimal x =>
    obtain ⟨y, hy, -⟩ := Decimal.laws.exists_toDouble? x
    exact ⟨y, hy⟩
  | null | text | bytes | dateTime | guid => cases h

theorem exists_toInteger?_of_isNumber (t : IntType) (h : v.isNumber = true) :
    ∃ w, v.toInteger? t = some w := by
  cases v with
  | bool | signed | unsigned | float | double | decimal => exact ⟨_, rfl⟩
  | null | text | bytes | dateTime | guid => cases h

theorem exists_toBool?_of_integral? {n : Int} (h : v.integral? = some n) :
    ∃ b, v.toBool? = some b := by
  cases v with
  | bool | signed | unsigned | decimal => exact ⟨_, rfl⟩
  | null | float | double | text | bytes | dateTime | guid => cases h

theorem exists_toDecimal_of_integral? {n : Int} (h : v.integral? = some n) :
    ∃ w, Coercion.toDecimal v = .ok w := by
  cases v with
  | bool | signed | unsigned | decimal => exact ⟨_, rfl⟩
  | null | float | double | text | bytes | dateTime | guid => cases h

/-- A number coerces to every numeric type.  A binary number is left out where a truth value or a
decimal number is wanted. -/
theorem exists_coerce_of_number {wanted : DbType} (hv : v.isNumber = true)
    (hwanted : wanted.isNumeric = true)
    (hbinary : v.isBinary = true → wanted ≠ .bool ∧ wanted ≠ .decimal) :
    ∃ w, coerce v wanted = .ok w := by
  simp only [coerce, isNull_eq_false_of_isNumber hv, Bool.false_eq_true, if_false]
  -- what is wanted as a truth value or as a decimal number stands for a whole number
  have hintegral (h : wanted = .bool ∨ wanted = .decimal) : ∃ n, v.integral? = some n := by
    rw [isNumber, Bool.or_eq_true] at hv
    obtain hv | hv := hv
    · exact Option.isSome_iff_exists.1 hv
    · obtain ⟨hbool, hdecimal⟩ := hbinary hv
      exact (h.elim hbool hdecimal).elim
  cases wanted with
  | bool =>
    obtain ⟨n, hn⟩ := hintegral (.inl rfl)
    obtain ⟨b, hb⟩ := exists_toBool?_of_integral? hn
    simp only [hb]
    exact ⟨_, rfl⟩
  | int t =>
    obtain ⟨w, hw⟩ := exists_toInteger?_of_isNumber t hv
    simp only [hw]
    exact ⟨w, rfl⟩
  | f32 =>
    obtain ⟨x, hx⟩ := exists_toDouble?_of_isNumber hv
    simp only [hx]
    split <;> exact ⟨_, rfl⟩
  | f64 =>
    obtain ⟨x, hx⟩ := exists_toDouble?_of_isNumber hv
    simp only [hx]
    exact ⟨_, rfl⟩
  | decimal =>
    obtain ⟨n, hn⟩ := hintegral (.inr rfl)
    exact exists_toDecimal_of_integral? hn
  | null | text | bytes | dateTime | guid => cases hwanted

theorem coerce_bool_of_isBinary (h : v.isBinary = true) :
    coerce v .bool = .error (.conversion (.mismatch v .bool)) := by
  cases v <;> first | rfl | cases h

end Value

namespace DbType.OwnKind

variable {source : DbType} {v : Value}

theorem isNumber (h : source.OwnKind v) (hsource : source.isNumeric = true) :
    v.isNumber = true ∧ v.isBinary = source.isFloat := by
  cases source with
  | int t =>
    simp only [OwnKind] at h
    split at h <;> obtain ⟨n, rfl⟩ := h <;> exact ⟨rfl, rfl⟩
  | bool | f32 | f64 | decimal => obtain ⟨_, rfl⟩ := h; exact ⟨rfl, rfl⟩
  | null | text | bytes | dateTime | guid => cases hsource

end DbType.OwnKind

/-! ### Planned pairs -/

namespace Rule

variable {source : DbType} {info : TypeInfo} {handlers : Handlers} {v : Value}

/-- Every pair of numeric types has a rule: values stay as they are if the types are the same, and
otherwise are coerced. -/
theorem plan_numeric (hsource : source.isNumeric = true) (hwanted : info.dbType.isNumeric = true)
    (hkind : info.kind = .scalar) (hnone : handlers.find? info.typeId = none) :
    plan source info handlers =
      .ok (if source = info.dbType then .direct else .numeric info.dbType) := by
  have hnull : source ≠ .null := by rintro rfl; cases hsource
  simp only [plan, hkind, hnone, planScalar?, if_neg hnull, hsource, hwanted, Bool.and_true,
    if_true]
  by_cases hsame : source = info.dbType
  · rw [if_pos hsame, if_pos hsame]
  · rw [if_neg hsame, if_neg hsame]

/-- **Conversions between numbers.**  For a scalar destination without a handler, every pair of
numeric types is planned, binary numbers wanted as decimal ones left aside.  The rule then converts
every value of the source's own kind, except that it refuses all binary numbers where truth values
are wanted. -/
theorem numeric_apply (hsource : source.isNumeric = true) (hwanted : info.dbType.isNumeric = true)
    (hkind : info.kind = .scalar) (hnone : handlers.find? info.typeId = none)
    (hdecimal : source.isFloat = true → info.dbType ≠ .decimal) (hv : source.OwnKind v) :
    ∃ rule, plan source info handlers = .ok rule ∧
      if source.isFloat = true ∧ info.dbType = .bool then
        rule.apply v = .error (.conversion (.mismatch v .bool))
      else ∃ w, rule.apply v = .ok w := by
  refine ⟨_, plan_numeric hsource hwanted hkind hnone, ?_⟩
  obtain ⟨hnumber, hbinary⟩ := hv.isNumber hsource
  have hnull := Value.isNull_eq_false_of_isNumber hnumber
  by_cases hsame : source = info.dbType
  · have hneither : ¬(source.isFloat = true ∧ info.dbType = .bool) := by
      rintro ⟨hfloat, hbool⟩
      rw [hsame, hbool] at hfloat
      cases hfloat
    rw [if_neg hneither, if_pos hsame]
    exact ⟨v, by simp only [apply, hnull, Bool.false_eq_true, if_false]⟩
  · have happly : apply (.numeric info.dbType) v = coerce v info.dbType := by
      simp only [apply, hnull, Bool.false_eq_true, if_false]
    rw [if_neg hsame, happly]
    split
    · rename_i hrefused
      rw [hrefused.2]
      exact Value.coerce_bool_of_isBinary (hbinary.trans hrefused.1)
    · rename_i hrefused
      refine Value.exists_coerce_of_number hnumber hwanted fun h => ?_
      have hfloat := hbinary.symm.trans h
      exact ⟨fun hbool => hrefused ⟨hfloat, hbool⟩, hdecimal hfloat⟩

/-- A negative decimal number, wanted as an unsigned integer of eight bits. -/
theorem numeric_apply_of_negative_decimal :
    let v : Value := .decimal (.ofSigned (-5))
    let info : TypeInfo := .scalar (.int ⟨false, .w8⟩) .u8
    (DbType.decimal.isNumeric = true ∧ info.dbType.isNumeric = true ∧ info.kind = .scalar ∧
      Handlers.empty.find? info.typeId = none ∧
      (DbType.decimal.isFloat = true → info.dbType ≠ .decimal) ∧ DbType.decimal.OwnKind v) ∧
      ∃ rule, plan .decimal info .empty = .ok rule ∧ ∃ w, rule.apply v = .ok w := by
  intro v info
  have hv : DbType.decimal.OwnKind v := ⟨_, rfl⟩
  have hdecimal : DbType.decimal.isFloat = true → info.dbType ≠ .decimal := by decide
  exact ⟨⟨rfl, rfl, rfl, rfl, hdecimal, hv⟩, numeric_apply rfl rfl rfl rfl hdecimal hv⟩

/-- A pair of numeric types whose rule refuses a value of its source: one, as a truth value. -/
theorem numeric_apply_refuses_one :
    ∃ rule, plan .f64 (.scalar .bool .bool) .empty = .ok rule ∧
      ¬∃ w, rule.apply (.double (Binary.ofInt 1)) = .ok w :=
  ⟨.numeric .bool, rfl, fun ⟨_, h⟩ => nomatch h⟩

end Rule

end RowMapping
