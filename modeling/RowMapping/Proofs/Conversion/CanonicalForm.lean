import RowMapping.Conversion.Scalar

/-!
# The canonical form of a value

Every column type holds values of one kind; those of an integer type are kept modulo its size.
Coercion to a column type gives a value that the type holds, or null for null.

* `IntType.wrap_of_mem`: an integer of a type stands for itself;
* `Value.integral?_ofInt`: a value for an integer of a type stands for that integer;
* `holds_of_coerce`: what is coerced to a column type is held by it.
-/

namespace RowMapping

/-! ### Integers of a type -/

namespace IntType

variable (t : IntType)

theorem wrap_of_mem {n : Int} (h : t.least ≤ n ∧ n ≤ t.greatest) : t.wrap n = n := by
  obtain ⟨signed, width⟩ := t
  obtain ⟨hleast, hgreatest⟩ := h
  cases signed
  · simp only [wrap, least, greatest, bits, Bool.false_eq_true, if_false] at *
    exact Int.emod_eq_of_lt hleast (by omega)
  · simp only [wrap, least, greatest, bits, if_true] at *
    cases width <;> simp only [IntWidth.bits] at * <;>
      exact Int.bmod_eq_of_le (by omega) (by omega)

@[simp] theorem wrap_wrap (n : Int) : t.wrap (t.wrap n) = t.wrap n :=
  t.wrap_of_mem (t.wrap_mem n)

@[simp] theorem wrapped_wrap (n : Int) : t.wrapped (t.wrap n) = t.wrapped n :=
  Subtype.ext (t.wrap_wrap n)

theorem toInt_ofInt_wrap (h : t.signed = true) (n : Int) :
    (Int64.ofInt (t.wrap n)).toInt = t.wrap n := by
  have hmem := t.wrap_mem n
  obtain ⟨signed, width⟩ := t
  cases h
  simp only [least, greatest, bits, if_true] at hmem
  cases width <;> simp only [IntWidth.bits] at hmem <;>
    exact Int64.toInt_ofInt_of_le (by omega) (by omega)

theorem toNat_ofInt_wrap (h : t.signed = false) (n : Int) :
    ((UInt64.ofInt (t.wrap n)).toNat : Int) = t.wrap n := by
  have hmem := t.wrap_mem n
  obtain ⟨signed, width⟩ := t
  cases h
  simp only [least, greatest, bits, Bool.false_eq_true, if_false] at hmem
  have hlt : (⟨false, width⟩ : IntType).wrap n < 2 ^ 64 := by
    cases width <;> simp only [IntWidth.bits] at hmem <;> omega
  have hsize : ((⟨false, width⟩ : IntType).wrap n).toNat < UInt64.size :=
    (Int.toNat_lt hmem.1).2 hlt
  rw [UInt64.ofInt, Int.emod_eq_of_lt hmem.1 hlt, UInt64.toNat_ofNat_of_lt' hsize]
  exact Int.toNat_of_nonneg hmem.1

end IntType

namespace Value

@[simp] theorem integral?_ofInt (t : IntType) (n : Int) :
    (ofInt t n).integral? = some (t.wrap n) := by
  cases ht : t.signed
  · simp only [ofInt, ht, Bool.false_eq_true, if_false, integral?, t.toNat_ofInt_wrap ht n]
  · simp only [ofInt, ht, if_true, integral?, t.toInt_ofInt_wrap ht n]

end Value

/-! ### What a column type holds -/

/-- The value is of the kind that belongs to a column type, and within its bounds.  A column
without a type holds every value. -/
def DbType.Holds : DbType → Value → Prop
  | .null, _ => True
  | .bool, v => ∃ b, v = .bool b
  | .int t, v => ∃ n, v = .ofInt t n
  | .f32, v => ∃ x, v = .float x
  | .f64, v => ∃ x, v = .double x
  | .decimal, v => ∃ x, v = .decimal x
  | .text, v => ∃ s, v = .text s
  | .bytes, v => ∃ bs, v = .bytes bs
  | .dateTime, v => ∃ t, v = .dateTime t
  | .guid, v => ∃ g, v = .guid g

namespace Coercion

variable {v w : Value} {wanted : DbType}

theorem orMismatch_eq_ok {r : Option Value} (h : orMismatch v wanted r = .ok w) :
    r = some w := by
  cases r with
  | none => cases h
  | some x => exact congrArg some (Except.ok.inj h)

theorem holds_of_orMismatch {α : Type} {r : Option α} {f : α → Value}
    (h : orMismatch v wanted (r.map f) = .ok w) : ∃ x, w = f x := by
  obtain ⟨x, -, hx⟩ := Option.map_eq_some_iff.1 (orMismatch_eq_ok h)
  exact ⟨x, hx.symm⟩

theorem holds_of_toDecimal (h : toDecimal v = .ok w) : DbType.decimal.Holds w := by
  unfold toDecimal at h
  split at h
  · split at h
    · exact ⟨_, (Except.ok.inj h).symm⟩
    · cases h
  · exact ⟨_, (Except.ok.inj h).symm⟩
  · exact ⟨_, (Except.ok.inj h).symm⟩
  · exact ⟨_, (Except.ok.inj h).symm⟩
  · exact ⟨_, (Except.ok.inj h).symm⟩
  · exact holds_of_orMismatch h
  · exact holds_of_orMismatch h
  · cases h

theorem holds_of_toText (h : toText v = .ok w) : DbType.text.Holds w := by
  unfold toText at h
  split at h
  · exact ⟨_, (Except.ok.inj h).symm⟩
  · split at h
    · exact ⟨_, (Except.ok.inj h).symm⟩
    · cases h
  · exact ⟨_, (Except.ok.inj h).symm⟩
  · cases h

theorem holds_of_toBytes (h : toBytes v = .ok w) : DbType.bytes.Holds w := by
  unfold toBytes at h
  split at h
  · exact ⟨_, (Except.ok.inj h).symm⟩
  · exact ⟨_, (Except.ok.inj h).symm⟩
  · exact ⟨_, (Except.ok.inj h).symm⟩
  · cases h

theorem holds_of_toGuid (h : toGuid v = .ok w) : DbType.guid.Holds w := by
  unfold toGuid at h
  split at h
  · exact ⟨_, (Except.ok.inj h).symm⟩
  · split at h
    · exact ⟨_, (Except.ok.inj h).symm⟩
    · cases h
  · split at h
    · exact ⟨_, (Except.ok.inj h).symm⟩
    · cases h
  · cases h

theorem holds_of_toDateTime (h : toDateTime v = .ok w) : DbType.dateTime.Holds w := by
  unfold toDateTime at h
  split at h
  · exact ⟨_, (Except.ok.inj h).symm⟩
  · split at h
    · exact ⟨_, (Except.ok.inj h).symm⟩
    · cases h
  · cases h

end Coercion

theorem Value.exists_of_toInteger? {t : IntType} {v w : Value} (h : v.toInteger? t = some w) :
    ∃ n, w = .ofInt t n := by
  unfold toInteger? at h
  split at h
  · exact ⟨_, (Option.some.inj h).symm⟩
  · exact ⟨_, (Option.some.inj h).symm⟩
  · obtain ⟨n, -, hn⟩ := Option.map_eq_some_iff.1 h
    exact ⟨n, hn.symm⟩

@[simp] theorem coerce_null (wanted : DbType) : coerce .null wanted = .ok .null := rfl

/-- **Coercion gives a value in canonical form.** -/
theorem holds_of_coerce {v w : Value} {wanted : DbType} (hv : v.isNull = false)
    (h : coerce v wanted = .ok w) : wanted.Holds w := by
  simp only [coerce, hv, Bool.false_eq_true, if_false] at h
  cases wanted with
  | null => trivial
  | bool => exact Coercion.holds_of_orMismatch h
  | int t => exact Value.exists_of_toInteger? (Coercion.orMismatch_eq_ok h)
  | f32 =>
    simp only at h
    split at h
    · exact ⟨_, (Except.ok.inj h).symm⟩
    · obtain ⟨x, hx⟩ := Coercion.holds_of_orMismatch h
      exact ⟨_, hx⟩
  | f64 => exact Coercion.holds_of_orMismatch h
  | decimal => exact Coercion.holds_of_toDecimal h
  | text => exact Coercion.holds_of_toText h
  | bytes => exact Coercion.holds_of_toBytes h
  | dateTime => exact Coercion.holds_of_toDateTime h
  | guid => exact Coercion.holds_of_toGuid h

theorem DbType.Holds.isNull_eq_false {t : DbType} {v : Value} (ht : t ≠ .null) (h : t.Holds v) :
    v.isNull = false := by
  cases t with
  | null => exact absurd rfl ht
  | int t =>
    obtain ⟨n, rfl⟩ := h
    unfold Value.ofInt
    split <;> rfl
  | bool | f32 | f64 | decimal | text | bytes | dateTime | guid => obtain ⟨_, rfl⟩ := h; rfl

theorem isNull_of_coerce {v w : Value} {wanted : DbType} (h : coerce v wanted = .ok w) :
    w.isNull = v.isNull := by
  cases hv : v.isNull with
  | true =>
    simp only [coerce, hv, if_true] at h
    cases h
    rfl
  | false =>
    by_cases hwanted : wanted = .null
    · simp only [coerce, hv, hwanted, Bool.false_eq_true, if_false] at h
      cases h
      exact hv
    · exact (holds_of_coerce hv h).isNull_eq_false hwanted

end RowMapping
