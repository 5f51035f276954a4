import Mathlib.Data.Int.ModEq
import RowMapping.Proofs.Conversion.NumericPairs

/-!
# Narrowing of integers

A truth value, an integer or a decimal number, wanted as an integer of some type, becomes the one
integer of the type that is congruent to its whole part modulo a power of two.  Widths and signs may
change several times on the way: as long as no step is narrower than the last one, only the last one
counts.

* `Value.integral?_eq_some_iff`: the whole number that a value stands for is its whole part, with
  the fraction of a decimal number dropped toward zero;
* `IntType.eq_wrap_iff`: the representative of a number is the only congruent integer of the type;
* `IntType.wrap_wrap_of_le`: a representative in a type that is at least as wide comes to the same;
* `Value.coerce_int_narrows`: what coercion to integer types does.
-/

namespace RowMapping

/-! ### Whole parts -/

namespace Value

/-- `n` is the whole number that a value stands for.  A truth value stands for zero or one, and a
decimal number for its whole part. -/
def HasWholePart : Value → Int → Prop
  | .bool b, n => n = if b then 1 else 0
  | .signed x, n => n = x.toInt
  | .unsigned x, n => n = x.toNat
  | .decimal x, n => x.HasWholePart n
  | _, _ => False

/-- The value is a truth value, an integer or a decimal number. -/
def isExact : Value → Bool
  | .bool _ | .signed _ | .unsigned _ | .decimal _ => true
  | _ => false

variable {v : Value} {n : Int}

theorem integral?_eq_some_iff : v.integral? = some n ↔ v.HasWholePart n := by
  cases v with
  | bool b => cases b <;> exact Option.some_inj.trans eq_comm
  | signed x => exact Option.some_inj.trans eq_comm
  | unsigned x => exact Option.some_inj.trans eq_comm
  | decimal x => exact Decimal.laws.integral?_eq_some_iff x n
  | null | float | double | text | bytes | dateTime | guid => exact iff_of_false nofun nofun

theorem existsUnique_hasWholePart (hv : v.isExact = true) : ∃! n, v.HasWholePart n := by
  obtain ⟨n, hn⟩ : ∃ n, v.HasWholePart n := by
    cases v with
    | bool | signed | unsigned => exact ⟨_, rfl⟩
    | decimal x =>
      obtain ⟨n, hn, -⟩ := Decimal.laws.exists_hasWholePart x
      exact ⟨n, hn⟩
    | null | float | double | text | bytes | dateTime | guid => cases hv
  refine ⟨n, hn, fun m hm => ?_⟩
  exact Option.some.inj ((integral?_eq_some_iff.2 hm).symm.trans (integral?_eq_some_iff.2 hn))

theorem natAbs_lt_of_hasWholePart (h : v.HasWholePart n) : n.natAbs < 2 ^ (127 : Nat) := by
  cases v with
  | bool b => cases b <;> cases h <;> decide
  | signed x =>
    have hn : n = x.toInt := h
    have hlow := x.le_toInt
    have hhigh := x.toInt_lt
    omega
  | unsigned x =>
    have hn : n = x.toNat := h
    have hhigh := x.toNat_lt
    omega
  | decimal x =>
    obtain ⟨m, hm, hlt⟩ := Decimal.laws.exists_hasWholePart x
    have hread := (Decimal.laws.integral?_eq_some_iff x n).2 h
    cases hread.symm.trans ((Decimal.laws.integral?_eq_some_iff x m).2 hm)
    exact hlt
  | null | float | double | text | bytes | dateTime | guid => cases h

end Value

/-! ### Representatives -/

namespace IntType

variable (t : IntType) {m n : Int}

theorem wrap_modEq (n : Int) : t.wrap n ≡ n [ZMOD 2 ^ t.bits] := by
  have hsize : ((2 ^ t.bits : Nat) : Int) = 2 ^ t.bits := Nat.cast_pow 2 t.bits
  rw [Int.ModEq, ← hsize]
  unfold wrap
  split
  · exact Int.bmod_emod
  · exact Int.emod_emod_of_dvd n (dvd_refl _)

theorem wrap_congr (h : m ≡ n [ZMOD 2 ^ t.bits]) : t.wrap m = t.wrap n := by
  have hmod : m % (2 ^ t.bits : Nat) = n % (2 ^ t.bits : Nat) := by
    rw [Nat.cast_pow]
    exact h
  unfold wrap
  split
  · rw [← Int.emod_bmod m, hmod, Int.emod_bmod]
  · exact hmod

theorem eq_wrap_iff :
    m = t.wrap n ↔ (t.least ≤ m ∧ m ≤ t.greatest) ∧ m ≡ n [ZMOD 2 ^ t.bits] := by
  constructor
  · rintro rfl
    exact ⟨t.wrap_mem n, t.wrap_modEq n⟩
  · rintro ⟨hmem, hcongr⟩
    rw [← t.wrap_of_mem hmem, t.wrap_congr hcongr]

/-- **Narrowing in two steps is narrowing in one.**  What is kept of a number in a type of at least
the same width has the same representative as the number. -/
theorem wrap_wrap_of_le {t u : IntType} (h : u.bits ≤ t.bits) (n : Int) :
    u.wrap (t.wrap n) = u.wrap n :=
  u.wrap_congr ((t.wrap_modEq n).of_dvd (pow_dvd_pow 2 h))

end IntType

/-! ### Coercion to integers -/

namespace Value

variable {v : Value} {n : Int} (t : IntType)

theorem coerce_int_of_hasWholePart (h : v.HasWholePart n) :
    coerce v (.int t) = .ok (ofInt t n) := by
  have hn := integral?_eq_some_iff.2 h
  cases v with
  | bool | signed | unsigned | decimal =>
    rw [Option.some.inj hn.symm]
    rfl
  | null | float | double | text | bytes | dateTime | guid => cases h

theorem ownKind_ofInt (n : Int) : (DbType.int t).OwnKind (ofInt t n) := by
  simp only [DbType.OwnKind, ofInt]
  split <;> exact ⟨_, rfl⟩

theorem hasWholePart_ofInt (n : Int) : (ofInt t n).HasWholePart (t.wrap n) :=
  integral?_eq_some_iff.1 (integral?_ofInt t n)

/-- **Narrowing keeps the lowest bits.**  An exact number `v` has one whole part `n`, of at most 128
bits.  Wanted as an integer of a type, it becomes the only integer of the type that is congruent to
`n` modulo two to the type's width, as a value of the type's sign.  Coercing it further to a type
that is not wider gives what coercing `v` to that type gives. -/
theorem coerce_int_narrows (hv : v.isExact = true) :
    (∃! n, v.HasWholePart n) ∧ (∀ n, v.HasWholePart n → n.natAbs < 2 ^ (127 : Nat)) ∧
      (∀ n, v.HasWholePart n → ∃ w m, coerce v (.int t) = .ok w ∧ (DbType.int t).OwnKind w ∧
        w.HasWholePart m ∧ ∀ k, k = m ↔
          (t.least ≤ k ∧ k ≤ t.greatest) ∧ k ≡ n [ZMOD 2 ^ t.bits]) ∧
      ∀ u : IntType, u.bits ≤ t.bits →
        (coerce v (.int t) >>= fun w => coerce w (.int u)) = coerce v (.int u) := by
  have hwhole := existsUnique_hasWholePart hv
  refine ⟨hwhole, fun n hn => natAbs_lt_of_hasWholePart hn, fun n hn => ?_, fun u hu => ?_⟩
  · exact ⟨_, _, coerce_int_of_hasWholePart t hn, ownKind_ofInt t n, hasWholePart_ofInt t n,
      fun k => t.eq_wrap_iff⟩
  · obtain ⟨n, hn, -⟩ := hwhole
    rw [coerce_int_of_hasWholePart t hn, coerce_int_of_hasWholePart u hn]
    change coerce (ofInt t n) (.int u) = _
    rw [coerce_int_of_hasWholePart u (hasWholePart_ofInt t n)]
    simp only [ofInt, IntType.wrap_wrap_of_le hu]

/-- A negative decimal number of 96 bits and a fraction, by a signed type to an unsigned one. -/
theorem coerce_int_narrows_of_large_decimal :
    let v : Value := .decimal ⟨true, 2 ^ 96 - 1, 3, by decide, by decide⟩
    let t : IntType := ⟨true, .w16⟩
    v.isExact = true ∧ v.HasWholePart (-79228162514264337593543950) ∧
      (∃ w m, coerce v (.int t) = .ok w ∧ (DbType.int t).OwnKind w ∧ w.HasWholePart m ∧
        ∀ k, k = m ↔ (t.least ≤ k ∧ k ≤ t.greatest) ∧
          k ≡ -79228162514264337593543950 [ZMOD 2 ^ t.bits]) ∧
      (coerce v (.int t) >>= fun w => coerce w .u8) = coerce v .u8 ∧
      coerce v (.int t) = .ok (.signed (-11534)) ∧ coerce v .u8 = .ok (.unsigned 242) := by
  intro v t
  have hpart : v.HasWholePart (-79228162514264337593543950) :=
    integral?_eq_some_iff.1 (by decide)
  obtain ⟨-, -, hnarrow, hcompose⟩ := coerce_int_narrows t (v := v) rfl
  exact ⟨rfl, hpart, hnarrow _ hpart, hcompose ⟨false, .w8⟩ (by decide), by decide, by decide⟩

end Value

end RowMapping
