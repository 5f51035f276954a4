import RowMapping.Proofs.Conversion.Stability

/-!
# Coercions that lose nothing

Some coercions only change how a value is represented: to an integer type that is at least as wide,
to decimal numbers, between texts and their encodings, and from identifiers to their text or their
bytes.  Each of them is undone by the coercion back.

* `Value.coerce_back`: what a number becomes on the way there and back;
* `coerce_text_of_isValidUTF8`, `coerce_text_of_not_isValidUTF8`: bytes that encode a text, and
  those that encode none;
* `Value.coercions_undone`: the coercions that are undone by the way back.
-/

namespace RowMapping

/-- Coercing a value to a column type, and what it becomes there to another one, gives the value
again. -/
def Value.ComesBack (v : Value) (there back : DbType) : Prop :=
  (coerce v there >>= fun w => coerce w back) = .ok v

/-- The column type keeps the integers of a type: it is an integer type of at least the same width,
of either sign, or the type of decimal numbers. -/
def IntType.KeptBy (t : IntType) : DbType → Prop
  | .int u => t.bits ≤ u.bits
  | .decimal => True
  | _ => False

theorem Value.comesBack_of_coerce {v w : Value} {there back : DbType}
    (hthere : coerce v there = .ok w) (hback : coerce w back = .ok v) : v.ComesBack there back := by
  rw [ComesBack, hthere]
  exact hback

/-! ### Integers -/

theorem IntType.bool_mem (t : IntType) (b : Bool) :
    t.least ≤ (if b then 1 else 0) ∧ (if b then 1 else 0) ≤ t.greatest := by
  obtain ⟨signed, width⟩ := t
  cases signed <;> cases width <;> cases b <;> decide

namespace Value

variable {v : Value} {n : Int} {t : IntType} {there : DbType}

theorem exists_decimal_of_hasWholePart (h : v.HasWholePart n) :
    ∃ x, coerce v .decimal = .ok (.decimal x) ∧ x.HasWholePart n := by
  cases v with
  | bool b =>
    have hn : n = b.toNat := by
      rw [h]
      cases b <;> rfl
    exact ⟨_, rfl, hn ▸ Decimal.laws.hasWholePart_ofInt _ _⟩
  | signed k =>
    have hn : n = k.toInt := h
    exact ⟨_, rfl, hn ▸ Decimal.laws.hasWholePart_ofInt _ _⟩
  | unsigned k =>
    have hn : n = k.toNat := h
    exact ⟨_, rfl, hn ▸ Decimal.laws.hasWholePart_ofInt _ _⟩
  | decimal x => exact ⟨x, rfl, h⟩
  | null | float | double | text | bytes | dateTime | guid => exact h.elim

theorem coerce_bool_of_hasWholePart (h : v.HasWholePart n) :
    coerce v .bool = .ok (.bool (n != 0)) := by
  have hn := integral?_eq_some_iff.2 h
  cases v with
  | bool b =>
    rw [← Option.some.inj hn]
    cases b <;> rfl
  | signed | unsigned | decimal =>
    rw [← Option.some.inj hn]
    rfl
  | null | float | double | text | bytes | dateTime | guid => exact h.elim

/-- A column type that keeps the integers of a type makes of a number one with the same
representative. -/
theorem exists_kept (ht : t.KeptBy there) (h : v.HasWholePart n) :
    ∃ w m, coerce v there = .ok w ∧ w.HasWholePart m ∧ t.wrap m = t.wrap n := by
  cases there with
  | int u =>
    exact ⟨_, _, coerce_int_of_hasWholePart u h, hasWholePart_ofInt u n,
      IntType.wrap_wrap_of_le ht n⟩
  | decimal =>
    obtain ⟨x, hx, hpart⟩ := exists_decimal_of_hasWholePart h
    exact ⟨_, n, hx, hpart, rfl⟩
  | null | bool | f32 | f64 | text | bytes | dateTime | guid => exact ht.elim

/-- **There and back.**  Through a column type that keeps its integers, a number comes to an integer
type as it would directly. -/
theorem coerce_back (ht : t.KeptBy there) (h : v.HasWholePart n) :
    (coerce v there >>= fun w => coerce w (.int t)) = .ok (ofInt t n) := by
  obtain ⟨w, m, hw, hm, hwrap⟩ := exists_kept ht h
  rw [hw]
  change coerce w (.int t) = _
  rw [coerce_int_of_hasWholePart t hm]
  simp only [ofInt, hwrap]

theorem eq_ofInt (hv : (DbType.int t).OwnKind v) (h : v.HasWholePart n)
    (hn : t.least ≤ n ∧ n ≤ t.greatest) : v = ofInt t n := by
  simp only [DbType.OwnKind] at hv
  rw [ofInt, t.wrap_of_mem hn]
  split at hv
  · obtain ⟨k, rfl⟩ := hv
    have hk : n = k.toInt := h
    rw [if_pos ‹_›, hk, Int64.ofInt_toInt]
  · obtain ⟨k, rfl⟩ := hv
    have hk : n = k.toNat := h
    have hback := t.toNat_ofInt_wrap (Bool.eq_false_iff.2 ‹_›) n
    rw [t.wrap_of_mem hn, hk, Int.natCast_inj] at hback
    rw [if_neg ‹_›, hk, UInt64.toNat_inj.1 hback]

theorem comesBack_of_keptBy (ht : t.KeptBy there) (hv : (DbType.int t).OwnKind v)
    (h : v.HasWholePart n) (hn : t.least ≤ n ∧ n ≤ t.greatest) : v.ComesBack there (.int t) := by
  rw [ComesBack, coerce_back ht h, ← eq_ofInt hv h hn]

theorem comesBack_bool (b : Bool) (t : IntType) : (bool b).ComesBack (.int t) .bool := by
  have hpart : (bool b).HasWholePart (if b then 1 else 0) := rfl
  refine comesBack_of_coerce (coerce_int_of_hasWholePart t hpart) ?_
  rw [coerce_bool_of_hasWholePart (hasWholePart_ofInt t _), t.wrap_of_mem (t.bool_mem b)]
  cases b <;> rfl

end Value

/-! ### Texts, bytes and identifiers -/

theorem coerce_text_of_isValidUTF8 {bs : ByteArray} (h : bs.IsValidUTF8) :
    coerce (.bytes bs) .text = .ok (.text (String.fromUTF8 bs h)) := by
  have hread : String.fromUTF8? bs = some (String.fromUTF8 bs h) := dif_pos h
  simp only [coerce, Value.isNull, Bool.false_eq_true, if_false, Coercion.toText, hread]

theorem coerce_text_of_not_isValidUTF8 {bs : ByteArray} (h : ¬ bs.IsValidUTF8) :
    coerce (.bytes bs) .text = .error (.conversion .invalidEncoding) := by
  have hread : String.fromUTF8? bs = none := dif_neg h
  simp only [coerce, Value.isNull, Bool.false_eq_true, if_false, Coercion.toText, hread]

theorem coerce_guid_of_text (g : Guid) : coerce (.text g.text) .guid = .ok (.guid g) := by
  simp only [coerce, Value.isNull, Bool.false_eq_true, if_false, Coercion.toGuid,
    Guid.laws.read?_text]

theorem coerce_guid_of_bytes (g : Guid) :
    coerce (.bytes ⟨g.bytes.toArray⟩) .guid = .ok (.guid g) := by
  simp only [coerce, Value.isNull, Bool.false_eq_true, if_false, Coercion.toGuid,
    Guid.laws.ofBytes?_bytes]

namespace Value

/-- **What loses nothing is undone by the way back.**  An exact number whose whole part `n` is in
the range of an integer type, coerced to a column type that keeps the integers of that type and
back, becomes the value of the type for `n`, so that values of the type come back as they are.  All
integers of 64 bits come back from the other sign.  Truth values come back from integer types and
from decimal numbers, texts from bytes, identifiers from texts and from bytes, and bytes from texts
if they encode one.  Other bytes are refused as a text. -/
theorem coercions_undone :
    (∀ (t : IntType) (there : DbType) (v : Value) (n : Int), t.KeptBy there → v.HasWholePart n →
      t.least ≤ n ∧ n ≤ t.greatest →
        (∃ w, (coerce v there >>= fun w => coerce w (.int t)) = .ok w ∧
          (DbType.int t).OwnKind w ∧ w.HasWholePart n) ∧
          ((DbType.int t).OwnKind v → v.ComesBack there (.int t))) ∧
      (∀ k, (signed k).ComesBack .u64 .i64) ∧
      (∀ k, (unsigned k).ComesBack .i64 .u64) ∧
      (∀ b t, (bool b).ComesBack (.int t) .bool) ∧
      (∀ b, (bool b).ComesBack .decimal .bool) ∧
      (∀ s, (text s).ComesBack .bytes .text) ∧
      (∀ g, (guid g).ComesBack .text .guid ∧ (guid g).ComesBack .bytes .guid) ∧
      ∀ bs : ByteArray,
        (bs.IsValidUTF8 → (bytes bs).ComesBack .text .bytes) ∧
          (¬ bs.IsValidUTF8 → coerce (bytes bs) .text = .error (.conversion .invalidEncoding)) := by
  refine ⟨fun t there v n ht hv hn => ⟨?_, fun hkind => comesBack_of_keptBy ht hkind hv hn⟩,
    fun k => ?_, fun k => ?_, comesBack_bool, fun b => ?_, fun s => ?_, fun g => ⟨?_, ?_⟩,
    fun bs => ⟨fun h => ?_, coerce_text_of_not_isValidUTF8⟩⟩
  · have hpart := hasWholePart_ofInt t n
    rw [t.wrap_of_mem hn] at hpart
    exact ⟨_, coerce_back ht hv, ownKind_ofInt t n, hpart⟩
  · have hhigh := Int.le_sub_one_of_lt k.toInt_lt
    exact comesBack_of_keptBy (Nat.le_refl 64) ⟨k, rfl⟩ rfl ⟨k.le_toInt, hhigh⟩
  · have hhigh := Nat.le_sub_one_of_lt k.toNat_lt
    exact comesBack_of_keptBy (Nat.le_refl 64) ⟨k, rfl⟩ rfl
      ⟨Int.natCast_nonneg _, Int.ofNat_le.2 hhigh⟩
  · cases b <;> exact comesBack_of_coerce rfl (by decide)
  · exact comesBack_of_coerce rfl (coerce_text_of_isValidUTF8 s.isValidUTF8)
  · exact comesBack_of_coerce rfl (coerce_guid_of_text g)
  · exact comesBack_of_coerce rfl (coerce_guid_of_bytes g)
  · exact comesBack_of_coerce (coerce_text_of_isValidUTF8 h) rfl

/-- The least signed integer of eight bits through an unsigned type, bytes that encode a letter with
an accent, and the first of them alone. -/
theorem coercions_undone_of_least :
    let t : IntType := ⟨true, .w8⟩
    let least : Value := .signed (-128)
    let letter : ByteArray := ⟨#[0xC3, 0xA9]⟩
    let half : ByteArray := ⟨#[0xC3]⟩
    (t.KeptBy .u16 ∧ least.HasWholePart (-128) ∧ (t.least ≤ -128 ∧ -128 ≤ t.greatest) ∧
      (DbType.int t).OwnKind least) ∧
      coerce least .u16 = .ok (.unsigned 65408) ∧ least.ComesBack .u16 (.int t) ∧
      letter.IsValidUTF8 ∧ (bytes letter).ComesBack .text .bytes ∧
      ¬ half.IsValidUTF8 ∧ coerce (bytes half) .text = .error (.conversion .invalidEncoding) := by
  intro t least letter half
  have hkept : t.KeptBy .u16 := (by decide : 8 ≤ 16)
  have hpart : least.HasWholePart (-128) := rfl
  have hmem : t.least ≤ -128 ∧ -128 ≤ t.greatest := by decide
  have hkind : (DbType.int t).OwnKind least := ⟨_, rfl⟩
  have hletter : letter.IsValidUTF8 := by decide
  have hhalf : ¬ half.IsValidUTF8 := by decide
  obtain ⟨hnumbers, -, -, -, -, -, -, hbytes⟩ := coercions_undone
  exact ⟨⟨hkept, hpart, hmem, hkind⟩, by decide, (hnumbers t .u16 least _ hkept hpart hmem).2 hkind,
    hletter, (hbytes letter).1 hletter, hhalf, (hbytes half).2 hhalf⟩

end Value

end RowMapping
