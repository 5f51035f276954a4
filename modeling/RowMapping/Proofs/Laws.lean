import RowMapping.Conversion.Coercion
import RowMapping.Proofs.Guid
import RowMapping.Proofs.Text.Numerals

/-!
# Laws of identifiers, decimal numbers and dates

These types come with their own rules for writing, reading and rounding.  What conversions and
statements rely on of them is collected here, and they use nothing else of how it is done.

* `Guid.laws`: an identifier is read as it is written, and from its bytes;
* `Decimal.laws`: a decimal number has a whole part of at most 128 bits, is converted to a binary
  number, and is written with digits;
* `DateTime.laws`: a date is written with digits and a few signs.
-/

namespace RowMapping

/-! ### Identifiers -/

namespace Guid

/-- What is relied on of identifiers. -/
structure Laws : Prop where
  /-- Reading undoes writing, also where blanks at the ends are taken off first. -/
  read?_text (g : Guid) : read? (Text.trim g.text) = some g
  /-- An identifier is made of its bytes. -/
  ofBytes?_bytes (g : Guid) : ofBytes? g.bytes = some g
  /-- The written form has hyphens and hexadecimal digits only. -/
  mem_text (g : Guid) : ∀ c ∈ g.text.toList, c = '-' ∨ ∃ n, c = Text.hexDigit n

/-- **Identifiers keep the laws.** -/
theorem laws : Laws where
  read?_text g := g.read?_text
  ofBytes?_bytes g := g.ofBytes?_bytes
  mem_text g c hc := by
    rw [text, String.toList_ofList] at hc
    exact (eq_hyphen_or_mem_of_mem hc).imp_right Text.exists_hexDigit_of_mem

end Guid

/-! ### Decimal numbers -/

namespace Decimal

/-- `n` is what is left of a decimal number when its fraction is dropped: of all whole numbers
between zero and the number it is the farthest from zero. -/
structure HasWholePart (x : Decimal) (n : Int) : Prop where
  /-- It is not farther from zero than the number. -/
  le : n.natAbs * 10 ^ x.scale ≤ x.coefficient
  /-- The next one is. -/
  lt : x.coefficient < (n.natAbs + 1) * 10 ^ x.scale
  /-- It is below zero only if the number is. -/
  negative : n < 0 → x.negative = true
  /-- It is above zero only if the number is. -/
  positive : 0 < n → x.negative = false

/-- What is relied on of decimal numbers. -/
structure Laws : Prop where
  /-- The whole number that a decimal number stands for is its whole part. -/
  integral?_eq_some_iff (x : Decimal) (n : Int) :
    (Value.decimal x).integral? = some n ↔ x.HasWholePart n
  /-- There is one, and it has at most 128 bits. -/
  exists_hasWholePart (x : Decimal) : ∃ n, x.HasWholePart n ∧ n.natAbs < 2 ^ (127 : Nat)
  /-- An integer of 64 bits is its own whole part. -/
  hasWholePart_ofInt (n : Int) (h : n.natAbs < 2 ^ (64 : Nat)) : (ofInt n h).HasWholePart n
  /-- A decimal number is always converted to a binary number of 64 bits, and to a number. -/
  exists_toDouble? (x : Decimal) :
    ∃ y, (Value.decimal x).toDouble? = some y ∧ y.isNan = false
  /-- The written form has digits, and may have a point with digits behind it and a minus sign. -/
  toList_text (x : Decimal) :
    ∃ cs, x.text.toList = (if x.negative then '-' :: cs else cs) ∧
      (Text.Digits cs ∨ ∃ whole fraction, Text.Digits whole ∧ Text.Digits fraction ∧
        cs = whole ++ '.' :: fraction)

variable (x : Decimal) {n : Int}

theorem truncate_eq :
    x.truncate =
      if x.negative then -((x.coefficient / 10 ^ x.scale : Nat) : Int)
      else (x.coefficient / 10 ^ x.scale : Nat) := by
  unfold truncate signedCoefficient
  split
  · rw [Int.neg_tdiv, Int.ofNat_tdiv]
  · rw [Int.ofNat_tdiv]

theorem natAbs_truncate : x.truncate.natAbs = x.coefficient / 10 ^ x.scale := by
  rw [x.truncate_eq]
  split
  · rw [Int.natAbs_neg, Int.natAbs_natCast]
  · rw [Int.natAbs_natCast]

theorem hasWholePart_iff : x.HasWholePart n ↔ x.truncate = n := by
  have hunit : 0 < 10 ^ x.scale := Nat.pow_pos (by decide)
  constructor
  · intro h
    have hquotient := Nat.div_eq_of_lt_le h.le h.lt
    rw [x.truncate_eq, hquotient]
    split
    · rename_i hx
      have hn : ¬ 0 < n := fun hn => by
        rw [h.positive hn] at hx
        cases hx
      omega
    · rename_i hx
      have hn : ¬ n < 0 := fun hn => hx (h.negative hn)
      omega
  · rintro rfl
    have htruncate := x.truncate_eq
    refine ⟨?_, ?_, fun hn => ?_, fun hn => ?_⟩
    · rw [x.natAbs_truncate]
      exact Nat.div_mul_le_self _ _
    · rw [x.natAbs_truncate]
      exact (Nat.div_lt_iff_lt_mul hunit).1 (Nat.lt_succ_self _)
    · refine Decidable.byContradiction fun hx => ?_
      rw [if_neg hx] at htruncate
      exact Int.not_lt_of_ge (htruncate ▸ Int.natCast_nonneg _) hn
    · refine Bool.eq_false_iff.2 fun hx => ?_
      rw [if_pos hx] at htruncate
      exact Int.not_lt_of_ge (htruncate ▸ Int.neg_nonpos_of_nonneg (Int.natCast_nonneg _)) hn

theorem natAbs_truncate_lt : x.truncate.natAbs < 2 ^ (127 : Nat) := by
  rw [x.natAbs_truncate]
  exact Nat.lt_of_le_of_lt (Nat.div_le_self _ _) (Nat.lt_trans x.coefficient_lt (by decide))

theorem hasWholePart_ofInt (n : Int) (h : n.natAbs < 2 ^ (64 : Nat)) :
    (ofInt n h).HasWholePart n := by
  refine ⟨?_, ?_, fun hn => decide_eq_true hn, fun hn => decide_eq_false (by omega)⟩
  · change n.natAbs * 10 ^ 0 ≤ n.natAbs
    omega
  · change n.natAbs < (n.natAbs + 1) * 10 ^ 0
    omega

theorem toList_text :
    ∃ cs, x.text.toList = (if x.negative then '-' :: cs else cs) ∧
      (Text.Digits cs ∨ ∃ whole fraction, Text.Digits whole ∧ Text.Digits fraction ∧
        cs = whole ++ '.' :: fraction) := by
  let unit := 10 ^ x.scale
  let places := if x.scale = 0 then "" else "." ++ Text.zeroPadded x.scale (x.coefficient % unit)
  refine ⟨(Text.natText (x.coefficient / unit) ++ places).toList, ?_, ?_⟩
  · have htext : x.text = (if x.negative then "-" else "") ++
        (Text.natText (x.coefficient / unit) ++ places) := String.append_assoc ..
    rw [htext, String.toList_append]
    split <;> rfl
  · have hwhole := Text.digits_natText (x.coefficient / unit)
    by_cases hscale : x.scale = 0
    · have hplaces : places = "" := if_pos hscale
      rw [hplaces, String.append_empty]
      exact .inl hwhole
    · have hplaces : places = "." ++ Text.zeroPadded x.scale (x.coefficient % unit) :=
        if_neg hscale
      refine .inr ⟨_, _, hwhole, Text.digits_zeroPadded x.scale (x.coefficient % unit), ?_⟩
      rw [hplaces, String.toList_append, String.toList_append]
      rfl

end Decimal

namespace Binary

variable {f : Format}

theorem infinity_lt (f : Format) : f.infinity < 2 ^ (f.width - 1) := by
  have hwidth : f.width - 1 = f.exponentBits + f.fractionBits := by
    unfold Format.width
    omega
  rw [hwidth, Nat.pow_add, Format.infinity]
  refine Nat.mul_lt_mul_of_pos_right ?_ (Nat.two_pow_pos _)
  exact Nat.sub_lt (Nat.two_pow_pos _) (by decide)

theorem isNan_ofMagnitude (negative : Bool) {m : Nat} (h : m ≤ f.infinity) :
    (ofMagnitude negative m : Binary f).isNan = false := by
  have hlt := Nat.lt_of_le_of_lt h (infinity_lt f)
  have hwidth : 2 ^ f.width = 2 * 2 ^ (f.width - 1) := by
    rw [← Nat.pow_succ', Nat.succ_eq_add_one, Nat.sub_add_cancel]
    unfold Format.width
    omega
  have hmagnitude : (ofMagnitude negative m : Binary f).magnitude = m := by
    rw [magnitude, ofMagnitude, BitVec.toNat_ofNat, Nat.mod_mod_of_dvd _ ⟨2, by omega⟩]
    split
    · rw [Nat.add_mod_left, Nat.mod_eq_of_lt hlt]
    · rw [Nat.zero_add, Nat.mod_eq_of_lt hlt]
  rw [isNan, hmagnitude]
  exact decide_eq_false (Nat.not_lt_of_le h)

theorem isNan_roundRatio (negative : Bool) (num den : Nat) :
    (roundRatio negative num den : Binary f).isNan = false := by
  unfold roundRatio
  split
  · exact isNan_ofMagnitude negative (Nat.zero_le _)
  · exact isNan_ofMagnitude negative (Nat.min_le_right _ _)

end Binary

namespace Decimal

theorem isNan_toDouble (x : Decimal) : x.toDouble.isNan = false := by
  unfold toDouble
  split
  · exact Binary.isNan_roundRatio ..
  · exact Binary.isNan_roundRatio ..

/-- **Decimal numbers keep the laws.** -/
theorem laws : Laws where
  integral?_eq_some_iff x _ := Option.some_inj.trans x.hasWholePart_iff.symm
  exists_hasWholePart x := ⟨x.truncate, x.hasWholePart_iff.2 rfl, x.natAbs_truncate_lt⟩
  hasWholePart_ofInt := hasWholePart_ofInt
  exists_toDouble? x := ⟨x.toDouble, rfl, x.isNan_toDouble⟩
  toList_text := toList_text

end Decimal

/-! ### Dates -/

namespace DateTime

/-- The character may stand in the written form of a date. -/
def isWritten (c : Char) : Bool :=
  c.isDigit || c == '-' || c == '+' || c == ' ' || c == ':' || c == '.'

/-- What is relied on of dates. -/
structure Laws : Prop where
  /-- The written form has digits and a few signs only. -/
  mem_text (t : DateTime) : ∀ c ∈ t.text.toList, isWritten c = true

theorem all_zeroPadded (width n : Nat) : (Text.zeroPadded width n).toList.all isWritten = true :=
  List.all_eq_true.2 fun c hc => by
    rw [isWritten, (Text.digits_zeroPadded width n).2 c hc]
    rfl

theorem all_yearText (year : Int) : (yearText year).toList.all isWritten = true := by
  unfold yearText
  split
  · exact all_zeroPadded ..
  · rw [String.toList_append, List.all_append, all_zeroPadded, Bool.and_true]
    split <;> rfl

theorem all_fractionText (nanosecond : Nat) :
    (fractionText nanosecond).toList.all isWritten = true := by
  have hpoint (width n : Nat) : ("." ++ Text.zeroPadded width n).toList.all isWritten = true := by
    rw [String.toList_append, List.all_append, all_zeroPadded]
    rfl
  unfold fractionText
  split
  · rfl
  · split
    · exact hpoint ..
    · split <;> exact hpoint ..

theorem all_text (t : DateTime) : t.text.toList.all isWritten = true := by
  simp only [text, textWith, String.toList_append, List.all_append, all_yearText, all_zeroPadded,
    all_fractionText, Bool.and_true, Bool.true_and]
  decide

/-- **Dates keep the laws.** -/
theorem laws : Laws := ⟨fun t => List.all_eq_true.1 t.all_text⟩

end DateTime

end RowMapping
