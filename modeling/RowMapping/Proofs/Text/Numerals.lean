import RowMapping.Text.Fold
import RowMapping.Text.Numeral

/-!
# Numerals

A numeral has one digit or more, and a plus sign may stand in front of them.  Read is what denotes a
number of 64 bits, however many zeros it begins with.

* `Text.digits_natText`, `Text.digits_zeroPadded`: what is written for a number has digits only;
* `Text.isNumeral_natText`: a number is denoted by its own numeral;
* `Text.readUnsigned_eq_ok_iff`: the numerals that are read, and as which numbers.
-/

namespace RowMapping.Text

/-! ### Digits -/

/-- One digit or more. -/
def Digits (cs : List Char) : Prop := cs ≠ [] ∧ ∀ c ∈ cs, c.isDigit = true

theorem isDigit_iff {c : Char} : c.isDigit = true ↔ 48 ≤ c.toNat ∧ c.toNat ≤ 57 :=
  Bool.and_eq_true_iff.trans (and_congr decide_eq_true_iff decide_eq_true_iff)

theorem toLower_of_isDigit {c : Char} (h : c.isDigit = true) : c.toLower = c := by
  have hle : c.val ≤ 57 := of_decide_eq_true (Bool.and_eq_true_iff.1 h).2
  refine dif_neg fun hupper => ?_
  exact absurd (UInt32.le_trans hupper.1 hle) (by decide)

theorem digits_toDigits (n : Nat) : Digits (Nat.toDigits 10 n) :=
  ⟨Nat.toDigits_ne_nil, fun _ h => Nat.isDigit_of_mem_toDigits (by decide) (by decide) h⟩

theorem toDigits_inj {m n : Nat} (h : Nat.toDigits 10 m = Nat.toDigits 10 n) : m = n := by
  have hvalue := congrArg (Nat.ofDigitChars 10 · 0) h
  simpa only [Nat.ofDigitChars_ten_toDigits] using hvalue

theorem fold_natText (n : Nat) : fold (natText n) = Nat.toDigits 10 n := by
  have hdigit : ∀ c ∈ Nat.toDigits 10 n, c.toLower = c := fun c h =>
    toLower_of_isDigit ((digits_toDigits n).2 c h)
  rw [fold, natText, String.toList_ofList]
  exact (List.map_congr_left hdigit).trans (List.map_id' _)

theorem digits_natText (n : Nat) : Digits (natText n).toList := by
  rw [natText, String.toList_ofList]
  exact digits_toDigits n

theorem digits_zeroPadded (width n : Nat) : Digits (zeroPadded width n).toList := by
  obtain ⟨hne, hdigits⟩ := digits_toDigits n
  rw [zeroPadded, String.toList_ofList]
  refine ⟨List.append_ne_nil_of_right_ne_nil _ hne, fun c hc => ?_⟩
  rcases List.mem_append.1 hc with hc | hc
  · rw [List.eq_of_mem_replicate hc]
    rfl
  · exact hdigits c hc

/-! ### Numerals of a number -/

/-- The text is a decimal numeral of the number. -/
def IsNumeral (n : Nat) (s : String) : Prop :=
  ∃ digits, Digits digits ∧ Nat.ofDigitChars 10 digits 0 = n ∧
    (s.toList = digits ∨ s.toList = '+' :: digits)

theorem isNumeral_natText (n : Nat) : IsNumeral n (natText n) :=
  ⟨Nat.toDigits 10 n, digits_toDigits n, Nat.ofDigitChars_ten_toDigits,
    .inl (by rw [natText, String.toList_ofList])⟩

theorem IsNumeral.isDigit_or_eq_plus {n : Nat} {s : String} (h : IsNumeral n s) :
    ∀ c ∈ s.toList, c.isDigit = true ∨ c = '+' := by
  obtain ⟨digits, ⟨-, hdigits⟩, -, hs⟩ := h
  intro c hc
  rcases hs with hs | hs
  · exact .inl (hdigits c (hs ▸ hc))
  · exact (List.mem_cons.1 (hs ▸ hc)).symm.imp_left (hdigits c)

/-! ### Reading digits -/

theorem digitValue_of_isDigit {c : Char} (h : c.isDigit = true) :
    digitValue c = some (c.toNat - 48) := if_pos h

theorem digitValue_of_not_isDigit {c : Char} (h : ¬c.isDigit = true) : digitValue c = none :=
  if_neg h

theorem le_ofDigitChars (cs : List Char) (n : Nat) : n ≤ Nat.ofDigitChars 10 cs n := by
  induction cs generalizing n with
  | nil => exact Nat.le_refl _
  | cons c cs ih =>
    rw [Nat.ofDigitChars_cons]
    exact Nat.le_trans (by omega) (ih _)

/-- Digits are read as long as the number fits. -/
theorem readOnto_eq_ok_iff {cs : List Char} {n m : Nat} (hn : n < 2 ^ (64 : Nat)) :
    readOnto n cs = .ok m ↔
      (∀ c ∈ cs, c.isDigit = true) ∧ Nat.ofDigitChars 10 cs n = m ∧ m < 2 ^ (64 : Nat) := by
  induction cs generalizing n with
  | nil =>
    rw [readOnto, Except.ok.injEq]
    exact ⟨fun h => ⟨nofun, h, h ▸ hn⟩, fun h => h.2.1⟩
  | cons c cs ih =>
    unfold readOnto
    by_cases hc : c.isDigit = true
    · have hstep : Nat.ofDigitChars 10 (c :: cs) n =
          Nat.ofDigitChars 10 cs (n * 10 + (c.toNat - 48)) := by
        rw [Nat.ofDigitChars_cons, Nat.mul_comm]
        rfl
      simp only [digitValue_of_isDigit hc, List.forall_mem_cons, hc, true_and, hstep]
      split
      · rename_i hlt
        exact ih hlt
      · rename_i hlarge
        have hle := le_ofDigitChars cs (n * 10 + (c.toNat - 48))
        exact iff_of_false nofun fun ⟨_, hm, hlt⟩ => by omega
    · simp only [digitValue_of_not_isDigit hc, List.forall_mem_cons, hc]
      exact iff_of_false nofun fun h => Bool.false_ne_true h.1.1

/-- **What is read** are the numerals of numbers of 64 bits. -/
theorem readUnsigned_eq_ok_iff {s : String} {n : Nat} :
    readUnsigned s = .ok n ↔ IsNumeral n s ∧ n < 2 ^ (64 : Nat) := by
  have hread {digits : List Char} :
      readOnto 0 digits = .ok n ↔
        (∀ c ∈ digits, c.isDigit = true) ∧ Nat.ofDigitChars 10 digits 0 = n ∧ n < 2 ^ (64 : Nat) :=
    readOnto_eq_ok_iff (by decide)
  constructor
  · intro h
    unfold readUnsigned at h
    split at h
    · cases h
    · cases h
    · rename_i cs hne hs
      obtain ⟨hdigits, hn, hlt⟩ := hread.1 h
      exact ⟨⟨cs, ⟨fun hnil => hne hnil, hdigits⟩, hn, .inr hs⟩, hlt⟩
    · rename_i cs hne _ _
      obtain ⟨hdigits, hn, hlt⟩ := hread.1 h
      exact ⟨⟨_, ⟨hne, hdigits⟩, hn, .inl rfl⟩, hlt⟩
  · rintro ⟨⟨digits, ⟨hne, hdigits⟩, hn, hs⟩, hlt⟩
    have hok : readOnto 0 digits = .ok n := hread.2 ⟨hdigits, hn, hlt⟩
    obtain ⟨d, ds, rfl⟩ := List.exists_cons_of_ne_nil hne
    unfold readUnsigned
    rcases hs with hs | hs
    · have hplus : d ≠ '+' := by
        rintro rfl
        exact absurd (hdigits '+' List.mem_cons_self) (by decide)
      rw [hs]
      split
      · rename_i h
        cases h
      · rename_i h
        exact absurd (List.cons.inj h).1 hplus
      · rename_i h
        exact absurd (List.cons.inj h).1 hplus
      · exact hok
    · rw [hs]
      exact hok

end RowMapping.Text
