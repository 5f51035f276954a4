import Mathlib.Data.List.Nodup
import RowMapping.Proofs.Conversion.PlannedRead
import RowMapping.Proofs.Text.Trimming

/-!
# Values that select variants

A value selects a variant of an enumeration by the variant's number or by its name.  Where all
variants have different numbers, a number selects one variant at most, so that the number of the
variant that a value selects, looked up in turn, selects the same one.  A name selects the first
variant that has it up to the case of letters, which need not be the variant that is spelled so.

* `Enumeration.selectsNumber_of_find?`: what selects by number;
* `Enumeration.find_text_iff`: what selects by name;
* `Enumeration.numbers_select`: looking up once and twice, and all integers;
* `EnumType.names_select`: the variant that is read from a variant's name.
-/

namespace RowMapping

namespace Enumeration

variable {variants : List EnumVariant} {v : Value} {i : Fin variants.length}

/-! ### Looking up -/

theorem find_eq_ok_iff : find variants v = .ok i ↔ find? variants v = some i := by
  unfold find
  cases find? variants v with
  | none => exact iff_of_false nofun nofun
  | some j => rw [Except.ok.injEq, Option.some_inj]

theorem find_of_none (h : find? variants v = none) :
    find variants v = .error (.conversion (.noVariant v)) := by
  rw [find, h]

/-- The value selects the variant of number `n` if there is one, and otherwise none. -/
def SelectsNumber (variants : List EnumVariant) (v : Value) (n : Int) : Prop :=
  (∀ i, find variants v = .ok i ↔ (variants.get i).value.toInt = n) ∧
    ((∀ x ∈ variants, x.value.toInt ≠ n) → find variants v = .error (.conversion (.noVariant v)))

theorem eq_of_value_eq (h : (variants.map (·.value)).Nodup) {j : Fin variants.length}
    (hvalue : (variants.get i).value.toInt = (variants.get j).value.toInt) : i = j := by
  have hi : i.val < (variants.map (·.value)).length := by simp
  have hj : j.val < (variants.map (·.value)).length := by simp
  have hmap : (variants.map (·.value))[i.val] = (variants.map (·.value))[j.val] := by
    rw [List.getElem_map, List.getElem_map]
    exact Int64.toInt_inj.1 hvalue
  exact Fin.ext (h.getElem_inj_iff.1 hmap)

/-- **What looks for a number** selects the variant of that number, if all numbers are different. -/
theorem selectsNumber_of_find? (h : (variants.map (·.value)).Nodup) {p : EnumVariant → Bool}
    {n : Int} (hp : ∀ x, p x = true ↔ x.value.toInt = n)
    (hfind : find? variants v = variants.findFinIdx? p) : SelectsNumber variants v n := by
  refine ⟨fun i => ?_, fun hnone => find_of_none ?_⟩
  · rw [find_eq_ok_iff, hfind, List.findFinIdx?_eq_some_iff, hp]
    refine and_iff_left_of_imp fun hi j hj hother => ?_
    have hsame := eq_of_value_eq (i := j) (j := i) h (((hp _).1 hother).trans hi.symm)
    omega
  · rw [hfind, List.findFinIdx?_eq_none_iff]
    exact fun x hx hother => hnone x hx ((hp x).1 hother)

theorem selectsNumber_signed (h : (variants.map (·.value)).Nodup) (d : Int64) :
    SelectsNumber variants (.signed d) d.toInt :=
  selectsNumber_of_find? h (fun x => by rw [decide_eq_true_iff, Int64.toInt_inj]) rfl

theorem selectsNumber_unsigned (h : (variants.map (·.value)).Nodup) (d : UInt64) :
    SelectsNumber variants (.unsigned d) d.toNat :=
  selectsNumber_of_find? h (fun _ => decide_eq_true_iff) rfl

theorem find_unsigned_of_le {d : UInt64} (hd : 2 ^ (63 : Nat) ≤ d.toNat) :
    find variants (.unsigned d) = .error (.conversion (.noVariant (.unsigned d))) := by
  refine find_of_none (List.findFinIdx?_eq_none_iff.2 fun x _ hx => ?_)
  have hvalue : x.value.toInt = d.toNat := decide_eq_true_iff.1 hx
  have hlt := x.value.toInt_lt
  omega

/-- **Looking up twice is looking up once.** -/
theorem find_of_discriminant (h : (variants.map (·.value)).Nodup) (v : Value) :
    (discriminant variants v >>= find variants) = find variants v := by
  unfold discriminant
  cases hfind : find variants v with
  | error e => rfl
  | ok i => exact ((selectsNumber_signed h _).1 i).2 rfl

/-- **Numbers select variants.**  If all variants have different numbers, then the number of the
variant that a value selects, as a signed integer, selects the same variant, and there is the same
error if there is no variant.  A signed integer, and an unsigned one that fits into a signed one,
selects the variant of that number iff there is one.  Other unsigned integers select none. -/
theorem numbers_select (h : (variants.map (·.value)).Nodup) :
    (∀ v, (discriminant variants v >>= find variants) = find variants v) ∧
      (∀ d : Int64, SelectsNumber variants (.signed d) d.toInt) ∧
      (∀ d : UInt64, d.toNat < 2 ^ (63 : Nat) → SelectsNumber variants (.unsigned d) d.toNat) ∧
      ∀ d : UInt64, 2 ^ (63 : Nat) ≤ d.toNat →
        find variants (.unsigned d) = .error (.conversion (.noVariant (.unsigned d))) :=
  ⟨find_of_discriminant h, selectsNumber_signed h, fun d _ => selectsNumber_unsigned h d,
    fun _ => find_unsigned_of_le⟩

/-- Variants with the numbers at the ends of the range and minus one, whose bits are those of the
greatest unsigned integer. -/
theorem numbers_select_of_wide :
    let wide : List EnumVariant := [⟨"Neg", -1⟩, ⟨"Min", Int64.minValue⟩, ⟨"Max", Int64.maxValue⟩]
    (wide.map (·.value)).Nodup ∧
      discriminant wide (.text " max ") = .ok (.signed Int64.maxValue) ∧
      (discriminant wide (.text " max ") >>= find wide) = find wide (.text " max ") ∧
      SelectsNumber wide (.signed (-1)) (-1) ∧
      SelectsNumber wide (.unsigned 9223372036854775807) 9223372036854775807 ∧
      find wide (.unsigned 18446744073709551615) =
        .error (.conversion (.noVariant (.unsigned 18446744073709551615))) := by
  intro wide
  have h : (wide.map (·.value)).Nodup := by decide
  obtain ⟨htwice, hsigned, hunsigned, hlarge⟩ := numbers_select h
  exact ⟨h, by decide, htwice _, hsigned (-1), hunsigned 9223372036854775807 (by decide),
    hlarge 18446744073709551615 (by decide)⟩

/-! ### Names -/

/-- **What looks for a name** selects the first variant that has it up to case. -/
theorem find_text_iff {s : String} :
    find variants (.text s) = .ok i ↔
      Text.sameName (variants.get i).name (Text.trim s) = true ∧
        ∀ j < i, ¬ Text.sameName (variants.get j).name (Text.trim s) = true := by
  rw [find_eq_ok_iff]
  exact List.findFinIdx?_eq_some_iff

/-- A text that is the same as the name of a variant selects that variant or an earlier one. -/
theorem exists_find_text {s : String}
    (h : Text.sameName (variants.get i).name (Text.trim s) = true) :
    ∃ j ≤ i, find variants (.text s) = .ok j := by
  cases hfind : find? variants (.text s) with
  | none =>
    have hnone := List.findFinIdx?_eq_none_iff.1 hfind (variants.get i) (List.getElem_mem _)
    exact absurd h hnone
  | some j =>
    have hj := find_eq_ok_iff.2 hfind
    refine ⟨j, Fin.not_lt.1 fun hlt => ?_, hj⟩
    exact (find_text_iff.1 hj).2 i hlt h

end Enumeration

namespace EnumType

variable (e : EnumType) {handlers : Handlers} {v : Value}

theorem ofValue_of_not_isNull (hv : v.isNull = false) :
    e.destination.ofValue v = Enumeration.find e.variants v := by
  simp only [destination, hv, Bool.false_eq_true, if_false]

theorem read_eq_ofValue (h : (e.variants.map (·.value)).Nodup) (v : Value) :
    e.destination.read v = e.destination.ofValue v := by
  by_cases hv : v.isNull = true
  · cases Value.eq_null_of_isNull hv
    exact e.destination.read_null
  · rw [Bool.not_eq_true] at hv
    have hcoerce : e.destination.info.coerce v = Enumeration.discriminant e.variants v := by
      simp only [destination, TypeInfo.enumeration, TypeInfo.coerce, hv, Bool.false_eq_true,
        if_false]
    rw [e.ofValue_of_not_isNull hv, ← Enumeration.find_of_discriminant h v, Destination.read,
      hcoerce]
    -- what has been looked up is a number, and so it is not null
    unfold Enumeration.discriminant
    cases Enumeration.find e.variants v with
    | error => rfl
    | ok => rfl

theorem plan_text (hnone : handlers.find? e.destination.info.typeId = none) :
    Rule.plan .text e.destination.info handlers = .ok (.enumeration e.variants) := by
  simp only [destination, TypeInfo.enumeration] at hnone ⊢
  simp only [Rule.plan, hnone]
  rfl

/-- A text that is coerced first, and one from a column of texts, is read as what it is read as
directly. -/
def ReadsAlike (handlers : Handlers) (s : String) : Prop :=
  e.destination.read (.text s) = e.destination.ofValue (.text s) ∧
    ∃ rule, Rule.plan .text e.destination.info handlers = .ok rule ∧
      (rule.apply (.text s) >>= e.destination.ofValue) = e.destination.ofValue (.text s)

variable {e} {left right : String}

/-- **All ways of reading a text agree**, if all variants have different numbers. -/
theorem readsAlike (h : (e.variants.map (·.value)).Nodup)
    (hnone : handlers.find? e.destination.info.typeId = none) (s : String) :
    e.ReadsAlike handlers s := by
  have hread : e.destination.read (.text s) = e.destination.ofValue (.text s) :=
    e.read_eq_ofValue h _
  have hplan := e.plan_text hnone
  have hhandler : e.destination.info.handler? handlers = none := hnone
  have happly := (ScalarType.enumeration e).apply_ofValue hplan (.text s)
  simp only [ScalarType.destination, hhandler] at happly
  exact ⟨hread, _, hplan, happly.trans hread⟩

/-- **Names select variants.**  A text of a variant's name and blanks around it is read alike in all
ways.  If the name neither begins nor ends with a blank, then the text is read as the first variant
whose name is the same up to case.  So it is read as that variant iff this holds of the name and no
variant before it has the same name up to case. -/
theorem names_select (h : (e.variants.map (·.value)).Nodup)
    (hnone : handlers.find? e.destination.info.typeId = none) (hleft : Text.Blank left)
    (hright : Text.Blank right) (i : Fin e.variants.length) :
    let name (j : Fin e.variants.length) := (e.variants.get j).name
    let same (j : Fin e.variants.length) := Text.sameName (name j) (name i)
    let s := left ++ name i ++ right
    e.ReadsAlike handlers s ∧
      (Text.Trimmed (name i) → ∃ j ≤ i, same j = true ∧ (∀ k < j, same k = false) ∧
        e.destination.ofValue (.text s) = .ok j) ∧
      (e.destination.ofValue (.text s) = .ok i ↔
        Text.Trimmed (name i) ∧ ∀ j < i, same j = false) := by
  intro name same s
  have hvalue : e.destination.ofValue (.text s) = Enumeration.find e.variants (.text s) :=
    e.ofValue_of_not_isNull rfl
  have htrim : Text.trim s = Text.trim (name i) := Text.trim_append hleft hright
  have hname (hbare : Text.Trimmed (name i)) : Text.trim s = name i :=
    htrim.trans (Text.trim_eq_self_iff.2 hbare)
  rw [hvalue]
  refine ⟨readsAlike h hnone s, fun hbare => ?_, ?_⟩
  · obtain ⟨j, hj, hfind⟩ := Enumeration.exists_find_text (s := s) (i := i)
      (by rw [hname hbare, Text.sameName_iff])
    obtain ⟨hsame, hfirst⟩ := Enumeration.find_text_iff.1 hfind
    rw [hname hbare] at hsame hfirst
    exact ⟨j, hj, hsame, fun k hk => Bool.eq_false_iff.2 (hfirst k hk), hfind⟩
  · rw [Enumeration.find_text_iff]
    constructor
    · rintro ⟨hsame, hfirst⟩
      have hbare := (Text.trimmed_iff_of_sameName hsame).2 (Text.trimmed_trim s)
      rw [hname hbare] at hfirst
      exact ⟨hbare, fun j hj => Bool.eq_false_iff.2 (hfirst j hj)⟩
    · rintro ⟨hbare, hfirst⟩
      rw [hname hbare]
      exact ⟨Text.sameName_iff.2 rfl, fun j hj => Bool.eq_false_iff.1 (hfirst j hj)⟩

/-- A name with blanks around it, of a variant that no other variant's name is the same as. -/
theorem names_select_of_blanks :
    let e : EnumType := ⟨"Status", [⟨"Active", 1⟩, ⟨"Banned", 2⟩, ⟨"Unknown", 0⟩], by decide⟩
    let banned : Fin e.variants.length := ⟨1, by decide⟩
    (e.variants.map (·.value)).Nodup ∧ Handlers.empty.find? e.destination.info.typeId = none ∧
      Text.Blank "\t" ∧ Text.Blank " \n" ∧ Text.Trimmed (e.variants.get banned).name ∧
      e.ReadsAlike .empty "\tBanned \n" ∧
      e.destination.ofValue (.text "\tBanned \n") = .ok banned := by
  intro e banned
  have hvalues : (e.variants.map (·.value)).Nodup := by decide
  have hleft : Text.Blank "\t" := by decide
  have hright : Text.Blank " \n" := by decide
  have htrimmed : Text.Trimmed (e.variants.get banned).name := by decide
  have hfirst : ∀ j < banned,
      Text.sameName (e.variants.get j).name (e.variants.get banned).name = false := by
    decide
  have hnone : Handlers.empty.find? e.destination.info.typeId = none := rfl
  obtain ⟨halike, -, hselects⟩ := names_select hvalues hnone hleft hright banned
  exact ⟨hvalues, hnone, hleft, hright, htrimmed, halike, hselects.2 ⟨htrimmed, hfirst⟩⟩

/-- The name of a variant selects another one if a variant before it has a name that differs in case
only, and none if it begins with a blank. -/
theorem name_selects_other :
    let clash : EnumType := ⟨"CaseClash", [⟨"Aa", 3⟩, ⟨"AA", 4⟩, ⟨"B", 10⟩, ⟨"C", 11⟩], by decide⟩
    let spaced : EnumType := ⟨"Spaced", [⟨" A", 1⟩], by decide⟩
    ((clash.variants.map (·.name)).Nodup ∧ (clash.variants.map (·.value)).Nodup ∧
      clash.variants[1]?.map (·.name) = some "AA" ∧
      clash.destination.ofValue (.text "AA") = .ok ⟨0, by decide⟩ ∧
      clash.destination.read (.text "AA") = .ok ⟨0, by decide⟩) ∧
      spaced.variants[0]?.map (·.name) = some " A" ∧
      spaced.destination.ofValue (.text " A") = .error (.conversion (.noVariant (.text " A"))) := by
  intro clash spaced
  have hvalues : (clash.variants.map (·.value)).Nodup := by decide
  have hvalue : clash.destination.ofValue (.text "AA") = .ok ⟨0, by decide⟩ := by decide
  exact ⟨⟨by decide, hvalues, by decide, hvalue, (clash.read_eq_ofValue hvalues _).trans hvalue⟩,
    by decide, by decide⟩

end EnumType

end RowMapping
