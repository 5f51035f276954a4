import Mathlib.Data.List.TakeWhile
import RowMapping.Text.Blank
import RowMapping.Text.Fold

/-!
# Trimming

Trimming takes the blanks from both ends of a text.  What is left begins and ends with characters
that are not blank, and a text that does so already stays as it is.

* `Text.trim_append`: blanks that are put around a text do not count;
* `Text.trim_eq_self_iff`: the texts that stay as they are.
-/

namespace RowMapping.Text

/-- The text neither begins nor ends with a blank. -/
def Trimmed (s : String) : Prop :=
  s.toList.head?.any isBlank = false ∧ s.toList.getLast?.any isBlank = false

instance (s : String) : Decidable (Trimmed s) :=
  inferInstanceAs (Decidable (_ ∧ _))

/-- The text consists of blanks. -/
def Blank (s : String) : Prop := s.toList.all isBlank = true

instance (s : String) : Decidable (Blank s) :=
  inferInstanceAs (Decidable (s.toList.all isBlank = true))

/-! ### Lists of characters -/

variable {cs front back : List Char}

theorem trimFront_append (h : front.all isBlank = true) : trimFront (front ++ cs) = trimFront cs :=
  List.dropWhile_append_of_pos (List.all_eq_true.1 h)

theorem trimFront_of_all (h : cs.all isBlank = true) : trimFront cs = [] :=
  List.dropWhile_eq_nil_iff.2 (List.all_eq_true.1 h)

theorem trimFront_of_head (h : cs.head?.any isBlank = false) : trimFront cs = cs := by
  cases cs with
  | nil => rfl
  | cons c cs =>
    rw [List.head?_cons, Option.any_some] at h
    exact List.dropWhile_cons_of_neg (by simp [h])

theorem head_trimFront (cs : List Char) : (trimFront cs).head?.any isBlank = false := by
  have hhead := List.head?_dropWhile_not isBlank cs
  unfold trimFront
  split at hhead
  · rename_i c hc
    rw [hc, Option.any_some, hhead]
  · rename_i hc
    rw [hc, Option.any_none]

theorem getLast_trimFront (h : cs.getLast?.any isBlank = false) :
    (trimFront cs).getLast?.any isBlank = false := by
  obtain ⟨gone, hgone⟩ := List.dropWhile_suffix isBlank (l := cs)
  change gone ++ trimFront cs = cs at hgone
  by_cases hnil : trimFront cs = []
  · rw [hnil, List.getLast?_nil, Option.any_none]
  · obtain ⟨c, hc⟩ := Option.isSome_iff_exists.1 (List.getLast?_isSome.2 hnil)
    rw [← hgone, List.getLast?_append, hc, Option.some_or] at h
    rw [hc, h]

theorem trimChars_append (hfront : front.all isBlank = true) (hback : back.all isBlank = true) :
    trimChars (front ++ cs ++ back) = trimChars cs := by
  have hreverse : back.reverse.all isBlank = true := by rwa [List.all_reverse]
  rw [trimChars, List.append_assoc, trimFront_append hfront]
  by_cases hnil : trimFront cs = []
  · -- nothing but blanks: what is put behind is taken from the front
    have hall : cs.all isBlank = true := List.all_eq_true.2 (List.dropWhile_eq_nil_iff.1 hnil)
    rw [trimFront_append hall, trimFront_of_all hback, trimChars, hnil]
  · have hmiddle : trimFront (cs ++ back) = trimFront cs ++ back := by
      unfold trimFront at hnil ⊢
      rw [List.dropWhile_append, if_neg (by simpa using hnil)]
    rw [hmiddle, List.reverse_append, trimFront_append hreverse, trimChars]

theorem trimFront_eq_nil_iff : trimFront cs = [] ↔ cs.all isBlank = true :=
  List.dropWhile_eq_nil_iff.trans List.all_eq_true.symm

theorem trimFront_trimFront (cs : List Char) : trimFront (trimFront cs) = trimFront cs :=
  trimFront_of_head (head_trimFront cs)

theorem trimChars_eq_nil_iff : trimChars cs = [] ↔ cs.all isBlank = true := by
  rw [trimChars, List.reverse_eq_nil_iff, trimFront_eq_nil_iff, List.all_reverse,
    ← trimFront_eq_nil_iff, trimFront_trimFront, trimFront_eq_nil_iff]

theorem trimChars_subset (cs : List Char) : trimChars cs ⊆ cs := fun c h => by
  rw [trimChars, List.mem_reverse] at h
  exact List.dropWhile_subset _ (List.mem_reverse.1 (List.dropWhile_subset _ h))

/-! ### Trimming around a character that is not blank -/

/-- The list without the blanks at its end. -/
def trimBack (cs : List Char) : List Char := (trimFront cs.reverse).reverse

theorem trimChars_trimFront (cs : List Char) : trimChars (trimFront cs) = trimChars cs := by
  rw [trimChars, trimFront_trimFront, ← trimChars]

theorem trimChars_trimBack (cs : List Char) : trimChars (trimBack cs) = trimChars cs := by
  have hsplit : trimBack cs ++ (cs.reverse.takeWhile isBlank).reverse = cs := by
    rw [trimBack, ← List.reverse_append, trimFront, List.takeWhile_append_dropWhile,
      List.reverse_reverse]
  have hblank : (cs.reverse.takeWhile isBlank).reverse.all isBlank = true := by
    rw [List.all_reverse]
    exact List.all_takeWhile
  calc trimChars (trimBack cs)
    _ = trimChars ([] ++ trimBack cs ++ (cs.reverse.takeWhile isBlank).reverse) :=
      (trimChars_append rfl hblank).symm
    _ = trimChars cs := by rw [List.nil_append, hsplit]

section Around

variable {c : Char} (hc : isBlank c = false)
include hc

theorem trimFront_append_cons (front back : List Char) :
    trimFront (front ++ c :: back) = trimFront front ++ c :: back := by
  unfold trimFront
  rw [List.dropWhile_append, List.dropWhile_cons_of_neg (by simp [hc])]
  split
  · rename_i hempty
    rw [List.isEmpty_iff.1 hempty, List.nil_append]
  · rfl

/-- Only the outer ends are trimmed. -/
theorem trimChars_append_cons (front back : List Char) :
    trimChars (front ++ c :: back) = trimFront front ++ c :: trimBack back := by
  rw [trimChars, trimFront_append_cons hc, List.reverse_append, List.reverse_cons,
    List.append_assoc, List.singleton_append, trimFront_append_cons hc, List.reverse_append,
    List.reverse_cons, List.reverse_reverse, List.append_assoc, List.singleton_append, trimBack]

end Around

/-! ### Texts -/

variable {s left right : String}

theorem trimmed_of_forall (h : ∀ c ∈ s.toList, isBlank c = false) : Trimmed s := by
  refine ⟨?_, ?_⟩
  · cases hhead : s.toList.head? with
    | none => rfl
    | some c => exact h c (List.mem_of_head? hhead)
  · cases hlast : s.toList.getLast? with
    | none => rfl
    | some c => exact h c (List.mem_of_getLast? hlast)

theorem trimmed_trim (s : String) : Trimmed (trim s) := by
  rw [Trimmed, trim, String.toList_ofList, trimChars, List.head?_reverse, List.getLast?_reverse]
  refine ⟨getLast_trimFront ?_, head_trimFront _⟩
  rw [List.getLast?_reverse]
  exact head_trimFront _

/-- **Blanks around a text do not count.** -/
theorem trim_append (hleft : Blank left) (hright : Blank right) :
    trim (left ++ s ++ right) = trim s := by
  rw [trim, String.toList_append, String.toList_append, trimChars_append hleft hright, trim]

/-- **The texts that stay as they are** are those that neither begin nor end with a blank. -/
theorem trim_eq_self_iff : trim s = s ↔ Trimmed s := by
  constructor
  · intro h
    rw [← h]
    exact trimmed_trim s
  · rintro ⟨hhead, hlast⟩
    have hback : trimFront s.toList.reverse = s.toList.reverse :=
      trimFront_of_head (by rwa [List.head?_reverse])
    rw [trim, trimChars, trimFront_of_head hhead, hback, List.reverse_reverse, String.ofList_toList]

/-! ### Names that are equal up to case -/

theorem isBlank_eq_false_of_visible {c : Char} (h : 0x20 < c.toNat ∧ c.toNat < 0x80) :
    isBlank c = false := by
  simp only [isBlank, blankRanges, List.any_cons, List.any_nil, Bool.or_false, Bool.or_eq_false_iff,
    Bool.and_eq_false_iff, decide_eq_false_iff_not]
  omega

theorem toNat_toLower {c : Char} (h : 65 ≤ c.toNat ∧ c.toNat ≤ 90) :
    c.toLower.toNat = c.toNat + 32 := by
  refine (congrArg Char.toNat (dif_pos h)).trans ?_
  change (c.val + 32).toNat = c.val.toNat + 32
  rw [UInt32.toNat_add]
  exact Nat.mod_eq_of_lt (by change c.toNat + 32 < _; omega)

theorem toLower_of_not_upper {c : Char} (h : ¬(65 ≤ c.toNat ∧ c.toNat ≤ 90)) : c.toLower = c :=
  dif_neg h

theorem isBlank_toLower (c : Char) : isBlank c.toLower = isBlank c := by
  by_cases hupper : 65 ≤ c.toNat ∧ c.toNat ≤ 90
  · have hlower := toNat_toLower hupper
    rw [isBlank_eq_false_of_visible (by omega), isBlank_eq_false_of_visible (by omega)]
  · rw [toLower_of_not_upper hupper]

theorem trimmed_iff_of_sameName {t : String} (h : sameName s t = true) :
    Trimmed s ↔ Trimmed t := by
  have hany (c : Option Char) : (c.map Char.toLower).any isBlank = c.any isBlank := by
    cases c with
    | none => rfl
    | some c => exact isBlank_toLower c
  have hfold : s.toList.map Char.toLower = t.toList.map Char.toLower := sameName_iff.1 h
  have hhead := congrArg (·.head?.any isBlank) hfold
  have hlast := congrArg (·.getLast?.any isBlank) hfold
  simp only [List.head?_map, List.getLast?_map, hany] at hhead hlast
  rw [Trimmed, Trimmed, hhead, hlast]

end RowMapping.Text
