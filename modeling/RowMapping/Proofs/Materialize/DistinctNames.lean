import RowMapping.Materialize.Matching

/-!
# Matching of distinct names

Members are found one column after the other, each among those that are left over.  Where the names
of the columns differ from each other up to case, and so do those of the members, the order does not
matter: a column and a member come together just if their names are the same up to case.

* `Matching.eq_of_find?`, `Matching.find?_eq_none`: what finding a name comes to;
* `Matching.mem_assignMembers_iff`: which columns and members come together;
* `Matching.pairwise_assignMembers`: no member is taken twice.
-/

namespace RowMapping.Matching

/-- No two names are the same up to case. -/
def Distinct (names : List String) : Prop := (names.map Text.fold).Nodup

theorem Distinct.eq_of_sameName {names : List String} (h : Distinct names) {i j : Nat}
    {a b : String} (ha : names[i]? = some a) (hb : names[j]? = some b)
    (hab : Text.fold a = Text.fold b) : i = j := by
  have hi : i < (names.map Text.fold).length := by
    rw [List.length_map]
    exact (List.getElem?_eq_some_iff.1 ha).1
  refine (List.getElem?_inj hi h).1 ?_
  rw [List.getElem?_map, List.getElem?_map, ha, hb, Option.map_some, Option.map_some, hab]

variable {taken : List Nat} {names : List String} {name : String} {i : Nat}

theorem eq_of_firstFree? {p : String → Bool} (h : firstFree? taken names p = some i) :
    i ∉ taken ∧ ∃ n, names[i]? = some n ∧ p n = true := by
  obtain ⟨⟨n, j⟩, hfind, rfl⟩ := Option.map_eq_some_iff.1 h
  have hfree := List.find?_some hfind
  have hmem := List.mem_zipIdx_iff_getElem?.1 (List.mem_of_find?_eq_some hfind)
  simp only [Bool.and_eq_true, Bool.not_eq_true', List.contains_eq_mem, decide_eq_false_iff_not]
    at hfree
  exact ⟨hfree.1, n, hmem, hfree.2⟩

theorem firstFree?_eq_none {p : String → Bool} (h : firstFree? taken names p = none) {n : String}
    (hn : names[i]? = some n) (hi : i ∉ taken) : p n = false := by
  have hall := List.find?_eq_none.1 (Option.map_eq_none_iff.1 h) (n, i)
    (List.mem_zipIdx_iff_getElem?.2 hn)
  simpa [hi] using hall

theorem eq_of_find? (h : find? taken names name = some i) :
    i ∉ taken ∧ ∃ n, names[i]? = some n ∧ Text.fold n = Text.fold name := by
  rcases Option.or_eq_some_iff.1 h with h | ⟨-, h⟩
  · obtain ⟨hi, n, hn, heq⟩ := eq_of_firstFree? h
    exact ⟨hi, n, hn, by rw [beq_iff_eq.1 heq]⟩
  · obtain ⟨hi, n, hn, hname⟩ := eq_of_firstFree? h
    exact ⟨hi, n, hn, Text.sameName_iff.1 hname⟩

theorem find?_eq_none (h : find? taken names name = none) {n : String}
    (hn : names[i]? = some n) (hi : i ∉ taken) : Text.fold n ≠ Text.fold name := by
  intro hname
  have hnone := firstFree?_eq_none (Option.or_eq_none_iff.1 h).2 hn hi
  rw [Text.sameName_iff.2 hname] at hnone
  cases hnone

variable {columns : List (String × Nat)} {assigned : List Nat}

theorem of_mem_assignMembers {e : Nat × Nat} (h : e ∈ assignMembers names taken assigned columns) :
    e.2 ∉ assigned ∧ ∃ column n, (column, e.1) ∈ columns ∧ names[e.2]? = some n ∧
      Text.fold n = Text.fold column := by
  induction columns generalizing assigned with
  | nil => cases h
  | cons head columns ih =>
    obtain ⟨column, i⟩ := head
    have hlater (assigned' : List Nat) (hmem : e ∈ assignMembers names taken assigned' columns) :
        e.2 ∉ assigned' ∧ ∃ column' n, (column', e.1) ∈ (column, i) :: columns ∧
          names[e.2]? = some n ∧ Text.fold n = Text.fold column' := by
      obtain ⟨hfree, column', n, hcolumn, hrest⟩ := ih hmem
      exact ⟨hfree, column', n, List.mem_cons_of_mem _ hcolumn, hrest⟩
    unfold assignMembers at h
    split at h
    · exact hlater assigned h
    · split at h
      · rename_i m hm
        rcases List.mem_cons.1 h with rfl | h
        · obtain ⟨hfree, n, hn, hname⟩ := eq_of_find? hm
          exact ⟨hfree, column, n, List.mem_cons_self, hn, hname⟩
        · obtain ⟨hfree, hrest⟩ := hlater _ h
          exact ⟨fun hmem => hfree (List.mem_cons_of_mem _ hmem), hrest⟩
      · exact hlater assigned h

theorem pairwise_assignMembers (names : List String) (taken assigned : List Nat)
    (columns : List (String × Nat)) :
    (assignMembers names taken assigned columns).Pairwise fun e f => e.2 ≠ f.2 := by
  induction columns generalizing assigned with
  | nil => exact .nil
  | cons head columns ih =>
    unfold assignMembers
    split
    · exact ih assigned
    · split
      · rename_i m hm
        refine .cons (fun e he heq => ?_) (ih _)
        exact (of_mem_assignMembers he).1 (heq ▸ List.mem_cons_self)
      · exact ih assigned

/-- Every column finds the member of its name, as the columns before it have other names. -/
theorem mem_assignMembers_of_fold_eq (hnames : Distinct names)
    (hcolumns : Distinct (columns.map Prod.fst)) {column n : String} {m : Nat}
    (hcolumn : (column, i) ∈ columns) (hn : names[m]? = some n)
    (hname : Text.fold n = Text.fold column) (hm : m ∉ assigned) :
    (i, m) ∈ assignMembers names [] assigned columns := by
  induction columns generalizing assigned with
  | nil => cases hcolumn
  | cons head columns ih =>
    obtain ⟨hhead, htail⟩ := List.nodup_cons.1 hcolumns
    rw [assignMembers, List.contains_nil, if_neg Bool.false_ne_true]
    rcases List.mem_cons.1 hcolumn with rfl | hcolumn
    · cases hfind : find? assigned names column with
      | none => exact absurd hname (find?_eq_none hfind hn hm)
      | some m' =>
        obtain ⟨-, n', hn', hname'⟩ := eq_of_find? hfind
        cases hnames.eq_of_sameName hn hn' (hname.trans hname'.symm)
        exact List.mem_cons_self
    · have hother : Text.fold head.1 ≠ Text.fold column := fun heq =>
        hhead (heq ▸ List.mem_map_of_mem (List.mem_map_of_mem hcolumn))
      cases hfind : find? assigned names head.1 with
      | none => exact ih htail hcolumn hm
      | some m' =>
        obtain ⟨-, n', hn', hname'⟩ := eq_of_find? hfind
        have hne : m ≠ m' := by
          rintro rfl
          cases hn.symm.trans hn'
          exact hother (hname'.symm.trans hname)
        exact List.mem_cons_of_mem _ (ih htail hcolumn (List.not_mem_cons_of_ne_of_not_mem hne hm))

/-- **Distinct names match in any order.**  A column and a member come together just if their names
are the same up to case. -/
theorem mem_assignMembers_iff {names columns : List String} (hnames : Distinct names)
    (hcolumns : Distinct columns) {i m : Nat} :
    (i, m) ∈ assignMembers names [] [] columns.zipIdx ↔
      ∃ column n, columns[i]? = some column ∧ names[m]? = some n ∧
        Text.fold n = Text.fold column := by
  have hzip : columns.zipIdx.map Prod.fst = columns := List.zipIdx_map_fst ..
  constructor
  · intro h
    obtain ⟨-, column, n, hcolumn, hrest⟩ := of_mem_assignMembers h
    exact ⟨column, n, List.mem_zipIdx_iff_getElem?.1 hcolumn, hrest⟩
  · rintro ⟨column, n, hcolumn, hn, hname⟩
    exact mem_assignMembers_of_fold_eq hnames (hzip.symm ▸ hcolumns)
      (List.mem_zipIdx_iff_getElem?.2 hcolumn) hn hname List.not_mem_nil

end RowMapping.Matching
