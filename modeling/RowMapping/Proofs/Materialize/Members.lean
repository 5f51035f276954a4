import RowMapping.Proofs.Materialize.Constructors

/-!
# The matching of members

The columns that the constructor leaves over look for a member one after the other: for one of
exactly their name, or else for the first one whose name is the same up to case.  What is taken by
an earlier column is not given back, but nothing is lost by that: of every name, up to case, as many
members are set as there are members and columns left over for them.

* `Matching.assignMembers_cons_cases`: what a column can do at its turn;
* `Matching.countP_assignMembers`: how many members of a name are set;
* `Matching.exists_mem_assignMembers`: a column gets a member of exactly its name if one is left;
* `Matching.matched_assignMembers`, `Layout.members_matched`: all of it together, and that what is
  built for a range sets its members so.
-/

namespace RowMapping

namespace Matching

variable {names : List String} {taken assigned : List Nat} {columns : List (String × Nat)}
  {column : String} {i m : Nat}

/-! ### One column after the other -/

/-- At its turn a column is passed over because it is taken, or because no member is left for it, or
it gets a member. -/
theorem assignMembers_cons_cases (names : List String) (taken assigned : List Nat)
    (columns : List (String × Nat)) (column : String) (i : Nat) :
    i ∈ taken ∧ assignMembers names taken assigned ((column, i) :: columns) =
        assignMembers names taken assigned columns ∨
      i ∉ taken ∧ find? assigned names column = none ∧
        assignMembers names taken assigned ((column, i) :: columns) =
          assignMembers names taken assigned columns ∨
      ∃ m, i ∉ taken ∧ find? assigned names column = some m ∧
        assignMembers names taken assigned ((column, i) :: columns) =
          (i, m) :: assignMembers names taken (m :: assigned) columns := by
  by_cases hi : i ∈ taken
  · exact .inl ⟨hi, by simp [assignMembers, hi]⟩
  · cases hfind : find? assigned names column with
    | none => exact .inr (.inl ⟨hi, rfl, by simp [assignMembers, hi, hfind]⟩)
    | some m => exact .inr (.inr ⟨m, hi, rfl, by simp [assignMembers, hi, hfind]⟩)

theorem sublist_assignMembers (names : List String) (taken assigned : List Nat)
    (columns : List (String × Nat)) :
    ((assignMembers names taken assigned columns).map Prod.fst).Sublist
      ((columns.map Prod.snd).filter fun i => !taken.contains i) := by
  induction columns generalizing assigned with
  | nil => exact .slnil
  | cons head columns ih =>
    obtain ⟨column, i⟩ := head
    rw [List.map_cons]
    obtain ⟨hi, heq⟩ | ⟨hi, -, heq⟩ | ⟨m, hi, -, heq⟩ :=
      assignMembers_cons_cases names taken assigned columns column i
    · rw [heq, List.filter_cons_of_neg (by simpa using hi)]
      exact ih assigned
    · rw [heq, List.filter_cons_of_pos (by simpa using hi)]
      exact (ih assigned).cons _
    · rw [heq, List.filter_cons_of_pos (by simpa using hi)]
      exact (ih (m :: assigned)).cons_cons _

/-- **As many members of a name are set** as there are members of it and columns for them. -/
theorem countP_assignMembers (names : List String) (taken assigned : List Nat)
    (columns : List (String × Nat)) (name : String) :
    (assignMembers names taken assigned columns).countP
        (fun e => names[e.2]?.any (Text.sameName · name)) =
      min (free assigned names name).card
        (columns.countP fun e => !taken.contains e.2 && Text.sameName e.1 name) := by
  induction columns generalizing assigned with
  | nil => simp [assignMembers]
  | cons head columns ih =>
    obtain ⟨column, i⟩ := head
    rw [List.countP_cons]
    obtain ⟨hi, heq⟩ | ⟨hi, hfind, heq⟩ | ⟨m, hi, hfind, heq⟩ :=
      assignMembers_cons_cases names taken assigned columns column i
    · have hpassed : (!taken.contains i && Text.sameName column name) = false := by simp [hi]
      rw [heq, ih, hpassed]
      simp
    · rw [heq, ih]
      by_cases hname : Text.sameName column name = true
      · -- no member is left for this name
        rw [← free_congr hname, free_eq_empty_of_find? hfind]
        simp
      · simp [hname]
    · obtain ⟨hm, n, hn, hsame⟩ := mem_free.1 (mem_free_of_find? hfind)
      have hcard := card_free_cons hm hn name
      rw [Text.sameName_congr hsame] at hcard
      have hset : names[m]?.any (Text.sameName · name) = Text.sameName column name := by
        rw [hn, Option.any_some, Text.sameName_congr hsame]
      have hturn : (!taken.contains i && Text.sameName column name) =
          Text.sameName column name := by simp [hi]
      rw [heq, List.countP_cons, ih, hset, hturn]
      split_ifs at hcard ⊢ <;> omega

/-! ### Exact names -/

theorem exists_find?_of_notMem {name : String} (hm : m ∉ taken) (hn : names[m]? = some name) :
    ∃ m', find? taken names name = some m' ∧ names[m']? = some name := by
  cases hfirst : firstFree? taken names (· == name) with
  | none =>
    have hne := firstFree?_eq_none hfirst hn hm
    simp at hne
  | some m' =>
    obtain ⟨-, n, hn', heq⟩ := eq_of_firstFree? hfirst
    obtain rfl := beq_iff_eq.1 heq
    exact ⟨m', by rw [find?, hfirst, Option.some_or], hn'⟩

/-- **A column gets a member of exactly its name** if one is left over by the columns before it. -/
theorem exists_mem_assignMembers {front back : List (String × Nat)} (hi : i ∉ taken)
    (hm : m ∉ assigned) (hn : names[m]? = some column)
    (hleft : ∀ e ∈ assignMembers names taken assigned (front ++ (column, i) :: back),
      e.1 ∈ front.map Prod.snd → e.2 ≠ m) :
    ∃ m', (i, m') ∈ assignMembers names taken assigned (front ++ (column, i) :: back) ∧
      names[m']? = some column := by
  induction front generalizing assigned with
  | nil =>
    obtain ⟨m', hfind, hn'⟩ := exists_find?_of_notMem hm hn
    refine ⟨m', ?_, hn'⟩
    rw [List.nil_append, assignMembers, hfind]
    simp [hi]
  | cons head front ih =>
    obtain ⟨other, j⟩ := head
    rw [List.cons_append] at hleft ⊢
    -- what the first column gets is not the member in question
    obtain ⟨-, heq⟩ | ⟨-, -, heq⟩ | ⟨k, -, -, heq⟩ :=
      assignMembers_cons_cases names taken assigned (front ++ (column, i) :: back) other j
    · rw [heq] at hleft ⊢
      exact ih hm fun e he hmem => hleft e he (List.mem_cons_of_mem _ hmem)
    · rw [heq] at hleft ⊢
      exact ih hm fun e he hmem => hleft e he (List.mem_cons_of_mem _ hmem)
    · rw [heq] at hleft ⊢
      obtain ⟨hk, hleft⟩ := List.forall_mem_cons.1 hleft
      have hne : k ≠ m := hk List.mem_cons_self
      have hm : m ∉ k :: assigned := by simp [hm, hne.symm]
      obtain ⟨m', hmem, hn'⟩ := ih hm fun e he hmem => hleft e he (List.mem_cons_of_mem _ hmem)
      exact ⟨m', List.mem_cons_of_mem _ hmem, hn'⟩

/-! ### All columns and members -/

/-- Columns and members are matched as far as they can be.  A pair gives the place of a column and
the one of a member; the columns that are taken are those of the constructor. -/
structure Matched (columns names : List String) (taken : List Nat) (pairs : List (Nat × Nat)) :
    Prop where
  /-- No column of the constructor is used for a member. -/
  leftOver : ∀ e ∈ pairs, e.1 ∉ taken
  /-- A column is used for one member at most. -/
  columns_nodup : (pairs.map Prod.fst).Nodup
  /-- A member is set from one column at most. -/
  members_nodup : (pairs.map Prod.snd).Nodup
  /-- The names are the same up to case. -/
  sameName : ∀ e ∈ pairs, ∃ column name, columns[e.1]? = some column ∧
    names[e.2]? = some name ∧ Text.sameName name column = true
  /-- Of a name, as many members are set as there are members and columns left over. -/
  countP_eq : ∀ name, pairs.countP (fun e => names[e.2]?.any (Text.sameName · name)) =
    min (names.countP (Text.sameName · name)) (free taken columns name).card
  /-- A column gets a member of exactly its name if one is not set from the columns before it. -/
  exactName : ∀ i column m, columns[i]? = some column → i ∉ taken → names[m]? = some column →
    (∀ e ∈ pairs, e.1 < i → e.2 ≠ m) → ∃ m', (i, m') ∈ pairs ∧ names[m']? = some column

theorem matched_assignMembers (columns names : List String) (taken : List Nat) :
    Matched columns names taken (assignMembers names taken [] columns.zipIdx) := by
  have hsublist := sublist_assignMembers names taken [] columns.zipIdx
  rw [List.zipIdx_map_snd] at hsublist
  refine ⟨fun e he => ?_, ?_, ?_, fun e he => ?_, fun name => ?_, ?_⟩
  · have hmem := List.mem_filter.1 (hsublist.subset (List.mem_map_of_mem he))
    simpa using hmem.2
  · exact hsublist.nodup (List.Nodup.filter _ List.nodup_range')
  · exact List.pairwise_map.2 (pairwise_assignMembers names taken [] columns.zipIdx)
  · obtain ⟨-, column, name, hcolumn, hname, hsame⟩ := of_mem_assignMembers he
    exact ⟨column, name, List.mem_zipIdx_iff_getElem?.1 hcolumn, hname, Text.sameName_iff.2 hsame⟩
  · rw [countP_assignMembers, card_free_nil, card_free]
  · intro i column m hcolumn hi hname hleft
    obtain ⟨front, back, hsplit⟩ :=
      List.append_of_mem (List.mem_zipIdx_iff_getElem?.2 hcolumn : (column, i) ∈ columns.zipIdx)
    -- the columns in front are those before this one
    have hbefore : ∀ j ∈ front.map Prod.snd, j < i := by
      intro j hj
      have horder : (List.range' 0 columns.length).Pairwise (· < ·) := List.pairwise_lt_range'
      rw [← List.zipIdx_map_snd 0 columns, hsplit, List.map_append, List.map_cons,
        List.pairwise_append] at horder
      exact horder.2.2 j hj i List.mem_cons_self
    rw [hsplit] at hleft ⊢
    exact exists_mem_assignMembers hi List.not_mem_nil hname fun e he hmem =>
      hleft e he (hbefore _ hmem)

end Matching

namespace Layout

/-- **Member matching loses nothing.**  What is built for a range of columns makes its objects by
the constructor that is chosen, and sets members from the columns that the constructor leaves over,
which are matched as far as they can be. -/
theorem members_matched {α : Type} {composite : Composite α} {v : RowView} {handlers : Handlers}
    {start length : Nat} {firstMissing : Bool} {schema : SchemaId} {f : RowFn α}
    (h : (Layout.named composite).build v handlers start length firstMissing schema = .ok f) :
    let columns := (List.range' start length).map v.name
    let choice := Matching.choose? columns composite.constructors
    ∃ pairs, MadeBy v handlers start length firstMissing composite choice pairs f ∧
      Matching.Matched columns (composite.members.map (·.name)) ((choice.map (·.2)).getD [])
        pairs := by
  intro columns choice
  exact ⟨_, madeBy_of_buildNamed h, Matching.matched_assignMembers ..⟩

/-- Three members whose names differ in case only, and four columns for them that a constructor
leaves over. -/
theorem members_matched_of_cases :
    let composite : Composite (List Value) :=
      { typeId := .declared "Cased"
        constructors := [⟨[⟨"ID", .any⟩], .ok⟩]
        members := ["id", "ID", "x", "Id"].map fun name => ⟨name, .any, fun vs v => .ok (v :: vs)⟩ }
    let v : RowView := ⟨6, fun i => ["iD", "ID", "Id", "ID", "y", "iD"].getD i "", fun _ => .i64,
      fun i => .ok (.signed (Int64.ofNat i))⟩
    let columns := (List.range' 0 6).map v.name
    let choice := Matching.choose? columns composite.constructors
    ∃ f, (Layout.named composite).build v .empty 0 6 false ⟨0⟩ = .ok f ∧
      ∃ pairs, MadeBy v .empty 0 6 false composite choice pairs f ∧
        Matching.Matched columns (composite.members.map (·.name)) ((choice.map (·.2)).getD [])
          pairs := by
  intro composite v columns choice
  have hok : ((Layout.named composite).build v .empty 0 6 false ⟨0⟩).toOption.isSome = true := by
    decide +kernel
  obtain ⟨f, hf⟩ := exists_eq_ok hok
  exact ⟨f, hf, members_matched hf⟩

end Layout

end RowMapping
