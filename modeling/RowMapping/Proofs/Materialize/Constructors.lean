import Mathlib.Data.Finset.Card
import RowMapping.Materialize.Build
import RowMapping.Proofs.Materialize.DistinctNames
import RowMapping.Proofs.Outcome

/-!
# The choice of a constructor

Parameters find their columns one after the other, each among those that are left over: a column of
exactly the same name, or else the first one whose name is the same up to case.  No column is given
back, but none has to be: names that are the same up to case may take each other's columns, so that
only their number counts.  A constructor finds columns for all its parameters as soon as there are
columns for them at all.

* `Matching.card_free_cons`: a place that is taken is one free place less for its name, and for no
  other one;
* `Matching.exists_assign?_iff`, `Matching.exists_places_iff`: names find their places, one after
  the other, just if there are different places for them;
* `Matching.chosen_of_choose?`: the first constructor of those with the most parameters;
* `Layout.constructor_chosen`: what is chosen for a range of columns, and what objects are made by.
-/

namespace RowMapping

theorem Text.sameName_congr {a b : String} (h : sameName a b = true) (name : String) :
    sameName a name = sameName b name := by
  simp only [sameName, sameName_iff.1 h]

namespace Matching

/-! ### Free places -/

section Free

variable {taken : List Nat} {names : List String} {name n : String} {i : Nat}

/-- The places that are not taken, of the names that are the same as a given one up to case. -/
def free (taken : List Nat) (names : List String) (name : String) : Finset Nat :=
  ((names.zipIdx.filter fun e => !taken.contains e.2 && Text.sameName e.1 name).map
    Prod.snd).toFinset

theorem mem_free : i ∈ free taken names name ↔
    i ∉ taken ∧ ∃ n, names[i]? = some n ∧ Text.sameName n name = true := by
  simp only [free, List.mem_toFinset, List.mem_map, List.mem_filter, List.mem_zipIdx_iff_getElem?,
    Bool.and_eq_true, Bool.not_eq_true', List.contains_eq_mem, decide_eq_false_iff_not]
  constructor
  · rintro ⟨⟨n, j⟩, ⟨hn, hfree, hname⟩, rfl⟩
    exact ⟨hfree, n, hn, hname⟩
  · rintro ⟨hfree, n, hn, hname⟩
    exact ⟨(n, i), ⟨hn, hfree, hname⟩, rfl⟩

theorem free_congr (h : Text.sameName n name = true) :
    free taken names n = free taken names name := by
  simp only [free, Text.sameName, Text.sameName_iff.1 h]

theorem card_free (taken : List Nat) (names : List String) (name : String) :
    (free taken names name).card =
      names.zipIdx.countP fun e => !taken.contains e.2 && Text.sameName e.1 name := by
  have hnodup : ((names.zipIdx.filter fun e =>
      !taken.contains e.2 && Text.sameName e.1 name).map Prod.snd).Nodup := by
    refine List.Nodup.sublist (List.filter_sublist.map _) ?_
    rw [List.zipIdx_map_snd]
    exact List.nodup_range'
  rw [free, List.toFinset_card_of_nodup hnodup, List.length_map, List.countP_eq_length_filter]

theorem card_free_nil (names : List String) (name : String) :
    (free [] names name).card = names.countP (Text.sameName · name) := by
  rw [card_free]
  conv_rhs => rw [← List.zipIdx_map_fst 0 names, List.countP_map]
  rfl

/-- A place that is taken is one free place less for its name, and for no other one. -/
theorem card_free_cons (hi : i ∉ taken) (hn : names[i]? = some n) (name : String) :
    (free (i :: taken) names name).card + (if Text.sameName n name then 1 else 0) =
      (free taken names name).card := by
  have herase : free (i :: taken) names name = (free taken names name).erase i := by
    ext j
    simp only [mem_free, Finset.mem_erase, List.mem_cons, not_or, and_assoc]
  rw [herase]
  split_ifs with hname
  · exact Finset.card_erase_add_one (mem_free.2 ⟨hi, n, hn, hname⟩)
  · rw [Finset.erase_eq_of_notMem]
    · rfl
    · intro hmem
      obtain ⟨-, n', hn', hname'⟩ := mem_free.1 hmem
      cases hn.symm.trans hn'
      exact hname hname'

theorem mem_free_of_find? (h : find? taken names name = some i) : i ∈ free taken names name := by
  obtain ⟨hi, n, hn, hname⟩ := eq_of_find? h
  exact mem_free.2 ⟨hi, n, hn, Text.sameName_iff.2 hname⟩

theorem free_eq_empty_of_find? (h : find? taken names name = none) :
    free taken names name = ∅ := by
  rw [Finset.eq_empty_iff_forall_notMem]
  intro i hi
  obtain ⟨hfree, n, hn, hname⟩ := mem_free.1 hi
  exact find?_eq_none h hn hfree (Text.sameName_iff.1 hname)

end Free

/-! ### Different places for all names -/

section Places

variable {columns : List String} {taken : List Nat} {names : List String} {name : String}
  {places : List Nat} {i : Nat}

/-- The names get different places, each one of those that are free for it. -/
def Places (taken : List Nat) (columns names : List String) (places : List Nat) : Prop :=
  places.Nodup ∧ List.Forall₂ (fun name i => i ∈ free taken columns name) names places

theorem places_cons : Places taken columns (name :: names) (i :: places) ↔
    i ∈ free taken columns name ∧ Places (i :: taken) columns names places := by
  have hfree (j : Nat) (name : String) :
      j ∈ free (i :: taken) columns name ↔ j ≠ i ∧ j ∈ free taken columns name := by
    simp only [mem_free, List.mem_cons, not_or, and_assoc]
  constructor
  · rintro ⟨hnodup, hplaces⟩
    obtain ⟨hi, hnodup⟩ := List.nodup_cons.1 hnodup
    obtain ⟨hhead, htail⟩ := List.forall₂_cons.1 hplaces
    refine ⟨hhead, hnodup, List.forall₂_iff_zip.2 ⟨htail.length_eq, fun {a j} hmem => ?_⟩⟩
    have hj : j ∈ places := (List.of_mem_zip hmem).2
    exact (hfree j a).2 ⟨fun heq => hi (heq ▸ hj), List.forall₂_zip htail hmem⟩
  · rintro ⟨hhead, hnodup, htail⟩
    refine ⟨List.nodup_cons.2 ⟨fun hi => ?_, hnodup⟩,
      .cons hhead (htail.imp fun a j hj => ((hfree j a).1 hj).2)⟩
    -- a place behind the first one was looked for with the first one taken
    obtain ⟨a, ha⟩ : ∃ a, (a, i) ∈ names.zip places := by
      obtain ⟨k, hk, rfl⟩ := List.getElem_of_mem hi
      have hk' : k < names.length := htail.length_eq ▸ hk
      exact ⟨names[k], List.mem_iff_getElem.2 ⟨k, by simp; omega, by simp⟩⟩
    exact ((hfree i a).1 (List.forall₂_zip htail ha)).1 rfl

theorem places_of_assign? (h : assign? columns taken names = some places) :
    Places taken columns names places := by
  induction names generalizing taken places with
  | nil =>
    cases h
    exact ⟨List.nodup_nil, .nil⟩
  | cons name names ih =>
    obtain ⟨i, hi, h⟩ := Option.bind_eq_some_iff.1 h
    obtain ⟨is, his, h⟩ := Option.bind_eq_some_iff.1 h
    cases h
    exact places_cons.2 ⟨mem_free_of_find? hi, ih his⟩

/-- Where all names have different places, none has more bearers than free places. -/
theorem countP_le_of_places (h : Places taken columns names places) (name : String) :
    names.countP (Text.sameName · name) ≤ (free taken columns name).card := by
  induction names generalizing taken places with
  | nil => simp
  | cons head names ih =>
    obtain ⟨i, places, -, -, rfl⟩ := List.forall₂_cons_left_iff.1 h.2
    obtain ⟨hi, hrest⟩ := places_cons.1 h
    obtain ⟨hfree, n, hn, hname⟩ := mem_free.1 hi
    have hih := ih hrest
    have hcard := card_free_cons hfree hn name
    -- either the column and the name in front are both the same as `name`, or both are not
    rw [Text.sameName_congr hname] at hcard
    rw [List.countP_cons]
    omega

/-- **Names find their places one after the other** if none has more bearers than free places. -/
theorem exists_assign? (h : ∀ name, names.countP (Text.sameName · name) ≤
    (free taken columns name).card) : ∃ places, assign? columns taken names = some places := by
  induction names generalizing taken with
  | nil => exact ⟨[], rfl⟩
  | cons head names ih =>
    cases hfind : find? taken columns head with
    | none =>
      have hhead := h head
      have hsame : Text.sameName head head = true := Text.sameName_iff.2 rfl
      simp [free_eq_empty_of_find? hfind, hsame] at hhead
    | some i =>
      obtain ⟨hfree, n, hn, hname⟩ := mem_free.1 (mem_free_of_find? hfind)
      obtain ⟨is, his⟩ : ∃ is, assign? columns (i :: taken) names = some is := by
        refine ih fun name => ?_
        have hle := h name
        have hcard := card_free_cons hfree hn name
        rw [Text.sameName_congr hname] at hcard
        rw [List.countP_cons] at hle
        omega
      exact ⟨i :: is,
          Option.bind_eq_some_iff.2 ⟨i, hfind, Option.bind_eq_some_iff.2 ⟨is, his, rfl⟩⟩⟩

/-- Names find their places one after the other just if none has more bearers than places. -/
theorem exists_assign?_iff : (∃ places, assign? columns [] names = some places) ↔
    ∀ name, names.countP (Text.sameName · name) ≤ columns.countP (Text.sameName · name) := by
  constructor
  · rintro ⟨places, h⟩ name
    rw [← card_free_nil columns]
    exact countP_le_of_places (places_of_assign? h) name
  · intro h
    refine exists_assign? fun name => ?_
    rw [card_free_nil]
    exact h name

/-- There are different places for all names just if none has more bearers than places. -/
theorem exists_places_iff : (∃ places, Places [] columns names places) ↔
    ∀ name, names.countP (Text.sameName · name) ≤ columns.countP (Text.sameName · name) := by
  constructor
  · rintro ⟨places, h⟩ name
    rw [← card_free_nil columns]
    exact countP_le_of_places h name
  · intro h
    obtain ⟨places, hplaces⟩ := exists_assign?_iff.2 h
    exact ⟨places, places_of_assign? hplaces⟩

end Places

/-! ### The constructor with the most parameters -/

section Choice

variable {α : Type} {columns : List String} {c : Constructor α}

/-- For every name, the columns have at least as many bearers, up to case, as the parameters. -/
def Fits (columns : List String) (c : Constructor α) : Prop :=
  ∀ name, c.params.countP (fun param => Text.sameName param.name name) ≤
    columns.countP (Text.sameName · name)

/-- A constructor fits just if there are different columns for its parameters. -/
theorem fits_iff_exists_places :
    Fits columns c ↔ ∃ places, Places [] columns (c.params.map (·.name)) places := by
  rw [exists_places_iff]
  simp only [List.countP_map]
  rfl

theorem exists_complete?_iff : (∃ choice, complete? columns c = some choice) ↔ Fits columns c := by
  rw [fits_iff_exists_places, exists_places_iff, ← exists_assign?_iff]
  constructor
  · rintro ⟨choice, h⟩
    obtain ⟨places, hplaces, -⟩ := Option.map_eq_some_iff.1 h
    exact ⟨places, hplaces⟩
  · rintro ⟨places, hplaces⟩
    exact ⟨(c, places), Option.map_eq_some_iff.2 ⟨places, hplaces, rfl⟩⟩

theorem exists_split_of_foldl_better {best choice : Choice α} {candidates : List (Choice α)}
    (h : candidates.foldl better (some best) = some choice) :
    ∃ left right, best :: candidates = left ++ choice :: right ∧
      (∀ a ∈ left, a.1.params.length < choice.1.params.length) ∧
      ∀ a ∈ right, a.1.params.length ≤ choice.1.params.length := by
  induction candidates generalizing best with
  | nil =>
    cases h
    exact ⟨[], [], rfl, by simp, by simp⟩
  | cons candidate candidates ih =>
    rw [List.foldl_cons] at h
    by_cases hlt : best.1.params.length < candidate.1.params.length
    · rw [show better (some best) candidate = some candidate from if_pos hlt] at h
      obtain ⟨left, right, hsplit, hleft, hright⟩ := ih h
      refine ⟨best :: left, right, by rw [hsplit]; rfl, ?_, hright⟩
      refine List.forall_mem_cons.2 ⟨?_, hleft⟩
      -- the candidate is the choice itself, or smaller than it
      cases left with
      | nil =>
        obtain ⟨rfl, -⟩ := List.cons.inj hsplit
        exact hlt
      | cons head left =>
        obtain ⟨rfl, -⟩ := List.cons.inj hsplit
        exact hlt.trans (hleft _ List.mem_cons_self)
    · rw [show better (some best) candidate = some best from if_neg hlt] at h
      obtain ⟨left, right, hsplit, hleft, hright⟩ := ih h
      cases left with
      | nil =>
        obtain ⟨rfl, rfl⟩ := List.cons.inj hsplit
        exact ⟨[], candidate :: candidates, rfl, by simp,
          List.forall_mem_cons.2 ⟨Nat.le_of_not_lt hlt, hright⟩⟩
      | cons head left =>
        obtain ⟨rfl, rfl⟩ := List.cons.inj hsplit
        obtain ⟨hbest, hleft⟩ := List.forall_mem_cons.1 hleft
        refine ⟨best :: candidate :: left, right, rfl, ?_, hright⟩
        refine List.forall_mem_cons.2 ⟨hbest, List.forall_mem_cons.2 ⟨?_, hleft⟩⟩
        omega

/-- The constructor is the first one of those that fit with the most parameters, and its parameters
have different columns, each of its own name up to case. -/
structure Chosen (columns : List String) (constructors : List (Constructor α))
    (c : Constructor α) (places : List Nat) : Prop where
  /-- It fits. -/
  fits : Fits columns c
  /-- Those that fit have fewer parameters if they come before it, and not more behind it. -/
  first : ∃ before after, constructors = before ++ c :: after ∧
    (∀ d ∈ before, Fits columns d → d.params.length < c.params.length) ∧
    ∀ d ∈ after, Fits columns d → d.params.length ≤ c.params.length
  /-- Its columns are different ones. -/
  nodup : places.Nodup
  /-- Each of them has the name of its parameter up to case. -/
  sameName : List.Forall₂ (fun param i => ∃ column, columns[i]? = some column ∧
    Text.sameName column param.name = true) c.params places

theorem chosen_of_choose? {constructors : List (Constructor α)} {places : List Nat}
    (h : choose? columns constructors = some (c, places)) :
    Chosen columns constructors c places := by
  unfold choose? at h
  cases hcandidates : constructors.filterMap (complete? columns) with
  | nil =>
    rw [hcandidates] at h
    cases h
  | cons best candidates =>
    rw [hcandidates] at h
    obtain ⟨left, right, hsplit, hleft, hright⟩ := exists_split_of_foldl_better h
    obtain ⟨front, rest, rfl, hfront, hrest⟩ :=
      List.filterMap_eq_append_iff.1 (hcandidates.trans hsplit)
    obtain ⟨unfit, d, after, rfl, hunfit, hd, hafter⟩ := List.filterMap_eq_cons_iff.1 hrest
    obtain ⟨places, hplaces, heq⟩ := Option.map_eq_some_iff.1 hd
    cases heq
    -- a constructor that fits is among the candidates, with its columns
    have hcandidate {e : Constructor α} (he : Fits columns e) :
        ∃ is, complete? columns e = some (e, is) := by
      obtain ⟨choice, hchoice⟩ := exists_complete?_iff.2 he
      obtain ⟨is, -, rfl⟩ := Option.map_eq_some_iff.1 hchoice
      exact ⟨is, hchoice⟩
    obtain ⟨hnodup, hsame⟩ := places_of_assign? hplaces
    refine ⟨exists_complete?_iff.1 ⟨_, hd⟩, ⟨front ++ unfit, after, ?_, ?_, ?_⟩, hnodup, ?_⟩
    · rw [List.append_assoc]
    · intro e he hfits
      obtain ⟨is, his⟩ := hcandidate hfits
      rcases List.mem_append.1 he with he | he
      · exact hleft (e, is) (hfront ▸ List.mem_filterMap.2 ⟨e, he, his⟩)
      · rw [hunfit e he] at his
        cases his
    · intro e he hfits
      obtain ⟨is, his⟩ := hcandidate hfits
      exact hright (e, is) (hafter ▸ List.mem_filterMap.2 ⟨e, he, his⟩)
    · rw [List.forall₂_map_left_iff] at hsame
      exact hsame.imp fun param i hi => (mem_free.1 hi).2

theorem choose?_eq_none_iff {constructors : List (Constructor α)} :
    choose? columns constructors = none ↔ ∀ c ∈ constructors, ¬Fits columns c := by
  have hnone : choose? columns constructors = none ↔
      constructors.filterMap (complete? columns) = [] := by
    unfold choose?
    cases constructors.filterMap (complete? columns) with
    | nil => simp
    | cons best candidates =>
      have hsome : ∀ best : Choice α, candidates.foldl better (some best) ≠ none := by
        induction candidates with
        | nil => simp
        | cons candidate candidates ih =>
          intro best
          rw [List.foldl_cons, better]
          split <;> exact ih _
      exact iff_of_false (hsome best) (List.cons_ne_nil _ _)
  rw [hnone, List.filterMap_eq_nil_iff]
  refine forall₂_congr fun c _ => ?_
  rw [← exists_complete?_iff, not_exists, Option.eq_none_iff_forall_ne_some]

end Choice

end Matching

/-! ### What objects are made by -/

namespace Layout

variable {α : Type} {v : RowView} {handlers : Handlers} {start length : Nat} {firstMissing : Bool}
  {composite : Composite α}

/-- How an object is made before its members are set: by the constructor that is chosen, from the
columns at its places, or else by the one without parameters. -/
def InitialBy (v : RowView) (handlers : Handlers) (start : Nat) (composite : Composite α) :
    Option (Matching.Choice α) → (RowView → Except Error α) → Prop
  | some (c, places), initial => ∃ args : List Binding,
    List.Forall₂ (fun e b => Binding.plan v handlers (start + e.2) e.1.info = .ok b)
      (c.params.zip places) args ∧
      initial = fun row => do c.build (← args.mapM (·.read row))
  | none, initial => ∃ object, composite.default? = some object ∧ initial = fun _ => object

/-- The row function makes objects by the constructor that is chosen, and then sets their members,
each from its column.  Columns and members are given by their places. -/
def MadeBy (v : RowView) (handlers : Handlers) (start length : Nat) (firstMissing : Bool)
    (composite : Composite α) (choice : Option (Matching.Choice α)) (pairs : List (Nat × Nat))
    (f : RowFn α) : Prop :=
  ∃ initial members, InitialBy v handlers start composite choice initial ∧
    List.Forall₂ (fun pair m => composite.members[pair.2]? = some m.2 ∧
      Binding.plan v handlers (start + pair.1) m.2.info = .ok m.1) pairs members ∧
    f = unlessFirstIsNull start length firstMissing fun row => do
      setMembers row (← initial row) members

theorem initialBy_of_buildInitial {columns : List String} {choice : Option (Matching.Choice α)}
    {initial : RowView → Except Error α}
    (h : buildInitial v handlers start composite columns choice = .ok initial) :
    InitialBy v handlers start composite choice initial := by
  cases choice with
  | none =>
    simp only [buildInitial] at h
    cases hdefault : composite.default? with
    | none =>
      rw [hdefault] at h
      cases h
    | some object =>
      rw [hdefault] at h
      cases h
      exact ⟨object, hdefault, rfl⟩
  | some choice =>
    obtain ⟨c, places⟩ := choice
    obtain ⟨args, hargs, h⟩ := bind_eq_ok.1 h
    cases h
    exact ⟨args, forall₂_of_mapM_eq_ok hargs, rfl⟩

theorem forall₂_members {pairs : List (Nat × Nat)} {members : List (Binding × Member α)}
    (hpairs : ∀ pair ∈ pairs, ∃ member, composite.members[pair.2]? = some member)
    (h : (pairs.filterMap fun e => composite.members[e.2]?.map (e.1, ·)).mapM (fun e => do
      return ((← Binding.plan v handlers (start + e.1) e.2.info), e.2)) = .ok members) :
    List.Forall₂ (fun pair m => composite.members[pair.2]? = some m.2 ∧
      Binding.plan v handlers (start + pair.1) m.2.info = .ok m.1) pairs members := by
  induction pairs generalizing members with
  | nil =>
    cases h
    exact .nil
  | cons pair pairs ih =>
    obtain ⟨⟨member, hmember⟩, hpairs⟩ := List.forall_mem_cons.1 hpairs
    rw [List.filterMap_cons_some (b := (pair.1, member)) (by rw [hmember]; rfl),
      List.mapM_cons] at h
    obtain ⟨m, hm, h⟩ := bind_eq_ok.1 h
    obtain ⟨ms, hms, h⟩ := bind_eq_ok.1 h
    cases h
    obtain ⟨binding, hbinding, hm⟩ := bind_eq_ok.1 hm
    cases hm
    exact .cons ⟨hmember, hbinding⟩ (ih hpairs hms)

/-- What is built makes objects by the constructor that is chosen for the names of the columns, and
sets the members that are matched to what the constructor leaves over. -/
theorem madeBy_of_buildNamed {f : RowFn α}
    (h : buildNamed v handlers start length firstMissing composite = .ok f) :
    let columns := (List.range' start length).map v.name
    let choice := Matching.choose? columns composite.constructors
    MadeBy v handlers start length firstMissing composite choice
      (Matching.assignMembers (composite.members.map (·.name)) ((choice.map (·.2)).getD []) []
        columns.zipIdx) f := by
  intro columns choice
  obtain ⟨initial, hinitial, h⟩ := bind_eq_ok.1 h
  obtain ⟨members, hmembers, h⟩ := bind_eq_ok.1 h
  cases h
  refine ⟨initial, members, initialBy_of_buildInitial hinitial, forall₂_members ?_ hmembers, rfl⟩
  intro pair hpair
  obtain ⟨-, -, name, -, hname, -⟩ := Matching.of_mem_assignMembers hpair
  rw [List.getElem?_map] at hname
  obtain ⟨member, hmember, -⟩ := Option.map_eq_some_iff.1 hname
  exact ⟨member, hmember⟩

/-- **The choice of a constructor is complete.**  For a range of columns, the first constructor is
chosen of those with the most parameters that fit, none just if none fits, and a constructor fits
just if there are different columns for its parameters at all.  What is built for the range makes
its objects by the constructor that is chosen, from its columns. -/
theorem constructor_chosen (composite : Composite α) (v : RowView) (handlers : Handlers)
    (start length : Nat) (firstMissing : Bool) (schema : SchemaId) :
    let columns := (List.range' start length).map v.name
    let choice := Matching.choose? columns composite.constructors
    (∀ c places, choice = some (c, places) →
      Matching.Chosen columns composite.constructors c places) ∧
    (choice = none ↔ ∀ c ∈ composite.constructors, ¬Matching.Fits columns c) ∧
    (∀ c : Constructor α, Matching.Fits columns c ↔
      ∃ places, Matching.Places [] columns (c.params.map (·.name)) places) ∧
    ∀ f, (Layout.named composite).build v handlers start length firstMissing schema = .ok f →
      ∃ pairs, MadeBy v handlers start length firstMissing composite choice pairs f :=
  ⟨fun _ _ => Matching.chosen_of_choose?, Matching.choose?_eq_none_iff,
    fun _ => Matching.fits_iff_exists_places, fun _ h => ⟨_, madeBy_of_buildNamed h⟩⟩

/-- Three parameters whose names differ in case only: each of the first two takes the column of
exactly its name, and the third one what is left over. -/
theorem constructor_chosen_of_cases :
    let ofNames (names : List String) : Constructor (List Value) :=
      ⟨names.map fun name => ⟨name, .any⟩, .ok⟩
    let composite : Composite (List Value) :=
      { typeId := .declared "Multi"
        constructors :=
          [["b"], ["c", "c", "c", "c"], ["c", "C", "c"], ["a", "C", "c"]].map ofNames }
    let v : RowView := ⟨5, fun i => ["b", "C", "c", "C", "A"].getD i "", fun _ => .i64,
      fun i => .ok (.signed (Int64.ofNat i))⟩
    let columns := (List.range' 1 4).map v.name
    ∃ c, Matching.choose? columns composite.constructors = some (c, [1, 0, 2]) ∧
      c.params.map (·.name) = ["c", "C", "c"] ∧
      Matching.Chosen columns composite.constructors c [1, 0, 2] ∧
      ¬Matching.Fits columns (ofNames ["c", "c", "c", "c"]) ∧
      ∃ f pairs, (Layout.named composite).build v .empty 1 4 true ⟨0⟩ = .ok f ∧
        MadeBy v .empty 1 4 true composite (some (c, [1, 0, 2])) pairs f := by
  intro ofNames composite v columns
  have hnames : (Matching.choose? columns composite.constructors).map
      (fun choice => (choice.1.params.map (·.name), choice.2)) =
        some (["c", "C", "c"], [1, 0, 2]) := by decide +kernel
  obtain ⟨⟨c, places⟩, hchoice, heq⟩ := Option.map_eq_some_iff.1 hnames
  obtain ⟨hparams, rfl⟩ := Prod.mk.inj heq
  obtain ⟨hchosen, -, -, hbuild⟩ := constructor_chosen composite v .empty 1 4 true ⟨0⟩
  have hok : ((Layout.named composite).build v .empty 1 4 true ⟨0⟩).toOption.isSome = true := by
    decide +kernel
  obtain ⟨f, hf⟩ := exists_eq_ok hok
  obtain ⟨pairs, hpairs⟩ := hbuild f hf
  exact ⟨c, hchoice, hparams, hchosen _ _ hchoice, fun h => absurd (h "c") (by decide), f, pairs,
    hf, hchoice ▸ hpairs⟩

end Layout

end RowMapping
