import Mathlib.Data.List.Induction
import RowMapping.Proofs.Template.BoundNames

/-!
# Names of parameters

Parameters are named by the caller, or pushed and then named for their place.  To bind a name that
is there already puts the new value in its place, so that no two parameters have one name.  To push
does not look for the name, and the caller may have taken it before.

* `Params.Naming.names_apply`: binding a name adds it unless it is there;
* `Params.name_cases`: where the name of a parameter comes from;
* `Params.eq_positionName_of_sameName`: of two parameters of one name, the later one was pushed;
* `Params.names_unique_iff`: all names are different iff nobody takes the name of a parameter that
  is pushed later, and what is then found under a name.
-/

namespace RowMapping

namespace Params

/-- A call that names a parameter. -/
inductive Naming where
  /-- A name is bound to a single value. -/
  | bind (name : String) (v : Value)
  /-- A name is bound to a list. -/
  | bindList (name : String) (vs : List Value)
  /-- A name is bound. -/
  | set (name : String) (v : ParamValue)

namespace Naming

/-- The name in a call, without the markers in front. -/
def name : Naming → String
  | bind name _ | bindList name _ | set name _ => bareName name

/-- What a call binds. -/
def value : Naming → ParamValue
  | bind _ v => .scalar v
  | bindList _ vs => .list vs
  | set _ v => v

/-- The parameters after a call. -/
def apply (p : Params) : Naming → Params
  | bind name v => p.bind name v
  | bindList name vs => p.bindList name vs
  | set name v => p.set name v

end Naming

/-- One step of building parameters. -/
inductive Step where
  /-- A parameter is named. -/
  | name (naming : Naming)
  /-- A parameter is added for the next place. -/
  | push (v : Value)

/-- The step names a parameter so, up to case. -/
def Step.names (name : String) : Step → Bool
  | .name naming => Text.sameName naming.name name
  | .push _ => false

/-- The parameters after a step. -/
def after (p : Params) : Step → Params
  | .name naming => naming.apply p
  | .push v => p.push v

/-- The parameters that steps build, one after the other. -/
def run (steps : List Step) : Params := steps.foldl after empty

theorem run_concat (steps : List Step) (step : Step) :
    run (steps ++ [step]) = (run steps).after step := by
  simp [run]

/-- The name that a parameter gets when it is pushed to a place. -/
def positionName (i : Nat) : String := "p" ++ Text.natText i

theorem eq_of_sameName_positionName {i j : Nat}
    (h : Text.sameName (positionName i) (positionName j) = true) : i = j := by
  have hfold (n : Nat) : Text.fold (positionName n) = 'p' :: Nat.toDigits 10 n := by
    rw [← Text.fold_natText, positionName, Text.fold, String.toList_append, List.map_append]
    rfl
  have hcons := Text.sameName_iff.1 h
  rw [hfold, hfold] at hcons
  exact Text.toDigits_inj (List.cons.inj hcons).2

/-! ### The names -/

/-- The names of parameters, in their order. -/
def names (p : Params) : List String := p.entries.map Prod.fst

variable {p : Params} {steps : List Step} {i j : Nat} {name other : String}

theorem length_names (p : Params) : p.names.length = p.size := List.length_map ..

theorem keys_eq_map_names (p : Params) : keys p.entries = p.names.map Text.fold := by
  rw [names, List.map_map]
  rfl

theorem names_put (name : String) (v : ParamValue) (es : List (String × ParamValue)) :
    (put name v es).map Prod.fst =
      if (es.map Prod.fst).any (Text.sameName · name) then es.map Prod.fst
      else es.map Prod.fst ++ [name] := by
  induction es with
  | nil => rfl
  | cons e es ih =>
    unfold put
    cases hname : Text.sameName e.1 name with
    | true => simp only [hname, if_true, List.map_cons, List.any_cons, Bool.true_or]
    | false =>
      simp only [hname, Bool.false_eq_true, if_false, List.map_cons, List.any_cons, Bool.false_or,
        ih, List.cons_append]
      split <;> rfl

theorem Naming.apply_eq (naming : Naming) (p : Params) :
    naming.apply p = ⟨put naming.name naming.value p.entries⟩ := by
  cases naming <;> rfl

/-- **Binding a name** adds it behind the others, unless it is there already. -/
theorem Naming.names_apply (naming : Naming) (p : Params) :
    (naming.apply p).names =
      if p.names.any (Text.sameName · naming.name) then p.names else p.names ++ [naming.name] := by
  rw [naming.apply_eq]
  exact names_put ..

theorem names_push (v : Value) : (p.push v).names = p.names ++ [positionName p.size] :=
  List.map_append

/-- What a step does to the names: nothing, or one more name comes behind the others.  It is that of
its place, or one that the step gives and that is not there yet. -/
theorem names_after_cases (p : Params) (step : Step) :
    (p.after step).names = p.names ∨
      ∃ new, (p.after step).names = p.names ++ [new] ∧
        (new = positionName p.names.length ∨
          step.names new = true ∧ ∀ old ∈ p.names, Text.sameName old new = false) := by
  cases step with
  | push v => exact .inr ⟨_, names_push v, .inl (by rw [length_names])⟩
  | name naming =>
    rw [after, naming.names_apply]
    split
    · exact .inl rfl
    · rename_i hnone
      refine .inr ⟨naming.name, rfl, .inr ⟨Text.sameName_iff.2 rfl, fun old hold => ?_⟩⟩
      exact Bool.eq_false_iff.2 fun hsame => hnone (List.any_eq_true.2 ⟨old, hold, hsame⟩)

theorem names_prefix_run (steps rest : List Step) :
    (run steps).names <+: (run (steps ++ rest)).names := by
  induction rest using List.reverseRecOn with
  | nil => exact (List.append_nil steps).symm ▸ List.prefix_rfl
  | append_singleton rest step ih =>
    rw [← List.append_assoc, run_concat]
    refine ih.trans ?_
    obtain hsame | ⟨new, hnew, -⟩ := names_after_cases (run (steps ++ rest)) step
    · exact hsame ▸ List.prefix_rfl
    · rw [hnew]
      exact List.prefix_append ..

theorem names_concat_prefix_run (before rest : List Step) (v : Value) :
    (run before).names ++ [positionName (run before).size] <+:
      (run (before ++ .push v :: rest)).names := by
  have h := names_prefix_run (before ++ [.push v]) rest
  rw [run_concat, after, names_push, List.append_assoc] at h
  exact h

/-! ### Where names come from -/

theorem getElem?_concat_eq_some_iff {α : Type} {xs : List α} {x y : α} :
    (xs ++ [x])[i]? = some y ↔ xs[i]? = some y ∨ i = xs.length ∧ x = y := by
  rw [List.getElem?_append]
  split
  · rename_i hi
    exact ⟨.inl, fun h => h.elim id fun h => absurd h.1 hi.ne⟩
  · rename_i hi
    rw [List.getElem?_eq_none (Nat.le_of_not_lt hi), List.getElem?_singleton]
    split
    · have hlast : i = xs.length := by omega
      simp [hlast]
    · exact iff_of_false nofun fun h => h.elim nofun fun h => by omega

/-- **The name of a parameter** was given by a step, or the parameter was pushed to its place. -/
theorem name_cases (h : (run steps).names[i]? = some name) :
    (∃ step ∈ steps, step.names name = true) ∨ name = positionName i := by
  induction steps using List.reverseRecOn generalizing i with
  | nil => cases h
  | append_singleton steps step ih =>
    have hold (h : (run steps).names[i]? = some name) :
        (∃ step' ∈ steps ++ [step], step'.names name = true) ∨ name = positionName i :=
      (ih h).imp_left fun ⟨step', hmem, hname⟩ => ⟨step', List.mem_append_left _ hmem, hname⟩
    rw [run_concat] at h
    obtain hsame | ⟨new, hnew, horigin⟩ := names_after_cases (run steps) step
    · exact hold (hsame ▸ h)
    · rw [hnew, getElem?_concat_eq_some_iff] at h
      obtain h | ⟨rfl, rfl⟩ := h
      · exact hold h
      · rcases horigin with hposition | ⟨hname, -⟩
        · exact .inr hposition
        · exact .inl ⟨step, List.mem_append_right _ List.mem_cons_self, hname⟩

/-- **Of two parameters of one name** the later one was pushed. -/
theorem eq_positionName_of_sameName (hlt : i < j) (hi : (run steps).names[i]? = some name)
    (hj : (run steps).names[j]? = some other) (hsame : Text.sameName name other = true) :
    other = positionName j := by
  induction steps using List.reverseRecOn generalizing j with
  | nil => cases hj
  | append_singleton steps step ih =>
    rw [run_concat] at hi hj
    obtain hkept | ⟨new, hnew, horigin⟩ := names_after_cases (run steps) step
    · rw [hkept] at hi hj
      exact ih hlt hi hj
    · rw [hnew, getElem?_concat_eq_some_iff] at hi hj
      have hi : (run steps).names[i]? = some name := by
        refine hi.resolve_right fun ⟨hlast, _⟩ => ?_
        obtain hj | ⟨hlast', -⟩ := hj
        · exact absurd (List.getElem?_eq_some_iff.1 hj).1 (by omega)
        · omega
      obtain hj | ⟨rfl, rfl⟩ := hj
      · exact ih hlt hi hj
      · refine horigin.resolve_right fun ⟨_, hnone⟩ => ?_
        rw [hnone name (List.mem_of_getElem? hi)] at hsame
        cases hsame

/-! ### Names that are taken -/

theorem Step.names_congr {step : Step} (h : step.names name = true)
    (hsame : Text.sameName name other = true) : step.names other = true := by
  cases step with
  | push v => cases h
  | name naming =>
    exact Text.sameName_iff.2 ((Text.sameName_iff.1 h).trans (Text.sameName_iff.1 hsame))

theorem exists_mem_names_of_step {step : Step} (hmem : step ∈ steps) (h : step.names name = true) :
    ∃ old ∈ (run steps).names, Text.sameName old name = true := by
  obtain ⟨before, rest, rfl⟩ := List.append_of_mem hmem
  have hprefix := names_prefix_run (before ++ [step]) rest
  rw [run_concat, List.append_assoc, List.singleton_append] at hprefix
  cases step with
  | push v => cases h
  | name naming =>
    suffices hold : ∃ old ∈ (naming.apply (run before)).names,
        Text.sameName old naming.name = true by
      obtain ⟨old, hold, hsame⟩ := hold
      exact ⟨old, hprefix.subset hold,
        Text.sameName_iff.2 ((Text.sameName_iff.1 hsame).trans (Text.sameName_iff.1 h))⟩
    rw [naming.names_apply]
    split
    · rename_i hany
      exact List.any_eq_true.1 hany
    · exact ⟨naming.name, List.mem_append_right _ List.mem_cons_self, Text.sameName_iff.2 rfl⟩

/-- **The name of the next place is taken** just if a step has named it: no place before has it. -/
theorem exists_mem_names_iff :
    (∃ old ∈ (run steps).names, Text.sameName old (positionName (run steps).size) = true) ↔
      ∃ step ∈ steps, step.names (positionName (run steps).size) = true := by
  constructor
  · rintro ⟨old, hold, hsame⟩
    obtain ⟨i, hi⟩ := List.getElem?_of_mem hold
    obtain ⟨step, hmem, hname⟩ | rfl := name_cases hi
    · exact ⟨step, hmem, Step.names_congr hname hsame⟩
    · have hsize := eq_of_sameName_positionName hsame
      have hlt := (List.getElem?_eq_some_iff.1 hi).1
      rw [length_names] at hlt
      omega
  · rintro ⟨step, hmem, hname⟩
    exact exists_mem_names_of_step hmem hname

/-- Nobody has taken the name of a parameter that is pushed. -/
def PushesFree (steps : List Step) : Prop :=
  ∀ before v rest, steps = before ++ .push v :: rest →
    ∀ step ∈ before, step.names (positionName (run before).size) = false

theorem fold_notMem_keys_iff :
    Text.fold (positionName p.size) ∉ keys p.entries ↔
      ¬∃ old ∈ p.names, Text.sameName old (positionName p.size) = true := by
  simp only [keys_eq_map_names, List.mem_map, Text.sameName_iff]

theorem nodup_keys_push_iff (v : Value) :
    (keys (p.push v).entries).Nodup ↔ (keys p.entries).Nodup ∧
      ¬∃ old ∈ p.names, Text.sameName old (positionName p.size) = true := by
  rw [← fold_notMem_keys_iff, keys_eq_map_names, names_push, List.map_append, List.map_singleton,
    ← List.concat_eq_append, List.nodup_concat, ← keys_eq_map_names, and_comm]

/-- **All names are different** just if the name of every pushed parameter was free. -/
theorem nodup_keys_run_iff : (keys (run steps).entries).Nodup ↔ PushesFree steps := by
  constructor
  · rintro h before v rest rfl step hmem
    rw [Bool.eq_false_iff]
    intro hname
    have hnodup : (keys ((run before).push v).entries).Nodup := by
      rw [keys_eq_map_names] at h ⊢
      rw [names_push]
      exact h.sublist ((names_concat_prefix_run before rest v).sublist.map _)
    exact ((nodup_keys_push_iff v).1 hnodup).2 (exists_mem_names_iff.2 ⟨step, hmem, hname⟩)
  · intro hfree
    induction steps using List.reverseRecOn with
    | nil => exact List.nodup_nil
    | append_singleton steps step ih =>
      have ih := ih fun before v rest h => hfree before v (rest ++ [step]) (by simp [h])
      rw [run_concat]
      cases step with
      | name naming =>
        rw [after, naming.apply_eq]
        exact nodup_keys_put ih _ _
      | push v =>
        refine (nodup_keys_push_iff v).2 ⟨ih, fun htaken => ?_⟩
        obtain ⟨step, hmem, hname⟩ := exists_mem_names_iff.1 htaken
        rw [hfree steps v [] rfl step hmem] at hname
        cases hname

/-! ### What is found under a name -/

theorem find?_of_mem {es : List (String × ParamValue)} (h : (keys es).Nodup)
    {e : String × ParamValue} (he : e ∈ es) : es.find? (Text.sameName ·.1 e.1) = some e := by
  induction es with
  | nil => cases he
  | cons other es ih =>
    obtain ⟨hhead, htail⟩ := List.nodup_cons.1 h
    rcases List.mem_cons.1 he with rfl | he
    · exact List.find?_cons_of_pos (Text.sameName_iff.2 rfl)
    · have hother : Text.sameName other.1 e.1 = false := Bool.eq_false_iff.2 fun hsame =>
        hhead (List.mem_map.2 ⟨e, he, (Text.sameName_iff.1 hsame).symm⟩)
      simp only [List.find?_cons, hother]
      exact ih htail he

theorem get?_of_mem (h : (keys p.entries).Nodup) {e : String × ParamValue} (he : e ∈ p.entries) :
    p.get? e.1 = some e.2 := by
  rw [get?, find?_of_mem h he, Option.map_some]

/-- **Names of parameters.**  After any steps, all names are different up to case iff no step names
the parameter that is pushed to a place before it is pushed.  If they are different, then every
parameter is found under its name.  In any case a parameter that is pushed is a new one behind the
others and keeps its place and its name, and another parameter of that name stands before it and was
named by a step before. -/
theorem names_unique_iff (steps : List Step) :
    let p := run steps
    ((keys p.entries).Nodup ↔ PushesFree steps) ∧
      ((keys p.entries).Nodup →
        ∀ (i : Nat) name v, p.entries[i]? = some (name, v) → p.get? name = some v) ∧
      ∀ before v rest, steps = before ++ .push v :: rest →
        let q := run before
        (q.push v).entries = q.entries ++ [(positionName q.size, .scalar v)] ∧
          p.names[q.size]? = some (positionName q.size) ∧
          ∀ (i : Nat) name, p.names[i]? = some name →
            Text.sameName name (positionName q.size) = true →
            i = q.size ∨ i < q.size ∧ ∃ step ∈ before, step.names (positionName q.size) = true := by
  intro p
  refine ⟨nodup_keys_run_iff, fun h i name v hi => get?_of_mem h (List.mem_of_getElem? hi), ?_⟩
  rintro before v rest rfl q
  obtain ⟨later, hlater⟩ := names_concat_prefix_run before rest v
  have hplace : p.names[q.size]? = some (positionName q.size) := by
    rw [← hlater, ← length_names, List.append_assoc, List.getElem?_append_right le_rfl,
      Nat.sub_self]
    rfl
  refine ⟨rfl, hplace, fun i name hi hsame => ?_⟩
  rcases Nat.lt_trichotomy i q.size with hlt | heq | hgt
  · refine .inr ⟨hlt, exists_mem_names_iff.1 ⟨name, ?_, hsame⟩⟩
    rw [← hlater, List.append_assoc, List.getElem?_append_left (by rwa [length_names])] at hi
    exact List.mem_of_getElem? hi
  · exact .inl heq
  · -- a later parameter of that name would have been pushed to its own place
    have hsame' : Text.sameName (positionName q.size) name = true :=
      Text.sameName_iff.2 (Text.sameName_iff.1 hsame).symm
    rw [eq_positionName_of_sameName hgt hplace hi hsame'] at hsame'
    exact .inl (eq_of_sameName_positionName hsame').symm

/-- A parameter that is named by the caller, one that is pushed, and a new value for the latter:
all names are different, and the new value is found. -/
theorem names_unique_iff_of_renamed :
    let steps : List Step :=
      [.name (.bind "@id" (.signed 7)), .push (.signed 5), .name (.bindList ":P1" [.null])]
    PushesFree steps ∧ (keys (run steps).entries).Nodup ∧
      (run steps).entries[1]? = some ("p1", .list [.null]) ∧
      (run steps).get? "p1" = some (.list [.null]) := by
  intro steps
  obtain ⟨hiff, hget, -⟩ := names_unique_iff steps
  have hnodup : (keys (run steps).entries).Nodup := by decide +kernel
  have hplace : (run steps).entries[1]? = some ("p1", .list [.null]) := by decide +kernel
  exact ⟨hiff.1 hnodup, hnodup, hplace, hget hnodup 1 _ _ hplace⟩

/-- The caller has taken the name of the parameter that is pushed to the second place: it is there
twice, and the pushed value is not found under it. -/
theorem pushed_name_taken :
    let p := run [.name (.bind "p1" (.signed 7)), .push (.signed 5)]
    ¬(keys p.entries).Nodup ∧ p.entries[1]? = some ("p1", .scalar (.signed 5)) ∧
      p.get? "p1" = some (.scalar (.signed 7)) := by
  decide +kernel

end Params

end RowMapping
