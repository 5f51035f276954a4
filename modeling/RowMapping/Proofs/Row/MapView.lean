import Mathlib.Data.List.NodupEquivFin
import Mathlib.Data.Nat.Find
import RowMapping.Proofs.Row.Contents

/-!
# Rows as maps

A row can be read by name, and it can be turned into a map of names and values.  Reading goes to the
first column of a name, whether or not it is set; the map has the first value that is set under a
name.  The two differ just where the first of several columns of one name is unset and a later one
is set.

* `Row.lookup_toMap`: the map has what comes first in the list of the row's pairs;
* `Row.lookup_toMap_eq_some_iff`: which is the value of the first column of that name that is set;
* `Row.lookup_toMap_eq_getByName?`: reading by name gives the same if the name occurs only once;
* `RowFamily.map_entries`: all of it, at any moment.
-/

namespace RowMapping

namespace Row

/-! ### Keeping the first value of a name -/

/-- The entries with one more, unless there is one of its name. -/
def keepFirst (m : List (String × Value)) (e : String × Value) : List (String × Value) :=
  if m.any (·.1 == e.1) then m else m ++ [e]

variable {m : List (String × Value)} {e : String × Value}

theorem isSome_lookup_of_any {name : String} (h : m.any (·.1 == name) = true) :
    (m.lookup name).isSome = true := by
  obtain ⟨e, he, hname⟩ := List.any_eq_true.1 h
  rw [Option.isSome_iff_ne_none]
  intro hnone
  exact absurd (BEq.comm.trans hname) (by simpa using List.lookup_eq_none_iff.1 hnone e he)

theorem lookup_keepFirst (m : List (String × Value)) (e : String × Value) (name : String) :
    (keepFirst m e).lookup name = (m.lookup name).or ([e].lookup name) := by
  unfold keepFirst
  split
  · rename_i hany
    by_cases hname : name = e.1
    · rw [hname, Option.or_of_isSome (isSome_lookup_of_any hany)]
    · have hnone : [e].lookup name = none := List.lookup_eq_none_iff.2 (by simpa using hname)
      rw [hnone, Option.or_none]
  · exact List.lookup_append

theorem lookup_foldl_keepFirst (pairs m : List (String × Value)) (name : String) :
    (pairs.foldl keepFirst m).lookup name = (m.lookup name).or (pairs.lookup name) := by
  induction pairs generalizing m with
  | nil => rw [List.foldl_nil, List.lookup_nil, Option.or_none]
  | cons e pairs ih =>
    rw [List.foldl_cons, ih, lookup_keepFirst, Option.or_assoc, ← List.lookup_append,
      List.singleton_append]

theorem nodup_keepFirst (h : (m.map Prod.fst).Nodup) (e : String × Value) :
    ((keepFirst m e).map Prod.fst).Nodup := by
  unfold keepFirst
  split
  · exact h
  · rename_i hany
    rw [List.map_append, List.map_singleton, ← List.concat_eq_append]
    refine h.concat fun hmem => hany ?_
    obtain ⟨other, hother, hname⟩ := List.mem_map.1 hmem
    exact List.any_eq_true.2 ⟨other, hother, beq_iff_eq.2 hname⟩

theorem nodup_foldl_keepFirst (pairs : List (String × Value)) (h : (m.map Prod.fst).Nodup) :
    ((pairs.foldl keepFirst m).map Prod.fst).Nodup := by
  induction pairs generalizing m with
  | nil => exact h
  | cons e pairs ih => exact ih (nodup_keepFirst h e)

/-! ### The first column that is set -/

/-- `v` is the value of the first column of a name that is set. -/
def FirstSet (names : List String) (cells : List (Option Value)) (name : String) (v : Value) :
    Prop :=
  ∃ i : Nat, names[i]? = some name ∧ cells[i]?.join = some v ∧
    ∀ j < i, names[j]? = some name → cells[j]?.join = none

variable {names : List String} {cells : List (Option Value)} {name other : String}
  {cell : Option Value} {v w : Value}

theorem firstSet_cons_self :
    FirstSet (name :: names) (some w :: cells) name v ↔ w = v := by
  constructor
  · rintro ⟨i, hname, hcell, hbefore⟩
    cases i with
    | zero => exact Option.some.inj hcell
    | succ i => exact absurd (hbefore 0 (by omega) rfl) (Option.some_ne_none w)
  · rintro rfl
    exact ⟨0, rfl, rfl, fun j hj => absurd hj (Nat.not_lt_zero j)⟩

theorem firstSet_cons_of_not (h : other = name → cell = none) :
    FirstSet (other :: names) (cell :: cells) name v ↔ FirstSet names cells name v := by
  constructor
  · rintro ⟨i, hname, hcell, hbefore⟩
    cases i with
    | zero =>
      have hcell : cell = some v := hcell
      rw [h (Option.some.inj hname)] at hcell
      cases hcell
    | succ i => exact ⟨i, hname, hcell, fun j hj => hbefore (j + 1) (by omega)⟩
  · rintro ⟨i, hname, hcell, hbefore⟩
    refine ⟨i + 1, hname, hcell, fun j hj hother => ?_⟩
    cases j with
    | zero => exact h (Option.some.inj hother)
    | succ j => exact hbefore j (by omega) hother

theorem lookup_pairs_eq_some_iff :
    ((names.zip cells).filterMap fun e => e.2.map (e.1, ·)).lookup name = some v ↔
      FirstSet names cells name v := by
  induction names generalizing cells with
  | nil => exact iff_of_false nofun (fun ⟨_, hname, _⟩ => nomatch hname)
  | cons other names ih =>
    cases cells with
    | nil => exact iff_of_false nofun (fun ⟨_, _, hcell, _⟩ => nomatch hcell)
    | cons cell cells =>
      rw [List.zip_cons_cons]
      cases cell with
      | none =>
        rw [List.filterMap_cons_none rfl, ih, firstSet_cons_of_not fun _ => rfl]
      | some w =>
        simp only [List.filterMap_cons, Option.map_some, List.lookup_cons]
        by_cases hname : name = other
        · rw [hname, firstSet_cons_self, beq_self_eq_true]
          exact Option.some_inj
        · rw [beq_eq_false_iff_ne.2 hname, firstSet_cons_of_not fun h => absurd h.symm hname]
          exact ih

/-- If some column of a name is set, then there is a first one. -/
theorem exists_firstSet_iff :
    (∃ v, FirstSet names cells name v) ↔
      ∃ i : Nat, names[i]? = some name ∧ cells[i]?.join.isSome = true := by
  constructor
  · rintro ⟨v, i, hname, hcell, -⟩
    exact ⟨i, hname, Option.isSome_of_eq_some hcell⟩
  · intro h
    obtain ⟨hname, hset⟩ := Nat.find_spec h
    obtain ⟨v, hv⟩ := Option.isSome_iff_exists.1 hset
    refine ⟨v, Nat.find h, hname, hv, fun j hj hother => ?_⟩
    rw [← Option.not_isSome_iff_eq_none]
    exact fun hcell => Nat.find_min h hj ⟨hother, hcell⟩

/-! ### The map of a row -/

variable {r : Row} {ss : Schemas}

/-- **The map has what comes first** among the pairs of a row. -/
theorem lookup_toMap (name : String) : (r.toMap ss).lookup name = (r.pairs ss).lookup name := by
  change ((r.pairs ss).foldl keepFirst []).lookup name = _
  rw [lookup_foldl_keepFirst, List.lookup_nil, Option.none_or]

theorem nodup_toMap : ((r.toMap ss).map Prod.fst).Nodup := nodup_foldl_keepFirst _ List.nodup_nil

theorem lookup_toMap_eq_some_iff :
    (r.toMap ss).lookup name = some v ↔ FirstSet (ss.get r.schema).names r.cells name v := by
  rw [lookup_toMap]
  exact lookup_pairs_eq_some_iff

theorem isSome_lookup_toMap_iff :
    ((r.toMap ss).lookup name).isSome = true ↔
      ∃ i, (ss.get r.schema).names[i]? = some name ∧ (r.get? i).isSome = true := by
  rw [Option.isSome_iff_exists]
  simp only [lookup_toMap_eq_some_iff]
  exact exists_firstSet_iff

/-! ### The map and reading by name -/

section ByName

variable (hindexed : (ss.get r.schema).columns.Indexed)
include hindexed

theorem lookup_toMap_of_getByName? (h : r.getByName? ss name = some v) :
    (r.toMap ss).lookup name = some v := by
  obtain ⟨i, hplace, hv⟩ := Option.bind_eq_some_iff.1 h
  obtain ⟨hname, hfirst⟩ := (Schema.indexOf?_eq_some_iff hindexed).1 hplace
  exact lookup_toMap_eq_some_iff.2 ⟨i, hname, hv, fun j hj hother => absurd hother (hfirst j hj)⟩

/-- **What is in the map is read by name**, if the name occurs only once. -/
theorem lookup_toMap_eq_getByName? (honce : ¬ List.Duplicate name (ss.get r.schema).names) :
    (r.toMap ss).lookup name = r.getByName? ss name := by
  refine Option.ext fun v => ⟨fun h => ?_, lookup_toMap_of_getByName? hindexed⟩
  obtain ⟨i, hname, hv, -⟩ := lookup_toMap_eq_some_iff.1 h
  refine Option.bind_eq_some_iff.2 ⟨i, ?_, hv⟩
  refine (Schema.indexOf?_eq_some_iff hindexed).2 ⟨hname, fun j hj hother => honce ?_⟩
  obtain ⟨hi, hname⟩ := List.getElem?_eq_some_iff.1 hname
  obtain ⟨hj', hother⟩ := List.getElem?_eq_some_iff.1 hother
  exact List.duplicate_iff_exists_distinct_get.2
    ⟨⟨j, hj'⟩, ⟨i, hi⟩, hj, hother.symm, hname.symm⟩

omit hindexed in
/-- What was removed by name is not read by name. -/
theorem getByName?_removeByName : (r.removeByName ss name).2.getByName? ss name = none := by
  cases hplace : (ss.get r.schema).indexOf? name with
  | none =>
    have hsame : (r.removeByName ss name).2 = r := by simp only [removeByName, hplace]
    rw [hsame, getByName?, hplace, Option.bind_none]
  | some i =>
    have hremoved : (r.removeByName ss name).2 = (r.remove i).2 := by
      simp only [removeByName, hplace]
    have hschema : (r.remove i).2.schema = r.schema := rfl
    rw [hremoved, getByName?, hschema, hplace, Option.bind_some, get?_remove, if_pos rfl]

omit hindexed in
theorem schema_removeByName : (r.removeByName ss name).2.schema = r.schema := by
  unfold removeByName
  split <;> rfl

end ByName

end Row

namespace RowFamily

/-- **The map of a row and reading it by name.**  After any history of a family, the map of a row
has one entry for each name of which some column is set, with the value of the first such column.
So the map has what is read by name, where the row contains something of that name.  For a name that
occurs only once in the schema, the map has an entry iff the row contains something of that name,
and none after the name was removed. -/
theorem map_entries (ss : Schemas) (names : List String) (events : List FamilyEvent) {k : Nat}
    {row : Row} (hrow : ((fresh ss names).run events).rows[k]? = some row) :
    let f := (fresh ss names).run events
    let map := row.toMap f.schemas
    (map.map Prod.fst).Nodup ∧
      (∀ name, (map.lookup name).isSome = true ↔
        ∃ i : Nat, f.schema.names[i]? = some name ∧ (row.get? i).isSome = true) ∧
      (∀ name v, map.lookup name = some v ↔
        ∃ i : Nat, f.schema.names[i]? = some name ∧ row.get? i = some v ∧
          ∀ j < i, f.schema.names[j]? = some name → row.get? j = none) ∧
      (∀ name, row.contains f.schemas name = true →
        map.lookup name = row.getByName? f.schemas name) ∧
      ∀ name, ¬ List.Duplicate name f.schema.names →
        ((map.lookup name).isSome = row.contains f.schemas name ∧
          map.lookup name = row.getByName? f.schemas name) ∧
          ((row.removeByName f.schemas name).2.toMap f.schemas).lookup name = none := by
  intro f map
  have h : f.Sound := (sound_fresh ss names).run events
  have hshared : row.schema = f.schemaId := h.shared row (List.mem_of_getElem? hrow)
  have hget : f.schemas.get row.schema = f.schema := by rw [hshared, schema]
  have hindexed : (f.schemas.get row.schema).columns.Indexed := hget ▸ h.indexed
  refine ⟨Row.nodup_toMap, fun name => ?_, fun name v => ?_, fun name hname => ?_,
    fun name honce => ?_⟩
  · rw [← hget]
    exact Row.isSome_lookup_toMap_iff
  · rw [← hget]
    exact Row.lookup_toMap_eq_some_iff
  · obtain ⟨v, hv⟩ := Option.isSome_iff_exists.1 hname
    rw [hv]
    exact Row.lookup_toMap_of_getByName? hindexed hv
  · rw [← hget] at honce
    have hlookup := Row.lookup_toMap_eq_getByName? hindexed honce
    refine ⟨⟨congrArg Option.isSome hlookup, hlookup⟩, ?_⟩
    have hschema : (row.removeByName f.schemas name).2.schema = row.schema :=
      Row.schema_removeByName
    rw [← hschema] at hindexed honce
    rw [Row.lookup_toMap_eq_getByName? hindexed honce, Row.getByName?_removeByName]

/-- A row with two columns of one name, both set, and a column that was added by it. -/
theorem map_entries_of_duplicate :
    let events : List FamilyEvent :=
      [.make [.signed 1, .text "a", .signed 2], .edit 0 (.setByName "tag" .null)]
    let f := (fresh {} ["id", "name", "id"]).run events
    ∃ row, f.rows[0]? = some row ∧
      (row.contains f.schemas "id" = true ∧
        (row.toMap f.schemas).lookup "id" = row.getByName? f.schemas "id" ∧
        row.getByName? f.schemas "id" = some (.signed 1)) ∧
      ¬ List.Duplicate "tag" f.schema.names ∧
        (row.toMap f.schemas).lookup "tag" = row.getByName? f.schemas "tag" ∧
        ((row.removeByName f.schemas "tag").2.toMap f.schemas).lookup "tag" = none := by
  intro events f
  have hrow : f.rows[0]? =
      some ⟨⟨0⟩, [some (.signed 1), some (.text "a"), some (.signed 2), some .null]⟩ := by
    decide +kernel
  obtain ⟨-, -, -, hread, honce⟩ := map_entries {} ["id", "name", "id"] events hrow
  have hid : Row.contains
      ⟨⟨0⟩, [some (.signed 1), some (.text "a"), some (.signed 2), some .null]⟩ f.schemas "id" =
        true := by
    decide +kernel
  have htag : ¬ List.Duplicate "tag" f.schema.names := by decide +kernel
  exact ⟨_, hrow, ⟨hid, hread "id" hid, by decide +kernel⟩, htag, (honce "tag" htag).1.2,
    (honce "tag" htag).2⟩

/-- A name whose first column was removed stays in the map if a later column of that name is set. -/
theorem map_keeps_removed_name :
    let f := (fresh {} ["id", "id"]).run
      [.make [.signed 1, .signed 2], .edit 0 (.removeByName "id")]
    ∃ row, f.rows[0]? = some row ∧ row.contains f.schemas "id" = false ∧
      row.getByName? f.schemas "id" = none ∧
      (row.toMap f.schemas).lookup "id" = some (.signed 2) := by
  intro f
  refine ⟨⟨⟨0⟩, [none, some (.signed 2)]⟩, ?_, ?_, ?_, ?_⟩ <;> decide +kernel

end RowFamily

end RowMapping
