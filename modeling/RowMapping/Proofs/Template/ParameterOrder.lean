import Mathlib.Data.Finset.Card
import RowMapping.Proofs.Template.Cutting
import RowMapping.Proofs.Template.ParameterNames
import RowMapping.Proofs.Text.Trimming

/-!
# The order of parameters

Parameters that are only named form a map: markers in front of a name and the case of its letters do
not count, and the entries stay in the order in which their names came first.

* `Params.names_named`: the names, as they were spelled at first;
* `Params.get?_named`: what is found under a name is what was last bound to it;
* `Params.named_entries`: all entries, their number, and what is found.
-/

namespace RowMapping

namespace Params

/-- Parameters after calls that name them. -/
def named (namings : List Naming) : Params := namings.foldl Naming.apply empty

/-- What the spellings of a name have in common: the name without markers in front, up to case. -/
def classOf (name : String) : List Char := Text.fold (bareName name)

/-- The class of the name in a call. -/
def Naming.key (naming : Naming) : List Char := Text.fold naming.name

/-- What was last bound to a name of the class. -/
def lastValue? (namings : List Naming) (key : List Char) : Option ParamValue :=
  (namings.reverse.find? fun naming => naming.key == key).map Naming.value

variable {p : Params} {namings : List Naming} {name k : String}

theorem named_concat (namings : List Naming) (naming : Naming) :
    named (namings ++ [naming]) = naming.apply (named namings) := by
  simp [named]

theorem foldl_apply_ofList (pairs : List (String × Value)) (namings : List Naming) :
    namings.foldl Naming.apply (ofList pairs) =
      named (pairs.map (fun pair => .bind pair.1 pair.2) ++ namings) := by
  rw [named, List.foldl_append, List.foldl_map]
  rfl

/-! ### Names -/

/-- **The names** are those of the calls, each as it was spelled at first. -/
theorem names_named (namings : List Naming) :
    (named namings).names = (namings.map Naming.name).eraseDupsBy Text.sameName := by
  induction namings using List.reverseRecOn with
  | nil => rfl
  | append_singleton namings naming ih =>
    have hsame : (Text.sameName · naming.name) = Text.sameName naming.name :=
      funext fun _ => BEq.comm
    rw [named_concat, naming.names_apply, ih, hsame, List.map_append, List.map_singleton,
      eraseDupsBy_concat]

theorem nodup_keys_named (namings : List Naming) : (keys (named namings).entries).Nodup := by
  induction namings using List.reverseRecOn with
  | nil => exact List.nodup_nil
  | append_singleton namings naming ih =>
    rw [named_concat, naming.apply_eq]
    exact nodup_keys_put ih _ _

theorem size_named (namings : List Naming) :
    (named namings).size = (namings.map Naming.key).toFinset.card := by
  have hkeys : (keys (named namings).entries).toFinset = (namings.map Naming.key).toFinset := by
    ext key
    rw [keys_eq_map_names, names_named, List.mem_toFinset, List.mem_toFinset, List.mem_map,
      List.mem_map]
    constructor
    · rintro ⟨name, hname, rfl⟩
      obtain ⟨naming, hnaming, rfl⟩ := List.mem_map.1 (mem_of_mem_eraseDupsBy hname)
      exact ⟨naming, hnaming, rfl⟩
    · rintro ⟨naming, hnaming, rfl⟩
      obtain ⟨name, hname, hsame⟩ := exists_mem_eraseDupsBy (r := Text.sameName)
        (List.mem_map_of_mem (f := Naming.name) hnaming)
      refine ⟨name, hname, ?_⟩
      rcases hsame with hsame | hsame
      · rw [← hsame, Naming.key]
      · exact (Text.sameName_iff.1 hsame).symm
  rw [← hkeys, List.toFinset_card_of_nodup (nodup_keys_named namings), keys, List.length_map, size]

/-! ### What is found -/

theorem find?_put (name : String) (v : ParamValue) (es : List (String × ParamValue)) (k : String) :
    ((put name v es).find? (Text.sameName ·.1 k)).map Prod.snd =
      if Text.sameName name k then some v else (es.find? (Text.sameName ·.1 k)).map Prod.snd := by
  induction es with
  | nil => cases h : Text.sameName name k <;> simp [put, h]
  | cons e es ih =>
    unfold put
    cases hname : Text.sameName e.1 name with
    | true =>
      have hcongr : Text.sameName e.1 k = Text.sameName name k := by
        rw [Text.sameName, Text.sameName_iff.1 hname, ← Text.sameName]
      cases hk : Text.sameName name k <;> simp [hcongr, hk]
    | false =>
      cases hk : Text.sameName e.1 k with
      | true =>
        have hother : Text.sameName name k = false := Bool.eq_false_iff.2 fun hsame => by
          rw [Text.sameName, Text.sameName_iff.1 hk, ← Text.sameName_iff.1 hsame, ← Text.sameName,
            Text.sameName_iff.2 rfl] at hname
          cases hname
        simp [hk, hother]
      | false => simpa [hk] using ih

theorem get?_apply (naming : Naming) (p : Params) (k : String) :
    (naming.apply p).get? k =
      if Text.sameName naming.name k then some naming.value else p.get? k := by
  rw [naming.apply_eq]
  exact find?_put ..

/-- **What is found under a name** is what was last bound to it. -/
theorem get?_named (namings : List Naming) (k : String) :
    (named namings).get? k = lastValue? namings (Text.fold k) := by
  induction namings using List.reverseRecOn with
  | nil => rfl
  | append_singleton namings naming ih =>
    rw [named_concat, get?_apply, ih, lastValue?, lastValue?, List.reverse_append,
      List.reverse_singleton, List.singleton_append]
    have hkey : (naming.key == Text.fold k) = Text.sameName naming.name k := rfl
    rw [List.find?_cons, hkey]
    cases Text.sameName naming.name k <;> rfl

/-! ### Markers -/

theorem isMarker_toLower (c : Char) : isMarker c.toLower = isMarker c := by
  by_cases hupper : 65 ≤ c.toNat ∧ c.toNat ≤ 90
  · have hlower := Text.toNat_toLower hupper
    have hnot {d : Char} (hd : 64 < d.toNat) : isMarker d = false := by
      refine Bool.eq_false_iff.2 fun hmarker => ?_
      rcases Template.isMarker_iff.1 hmarker with rfl | rfl <;> exact absurd hd (by decide)
    rw [hnot (by omega), hnot (by omega)]
  · rw [Text.toLower_of_not_upper hupper]

theorem head?_bareName (name : String) : (bareName name).toList.head?.any isMarker = false := by
  rw [bareName, String.toList_ofList]
  exact Template.any_head?_dropWhile isMarker name.toList

theorem bareName_eq_self_iff : bareName name = name ↔ name.toList.head?.any isMarker = false := by
  constructor
  · intro h
    rw [← h]
    exact head?_bareName name
  · intro h
    have hnone : name.toList.dropWhile isMarker = name.toList :=
      Template.dropWhile_append_rest (p := isMarker) (List.forall_mem_nil _) h
    rw [bareName, hnone, String.ofList_toList]

theorem head?_fold (name : String) :
    (Text.fold name).head?.any isMarker = name.toList.head?.any isMarker := by
  rw [Text.fold, List.head?_map]
  cases name.toList.head? with
  | none => rfl
  | some c => exact isMarker_toLower c

theorem lastValue?_of_marker (h : bareName k ≠ k) : lastValue? namings (Text.fold k) = none := by
  rw [lastValue?, Option.map_eq_none_iff, List.find?_eq_none]
  intro naming _ hkey
  have hhead : (Text.fold k).head?.any isMarker = false := by
    rw [← beq_iff_eq.1 hkey, Naming.key, head?_fold]
    cases naming <;> exact head?_bareName _
  exact h (bareName_eq_self_iff.2 (head?_fold k ▸ hhead))

/-- **Parameters that are named form a map in the order of first appearance.**  After pairs were
collected and names were bound in any way, the names are those that were given, without the markers
in front, each class of them once, in the order and the spelling of its first appearance.  Each
entry has what was last bound to its class, and there are as many entries as classes.  Under a name
without a marker in front is found what was last bound to its class, and nothing if there is no such
class; under a name with one nothing is found. -/
theorem named_entries (pairs : List (String × Value)) (namings : List Naming) :
    let p := namings.foldl Naming.apply (ofList pairs)
    let all := pairs.map (fun pair => Naming.bind pair.1 pair.2) ++ namings
    p.entries.map Prod.fst = (all.map Naming.name).eraseDupsBy Text.sameName ∧
      (∀ e ∈ p.entries, lastValue? all (classOf e.1) = some e.2) ∧
      p.size = (all.map Naming.key).toFinset.card ∧
      ∀ k, p.get? k = if bareName k = k then lastValue? all (classOf k) else none := by
  intro p all
  have hp : p = named all := foldl_apply_ofList pairs namings
  have hget (k : String) :
      p.get? k = if bareName k = k then lastValue? all (classOf k) else none := by
    rw [hp, get?_named]
    split
    · rename_i hk
      rw [classOf, hk]
    · rename_i hk
      exact lastValue?_of_marker hk
  refine ⟨hp ▸ names_named all, fun e he => ?_, hp ▸ size_named all, hget⟩
  have hfound : p.get? e.1 = some e.2 := get?_of_mem (hp ▸ nodup_keys_named all) he
  rw [hget] at hfound
  split at hfound
  · exact hfound
  · cases hfound

/-- Two collected pairs, the first of which is bound again, without a marker and in another case. -/
theorem named_entries_of_renamed :
    let pairs : List (String × Value) := [("@id", .signed 1), (":Name", .text "x")]
    let namings : List Naming := [.bindList "ID" [.null]]
    let p := namings.foldl Naming.apply (ofList pairs)
    let all := pairs.map (fun pair => Naming.bind pair.1 pair.2) ++ namings
    p.entries.map Prod.fst = ["id", "Name"] ∧
      (("id", ParamValue.list [.null]) ∈ p.entries ∧
        lastValue? all (classOf "id") = some (.list [.null])) ∧
      p.size = 2 ∧ p.get? "NAME" = some (.scalar (.text "x")) ∧ p.get? "@id" = none := by
  intro pairs namings p all
  obtain ⟨hnames, hvalues, hsize, hget⟩ := named_entries pairs namings
  have hmem : ("id", ParamValue.list [.null]) ∈ p.entries := by decide +kernel
  have hall : (all.map Naming.name).eraseDupsBy Text.sameName = ["id", "Name"] := by decide +kernel
  have hclasses : (all.map Naming.key).toFinset.card = 2 := by decide +kernel
  have hname : p.get? "NAME" = some (.scalar (.text "x")) := by
    rw [hget]
    decide +kernel
  have hmarked : p.get? "@id" = none := by
    rw [hget]
    decide +kernel
  exact ⟨hnames.trans hall, ⟨hmem, hvalues ("id", .list [.null]) hmem⟩, hsize.trans hclasses, hname,
    hmarked⟩

end Params

end RowMapping
