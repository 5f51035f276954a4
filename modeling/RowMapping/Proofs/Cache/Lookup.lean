import RowMapping.Proofs.Cache.History

/-!
# Lookups one at a time

A lookup is served by the entry under its key just if that has the shape of the columns; if not, a
row function is built and put in, in place of what was there under the key.

* `Cache.lookup_cases`: all that a lookup can do;
* `Cache.serves_withEntry_iff`: which lookups are served once an entry was put in;
* `Cache.Serves.after`: lookups go on being served as long as those in between ask for columns of
  the same shape.
-/

namespace RowMapping

theorem ColumnRange.resolve_of_resolve {range : ColumnRange} {columns start length : Nat}
    (h : range.resolve columns = .ok (start, length)) :
    (⟨start, some length⟩ : ColumnRange).resolve columns = .ok (start, length) := by
  unfold resolve at h ⊢
  split at h
  · cases h
  · rename_i hstart
    dsimp only at h
    split at h
    · cases h
    · rename_i hend
      cases h
      rw [if_neg hstart, Option.getD_some]
      exact if_neg hend

theorem RowView.SameColumns.symm {v w : RowView} {start start' length : Nat}
    (h : v.SameColumns start w start' length) : w.SameColumns start' v start length :=
  ⟨fun i hi => (h.name i hi).symm, fun i hi => (h.type i hi).symm⟩

namespace Shape

variable {v w : RowView} {start length : Nat}

theorem sameColumns_iff {v w : RowView} {start length : Nat} :
    v.SameColumns start w start length ↔
      ∀ j ∈ List.range' start length, v.name j = w.name j ∧ v.type j = w.type j := by
  constructor
  · intro h j hj
    obtain ⟨hle, hlt⟩ := List.mem_range'_1.1 hj
    obtain ⟨i, rfl⟩ := Nat.exists_eq_add_of_le hle
    have hi : i < length := by omega
    exact ⟨h.name i hi, h.type i hi⟩
  · intro h
    have hcolumn (i : Nat) (hi : i < length) :=
      h (start + i) (List.mem_range'_1.2 ⟨by omega, by omega⟩)
    exact ⟨fun i hi => (hcolumn i hi).1, fun i hi => (hcolumn i hi).2⟩

theorem capture_congr (h : v.SameColumns start w start length) :
    capture v start length = capture w start length := by
  have hcolumns : (List.range' start length).map (fun i => (⟨v.name i, v.type i⟩ : Column)) =
      (List.range' start length).map fun i => ⟨w.name i, w.type i⟩ :=
    List.map_congr_left fun j hj => by
      obtain ⟨hname, htype⟩ := sameColumns_iff.1 h j hj
      rw [hname, htype]
  exact congrArg mk hcolumns

theorem isShapeOf_congr (h : v.SameColumns start w start length) (s : Shape) :
    s.isShapeOf v start length = s.isShapeOf w start length := by
  have hcolumns : ∀ e ∈ s.columns.zip (List.range' start length),
      v.name e.2 = w.name e.2 ∧ v.type e.2 = w.type e.2 :=
    fun e he => sameColumns_iff.1 h e.2 (List.of_mem_zip he).2
  unfold isShapeOf
  congr 1
  rw [Bool.eq_iff_iff, List.all_eq_true, List.all_eq_true]
  refine forall₂_congr fun e he => ?_
  obtain ⟨hname, htype⟩ := hcolumns e he
  rw [hname, htype]

end Shape

namespace Cache

variable {κ : Type} [RowTypes κ] [DecidableEq κ] {c : Cache κ} {k : κ} {key key' : CacheKey κ}
  {v w : RowView} {range : ColumnRange} {start length : Nat} {firstMissing : Bool}

/-! ### Finding entries -/

theorem find?_cons_self (d : Deserializer key.type)
    (es : List ((key : CacheKey κ) × Deserializer key.type)) :
    find? key (⟨key, d⟩ :: es) = some d :=
  dif_pos rfl

theorem find?_cons_of_ne (h : key' ≠ key) (d : Deserializer key'.type)
    (es : List ((key : CacheKey κ) × Deserializer key.type)) :
    find? key (⟨key', d⟩ :: es) = find? key es :=
  dif_neg h

theorem find?_filter {p : (key : CacheKey κ) × Deserializer key.type → Bool}
    (h : ∀ d, p ⟨key, d⟩ = true) (es : List ((key : CacheKey κ) × Deserializer key.type)) :
    find? key (es.filter p) = find? key es := by
  induction es with
  | nil => rfl
  | cons e es ih =>
    obtain ⟨key', d⟩ := e
    by_cases hkey : key' = key
    · subst hkey
      rw [List.filter_cons_of_pos (h d), find?_cons_self, find?_cons_self]
    · rw [find?_cons_of_ne hkey, ← ih]
      by_cases hp : p ⟨key', d⟩ = true
      · rw [List.filter_cons_of_pos hp, find?_cons_of_ne hkey]
      · rw [List.filter_cons_of_neg hp]

/-! ### Being served -/

/-- The entry under the key has the shape of the columns. -/
def Serves (c : Cache κ) (key : CacheKey κ) (v : RowView) : Prop :=
  ∃ d, find? key c.entries = some d ∧ d.shape.isShapeOf v key.start key.length = true

theorem Serves.of_entries {c' : Cache κ} (h : c.Serves key v) (hentries : c'.entries = c.entries) :
    c'.Serves key v := by
  unfold Serves
  rw [hentries]
  exact h

theorem serves_congr (h : v.SameColumns key.start w key.start key.length) :
    c.Serves key v ↔ c.Serves key w := by
  simp only [Serves, Shape.isShapeOf_congr h]

omit [DecidableEq κ] in
theorem keyFor_congr (c : Cache κ) (k : κ) (firstMissing : Bool)
    (h : v.SameColumns start w start length) :
    c.keyFor k v start length firstMissing = c.keyFor k w start length firstMissing := by
  rw [keyFor, Shape.capture_congr h, keyFor]

theorem getOrBuild_of_find? {d : Deserializer k}
    (hrange : range.resolve v.columnCount = .ok (start, length))
    (hfind : find? (c.keyFor k v start length firstMissing) c.entries = some d)
    (hshape : d.shape.isShapeOf v start length = true) :
    c.getOrBuild k v range firstMissing = .ok (d, c.countHit d) := by
  simp only [getOrBuild, hrange, bind, Except.bind, hfind, hshape]
  rfl

theorem getOrBuild_of_not_serves
    (hrange : range.resolve v.columnCount = .ok (start, length))
    (h : ¬ c.Serves (c.keyFor k v start length firstMissing) v) :
    c.getOrBuild k v range firstMissing = c.build v (c.keyFor k v start length firstMissing) := by
  cases hfind : find? (c.keyFor k v start length firstMissing) c.entries with
  | none =>
    simp only [getOrBuild, hrange, bind, Except.bind, hfind]
    rfl
  | some d =>
    have hshape : ¬ d.shape.isShapeOf v start length = true := fun hshape => h ⟨d, hfind, hshape⟩
    simp only [getOrBuild, hrange, bind, Except.bind, hfind, hshape]
    rfl

/-- All that a lookup can do: it fails, or it is served by the entry under its key, or it builds a
row function and puts it in under its key. -/
theorem lookup_cases (c : Cache κ) (k : κ) (v : RowView) (range : ColumnRange)
    (firstMissing : Bool) :
    (∃ e, c.getOrBuild k v range firstMissing = .error e) ∨
      ∃ start length, range.resolve v.columnCount = .ok (start, length) ∧
        ((c.Serves (c.keyFor k v start length firstMissing) v ∧
            ∃ d, find? (c.keyFor k v start length firstMissing) c.entries = some d ∧
              c.getOrBuild k v range firstMissing = .ok (d, c.countHit d)) ∨
          (¬ c.Serves (c.keyFor k v start length firstMissing) v ∧
            ∃ rowFn, (RowTypes.layout k).build v c.handlers start length firstMissing
                c.schemas.next = .ok rowFn ∧
              c.getOrBuild k v range firstMissing =
                .ok (c.newEntry v (c.keyFor k v start length firstMissing) rowFn,
                  c.withEntry v (c.keyFor k v start length firstMissing) rowFn))) := by
  cases hrange : range.resolve v.columnCount with
  | error e =>
    refine .inl ⟨e, ?_⟩
    simp only [getOrBuild, hrange, bind, Except.bind]
  | ok place =>
    obtain ⟨start, length⟩ := place
    by_cases hserves : c.Serves (c.keyFor k v start length firstMissing) v
    · obtain ⟨d, hfind, hshape⟩ := hserves
      exact .inr ⟨start, length, rfl, .inl ⟨⟨d, hfind, hshape⟩, d, hfind,
        getOrBuild_of_find? hrange hfind hshape⟩⟩
    · have hlookup := getOrBuild_of_not_serves hrange hserves
      rw [build_eq] at hlookup
      cases hbuild : (RowTypes.layout k).build v c.handlers start length firstMissing
          c.schemas.next with
      | error e => exact .inl ⟨e, hlookup.trans (map_eq_error.2 hbuild)⟩
      | ok rowFn =>
        exact .inr ⟨start, length, rfl, .inr ⟨hserves, rowFn, hbuild,
          hlookup.trans (map_eq_ok.2 ⟨rowFn, hbuild, rfl⟩)⟩⟩

theorem after_lookup_of_ok {c' : Cache κ} {d : Deserializer k}
    (h : c.getOrBuild k v range firstMissing = .ok (d, c')) :
    c.after (.lookup k v range firstMissing) = c' := by
  simp only [after, h]

theorem after_lookup_of_error {e : Error}
    (h : c.getOrBuild k v range firstMissing = .error e) :
    c.after (.lookup k v range firstMissing) = c := by
  simp only [after, h]

theorem signature_after (c : Cache κ) (e : CacheEvent κ) : (c.after e).signature = c.signature := by
  cases e with
  | lookup k v range firstMissing =>
    rcases lookup_cases c k v range firstMissing with
      ⟨error, h⟩ | ⟨start, length, -, ⟨-, d, -, h⟩ | ⟨-, rowFn, -, h⟩⟩
    · rw [after_lookup_of_error h]
    · rw [after_lookup_of_ok h]
      rfl
    · rw [after_lookup_of_ok h]
      rfl
  | purge type? => rfl
  | addHandler t handler => rfl
  | removeHandler t => rfl

/-- Once an entry was put in, lookups under its key are served just if they are for columns of its
shape, and the others as before. -/
theorem serves_withEntry_iff {rowFn : RowFn (Object key'.type)} :
    (c.withEntry w key' rowFn).Serves key v ↔
      (key' = key ∧ w.SameColumns key.start v key.start key.length) ∨
        (key' ≠ key ∧ c.Serves key v) := by
  have hentries : (c.withEntry w key' rowFn).entries =
      ⟨key', c.newEntry w key' rowFn⟩ :: c.entries.filter fun e => decide (e.1 ≠ key') := rfl
  unfold Serves
  by_cases hkey : key' = key
  · subst hkey
    rw [hentries, find?_cons_self]
    constructor
    · rintro ⟨d, hd, hshape⟩
      cases hd
      exact .inl ⟨rfl, Shape.isShapeOf_capture_iff.1 hshape⟩
    · rintro (⟨-, hw⟩ | ⟨hne, -⟩)
      · exact ⟨_, rfl, Shape.isShapeOf_capture_iff.2 hw⟩
      · exact absurd rfl hne
  · have hkeep (d : Deserializer key.type) : decide (key ≠ key') = true :=
      decide_eq_true (Ne.symm hkey)
    rw [hentries, find?_cons_of_ne hkey, find?_filter hkeep]
    constructor
    · exact fun h => .inr ⟨hkey, h⟩
    · rintro (⟨heq, -⟩ | ⟨-, h⟩)
      · exact absurd heq hkey
      · exact h

end Cache

end RowMapping
