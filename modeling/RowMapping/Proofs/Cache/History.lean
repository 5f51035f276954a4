import Mathlib.Data.List.Induction
import RowMapping.Cache
import RowMapping.Proofs.Materialize.Locality

/-!
# Histories of a cache

A history lists what was done to a cache since it was made: lookups, purges and changes of the
handlers.  Whatever it was, every entry was built from columns of the shape that is kept with it,
and with the handlers of a moment after the last purge of its type.

* `Shape.isShapeOf_capture_iff`: a shape is that of the columns with the same names and types;
* `Cache.getOrBuild_cases`: a lookup is served by an entry, or a new one is built;
* `Cache.builtWith_of_mem_run`: when the entries were built;
* `Cache.exists_build_of_getOrBuild`, `Cache.getOrBuild_eq_error`: what lookups give.
-/

namespace RowMapping

theorem Shape.isShapeOf_capture_iff {v w : RowView} {start length : Nat} :
    (Shape.capture v start length).isShapeOf w start length = true ↔
      v.SameColumns start w start length := by
  have hzip : (Shape.capture v start length).columns.zip (List.range' start length) =
      (List.range' start length).map fun i => (⟨v.name i, v.type i⟩, i) := by
    have hself := List.zip_map' (f := fun i => (⟨v.name i, v.type i⟩ : Column)) (g := id)
      (l := List.range' start length)
    rwa [List.map_id] at hself
  have hlength : (Shape.capture v start length).columns.length = length := by simp [capture]
  unfold isShapeOf
  rw [hzip, hlength, beq_self_eq_true, Bool.true_and, List.all_map, List.all_eq_true]
  constructor
  · intro h
    have hcolumn (i : Nat) (hi : i < length) := by
      have hmem : start + i ∈ List.range' start length := List.mem_range'_1.2 ⟨by omega, by omega⟩
      simpa using h (start + i) hmem
    exact ⟨fun i hi => (hcolumn i hi).2, fun i hi => (hcolumn i hi).1⟩
  · intro h j hj
    obtain ⟨hle, hlt⟩ := List.mem_range'_1.1 hj
    obtain ⟨i, rfl⟩ := Nat.exists_eq_add_of_le hle
    have hi : i < length := by omega
    simp [h.name i hi, h.type i hi]

/-- What is done to a cache. -/
inductive CacheEvent (κ : Type) where
  /-- A row function is looked up. -/
  | lookup (type : κ) (view : RowView) (range : ColumnRange) (firstMissing : Bool)
  /-- The entries of a type, or all of them, are dropped. -/
  | purge (type? : Option κ)
  /-- A handler is put in. -/
  | addHandler (type : TypeId) (handler : Handler)
  /-- A handler is taken out. -/
  | removeHandler (type : TypeId)

/-- The event is a lookup. -/
def CacheEvent.IsLookup {κ : Type} : CacheEvent κ → Prop
  | .lookup _ _ _ _ => True
  | _ => False

/-- The entries of the type are dropped, alone or with all others. -/
def CacheEvent.Purges {κ : Type} (k : κ) : CacheEvent κ → Prop
  | .purge none => True
  | .purge (some k') => k' = k
  | _ => False

/-- The history goes on from the moment after `before`, and the type is not purged from then on. -/
def CacheEvent.NoPurgeSince {κ : Type} (k : κ) (before events : List (CacheEvent κ)) : Prop :=
  ∃ after, events = before ++ after ∧ ∀ e ∈ after, ¬ e.Purges k

theorem CacheEvent.NoPurgeSince.concat {κ : Type} {k : κ} {before events : List (CacheEvent κ)}
    (h : NoPurgeSince k before events) {e : CacheEvent κ} (he : ¬ e.Purges k) :
    NoPurgeSince k before (events ++ [e]) := by
  obtain ⟨after, rfl, hafter⟩ := h
  refine ⟨after ++ [e], List.append_assoc .., ?_⟩
  exact List.forall_mem_append.2 ⟨hafter, List.forall_mem_singleton.2 he⟩

variable {κ : Type} [RowTypes κ]

/-- The row function was built with these handlers, for columns of the shape that is kept with
it. -/
def Deserializer.BuiltWith (key : CacheKey κ) (d : Deserializer key.type) (handlers : Handlers) :
    Prop :=
  ∃ v schema, d.shape = .capture v key.start key.length ∧
    (RowTypes.layout key.type).build v handlers key.start key.length key.firstMissing schema =
      .ok d.rowFn

theorem Deserializer.BuiltWith.build_eq {key : CacheKey κ} {d : Deserializer key.type}
    {handlers : Handlers} (h : d.BuiltWith key handlers) {w : RowView}
    (hshape : d.shape.isShapeOf w key.start key.length = true) :
    ∃ schema, (RowTypes.layout key.type).build w handlers key.start key.length key.firstMissing
      schema = .ok d.rowFn := by
  obtain ⟨v, schema, hcapture, hbuild⟩ := h
  rw [hcapture, Shape.isShapeOf_capture_iff] at hshape
  exact ⟨schema, by rw [← Layout.build_congr handlers key.firstMissing hshape, hbuild]⟩

namespace Cache

/-- A cache without entries. -/
def fresh (signature : Signature) (handlers : Handlers) : Cache κ := { signature, handlers }

variable [DecidableEq κ] {c c' : Cache κ}

/-- The cache after an event.  A lookup that fails leaves it as it is. -/
def after (c : Cache κ) : CacheEvent κ → Cache κ
  | .lookup k v range firstMissing =>
    match c.getOrBuild k v range firstMissing with
    | .ok (_, c) => c
    | .error _ => c
  | .purge type? => (c.purge type?).2
  | .addHandler t handler => { c with handlers := c.handlers.insert t handler }
  | .removeHandler t => { c with handlers := c.handlers.erase t }

/-- The cache after a history. -/
def run (c : Cache κ) (events : List (CacheEvent κ)) : Cache κ := events.foldl after c

@[simp] theorem run_nil : c.run [] = c := rfl

theorem run_concat (events : List (CacheEvent κ)) (e : CacheEvent κ) :
    c.run (events ++ [e]) = (c.run events).after e := by
  simp [run]

/-! ### Lookups -/

theorem mem_of_find? {key : CacheKey κ} {d : Deserializer key.type}
    {es : List ((key : CacheKey κ) × Deserializer key.type)} (h : find? key es = some d) :
    ⟨key, d⟩ ∈ es := by
  induction es with
  | nil => cases h
  | cons e es ih =>
    unfold find? at h
    split at h
    · rename_i hkey
      obtain ⟨key', d'⟩ := e
      cases hkey
      cases h
      exact List.mem_cons_self
    · exact List.mem_cons_of_mem _ (ih h)

/-- The entry that a row function makes. -/
def newEntry (c : Cache κ) (v : RowView) (key : CacheKey κ) (rowFn : RowFn (Object key.type)) :
    Deserializer key.type :=
  ⟨c.hitCounts.length, .capture v key.start key.length, rowFn⟩

/-- The cache with a new entry and, for dynamic rows, its schema. -/
def withEntry (c : Cache κ) (v : RowView) (key : CacheKey κ) (rowFn : RowFn (Object key.type)) :
    Cache κ :=
  { c.insert key (c.newEntry v key rowFn) with
    schemas :=
      if (RowTypes.layout key.type).isDynamic then
        c.schemas.push (Layout.schemaOf v key.start key.length)
      else c.schemas }

theorem build_eq (v : RowView) (key : CacheKey κ) :
    c.build v key =
      ((RowTypes.layout key.type).build v c.handlers key.start key.length key.firstMissing
        c.schemas.next).map fun rowFn => (c.newEntry v key rowFn, c.withEntry v key rowFn) := by
  unfold build withEntry
  dsimp only
  generalize (RowTypes.layout key.type).build v c.handlers key.start key.length key.firstMissing
    c.schemas.next = built
  cases built with
  | error e => rfl
  | ok rowFn =>
    by_cases hdynamic : (RowTypes.layout key.type).isDynamic = true
    · simp only [hdynamic, if_true]
      rfl
    · simp only [hdynamic]
      rfl

/-- A lookup is served by an entry of the shape, or builds one. -/
theorem getOrBuild_cases (c : Cache κ) (k : κ) (firstMissing : Bool) {v : RowView}
    {range : ColumnRange} {start length : Nat}
    (hrange : range.resolve v.columnCount = .ok (start, length)) :
    (∃ d : Deserializer k, ⟨c.keyFor k v start length firstMissing, d⟩ ∈ c.entries ∧
        d.shape.isShapeOf v start length = true ∧
        c.getOrBuild k v range firstMissing = .ok (d, c.countHit d)) ∨
      c.getOrBuild k v range firstMissing =
        c.build v (c.keyFor k v start length firstMissing) := by
  cases hfind : find? (c.keyFor k v start length firstMissing) c.entries with
  | none =>
    right
    simp only [getOrBuild, hrange, bind, Except.bind, hfind]
    rfl
  | some d =>
    by_cases hshape : d.shape.isShapeOf v start length = true
    · refine .inl ⟨d, mem_of_find? hfind, hshape, ?_⟩
      simp only [getOrBuild, hrange, bind, Except.bind, hfind, hshape]
      rfl
    · right
      simp only [getOrBuild, hrange, bind, Except.bind, hfind, hshape]
      rfl

theorem exists_entry_of_getOrBuild {k : κ} {v : RowView} {range : ColumnRange}
    {firstMissing : Bool} {d : Deserializer k}
    (h : c.getOrBuild k v range firstMissing = .ok (d, c')) :
    ∃ start length, range.resolve v.columnCount = .ok (start, length) ∧
      d.shape.isShapeOf v start length = true ∧
      ⟨c.keyFor k v start length firstMissing, d⟩ ∈ c'.entries := by
  obtain ⟨⟨start, length⟩, hrange, -⟩ := bind_eq_ok.1 h
  refine ⟨start, length, hrange, ?_⟩
  rcases getOrBuild_cases c k firstMissing hrange with
    ⟨d', hmem, hshape, heq⟩ | heq
  · rw [heq] at h
    cases h
    exact ⟨hshape, hmem⟩
  · rw [heq, build_eq] at h
    obtain ⟨rowFn, -, heq⟩ := map_eq_ok.1 h
    cases heq
    exact ⟨Shape.isShapeOf_capture_iff.2 ⟨fun _ _ => rfl, fun _ _ => rfl⟩, List.mem_cons_self⟩

/-! ### When entries were built -/

theorem after_lookup_cases (k : κ) (v : RowView) (range : ColumnRange) (firstMissing : Bool) :
    let c' := c.after (.lookup k v range firstMissing)
    (c'.entries = c.entries ∧ c'.schemas = c.schemas) ∨
      ∃ start length rowFn,
        (RowTypes.layout k).build v c.handlers start length firstMissing c.schemas.next =
          .ok rowFn ∧
        c' = c.withEntry v (c.keyFor k v start length firstMissing) rowFn := by
  dsimp only [after]
  cases hlookup : c.getOrBuild k v range firstMissing with
  | error e => exact .inl ⟨rfl, rfl⟩
  | ok found =>
    obtain ⟨⟨start, length⟩, hrange, -⟩ := bind_eq_ok.1 hlookup
    rcases getOrBuild_cases c k firstMissing hrange with ⟨d, -, -, heq⟩ | heq
    · rw [heq] at hlookup
      cases hlookup
      exact .inl ⟨rfl, rfl⟩
    · rw [heq, build_eq] at hlookup
      obtain ⟨rowFn, hbuild, heq⟩ := map_eq_ok.1 hlookup
      cases heq
      exact .inr ⟨start, length, rowFn, hbuild, rfl⟩

/-- What one event does to the entries: one that is there afterwards was there before and was not
purged, or was just put in with a new row function. -/
theorem entries_after {e : CacheEvent κ}
    {entry : (key : CacheKey κ) × Deserializer key.type} (h : entry ∈ (c.after e).entries) :
    ¬ e.Purges entry.1.type ∧
      (entry ∈ c.entries ∨
        ∃ v rowFn, (RowTypes.layout entry.1.type).build v c.handlers entry.1.start entry.1.length
            entry.1.firstMissing c.schemas.next = .ok rowFn ∧
          entry.2 = c.newEntry v entry.1 rowFn ∧ c.after e = c.withEntry v entry.1 rowFn) := by
  cases e with
  | lookup k v range firstMissing =>
    refine ⟨id, ?_⟩
    rcases after_lookup_cases (c := c) k v range firstMissing with
      ⟨hentries, -⟩ | ⟨start, length, rowFn, hbuild, hafter⟩
    · exact .inl (hentries ▸ h)
    · rw [hafter] at h
      rcases List.mem_cons.1 h with rfl | h
      · exact .inr ⟨v, rowFn, hbuild, rfl, hafter⟩
      · exact .inl (List.mem_of_mem_filter h)
  | purge type? =>
    cases type? with
    | none => cases h
    | some k =>
      obtain ⟨hmem, hne⟩ := List.mem_filter.1 h
      exact ⟨fun hk => of_decide_eq_true hne hk.symm, .inl hmem⟩
  | addHandler t handler => exact ⟨id, .inl h⟩
  | removeHandler t => exact ⟨id, .inl h⟩

theorem mem_entries_after {e : CacheEvent κ}
    {entry : (key : CacheKey κ) × Deserializer key.type} (h : entry ∈ (c.after e).entries) :
    ¬ e.Purges entry.1.type ∧ (entry ∈ c.entries ∨ entry.2.BuiltWith entry.1 c.handlers) := by
  obtain ⟨hpurges, hmem | ⟨v, rowFn, hbuild, hentry, -⟩⟩ := entries_after h
  · exact ⟨hpurges, .inl hmem⟩
  · refine ⟨hpurges, .inr ⟨v, c.schemas.next, ?_, ?_⟩⟩
    · rw [hentry]
      rfl
    · rw [hentry]
      exact hbuild

/-- Every entry was built with the handlers of a moment after the last purge of its type. -/
theorem builtWith_of_mem_run (hc : c.entries = []) {events : List (CacheEvent κ)}
    {entry : (key : CacheKey κ) × Deserializer key.type} (h : entry ∈ (c.run events).entries) :
    ∃ before, CacheEvent.NoPurgeSince entry.1.type before events ∧
      entry.2.BuiltWith entry.1 (c.run before).handlers := by
  induction events using List.reverseRecOn with
  | nil =>
    rw [run_nil, hc] at h
    cases h
  | append_singleton events e ih =>
    rw [run_concat] at h
    obtain ⟨hpurges, hmem | hbuilt⟩ := mem_entries_after h
    · obtain ⟨before, hbefore, hbuilt⟩ := ih hmem
      exact ⟨before, hbefore.concat hpurges, hbuilt⟩
    · -- the moment of building is the one before the event
      exact ⟨events, ⟨[e], rfl, List.forall_mem_singleton.2 hpurges⟩, hbuilt⟩

/-! ### What lookups give -/

variable {events : List (CacheEvent κ)} {k : κ} {v : RowView} {range : ColumnRange}
  {firstMissing : Bool} {d : Deserializer k}

/-- A row function that is looked up was built with the handlers of a moment after the last purge of
its type, and columns of the same names and types give it again. -/
theorem exists_build_of_getOrBuild (hc : c.entries = [])
    (h : (c.run events).getOrBuild k v range firstMissing = .ok (d, c')) :
    ∃ start length, range.resolve v.columnCount = .ok (start, length) ∧
      ∃ before, CacheEvent.NoPurgeSince k before events ∧
        ∀ w, v.SameColumns start w start length → ∃ schema,
          (RowTypes.layout k).build w (c.run before).handlers start length firstMissing schema =
            .ok d.rowFn := by
  obtain ⟨start, length, hrange, hshape, hmem⟩ := exists_entry_of_getOrBuild h
  have hafter : (c.run events).after (.lookup k v range firstMissing) = c' := by
    simp only [after, h]
  have hbuilt : ∃ before, CacheEvent.NoPurgeSince k before events ∧
      d.BuiltWith ((c.run events).keyFor k v start length firstMissing)
        (c.run before).handlers := by
    rw [← hafter] at hmem
    obtain ⟨-, hmem | hbuilt⟩ := mem_entries_after hmem
    · exact builtWith_of_mem_run hc hmem
    · exact ⟨events, ⟨[], (List.append_nil _).symm, fun _ h => nomatch h⟩, hbuilt⟩
  obtain ⟨before, hbefore, hbuilt⟩ := hbuilt
  refine ⟨start, length, hrange, before, hbefore, fun w hw => ?_⟩
  obtain ⟨schema, hbuild⟩ := hbuilt.build_eq hshape
  exact ⟨schema, by rw [← Layout.build_congr _ _ hw]; exact hbuild⟩

theorem getOrBuild_eq_error {e : Error}
    (h : c.getOrBuild k v range firstMissing = .error e) :
    range.resolve v.columnCount = .error e ∨
      ∃ start length schema, range.resolve v.columnCount = .ok (start, length) ∧
        (RowTypes.layout k).build v c.handlers start length firstMissing schema = .error e := by
  cases hrange : range.resolve v.columnCount with
  | error e' =>
    simp only [getOrBuild, hrange, bind, Except.bind] at h
    cases h
    exact .inl rfl
  | ok place =>
    obtain ⟨start, length⟩ := place
    refine .inr ⟨start, length, c.schemas.next, rfl, ?_⟩
    rcases getOrBuild_cases c k firstMissing hrange with
      ⟨d, -, -, heq⟩ | heq
    · rw [heq] at h
      cases h
    · rw [heq, build_eq] at h
      exact map_eq_error.1 h

end Cache

/-- The scalar types as row types of one column. -/
instance : RowTypes ScalarType where
  Object := ScalarType.Carrier
  layout t := .ofDestination t.destination
  name t := t.destination.info.dbType.name

end RowMapping
