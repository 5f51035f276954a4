import RowMapping.Proofs.Cache.History
import RowMapping.Proofs.Cursor.Scripted
import RowMapping.Proofs.Grid.Objects
import RowMapping.Proofs.Row.Edits

/-!
# Sessions with dynamic rows

Dynamic rows are edited while their cache is in use.  Rows that one entry of the cache makes share a
schema, for as long as the entry is used, so that a column that was added to one of them is there
for rows of later results too.  A session lists what happens to a cache and to rows.

* `Cache.names_session`: the schemas of a session only grow by what is added to them;
* `Cache.sharesSchema_of_mem`: the entries of dynamic row types keep to one schema each;
* `Cache.row_names`: which names the schema of a row has that comes of a lookup or of a reader.
-/

namespace RowMapping

theorem Shape.map_name_of_isShapeOf {s : Shape} {v : RowView} {start length : Nat}
    (h : s.isShapeOf v start length = true) :
    s.columns.map (·.name) = (List.range' start length).map v.name := by
  simp only [isShapeOf, Bool.and_eq_true, beq_iff_eq, List.all_eq_true] at h
  obtain ⟨hlength, hcolumns⟩ := h
  have heq : s.columns.length = (List.range' start length).length := by simp [hlength]
  calc s.columns.map (·.name)
      = ((s.columns.zip (List.range' start length)).map Prod.fst).map (·.name) := by
        rw [List.map_fst_zip (Nat.le_of_eq heq)]
    _ = ((s.columns.zip (List.range' start length)).map Prod.snd).map v.name := by
        rw [List.map_map, List.map_map]
        exact List.map_congr_left fun e he => (hcolumns e he).2
    _ = (List.range' start length).map v.name := by rw [List.map_snd_zip (Nat.le_of_eq heq.symm)]

theorem Layout.exists_row_of_buildDynamic {α : Type} {start length : Nat} {firstMissing : Bool}
    {schema : SchemaId} {build : Row → Except Error α} {v : RowView} {x : α}
    (h : buildDynamic start length firstMissing schema build v = .ok (some x)) :
    ∃ values, build (.ofValues schema values) = .ok x := by
  obtain ⟨values, -, h⟩ := bind_eq_ok.1 h
  split at h
  · cases h
  · obtain ⟨y, hbuild, h⟩ := bind_eq_ok.1 h
    cases h
    exact ⟨values, hbuild⟩

/-- What happens while a cache is in use. -/
inductive SessionEvent (κ : Type) where
  /-- Something is done to the cache. -/
  | cache (event : CacheEvent κ)
  /-- A row is edited. -/
  | edit (row : Row) (edit : RowEdit)

variable {κ : Type} [RowTypes κ]

namespace Cache

variable {c : Cache κ} {id : SchemaId}

/-- The names that an event adds to a schema. -/
def addition (id : SchemaId) (c : Cache κ) : SessionEvent κ → List String
  | .cache _ => []
  | .edit row edit => edit.additions row c.schemas id

theorem addition_of_not_has (h : ¬ c.schemas.Has id) (event : SessionEvent κ) :
    c.addition id event = [] := by
  cases event with
  | cache event => rfl
  | edit row edit => exact edit.additions_of_not_has h

variable [DecidableEq κ]

/-- The cache after an event of a session. -/
def step (c : Cache κ) : SessionEvent κ → Cache κ
  | .cache event => c.after event
  | .edit row edit => { c with schemas := (edit.perform row c.schemas).2 }

/-- The cache after a session. -/
def session (c : Cache κ) (events : List (SessionEvent κ)) : Cache κ := events.foldl step c

/-- The names that a session adds to a schema, in their order. -/
def additions (id : SchemaId) (c : Cache κ) : List (SessionEvent κ) → List String
  | [] => []
  | event :: events => c.addition id event ++ additions id (c.step event) events

theorem session_concat (events : List (SessionEvent κ)) (event : SessionEvent κ) :
    c.session (events ++ [event]) = (c.session events).step event := by
  simp [session]

theorem additions_append (events later : List (SessionEvent κ)) :
    c.additions id (events ++ later) =
      c.additions id events ++ (c.session events).additions id later := by
  induction events generalizing c with
  | nil => rfl
  | cons event events ih =>
    rw [List.cons_append, additions, additions, ih, List.append_assoc]
    rfl

/-! ### Schemas only grow -/

theorem schemas_after (h : c.schemas.Has id) (event : CacheEvent κ) :
    (c.after event).schemas.Has id ∧ (c.after event).schemas.get id = c.schemas.get id := by
  cases event with
  | lookup k v range firstMissing =>
    rcases after_lookup_cases (c := c) k v range firstMissing with
      ⟨-, hschemas⟩ | ⟨start, length, rowFn, -, hafter⟩
    · rw [hschemas]
      exact ⟨h, rfl⟩
    · rw [hafter]
      dsimp only [withEntry]
      split
      · exact ⟨h.push _, Schemas.get_push _ h⟩
      · exact ⟨h, rfl⟩
  | _ => exact ⟨h, rfl⟩

theorem names_step (h : c.schemas.Has id) (event : SessionEvent κ) :
    (c.step event).schemas.Has id ∧
      ((c.step event).schemas.get id).names = (c.schemas.get id).names ++ c.addition id event := by
  cases event with
  | cache event =>
    obtain ⟨hhas, hget⟩ := schemas_after h event
    exact ⟨hhas, by rw [step, hget, addition, List.append_nil]⟩
  | edit row edit => exact ⟨edit.has_perform.2 h, edit.names_perform h⟩

/-- **Schemas only grow**, by the names that are added to them. -/
theorem names_session (h : c.schemas.Has id) (events : List (SessionEvent κ)) :
    (c.session events).schemas.Has id ∧
      ((c.session events).schemas.get id).names =
        (c.schemas.get id).names ++ c.additions id events := by
  induction events generalizing c with
  | nil => exact ⟨h, (List.append_nil _).symm⟩
  | cons event events ih =>
    obtain ⟨hstep, hnames⟩ := names_step h event
    obtain ⟨hhas, hrest⟩ := ih hstep
    refine ⟨hhas, ?_⟩
    rw [additions, ← List.append_assoc, ← hnames]
    exact hrest

theorem additions_of_not_has {events : List (SessionEvent κ)}
    (h : ¬ (c.session events).schemas.Has id) : c.additions id events = [] := by
  induction events generalizing c with
  | nil => rfl
  | cons event events ih =>
    have hc : ¬ c.schemas.Has id := fun hid => h (names_session hid (event :: events)).1
    rw [additions, addition_of_not_has hc, List.nil_append]
    exact ih h

/-! ### The schemas of entries -/

/-- After a session the schema is there and has these names, and behind them those that were
added. -/
structure HasSchema (c : Cache κ) (events : List (SessionEvent κ)) (id : SchemaId)
    (names : List String) : Prop where
  /-- The schema is there. -/
  has : (c.session events).schemas.Has id
  /-- Its names. -/
  names_eq : ((c.session events).schemas.get id).names = names ++ c.additions id events

theorem HasSchema.append {events : List (SessionEvent κ)} {names : List String}
    (h : c.HasSchema events id names) (later : List (SessionEvent κ)) :
    c.HasSchema (events ++ later) id names := by
  obtain ⟨hhas, hnames⟩ := names_session h.has later
  have hsession : c.session (events ++ later) = (c.session events).session later :=
    List.foldl_append
  refine ⟨hsession ▸ hhas, ?_⟩
  rw [hsession, hnames, h.names_eq, additions_append, List.append_assoc]

/-- An entry of a dynamic row type makes rows of one schema, which has the names of its shape. -/
def SharesSchema (c : Cache κ) (events : List (SessionEvent κ))
    (entry : (key : CacheKey κ) × Deserializer key.type) : Prop :=
  ∀ build, RowTypes.layout entry.1.type = .dynamic build →
    ∃ id, entry.2.rowFn =
        Layout.buildDynamic entry.1.start entry.1.length entry.1.firstMissing id build ∧
      c.HasSchema events id (entry.2.shape.columns.map (·.name))

/-- One event keeps an entry or puts it in, with a row function that was just built. -/
theorem mem_entries_step {event : SessionEvent κ}
    {entry : (key : CacheKey κ) × Deserializer key.type} (h : entry ∈ (c.step event).entries) :
    entry ∈ c.entries ∨
      ∃ v rowFn, (RowTypes.layout entry.1.type).build v c.handlers entry.1.start entry.1.length
          entry.1.firstMissing c.schemas.next = .ok rowFn ∧
        entry.2 = c.newEntry v entry.1 rowFn ∧ c.step event = c.withEntry v entry.1 rowFn := by
  cases event with
  | cache event => exact (entries_after h).2
  | edit row edit => exact .inl h

theorem sharesSchema_of_build {events : List (SessionEvent κ)} {event : SessionEvent κ}
    {v : RowView} {key : CacheKey κ} {rowFn : RowFn (Object key.type)}
    (hbuild : (RowTypes.layout key.type).build v (c.session events).handlers key.start key.length
      key.firstMissing (c.session events).schemas.next = .ok rowFn)
    (hstep : (c.session events).step event = (c.session events).withEntry v key rowFn) :
    SharesSchema c (events ++ [event]) ⟨key, (c.session events).newEntry v key rowFn⟩ := by
  intro build hdynamic
  dsimp only at hdynamic
  have hschemas : (c.session (events ++ [event])).schemas =
      (c.session events).schemas.push (Layout.schemaOf v key.start key.length) := by
    rw [session_concat, hstep]
    dsimp only [withEntry]
    rw [hdynamic]
    rfl
  rw [hdynamic] at hbuild
  refine ⟨(c.session events).schemas.next, (Except.ok.inj hbuild).symm, ?_, ?_⟩
  · rw [hschemas]
    exact Schemas.has_push_next _
  · rw [hschemas, Schemas.get_push_next, additions_append, additions,
      additions_of_not_has Schemas.not_has_next, addition_of_not_has Schemas.not_has_next]
    simp [Layout.schemaOf, newEntry, Shape.capture, additions]

/-- **Rows of one entry share a schema**, whatever happens in the session. -/
theorem sharesSchema_of_mem (hc : c.entries = []) {events : List (SessionEvent κ)}
    {entry : (key : CacheKey κ) × Deserializer key.type}
    (h : entry ∈ (c.session events).entries) : SharesSchema c events entry := by
  induction events using List.reverseRecOn with
  | nil =>
    rw [session, List.foldl_nil, hc] at h
    cases h
  | append_singleton events event ih =>
    rw [session_concat] at h
    rcases mem_entries_step h with hmem | ⟨v, rowFn, hbuild, hentry, hstep⟩
    · intro build hdynamic
      obtain ⟨id, hrowFn, hschema⟩ := ih hmem build hdynamic
      exact ⟨id, hrowFn, hschema.append [event]⟩
    · obtain ⟨key, d⟩ := entry
      change d = _ at hentry
      rw [hentry]
      exact sharesSchema_of_build hbuild hstep

/-! ### The rows of lookups and of readers -/

/-- The object was made of a row whose schema has these names, and behind them those that are added
to it, now and from now on. -/
def Names (c : Cache κ) (events : List (SessionEvent κ)) {α : Type} (build : Row → Except Error α)
    (x : α) (names : List String) : Prop :=
  ∃ row, build row = .ok x ∧ ∀ later, c.HasSchema (events ++ later) row.schema names

theorem names_of_lookup (hc : c.entries = []) {k : κ} {build : Row → Except Error (Object k)}
    (hk : RowTypes.layout k = .dynamic build) {past : List (SessionEvent κ)} {v w : RowView}
    {range : ColumnRange} {firstMissing : Bool} {d : Deserializer k} {c' : Cache κ} {x : Object k}
    (hlookup : (c.session past).getOrBuild k v range firstMissing = .ok (d, c'))
    (hx : d.rowFn w = .ok (some x)) :
    ∃ start length, range.resolve v.columnCount = .ok (start, length) ∧
      c.Names (past ++ [.cache (.lookup k v range firstMissing)]) build x
        ((List.range' start length).map v.name) := by
  obtain ⟨start, length, hrange, hshape, hmem⟩ := exists_entry_of_getOrBuild hlookup
  have hafter : c.session (past ++ [.cache (.lookup k v range firstMissing)]) = c' := by
    rw [session_concat]
    simp only [step, after, hlookup]
  rw [← hafter] at hmem
  obtain ⟨id, hrowFn, hschema⟩ := sharesSchema_of_mem hc hmem build hk
  dsimp only at hrowFn hschema
  rw [Shape.map_name_of_isShapeOf hshape] at hschema
  rw [hrowFn] at hx
  obtain ⟨values, hbuild⟩ := Layout.exists_row_of_buildDynamic hx
  exact ⟨start, length, hrange, .ofValues id values, hbuild, hschema.append⟩

theorem names_of_lookup_all (hc : c.entries = []) {k : κ}
    {build : Row → Except Error (Object k)} (hk : RowTypes.layout k = .dynamic build)
    {past : List (SessionEvent κ)} {v : RowView} {x : Object k}
    (h : ∃ d c' w, (c.session past).getOrBuild k v .all false = .ok (d, c') ∧
      d.rowFn w = .ok (some x)) :
    c.Names (past ++ [.cache (.lookup k v .all false)]) build x (v.columns.map (·.name)) := by
  obtain ⟨d, c', w, hlookup, hx⟩ := h
  obtain ⟨start, length, hrange, hnames⟩ := names_of_lookup hc hk hlookup hx
  have hall : ColumnRange.all.resolve v.columnCount = .ok (0, v.columnCount) := by
    simp [ColumnRange.resolve, ColumnRange.all]
  rw [hall] at hrange
  cases hrange
  have hcolumns : v.columns.map (·.name) = (List.range' 0 v.columnCount).map v.name := by
    rw [RowView.columns, List.map_map, List.range_eq_range']
    rfl
  rwa [hcolumns]

/-- **What a dynamic row describes.**  In any session, the schema of a row that comes of a lookup or
of a reader has the names of the columns that were looked up, in their order, and behind them only
those that were added through rows with the same schema.  It stays so whatever happens later. -/
theorem row_names {σ : Type} [Cursor σ] (signature : Signature) (handlers : Handlers) {k : κ}
    {build : Row → Except Error (Object k)} (hk : RowTypes.layout k = .dynamic build)
    (past : List (SessionEvent κ)) :
    let start : Cache κ := fresh signature handlers
    let c := start.session past
    (∀ v range firstMissing d c' w x, c.getOrBuild k v range firstMissing = .ok (d, c') →
      d.rowFn w = .ok (some x) →
      ∃ first length, range.resolve v.columnCount = .ok (first, length) ∧
        start.Names (past ++ [.cache (.lookup k v range firstMissing)]) build x
          ((List.range' first length).map v.name)) ∧
    (∀ (r : GridReader σ κ) grid demand p x, r.cache = c →
      (r.pullGrid k grid demand).result.1 = .ok p → .ok x ∈ p.items →
      start.Names (past ++ [.cache (.lookup k r.walk.view .all false)]) build x
        (r.walk.view.columns.map (·.name))) ∧
    (∀ (s : SuspendingReader σ κ) grid demand stream x, s.cache = c →
      (s.pullGrid k grid demand).result = .ok stream →
      (.ok x ∈ stream.pulled.items ∨
        ∃ more, .ok x ∈ (stream.pullMore stream.rowFn? more).result.items) →
      start.Names (past ++ [.cache (.lookup k s.walk.view .all false)]) build x
        (s.walk.view.columns.map (·.name))) := by
  intro start c
  refine ⟨?_, ?_, ?_⟩
  · intro v range firstMissing d c' w x hlookup hx
    exact names_of_lookup rfl hk hlookup hx
  · intro r grid demand p x hr hp hx
    have hlookup := GridReader.exists_lookup hp hx
    rw [hr] at hlookup
    exact names_of_lookup_all rfl hk hlookup
  · intro s grid demand stream x hs hstream hx
    have hlookup := SuspendingReader.exists_lookup hstream hx
    rw [hs] at hlookup
    exact names_of_lookup_all rfl hk hlookup

end Cache

/-- Dynamic rows as the only row type. -/
inductive RowCode where
  /-- Dynamic rows. -/
  | row
  deriving DecidableEq

instance : RowTypes RowCode where
  Object _ := Row
  layout _ := .row
  name _ := "Row"

namespace Cache

/-- A column is added to a row between two results of one shape. -/
theorem row_names_of_tagged :
    let v : RowView := ⟨1, fun _ => "id", fun _ => .i64, fun _ => .ok (.signed 1)⟩
    let lookup : SessionEvent RowCode := .cache (.lookup .row v .all false)
    let row : Row := ⟨⟨0⟩, [some (.signed 1)]⟩
    let past := [lookup, .edit row (.setByName "tag" (.text "x"))]
    let start : Cache RowCode := fresh .hashed .empty
    RowTypes.layout RowCode.row = .dynamic .ok ∧
      ∃ d c', (start.session past).getOrBuild .row v .all false = .ok (d, c') ∧
        d.rowFn v = .ok (some row) ∧
        start.Names (past ++ [lookup]) .ok row ["id"] ∧
        start.additions row.schema (past ++ [lookup]) = ["tag"] := by
  intro v lookup row past start
  have hrow : (((start.session past).getOrBuild .row v .all false).map (·.1.rowFn v) :
      Except Error (Except Error (Option Row))) = .ok (.ok (some row)) := by
    decide +kernel
  obtain ⟨⟨d, c'⟩, hlookup, hx⟩ := map_eq_ok.1 hrow
  obtain ⟨first, length, hrange, hnames⟩ :=
    (row_names (σ := ScriptedCursor) .hashed .empty (k := .row) rfl past).1
      v .all false d c' v row hlookup hx
  cases hrange
  exact ⟨rfl, d, c', hlookup, hx, hnames, rfl⟩

/-- The row of the second result has a column that its result does not have. -/
theorem tagged_row_has_more_names :
    let v : RowView := ⟨1, fun _ => "id", fun _ => .i64, fun _ => .ok (.signed 1)⟩
    let row : Row := ⟨⟨0⟩, [some (.signed 1)]⟩
    let start : Cache RowCode := fresh .hashed .empty
    let found := start.getOrBuild .row v .all false
    let edited := start.session
      [.cache (.lookup .row v .all false), .edit row (.setByName "tag" (.text "x"))]
    let found' := edited.getOrBuild .row v .all false
    found.map (·.1.rowFn v) = .ok (.ok (some row)) ∧
      found'.map (·.1.rowFn v) = .ok (.ok (some row)) ∧
      found'.map (fun e => (e.2.schemas.get row.schema).names) = .ok ["id", "tag"] ∧
      v.columns.map (·.name) = ["id"] := by
  exact ⟨rfl, rfl, rfl, rfl⟩

end Cache

end RowMapping
