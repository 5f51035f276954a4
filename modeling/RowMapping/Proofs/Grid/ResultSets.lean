import RowMapping.Grid.Reader
import RowMapping.Proofs.Cache.History
import RowMapping.Proofs.Cursor.Buffered
import RowMapping.Proofs.Grid.Walk

/-!
# Reading result sets in memory

What a grid reader sees of a result set is said by its rows alone: `ResultSet.offer` lists the items
that they have for a row type.  Pulling gives these items as far as demanded, and then the reader is
before the next result set, unless one of them was a fatal error.

* `Demand.seen_isPrefix`: what is seen is the beginning of what there is;
* `ResultSet.exists_materializes_of_offer`: there is one item for each row, in order;
* `Walk.skip_result`, `Walk.pull_result`: what skipping and pulling do in a result set;
* `GridReader.pullGrid_result`: what reading a grid does.
-/

namespace RowMapping

/-! ### Items of a result set -/

section Items

variable {α : Type}

theorem Demand.seen_isPrefix (d : Demand) (items : List (Except Error α)) :
    d.seen items <+: items := by
  induction items generalizing d with
  | nil => exact List.nil_prefix
  | cons item items ih =>
    unfold seen
    by_cases hmet : d.isMet = true
    · rw [if_pos hmet]
      exact List.nil_prefix
    · rw [if_neg hmet, List.prefix_cons_inj]
      by_cases hfatal : isFatalItem item = true
      · rw [if_pos hfatal]
        exact List.nil_prefix
      · rw [if_neg hfatal]
        exact ih _

/-- The items of a result set. -/
def ResultSet.items (s : ResultSet) (rowFn? : Option (RowFn α)) : List (Except Error α) :=
  s.rows.filterMap fun row => rowItem? rowFn? (s.rowView row)

theorem ResultSet.items_none (s : ResultSet) : s.items (none : Option (RowFn α)) = [] :=
  List.filterMap_none _

theorem ResultSet.forall₂_items (s : ResultSet) {f : RowFn α} (hf : ∀ x, f x ≠ .ok none) :
    List.Forall₂ (fun row item => f (s.rowView row) = item.map some) s.rows (s.items (some f)) := by
  unfold items
  induction s.rows with
  | nil => exact .nil
  | cons row rows ih =>
    have hrow : ∃ item, rowItem? (some f) (s.rowView row) = some item ∧
        f (s.rowView row) = item.map some := by
      unfold rowItem?
      dsimp only
      cases hresult : f (s.rowView row) with
      | error e => exact ⟨.error e, rfl, rfl⟩
      | ok x? =>
        cases x? with
        | none => exact absurd hresult (hf _)
        | some x => exact ⟨.ok x, rfl, rfl⟩
    obtain ⟨item, hitem, heq⟩ := hrow
    rw [List.filterMap_cons_some (f := fun row => rowItem? (some f) (s.rowView row)) hitem]
    exact .cons heq ih

end Items

/-! ### Grids of a buffered cursor -/

namespace Walk

variable {sets : List ResultSet} {i : Nat} {s : ResultSet} {row? : Option Nat} {position : Position}
  {ρ α : Type}

/-- The walk after a grid. -/
def past (sets : List ResultSet) (i : Nat) : Walk BufferedCursor :=
  ⟨⟨sets, i + 1, none⟩, .after i (decide (i + 1 < sets.length))⟩

theorem past_eq_active (h : i + 1 < sets.length) :
    past sets i = ⟨⟨sets, i + 1, none⟩, .active (i + 1)⟩ := by
  simp only [past, Position.after, h, decide_true, if_true]

theorem past_position_eq_disposed (h : ¬ i + 1 < sets.length) :
    (past sets i).position = .disposed := by
  simp only [past, Position.after, h, decide_false]
  rfl

theorem finish_result (hs : sets[i]? = some s) (keep : Walk BufferedCursor → ρ) :
    (finish keep i ⟨⟨sets, i, row?⟩, position⟩).result = (none, past sets i) := by
  have hadvance := BufferedCursor.advanceResultSet_eq hs row?
  unfold finish
  simp only [hadvance, Run.result_bind, Run.result_pure]
  rfl

theorem skip_result (hs : sets[i]? = some s) (keep : Walk BufferedCursor → ρ) :
    (skip keep i ⟨⟨sets, i, row?⟩, position⟩).result = past sets i := by
  generalize hrows : s.rows.drop (BufferedCursor.nextRow ⟨sets, i, row?⟩) = rows
  induction rows generalizing row? with
  | nil =>
    have hadvance := BufferedCursor.advance_of_drop_eq_nil hs hrows
    rw [skip_eq, hadvance, next_eq hadvance]
    dsimp only
    rw [Run.result_bind, Run.result_bind, Run.result_pure, finish_result hs]
  | cons row rows ih =>
    obtain ⟨n, -, hrest, hadvance⟩ := BufferedCursor.advance_of_drop_eq_cons hs hrows
    rw [skip_eq, hadvance, next_eq hadvance]
    dsimp only
    rw [Run.result_bind, ih hrest]

/-- What pulling from a grid gives when it has these items to see. -/
structure PulledFrom (sets : List ResultSet) (i : Nat) (items : List (Except Error α))
    (p : Pulled BufferedCursor α) : Prop where
  /-- These are the items. -/
  items_eq : p.items = items
  /-- With a fatal error, there is nothing left to read. -/
  disposed : items.any isFatalItem = true → p.ended = true ∧ p.walk.position = .disposed
  /-- At the end of the grid, the next one comes. -/
  past : items.any isFatalItem = false → p.ended = true → p.walk = past sets i
  /-- Before the end, the cursor is still in the grid. -/
  within : p.ended = false → ∃ row? position, p.walk = ⟨⟨sets, i, row?⟩, position⟩

theorem PulledFrom.cons {items : List (Except Error α)} {p : Pulled BufferedCursor α}
    (h : PulledFrom sets i items p) {item : Except Error α} (hitem : isFatalItem item = false) :
    PulledFrom sets i (item :: items) (p.cons item) where
  items_eq := congrArg _ h.items_eq
  disposed hfatal := h.disposed (by rwa [List.any_cons, hitem, Bool.false_or] at hfatal)
  past hfatal := h.past (by rwa [List.any_cons, hitem, Bool.false_or] at hfatal)
  within := h.within

/-- Pulling gives the items of the rows that are still to come, as far as demanded. -/
theorem pull_result (hs : sets[i]? = some s) (keep : Keep BufferedCursor ρ)
    (rowFn? : Option (RowFn α)) (demand : Demand) {rows : List (List Value)}
    (hrows : s.rows.drop (BufferedCursor.nextRow ⟨sets, i, row?⟩) = rows) :
    PulledFrom sets i (demand.seen (rows.filterMap fun row => rowItem? rowFn? (s.rowView row)))
      (pull keep rowFn? i demand ⟨⟨sets, i, row?⟩, position⟩).result := by
  -- asking for a row takes the first of those that are still to come
  induction rows generalizing row? demand with
  | nil =>
    cases hmet : demand.isMet with
    | true =>
      rw [pull_of_isMet _ _ _ _ hmet]
      exact ⟨rfl, nofun, nofun, fun _ => ⟨row?, position, rfl⟩⟩
    | false =>
      have hadvance := BufferedCursor.advance_of_drop_eq_nil hs hrows
      rw [pull_of_not_isMet _ _ _ _ hmet, hadvance, next_eq hadvance]
      dsimp only
      rw [Run.result_bind, Run.result_bind, finish_result hs]
      exact ⟨rfl, nofun, fun _ _ => rfl, nofun⟩
  | cons row rows ih =>
    cases hmet : demand.isMet with
    | true =>
      rw [pull_of_isMet _ _ _ _ hmet, Demand.seen_of_isMet hmet]
      exact ⟨rfl, nofun, nofun, fun _ => ⟨row?, position, rfl⟩⟩
    | false =>
      obtain ⟨n, hrow, hrest, hadvance⟩ := BufferedCursor.advance_of_drop_eq_cons hs hrows
      have hview : view (σ := BufferedCursor) ⟨⟨sets, i, some n⟩, position⟩ = s.rowView row :=
        BufferedCursor.view_eq_rowView hs hrow
      rw [pull_of_not_isMet _ _ _ _ hmet, hadvance, next_eq hadvance]
      dsimp only
      rw [Run.result_bind, hview]
      cases hitem : rowItem? rowFn? (s.rowView row) with
      | none =>
        rw [List.filterMap_cons_none (f := fun row => rowItem? rowFn? (s.rowView row)) hitem]
        exact ih demand hrest
      | some item =>
        rw [List.filterMap_cons_some (f := fun row => rowItem? rowFn? (s.rowView row)) hitem,
          Demand.seen, if_neg (by simp [hmet])]
        cases hfatal : isFatalItem item with
        | true =>
          simp only [hfatal, if_true, Run.result_pure]
          exact ⟨rfl, fun _ => ⟨rfl, rfl⟩, fun hany => by simp [hfatal] at hany, nofun⟩
        | false =>
          simp only [hfatal]
          exact (ih (demand.after item) hrest).cons hfatal

end Walk

/-! ### Grids that are read -/

variable {κ : Type} [RowTypes κ] [DecidableEq κ]

/-- The items that a result set has for a row type, unless no row function can be built.  Without
columns there are none. -/
def ResultSet.offer (s : ResultSet) (c : Cache κ) (k : κ) :
    Except Error (List (Except Error (Object k))) :=
  if s.columns = [] then .ok []
  else (c.getOrBuild k s.header .all false).map fun e => s.items (some e.1.rowFn)

/-- With this demand, a fatal error is seen. -/
def ResultSet.offersFatal (s : ResultSet) (c : Cache κ) (k : κ) (demand : Demand) : Prop :=
  ∃ items, s.offer c k = .ok items ∧ (demand.seen items).any isFatalItem = true

/-- The items are those of the rows, in their order, by a row function that was built for the
columns with these handlers. -/
def ResultSet.Materializes (s : ResultSet) (k : κ) (handlers : Handlers)
    (items : List (Except Error (Object k))) : Prop :=
  ∃ schema rowFn,
    (RowTypes.layout k).build s.header handlers 0 s.columns.length false schema = .ok rowFn ∧
      List.Forall₂ (fun row item => rowFn (s.rowView row) = item.map some) s.rows items

namespace ResultSet

variable {s : ResultSet} {c : Cache κ} {k : κ}

theorem resolve_all (s : ResultSet) :
    ColumnRange.all.resolve s.header.columnCount = .ok (0, s.columns.length) := by
  simp [ColumnRange.resolve, ColumnRange.all, header]

/-- The items are made with the handlers of a moment after the last purge of the type. -/
theorem exists_materializes_of_offer (hc : c.entries = []) {events : List (CacheEvent κ)}
    (hcolumns : s.columns ≠ []) {items : List (Except Error (Object k))}
    (h : s.offer (c.run events) k = .ok items) :
    ∃ before, CacheEvent.NoPurgeSince k before events ∧
      s.Materializes k (c.run before).handlers items := by
  rw [offer, if_neg hcolumns] at h
  obtain ⟨⟨d, c'⟩, hlookup, rfl⟩ := map_eq_ok.1 h
  obtain ⟨start, length, hrange, before, hbefore, hbuild⟩ :=
    Cache.exists_build_of_getOrBuild hc hlookup
  cases s.resolve_all.symm.trans hrange
  obtain ⟨schema, hbuild⟩ := hbuild s.header ⟨fun _ _ => rfl, fun _ _ => rfl⟩
  exact ⟨before, hbefore, schema, d.rowFn, hbuild,
    s.forall₂_items (Layout.ne_none_of_build _ hbuild)⟩

/-- There are no items only if no row function can be built. -/
theorem exists_build_of_offer_eq_error {e : Error} (h : s.offer c k = .error e) :
    ∃ schema, (RowTypes.layout k).build s.header c.handlers 0 s.columns.length false schema =
      .error e := by
  unfold offer at h
  split at h
  · cases h
  · rcases Cache.getOrBuild_eq_error (map_eq_error.1 h) with hrange | ⟨_, _, schema, hrange, hbuild⟩
    · cases s.resolve_all.symm.trans hrange
    · cases s.resolve_all.symm.trans hrange
      exact ⟨schema, hbuild⟩

end ResultSet

namespace GridReader

variable {sets : List ResultSet} {i : Nat} {s : ResultSet} {r : GridReader BufferedCursor κ} {k : κ}

/-- What reading the grid of a result set gives if it has items. -/
theorem pullGrid_of_opened (hs : sets[i]? = some s) (demand : Demand)
    {opened : Walk.Opened BufferedCursor k} {position : Position}
    (hopened : (r.walk.openGrid keep.moving r.cache k i).result = opened)
    (hwalk : opened.walk = ⟨⟨sets, i, none⟩, position⟩) {rowFn? : Option (RowFn (Object k))}
    (hrowFn : opened.rowFn? = .ok rowFn?) (hoffer : s.offer r.cache k = .ok (s.items rowFn?)) :
    let result := (r.pullGrid k i demand).result
    result.1.map Pulled.items = (s.offer r.cache k).map demand.seen ∧
      result.2.cache = opened.cache ∧
      (s.offersFatal r.cache k demand → result.2.walk.position = .disposed) ∧
      (¬ s.offersFatal r.cache k demand → result.2.walk = .past sets i) := by
  intro result
  have hpull : Walk.PulledFrom sets i (demand.seen (s.items rowFn?))
      (Walk.pull keep rowFn? i demand ⟨⟨sets, i, none⟩, position⟩).result :=
    Walk.pull_result hs keep rowFn? demand rfl
  rw [← hwalk] at hpull
  have heq : (r.pullGrid k i demand).result =
      let p := (opened.walk.pull keep rowFn? i demand).result
      (.ok p, ⟨if p.ended then p.walk else (p.walk.skip keep.moving i).result, opened.cache⟩) := by
    unfold pullGrid
    rw [Run.result_bind, hopened]
    simp only [hrowFn, Run.result_bind]
    split <;> rfl
  generalize (opened.walk.pull keep rowFn? i demand).result = p at hpull heq
  have hfatal : s.offersFatal r.cache k demand ↔
      (demand.seen (s.items rowFn?)).any isFatalItem = true := by
    constructor
    · rintro ⟨items, hitems, hfatal⟩
      cases hoffer.symm.trans hitems
      exact hfatal
    · exact fun hfatal => ⟨_, hoffer, hfatal⟩
  refine ⟨?_, congrArg (·.2.cache) heq, fun h => ?_, fun h => ?_⟩
  · rw [hoffer]
    exact (congrArg (·.1.map Pulled.items) heq).trans (congrArg Except.ok hpull.items_eq)
  · obtain ⟨hended, hposition⟩ := hpull.disposed (hfatal.1 h)
    refine (congrArg (·.2.walk.position) heq).trans ?_
    dsimp only
    rw [if_pos hended, hposition]
  · rw [hfatal, Bool.not_eq_true] at h
    refine (congrArg (·.2.walk) heq).trans ?_
    dsimp only
    cases hended : p.ended with
    | true => rw [if_pos rfl, hpull.past h hended]
    | false =>
      -- the demand was met in the grid, and its rest is skipped
      obtain ⟨row?, position, hwithin⟩ := hpull.within hended
      rw [if_neg Bool.false_ne_true, hwithin, Walk.skip_result hs]

theorem openGrid_result (hs : sets[i]? = some s) (hr : r.walk = ⟨⟨sets, i, none⟩, .active i⟩) :
    (r.walk.openGrid keep.moving r.cache k i).result =
      if s.columns = [] then ⟨⟨⟨sets, i, none⟩, .consumed i⟩, r.cache, .ok none⟩
      else
        match r.cache.getOrBuild k s.header .all false with
        | .ok (d, cache) => ⟨⟨⟨sets, i, none⟩, .consumed i⟩, cache, .ok (some d.rowFn)⟩
        | .error e => ⟨.past sets i, r.cache, .error e⟩ := by
  have hbegin : Position.begin (.active i) i = .ok (.consumed i) := if_pos rfl
  have hview : Walk.view (σ := BufferedCursor) ⟨⟨sets, i, none⟩, .consumed i⟩ = s.header :=
    BufferedCursor.view_eq_header hs
  rw [hr]
  simp only [Walk.openGrid, hbegin, hview]
  by_cases hcolumns : s.columns = []
  · have hcount : s.header.columnCount = 0 := congrArg List.length hcolumns
    rw [if_pos hcount, if_pos hcolumns, Run.result_pure]
  · have hcount : s.header.columnCount ≠ 0 := fun h => hcolumns (List.length_eq_zero_iff.1 h)
    rw [if_neg hcount, if_neg hcolumns]
    cases r.cache.getOrBuild k s.header .all false with
    | ok found => rfl
    | error e =>
      dsimp only
      rw [Run.result_bind, Run.result_pure, Walk.skip_result hs]

/-- What reading the grid of a result set gives: the items that are there, as far as demanded, and
the reader before the next grid, unless there was a fatal error. -/
theorem pullGrid_result (hs : sets[i]? = some s) (hr : r.walk = ⟨⟨sets, i, none⟩, .active i⟩)
    (k : κ) (demand : Demand) :
    let result := (r.pullGrid k i demand).result
    result.1.map Pulled.items = (s.offer r.cache k).map demand.seen ∧
      (result.2.cache = r.cache ∨
        result.2.cache = r.cache.after (.lookup k s.header .all false)) ∧
      (s.offersFatal r.cache k demand → result.2.walk.position = .disposed) ∧
      (¬ s.offersFatal r.cache k demand → result.2.walk = .past sets i) := by
  intro result
  have hopened := openGrid_result (k := k) hs hr
  by_cases hcolumns : s.columns = []
  · rw [if_pos hcolumns] at hopened
    have hoffer : s.offer r.cache k = .ok (s.items none) := by
      rw [ResultSet.offer, if_pos hcolumns, ResultSet.items_none]
    obtain ⟨hitems, hcache, hwalk⟩ := pullGrid_of_opened hs demand hopened rfl rfl hoffer
    exact ⟨hitems, .inl hcache, hwalk⟩
  · rw [if_neg hcolumns] at hopened
    have hoffer : s.offer r.cache k =
        (r.cache.getOrBuild k s.header .all false).map fun e => s.items (some e.1.rowFn) :=
      if_neg hcolumns
    cases hlookup : r.cache.getOrBuild k s.header .all false with
    | ok found =>
      rw [hlookup] at hopened hoffer
      have hafter : r.cache.after (.lookup k s.header .all false) = found.2 := by
        simp only [Cache.after, hlookup]
      obtain ⟨hitems, hcache, hwalk⟩ := pullGrid_of_opened hs demand hopened rfl rfl hoffer
      exact ⟨hitems, .inr (hcache.trans hafter.symm), hwalk⟩
    | error e =>
      rw [hlookup] at hopened hoffer
      have heq : (r.pullGrid k i demand).result = (.error e, ⟨.past sets i, r.cache⟩) := by
        unfold pullGrid
        rw [Run.result_bind, hopened]
        rfl
      refine ⟨?_, .inl (congrArg (·.2.cache) heq), ?_, fun _ => congrArg (·.2.walk) heq⟩
      · rw [hoffer]
        exact congrArg (·.1.map Pulled.items) heq
      · rintro ⟨items, hitems, -⟩
        rw [hoffer] at hitems
        cases hitems

end GridReader

end RowMapping
