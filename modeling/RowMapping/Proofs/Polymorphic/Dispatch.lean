import RowMapping.Polymorphic
import RowMapping.Proofs.Cache.Lookup
import RowMapping.Proofs.Cache.Transparency

/-!
# Rows of several types

A bound loader makes each row as the type that its discriminator says would make it, built for it
alone; the rows before it do not matter, whatever types they were of and whatever the cache held.
For each type it builds at most one row function.

* `Loader.column?_eq_some_iff`, `Loader.column?_eq_none_iff`: which column is the discriminator;
* `Cache.upToDate_run`: with handlers that stay, every entry is what would be built anew;
* `BoundLoader.load_eq_objectOf`, `BoundLoader.load_cases`: what loading one row gives and does to
  the cache;
* `Loader.rows_dispatched`: what loading the rows of a result gives.
-/

namespace RowMapping

variable {κ β : Type} [RowTypes κ]

/-! ### The discriminator column -/

/-- The column is the first one in the range that has the property. -/
def IsFirstColumn (p : Nat → Prop) (start length column : Nat) : Prop :=
  start ≤ column ∧ column < start + length ∧ p column ∧ ∀ i, start ≤ i → i < column → ¬ p i

theorem find?_range'_eq_some_iff {p : Nat → Bool} {start length column : Nat} :
    (List.range' start length).find? p = some column ↔
      IsFirstColumn (fun i => p i = true) start length column := by
  rw [List.find?_range'_eq_some, List.mem_range'_1]
  simp only [Bool.not_eq_true', ← Bool.not_eq_true]
  exact ⟨fun ⟨hp, ⟨hle, hlt⟩, hfirst⟩ => ⟨hle, hlt, hp, hfirst⟩,
    fun ⟨hle, hlt, hp, hfirst⟩ => ⟨hp, ⟨hle, hlt⟩, hfirst⟩⟩

namespace Loader

variable {l : Loader κ β} {v : RowView} {start length column : Nat}

/-- The column is the first one of exactly the name of the discriminator or, if there is none, the
first one of its name up to case. -/
def IsDiscriminator (l : Loader κ β) (v : RowView) (start length column : Nat) : Prop :=
  IsFirstColumn (fun i => v.name i = l.discriminator) start length column ∨
    ((∀ i, start ≤ i → i < start + length → v.name i ≠ l.discriminator) ∧
      IsFirstColumn (fun i => Text.sameName (v.name i) l.discriminator = true) start length column)

theorem column?_eq_some_iff :
    l.column? v start length = some column ↔ l.IsDiscriminator v start length column := by
  unfold column? IsDiscriminator
  rw [Option.or_eq_some_iff, find?_range'_eq_some_iff, find?_range'_eq_some_iff,
    List.find?_range'_eq_none]
  simp only [beq_iff_eq, Bool.not_eq_true', beq_eq_false_iff_ne]

theorem column?_eq_none_iff :
    l.column? v start length = none ↔
      ∀ i, start ≤ i → i < start + length → Text.sameName (v.name i) l.discriminator = false := by
  unfold column?
  rw [Option.or_eq_none_iff, List.find?_range'_eq_none, List.find?_range'_eq_none]
  simp only [Bool.not_eq_true']
  refine ⟨And.right, fun h => ⟨fun i hle hlt => ?_, h⟩⟩
  rw [beq_eq_false_iff_ne]
  intro heq
  have hsame : Text.sameName (v.name i) l.discriminator = true := by rw [heq, Text.sameName_iff]
  rw [h i hle hlt] at hsame
  cases hsame

theorem bind_eq {range : ColumnRange} (hrange : range.resolve v.columnCount = .ok (start, length))
    (firstMissing : Bool) :
    l.bind v range firstMissing =
      match l.column? v start length with
      | some column => .ok ⟨l, column, ⟨start, some length⟩, firstMissing⟩
      | none => .error (.configuration (.noDiscriminator l.discriminator)) := by
  simp only [Loader.bind, hrange, Bind.bind, Except.bind]
  cases l.column? v start length <;> rfl

end Loader

/-! ### Handlers that stay -/

/-- The event does not change the handlers. -/
def CacheEvent.KeepsHandlers {κ : Type} : CacheEvent κ → Prop
  | .addHandler _ _ => False
  | .removeHandler _ => False
  | _ => True

theorem CacheEvent.keepsHandlers_lookup {κ : Type} (k : κ) (v : RowView) (range : ColumnRange)
    (firstMissing : Bool) : (CacheEvent.lookup k v range firstMissing).KeepsHandlers :=
  trivial

variable [DecidableEq κ]

namespace Cache

variable {c : Cache κ} {e : CacheEvent κ}

/-- Every entry was built with the handlers that the cache has. -/
def UpToDate (c : Cache κ) : Prop :=
  ∀ entry ∈ c.entries, entry.2.BuiltWith entry.1 c.handlers

theorem handlers_after (he : e.KeepsHandlers) : (c.after e).handlers = c.handlers := by
  cases e with
  | lookup k v range firstMissing =>
    rcases lookup_cases c k v range firstMissing with
      ⟨error, h⟩ | ⟨start, length, -, ⟨-, d, -, h⟩ | ⟨-, rowFn, -, h⟩⟩
    · rw [after_lookup_of_error h]
    · rw [after_lookup_of_ok h]
      rfl
    · rw [after_lookup_of_ok h]
      rfl
  | purge type? => rfl
  | addHandler t handler => exact he.elim
  | removeHandler t => exact he.elim

theorem UpToDate.after (h : c.UpToDate) (he : e.KeepsHandlers) : (c.after e).UpToDate := by
  intro entry hentry
  rw [handlers_after he]
  rcases (mem_entries_after hentry).2 with hmem | hbuilt
  · exact h entry hmem
  · exact hbuilt

theorem upToDate_run (signature : Signature) (handlers : Handlers) {events : List (CacheEvent κ)}
    (h : ∀ e ∈ events, e.KeepsHandlers) :
    ((fresh signature handlers).run events).UpToDate ∧
      ((fresh signature handlers).run events).handlers = handlers := by
  induction events using List.reverseRecOn with
  | nil => exact ⟨fun _ hentry => (List.not_mem_nil hentry).elim, rfl⟩
  | append_singleton events e ih =>
    obtain ⟨hevents, he⟩ := List.forall_mem_append.1 h
    have he := List.forall_mem_singleton.1 he
    obtain ⟨hfresh, hhandlers⟩ := ih hevents
    rw [run_concat]
    exact ⟨hfresh.after he, (handlers_after he).trans hhandlers⟩

theorem UpToDate.getOrBuild_eq (h : c.UpToDate) {k : κ} (hk : (RowTypes.layout k).IgnoresSchema)
    {v : RowView} {range : ColumnRange} {start length : Nat}
    (hrange : range.resolve v.columnCount = .ok (start, length)) (firstMissing : Bool)
    (schema : SchemaId) :
    (c.getOrBuild k v range firstMissing).map (·.1.rowFn) =
      (RowTypes.layout k).build v c.handlers start length firstMissing schema := by
  cases hlookup : c.getOrBuild k v range firstMissing with
  | error e =>
    rcases getOrBuild_eq_error hlookup with herror | ⟨start', length', schema', hrange', hbuild⟩
    · rw [hrange] at herror
      cases herror
    · cases hrange.symm.trans hrange'
      exact ((hk.build_eq ..).trans hbuild).symm
  | ok found =>
    obtain ⟨d, c'⟩ := found
    obtain ⟨start', length', hrange', hshape, hmem⟩ := exists_entry_of_getOrBuild hlookup
    cases hrange.symm.trans hrange'
    have he := CacheEvent.keepsHandlers_lookup k v range firstMissing
    rw [← after_lookup_of_ok hlookup] at hmem
    have hbuilt := h.after he _ hmem
    rw [handlers_after he] at hbuilt
    obtain ⟨schema', hbuild⟩ := hbuilt.build_eq hshape
    exact ((hk.build_eq ..).trans hbuild).symm

end Cache

namespace BoundLoader

variable {b : BoundLoader κ β} {c : Cache κ} {v w : RowView} {start length : Nat} {k : κ}

/-- The discriminator of the row gives the type. -/
def Selects (b : BoundLoader κ β) (w : RowView) (k : κ) : Prop :=
  ∃ x, w.value b.column = .ok x ∧ x.isNull = false ∧ b.loader.resolve x = some k

/-- The object of a row of the given type, with a row function built for this row alone. -/
def objectAs (b : BoundLoader κ β) (k : κ) (handlers : Handlers) (start length : Nat)
    (schema : SchemaId) (w : RowView) : Except Error (Option β) := do
  let rowFn ← (RowTypes.layout k).build w handlers start length b.firstMissing schema
  return (← rowFn w).map (b.loader.embed k)

/-- What a row gives by itself: it has no object if its discriminator is null, and otherwise one of
the type that the discriminator says. -/
def objectOf (b : BoundLoader κ β) (handlers : Handlers) (start length : Nat) (schema : SchemaId)
    (w : RowView) : Except Error (Option β) := do
  let x ← w.value b.column
  if x.isNull then return none
  match b.loader.resolve x with
  | none => throw (.configuration (.noSubtype b.loader.discriminator x))
  | some k => b.objectAs k handlers start length schema w

/-- The objects of rows, one after the other. -/
def loadAll (b : BoundLoader κ β) : List RowView → Cache κ →
    List (Except Error (Option β)) × Cache κ
  | [], c => ([], c)
  | w :: ws, c =>
    let (object, c) := b.load w c
    let (objects, c) := b.loadAll ws c
    (object :: objects, c)

theorem load_cases (b : BoundLoader κ β) (w : RowView) :
    (∃ object, (∀ c, b.load w c = (object, c)) ∧
        ∀ handlers start length schema, b.objectOf handlers start length schema w = object) ∨
      ∃ k, b.Selects w k ∧ (∀ c, b.load w c = b.loadAs k w c) ∧
        ∀ handlers start length schema, b.objectOf handlers start length schema w =
          b.objectAs k handlers start length schema w := by
  simp only [load, objectOf, Bind.bind, Except.bind]
  cases hvalue : w.value b.column with
  | error e => exact .inl ⟨.error e, fun _ => rfl, fun _ _ _ _ => rfl⟩
  | ok x =>
    cases hnull : x.isNull with
    | true =>
      simp only [hnull, if_true]
      exact .inl ⟨.ok none, fun _ => rfl, fun _ _ _ _ => rfl⟩
    | false =>
      simp only [hnull, Bool.false_eq_true, if_false]
      cases hresolve : b.loader.resolve x with
      | none =>
        exact .inl ⟨.error (.configuration (.noSubtype b.loader.discriminator x)), fun _ => rfl,
          fun _ _ _ _ => rfl⟩
      | some k =>
        exact .inr ⟨k, ⟨x, hvalue, hnull, hresolve⟩, fun _ => rfl, fun _ _ _ _ => rfl⟩

/-- If all entries are up to date, an object that is made through the cache is that of a row
function built for its row alone. -/
theorem loadAs_fst (hc : c.UpToDate) (hk : (RowTypes.layout k).IgnoresSchema)
    (hrange : b.range.resolve w.columnCount = .ok (start, length)) (schema : SchemaId) :
    (b.loadAs k w c).1 = b.objectAs k c.handlers start length schema w := by
  unfold loadAs objectAs
  rw [← hc.getOrBuild_eq hk hrange b.firstMissing schema]
  cases c.getOrBuild k w b.range b.firstMissing with
  | error e => rfl
  | ok found => rfl

theorem loadAs_snd : (b.loadAs k w c).2 = c.after (.lookup k w b.range b.firstMissing) := by
  simp only [loadAs, Cache.after]
  cases c.getOrBuild k w b.range b.firstMissing with
  | error e => rfl
  | ok found => rfl

theorem load_snd_cases (b : BoundLoader κ β) (w : RowView) (c : Cache κ) :
    (b.load w c).2 = c ∨
      ∃ k, b.Selects w k ∧ (b.load w c).2 = c.after (.lookup k w b.range b.firstMissing) := by
  rcases b.load_cases w with ⟨object, hload, -⟩ | ⟨k, hk, hload, -⟩
  · exact .inl (congrArg Prod.snd (hload c))
  · exact .inr ⟨k, hk, (congrArg Prod.snd (hload c)).trans loadAs_snd⟩

theorem load_handlers (b : BoundLoader κ β) (w : RowView) (c : Cache κ) :
    (b.load w c).2.handlers = c.handlers := by
  rcases b.load_snd_cases w c with hc' | ⟨k, -, hc'⟩
  · rw [hc']
  · rw [hc', Cache.handlers_after (CacheEvent.keepsHandlers_lookup ..)]

theorem load_upToDate (b : BoundLoader κ β) (w : RowView) (hc : c.UpToDate) :
    (b.load w c).2.UpToDate := by
  rcases b.load_snd_cases w c with hc' | ⟨k, -, hc'⟩
  · rw [hc']
    exact hc
  · rw [hc']
    exact hc.after (CacheEvent.keepsHandlers_lookup ..)

theorem load_fst (hc : c.UpToDate) (hb : ∀ k, b.Selects w k → (RowTypes.layout k).IgnoresSchema)
    (hrange : b.range.resolve w.columnCount = .ok (start, length)) (schema : SchemaId) :
    (b.load w c).1 = b.objectOf c.handlers start length schema w := by
  rcases b.load_cases w with ⟨object, hload, hobject⟩ | ⟨k, hk, hload, hobject⟩
  · rw [hload, hobject]
  · rw [hload, hobject]
    exact loadAs_fst hc (hb k hk) hrange schema

/-! ### The rows of one result -/

/-- The rows are of the result whose columns the view shows: they have as many columns, and the same
ones in the range. -/
def OfResult (v : RowView) (start length : Nat) (rows : List RowView) : Prop :=
  ∀ w ∈ rows, w.columnCount = v.columnCount ∧ v.SameColumns start w start length

/-- The cache has a row function of the type for the columns of the result. -/
def Has (b : BoundLoader κ β) (v : RowView) (start length : Nat) (c : Cache κ) (k : κ) : Prop :=
  c.Serves (c.keyFor k v start length b.firstMissing) v

theorem loadAll_fst (hc : c.UpToDate)
    (hb : ∀ w k, b.Selects w k → (RowTypes.layout k).IgnoresSchema)
    {rows : List RowView} (hrows : ∀ w ∈ rows, b.range.resolve w.columnCount = .ok (start, length))
    (schema : SchemaId) :
    (b.loadAll rows c).1 = rows.map (b.objectOf c.handlers start length schema) := by
  induction rows generalizing c with
  | nil => rfl
  | cons w rows ih =>
    obtain ⟨hw, hrows⟩ := List.forall_mem_cons.1 hrows
    have hobjects := ih (c := (b.load w c).2) (load_upToDate b w hc) hrows
    rw [load_handlers] at hobjects
    rw [List.map_cons, ← load_fst hc (hb w) hw schema, ← hobjects]
    rfl

/-- A lookup keeps the row functions that there are for the result, and builds one only if that of
its type is not there yet. -/
theorem has_after_lookup (hrange : b.range.resolve w.columnCount = .ok (start, length))
    (hw : v.SameColumns start w start length) :
    let c' := c.after (.lookup k w b.range b.firstMissing)
    (∀ k', b.Has v start length c k' → b.Has v start length c' k') ∧
      (c'.builds = c.builds ∨
        ¬ b.Has v start length c k ∧ b.Has v start length c' k ∧
          (∃ schema rowFn, (RowTypes.layout k).build v c.handlers start length b.firstMissing
            schema = .ok rowFn) ∧
          c'.builds = c.builds + 1) := by
  intro c'
  rcases Cache.lookup_cases c k w b.range b.firstMissing with
    ⟨e, hlookup⟩ | ⟨start', length', hrange', ⟨hserves, d, -, hlookup⟩ |
      ⟨hserves, rowFn, hbuild, hlookup⟩⟩
  · have hc' : c' = c := Cache.after_lookup_of_error hlookup
    rw [hc']
    exact ⟨fun _ h => h, .inl rfl⟩
  · have hc' : c' = c.countHit d := Cache.after_lookup_of_ok hlookup
    rw [hc']
    exact ⟨fun _ h => h.of_entries rfl, .inl rfl⟩
  · cases hrange.symm.trans hrange'
    have hc' := Cache.after_lookup_of_ok hlookup
    rw [← c.keyFor_congr k b.firstMissing hw, ← Cache.serves_congr hw] at hserves
    have hhas (k' : κ) : b.Has v start length c' k' ↔ k = k' ∨ b.Has v start length c k' := by
      have hserves : c'.Serves (c.keyFor k' v start length b.firstMissing) v ↔ _ :=
        hc' ▸ Cache.serves_withEntry_iff
      have hsignature : c'.signature = c.signature := Cache.signature_after ..
      unfold Has
      rw [Cache.keyFor, hsignature]
      refine hserves.trans ?_
      by_cases hk : k = k'
      · subst hk
        have hkey := c.keyFor_congr k b.firstMissing hw
        exact iff_of_true (.inl ⟨hkey.symm, hw.symm⟩) (.inl rfl)
      · have hkey : c.keyFor k w start length b.firstMissing ≠
            c.keyFor k' v start length b.firstMissing := fun h => hk (congrArg CacheKey.type h)
        simp only [hkey, hk, ne_eq, not_false_eq_true, true_and, false_and, false_or]
    refine ⟨fun k' h => (hhas k').2 (.inr h), .inr ⟨hserves, (hhas k).2 (.inl rfl), ?_, ?_⟩⟩
    · exact ⟨c.schemas.next, rowFn, (Layout.build_congr _ _ hw _ _).trans hbuild⟩
    · exact congrArg Cache.builds hc'

theorem has_after_load (hrange : b.range.resolve w.columnCount = .ok (start, length))
    (hw : v.SameColumns start w start length) :
    let c' := (b.load w c).2
    (∀ k, b.Has v start length c k → b.Has v start length c' k) ∧
      (c'.builds = c.builds ∨
        ∃ k, b.Selects w k ∧ ¬ b.Has v start length c k ∧ b.Has v start length c' k ∧
          (∃ schema rowFn, (RowTypes.layout k).build v c.handlers start length b.firstMissing
            schema = .ok rowFn) ∧
          c'.builds = c.builds + 1) := by
  intro c'
  rcases b.load_snd_cases w c with hc' | ⟨k, hk, hc'⟩
  · rw [show c' = c from hc']
    exact ⟨fun _ h => h, .inl rfl⟩
  · rw [show c' = c.after (.lookup k w b.range b.firstMissing) from hc']
    obtain ⟨hkeeps, hbuilds | hbuilds⟩ := has_after_lookup (k := k) (c := c) hrange hw
    · exact ⟨hkeeps, .inl hbuilds⟩
    · exact ⟨hkeeps, .inr ⟨k, hk, hbuilds⟩⟩

/-- Loading rows of a result builds at most one row function for each type of a row, and only if the
cache has none. -/
theorem loadAll_builds {rows : List RowView}
    (hrange : b.range.resolve v.columnCount = .ok (start, length))
    (hrows : OfResult v start length rows) :
    ∃ built : List κ, built.Nodup ∧
      (∀ k ∈ built, ¬ b.Has v start length c k ∧ (∃ w ∈ rows, b.Selects w k) ∧
        ∃ schema rowFn, (RowTypes.layout k).build v c.handlers start length b.firstMissing schema =
          .ok rowFn) ∧
      (b.loadAll rows c).2.builds = c.builds + built.length := by
  induction rows generalizing c with
  | nil => exact ⟨[], .nil, fun _ h => (List.not_mem_nil h).elim, rfl⟩
  | cons w rows ih =>
    obtain ⟨⟨hcount, hw⟩, hrows⟩ := List.forall_mem_cons.1 hrows
    rw [← hcount] at hrange
    have hhandlers := b.load_handlers w c
    obtain ⟨hkeeps, hload⟩ := has_after_load (b := b) (c := c) hrange hw
    rw [hcount] at hrange
    obtain ⟨built, hnodup, hbuilt, hbuilds⟩ := ih (c := (b.load w c).2) hrows
    have hbuilt' : ∀ k ∈ built, ¬ b.Has v start length c k ∧
        (∃ w' ∈ w :: rows, b.Selects w' k) ∧
        ∃ schema rowFn, (RowTypes.layout k).build v c.handlers start length b.firstMissing schema =
          .ok rowFn := by
      intro k hk
      obtain ⟨hnew, ⟨w', hw', hselects⟩, hbuild⟩ := hbuilt k hk
      rw [hhandlers] at hbuild
      exact ⟨fun h => hnew (hkeeps k h), ⟨w', List.mem_cons_of_mem _ hw', hselects⟩, hbuild⟩
    rcases hload with hsame | ⟨k, hselects, hnew, hhas, hbuild, hmore⟩
    · exact ⟨built, hnodup, hbuilt', hbuilds.trans (by rw [hsame])⟩
    · -- the type that was built for this row is there for the rows behind it
      refine ⟨k :: built, List.nodup_cons.2 ⟨fun hk => (hbuilt k hk).1 hhas, hnodup⟩, ?_, ?_⟩
      · exact List.forall_mem_cons.2
          ⟨⟨hnew, ⟨w, List.mem_cons_self, hselects⟩, hbuild⟩, hbuilt'⟩
      · rw [List.length_cons]
        exact hbuilds.trans (by rw [hmore]; omega)

end BoundLoader

namespace Loader

/-- **Every row is made as the type that its discriminator says.**  Binding a loader to a range
fails just if no column in it has the name of the discriminator up to case; the column of exactly
its name goes before others.  Let the handlers of the cache stay what they are.  Then loading any
rows of the result, of whatever types and whatever was looked up before, gives for each what it
gives by itself: nothing if its discriminator is null, an error if it says no type, and otherwise
what a row function of its type gives that is built for this row alone.  At most one row function is
built for each type that a row has, and none for a type that cannot be built. -/
theorem rows_dispatched (signature : Signature) (handlers : Handlers) (events : List (CacheEvent κ))
    (hevents : ∀ e ∈ events, e.KeepsHandlers) (l : Loader κ β)
    (hl : ∀ x k, l.resolve x = some k → (RowTypes.layout k).IgnoresSchema) (v : RowView)
    (range : ColumnRange) (firstMissing : Bool) (start length : Nat)
    (hrange : range.resolve v.columnCount = .ok (start, length)) :
    let c := (Cache.fresh signature handlers).run events
    (∀ e, l.bind v range firstMissing = .error e ↔
        e = .configuration (.noDiscriminator l.discriminator) ∧ ∀ i, start ≤ i →
          i < start + length → Text.sameName (v.name i) l.discriminator = false) ∧
      ∀ b, l.bind v range firstMissing = .ok b →
        l.IsDiscriminator v start length b.column ∧
          b = ⟨l, b.column, ⟨start, some length⟩, firstMissing⟩ ∧
          ∀ rows, BoundLoader.OfResult v start length rows → ∀ schema,
            (b.loadAll rows c).1 = rows.map (b.objectOf handlers start length schema) ∧
              ∃ built : List κ, built.Nodup ∧
                (∀ k ∈ built, (∃ w ∈ rows, b.Selects w k) ∧
                  ∃ rowFn, (RowTypes.layout k).build v handlers start length firstMissing schema =
                    .ok rowFn) ∧
                (b.loadAll rows c).2.builds = c.builds + built.length := by
  intro c
  rw [bind_eq hrange]
  refine ⟨fun e => ?_, fun b hb => ?_⟩
  · rw [← column?_eq_none_iff]
    cases l.column? v start length with
    | none => exact ⟨fun h => ⟨(Except.error.inj h).symm, rfl⟩, fun h => by rw [h.1]⟩
    | some column => exact ⟨(nomatch ·), fun h => absurd h.2 (Option.some_ne_none column)⟩
  · cases hcolumn : l.column? v start length with
    | none =>
      rw [hcolumn] at hb
      cases hb
    | some column =>
      rw [hcolumn] at hb
      cases hb
      refine ⟨column?_eq_some_iff.1 hcolumn, rfl, fun rows hrows schema => ?_⟩
      obtain ⟨hc, hhandlers⟩ : c.UpToDate ∧ c.handlers = handlers :=
        Cache.upToDate_run signature handlers hevents
      have hplace := ColumnRange.resolve_of_resolve hrange
      have hselects (w : RowView) (k : κ)
          (h : BoundLoader.Selects ⟨l, column, ⟨start, some length⟩, firstMissing⟩ w k) :
          (RowTypes.layout k).IgnoresSchema := by
        obtain ⟨x, -, -, hresolve⟩ := h
        exact hl x k hresolve
      constructor
      · rw [← hhandlers]
        exact BoundLoader.loadAll_fst hc hselects (fun w hw => (hrows w hw).1 ▸ hplace) schema
      · obtain ⟨built, hnodup, hbuilt, hbuilds⟩ := BoundLoader.loadAll_builds
          (b := ⟨l, column, ⟨start, some length⟩, firstMissing⟩) (c := c) hplace hrows
        refine ⟨built, hnodup, fun k hk => ?_, hbuilds⟩
        obtain ⟨-, ⟨w, hw, hk⟩, schema', rowFn, hbuild⟩ := hbuilt k hk
        rw [hhandlers] at hbuild
        exact ⟨⟨w, hw, hk⟩, rowFn, ((hselects w k hk).build_eq ..).trans hbuild⟩

/-- Integers and truth values in turn, a row without discriminator and one of no type. -/
theorem rows_dispatched_of_two_types :
    let int : IntType := ⟨true, .w64⟩
    let row (n : Int64) (kind : Value) : RowView :=
      ⟨2, fun i => ["n", "KIND"].getD i "", fun i => [.i64, .text].getD i .null,
        fun i => .ok ([.signed n, kind].getD i .null)⟩
    let l : Loader ScalarType ((k : ScalarType) × Object k) :=
      ⟨"kind", fun | .text "int" => some (.int int) | .text "bool" => some .bool | _ => none,
        Sigma.mk⟩
    let header := row 0 .null
    let b : BoundLoader ScalarType ((k : ScalarType) × Object k) := ⟨l, 1, ⟨0, some 2⟩, false⟩
    let events : List (CacheEvent ScalarType) := [.lookup .bool header .all false]
    let c := (Cache.fresh .hashed .empty).run events
    let rows := [row 7 (.text "int"), row 1 (.text "bool"), row 8 (.text "int"), row 9 .null,
      row 9 (.text "real")]
    l.bind header .all false = .ok b ∧ BoundLoader.OfResult header 0 2 rows ∧
      (b.loadAll rows c).1 = [.ok (some ⟨.int int, int.wrapped 7⟩), .ok (some ⟨.bool, true⟩),
        .ok (some ⟨.int int, int.wrapped 8⟩), .ok none,
        .error (.configuration (.noSubtype "kind" (.text "real")))] ∧
      ∃ built : List ScalarType, built.Nodup ∧ (b.loadAll rows c).2.builds = 1 + built.length := by
  intro int row l header b events c rows
  have hl : ∀ x k, l.resolve x = some k → (RowTypes.layout k).IgnoresSchema :=
    fun _ _ _ => Layout.ignoresSchema_of_not_isDynamic rfl
  have hevents : ∀ e ∈ events, e.KeepsHandlers :=
    List.forall_mem_singleton.2 (CacheEvent.keepsHandlers_lookup ..)
  have hbind : l.bind header .all false = .ok b := by
    dsimp only [l, header, row, b, int]
    rfl
  have hrows : BoundLoader.OfResult header 0 2 rows := by
    have hrow (n : Int64) (kind : Value) : (row n kind).columnCount = header.columnCount ∧
        header.SameColumns 0 (row n kind) 0 2 := ⟨rfl, fun _ _ => rfl, fun _ _ => rfl⟩
    simp only [BoundLoader.OfResult, rows, List.forall_mem_cons, hrow, true_and, and_true]
    exact fun _ h => (List.not_mem_nil h).elim
  obtain ⟨-, hbound⟩ :=
    rows_dispatched .hashed .empty events hevents l hl header .all false 0 2 rfl
  obtain ⟨-, -, hloaded⟩ := hbound b hbind
  obtain ⟨hobjects, built, hnodup, -, hbuilds⟩ := hloaded rows hrows ⟨0⟩
  refine ⟨hbind, hrows, hobjects.trans ?_, built, hnodup, hbuilds⟩
  dsimp only [rows, b, l, row, int]
  rfl

end Loader

end RowMapping
