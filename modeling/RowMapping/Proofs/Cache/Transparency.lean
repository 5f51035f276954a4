import RowMapping.Proofs.Cache.History

/-!
# The cache is transparent

Whatever was done to a cache, and however its signatures are computed, a row function that is looked
up is what building it anew would give, with the handlers of a moment after the last purge of its
type (`Cache.getOrBuild_transparent`).  As long as the handlers stay what they are, one cannot tell
a lookup from building.

This is about objects that do not hold on to the schema of dynamic rows: two builds of a dynamic row
type give rows of different shared schemas.
-/

namespace RowMapping

namespace Layout

variable {α : Type} {layout : Layout α}

/-- The objects do not depend on which shared schema dynamic rows have.  Only a dynamic layout can
depend on it. -/
def IgnoresSchema : Layout α → Prop
  | .dynamic build => ∀ schema schema' cells, build ⟨schema, cells⟩ = build ⟨schema', cells⟩
  | _ => True

theorem ignoresSchema_of_not_isDynamic (h : layout.isDynamic = false) : layout.IgnoresSchema := by
  cases layout with
  | dynamic build => cases h
  | _ => trivial

theorem IgnoresSchema.build_eq (h : layout.IgnoresSchema) (v : RowView) (handlers : Handlers)
    (start length : Nat) (firstMissing : Bool) (schema schema' : SchemaId) :
    layout.build v handlers start length firstMissing schema =
      layout.build v handlers start length firstMissing schema' := by
  cases layout with
  | dynamic build =>
    have hrow (vs : List Value) : build (.ofValues schema vs) = build (.ofValues schema' vs) :=
      h schema schema' _
    unfold Layout.build buildDynamic
    simp only [hrow]
  | _ => rfl

end Layout

variable {κ : Type} [RowTypes κ] [DecidableEq κ]

namespace Cache

/-- **The cache is transparent.**  A row function that is looked up after any history is the one
that would be built for any columns of the same names and types with the handlers of some moment
since the last purge of its type.  If the handlers have not changed since then, a lookup gives just
what building gives, errors included. -/
theorem getOrBuild_transparent (signature : Signature) (handlers : Handlers)
    (events : List (CacheEvent κ)) (k : κ) (hk : (RowTypes.layout k).IgnoresSchema) (v : RowView)
    (range : ColumnRange) (firstMissing : Bool) :
    let c : List (CacheEvent κ) → Cache κ := (fresh signature handlers).run
    (∀ d c', (c events).getOrBuild k v range firstMissing = .ok (d, c') →
      ∃ start length, range.resolve v.columnCount = .ok (start, length) ∧
        ∃ before, CacheEvent.NoPurgeSince k before events ∧
          ∀ w, v.SameColumns start w start length → ∀ schema,
            (RowTypes.layout k).build w (c before).handlers start length firstMissing schema =
              .ok d.rowFn) ∧
    ((∀ before, CacheEvent.NoPurgeSince k before events →
        (c before).handlers = (c events).handlers) →
      ∀ schema, ((c events).getOrBuild k v range firstMissing).map (·.1.rowFn) =
        (range.resolve v.columnCount).bind fun (start, length) =>
          (RowTypes.layout k).build v (c events).handlers start length firstMissing schema) := by
  intro c
  have hlookup (d : Deserializer k) (c' : Cache κ)
      (h : (c events).getOrBuild k v range firstMissing = .ok (d, c')) :
      ∃ start length, range.resolve v.columnCount = .ok (start, length) ∧
        ∃ before, CacheEvent.NoPurgeSince k before events ∧
          ∀ w, v.SameColumns start w start length → ∀ schema,
            (RowTypes.layout k).build w (c before).handlers start length firstMissing schema =
              .ok d.rowFn := by
    obtain ⟨start, length, hrange, before, hbefore, hbuild⟩ := exists_build_of_getOrBuild rfl h
    refine ⟨start, length, hrange, before, hbefore, fun w hw schema => ?_⟩
    obtain ⟨schema', hbuild⟩ := hbuild w hw
    exact (hk.build_eq ..).trans hbuild
  refine ⟨hlookup, fun hhandlers schema => ?_⟩
  cases hresult : (c events).getOrBuild k v range firstMissing with
  | error e =>
    rcases getOrBuild_eq_error hresult with hrange | ⟨start, length, schema', hrange, hbuild⟩
    · rw [hrange]
      rfl
    · rw [hrange]
      exact (((hk.build_eq ..).trans hbuild)).symm
  | ok found =>
    obtain ⟨d, c'⟩ := found
    obtain ⟨start, length, hrange, before, hbefore, hbuild⟩ := hlookup d c' hresult
    rw [hrange]
    have hsame := hbuild v ⟨fun _ _ => rfl, fun _ _ => rfl⟩ schema
    rw [hhandlers before hbefore] at hsame
    exact hsame.symm

/-- Two shapes with one signature, and a handler that is there since before the last purge. -/
theorem getOrBuild_transparent_of_collision :
    let word : RowView := ⟨1, fun _ => "word", fun _ => .text, fun _ => .ok (.text "a")⟩
    let number : RowView := ⟨1, fun _ => "number", fun _ => .i64, fun _ => .ok (.signed 7)⟩
    let events : List (CacheEvent ScalarType) :=
      [.addHandler .text fun _ => .ok (.text "b"), .purge none, .lookup .text word .all false]
    let c := (fresh (fun _ _ _ => 0) .empty : Cache ScalarType).run
    (RowTypes.layout ScalarType.text).IgnoresSchema ∧
      (∀ before, CacheEvent.NoPurgeSince .text before events →
        (c before).handlers = (c events).handlers) ∧
      ∀ schema, ((c events).getOrBuild .text number .all false).map (·.1.rowFn) =
        (ColumnRange.all.resolve number.columnCount).bind fun (start, length) =>
          (RowTypes.layout ScalarType.text).build number (c events).handlers start length false
            schema := by
  intro word number events c
  have hhandlers : ∀ before, CacheEvent.NoPurgeSince .text before events →
      (c before).handlers = (c events).handlers := by
    rintro before ⟨after, heq, hafter⟩
    simp only [events, List.cons_eq_append_iff, List.nil_eq_append_iff] at heq
    rcases heq with ⟨rfl, rfl⟩ | ⟨_, rfl, ⟨rfl, rfl⟩ | ⟨_, rfl, ⟨rfl, rfl⟩ | ⟨_, rfl, rfl, rfl⟩⟩⟩
    -- the first two moments are before the purge
    · exact absurd trivial (hafter (.purge none) (by simp))
    · exact absurd trivial (hafter (.purge none) (by simp))
    · rfl
    · rfl
  have hk : (RowTypes.layout ScalarType.text).IgnoresSchema :=
    Layout.ignoresSchema_of_not_isDynamic rfl
  exact ⟨hk, hhandlers,
    (getOrBuild_transparent _ _ events .text hk number .all false).2 hhandlers⟩

end Cache

end RowMapping
