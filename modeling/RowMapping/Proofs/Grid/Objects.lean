import RowMapping.Grid.Suspending
import RowMapping.Proofs.Grid.Walk
import RowMapping.Proofs.Outcome

/-!
# Where objects come from

Every object that a reader of either kind gives was made by the row function that its cache had for
the grid.

* `Walk.exists_row_of_pulled`: objects that are pulled are made by the row function of a row;
* `Walk.exists_lookup_of_openGrid`: the row function of a grid comes from a lookup;
* `GridReader.exists_lookup`, `SuspendingReader.exists_lookup`: both together.
-/

namespace RowMapping

theorem rowItem?_eq_ok {α : Type} {rowFn? : Option (RowFn α)} {v : RowView} {x : α}
    (h : rowItem? rowFn? v = some (.ok x)) :
    ∃ rowFn, rowFn? = some rowFn ∧ rowFn v = .ok (some x) := by
  cases rowFn? with
  | none => cases h
  | some rowFn =>
    refine ⟨rowFn, rfl, ?_⟩
    unfold rowItem? at h
    dsimp only at h
    split at h <;> cases h
    assumption

variable {σ κ : Type} [Cursor σ]

namespace Walk

variable {ρ ρ' α : Type}

theorem exists_row_of_pulled {keep : Keep σ ρ} {rowFn? : Option (RowFn α)} {grid : Nat}
    {demand : Demand} {w : Walk σ} {x : α}
    (hx : .ok x ∈ (pull keep rowFn? grid demand w).result.items) :
    ∃ rowFn v, rowFn? = some rowFn ∧ rowFn v = .ok (some x) := by
  have hrow (v : RowView) {item : Except Error α} (hitem : rowItem? rowFn? v = some item)
      (h : .ok x = item) : ∃ rowFn v, rowFn? = some rowFn ∧ rowFn v = .ok (some x) := by
    obtain ⟨rowFn, hsome, hvalue⟩ := rowItem?_eq_ok (hitem.trans (congrArg some h.symm))
    exact ⟨rowFn, v, hsome, hvalue⟩
  refine pull_induction keep rowFn? grid
    (motive := fun _ _ run => .ok x ∈ run.result.items →
      ∃ rowFn v, rowFn? = some rowFn ∧ rowFn v = .ok (some x))
    ?met ?failed ?ended ?passed ?fatal ?item demand w hx
  case met => exact fun _ _ _ => nofun
  case failed =>
    intro demand w e _ _ h
    cases List.mem_singleton.1 h
  case ended =>
    intro demand w _ _ h
    obtain ⟨e, -, he⟩ := Option.map_eq_some_iff.1 (Option.mem_toList.1 h)
    cases he
  case passed => exact fun _ _ _ _ _ ih => ih
  case fatal => exact fun _ _ _ _ _ hitem _ h => hrow _ hitem (List.mem_singleton.1 h)
  case item =>
    intro demand w item _ _ hitem _ ih h
    rcases List.mem_cons.1 h with h | h
    · exact hrow _ hitem h
    · exact ih h

variable [RowTypes κ] [DecidableEq κ]

theorem exists_lookup_of_openGrid {keep : Walk σ → ρ} {cache : Cache κ} {k : κ} {grid : Nat}
    {w : Walk σ} {rowFn : RowFn (Object k)}
    (h : (openGrid keep cache k grid w).result.rowFn? = .ok (some rowFn)) :
    ∃ d c', cache.getOrBuild k w.view .all false = .ok (d, c') ∧ d.rowFn = rowFn := by
  cases opening cache k grid w with
  | rejected e _ heq =>
    rw [heq] at h
    cases h
  | empty _ heq =>
    rw [heq] at h
    cases h
  | found _ d cache' hlookup heq =>
    rw [heq] at h
    cases h
    exact ⟨d, cache', hlookup, rfl⟩
  | skipped _ e heq =>
    rw [heq] at h
    cases h

variable {keep : Walk σ → ρ} {keep' : Keep σ ρ'} {cache : Cache κ} {k : κ} {grid grid' : Nat}
  {demand : Demand} {w w' : Walk σ} {rowFn? : Option (RowFn (Object k))} {x : Object k}

theorem exists_lookup_of_pulled (h : (openGrid keep cache k grid w).result.rowFn? = .ok rowFn?)
    (hx : .ok x ∈ (pull keep' rowFn? grid' demand w').result.items) :
    ∃ d c' v, cache.getOrBuild k w.view .all false = .ok (d, c') ∧ d.rowFn v = .ok (some x) := by
  obtain ⟨rowFn, v, rfl, hvalue⟩ := exists_row_of_pulled hx
  obtain ⟨d, c', hlookup, rfl⟩ := exists_lookup_of_openGrid h
  exact ⟨d, c', v, hlookup, hvalue⟩

end Walk

variable [RowTypes κ] [DecidableEq κ] {k : κ} {grid : Nat} {demand : Demand} {x : Object k}

theorem GridReader.exists_lookup {r : GridReader σ κ} {p : Pulled σ (Object k)}
    (h : (r.pullGrid k grid demand).result.1 = .ok p) (hx : .ok x ∈ p.items) :
    ∃ d c' v, r.cache.getOrBuild k r.walk.view .all false = .ok (d, c') ∧
      d.rowFn v = .ok (some x) := by
  unfold pullGrid at h
  rw [Run.result_bind] at h
  cases hopened : (r.walk.openGrid keep.moving r.cache k grid).result.rowFn? with
  | error e =>
    rw [hopened] at h
    cases h
  | ok rowFn? =>
    rw [hopened] at h
    dsimp only at h
    rw [Run.result_bind] at h
    split at h <;> cases h <;> exact Walk.exists_lookup_of_pulled hopened hx

theorem SuspendingReader.exists_lookup {s : SuspendingReader σ κ} {stream : Stream σ k}
    (h : (s.pullGrid k grid demand).result = .ok stream)
    (hx : .ok x ∈ stream.pulled.items ∨
      ∃ demand', .ok x ∈ (stream.pullMore stream.rowFn? demand').result.items) :
    ∃ d c' v, s.cache.getOrBuild k s.walk.view .all false = .ok (d, c') ∧
      d.rowFn v = .ok (some x) := by
  unfold pullGrid at h
  rw [Run.result_bind] at h
  cases hopened : (s.walk.openGrid (keep s.cache grid).moving s.cache k grid).result.rowFn? with
  | error e =>
    rw [hopened] at h
    cases h
  | ok rowFn? =>
    rw [hopened] at h
    cases h
    rcases hx with hx | ⟨demand', hx⟩
    · exact Walk.exists_lookup_of_pulled hopened hx
    · unfold Stream.pullMore at hx
      split at hx
      · cases hx
      · exact Walk.exists_lookup_of_pulled hopened hx

end RowMapping
