import RowMapping.Grid.Walk

/-!
# The steps of a walk

`Walk.skip` and `Walk.pull` ask the cursor for one row after the other.  What they do next depends
on the answer and, when pulling, on the item that the row gives.

* `Walk.skip_eq`, `Walk.pull_of_isMet`, `Walk.pull_of_not_isMet`, `Walk.pull_of_no_row`: one step;
* `Walk.induction_next`, `Walk.pull_induction`: all of them.
-/

namespace RowMapping

theorem Position.begin_eq_ok {p p' : Position} {grid : Nat} (h : p.begin grid = .ok p') :
    p = .active grid ∧ p' = .consumed grid := by
  cases p with
  | active current =>
    by_cases hcurrent : current = grid
    · simp only [begin, if_pos hcurrent] at h
      cases h
      exact ⟨by rw [hcurrent], rfl⟩
    · simp only [begin, if_neg hcurrent] at h
      cases h
  | consumed current => cases h
  | disposed => cases h

/-- The item is an error that is fatal for the cursor. -/
def isFatalItem {α : Type} : Except Error α → Bool
  | .ok _ => false
  | .error e => e.isFatal

/-- The item of a row.  There is none if there is no row function or the row has no object. -/
def rowItem? {α : Type} (rowFn? : Option (RowFn α)) (v : RowView) : Option (Except Error α) :=
  match rowFn? with
  | none => none
  | some rowFn =>
    match rowFn v with
    | .ok none => none
    | .ok (some x) => some (.ok x)
    | .error e => some (.error e)

/-- The items that are seen with a demand: all until it is met, but none after a fatal error. -/
def Demand.seen {α : Type} (d : Demand) : List (Except Error α) → List (Except Error α)
  | [] => []
  | item :: items =>
    if d.isMet then [] else item :: if isFatalItem item then [] else (d.after item).seen items

theorem Demand.seen_of_isMet {α : Type} {d : Demand} (h : d.isMet = true)
    (items : List (Except Error α)) : d.seen items = [] := by
  cases items with
  | nil => rfl
  | cons item items => exact if_pos h

namespace Walk

variable {σ ρ α : Type} [Cursor σ]

/-- The walk after the cursor was asked for a row. -/
def next (w : Walk σ) : Walk σ := { w with cursor := (Cursor.advanceRow w.cursor).2 }

theorem next_eq {c c' : σ} {answer : Except Error Bool} (h : Cursor.advanceRow c = (answer, c'))
    (position : Position) : next ⟨c, position⟩ = ⟨c', position⟩ := by
  rw [next, h]

theorem skip_eq (keep : Walk σ → ρ) (grid : Nat) (w : Walk σ) :
    skip keep grid w =
      match (Cursor.advanceRow w.cursor).1 with
      | .ok true => do
        Run.ofCall .row (.ok true) (keep w)
        skip keep grid w.next
      | .ok false => do
        Run.ofCall .row (.ok false) (keep w)
        let r ← finish keep grid w.next
        return r.2
      | .error e => do
        Run.ofCall .row (.error e) (keep w)
        return w.next.dispose := by
  rw [skip]
  -- the match of the definition keeps its equation, which that of the statement does not
  split
  · rename_i h
    rw [h]
    rfl
  · rename_i h
    rw [h]
    rfl
  · rename_i h
    rw [h]
    rfl

variable (keep : Keep σ ρ) (rowFn? : Option (RowFn α)) (grid : Nat) {demand : Demand} (w : Walk σ)

theorem pull_of_isMet (h : demand.isMet = true) :
    pull keep rowFn? grid demand w = pure ⟨w, [], false⟩ := by
  rw [pull, if_pos h]

theorem pull_of_not_isMet (hmet : demand.isMet = false) :
    pull keep rowFn? grid demand w =
      match (Cursor.advanceRow w.cursor).1 with
      | .ok true => do
        Run.ofCall .row (.ok true) (keep.streaming w)
        match rowItem? rowFn? w.next.view with
        | none => pull keep rowFn? grid demand w.next
        | some item =>
          if isFatalItem item then return ⟨w.next.dispose, [item], true⟩
          else return (← pull keep rowFn? grid (demand.after item) w.next).cons item
      | .ok false => do
        Run.ofCall .row (.ok false) (keep.streaming w)
        let r ← finish keep.moving grid w.next
        match r.1 with
        | none => return ⟨r.2, [], true⟩
        | some e => return ⟨r.2, [.error e], true⟩
      | .error e => do
        Run.ofCall .row (.error e) (keep.streaming w)
        return ⟨w.next.dispose, [.error e], true⟩ := by
  rw [pull, if_neg (Bool.eq_false_iff.1 hmet)]
  split
  · rename_i h
    rw [h]
    cases rowFn? with
    | none => rfl
    | some rowFn =>
      unfold rowItem? next
      dsimp only
      cases rowFn (view { w with cursor := (Cursor.advanceRow w.cursor).2 }) with
      | error e => rfl
      | ok x? =>
        cases x? with
        | none => rfl
        | some x => rfl
  · rename_i h
    rw [h]
    rfl
  · rename_i h
    rw [h]
    rfl

theorem pull_of_no_row (hmet : demand.isMet = false)
    (h : (Cursor.advanceRow w.cursor).1 = .ok false) :
    pull keep rowFn? grid demand w = do
      Run.ofCall .row (.ok false) (keep.streaming w)
      let (failure, w) ← finish keep.moving grid w.next
      return ⟨w, (failure.map .error).toList, true⟩ := by
  rw [pull_of_not_isMet keep rowFn? grid w hmet, h]
  refine bind_congr fun _ => bind_congr fun ⟨failure, w'⟩ => ?_
  cases failure <;> rfl

/-! ### Beginning a grid -/

variable {κ : Type} [RowTypes κ] [DecidableEq κ]

/-- What beginning a grid comes to: it is not the next one, it has no columns, its row function is
looked up, or there is none and it is skipped. -/
inductive Opening (cache : Cache κ) (k : κ) (grid : Nat) (w : Walk σ) : Prop where
  | rejected (e : Error) (hbegin : w.position.begin grid = .error e)
    (heq : ∀ {ρ : Type} (keep : Walk σ → ρ),
      openGrid keep cache k grid w = pure ⟨w, cache, .error e⟩)
  | empty (hposition : w.position = .active grid)
    (heq : ∀ {ρ : Type} (keep : Walk σ → ρ),
      openGrid keep cache k grid w = pure ⟨⟨w.cursor, .consumed grid⟩, cache, .ok none⟩)
  | found (hposition : w.position = .active grid) (d : Deserializer k) (cache' : Cache κ)
    (hlookup : cache.getOrBuild k w.view .all false = .ok (d, cache'))
    (heq : ∀ {ρ : Type} (keep : Walk σ → ρ), openGrid keep cache k grid w =
      pure ⟨⟨w.cursor, .consumed grid⟩, cache', .ok (some d.rowFn)⟩)
  | skipped (hposition : w.position = .active grid) (e : Error)
    (heq : ∀ {ρ : Type} (keep : Walk σ → ρ), openGrid keep cache k grid w = do
      return ⟨← skip keep grid ⟨w.cursor, .consumed grid⟩, cache, .error e⟩)

theorem opening (cache : Cache κ) (k : κ) (grid : Nat) (w : Walk σ) : Opening cache k grid w := by
  cases hbegin : w.position.begin grid with
  | error e =>
    refine .rejected e hbegin fun keep => ?_
    rw [openGrid, hbegin]
  | ok position =>
    obtain ⟨hposition, rfl⟩ := Position.begin_eq_ok hbegin
    by_cases hcolumns : w.view.columnCount = 0
    · refine .empty hposition fun keep => ?_
      rw [openGrid, hbegin]
      exact if_pos hcolumns
    · have hview : view ⟨w.cursor, .consumed grid⟩ = w.view := rfl
      cases hlookup : cache.getOrBuild k w.view .all false with
      | ok found =>
        refine .found hposition found.1 found.2 hlookup fun keep => ?_
        rw [openGrid, hbegin]
        simp only [hview, if_neg hcolumns, hlookup]
      | error e =>
        refine .skipped hposition e fun keep => ?_
        rw [openGrid, hbegin]
        simp only [hview, if_neg hcolumns, hlookup]

/-! ### Inductions over the rows that are still to come -/

/-- What holds of a walk if it holds after the next row, when there is one, holds of all walks. -/
theorem induction_next {motive : Walk σ → Prop}
    (step : ∀ w, ((Cursor.advanceRow w.cursor).1 = .ok true → motive w.next) → motive w)
    (w : Walk σ) : motive w := by
  induction hn : Cursor.rowsLeft w.cursor using Nat.strongRecOn generalizing w with
  | ind n ih => exact step w fun h => ih _ (hn ▸ Cursor.rowsLeft_lt w.cursor h) _ rfl

/-- What holds of pulling if it holds at each of its ends and one row earlier. -/
theorem pull_induction {motive : Demand → Walk σ → Run ρ (Pulled σ α) → Prop}
    (met : ∀ demand w, demand.isMet = true → motive demand w (pure ⟨w, [], false⟩))
    (failed : ∀ demand w e, demand.isMet = false → (Cursor.advanceRow w.cursor).1 = .error e →
      motive demand w (do
        Run.ofCall .row (.error e) (keep.streaming w)
        return ⟨w.next.dispose, [.error e], true⟩))
    (ended : ∀ demand w, demand.isMet = false → (Cursor.advanceRow w.cursor).1 = .ok false →
      motive demand w (do
        Run.ofCall .row (.ok false) (keep.streaming w)
        let (failure, w) ← finish keep.moving grid w.next
        return ⟨w, (failure.map .error).toList, true⟩))
    (passed : ∀ demand w, demand.isMet = false → (Cursor.advanceRow w.cursor).1 = .ok true →
      rowItem? rowFn? w.next.view = none →
      motive demand w.next (pull keep rowFn? grid demand w.next) →
      motive demand w (do
        Run.ofCall .row (.ok true) (keep.streaming w)
        pull keep rowFn? grid demand w.next))
    (fatal : ∀ demand w item, demand.isMet = false →
      (Cursor.advanceRow w.cursor).1 = .ok true → rowItem? rowFn? w.next.view = some item →
      isFatalItem item = true →
      motive demand w (do
        Run.ofCall .row (.ok true) (keep.streaming w)
        return ⟨w.next.dispose, [item], true⟩))
    (item : ∀ demand w item, demand.isMet = false →
      (Cursor.advanceRow w.cursor).1 = .ok true → rowItem? rowFn? w.next.view = some item →
      isFatalItem item = false →
      motive (demand.after item) w.next (pull keep rowFn? grid (demand.after item) w.next) →
      motive demand w (do
        Run.ofCall .row (.ok true) (keep.streaming w)
        return (← pull keep rowFn? grid (demand.after item) w.next).cons item))
    (demand : Demand) (w : Walk σ) : motive demand w (pull keep rowFn? grid demand w) := by
  induction w using induction_next generalizing demand with
  | step w ih =>
    cases hmet : demand.isMet with
    | true =>
      rw [pull_of_isMet keep rowFn? grid w hmet]
      exact met demand w hmet
    | false =>
      cases hanswer : (Cursor.advanceRow w.cursor).1 with
      | error e =>
        rw [pull_of_not_isMet keep rowFn? grid w hmet, hanswer]
        exact failed demand w e hmet hanswer
      | ok more =>
        cases more with
        | false =>
          rw [pull_of_no_row keep rowFn? grid w hmet hanswer]
          exact ended demand w hmet hanswer
        | true =>
          rw [pull_of_not_isMet keep rowFn? grid w hmet, hanswer]
          cases hitem : rowItem? rowFn? w.next.view with
          | none => exact passed demand w hmet hanswer hitem (ih hanswer demand)
          | some x =>
            cases hfatal : isFatalItem x with
            | true =>
              simp only [hfatal, if_true]
              exact fatal demand w x hmet hanswer hitem hfatal
            | false =>
              simp only [hfatal, Bool.false_eq_true, if_false]
              exact item demand w x hmet hanswer hitem hfatal (ih hanswer (demand.after x))

end Walk

end RowMapping
