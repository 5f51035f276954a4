import Mathlib.Logic.Relation
import RowMapping.Proofs.Grid.Agreement

/-!
# Operations that are given up

While a suspending reader waits for its cursor, its caller may give the operation up, with the
stream that it works on or without it.  If the stream waits for a row, its grid is left to be
skipped by the next operation.  At the other calls, those of skipping a grid and of moving past one,
nothing is left that says that the cursor has not moved past the grid.

* `Walk.skip_held`, `Walk.pull_held`: what is left at the calls of a walk;
* `Walk.skip_isPast`, `Walk.pull_position`: where a walk ends;
* `Moment.Completes`, `Moment.GivenUp`: what may happen to a reader and its stream;
* `Moment.madeOfSteps_request`: requests are made of these steps;
* `Moment.Sound.completes`, `Moment.Sound.given_up`, `Moment.Sound.stuck`: what each step leaves;
* `Moment.sound_or_stuck`: what any of them leave, one after the other.
-/

namespace RowMapping

namespace Walk

variable {σ ρ α : Type}

/-- The walk is before the grid behind this one, or has nothing left to read. -/
def IsPast (grid : Nat) (w : Walk σ) : Prop :=
  w.position = .active (grid + 1) ∨ w.position = .disposed

theorem IsPast.ne_consumed {grid : Nat} {w : Walk σ} (h : w.IsPast grid) (g : Nat) :
    w.position ≠ .consumed g := by
  rcases h with h | h
  · rw [h]
    exact Position.noConfusion
  · rw [h]
    exact Position.noConfusion

variable [Cursor σ]

theorem finish_isPast (keep : Walk σ → ρ) (grid : Nat) (w : Walk σ) :
    (finish keep grid w).result.2.IsPast grid := by
  unfold finish
  dsimp only
  cases (Cursor.advanceResultSet w.cursor).1 with
  | error e => exact .inr rfl
  | ok more =>
    cases more with
    | true => exact .inl rfl
    | false => exact .inr rfl

theorem skip_isPast (keep : Walk σ → ρ) (grid : Nat) (w : Walk σ) :
    (skip keep grid w).result.IsPast grid := by
  induction w using induction_next with
  | step w ih =>
    rw [skip_eq]
    cases hanswer : (Cursor.advanceRow w.cursor).1 with
    | error e => exact .inr rfl
    | ok more =>
      cases more with
      | true => exact ih hanswer
      | false => exact finish_isPast keep grid w.next

/-- A grid that gave all its items is behind; otherwise the position is what it was. -/
theorem pull_position (keep : Keep σ ρ) (rowFn? : Option (RowFn α)) (grid : Nat) (demand : Demand)
    (w : Walk σ) :
    let p := (pull keep rowFn? grid demand w).result
    (p.ended = true ∧ p.walk.IsPast grid) ∨ (p.ended = false ∧ p.walk.position = w.position) := by
  refine pull_induction keep rowFn? grid
    (motive := fun _ w run => (run.result.ended = true ∧ run.result.walk.IsPast grid) ∨
      (run.result.ended = false ∧ run.result.walk.position = w.position))
    ?met ?failed ?ended ?passed ?fatal ?item demand w
  case met => exact fun _ _ _ => .inr ⟨rfl, rfl⟩
  case failed => exact fun _ _ _ _ _ => .inl ⟨rfl, .inr rfl⟩
  case ended => exact fun _ w _ _ => .inl ⟨rfl, finish_isPast keep.moving grid w.next⟩
  case passed => exact fun _ _ _ _ _ ih => ih
  case fatal => exact fun _ _ _ _ _ _ _ => .inl ⟨rfl, .inr rfl⟩
  case item => exact fun _ _ _ _ _ _ _ ih => ih

/-! ### What is left at a call -/

theorem finish_held (keep : Walk σ → ρ) (grid : Nat) (w : Walk σ) :
    ∀ c ∈ (finish keep grid w).calls, c.call = .resultSet ∧ c.held = keep w := by
  unfold finish
  dsimp only
  cases (Cursor.advanceResultSet w.cursor).1 <;>
  · intro c hc
    cases List.mem_singleton.1 hc
    exact ⟨rfl, rfl⟩

theorem skip_held (keep : Walk σ → ρ) (grid : Nat) (w : Walk σ) :
    ∀ c ∈ (skip keep grid w).calls, ∃ w', w'.position = w.position ∧ c.held = keep w' := by
  induction w using induction_next with
  | step w ih =>
    rw [skip_eq]
    cases hanswer : (Cursor.advanceRow w.cursor).1 with
    | error e =>
      intro c hc
      cases List.mem_singleton.1 hc
      exact ⟨w, rfl, rfl⟩
    | ok more =>
      cases more with
      | true => exact List.forall_mem_cons.2 ⟨⟨w, rfl, rfl⟩, ih hanswer⟩
      | false =>
        simp only [Run.calls_bind, Run.calls_pure, List.append_nil]
        refine List.forall_mem_cons.2 ⟨⟨w, rfl, rfl⟩, fun c hc => ?_⟩
        exact ⟨w.next, rfl, (finish_held keep grid w.next c hc).2⟩

/-- While items are pulled the position is what it was; the grid is left only to move past it. -/
theorem pull_held (keep : Keep σ ρ) (rowFn? : Option (RowFn α)) (grid : Nat) (demand : Demand)
    (w : Walk σ) :
    ∀ c ∈ (pull keep rowFn? grid demand w).calls, ∃ w', w'.position = w.position ∧
      c.held = match c.call with
        | .row => keep.streaming w'
        | .resultSet => keep.moving w' := by
  refine pull_induction keep rowFn? grid
    (motive := fun _ w run => ∀ c ∈ run.calls, ∃ w', w'.position = w.position ∧
      c.held = match c.call with
        | .row => keep.streaming w'
        | .resultSet => keep.moving w')
    ?met ?failed ?ended ?passed ?fatal ?item demand w
  case met => exact fun _ _ _ _ hc => (List.not_mem_nil hc).elim
  case failed =>
    intro _ w _ _ _ c hc
    cases List.mem_singleton.1 hc
    exact ⟨w, rfl, rfl⟩
  case ended =>
    intro _ w _ _
    simp only [Run.calls_bind, Run.calls_pure, List.append_nil]
    refine List.forall_mem_cons.2 ⟨⟨w, rfl, rfl⟩, fun c hc => ?_⟩
    obtain ⟨hcall, hheld⟩ := finish_held keep.moving grid w.next c hc
    refine ⟨w.next, rfl, ?_⟩
    rw [hcall, hheld]
  case passed => exact fun _ w _ _ _ ih => List.forall_mem_cons.2 ⟨⟨w, rfl, rfl⟩, ih⟩
  case fatal =>
    intro _ w _ _ _ _ _ c hc
    cases List.mem_singleton.1 hc
    exact ⟨w, rfl, rfl⟩
  case item =>
    intro _ w _ _ _ _ _ ih
    simp only [Run.calls_bind, Run.calls_pure, List.append_nil]
    exact List.forall_mem_cons.2 ⟨⟨w, rfl, rfl⟩, ih⟩

end Walk

variable {σ κ : Type} [RowTypes κ]

namespace SuspendingReader

/-- The reader with another cursor.  What giving an operation up does to the cursor is left open. -/
def withCursor (r : SuspendingReader σ κ) (cursor : σ) : SuspendingReader σ κ :=
  ⟨⟨cursor, r.walk.position⟩, r.cache, r.abandoned⟩

/-- The stream if pulling from it is given up at a call.  It does not go on if it was waiting to
move past its grid. -/
def Stream.waiting {k : κ} (s : Stream σ k) (c : CallRecord (SuspendingReader σ κ)) (cursor : σ) :
    Stream σ k :=
  { s with pulled := ⟨⟨cursor, c.held.walk.position⟩, [], c.call == .resultSet⟩ }

variable [Cursor σ] [DecidableEq κ]

/-- Begins to read a grid, the next one or a given one, without pulling from it yet. -/
def openStream (r : SuspendingReader σ κ) (k : κ) (grid? : Option Nat) :
    Run (SuspendingReader σ κ) (Except (Error × SuspendingReader σ κ) (Stream σ k)) :=
  match grid? with
  | none => r.pullNext k (.atMost 0)
  | some grid => do (← r.settle).pullGrid k grid (.atMost 0)

end SuspendingReader

open SuspendingReader (Stream)

/-- Where the caller of a suspending reader is between two operations. -/
inductive Moment (σ κ : Type) [RowTypes κ] where
  /-- No stream is alive. -/
  | idle (r : SuspendingReader σ κ)
  /-- A stream is alive, which has the reader. -/
  | reading (k : κ) (s : Stream σ k)

namespace Moment

section Steps

variable [Cursor σ] [DecidableEq κ]

/-- An operation is carried out to its end. -/
inductive Completes : Moment σ κ → Moment σ κ → Prop where
  /-- A stream is opened. -/
  | opened (r : SuspendingReader σ κ) (k : κ) (grid? : Option Nat) (s : Stream σ k)
    (h : (r.openStream k grid?).result = .ok s) : Completes (idle r) (reading k s)
  /-- No stream can be opened. -/
  | refused (r : SuspendingReader σ κ) (k : κ) (grid? : Option Nat) (e : Error)
    (r' : SuspendingReader σ κ) (h : (r.openStream k grid?).result = .error (e, r')) :
    Completes (idle r) (idle r')
  /-- Items are pulled from the stream. -/
  | pulled (k : κ) (s : Stream σ k) (demand : Demand) :
    Completes (reading k s)
      (reading k { s with pulled := (s.pullMore s.rowFn? demand).result })
  /-- The stream is ended. -/
  | ended (k : κ) (s : Stream σ k) (ending : Ending) :
    Completes (reading k s) (idle (s.endBy ending).result.2)
  /-- Nothing more is to be read. -/
  | disposed (r : SuspendingReader σ κ) : Completes (idle r) (idle r.dispose)

/-- An operation is given up while it waits at a call.  Told apart is whether a stream waits for a
row there. -/
inductive GivenUp : Moment σ κ → Bool → Moment σ κ → Prop where
  /-- Before there is a stream. -/
  | opening (r : SuspendingReader σ κ) (k : κ) (grid? : Option Nat)
    (c : CallRecord (SuspendingReader σ κ)) (hc : c ∈ (r.openStream k grid?).calls) (cursor : σ) :
    GivenUp (idle r) false (idle (c.held.withCursor cursor))
  /-- While items are pulled.  The stream stays. -/
  | pulling (k : κ) (s : Stream σ k) (demand : Demand) (c : CallRecord (SuspendingReader σ κ))
    (hc : c ∈ (s.pullMore s.rowFn? demand).calls) (cursor : σ) :
    GivenUp (reading k s) (c.call == .row) (reading k (s.waiting c cursor))
  /-- While the stream is ended, which takes the stream with it. -/
  | ending (k : κ) (s : Stream σ k) (ending : Ending)
    (c : CallRecord (SuspendingReader σ κ)) (hc : c ∈ (s.endBy ending).calls) (cursor : σ) :
    GivenUp (reading k s) (c.call == .row) (idle (c.held.withCursor cursor))

end Steps

/-- The reader knows which grid is still to be skipped: one whose reading has begun is marked as
abandoned, or a stream is alive that has not ended. -/
def Sound : Moment σ κ → Prop
  | idle r => ∀ grid, r.walk.position = .consumed grid ↔ r.abandoned = some grid
  | reading _ s =>
    (s.pulled.ended = true ∧ s.pulled.walk.IsPast s.grid) ∨
      (s.pulled.ended = false ∧ s.pulled.walk.position = .consumed s.grid)

/-- Reading of the grid has begun, the cursor has not moved past it, and nothing says so. -/
def Stuck (grid : Nat) : Moment σ κ → Prop
  | idle r => r.walk.position = .consumed grid ∧ r.abandoned = none
  | reading _ s => s.pulled.walk.position = .consumed grid ∧ s.pulled.ended = true

/-! ### Streams -/

variable {k : κ} {s : Stream σ k} {r : SuspendingReader σ κ}

theorem sound_of_ne_consumed (hne : ∀ grid, r.walk.position ≠ .consumed grid)
    (hnone : r.abandoned = none) : (idle r).Sound := by
  intro grid
  rw [hnone]
  exact iff_of_false (hne grid) fun h => nomatch h

theorem sound_release {p : Pulled σ (Object k)} (h : (reading k { s with pulled := p }).Sound) :
    (idle (SuspendingReader.release s.cache s.grid p)).Sound := by
  rcases h with ⟨hended, hpast⟩ | ⟨hended, hposition⟩
  · exact sound_of_ne_consumed hpast.ne_consumed (if_pos hended)
  · have hended : p.ended = false := hended
    have hposition : p.walk.position = .consumed s.grid := hposition
    intro grid
    simp only [SuspendingReader.release, hended, hposition, Bool.false_eq_true, if_false,
      Position.consumed.injEq, Option.some.injEq]

variable [Cursor σ]

section Streams

variable {rowFn? : Option (RowFn (Object k))} {demand : Demand}

theorem pullMore_of_ended (h : s.pulled.ended = true) (rowFn? : Option (RowFn (Object k)))
    (demand : Demand) : s.pullMore rowFn? demand = pure { s.pulled with items := [] } :=
  if_pos h

theorem pullMore_sound (h : (reading k s).Sound) (rowFn? : Option (RowFn (Object k)))
    (demand : Demand) :
    (reading k { s with pulled := (s.pullMore rowFn? demand).result }).Sound := by
  rcases h with ⟨hended, hpast⟩ | ⟨hended, hposition⟩
  · rw [pullMore_of_ended hended]
    exact .inl ⟨hended, hpast⟩
  · rw [Stream.pullMore, if_neg (Bool.eq_false_iff.1 hended)]
    rcases Walk.pull_position (SuspendingReader.keep s.cache s.grid) rowFn? s.grid demand
      s.pulled.walk with ⟨hended', hpast⟩ | ⟨hended', hposition'⟩
    · exact .inl ⟨hended', hpast⟩
    · exact .inr ⟨hended', hposition'.trans hposition⟩

theorem pullMore_held {c : CallRecord (SuspendingReader σ κ)}
    (hc : c ∈ (s.pullMore rowFn? demand).calls) :
    s.pulled.ended = false ∧ c.held.walk.position = s.pulled.walk.position ∧
      c.held.cache = s.cache ∧
      c.held.abandoned = if c.call = .row then some s.grid else none := by
  cases hended : s.pulled.ended with
  | true =>
    rw [pullMore_of_ended hended] at hc
    exact (List.not_mem_nil hc).elim
  | false =>
    rw [Stream.pullMore, if_neg (Bool.eq_false_iff.1 hended)] at hc
    obtain ⟨w', hw', hheld⟩ := Walk.pull_held _ _ _ _ _ c hc
    rw [hheld]
    cases c.call with
    | row => exact ⟨rfl, hw', rfl, rfl⟩
    | resultSet => exact ⟨rfl, hw', rfl, rfl⟩

theorem Sound.pullMore_held (h : (reading k s).Sound) {c : CallRecord (SuspendingReader σ κ)}
    (hc : c ∈ (s.pullMore rowFn? demand).calls) :
    c.held.walk.position = .consumed s.grid ∧
      c.held.abandoned = if c.call = .row then some s.grid else none := by
  obtain ⟨hended, hposition, -, habandoned⟩ := Moment.pullMore_held hc
  rcases h with ⟨hended', -⟩ | ⟨-, hconsumed⟩
  · cases hended.symm.trans hended'
  · exact ⟨hposition.trans hconsumed, habandoned⟩

theorem endBy_cases (s : Stream σ k) (ending : Ending) :
    (s.endBy ending).calls = [] ∧ (s.endBy ending).result.2 = s.drop ∨
      ∃ rowFn?, (s.endBy ending).calls = (s.pullMore rowFn? .allGood).calls ∧
        (s.endBy ending).result.2 =
          SuspendingReader.release s.cache s.grid (s.pullMore rowFn? .allGood).result := by
  cases ending with
  | drop => exact .inl ⟨rfl, rfl⟩
  | finish =>
    refine .inr ⟨none, ?_, rfl⟩
    simp only [Stream.endBy, Stream.finish, Run.calls_bind, Run.calls_pure, List.append_nil]
  | collect =>
    refine .inr ⟨s.rowFn?, ?_, rfl⟩
    simp only [Stream.endBy, Stream.collect, Run.calls_bind, Run.calls_pure, List.append_nil]

theorem endBy_sound (h : (reading k s).Sound) (ending : Ending) :
    (idle (s.endBy ending).result.2).Sound := by
  rcases endBy_cases s ending with ⟨-, hresult⟩ | ⟨rowFn?, -, hresult⟩
  · rw [hresult]
    exact sound_release h
  · rw [hresult]
    exact sound_release (pullMore_sound h rowFn? .allGood)

theorem endBy_held (h : (reading k s).Sound) {ending : Ending}
    {c : CallRecord (SuspendingReader σ κ)} (hc : c ∈ (s.endBy ending).calls) :
    c.held.walk.position = .consumed s.grid ∧
      c.held.abandoned = if c.call = .row then some s.grid else none := by
  rcases endBy_cases s ending with ⟨hcalls, -⟩ | ⟨rowFn?, hcalls, -⟩
  · rw [hcalls] at hc
    exact (List.not_mem_nil hc).elim
  · rw [hcalls] at hc
    exact h.pullMore_held hc

end Streams

/-! ### Opening a stream -/

theorem settle_isPast (r : SuspendingReader σ κ) :
    r.settle.result.abandoned = none ∧
      (r.settle.result.walk = r.walk ∧ r.abandoned = none ∨
        ∃ grid, r.abandoned = some grid ∧ r.settle.result.walk.IsPast grid) := by
  obtain ⟨walk, cache, abandoned⟩ := r
  cases abandoned with
  | none => exact ⟨rfl, .inl ⟨rfl, rfl⟩⟩
  | some grid => exact ⟨rfl, .inr ⟨grid, rfl, Walk.skip_isPast _ grid walk⟩⟩

theorem settle_ne_consumed (h : (idle r).Sound) (grid : Nat) :
    r.settle.result.walk.position ≠ .consumed grid := by
  obtain ⟨-, ⟨hwalk, hnone⟩ | ⟨g, -, hpast⟩⟩ := settle_isPast r
  · rw [hwalk, Ne, h grid, hnone]
    exact fun h => nomatch h
  · exact hpast.ne_consumed grid

theorem settle_held (h : (idle r).Sound) {c : CallRecord (SuspendingReader σ κ)}
    (hc : c ∈ r.settle.calls) :
    ∃ grid, c.held.walk.position = .consumed grid ∧ c.held.abandoned = none := by
  obtain ⟨walk, cache, abandoned⟩ := r
  cases abandoned with
  | none => exact (List.not_mem_nil hc).elim
  | some grid =>
    have hc : c ∈ (walk.skip (SuspendingReader.keep cache grid).moving grid).calls := by
      simpa only [SuspendingReader.settle, Run.calls_bind, Run.calls_pure, List.append_nil] using hc
    obtain ⟨w', hw', hheld⟩ := Walk.skip_held _ grid walk c hc
    rw [hheld]
    exact ⟨grid, hw'.trans ((h grid).2 rfl), rfl⟩

variable [DecidableEq κ]

/-- Opening a stream of a grid is refused, or gives a stream, or skips the grid. -/
theorem pullGrid_cases (r : SuspendingReader σ κ) (k : κ) (grid : Nat) :
    (∃ e, r.walk.position.begin grid = .error e ∧
        r.pullGrid k grid (.atMost 0) = pure (.error (e, ⟨r.walk, r.cache, none⟩))) ∨
      (∃ cache rowFn?, r.pullGrid k grid (.atMost 0) =
        pure (.ok ⟨grid, cache, rowFn?, ⟨⟨r.walk.cursor, .consumed grid⟩, [], false⟩⟩)) ∨
      ∃ e, r.pullGrid k grid (.atMost 0) = do
        let w ← Walk.skip (SuspendingReader.keep r.cache grid).moving grid
          ⟨r.walk.cursor, .consumed grid⟩
        return .error (e, ⟨w, r.cache, none⟩) := by
  have hpull (cache : Cache κ) (rowFn? : Option (RowFn (Object k))) (w : Walk σ) :
      w.pull (SuspendingReader.keep cache grid) rowFn? grid (.atMost 0) = pure ⟨w, [], false⟩ :=
    w.pull_of_isMet _ rowFn? grid rfl
  unfold SuspendingReader.pullGrid
  cases Walk.opening r.cache k grid r.walk with
  | rejected e hbegin heq =>
    rw [heq]
    exact .inl ⟨e, hbegin, rfl⟩
  | empty hposition heq =>
    rw [heq]
    refine .inr (.inl ⟨r.cache, none, ?_⟩)
    simp only [pure_bind, hpull]
  | found hposition d cache hlookup heq =>
    rw [heq]
    refine .inr (.inl ⟨cache, some d.rowFn, ?_⟩)
    simp only [pure_bind, hpull]
  | skipped hposition e heq =>
    rw [heq]
    refine .inr (.inr ⟨e, ?_⟩)
    simp only [bind_assoc, pure_bind]

theorem pullGrid_sound (hr : ∀ g, r.walk.position ≠ .consumed g) (grid : Nat) :
    match (r.pullGrid k grid (.atMost 0)).result with
    | .ok s => (reading k s).Sound
    | .error (_, r') => (idle r').Sound := by
  rcases pullGrid_cases r k grid with ⟨e, -, heq⟩ | ⟨cache, rowFn?, heq⟩ | ⟨e, heq⟩
  · rw [heq]
    exact sound_of_ne_consumed hr rfl
  · rw [heq]
    exact .inr ⟨rfl, rfl⟩
  · rw [heq]
    exact sound_of_ne_consumed (Walk.skip_isPast _ _ _).ne_consumed rfl

theorem pullGrid_held {grid : Nat} {c : CallRecord (SuspendingReader σ κ)}
    (hc : c ∈ (r.pullGrid k grid (.atMost 0)).calls) :
    c.held.walk.position = .consumed grid ∧ c.held.abandoned = none := by
  rcases pullGrid_cases r k grid with ⟨e, -, heq⟩ | ⟨cache, rowFn?, heq⟩ | ⟨e, heq⟩
  · rw [heq] at hc
    exact (List.not_mem_nil hc).elim
  · rw [heq] at hc
    exact (List.not_mem_nil hc).elim
  · rw [heq] at hc
    simp only [Run.calls_bind, Run.calls_pure, List.append_nil] at hc
    obtain ⟨w', hw', hheld⟩ := Walk.skip_held _ _ _ c hc
    rw [hheld]
    exact ⟨hw', rfl⟩

theorem openStream_sound (h : (idle r).Sound) (k : κ) (grid? : Option Nat) :
    match (r.openStream k grid?).result with
    | .ok s => (reading k s).Sound
    | .error (_, r') => (idle r').Sound := by
  have hr := settle_ne_consumed h
  cases grid? with
  | some grid => exact pullGrid_sound hr grid
  | none =>
    simp only [SuspendingReader.openStream, SuspendingReader.pullNext, Run.result_bind]
    cases r.settle.result.walk.position.nextGrid with
    | error e => exact sound_of_ne_consumed hr (settle_isPast r).1
    | ok grid => exact pullGrid_sound hr grid

theorem openStream_held (h : (idle r).Sound) {grid? : Option Nat}
    {c : CallRecord (SuspendingReader σ κ)} (hc : c ∈ (r.openStream k grid?).calls) :
    ∃ grid, c.held.walk.position = .consumed grid ∧ c.held.abandoned = none := by
  cases grid? with
  | some grid =>
    simp only [SuspendingReader.openStream, Run.calls_bind] at hc
    rcases List.mem_append.1 hc with hc | hc
    · exact settle_held h hc
    · exact ⟨grid, pullGrid_held hc⟩
  | none =>
    simp only [SuspendingReader.openStream, SuspendingReader.pullNext, Run.calls_bind] at hc
    rcases List.mem_append.1 hc with hc | hc
    · exact settle_held h hc
    · cases hnext : r.settle.result.walk.position.nextGrid with
      | error e =>
        rw [hnext] at hc
        exact (List.not_mem_nil hc).elim
      | ok grid =>
        rw [hnext] at hc
        exact ⟨grid, pullGrid_held hc⟩

/-! ### What may happen -/

variable {m m' : Moment σ κ}

/-- What is carried out to its end leaves the reader sound. -/
theorem Sound.completes (h : m.Sound) (hm : Completes m m') : m'.Sound := by
  cases hm with
  | opened r k grid? s hopen =>
    have hsound := openStream_sound h k grid?
    rw [hopen] at hsound
    exact hsound
  | refused r k grid? e r' hopen =>
    have hsound := openStream_sound h k grid?
    rw [hopen] at hsound
    exact hsound
  | pulled k s demand => exact pullMore_sound h s.rowFn? demand
  | ended k s ending => exact endBy_sound h ending
  | disposed r => exact sound_of_ne_consumed (fun _ => Position.noConfusion) rfl

/-- A stream that is given up while it waits for a row leaves the reader sound. -/
theorem Sound.given_up (h : m.Sound) (hm : GivenUp m true m') : m'.Sound := by
  generalize hrow : true = atRow at hm
  cases hm with
  | opening r k grid? c hc cursor => cases hrow
  | pulling k s demand c hc cursor =>
    have hcall : c.call = .row := by simpa using hrow.symm
    obtain ⟨hposition, -⟩ := h.pullMore_held hc
    refine .inr ⟨?_, hposition⟩
    simp [Stream.waiting, hcall]
  | ending k s ending c hc cursor =>
    have hcall : c.call = .row := by simpa using hrow.symm
    obtain ⟨hposition, habandoned⟩ := endBy_held h hc
    rw [if_pos hcall] at habandoned
    intro grid
    simp only [SuspendingReader.withCursor, hposition, habandoned, Position.consumed.injEq,
      Option.some.injEq]

/-- Whatever is given up at another call leaves the reader stuck. -/
theorem Sound.stuck (h : m.Sound) (hm : GivenUp m false m') : ∃ grid, m'.Stuck grid := by
  generalize hrow : false = atRow at hm
  cases hm with
  | opening r k grid? c hc cursor =>
    obtain ⟨grid, hposition, habandoned⟩ := openStream_held h hc
    exact ⟨grid, hposition, habandoned⟩
  | pulling k s demand c hc cursor =>
    have hcall : c.call ≠ .row := by simpa using hrow.symm
    obtain ⟨hposition, -⟩ := h.pullMore_held hc
    refine ⟨s.grid, hposition, ?_⟩
    cases hresult : c.call with
    | row => exact absurd hresult hcall
    | resultSet => simp [Stream.waiting, hresult]
  | ending k s ending c hc cursor =>
    have hcall : c.call ≠ .row := by simpa using hrow.symm
    obtain ⟨hposition, habandoned⟩ := endBy_held h hc
    rw [if_neg hcall] at habandoned
    exact ⟨s.grid, hposition, habandoned⟩

/-! ### Readers that are stuck -/

/-- A reader that is stuck refuses every request as out of order. -/
theorem openStream_of_stuck {grid : Nat} (h : (idle r).Stuck grid) (k : κ) (grid? : Option Nat) :
    r.openStream k grid? = pure (.error
      (.outOfOrder (grid?.getD (grid + 1)) (Position.consumed grid).display, r)) := by
  obtain ⟨⟨cursor, position⟩, cache, abandoned⟩ := r
  obtain ⟨rfl, rfl⟩ := h
  cases grid? <;> rfl

theorem openStream_of_disposed (hposition : r.walk.position = .disposed)
    (habandoned : r.abandoned = none) (k : κ) (grid? : Option Nat) :
    r.openStream k grid? = pure (.error (.disposed, r)) := by
  obtain ⟨⟨cursor, position⟩, cache, abandoned⟩ := r
  cases hposition
  cases habandoned
  cases grid? <;> rfl

/-- Nothing is left to read, and no stream is alive. -/
def Disposed : Moment σ κ → Prop
  | idle r => r.walk.position = .disposed ∧ r.abandoned = none
  | reading _ _ => False

/-- Whatever may happen: an operation is carried out to its end or given up at any call. -/
def Step (m m' : Moment σ κ) : Prop := Completes m m' ∨ ∃ atRow, GivenUp m atRow m'

theorem Disposed.step (h : m.Disposed) (hm : Step m m') : m'.Disposed := by
  rcases hm with hm | ⟨atRow, hm⟩
  · cases hm with
    | opened r k grid? s hopen =>
      rw [openStream_of_disposed h.1 h.2] at hopen
      cases hopen
    | refused r k grid? e r' hopen =>
      rw [openStream_of_disposed h.1 h.2] at hopen
      cases hopen
      exact h
    | pulled k s demand => exact h.elim
    | ended k s ending => exact h.elim
    | disposed r => exact ⟨rfl, rfl⟩
  · cases hm with
    | opening r k grid? c hc cursor =>
      rw [openStream_of_disposed h.1 h.2] at hc
      exact (List.not_mem_nil hc).elim
    | pulling k s demand c hc cursor => exact h.elim
    | ending k s ending c hc cursor => exact h.elim

theorem Stuck.step {grid : Nat} (h : m.Stuck grid) (hm : Step m m') :
    m'.Stuck grid ∨ m'.Disposed := by
  rcases hm with hm | ⟨atRow, hm⟩
  · cases hm with
    | opened r k grid? s hopen =>
      rw [openStream_of_stuck h] at hopen
      cases hopen
    | refused r k grid? e r' hopen =>
      rw [openStream_of_stuck h] at hopen
      cases hopen
      exact .inl h
    | pulled k s demand =>
      rw [pullMore_of_ended h.2]
      exact .inl h
    | ended k s ending =>
      left
      rcases endBy_cases s ending with ⟨-, hresult⟩ | ⟨rowFn?, -, hresult⟩
      · rw [hresult]
        exact ⟨h.1, if_pos h.2⟩
      · rw [hresult, pullMore_of_ended h.2]
        exact ⟨h.1, if_pos h.2⟩
    | disposed r => exact .inr ⟨rfl, rfl⟩
  · cases hm with
    | opening r k grid? c hc cursor =>
      rw [openStream_of_stuck h] at hc
      exact (List.not_mem_nil hc).elim
    | pulling k s demand c hc cursor =>
      rw [pullMore_of_ended h.2] at hc
      exact (List.not_mem_nil hc).elim
    | ending k s ending c hc cursor =>
      rcases endBy_cases s ending with ⟨hcalls, -⟩ | ⟨rowFn?, hcalls, -⟩
      · rw [hcalls] at hc
        exact (List.not_mem_nil hc).elim
      · rw [hcalls, pullMore_of_ended h.2] at hc
        exact (List.not_mem_nil hc).elim

/-- Whatever else may happen, a reader that is stuck stays so until it is disposed of. -/
theorem Stuck.reaches {grid : Nat} (h : m.Stuck grid) (hm : Relation.ReflTransGen Step m m') :
    m'.Stuck grid ∨ m'.Disposed := by
  induction hm with
  | refl => exact .inl h
  | tail _ hstep ih =>
    rcases ih with h | h
    · exact h.step hstep
    · exact .inr (h.step hstep)

/-- What may happen if nothing is given up but streams that wait for a row. -/
def Resumes (m m' : Moment σ κ) : Prop := Completes m m' ∨ GivenUp m true m'

theorem Sound.reaches (h : m.Sound) (hm : Relation.ReflTransGen Resumes m m') : m'.Sound := by
  induction hm with
  | refl => exact h
  | tail _ hstep ih =>
    rcases hstep with hstep | hstep
    · exact ih.completes hstep
    · exact ih.given_up hstep

omit [Cursor σ] [DecidableEq κ] in
theorem sound_ofCursor (cursor : σ) (cache : Cache κ) : (idle (.ofCursor cursor cache)).Sound :=
  sound_of_ne_consumed (fun _ => Position.noConfusion) rfl

/-! ### Requests are made of these steps -/

/-- The run is made of the steps that may happen from this moment on, carried out to its end or
given up at any of its calls. -/
def MadeOfSteps {α : Type} (m : Moment σ κ)
    (run : Run (SuspendingReader σ κ) (α × SuspendingReader σ κ)) : Prop :=
  Relation.ReflTransGen Completes m (idle run.result.2) ∧
    ∀ c ∈ run.calls, ∃ m' atRow m'', Relation.ReflTransGen Completes m m' ∧
      GivenUp m' atRow m'' ∧ Relation.ReflTransGen Completes m'' (idle c.held)

section Requests

variable {α β : Type}

/-- What comes after opening a stream: its use, if it was not refused. -/
def orRefused (use : Stream σ k → SuspendingReader.Step σ κ β) :
    Except (Error × SuspendingReader σ κ) (Stream σ k) → SuspendingReader.Step σ κ β
  | .error (e, r) => pure (.error e, r)
  | .ok s => use s

theorem madeOfSteps_open (r : SuspendingReader σ κ) (k : κ) (grid? : Option Nat)
    {use : Stream σ k → SuspendingReader.Step σ κ β}
    (huse : ∀ s, MadeOfSteps (reading k s) (use s)) :
    MadeOfSteps (idle r) (r.openStream k grid? >>= orRefused use) := by
  constructor
  · rw [Run.result_bind]
    cases hopen : (r.openStream k grid?).result with
    | error refused => exact .single (.refused r k grid? refused.1 refused.2 hopen)
    | ok s => exact .head (.opened r k grid? s hopen) (huse s).1
  · intro c hc
    rw [Run.calls_bind] at hc
    rcases List.mem_append.1 hc with hc | hc
    · exact ⟨_, _, _, .refl, .opening r k grid? c hc c.held.walk.cursor, .refl⟩
    · cases hopen : (r.openStream k grid?).result with
      | error refused =>
        rw [hopen] at hc
        exact (List.not_mem_nil hc).elim
      | ok s =>
        rw [hopen] at hc
        obtain ⟨m', atRow, m'', hbefore, hgiven, hafter⟩ := (huse s).2 c hc
        exact ⟨m', atRow, m'', .head (.opened r k grid? s hopen) hbefore, hgiven, hafter⟩

theorem madeOfSteps_pull (s : Stream σ k) (demand : Demand)
    {use : Pulled σ (Object k) → Run (SuspendingReader σ κ) (α × SuspendingReader σ κ)}
    (huse : ∀ p, MadeOfSteps (reading k { s with pulled := p }) (use p)) :
    MadeOfSteps (reading k s) (s.pullMore s.rowFn? demand >>= use) := by
  have hpulled := Completes.pulled k s demand
  constructor
  · exact .head hpulled (huse _).1
  · intro c hc
    rw [Run.calls_bind] at hc
    rcases List.mem_append.1 hc with hc | hc
    · refine ⟨_, _, _, .refl, .pulling k s demand c hc c.held.walk.cursor, ?_⟩
      -- the stream is given up with the operation that pulls from it
      have hheld : (s.waiting c c.held.walk.cursor).drop = c.held := by
        obtain ⟨-, -, hcache, habandoned⟩ := pullMore_held hc
        obtain ⟨call, answer, ⟨walk, cache, abandoned⟩⟩ := c
        cases call with
        | row =>
          rw [if_pos rfl] at habandoned
          cases hcache
          cases habandoned
          rfl
        | resultSet =>
          rw [if_neg Call.noConfusion] at habandoned
          cases hcache
          cases habandoned
          rfl
      rw [← hheld]
      exact .single (.ended k _ .drop)
    · obtain ⟨m', atRow, m'', hbefore, hgiven, hafter⟩ := (huse _).2 c hc
      exact ⟨m', atRow, m'', .head hpulled hbefore, hgiven, hafter⟩

theorem madeOfSteps_end (s : Stream σ k) (ending : Ending) (f : Ended (Object k) → α) :
    MadeOfSteps (reading k s) (do
      let (ended, r) ← s.endBy ending
      return (f ended, r)) := by
  refine ⟨.single (.ended k s ending), fun c hc => ?_⟩
  simp only [Run.calls_bind, Run.calls_pure, List.append_nil] at hc
  exact ⟨_, _, _, .refl, .ending k s ending c hc c.held.walk.cursor, .refl⟩

/-- What a request does that makes its answer of the items of a stream and then gives it up. -/
def answerBy (demand : Demand) (f : Nat → List (Except Error (Object k)) → Except Error β)
    (s : Stream σ k) : SuspendingReader.Step σ κ β := do
  let p ← s.pullMore s.rowFn? demand
  return (f s.grid p.items, SuspendingReader.release s.cache s.grid p)

theorem madeOfSteps_answerBy (demand : Demand)
    (f : Nat → List (Except Error (Object k)) → Except Error β) (s : Stream σ k) :
    MadeOfSteps (reading k s) (answerBy demand f s) :=
  madeOfSteps_pull s demand fun p =>
    madeOfSteps_end { s with pulled := p } .drop fun _ => f s.grid p.items

theorem pullGrid_eq (r : SuspendingReader σ κ) (k : κ) (grid : Nat) (demand : Demand) :
    r.pullGrid k grid demand = do
      match ← r.pullGrid k grid (.atMost 0) with
      | .error e => return .error e
      | .ok s => return .ok { s with pulled := ← s.pullMore s.rowFn? demand } := by
  unfold SuspendingReader.pullGrid
  simp only [bind_assoc]
  refine bind_congr fun opened => ?_
  cases opened.rowFn? with
  | error e => rfl
  | ok rowFn? =>
    have hmet : (Demand.atMost 0).isMet = true := rfl
    simp only [Walk.pull_of_isMet _ _ _ _ hmet, pure_bind]
    rfl

theorem pullNext_eq (r : SuspendingReader σ κ) (k : κ) (demand : Demand) :
    r.pullNext k demand = do
      match ← r.openStream k none with
      | .error e => return .error e
      | .ok s => return .ok { s with pulled := ← s.pullMore s.rowFn? demand } := by
  unfold SuspendingReader.openStream SuspendingReader.pullNext
  simp only [bind_assoc]
  refine bind_congr fun r => ?_
  cases r.walk.position.nextGrid with
  | error e => rfl
  | ok grid => exact pullGrid_eq r k grid demand

theorem giveUp_pullGrid (r : SuspendingReader σ κ) (k : κ) (grid : Nat) (demand : Demand)
    (f : Nat → List (Except Error (Object k)) → Except Error β) :
    (do return SuspendingReader.giveUp (f grid) (← r.pullGrid k grid demand)) =
      r.pullGrid k grid (.atMost 0) >>= orRefused (answerBy demand f) := by
  unfold SuspendingReader.pullGrid answerBy
  simp only [bind_assoc]
  refine bind_congr fun opened => ?_
  cases opened.rowFn? with
  | error e => rfl
  | ok rowFn? =>
    have hmet : (Demand.atMost 0).isMet = true := rfl
    simp only [Walk.pull_of_isMet _ _ _ _ hmet, pure_bind, bind_assoc]
    rfl

/-- The grid that is asked for by its number. -/
def grid? : Request κ → Option Nat
  | .indexed _ grid _ _ => some grid
  | _ => none

theorem openStream_eq (q : Request κ) (r : SuspendingReader σ κ) :
    r.openStream k (grid? q) = (do
      let r ← r.settle
      match q.target r.walk.position with
      | .error e => return .error (e, r)
      | .ok grid => r.pullGrid k grid (.atMost 0)) := by
  cases q <;> rfl

/-- What a request does that gives its stream up: it opens the stream and answers by its items. -/
theorem performDropping_eq (q : Request κ) (r : SuspendingReader σ κ) :
    q.performDropping r =
      r.openStream q.type (grid? q) >>= orRefused (answerBy q.demand q.answer) := by
  rw [openStream_eq, Request.performDropping]
  simp only [bind_assoc]
  refine bind_congr fun r => ?_
  cases q.target r.walk.position with
  | error e => rfl
  | ok grid => exact giveUp_pullGrid r q.type grid q.demand q.answer

/-- What the request for the first object does with the stream that it was pulled from: it skips the
rest, unless there was an error. -/
def firstBy (s : Stream σ k) : SuspendingReader.Step σ κ (Option (Object k)) :=
  match firstOf s.pulled.items with
  | .error e => pure (.error e, s.drop)
  | .ok first => do
    let (result, r) ← s.finish
    return (result.map fun _ => first, r)

theorem madeOfSteps_firstBy (s : Stream σ k) : MadeOfSteps (reading k s) (firstBy s) := by
  unfold firstBy
  cases firstOf s.pulled.items with
  | error e => exact madeOfSteps_end s .drop fun _ => (.error e : Except Error (Option (Object k)))
  | ok first =>
    let answer : Ended (Object k) → Except Error (Option (Object k))
      | .finished result => result.map fun _ => first
      | _ => .ok first
    have hends := madeOfSteps_end s .finish answer
    simp only [Stream.endBy, bind_assoc, pure_bind] at hends
    exact hends

theorem readFirst_eq (r : SuspendingReader σ κ) (k : κ) :
    r.readFirst k = r.openStream k none >>= orRefused (fun s => do
      firstBy { s with pulled := ← s.pullMore s.rowFn? (.atMost 1) }) := by
  unfold SuspendingReader.readFirst
  rw [pullNext_eq, bind_assoc]
  refine bind_congr fun opened => ?_
  cases opened with
  | error refused => rfl
  | ok s =>
    simp only [bind_assoc, pure_bind]
    rfl

/-- **Requests are made of the steps of a moment**: opening a stream, pulling from it and ending it.
So whatever request is carried out or given up at a call, it is such steps that are. -/
theorem madeOfSteps_request (q : Request κ) (r : SuspendingReader σ κ) :
    MadeOfSteps (idle r) (q.performSuspending r) := by
  cases hq : q.isFirst with
  | false =>
    rw [Request.performSuspending_eq hq, performDropping_eq]
    exact madeOfSteps_open r q.type (grid? q) fun s => madeOfSteps_answerBy q.demand q.answer s
  | true =>
    cases q with
    | first k =>
      rw [Request.performSuspending, readFirst_eq]
      exact madeOfSteps_open r k none fun s =>
        madeOfSteps_pull s (.atMost 1) fun p => madeOfSteps_firstBy { s with pulled := p }
    | _ => cases hq

end Requests

/-- Wherever a request to a sound reader is given up, the reader is sound again or stuck. -/
theorem Sound.request_given_up (h : (idle r).Sound) (q : Request κ)
    {c : CallRecord (SuspendingReader σ κ)} (hc : c ∈ (q.performSuspending r).calls) :
    (idle c.held).Sound ∨ ∃ grid, (idle c.held).Stuck grid := by
  obtain ⟨m', atRow, m'', hbefore, hgiven, hafter⟩ := (madeOfSteps_request q r).2 c hc
  have hm' : m'.Sound := h.reaches (hbefore.lift id fun _ _ => .inl)
  cases atRow with
  | true => exact .inl ((hm'.given_up hgiven).reaches (hafter.lift id fun _ _ => .inl))
  | false =>
    obtain ⟨grid, hstuck⟩ := hm'.stuck hgiven
    rcases hstuck.reaches (hafter.lift id fun _ _ => .inl) with hstuck | ⟨hposition, hnone⟩
    · exact .inr ⟨grid, hstuck⟩
    · refine .inl (sound_of_ne_consumed (fun g => ?_) hnone)
      rw [hposition]
      exact Position.noConfusion

/-- **Only a stream that waits for a row may be given up.**  As long as nothing else is given up, a
grid whose reading has begun is marked as abandoned whenever no stream is alive; settling goes past
it, and the next grid is then never out of order.  A request that is made then consists of such
steps, and wherever it is given up the reader is marked like that again, or it is stuck.  If an
operation is given up at any other call, while a grid is skipped or while the cursor is moved past
one, the reader is stuck: every request is refused as out of order, whatever else is done, until the
reader is disposed of. -/
theorem sound_or_stuck (cursor : σ) (cache : Cache κ)
    (hm : Relation.ReflTransGen Resumes (idle (.ofCursor cursor cache)) m) :
    (∀ r, m = idle r →
        (∀ grid, r.walk.position = .consumed grid →
          r.abandoned = some grid ∧ r.settle.result.walk.IsPast grid) ∧
        (∀ requested current,
          r.settle.result.walk.position.nextGrid ≠ .error (.outOfOrder requested current)) ∧
        ∀ q : Request κ, MadeOfSteps (idle r) (q.performSuspending r) ∧
          ∀ c ∈ (q.performSuspending r).calls,
            (idle c.held).Sound ∨ ∃ grid, (idle c.held).Stuck grid) ∧
      ∀ m', GivenUp m false m' → ∃ grid, m'.Stuck grid ∧
        ∀ m'', Relation.ReflTransGen Step m' m'' → m''.Disposed ∨ m''.Stuck grid ∧
          ∀ r, m'' = idle r → ∀ k grid?, r.openStream k grid? = pure (.error
            (.outOfOrder (grid?.getD (grid + 1)) (Position.consumed grid).display, r)) := by
  have hsound := (sound_ofCursor cursor cache).reaches hm
  constructor
  · rintro r rfl
    refine ⟨fun grid hposition => ?_, fun requested current => ?_, fun q => ?_⟩
    · have habandoned := (hsound grid).1 hposition
      refine ⟨habandoned, ?_⟩
      obtain ⟨-, ⟨-, hnone⟩ | ⟨g, hg, hpast⟩⟩ := settle_isPast r
      · cases hnone.symm.trans habandoned
      · cases hg.symm.trans habandoned
        exact hpast
    · have hne := settle_ne_consumed hsound
      cases hposition : r.settle.result.walk.position with
      | active grid => exact fun h => nomatch h
      | consumed grid => exact absurd hposition (hne grid)
      | disposed => exact fun h => nomatch h
    · exact ⟨madeOfSteps_request q r, fun c hc => hsound.request_given_up q hc⟩
  · intro m' hgiven
    obtain ⟨grid, hstuck⟩ := hsound.stuck hgiven
    refine ⟨grid, hstuck, fun m'' hreaches => ?_⟩
    rcases hstuck.reaches hreaches with h | h
    · refine .inr ⟨h, ?_⟩
      rintro r rfl k grid?
      exact openStream_of_stuck h k grid?
    · exact .inl h

/-- A stream is dropped, and the operation after it is given up while it settles. -/
theorem sound_or_stuck_of_dropped :
    let cursor : ScriptedCursor :=
      ⟨[.ok true, .ok true, .ok false], [.ok true],
        fun _ _ => ⟨1, fun _ => "word", fun _ => .text, fun _ => .ok (.text "a")⟩⟩
    let r₀ : SuspendingReader ScriptedCursor ScalarType :=
      .ofCursor cursor (.fresh .hashed .empty)
    ∃ (s : Stream ScriptedCursor ScalarType.text) (r' : SuspendingReader ScriptedCursor ScalarType),
      Relation.ReflTransGen Resumes (idle r₀) (idle s.drop) ∧
        s.drop.abandoned = some 0 ∧ s.drop.settle.result.walk.IsPast 0 ∧
        GivenUp (idle s.drop) false (idle r') ∧
        r'.openStream .text none = pure (.error (.outOfOrder 1 "Consumed(0)", r')) := by
  intro cursor r₀
  have hopened : (r₀.openStream .text none).result.toOption.map (fun s => (s.drop.walk.position,
      (s.drop.openStream .text none).calls.head?.map (·.held.walk.position))) =
        some (.consumed 0, some (.consumed 0)) := by
    decide +kernel
  obtain ⟨s, hs, heq⟩ := Option.map_eq_some_iff.1 hopened
  obtain ⟨hposition, hhead⟩ := Prod.mk.inj heq
  obtain ⟨c, hc, hheld⟩ := Option.map_eq_some_iff.1 hhead
  have hreaches : Relation.ReflTransGen Resumes (idle r₀) (idle s.drop) :=
    .tail (.single (.inl (.opened r₀ .text none s (toOption_eq_some.1 hs))))
      (.inl (.ended _ s .drop))
  have hgiven : GivenUp (idle s.drop) false (idle (c.held.withCursor cursor)) :=
    .opening s.drop .text none c (List.mem_of_head? hc) cursor
  obtain ⟨hsettles, hstuck⟩ := sound_or_stuck cursor (.fresh .hashed .empty) hreaches
  obtain ⟨habandoned, hpast⟩ := (hsettles s.drop rfl).1 0 hposition
  obtain ⟨grid, hstuck, hreader⟩ := hstuck _ hgiven
  cases hheld.symm.trans hstuck.1
  refine ⟨s, _, hreaches, habandoned, hpast, hgiven, ?_⟩
  rcases hreader _ .refl with hdisposed | ⟨-, hrefused⟩
  · cases hheld.symm.trans hdisposed.1
  · exact hrefused _ rfl .text none

instance : DecidableEq (Request.read ScalarType.text).Answer :=
  inferInstanceAs (DecidableEq (List (Object ScalarType.text)))

/-- A request that is given up at its first call, while it settles, leaves the grid before it
behind, and no request reads on from there. -/
theorem stuck_of_settling_given_up :
    let cursor : ScriptedCursor :=
      ⟨[.ok true, .ok true, .ok false, .ok true], [.ok true],
        fun _ _ => ⟨1, fun _ => "word", fun _ => .text, fun _ => .ok (.text "a")⟩⟩
    let r₀ : SuspendingReader ScriptedCursor ScalarType :=
      .ofCursor cursor (.fresh .hashed .empty)
    let r₁ := ((Request.stream .text (some 1)).performSuspending r₀).result.2
    r₁.walk.position = .consumed 0 ∧ r₁.abandoned = some 0 ∧
      ∃ c, ((Request.read .text).performSuspending r₁).calls.head? = some c ∧
        c.held.walk.position = .consumed 0 ∧ c.held.abandoned = none ∧
        ((Request.read .text).performSuspending c.held).result.1 =
          .error (.outOfOrder 1 "Consumed(0)") := by
  intro cursor r₀ r₁
  have hhead : ((Request.read .text).performSuspending r₁).calls.head?.map (fun c =>
      (c.held.walk.position, c.held.abandoned,
        ((Request.read .text).performSuspending c.held).result.1)) =
        some (.consumed 0, none, .error (.outOfOrder 1 "Consumed(0)")) := by
    decide +kernel
  obtain ⟨c, hc, heq⟩ := Option.map_eq_some_iff.1 hhead
  obtain ⟨hposition, heq⟩ := Prod.mk.inj heq
  obtain ⟨habandoned, hresult⟩ := Prod.mk.inj heq
  refine ⟨?_, ?_, c, hc, hposition, habandoned, hresult⟩ <;> decide +kernel

end Moment

end RowMapping
