import RowMapping.Proofs.Grid.Answers
import RowMapping.Proofs.Grid.Request

/-!
# The protocol between a reader and its cursor

A cursor is asked for rows until there is none, and only then for the next result set.  After an
error, after the last result set, after a row that is fatal for the cursor and after the reader was
disposed of, it is not asked for anything.  An automaton (`Phase`) accepts what follows this
protocol.

* `Run.events`: what happens in a run that watches for fatal rows;
* `GridReader.watchGrid`: the run of a reader, watched;
* `Walk.pull_phase`, `Walk.skip_phase`, `Walk.finish_phase`: the steps of a walk are accepted, and
  the automaton ends in the phase of the position;
* `ReaderOp.follows_protocol`: so do all operations of a reader.
-/

namespace RowMapping

/-- What happens between a reader and its cursor. -/
inductive ReaderEvent where
  /-- A call was made and answered. -/
  | call (call : Call) (answer : Except Error Bool)
  /-- The object of a row could not be made, with an error that is fatal for the cursor. -/
  | fatal
  /-- The reader was told that nothing more is to be read. -/
  | dispose

namespace ReaderEvent

/-- The call and its answer. -/
def call? : ReaderEvent → Option (Call × Except Error Bool)
  | call c answer => some (c, answer)
  | fatal | dispose => none

/-- The cursor is not to be asked for anything after this. -/
def stops : ReaderEvent → Bool
  | call _ (.error _) | call .resultSet (.ok false) | fatal | dispose => true
  | call _ (.ok _) => false

end ReaderEvent

/-- What the cursor may be asked for. -/
inductive Phase where
  /-- A row. -/
  | rows
  /-- The next result set, since there are no more rows. -/
  | ended
  /-- Nothing. -/
  | stopped
  deriving DecidableEq

namespace Phase

/-- The phase after an event, if it may happen. -/
def step : Phase → ReaderEvent → Option Phase
  | rows, .call .row (.ok true) => some rows
  | rows, .call .row (.ok false) => some ended
  | rows, .call .row (.error _) => some stopped
  | rows, .fatal => some stopped
  | ended, .call .resultSet (.ok true) => some rows
  | ended, .call .resultSet (.ok false) => some stopped
  | ended, .call .resultSet (.error _) => some stopped
  | rows, .dispose => some stopped
  | stopped, .dispose => some stopped
  | _, _ => none

/-- The phase after events, if they may happen in their order. -/
def run (p : Phase) (events : List ReaderEvent) : Option Phase := events.foldlM step p

@[simp] theorem run_nil (p : Phase) : p.run [] = some p := rfl

@[simp] theorem run_cons (p : Phase) (event : ReaderEvent) (events : List ReaderEvent) :
    p.run (event :: events) = p.step event >>= (run · events) := List.foldlM_cons

@[simp] theorem run_append (p : Phase) (before after : List ReaderEvent) :
    p.run (before ++ after) = p.run before >>= (run · after) := List.foldlM_append

variable {p q : Phase} {event : ReaderEvent} {events : List ReaderEvent}

theorem step_eq_stopped_iff (h : p.step event = some q) :
    q = stopped ↔ p = stopped ∨ event.stops = true := by
  unfold step at h
  split at h <;> cases h <;> simp [ReaderEvent.stops]

theorem run_eq_stopped_iff (h : p.run events = some q) :
    q = stopped ↔ p = stopped ∨ ∃ event ∈ events, event.stops = true := by
  induction events generalizing p with
  | nil =>
    cases h
    simp
  | cons event events ih =>
    rw [run_cons] at h
    obtain ⟨p', hstep, hrun⟩ := Option.bind_eq_some_iff.1 h
    rw [ih hrun, step_eq_stopped_iff hstep, List.exists_mem_cons_iff, or_assoc]

theorem call?_eq_none_of_stopped (h : stopped.run events = some q) :
    ∀ event ∈ events, event.call? = none := by
  induction events with
  | nil => simp
  | cons event events ih =>
    rw [run_cons] at h
    obtain ⟨p', hstep, hrun⟩ := Option.bind_eq_some_iff.1 h
    cases event with
    | dispose =>
      cases hstep
      exact List.forall_mem_cons.2 ⟨rfl, ih hrun⟩
    | call c answer => cases hstep
    | fatal => cases hstep

theorem call?_eq_none_of_stops {before after : List ReaderEvent}
    (h : p.run (before ++ event :: after) = some q) (hstops : event.stops = true) :
    ∀ e ∈ after, e.call? = none := by
  rw [run_append] at h
  obtain ⟨p', -, h⟩ := Option.bind_eq_some_iff.1 h
  rw [run_cons] at h
  obtain ⟨p'', hstep, h⟩ := Option.bind_eq_some_iff.1 h
  rw [(step_eq_stopped_iff hstep).2 (.inr hstops)] at h
  exact call?_eq_none_of_stopped h

end Phase

/-- What the cursor may be asked for while a reader stands at a position. -/
def Position.phase : Position → Phase
  | active _ | consumed _ => .rows
  | disposed => .stopped

theorem Position.phase_eq_stopped_iff {p : Position} : p.phase = .stopped ↔ p = .disposed := by
  cases p <;> simp [phase]

/-- The events of a call.  Held at the call is whether the row that it moves to is fatal. -/
def CallRecord.events : CallRecord Bool → List ReaderEvent
  | ⟨.row, .ok true, true⟩ => [.call .row (.ok true), .fatal]
  | ⟨c, answer, _⟩ => [.call c answer]

namespace Run

variable {α β : Type}

/-- The events of a run. -/
def events (r : Run Bool α) : List ReaderEvent := r.calls.flatMap CallRecord.events

@[simp] theorem events_pure (x : α) : (pure x : Run Bool α).events = [] := rfl

@[simp] theorem events_bind (r : Run Bool α) (f : α → Run Bool β) :
    (r >>= f).events = r.events ++ (f r.result).events := List.flatMap_append ..

theorem filterMap_events (r : Run Bool α) :
    r.events.filterMap ReaderEvent.call? = r.answers := by
  rw [events, List.filterMap_flatMap, answers, List.map_eq_flatMap]
  refine congrArg (fun f => r.calls.flatMap f) (funext fun record => ?_)
  unfold CallRecord.events
  split <;> rfl

end Run

variable {σ κ : Type} [Cursor σ]

namespace Walk

variable {α : Type}

/-- Watches for rows that are fatal for the cursor. -/
def watch (rowFn? : Option (RowFn α)) : Keep σ Bool where
  streaming w := (rowItem? rowFn? w.next.view).any isFatalItem
  moving _ := false

theorem finish_phase (keep : Walk σ → Bool) (grid : Nat) (w : Walk σ) :
    Phase.ended.run (finish keep grid w).events =
      some (finish keep grid w).result.2.position.phase := by
  unfold finish
  dsimp only
  cases (Cursor.advanceResultSet w.cursor).1 with
  | error e => rfl
  | ok more => cases more <;> rfl

theorem skip_phase (grid : Nat) (w : Walk σ) :
    Phase.rows.run (skip (fun _ => false) grid w).events =
      some (skip (fun _ => false) grid w).result.position.phase := by
  induction w using induction_next with
  | step w ih =>
    rw [skip_eq]
    cases hanswer : (Cursor.advanceRow w.cursor).1 with
    | error e => rfl
    | ok more =>
      cases more with
      | true => exact ih hanswer
      | false =>
        simp only [Run.events_bind, Run.events_pure, List.append_nil]
        exact finish_phase _ grid w.next

/-- After a grid was pulled from to its end, the cursor may be asked for what the position says.
Before that, it may still be asked for rows. -/
theorem pull_phase (rowFn? : Option (RowFn α)) (grid : Nat) (demand : Demand) (w : Walk σ) :
    let run := pull (watch rowFn?) rowFn? grid demand w
    Phase.rows.run run.events =
      some (if run.result.ended then run.result.walk.position.phase else .rows) := by
  refine pull_induction (watch rowFn?) rowFn? grid
    (motive := fun _ _ run => Phase.rows.run run.events =
      some (if run.result.ended then run.result.walk.position.phase else .rows))
    ?met ?failed ?ended ?passed ?fatal ?item demand w
  case met => exact fun _ _ _ => rfl
  case failed => exact fun _ _ _ _ _ => rfl
  case ended =>
    intro demand w _ _
    simp only [Run.events_bind, Run.events_pure, List.append_nil]
    exact finish_phase _ grid w.next
  case passed =>
    intro demand w _ _ hitem ih
    simp only [watch, hitem, Option.any_none]
    exact ih
  case fatal =>
    intro demand w item _ _ hitem hfatal
    simp only [watch, hitem, Option.any_some, hfatal]
    rfl
  case item =>
    intro demand w item _ _ hitem hfatal ih
    simp only [watch, hitem, Option.any_some, hfatal, Run.events_bind, Run.events_pure,
      List.append_nil]
    exact ih

variable [RowTypes κ] [DecidableEq κ]

theorem openGrid_phase (cache : Cache κ) (k : κ) (grid : Nat) (w : Walk σ) :
    let run := openGrid (fun _ => false) cache k grid w
    w.position.phase.run run.events = some run.result.walk.position.phase ∧
      (run.result.rowFn?.toBool = true → run.result.walk.position = .consumed grid) := by
  cases opening cache k grid w with
  | rejected e _ heq =>
    rw [heq]
    exact ⟨rfl, nofun⟩
  | empty hposition heq =>
    rw [heq, hposition]
    exact ⟨rfl, fun _ => rfl⟩
  | found hposition d cache' _ heq =>
    rw [heq, hposition]
    exact ⟨rfl, fun _ => rfl⟩
  | skipped hposition e heq =>
    rw [heq, hposition]
    refine ⟨?_, nofun⟩
    simp only [Run.events_bind, Run.events_pure, List.append_nil]
    exact skip_phase grid _

end Walk

variable [RowTypes κ] [DecidableEq κ]

/-- What a reader does when it reads a grid as far as demanded, watched for rows that are fatal. -/
def GridReader.watchGrid (r : GridReader σ κ) (k : κ) (grid : Nat) (demand : Demand) :
    Run Bool (Except Error (Pulled σ (Object k)) × GridReader σ κ) := do
  let opened ← r.walk.openGrid (fun _ => false) r.cache k grid
  match opened.rowFn? with
  | .error e => return (.error e, ⟨opened.walk, opened.cache⟩)
  | .ok rowFn? =>
    let pulled ← opened.walk.pull (Walk.watch rowFn?) rowFn? grid demand
    if pulled.ended then return (.ok pulled, ⟨pulled.walk, opened.cache⟩)
    else return (.ok pulled, ⟨← pulled.walk.skip (fun _ => false) grid, opened.cache⟩)

namespace GridReader

variable (r : GridReader σ κ) (k : κ) (grid : Nat) (demand : Demand)

theorem watchGrid_forget : (r.watchGrid k grid demand).forget = r.pullGrid k grid demand := by
  unfold watchGrid pullGrid
  simp only [Run.forget_bind, Walk.openGrid_forget]
  refine bind_congr fun opened => ?_
  cases opened.rowFn? with
  | error e => rfl
  | ok rowFn? =>
    simp only [Run.forget_bind, Walk.pull_forget]
    refine bind_congr fun pulled => ?_
    cases pulled.ended with
    | true => rfl
    | false =>
      simp only [Bool.false_eq_true, if_false, Run.forget_bind, Walk.skip_forget]
      rfl

theorem watchGrid_phase :
    r.walk.position.phase.run (r.watchGrid k grid demand).events =
      some (r.pullGrid k grid demand).result.2.walk.position.phase := by
  rw [← watchGrid_forget, Run.result_forget]
  obtain ⟨hphase, hconsumed⟩ := Walk.openGrid_phase r.cache k grid r.walk
  unfold watchGrid
  simp only [Run.events_bind, Run.result_bind, Phase.run_append, hphase, Option.bind_eq_bind,
    Option.bind_some]
  generalize (r.walk.openGrid (fun _ => false) r.cache k grid).result = opened at hconsumed ⊢
  obtain ⟨w, cache, rowFn?⟩ := opened
  cases rowFn? with
  | error e => rfl
  | ok rowFn? =>
    have hpull := Walk.pull_phase rowFn? grid demand w
    have hrows : w.position.phase = .rows := congrArg Position.phase (hconsumed rfl)
    simp only [Run.events_bind, Run.result_bind, Phase.run_append, hrows, hpull,
      Option.bind_eq_bind, Option.bind_some]
    cases (w.pull (Walk.watch rowFn?) rowFn? grid demand).result.ended with
    | true => rfl
    | false =>
      simp only [Bool.false_eq_true, if_false, Run.events_bind, Run.events_pure, List.append_nil]
      exact Walk.skip_phase grid _

end GridReader

namespace Request

/-- What happens on request. -/
def events (q : Request κ) (r : GridReader σ κ) : List ReaderEvent :=
  match q.target r.walk.position with
  | .error _ => []
  | .ok grid => (r.watchGrid q.type grid q.demand).events

/-- The calls that happen are those that the reader makes. -/
theorem filterMap_events (q : Request κ) (r : GridReader σ κ) :
    (q.events r).filterMap ReaderEvent.call? = (q.perform r).answers := by
  rw [perform_eq, events]
  cases q.target r.walk.position with
  | error e => rfl
  | ok grid =>
    simp only [Run.answers_bind, Run.answers_pure, List.append_nil]
    rw [Run.filterMap_events, ← GridReader.watchGrid_forget, Run.answers_forget]

theorem phase (q : Request κ) (r : GridReader σ κ) :
    r.walk.position.phase.run (q.events r) =
      some (q.perform r).result.2.walk.position.phase := by
  rw [perform_eq, events]
  cases q.target r.walk.position with
  | error e => rfl
  | ok grid => exact r.watchGrid_phase q.type grid q.demand

end Request

namespace ReaderOp

/-- The calls that an operation makes to the cursor, with their answers. -/
def calls (r : GridReader σ κ) : ReaderOp κ → List (Call × Except Error Bool)
  | request q => (q.perform r).answers
  | dispose => []

/-- What happens at an operation. -/
def events (r : GridReader σ κ) : ReaderOp κ → List ReaderEvent
  | request q => q.events r
  | dispose => [.dispose]

variable {r : GridReader σ κ}

theorem filterMap_events (op : ReaderOp κ) :
    (op.events r).filterMap ReaderEvent.call? = op.calls r := by
  cases op with
  | request q => exact q.filterMap_events r
  | dispose => rfl

theorem phase (op : ReaderOp κ) :
    r.walk.position.phase.run (op.events r) = some (op.after r).walk.position.phase := by
  cases op with
  | request q => exact q.phase r
  | dispose => cases r.walk.position <;> simp [events, Position.phase] <;> rfl

/-- The calls that operations make, one operation after the other. -/
def allCalls (r : GridReader σ κ) : List (ReaderOp κ) → List (Call × Except Error Bool)
  | [] => []
  | op :: ops => op.calls r ++ allCalls (op.after r) ops

/-- What happens at operations, one after the other. -/
def trace (r : GridReader σ κ) : List (ReaderOp κ) → List ReaderEvent
  | [] => []
  | op :: ops => op.events r ++ trace (op.after r) ops

theorem filterMap_trace (ops : List (ReaderOp κ)) :
    (trace r ops).filterMap ReaderEvent.call? = allCalls r ops := by
  induction ops generalizing r with
  | nil => rfl
  | cons op ops ih => rw [trace, allCalls, List.filterMap_append, filterMap_events, ih]

theorem trace_phase (ops : List (ReaderOp κ)) :
    r.walk.position.phase.run (trace r ops) = some (run r ops).walk.position.phase := by
  induction ops generalizing r with
  | nil => rfl
  | cons op ops ih =>
    rw [trace, Phase.run_append, phase, Option.bind_eq_bind, Option.bind_some, ih]
    rfl

theorem run_position_of_disposed (h : r.walk.position = .disposed) (ops : List (ReaderOp κ)) :
    (run r ops).walk.position = .disposed := by
  induction ops generalizing r with
  | nil => exact h
  | cons op ops ih =>
    refine ih ?_
    cases op with
    | request q =>
      rw [after, q.perform_of_disposed h]
      exact h
    | dispose => rfl

/-- **A reader follows the protocol of its cursor**, whatever the cursor answers and shows and
whatever the reader is used for.  It asks for rows until there is none, at once for the next result
set then, and only then.  After an error, after the last result set, after a fatal row and after it
was disposed of it asks for nothing more.  Then, and only then, it stands where nothing is left to
read; it stays there and answers every request so. -/
theorem follows_protocol (cursor : σ) (cache : Cache κ) (ops : List (ReaderOp κ)) :
    let start : GridReader σ κ := .ofCursor cursor cache
    let events := trace start ops
    let position := (run start ops).walk.position
    events.filterMap ReaderEvent.call? = allCalls start ops ∧
      Phase.rows.run events = some position.phase ∧
      (∀ before event after, events = before ++ event :: after → event.stops = true →
        ∀ e ∈ after, e.call? = none) ∧
      ((∃ event ∈ events, event.stops = true) ↔ position = .disposed) ∧
      (position = .disposed → ∀ (later : List (ReaderOp κ)) (q : Request κ),
        let r := run start (ops ++ later)
        r.walk.position = .disposed ∧ q.perform r = pure (.error .disposed, r)) := by
  intro start events position
  have hphase : Phase.rows.run events = some position.phase := trace_phase (r := start) ops
  refine ⟨filterMap_trace ops, hphase, ?_, ?_, ?_⟩
  · intro before event after hevents hstops
    rw [hevents] at hphase
    exact Phase.call?_eq_none_of_stops hphase hstops
  · rw [← Position.phase_eq_stopped_iff, Phase.run_eq_stopped_iff hphase, or_iff_right nofun]
  · intro hposition later q r
    have hlater : r.walk.position = .disposed := by
      change (List.foldl after start (ops ++ later)).walk.position = .disposed
      rw [List.foldl_append]
      exact run_position_of_disposed hposition later
    exact ⟨hlater, q.perform_of_disposed hlater⟩

end ReaderOp

end RowMapping
