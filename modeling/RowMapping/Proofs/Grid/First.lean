import RowMapping.Proofs.Grid.Agreement

/-!
# The first object and failing calls

Both kinds of readers skip the rest of the grid when they were asked for its first object only.  The
suspending reader waits for that and reports a call that fails.  The other one has its stream skip
the rest when it is given up, where nothing can be reported.

* `Walk.pull_failure`: a call that fails before there is an object is reported as an item;
* `Walk.pull_none`: pulling without a row function makes the calls of skipping, and gives the
  failure as its only item;
* `SuspendingReader.readFirst_failure`: what either reader makes of calls that fail.
-/

namespace RowMapping

/-- The error of the first call that fails. -/
def firstFailure (calls : List (Call × Except Error Bool)) : Option Error :=
  calls.findSome? fun c =>
    match c.2 with
    | .ok _ => none
    | .error e => some e

theorem firstFailure_append (calls more : List (Call × Except Error Bool)) :
    firstFailure (calls ++ more) = (firstFailure calls).or (firstFailure more) :=
  List.findSome?_append

namespace Run

variable {ρ α β : Type}

/-- The error of the first call of the run that fails. -/
def failure? (r : Run ρ α) : Option Error := firstFailure r.answers

@[simp] theorem failure?_pure (x : α) : (pure x : Run ρ α).failure? = none := rfl

@[simp] theorem failure?_bind (r : Run ρ α) (f : α → Run ρ β) :
    (r >>= f).failure? = r.failure?.or (f r.result).failure? := by
  rw [failure?, answers_bind, firstFailure_append]
  rfl

@[simp] theorem failure?_ofCall_ok (call : Call) (more : Bool) (held : ρ) :
    (ofCall call (.ok more) held).failure? = none := rfl

end Run

variable {σ κ : Type} [Cursor σ]

namespace Walk

variable {ρ α : Type}

theorem finish_failure (keep : Walk σ → ρ) (grid : Nat) (w : Walk σ) :
    (finish keep grid w).failure? = (finish keep grid w).result.1 := by
  unfold finish
  dsimp only
  cases (Cursor.advanceResultSet w.cursor).1 <;> rfl

/-- If a call fails, there was no item before, and the error is the only one. -/
theorem pull_failure (keep : Keep σ ρ) (rowFn? : Option (RowFn α)) (grid : Nat) (w : Walk σ)
    {e : Error} (h : (pull keep rowFn? grid (.atMost 1) w).failure? = some e) :
    (pull keep rowFn? grid (.atMost 1) w).result.items = [.error e] := by
  -- the demand changes with the items, so it is kept in an equation
  refine pull_induction keep rowFn? grid
    (motive := fun demand _ run => demand = .atMost 1 → run.failure? = some e →
      run.result.items = [.error e])
    ?met ?failed ?ended ?passed ?fatal ?item (.atMost 1) w rfl h
  case met => exact fun _ _ _ _ => nofun
  case failed =>
    intro demand w e' _ _ _ h
    cases h
    rfl
  case ended =>
    intro demand w _ _ _ h
    simp only [Run.failure?_bind, Run.failure?_ofCall_ok, Run.failure?_pure, finish_failure,
      Option.none_or, Option.or_none] at h
    simp only [Run.result_bind, Run.result_pure, h]
    rfl
  case passed => exact fun _ _ _ _ _ ih => ih
  case fatal => exact fun _ _ _ _ _ _ _ _ => nofun
  case item =>
    -- no call comes after an item, because it meets the demand
    intro demand w item _ _ _ _ _ hdemand h
    have hmet : (demand.after item).isMet = true := by
      rw [hdemand]
      cases item <;> rfl
    rw [pull_of_isMet keep rowFn? grid _ hmet] at h
    cases h

/-- Pulling without a row function makes the calls of skipping.  Its only item is the failure. -/
theorem pull_none (α : Type) (keep : Keep σ ρ) (grid : Nat) (w : Walk σ) :
    let skipped := skip keep.moving grid w
    let pulled := pull keep (none : Option (RowFn α)) grid .allGood w
    pulled.answers = skipped.answers ∧
      pulled.result = ⟨skipped.result, (skipped.failure?.map .error).toList, true⟩ := by
  refine pull_induction keep (none : Option (RowFn α)) grid
    (motive := fun demand w pulled => demand.isMet = false →
      let skipped := skip keep.moving grid w
      pulled.answers = skipped.answers ∧
        pulled.result = ⟨skipped.result, (skipped.failure?.map .error).toList, true⟩)
    ?met ?failed ?ended ?passed ?fatal ?item .allGood w rfl
  case met =>
    intro demand w hmet hnot
    cases hmet.symm.trans hnot
  case failed =>
    intro demand w e _ hanswer _
    rw [skip_eq, hanswer]
    exact ⟨rfl, rfl⟩
  case ended =>
    intro demand w _ hanswer _
    rw [skip_eq, hanswer]
    simp only [Run.answers_bind, Run.answers_pure, Run.result_bind, Run.result_pure,
      Run.failure?_bind, Run.failure?_ofCall_ok, Run.failure?_pure, finish_failure,
      Option.none_or, Option.or_none]
    exact ⟨rfl, trivial⟩
  case passed =>
    intro demand w _ hanswer _ ih hmet
    rw [skip_eq, hanswer]
    obtain ⟨hanswers, hresult⟩ := ih hmet
    exact ⟨congrArg _ hanswers, hresult⟩
  case fatal => exact fun _ _ _ _ _ => nofun
  case item => exact fun _ _ _ _ _ => nofun

theorem openGrid_answers [RowTypes κ] [DecidableEq κ] {keep : Walk σ → ρ} {cache : Cache κ} {k : κ}
    {grid : Nat} {w : Walk σ}
    (h : (openGrid keep cache k grid w).result.rowFn?.toBool = true) :
    (openGrid keep cache k grid w).answers = [] := by
  cases opening cache k grid w with
  | rejected e _ heq =>
    rw [heq]
    rfl
  | empty _ heq =>
    rw [heq]
    rfl
  | found _ d cache' _ heq =>
    rw [heq]
    rfl
  | skipped _ e heq =>
    rw [heq] at h
    cases h

end Walk

namespace SuspendingReader

variable [RowTypes κ] {k : κ}

/-- Skipping the rest of a stream makes the calls that would settle the reader if the stream were
given up, and reports the one that fails. -/
theorem Stream.finish_settle (stream : Stream σ k) :
    stream.finish.answers = stream.drop.settle.answers ∧
      stream.finish.result.1 =
        match stream.drop.settle.failure? with
        | none => .ok ()
        | some e => .error e := by
  unfold finish pullMore drop release settle
  cases stream.pulled.ended with
  | true => exact ⟨rfl, rfl⟩
  | false =>
    obtain ⟨hanswers, hresult⟩ := Walk.pull_none (Object k) (keep stream.cache stream.grid)
      stream.grid stream.pulled.walk
    simp only [Bool.false_eq_true, if_false, Run.answers_bind, Run.answers_pure, List.append_nil,
      Run.result_bind, Run.result_pure, Run.failure?_bind, Run.failure?_pure, Option.or_none,
      hanswers, hresult, true_and]
    cases (stream.pulled.walk.skip (keep stream.cache stream.grid).moving stream.grid).failure? with
    | none => rfl
    | some e => rfl

variable [DecidableEq κ] (s : SuspendingReader σ κ)

theorem readFirst_settle (k : κ) :
    s.readFirst k = s.settle >>= fun _ => s.settled.suspending.readFirst k := by
  unfold readFirst pullNext
  simp only [bind_assoc]
  refine Run.bind_congr_result ?_
  rw [s.result_settle]
  rfl

theorem pullNext_suspending (r : GridReader σ κ) (k : κ) (demand : Demand) :
    r.suspending.pullNext k demand =
      match r.walk.position.nextGrid with
      | .error e => pure (.error (e, r.suspending))
      | .ok grid => r.suspending.pullGrid k grid demand := rfl

/-- The other reader makes its answer of the item that was found, and skips the rest as if the
stream had been given up. -/
theorem readFirst_blocking (r : GridReader σ κ) (k : κ) :
    let search := r.suspending.pullNext k (.atMost 1)
    let given := giveUp firstOf search.result
    (r.readFirst k).answers = search.answers ++ given.2.settle.answers ∧
      (r.readFirst k).result.1 = given.1 := by
  intro search given
  have hdrop : (Request.first k).performDropping r.suspending =
      search >>= fun found =>
        (pure (giveUp firstOf found) : Step σ κ (Request.first k).Answer) := by
    change (match r.walk.position.nextGrid with
      | .error e => _
      | .ok grid => _) = r.suspending.pullNext k (.atMost 1) >>= _
    rw [pullNext_suspending]
    cases r.walk.position.nextGrid <;> rfl
  have hsettle := Request.performDropping_settle (.first k) r.suspending
  refine ⟨?_, ?_⟩
  · have hanswers := congrArg Run.answers hsettle
    rw [hdrop, bind_assoc] at hanswers
    simp only [pure_bind, Run.answers_forget, Run.answers_bind, Run.answers_pure,
      List.append_nil] at hanswers
    exact hanswers.symm
  · rw [hdrop] at hsettle
    exact (congrArg (·.result.1) hsettle).symm

/-- The suspending reader skips the rest only if there is no error yet, and reports what fails
then. -/
theorem readFirst_waiting (r : GridReader σ κ) (k : κ) :
    let search := r.suspending.pullNext k (.atMost 1)
    let given := giveUp firstOf search.result
    let run := r.suspending.readFirst k
    match given.1 with
    | .error e => run.answers = search.answers ∧ run.result.1 = .error e
    | .ok first =>
      run.answers = search.answers ++ given.2.settle.answers ∧
        run.result.1 =
          match given.2.settle.failure? with
          | none => .ok first
          | some e => .error e := by
  intro search given run
  simp only [run, readFirst, Run.answers_bind, Run.result_bind]
  change match given.1 with
    | .error e => search.answers ++ _ = _ ∧ _
    | .ok first => search.answers ++ _ = _ ∧ _
  cases hsearch : search.result with
  | error found =>
    have hgiven : given = (.error found.1, found.2) := congrArg (giveUp firstOf) hsearch
    rw [hgiven]
    exact ⟨List.append_nil _, rfl⟩
  | ok stream =>
    have hgiven : given = (firstOf stream.pulled.items, stream.drop) :=
      congrArg (giveUp firstOf) hsearch
    rw [hgiven]
    dsimp only
    cases firstOf stream.pulled.items with
    | error e => exact ⟨List.append_nil _, rfl⟩
    | ok first =>
      obtain ⟨hanswers, hresult⟩ := stream.finish_settle
      simp only [Run.answers_bind, Run.answers_pure, List.append_nil, Run.result_bind,
        Run.result_pure, hanswers, hresult, true_and]
      cases stream.drop.settle.failure? with
      | none => rfl
      | some e => rfl

theorem giveUp_of_failure {r : GridReader σ κ} {k : κ} {e : Error}
    (hbegun : (r.suspending.pullNext k (.atMost 1)).result.toBool = true)
    (hfailure : (r.suspending.pullNext k (.atMost 1)).failure? = some e) :
    (giveUp firstOf (r.suspending.pullNext k (.atMost 1)).result).1 = .error e := by
  rw [pullNext_suspending] at hbegun hfailure ⊢
  cases hnext : r.walk.position.nextGrid with
  | error e =>
    rw [hnext] at hbegun
    cases hbegun
  | ok grid =>
    rw [hnext] at hbegun hfailure
    simp only [pullGrid, Run.result_bind, Run.failure?_bind] at hbegun hfailure ⊢
    cases hopened : (r.suspending.walk.openGrid (keep r.suspending.cache grid).moving
        r.suspending.cache k grid).result.rowFn? with
    | error e =>
      rw [hopened] at hbegun
      cases hbegun
    | ok rowFn? =>
      have hnone := Walk.openGrid_answers (congrArg Except.toBool hopened)
      rw [hopened, Run.failure?, hnone] at hfailure
      simp only [Run.failure?_bind, Run.failure?_pure, Option.or_none] at hfailure
      exact congrArg firstOf (Walk.pull_failure _ rowFn? grid _ hfailure)

/-- **Failing calls and the first object.**  Both readers make the same calls until there is an
object, the grid ends, or there is an error; the suspending one settles before.  If the grid could
be begun, both report the first of these calls that fails.  What is called to skip the rest of the
grid is different: if one of these calls fails, the suspending reader reports it and the other one
gives the object.  In all other cases they give the same answer. -/
theorem readFirst_failure (s : SuspendingReader σ κ) (k : κ) :
    let search := s.settled.suspending.pullNext k (.atMost 1)
    let blocking := s.settled.readFirst k
    let suspending := s.readFirst k
    ∃ skipped finished,
      blocking.answers = search.answers ++ skipped ∧
      suspending.answers = s.settle.answers ++ (search.answers ++ finished) ∧
      (∀ e left, search.result = .error (e, left) →
        blocking.result.1 = .error e ∧ suspending.result.1 = .error e) ∧
      (search.result.toBool = true →
        (∀ e, firstFailure search.answers = some e → blocking.result.1 = .error e) ∧
        (∀ e, firstFailure (search.answers ++ finished) = some e →
          suspending.result.1 = .error e)) ∧
      (firstFailure finished = none → suspending.result.1 = blocking.result.1) ∧
      (∀ e, firstFailure finished = some e →
        finished = skipped ∧ suspending.result.1 = .error e ∧
          ∃ first, blocking.result.1 = .ok first) := by
  intro search blocking suspending
  obtain ⟨hblocking, hanswer⟩ := readFirst_blocking s.settled k
  have hwaiting := readFirst_waiting s.settled k
  have hrejected (e : Error) (left : SuspendingReader σ κ) (h : search.result = .error (e, left)) :
      (giveUp firstOf search.result).1 = .error e := by
    rw [h]
    rfl
  have hfailure (hbegun : search.result.toBool = true) (e : Error)
      (h : firstFailure search.answers = some e) : (giveUp firstOf search.result).1 = .error e :=
    giveUp_of_failure hbegun h
  have hsuspending : suspending = s.settle >>= fun _ => s.settled.suspending.readFirst k :=
    s.readFirst_settle k
  rw [hsuspending, Run.answers_bind, Run.result_bind]
  change blocking.result.1 = (giveUp firstOf search.result).1 at hanswer
  change match (giveUp firstOf search.result).1 with
    | .error _ => _
    | .ok _ => _ at hwaiting
  cases hgiven : (giveUp firstOf search.result).1 with
  | error e =>
    rw [hgiven] at hwaiting hanswer hrejected hfailure
    obtain ⟨hanswers, hresult⟩ := hwaiting
    refine ⟨_, [], hblocking, by rw [hanswers, List.append_nil], ?_, ?_, ?_, nofun⟩
    · intro e' left h
      rw [hanswer, hresult, hrejected e' left h]
      exact ⟨rfl, rfl⟩
    · intro hbegun
      rw [List.append_nil, hanswer, hresult]
      exact ⟨hfailure hbegun, hfailure hbegun⟩
    · intro _
      rw [hanswer, hresult]
  | ok first =>
    rw [hgiven] at hwaiting hanswer hrejected hfailure
    obtain ⟨hanswers, hresult⟩ := hwaiting
    have hreported (e : Error)
        (h : firstFailure (giveUp firstOf search.result).2.settle.answers = some e) :
        (s.settled.suspending.readFirst k).result.1 = .error e := by
      rw [hresult, Run.failure?, h]
    refine ⟨_, _, hblocking, by rw [hanswers], ?_, ?_, ?_, ?_⟩
    · exact fun e left h => nomatch hrejected e left h
    · intro hbegun
      have hnone : firstFailure search.answers = none :=
        Option.eq_none_iff_forall_ne_some.2 fun e h => (nomatch hfailure hbegun e h)
      rw [firstFailure_append, hnone, Option.none_or]
      exact ⟨nofun, hreported⟩
    · intro h
      rw [hresult, hanswer, Run.failure?, h]
    · exact fun e h => ⟨rfl, hreported e h, first, hanswer⟩

/-- The cursor fails when the second row is asked for.  Only the suspending reader says so. -/
theorem readFirst_of_lost_cursor :
    let cursor : ScriptedCursor :=
      ⟨[.ok true, .error (.cursor "lost")], [],
        fun _ _ => ⟨1, fun _ => "word", fun _ => .text, fun _ => .ok (.text "a")⟩⟩
    let cache : Cache ScalarType := .fresh .hashed .empty
    let blocking := (GridReader.ofCursor cursor cache).readFirst .text
    let suspending := (SuspendingReader.ofCursor cursor cache).readFirst .text
    blocking.answers = [(.row, .ok true), (.row, .error (.cursor "lost"))] ∧
      suspending.answers = blocking.answers ∧
      blocking.result.1 = .ok (some "a") ∧
      suspending.result.1 = .error (.cursor "lost") := by
  decide +kernel

end SuspendingReader

end RowMapping
