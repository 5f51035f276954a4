import RowMapping.Grid.Suspending
import RowMapping.Proofs.Cache.History
import RowMapping.Proofs.Cursor.Scripted
import RowMapping.Proofs.Grid.Answers
import RowMapping.Proofs.Grid.Request

/-!
# Suspending readers agree with the others

A suspending reader may leave a grid to be skipped by its next operation, which settles it first.
So it is compared with a reader that never leaves anything behind at the place where it stands
after settling (`SuspendingReader.settled`): answering a request and then settling is the same as
settling and then answering like the other reader (`Request.performDropping_settle`).  From this
it follows that both give the same answers, whatever the cursor does
(`ReaderOp.suspending_answers_eq`).
-/

namespace RowMapping

theorem Run.bind_congr_result {ρ α β : Type} {r : Run ρ α} {f g : α → Run ρ β}
    (h : f r.result = g r.result) : r >>= f = r >>= g := by
  simp only [bind, Run.bind, h]

variable {σ κ : Type} [RowTypes κ]

/-- The suspending reader in the same place, with nothing left behind. -/
def GridReader.suspending (r : GridReader σ κ) : SuspendingReader σ κ := ⟨r.walk, r.cache, none⟩

variable [Cursor σ]

namespace SuspendingReader

section Settled

variable (s : SuspendingReader σ κ)

/-- A reader in the place where this one is when it has settled. -/
def settled : GridReader σ κ := ⟨s.settle.result.walk, s.settle.result.cache⟩

theorem result_settle : s.settle.result = s.settled.suspending := by
  obtain ⟨walk, cache, abandoned⟩ := s
  cases abandoned <;> rfl

theorem settled_cache : s.settled.cache = s.cache := by
  obtain ⟨walk, cache, abandoned⟩ := s
  cases abandoned <;> rfl

theorem release_settle {α : Type} (cache : Cache κ) (grid : Nat) (p : Pulled σ α) :
    (release cache grid p).settle.forget =
      if p.ended then pure ⟨p.walk, cache, none⟩
      else do return ⟨← p.walk.skip GridReader.keep.moving grid, cache, none⟩ := by
  unfold release settle
  cases p.ended with
  | true => rfl
  | false =>
    simp only [Bool.false_eq_true, if_false, Run.forget_bind, Walk.skip_forget]
    rfl

end Settled

variable [DecidableEq κ] (s : SuspendingReader σ κ)

/-- An answer made of the items of a stream, which is then given up. -/
def giveUp {β : Type} {k : κ} (f : List (Except Error (Object k)) → Except Error β) :
    Except (Error × SuspendingReader σ κ) (Stream σ k) → Except Error β × SuspendingReader σ κ
  | .error (e, s) => (.error e, s)
  | .ok stream => (f stream.pulled.items, stream.drop)

section Continuations

variable {β : Type} {k : κ} {f : Nat → List (Except Error (Object k)) → Except Error β}
  {next : Except (Error × SuspendingReader σ κ) (Stream σ k) → Step σ κ β}

theorem pullGrid_bind (grid : Nat) (demand : Demand)
    (herror : ∀ e s, next (.error (e, s)) = pure (.error e, s))
    (hok : ∀ stream, next (.ok stream) = pure (f stream.grid stream.pulled.items, stream.drop)) :
    s.pullGrid k grid demand >>= next = do return giveUp (f grid) (← s.pullGrid k grid demand) := by
  unfold pullGrid
  simp only [bind_assoc]
  refine bind_congr fun opened => ?_
  cases opened.rowFn? with
  | error e => exact herror _ _
  | ok rowFn? =>
    simp only [bind_assoc]
    exact bind_congr fun pulled => hok _

theorem pullNext_bind (demand : Demand)
    (herror : ∀ e s, next (.error (e, s)) = pure (.error e, s))
    (hok : ∀ stream, next (.ok stream) = pure (f stream.grid stream.pulled.items, stream.drop)) :
    s.pullNext k demand >>= next = do
      let s ← s.settle
      match s.walk.position.nextGrid with
      | .error e => return (.error e, s)
      | .ok grid => return giveUp (f grid) (← s.pullGrid k grid demand) := by
  unfold pullNext
  simp only [bind_assoc]
  refine bind_congr fun s => ?_
  cases s.walk.position.nextGrid with
  | error e => exact herror _ _
  | ok grid => exact s.pullGrid_bind grid demand herror hok

end Continuations

/-- Giving a stream up and settling does to the cursor what the other reader does when it skips the
rest of a grid at once. -/
theorem pullGrid_settle {β : Type} (r : GridReader σ κ) (k : κ) (grid : Nat) (demand : Demand)
    (f : List (Except Error (Object k)) → Except Error β) :
    (do
      let (a, s) := giveUp f (← r.suspending.pullGrid k grid demand)
      return (a, ← s.settle)).forget =
      (do
        let (result, r) ← r.pullGrid k grid demand
        return (result.bind fun p => f p.items, r.suspending)) := by
  unfold pullGrid GridReader.pullGrid
  simp only [bind_assoc, Run.forget_bind, Walk.openGrid_forget]
  refine bind_congr fun opened => ?_
  cases opened.rowFn? with
  | error e => rfl
  | ok rowFn? =>
    simp only [bind_assoc, Run.forget_bind, Walk.pull_forget, Run.forget_pure, pure_bind, giveUp,
      Stream.drop, release_settle]
    refine bind_congr fun pulled => ?_
    cases pulled.ended <;> rfl

end SuspendingReader

namespace Request

/-- The request is for the first object of a grid only. -/
def isFirst {κ : Type} : Request κ → Bool
  | .first _ => true
  | _ => false

variable [DecidableEq κ]

/-- What a suspending reader does on request.  Streams are given up after the items are pulled. -/
def performSuspending (q : Request κ) (s : SuspendingReader σ κ) :
    SuspendingReader.Step σ κ q.Answer :=
  match q with
  | .read k => s.read k
  | .stream k limit => do
    let (result, s) ← s.stream k limit .drop
    return (result.map (·.1), s)
  | .indexed k grid buffered limit => do
    let (result, s) ← s.readGrid k grid buffered limit .drop
    return (result.map (·.1), s)
  | .first k => s.readFirst k
  | .single k => s.readSingle k

/-- The request with an answer that is made of the items of its grid, and with the stream that they
come from given up. -/
def performDropping (q : Request κ) (s : SuspendingReader σ κ) :
    SuspendingReader.Step σ κ q.Answer := do
  let s ← s.settle
  match q.target s.walk.position with
  | .error e => return (.error e, s)
  | .ok grid =>
    return SuspendingReader.giveUp (q.answer grid) (← s.pullGrid q.type grid q.demand)

/-- All requests but those for the first object are answered in this way. -/
theorem performSuspending_eq {q : Request κ} (hq : q.isFirst = false) (s : SuspendingReader σ κ) :
    q.performSuspending s = q.performDropping s := by
  -- only the request for a grid by its number does not ask for the next one
  cases q with
  | read k => exact s.pullNext_bind .allGood (fun _ _ => rfl) fun _ => rfl
  | stream k limit =>
    simp only [performSuspending, SuspendingReader.stream, bind_assoc]
    exact s.pullNext_bind (f := (stream k limit).answer) ⟨limit, false⟩ (fun _ _ => rfl)
      fun _ => rfl
  | indexed k grid buffered limit =>
    simp only [performSuspending, SuspendingReader.readGrid, bind_assoc]
    refine bind_congr fun s => ?_
    cases buffered with
    | true =>
      simp only [if_true, bind_assoc]
      refine s.pullGrid_bind (k := k) (f := fun _ => (indexed k grid true limit).answer grid) grid
        .allGood (fun _ _ => rfl) fun stream => ?_
      change _ = pure (stream.pulled.objects.map fun xs =>
        (⟨grid, (xs.take (limit.getD xs.length)).map .ok⟩ : Streamed (Object k)), stream.drop)
      dsimp only
      cases stream.pulled.objects <;> rfl
    | false =>
      simp only [Bool.false_eq_true, if_false, bind_assoc]
      exact s.pullGrid_bind (f := (indexed k grid false limit).answer) grid ⟨limit, false⟩
        (fun _ _ => rfl) fun _ => rfl
  | first k => cases hq
  | single k => exact s.pullNext_bind ⟨some 2, true⟩ (fun _ _ => rfl) fun _ => rfl

/-- **Settling commutes with requests.**  A request whose stream is given up, and settling
afterwards, is settling and then the request to a reader that leaves nothing behind: the calls,
their answers and what comes out are the same. -/
theorem performDropping_settle (q : Request κ) (s : SuspendingReader σ κ) :
    (do
      let (a, s) ← q.performDropping s
      return (a, ← s.settle)).forget =
      (do
        let _ ← s.settle.forget
        let (a, r) ← q.perform s.settled
        return (a, r.suspending)) := by
  rw [performDropping, perform_eq]
  simp only [bind_assoc, Run.forget_bind]
  refine Run.bind_congr_result ?_
  rw [Run.result_forget, s.result_settle]
  change Run.forget (match q.target s.settled.walk.position with
    | .error e => _
    | .ok grid => _) >>= _ = _
  cases q.target s.settled.walk.position with
  | error e => rfl
  | ok grid =>
    have hgrid := SuspendingReader.pullGrid_settle s.settled q.type grid q.demand (q.answer grid)
    simp only [bind_assoc, pure_bind, Run.forget_bind, Run.forget_pure] at hgrid ⊢
    exact hgrid

variable {q : Request κ} {s : SuspendingReader σ κ}

theorem result_performSuspending (hq : q.isFirst = false) :
    (q.performSuspending s).result.1 = (q.perform s.settled).result.1 :=
  performSuspending_eq hq s ▸ congrArg (·.result.1) (performDropping_settle q s)

theorem settled_performSuspending (hq : q.isFirst = false) :
    (q.performSuspending s).result.2.settled = (q.perform s.settled).result.2 :=
  performSuspending_eq hq s ▸ congrArg
    (fun run => (⟨run.result.2.walk, run.result.2.cache⟩ : GridReader σ κ))
    (performDropping_settle q s)

end Request

namespace ReaderOp

/-- The operation is a request for the first object of a grid only. -/
def isFirst {κ : Type} : ReaderOp κ → Bool
  | request q => q.isFirst
  | dispose => false

/-- When it has settled, the suspending reader is as the other one, or both have nothing left to
read. -/
inductive Agrees (r : GridReader σ κ) (s : SuspendingReader σ κ) : Prop where
  | settled (h : s.settled = r)
  | disposed (hs : s.settled.walk.position = .disposed) (hr : r.walk.position = .disposed)
    (hcache : s.settled.cache = r.cache)

variable {r : GridReader σ κ} {s : SuspendingReader σ κ}

theorem Agrees.dispose (h : Agrees r s) : Agrees r.dispose s.dispose := by
  refine .disposed rfl rfl ?_
  change s.cache = r.cache
  rw [← s.settled_cache]
  cases h with
  | settled h => rw [h]
  | disposed hs hr hcache => exact hcache

variable [DecidableEq κ]

theorem Agrees.request (h : Agrees r s) {q : Request κ} (hq : q.isFirst = false) :
    (q.performSuspending s).result.1 = (q.perform r).result.1 ∧
      Agrees (q.perform r).result.2 (q.performSuspending s).result.2 := by
  have hresult := Request.result_performSuspending (s := s) hq
  have hsettled := Request.settled_performSuspending (s := s) hq
  cases h with
  | settled h =>
    rw [h] at hresult hsettled
    exact ⟨hresult, .settled hsettled⟩
  | disposed hs hr hcache =>
    rw [q.perform_of_disposed hs] at hresult hsettled
    rw [q.perform_of_disposed hr]
    refine ⟨hresult, .disposed ?_ hr ?_⟩
    · rw [hsettled]
      exact hs
    · rw [hsettled]
      exact hcache

/-- What is answered to the requests among operations. -/
def results (r : GridReader σ κ) :
    List (ReaderOp κ) → List ((q : Request κ) × Except Error q.Answer)
  | [] => []
  | request q :: ops => ⟨q, (q.perform r).result.1⟩ :: results (q.perform r).result.2 ops
  | dispose :: ops => results r.dispose ops

/-- What a suspending reader answers to the requests among operations. -/
def suspendingResults (s : SuspendingReader σ κ) :
    List (ReaderOp κ) → List ((q : Request κ) × Except Error q.Answer)
  | [] => []
  | request q :: ops =>
    ⟨q, (q.performSuspending s).result.1⟩ ::
      suspendingResults (q.performSuspending s).result.2 ops
  | dispose :: ops => suspendingResults s.dispose ops

theorem Agrees.results_eq (h : Agrees r s) {ops : List (ReaderOp κ)}
    (hops : ∀ op ∈ ops, op.isFirst = false) : suspendingResults s ops = results r ops := by
  induction ops generalizing r s with
  | nil => rfl
  | cons op ops ih =>
    obtain ⟨hop, hrest⟩ := List.forall_mem_cons.1 hops
    cases op with
    | request q =>
      obtain ⟨hresult, h⟩ := h.request hop
      rw [suspendingResults, results, hresult, ih h hrest]
    | dispose => exact ih h.dispose hrest

/-- **A suspending reader answers like the other one.**  Whatever the cursor answers and shows,
errors included, two readers of it with one cache give the same answers to all requests among any
operations, row for row and error for error, although the suspending reader leaves a stream that was
given up to be skipped by its next operation.  The request for the first object of a grid, which
skips the rest in another way, is left out. -/
theorem suspending_answers_eq (cursor : σ) (cache : Cache κ) (ops : List (ReaderOp κ))
    (hops : ∀ op ∈ ops, op.isFirst = false) :
    suspendingResults (.ofCursor cursor cache) ops = results (.ofCursor cursor cache) ops :=
  Agrees.results_eq (.settled rfl) hops

theorem results_of_disposed {r : GridReader σ κ} (h : r.walk.position = .disposed) (q : Request κ)
    (ops : List (ReaderOp κ)) :
    results r (.request q :: ops) = ⟨q, .error .disposed⟩ :: results r ops := by
  rw [results, q.perform_of_disposed h]
  rfl

deriving instance DecidableEq for Streamed

instance : DecidableEq (Object ScalarType.text) := inferInstanceAs (DecidableEq String)

instance : DecidableEq (Request.stream ScalarType.text (some 1)).Answer :=
  inferInstanceAs (DecidableEq (Streamed (Object ScalarType.text)))

/-- A stream is given up whose grid cannot be skipped to the end, and then a grid is asked for out
of order. -/
theorem suspending_answers_eq_of_lost_cursor :
    let cursor : ScriptedCursor :=
      ⟨[.ok true, .ok true, .error (.cursor "lost")], [],
        fun _ _ => ⟨1, fun _ => "word", fun _ => .text, fun _ => .ok (.text "a")⟩⟩
    let cache : Cache ScalarType := .fresh .hashed .empty
    let ops : List (ReaderOp ScalarType) :=
      [.request (.stream .text (some 1)), .request (.indexed .text 3 true none),
        .request (.read .text)]
    (∀ op ∈ ops, op.isFirst = false) ∧
      suspendingResults (.ofCursor cursor cache) ops = results (.ofCursor cursor cache) ops ∧
      results (.ofCursor cursor cache) ops =
        [⟨.stream .text (some 1), .ok ⟨0, [.ok "a"]⟩⟩,
          ⟨.indexed .text 3 true none, .error .disposed⟩, ⟨.read .text, .error .disposed⟩] := by
  intro cursor cache ops
  have hops : ∀ op ∈ ops, op.isFirst = false := by simp [ops, isFirst, Request.isFirst]
  have hanswer : ((Request.stream ScalarType.text (some 1)).perform
      (.ofCursor cursor cache)).result.1 = .ok ⟨0, [.ok "a"]⟩ := by
    decide +kernel
  have hposition : ((Request.stream ScalarType.text (some 1)).perform
      (.ofCursor cursor cache)).result.2.walk.position = .disposed := by
    decide +kernel
  refine ⟨hops, suspending_answers_eq cursor cache ops hops, ?_⟩
  rw [results, hanswer, results_of_disposed hposition, results_of_disposed hposition]
  rfl

end ReaderOp

end RowMapping
