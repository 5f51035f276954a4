import RowMapping.Grid.Reader
import RowMapping.Proofs.Grid.Walk
import RowMapping.Proofs.Outcome

/-!
# Requests to a grid reader

All operations of a grid reader that read are alike: they ask for a grid, pull its items as far as
they need them, skip the rest, and make their answer of the items (`Request.perform_eq`).  Whether
they may begin is up to the position alone: `Request.admitted` gives the grid or the reason why not.
-/

namespace RowMapping

/-- What may be asked of a grid reader. -/
inductive Request (κ : Type) where
  /-- All objects of the next grid. -/
  | read (type : κ)
  /-- Items of the next grid, as many as pulled from a stream. -/
  | stream (type : κ) (limit : Option Nat)
  /-- Items of a grid, which may be read completely beforehand. -/
  | indexed (type : κ) (grid : Nat) (buffered : Bool) (limit : Option Nat)
  /-- The first object of the next grid. -/
  | first (type : κ)
  /-- The only object of the next grid. -/
  | single (type : κ)

/-- An operation on a grid reader. -/
inductive ReaderOp (κ : Type) where
  /-- A request. -/
  | request (q : Request κ)
  /-- Nothing more is to be read. -/
  | dispose

namespace Request

variable {κ : Type}

/-- The row type that is asked for. -/
def type : Request κ → κ
  | .read k | .stream k _ | .indexed k _ _ _ | .first k | .single k => k

/-- How far the items of the grid are needed. -/
def demand : Request κ → Demand
  | .read _ => .allGood
  | .stream _ limit => ⟨limit, false⟩
  | .indexed _ _ buffered limit => if buffered then .allGood else ⟨limit, false⟩
  | .first _ => .atMost 1
  | .single _ => ⟨some 2, true⟩

/-- The grid that is asked for. -/
def target (q : Request κ) (p : Position) : Except Error Nat :=
  match q with
  | .indexed _ grid _ _ => .ok grid
  | _ => p.nextGrid

/-- The grid that is asked for, if reading it may begin. -/
def admitted (q : Request κ) (p : Position) : Except Error Nat := do
  let grid ← q.target p
  let _ ← p.begin grid
  return grid

theorem admitted_eq_ok {q : Request κ} {p : Position} {grid : Nat} (h : q.admitted p = .ok grid) :
    p = .active grid ∧ q.target p = .ok grid := by
  obtain ⟨grid', htarget, h⟩ := bind_eq_ok.1 h
  obtain ⟨p', hbegin, heq⟩ := bind_eq_ok.1 h
  cases heq
  exact ⟨(Position.begin_eq_ok hbegin).1, htarget⟩

end Request

variable {κ : Type} [RowTypes κ]

theorem GridReader.pullNext_bind {σ β : Type} [Cursor σ] [DecidableEq κ] (r : GridReader σ κ)
    (k : κ) (demand : Demand) (f : Nat → List (Except Error (Object k)) → Except Error β) :
    (do
      let (result, r) ← r.pullNext k demand
      return (result.bind fun e => f e.1 e.2.items, r)) =
      match r.walk.position.nextGrid with
      | .error e => pure (.error e, r)
      | .ok grid => do
        let (result, r) ← r.pullGrid k grid demand
        return (result.bind fun p => f grid p.items, r) := by
  unfold pullNext
  cases r.walk.position.nextGrid with
  | error e => rfl
  | ok grid =>
    simp only [bind_assoc, pure_bind]
    refine bind_congr fun ⟨result, r⟩ => ?_
    cases result <;> rfl

namespace Request

/-- What is answered. -/
def Answer : Request κ → Type
  | .read k => List (Object k)
  | .stream k _ | .indexed k _ _ _ => Streamed (Object k)
  | .first k => Option (Object k)
  | .single k => Object k

/-- The answer that is made of the items. -/
def answer : (q : Request κ) → Nat → List (Except Error (Object q.type)) → Except Error q.Answer
  | .read _, _, items => items.mapM id
  | .stream _ _, grid, items => .ok ⟨grid, items⟩
  | .indexed _ _ buffered limit, grid, items =>
    if buffered then
      (items.mapM id).map fun xs => ⟨grid, (xs.take (limit.getD xs.length)).map .ok⟩
    else .ok ⟨grid, items⟩
  | .first _, _, items => firstOf items
  | .single _, _, items => singleOf items

variable {σ : Type} [Cursor σ] [DecidableEq κ]

/-- What a grid reader does on request. -/
def perform (q : Request κ) (r : GridReader σ κ) : GridReader.Step σ κ q.Answer :=
  match q with
  | .read k => r.read k
  | .stream k limit => r.stream k limit
  | .indexed k grid buffered limit => r.readGrid k grid buffered limit
  | .first k => r.readFirst k
  | .single k => r.readSingle k

/-- Every request pulls from its grid and makes its answer of the items. -/
theorem perform_eq (q : Request κ) (r : GridReader σ κ) :
    q.perform r =
      match q.target r.walk.position with
      | .error e => pure (.error e, r)
      | .ok grid => do
        let (result, r) ← r.pullGrid q.type grid q.demand
        return (result.bind fun p => q.answer grid p.items, r) := by
  -- only the request for a grid by its number does not ask for the next one
  cases q with
  | read k => exact r.pullNext_bind k .allGood fun _ items => items.mapM id
  | stream k limit =>
    have hnext := r.pullNext_bind (β := Streamed (Object k)) k ⟨limit, false⟩
      fun grid items => .ok ⟨grid, items⟩
    refine Eq.trans ?_ hnext
    refine bind_congr fun ⟨result, r⟩ => ?_
    cases result <;> rfl
  | indexed k grid buffered limit =>
    cases buffered with
    | true =>
      refine bind_congr fun ⟨result, r⟩ => ?_
      cases result <;> rfl
    | false =>
      refine bind_congr fun ⟨result, r⟩ => ?_
      cases result <;> rfl
  | first k => exact r.pullNext_bind k (.atMost 1) fun _ items => firstOf items
  | single k => exact r.pullNext_bind k ⟨some 2, true⟩ fun _ items => singleOf items

theorem perform_of_admitted_eq_error {q : Request κ} {r : GridReader σ κ} {e : Error}
    (h : q.admitted r.walk.position = .error e) : q.perform r = pure (.error e, r) := by
  rw [perform_eq]
  unfold admitted at h
  cases htarget : q.target r.walk.position with
  | error e' =>
    rw [htarget] at h
    cases h
    rfl
  | ok grid =>
    rw [htarget] at h
    cases hbegin : r.walk.position.begin grid with
    | error e' =>
      simp only [hbegin, bind, Except.bind] at h
      cases h
      simp only [GridReader.pullGrid, Walk.openGrid, hbegin, pure_bind]
      rfl
    | ok p =>
      simp only [hbegin, bind, Except.bind] at h
      cases h

theorem perform_of_disposed (q : Request κ) {r : GridReader σ κ} (h : r.walk.position = .disposed) :
    q.perform r = pure (.error .disposed, r) := by
  refine perform_of_admitted_eq_error ?_
  rw [h]
  cases q <;> rfl

end Request

namespace ReaderOp

variable {σ : Type} [Cursor σ] [DecidableEq κ]

/-- The reader after an operation. -/
def after (r : GridReader σ κ) : ReaderOp κ → GridReader σ κ
  | request q => (q.perform r).result.2
  | dispose => r.dispose

/-- The reader after operations. -/
def run (r : GridReader σ κ) (ops : List (ReaderOp κ)) : GridReader σ κ := ops.foldl after r

/-- The operation is a request that may begin. -/
def isAccepted (r : GridReader σ κ) : ReaderOp κ → Bool
  | request q => (q.admitted r.walk.position).toBool
  | dispose => false

/-- The number of requests among operations that may begin at their time. -/
def accepted (r : GridReader σ κ) : List (ReaderOp κ) → Nat
  | [] => 0
  | op :: ops => (if op.isAccepted r then 1 else 0) + accepted (op.after r) ops

variable {r : GridReader σ κ}

theorem run_concat (ops : List (ReaderOp κ)) (op : ReaderOp κ) :
    run r (ops ++ [op]) = op.after (run r ops) := by
  simp [run]

theorem accepted_concat (ops : List (ReaderOp κ)) (op : ReaderOp κ) :
    accepted r (ops ++ [op]) = accepted r ops + if op.isAccepted (run r ops) then 1 else 0 := by
  induction ops generalizing r with
  | nil =>
    simp only [List.nil_append, accepted, Nat.add_zero, Nat.zero_add]
    rfl
  | cons first ops ih =>
    simp only [List.cons_append, accepted, ih, Nat.add_assoc]
    rfl

end ReaderOp

end RowMapping
