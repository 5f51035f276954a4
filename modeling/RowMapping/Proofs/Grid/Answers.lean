import RowMapping.Grid.Reader
import RowMapping.Proofs.Grid.Walk

/-!
# Calls and their answers

Which calls a run makes, how they are answered and what comes out does not depend on what is held
at the calls.  So two readers that hold different things can be compared by their calls, and a run
can be watched by holding what is to be seen.

* `Run.forget`: the run that holds nothing, `Run.answers`: its calls with their answers;
* `Walk.skip_mapHeld`, `Walk.pull_mapHeld`, `Walk.openGrid_mapHeld`: another thing is held at the
  same calls.
-/

namespace RowMapping

namespace Run

variable {ρ ρ' α β : Type}

/-- The run with something else held at its calls. -/
def mapHeld (f : ρ → ρ') (r : Run ρ α) : Run ρ' α :=
  ⟨r.calls.map fun c => ⟨c.call, c.answer, f c.held⟩, r.result⟩

/-- The run with nothing held at its calls. -/
def forget (r : Run ρ α) : Run Unit α := r.mapHeld fun _ => ()

/-- The calls of the run and their answers. -/
def answers (r : Run ρ α) : List (Call × Except Error Bool) :=
  r.calls.map fun c => (c.call, c.answer)

variable (f : ρ → ρ')

@[simp] theorem result_forget (r : Run ρ α) : r.forget.result = r.result := rfl

@[simp] theorem mapHeld_pure (x : α) : (pure x : Run ρ α).mapHeld f = pure x := rfl

@[simp] theorem forget_pure (x : α) : (pure x : Run ρ α).forget = pure x := rfl

@[simp] theorem mapHeld_bind (r : Run ρ α) (g : α → Run ρ β) :
    (r >>= g).mapHeld f = r.mapHeld f >>= fun x => (g x).mapHeld f := by
  simp [mapHeld, bind, Run.bind]

@[simp] theorem forget_bind (r : Run ρ α) (g : α → Run ρ β) :
    (r >>= g).forget = r.forget >>= fun x => (g x).forget := mapHeld_bind ..

@[simp] theorem mapHeld_ofCall (call : Call) (answer : Except Error Bool) (held : ρ) :
    (ofCall call answer held).mapHeld f = ofCall call answer (f held) := rfl

@[simp] theorem answers_pure (x : α) : (pure x : Run ρ α).answers = [] := rfl

@[simp] theorem answers_bind (r : Run ρ α) (g : α → Run ρ β) :
    (r >>= g).answers = r.answers ++ (g r.result).answers := List.map_append ..

@[simp] theorem answers_mapHeld (r : Run ρ α) : (r.mapHeld f).answers = r.answers :=
  List.map_map ..

@[simp] theorem answers_forget (r : Run ρ α) : r.forget.answers = r.answers := answers_mapHeld ..

end Run

variable {σ ρ ρ' : Type}

/-- What is held, turned into something else. -/
def Keep.map (f : ρ → ρ') (keep : Keep σ ρ) : Keep σ ρ' :=
  ⟨fun w => f (keep.streaming w), fun w => f (keep.moving w)⟩

namespace Walk

variable [Cursor σ]

variable (f : ρ → ρ')

theorem finish_mapHeld (keep : Walk σ → ρ) (grid : Nat) (w : Walk σ) :
    (finish keep grid w).mapHeld f = finish (fun w => f (keep w)) grid w := by
  unfold finish
  dsimp only
  rw [Run.mapHeld_bind, Run.mapHeld_ofCall]
  cases (Cursor.advanceResultSet w.cursor).1 <;> rfl

theorem skip_mapHeld (keep : Walk σ → ρ) (grid : Nat) (w : Walk σ) :
    (skip keep grid w).mapHeld f = skip (fun w => f (keep w)) grid w := by
  induction w using induction_next with
  | step w ih =>
    rw [skip_eq keep, skip_eq fun w => f (keep w)]
    cases hanswer : (Cursor.advanceRow w.cursor).1 with
    | error e => rfl
    | ok more =>
      cases more with
      | true => simp only [Run.mapHeld_bind, Run.mapHeld_ofCall, ih hanswer]
      | false =>
        simp only [Run.mapHeld_bind, Run.mapHeld_ofCall, Run.mapHeld_pure, finish_mapHeld]

theorem pull_mapHeld {α : Type} (keep : Keep σ ρ) (rowFn? : Option (RowFn α)) (grid : Nat)
    (demand : Demand) (w : Walk σ) :
    (pull keep rowFn? grid demand w).mapHeld f = pull (keep.map f) rowFn? grid demand w := by
  refine pull_induction keep rowFn? grid
    (motive := fun demand w run => run.mapHeld f = pull (keep.map f) rowFn? grid demand w)
    ?met ?failed ?ended ?passed ?fatal ?item demand w
  case met =>
    intro demand w hmet
    rw [pull_of_isMet (keep.map f) _ _ _ hmet]
    rfl
  case failed =>
    intro demand w e hmet hanswer
    rw [pull_of_not_isMet (keep.map f) _ _ _ hmet, hanswer]
    rfl
  case ended =>
    intro demand w hmet hanswer
    rw [pull_of_no_row (keep.map f) _ _ _ hmet hanswer]
    simp only [Run.mapHeld_bind, Run.mapHeld_ofCall, Run.mapHeld_pure, finish_mapHeld]
    rfl
  case passed =>
    intro demand w hmet hanswer hitem ih
    rw [pull_of_not_isMet (keep.map f) _ _ _ hmet, hanswer]
    simp only [Run.mapHeld_bind, Run.mapHeld_ofCall, hitem, ih]
    rfl
  case fatal =>
    intro demand w item hmet hanswer hitem hfatal
    rw [pull_of_not_isMet (keep.map f) _ _ _ hmet, hanswer]
    simp only [Run.mapHeld_bind, Run.mapHeld_ofCall, hitem, hfatal, if_true, Run.mapHeld_pure]
    rfl
  case item =>
    intro demand w item hmet hanswer hitem hfatal ih
    rw [pull_of_not_isMet (keep.map f) _ _ _ hmet, hanswer]
    simp only [Run.mapHeld_bind, Run.mapHeld_ofCall, hitem, hfatal, Bool.false_eq_true, if_false,
      Run.mapHeld_pure, ih]
    rfl

theorem openGrid_mapHeld {κ : Type} [RowTypes κ] [DecidableEq κ] (keep : Walk σ → ρ)
    (cache : Cache κ) (k : κ) (grid : Nat) (w : Walk σ) :
    (openGrid keep cache k grid w).mapHeld f =
      openGrid (fun w => f (keep w)) cache k grid w := by
  cases opening cache k grid w with
  | rejected e _ heq => rw [heq, heq, Run.mapHeld_pure]
  | empty _ heq => rw [heq, heq, Run.mapHeld_pure]
  | found _ d cache' _ heq => rw [heq, heq, Run.mapHeld_pure]
  | skipped _ e heq =>
    rw [heq, heq, Run.mapHeld_bind, skip_mapHeld]
    rfl

/-! ### Forgetting what is held -/

theorem skip_forget (keep : Walk σ → ρ) (grid : Nat) (w : Walk σ) :
    (skip keep grid w).forget = skip GridReader.keep.moving grid w := skip_mapHeld ..

theorem pull_forget {α : Type} (keep : Keep σ ρ) (rowFn? : Option (RowFn α)) (grid : Nat)
    (demand : Demand) (w : Walk σ) :
    (pull keep rowFn? grid demand w).forget = pull GridReader.keep rowFn? grid demand w :=
  pull_mapHeld ..

theorem openGrid_forget {κ : Type} [RowTypes κ] [DecidableEq κ] (keep : Walk σ → ρ)
    (cache : Cache κ) (k : κ) (grid : Nat) (w : Walk σ) :
    (openGrid keep cache k grid w).forget =
      openGrid GridReader.keep.moving cache k grid w := openGrid_mapHeld ..

end Walk

end RowMapping
