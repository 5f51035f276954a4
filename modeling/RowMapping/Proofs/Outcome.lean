import Mathlib.Data.List.Forall2

/-!
# Outcomes that correspond

Two computations that may fail correspond when both fail with the same error or both give results
that are related.  This is how two runs of one function on different inputs are compared step by
step.

* `SameOutcome.bind`, `SameOutcome.mapM`: what is done one after the other corresponds if each step
  does;
* `SameOutcome.eq`: results that are equal make equal outcomes.

One run that gives a result is taken apart by `bind_eq_ok`, `map_eq_ok`, `mapError_eq_ok` and
`mapM_eq_ok`, and one that fails by `map_eq_error`; `exists_eq_ok` names the result of a run that is
known to give one.  `errorOf?` is the error of a run: that of its first step that fails.
-/

namespace RowMapping

section Results

variable {ε α β : Type} {a : Except ε α} {y : β}

theorem bind_eq_ok {f : α → Except ε β} : a >>= f = .ok y ↔ ∃ x, a = .ok x ∧ f x = .ok y := by
  cases a with
  | error e => exact ⟨(nomatch ·), fun ⟨_, h, _⟩ => nomatch h⟩
  | ok x => exact ⟨fun h => ⟨x, rfl, h⟩, fun ⟨_, hx, h⟩ => Except.ok.inj hx ▸ h⟩

theorem map_eq_ok {f : α → β} : a.map f = .ok y ↔ ∃ x, a = .ok x ∧ f x = y := by
  cases a with
  | error e => exact ⟨(nomatch ·), fun ⟨_, h, _⟩ => nomatch h⟩
  | ok x => exact ⟨fun h => ⟨x, rfl, Except.ok.inj h⟩, fun ⟨_, hx, h⟩ => by cases hx; rw [← h]; rfl⟩

theorem map_eq_error {f : α → β} {e : ε} : a.map f = .error e ↔ a = .error e := by
  cases a with
  | error e' => exact ⟨fun h => by cases h; rfl, fun h => by cases h; rfl⟩
  | ok x => exact ⟨(nomatch ·), (nomatch ·)⟩

theorem mapError_eq_ok {ε' : Type} {f : ε → ε'} {x : α} : a.mapError f = .ok x ↔ a = .ok x := by
  cases a with
  | error e => exact ⟨(nomatch ·), (nomatch ·)⟩
  | ok y => exact ⟨fun h => by cases h; rfl, fun h => by cases h; rfl⟩

theorem toOption_eq_some {x : α} : a.toOption = some x ↔ a = .ok x := by
  cases a with
  | error e => exact ⟨(nomatch ·), (nomatch ·)⟩
  | ok y => exact ⟨fun h => by cases h; rfl, fun h => by cases h; rfl⟩

theorem exists_eq_ok (h : a.toOption.isSome = true) : ∃ x, a = .ok x := by
  cases a with
  | error e => cases h
  | ok x => exact ⟨x, rfl⟩

variable {f : α → Except ε β} {xs : List α}

theorem mapM_eq_ok {ys : List β} (h : xs.mapM f = .ok ys) :
    (∀ x ∈ xs, ∃ y, f x = .ok y) ∧ ys = xs.filterMap fun x => (f x).toOption := by
  induction xs generalizing ys with
  | nil =>
    cases h
    exact ⟨by simp, rfl⟩
  | cons x xs ih =>
    rw [List.mapM_cons] at h
    obtain ⟨y, hy, h⟩ := bind_eq_ok.1 h
    obtain ⟨ys, hys, h⟩ := bind_eq_ok.1 h
    cases h
    obtain ⟨hall, heq⟩ := ih hys
    refine ⟨List.forall_mem_cons.2 ⟨⟨y, hy⟩, hall⟩, ?_⟩
    rw [List.filterMap_cons_some (b := y) (by rw [hy]; rfl), ← heq]

theorem forall₂_of_mapM_eq_ok {ys : List β} (h : xs.mapM f = .ok ys) :
    List.Forall₂ (fun x y => f x = .ok y) xs ys := by
  induction xs generalizing ys with
  | nil =>
    cases h
    exact .nil
  | cons x xs ih =>
    rw [List.mapM_cons] at h
    obtain ⟨y, hy, h⟩ := bind_eq_ok.1 h
    obtain ⟨ys, hys, h⟩ := bind_eq_ok.1 h
    cases h
    exact .cons hy (ih hys)

theorem exists_mapM_eq_ok (h : ∀ x ∈ xs, ∃ y, f x = .ok y) : ∃ ys, xs.mapM f = .ok ys := by
  induction xs with
  | nil => exact ⟨[], rfl⟩
  | cons x xs ih =>
    obtain ⟨⟨y, hy⟩, htail⟩ := List.forall_mem_cons.1 h
    obtain ⟨ys, hys⟩ := ih htail
    refine ⟨y :: ys, ?_⟩
    rw [List.mapM_cons, hy, hys]
    rfl

/-- The error with which a run fails. -/
def errorOf? : Except ε α → Option ε
  | .error e => some e
  | .ok _ => none

theorem errorOf?_eq_some {e : ε} : errorOf? a = some e ↔ a = .error e := by
  cases a with
  | error e' => exact ⟨fun h => by cases h; rfl, fun h => by cases h; rfl⟩
  | ok x => exact ⟨(nomatch ·), (nomatch ·)⟩

theorem errorOf?_eq_none : errorOf? a = none ↔ ∃ x, a = .ok x := by
  cases a with
  | error e => exact ⟨(nomatch ·), fun ⟨_, h⟩ => nomatch h⟩
  | ok x => exact ⟨fun _ => ⟨x, rfl⟩, fun _ => rfl⟩

/-- If the later step fails in one way whatever the first one gives, the first error is that of the
first step, or else of the later one. -/
theorem errorOf?_bind {f : α → Except ε β} {later : Option ε} (h : ∀ x, errorOf? (f x) = later) :
    errorOf? (a >>= f) = (errorOf? a).or later := by
  cases a with
  | error e => rfl
  | ok x => exact h x

theorem errorOf?_bind_ok (f : α → β) :
    errorOf? (a >>= fun x => (.ok (f x) : Except ε β)) = errorOf? a := by
  cases a <;> rfl

theorem errorOf?_map (f : α → β) : errorOf? (a.map f) = errorOf? a := by
  cases a <;> rfl

end Results

/-- The same error, or results that are related. -/
inductive SameOutcome {ε α β : Type} (R : α → β → Prop) : Except ε α → Except ε β → Prop where
  | error (e : ε) : SameOutcome R (.error e) (.error e)
  | ok {x : α} {y : β} (h : R x y) : SameOutcome R (.ok x) (.ok y)

namespace SameOutcome

variable {ε α β α' β' : Type} {R : α → β → Prop} {S : α' → β' → Prop}

theorem bind {a : Except ε α} {b : Except ε β} {f : α → Except ε α'} {g : β → Except ε β'}
    (h : SameOutcome R a b) (hfg : ∀ x y, R x y → SameOutcome S (f x) (g y)) :
    SameOutcome S (a >>= f) (b >>= g) := by
  cases h with
  | error e => exact .error e
  | ok h => exact hfg _ _ h

theorem map {a : Except ε α} {b : Except ε β} {f : α → α'} {g : β → β'}
    (h : SameOutcome R a b) (hfg : ∀ x y, R x y → S (f x) (g y)) :
    SameOutcome S (a.map f) (b.map g) := by
  cases h with
  | error e => exact .error e
  | ok h => exact .ok (hfg _ _ h)

theorem map_eq {γ : Type} {a : Except ε α} {b : Except ε β} {f : α → γ} {g : β → γ}
    (h : SameOutcome R a b) (hfg : ∀ x y, R x y → f x = g y) : a.map f = b.map g := by
  cases h with
  | error e => rfl
  | ok h => exact congrArg Except.ok (hfg _ _ h)

theorem eq {a b : Except ε α} (h : SameOutcome Eq a b) : a = b := by
  cases h with
  | error e => rfl
  | ok h => rw [h]

theorem refl {R : α → α → Prop} (h : ∀ x, R x x) (a : Except ε α) : SameOutcome R a a := by
  cases a with
  | error e => exact .error e
  | ok x => exact .ok (h x)

theorem mono {R' : α → β → Prop} {a : Except ε α} {b : Except ε β} (h : SameOutcome R a b)
    (hR : ∀ x y, R x y → R' x y) : SameOutcome R' a b := by
  cases h with
  | error e => exact .error e
  | ok h => exact .ok (hR _ _ h)

theorem mapM {f : α → Except ε α'} {g : β → Except ε β'}
    (hfg : ∀ x y, R x y → SameOutcome S (f x) (g y)) {xs : List α} {ys : List β}
    (h : List.Forall₂ R xs ys) : SameOutcome (List.Forall₂ S) (xs.mapM f) (ys.mapM g) := by
  induction h with
  | nil => exact .ok .nil
  | cons hxy _ ih =>
    rw [List.mapM_cons, List.mapM_cons]
    exact (hfg _ _ hxy).bind fun _ _ hS => ih.bind fun _ _ hSs => .ok (.cons hS hSs)

theorem mapM_same {f : α → Except ε α'} {g : α → Except ε β'} {xs : List α}
    (hfg : ∀ x ∈ xs, SameOutcome S (f x) (g x)) :
    SameOutcome (List.Forall₂ S) (xs.mapM f) (xs.mapM g) := by
  refine mapM (R := fun x y => x = y ∧ x ∈ xs) ?_ (List.forall₂_same.2 fun x hx => ⟨rfl, hx⟩)
  rintro x _ ⟨rfl, hx⟩
  exact hfg x hx

end SameOutcome

end RowMapping
