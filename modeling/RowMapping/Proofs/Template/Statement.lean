import Mathlib.Data.List.Forall2
import RowMapping.Proofs.Outcome
import RowMapping.Template.Rendering

/-!
# What a statement is made of

A statement is put together piece by piece.  When rendering succeeds, every piece of the template
has been resolved to a part, and the text and the bindings of the statement can be said without the
run that made them.

* `Template.resolves_of_resolve`: which part a piece is resolved to;
* `Template.toList_sql`: the text of a statement is what is written for the pieces, one after the
  other;
* `Part.allBindings_eq_flatMap`: parts bind where their name comes for the first time.
-/

namespace RowMapping

namespace Template

variable {p : Params} {o : Options} {t : Template} {r : Rendered}

/-! ### Resolved pieces -/

/-- A piece is resolved to a part.  Which parameter a positional placeholder takes is left open. -/
inductive Resolves (p : Params) : Piece → Part → Prop where
  | positional (name : String) (v : Value) : Resolves p .positional (.positional name v)
  | literal {name : List Char} {v : Value} {s : String}
    (hv : p.get? (String.ofList name) = some (.scalar v))
    (hs : literalText (String.ofList name) v = .ok s) :
    Resolves p (.literal name) (.plain s.toList)
  | named (marker : Char) (name : List Char) (afterIn : Bool) :
    Resolves p (.named marker name afterIn) (resolveNamed p marker name afterIn)
  | kept {piece : Piece} (h : Token.kindAndName? piece = none) :
    Resolves p piece (.plain piece.text)

theorem resolves_of_resolveLiteral {name : List Char} {part : Part}
    (h : resolveLiteral p (String.ofList name) = .ok part) : Resolves p (.literal name) part := by
  unfold resolveLiteral at h
  split at h
  · rename_i v hv
    obtain ⟨s, hs, rfl⟩ := map_eq_ok.1 h
    exact .literal hv hs
  · cases h
  · cases h

theorem resolves_of_resolvePositional {entry : String × ParamValue} {part : Part}
    (h : resolvePositional entry = .ok part) : Resolves p .positional part := by
  unfold resolvePositional at h
  split at h
  · cases h
    exact .positional _ _
  · cases h

theorem resolves_of_resolve {left : List (String × ParamValue)} {ps : List Piece}
    {parts : List Part} (h : resolve p left ps = .ok parts) :
    List.Forall₂ (Resolves p) ps parts := by
  induction ps generalizing left parts with
  | nil => cases h; exact .nil
  | cons piece ps ih =>
    -- a piece that is resolved without parameters
    have hkept (hkind : Token.kindAndName? piece = none)
        (h : (resolve p left ps >>= fun parts => .ok (.plain piece.text :: parts)) = .ok parts) :
        List.Forall₂ (Resolves p) (piece :: ps) parts := by
      obtain ⟨parts, hparts, h⟩ := bind_eq_ok.1 h
      cases h
      exact .cons (.kept hkind) (ih hparts)
    cases piece with
    | positional =>
      cases left with
      | nil => cases h
      | cons entry left =>
        obtain ⟨part, hpart, h⟩ := bind_eq_ok.1 h
        obtain ⟨parts, hparts, h⟩ := bind_eq_ok.1 h
        cases h
        exact .cons (resolves_of_resolvePositional hpart) (ih hparts)
    | literal name =>
      obtain ⟨part, hpart, h⟩ := bind_eq_ok.1 h
      obtain ⟨parts, hparts, h⟩ := bind_eq_ok.1 h
      cases h
      exact .cons (resolves_of_resolveLiteral hpart) (ih hparts)
    | named marker name afterIn =>
      obtain ⟨parts, hparts, h⟩ := bind_eq_ok.1 h
      cases h
      exact .cons (.named marker name afterIn) (ih hparts)
    | code c => exact hkept rfl h
    | quoted text => exact hkept rfl h
    | comment text => exact hkept rfl h
    | system marker name => exact hkept rfl h

/-- A statement of kind text comes from parts whose placeholders are of one style. -/
theorem exists_parts_of_render (hkind : t.kind = .text) (h : t.render p o = .ok r) :
    ∃ parts, t.checkStyle p = .ok () ∧ resolve p p.entries t.pieces = .ok parts ∧
      r = ⟨String.ofList (parts.flatMap (Part.text o)), Part.allBindings o [] parts, .text⟩ := by
  rw [render, if_pos hkind] at h
  obtain ⟨_, hstyle, h⟩ := bind_eq_ok.1 h
  obtain ⟨parts, hparts, h⟩ := bind_eq_ok.1 h
  cases h
  exact ⟨parts, hstyle, hparts, rfl⟩

/-! ### The text -/

/-- The characters that take the place of a literal token, if its value has a text. -/
def literalChars? (p : Params) (name : String) : Option (List Char) :=
  match p.get? name with
  | some (.scalar v) => ((literalText name v).map String.toList).toOption
  | _ => none

/-- The characters that are written for a piece. -/
def written (p : Params) (o : Options) : Piece → List Char
  | .literal name => (literalChars? p (String.ofList name)).getD (Piece.literal name).text
  | .named marker name afterIn => (resolveNamed p marker name afterIn).text o
  | piece => piece.text

theorem literalChars?_of_literalText {name : String} {v : Value} {s : String}
    (hv : p.get? name = some (.scalar v)) (hs : literalText name v = .ok s) :
    literalChars? p name = some s.toList := by
  simp only [literalChars?, hv, hs]
  rfl

theorem written_of_kindAndName? {piece : Piece} (h : Token.kindAndName? piece = none) :
    written p o piece = piece.text := by
  cases piece with
  | literal | named => cases h
  | _ => rfl

theorem Resolves.text_eq {piece : Piece} {part : Part} (h : Resolves p piece part) :
    part.text o = written p o piece := by
  cases h with
  | positional | named => rfl
  | literal hv hs => rw [written, literalChars?_of_literalText hv hs]; rfl
  | kept hkind => exact (written_of_kindAndName? hkind).symm

theorem flatMap_text_of_resolves {ps : List Piece} {parts : List Part}
    (h : List.Forall₂ (Resolves p) ps parts) :
    parts.flatMap (Part.text o) = ps.flatMap (written p o) := by
  induction h with
  | nil => rfl
  | cons hpart _ ih => rw [List.flatMap_cons, List.flatMap_cons, hpart.text_eq, ih]

/-- **The text of a statement** is what is written for the pieces of its template, one after the
other. -/
theorem toList_sql (hkind : t.kind = .text) (h : t.render p o = .ok r) :
    r.sql.toList = t.pieces.flatMap (written p o) := by
  obtain ⟨parts, -, hparts, rfl⟩ := exists_parts_of_render hkind h
  rw [String.toList_ofList]
  exact flatMap_text_of_resolves (resolves_of_resolve hparts)

theorem exists_literalText_of_resolves {ps : List Piece} {parts : List Part}
    (h : List.Forall₂ (Resolves p) ps parts) {name : List Char} (hname : .literal name ∈ ps) :
    ∃ v s, p.get? (String.ofList name) = some (.scalar v) ∧
      literalText (String.ofList name) v = .ok s := by
  induction h with
  | nil => cases hname
  | cons hpart _ ih =>
    rcases List.mem_cons.1 hname with rfl | hname
    · cases hpart with
      | literal hv hs => exact ⟨_, _, hv, hs⟩
      | kept hkept => cases hkept
    · exact ih hname

theorem exists_literalText_of_render (hkind : t.kind = .text) (h : t.render p o = .ok r)
    {name : List Char} (hname : .literal name ∈ t.pieces) :
    ∃ v s, p.get? (String.ofList name) = some (.scalar v) ∧
      literalText (String.ofList name) v = .ok s := by
  obtain ⟨parts, -, hparts, rfl⟩ := exists_parts_of_render hkind h
  exact exists_literalText_of_resolves (resolves_of_resolve hparts) hname

end Template

theorem Token.exists_mem_ofPieces {piece : Piece} {kind : TokenKind} {name : List Char}
    {ps : List Piece} (h : piece ∈ ps) (hkind : kindAndName? piece = some (kind, name))
    (start : Nat) :
    ∃ token ∈ ofPieces start ps, token.kind = kind ∧ token.name = String.ofList name := by
  induction ps generalizing start with
  | nil => cases h
  | cons other ps ih =>
    unfold ofPieces
    rcases List.mem_cons.1 h with rfl | h
    · rw [hkind]
      exact ⟨_, List.mem_cons_self, rfl, rfl⟩
    · obtain ⟨token, hmem, htoken⟩ := ih h (start + other.byteSize)
      refine ⟨token, ?_, htoken⟩
      cases kindAndName? other with
      | none => exact hmem
      | some _ => exact List.mem_cons_of_mem _ hmem

theorem Token.exists_mem_of_mem_ofPieces {token : Token} {ps : List Piece} {start : Nat}
    (h : token ∈ ofPieces start ps) :
    ∃ piece ∈ ps, kindAndName? piece = some (token.kind, token.name.toList) := by
  induction ps generalizing start with
  | nil => cases h
  | cons piece ps ih =>
    have hrest {stop : Nat} (h : token ∈ ofPieces stop ps) :
        ∃ other ∈ piece :: ps, kindAndName? other = some (token.kind, token.name.toList) :=
      (ih h).imp fun _ hother => hother.imp_left (List.mem_cons_of_mem piece)
    unfold ofPieces at h
    cases hkind : kindAndName? piece with
    | none => exact hrest (by simpa only [hkind] using h)
    | some kindAndName =>
      simp only [hkind] at h
      rcases List.mem_cons.1 h with rfl | h
      · exact ⟨piece, List.mem_cons_self, by rw [hkind, String.toList_ofList]⟩
      · exact hrest h

/-! ### First occurrences -/

section FirstOccurrences

variable {α β : Type} {R : α → β → Prop} {r : α → α → Bool} {s : β → β → Bool}

/-- First occurrences correspond where the elements do, if they are repeated together. -/
theorem forall₂_eraseDupsBy (hrs : ∀ a b c d, R a b → R c d → r a c = s b d) :
    ∀ {xs : List α} {ys : List β}, List.Forall₂ R xs ys →
      List.Forall₂ R (xs.eraseDupsBy r) (ys.eraseDupsBy s)
  | [], [], .nil => .nil
  | a :: xs, b :: ys, .cons hab h => by
    have hsame : ∀ c d, R c d → (decide (r c a = false) = true ↔ decide (s d b = false) = true) :=
      fun c d hcd => by rw [hrs c d a b hcd hab]
    rw [List.eraseDupsBy_cons, List.eraseDupsBy_cons]
    exact .cons hab (forall₂_eraseDupsBy hrs (List.rel_filter hsame h))
termination_by xs => xs.length
decreasing_by exact Nat.lt_succ_of_le (List.length_filter_le _ _)

theorem mem_of_mem_eraseDupsBy {a : α} : ∀ {xs : List α}, a ∈ xs.eraseDupsBy r → a ∈ xs
  | [], h => h
  | b :: xs, h => by
    rw [List.eraseDupsBy_cons] at h
    rcases List.mem_cons.1 h with rfl | h
    · exact List.mem_cons_self
    · exact List.mem_cons_of_mem b (List.mem_of_mem_filter (mem_of_mem_eraseDupsBy h))
termination_by xs => xs.length
decreasing_by exact Nat.lt_succ_of_le (List.length_filter_le _ _)

theorem pairwise_eraseDupsBy :
    ∀ xs : List α, (xs.eraseDupsBy r).Pairwise fun a b => r b a = false
  | [] => .nil
  | a :: xs => by
    rw [List.eraseDupsBy_cons]
    refine .cons (fun b hb => ?_) (pairwise_eraseDupsBy _)
    exact of_decide_eq_true (List.mem_filter.1 (mem_of_mem_eraseDupsBy hb)).2
termination_by xs => xs.length
decreasing_by exact Nat.lt_succ_of_le (List.length_filter_le _ _)

theorem exists_mem_eraseDupsBy {a : α} :
    ∀ {xs : List α}, a ∈ xs → ∃ b ∈ xs.eraseDupsBy r, a = b ∨ r a b = true
  | b :: xs, h => by
    rw [List.eraseDupsBy_cons]
    rcases List.mem_cons.1 h with rfl | h
    · exact ⟨a, List.mem_cons_self, .inl rfl⟩
    · cases hab : r a b with
      | true => exact ⟨b, List.mem_cons_self, .inr hab⟩
      | false =>
        have hkept : a ∈ xs.filter fun c => r c b = false :=
          List.mem_filter.2 ⟨h, decide_eq_true hab⟩
        obtain ⟨c, hc, hac⟩ := exists_mem_eraseDupsBy hkept
        exact ⟨c, List.mem_cons_of_mem b hc, hac⟩
termination_by xs => xs.length
decreasing_by exact Nat.lt_succ_of_le (List.length_filter_le _ _)

theorem eraseDupsBy_concat (x : α) :
    ∀ xs : List α, (xs ++ [x]).eraseDupsBy r =
      if (xs.eraseDupsBy r).any (r x) then xs.eraseDupsBy r else xs.eraseDupsBy r ++ [x]
  | [] => rfl
  | a :: xs => by
    rw [List.cons_append, List.eraseDupsBy_cons, List.eraseDupsBy_cons, List.filter_append,
      List.any_cons]
    cases hxa : r x a with
    | true => simp [hxa]
    | false =>
      have hkept : [x].filter (fun b => decide (r b a = false)) = [x] := by simp [hxa]
      rw [hkept, eraseDupsBy_concat, Bool.false_or]
      split <;> rfl
termination_by xs => xs.length
decreasing_by exact Nat.lt_succ_of_le (List.length_filter_le _ _)

end FirstOccurrences

namespace Part

variable (o : Options)

/-- **Parts bind where their name comes for the first time**, as long as those without a name bind
nothing. -/
theorem allBindings_eq_flatMap {parts : List Part}
    (h : ∀ part ∈ parts, part.key? = none → part.bindings o = []) :
    allBindings o [] parts =
      ((parts.filter fun part => part.key?.isSome).eraseDupsBy
        fun a b => a.key? == b.key?).flatMap (bindings o) := by
  suffices hseen : ∀ seen, allBindings o seen parts =
      ((parts.filter fun part => part.key?.any (!seen.contains ·)).eraseDupsBy
        fun a b => a.key? == b.key?).flatMap (bindings o) by
    rw [hseen]
    congr 3
  induction parts with
  | nil => intro seen; rfl
  | cons part parts ih =>
    intro seen
    have ih := ih fun part hpart => h part (List.mem_cons_of_mem _ hpart)
    unfold allBindings
    cases hkey : part.key? with
    | none =>
      simp only [h part List.mem_cons_self hkey, List.nil_append, ih, List.filter_cons, hkey,
        Option.any_none, Bool.false_eq_true, if_false]
    | some key =>
      by_cases hseen : seen.contains key = true
      · simp only [hseen, if_true, ih, List.filter_cons, hkey, Option.any_some, Bool.not_true,
          Bool.false_eq_true, if_false]
      · rw [Bool.not_eq_true] at hseen
        simp only [hseen, Bool.false_eq_true, if_false, ih, List.filter_cons, hkey,
          Option.any_some, Bool.not_false, if_true, List.eraseDupsBy_cons, List.flatMap_cons,
          List.filter_filter]
        -- the later parts of another name are those that are not seen after this one either
        congr 4
        funext other
        cases other.key? <;> grind

theorem allBindings_of_key? {parts : List Part} (h : ∀ part ∈ parts, part.key? = none)
    (seen : List (List Char)) : allBindings o seen parts = parts.flatMap (bindings o) := by
  induction parts with
  | nil => rfl
  | cons part parts ih =>
    unfold allBindings
    rw [h part List.mem_cons_self, List.flatMap_cons]
    exact congrArg _ (ih fun part hpart => h part (List.mem_cons_of_mem _ hpart))

end Part

end RowMapping
