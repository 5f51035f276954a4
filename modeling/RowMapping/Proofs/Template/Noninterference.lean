import RowMapping.Proofs.Template.Statement

/-!
# Bound values do not show in statements

Two sets of parameters have the same form when they differ in bound values only: the same names in
the same order, each bound to a single value in both or to lists of one length in both.  What can
be seen of a statement besides its bound values is its outline.

* `Template.resolve_alike`: parameters of the same form resolve to parts that are alike, as long as
  the literal tokens, whose text does depend on values, are bound alike;
* `Template.render_outline_eq`: such parameters fail with the same error, or give statements with
  the same outline, whatever the template and the options are.
-/

namespace RowMapping

/-! ### Parameters of the same form -/

/-- Both are single values, or both are lists of one length. -/
def ParamValue.SameForm : ParamValue → ParamValue → Prop
  | scalar _, scalar _ => True
  | list vs, list ws => vs.length = ws.length
  | _, _ => False

namespace Params

/-- The same names in the same order, bound to what has the same form. -/
def SameForm (p q : Params) : Prop :=
  List.Forall₂ (fun e f => e.1 = f.1 ∧ e.2.SameForm f.2) p.entries q.entries

variable {p q : Params}

theorem SameForm.size_eq (h : p.SameForm q) : p.size = q.size := List.Forall₂.length_eq h

theorem SameForm.get? (h : p.SameForm q) (name : String) :
    Option.Rel ParamValue.SameForm (p.get? name) (q.get? name) := by
  obtain ⟨es⟩ := p
  obtain ⟨fs⟩ := q
  change List.Forall₂ _ es fs at h
  simp only [Params.get?]
  induction h with
  | nil => exact .none
  | @cons e f es fs hef _ ih =>
    simp only [List.find?_cons, ← hef.1]
    cases Text.sameName e.1 name
    · exact ih
    · exact .some hef.2

end Params

/-! ### Parts that are alike -/

/-- The two parts differ in bound values only. -/
inductive Part.Alike : Part → Part → Prop where
  | plain (text : List Char) : Alike (.plain text) (.plain text)
  | positional (name : String) (v w : Value) : Alike (.positional name v) (.positional name w)
  | scalar (marker : Char) (name : List Char) (v w : Value) :
    Alike (.scalar marker name v) (.scalar marker name w)
  | expanded (marker : Char) (name : List Char) (brackets : Bool) {vs ws : List Value}
    (h : vs.length = ws.length) :
    Alike (.expanded marker name brackets vs) (.expanded marker name brackets ws)

namespace Part

variable {a b : Part} (o : Options)

theorem isEmpty_eq_of_length_eq {vs ws : List Value} (h : vs.length = ws.length) :
    vs.isEmpty = ws.isEmpty := by
  rw [Bool.eq_iff_iff, List.isEmpty_iff_length_eq_zero, List.isEmpty_iff_length_eq_zero, h]

theorem length_padded (vs : List Value) (count : Nat) :
    (padded vs count).length = max vs.length count := by
  simp only [padded, List.length_append, List.length_replicate]
  omega

theorem Alike.text_eq (h : a.Alike b) : a.text o = b.text o := by
  cases h with
  | plain | positional | scalar => rfl
  | expanded marker name brackets h => simp only [text, isEmpty_eq_of_length_eq h, h]

theorem Alike.key?_eq (h : a.Alike b) : a.key? = b.key? := by
  cases h <;> rfl

theorem names_zipIdx (name : List Char) (vs : List Value) (k : Nat) :
    ((vs.zipIdx k).map fun e => (String.ofList (elementName name e.2), e.1)).map Prod.fst =
      (List.range' k vs.length).map fun i => String.ofList (elementName name i) := by
  rw [← List.zipIdx_map_snd k vs, List.map_map, List.map_map]
  rfl

theorem Alike.names_eq (h : a.Alike b) :
    (a.bindings o).map Prod.fst = (b.bindings o).map Prod.fst := by
  cases h with
  | plain | positional | scalar => rfl
  | expanded marker name brackets h =>
    simp only [bindings, names_zipIdx, isEmpty_eq_of_length_eq h]
    split
    · rfl
    · simp only [length_padded, h]

theorem flatMap_text_eq {ps qs : List Part} (h : List.Forall₂ Alike ps qs) :
    ps.flatMap (text o) = qs.flatMap (text o) := by
  induction h with
  | nil => rfl
  | cons hab _ ih => rw [List.flatMap_cons, List.flatMap_cons, hab.text_eq, ih]

theorem allBindings_names_eq {ps qs : List Part} (h : List.Forall₂ Alike ps qs)
    (seen : List (List Char)) :
    (allBindings o seen ps).map Prod.fst = (allBindings o seen qs).map Prod.fst := by
  induction h generalizing seen with
  | nil => rfl
  | @cons a b ps qs hab _ ih =>
    simp only [allBindings, hab.key?_eq]
    split
    · rw [List.map_append, List.map_append, hab.names_eq, ih]
    · split
      · exact ih _
      · rw [List.map_append, List.map_append, hab.names_eq, ih]

end Part

/-! ### Literal tokens -/

theorem Token.exists_mem_ofPieces_of_literal {name : List Char} {ps : List Piece}
    (h : .literal name ∈ ps) (start : Nat) :
    ∃ token ∈ ofPieces start ps, token.kind = .literal ∧ token.name = String.ofList name :=
  exists_mem_ofPieces h rfl start

namespace Template

variable {p q : Params}

/-! ### Resolving pieces -/

theorem resolveNamed_alike (h : p.SameForm q) (marker : Char) (name : List Char) (afterIn : Bool) :
    (resolveNamed p marker name afterIn).Alike (resolveNamed q marker name afterIn) := by
  have hget := h.get? (String.ofList name)
  unfold resolveNamed
  generalize p.get? (String.ofList name) = x at hget
  generalize q.get? (String.ofList name) = y at hget
  cases hget with
  | none => exact .plain _
  | @some v w hvw =>
    cases v <;> cases w
    · exact .scalar marker name _ _
    · exact hvw.elim
    · exact hvw.elim
    · exact .expanded marker name afterIn hvw

theorem resolvePositional_alike {e f : String × ParamValue}
    (h : e.1 = f.1 ∧ e.2.SameForm f.2) :
    SameOutcome Part.Alike (resolvePositional e) (resolvePositional f) := by
  obtain ⟨name, v⟩ := e
  obtain ⟨name', w⟩ := f
  obtain ⟨rfl, hvw⟩ := h
  cases v <;> cases w
  · exact .ok (.positional name _ _)
  · exact hvw.elim
  · exact hvw.elim
  · exact .error _

theorem resolveLiteral_alike {name : String} (h : p.get? name = q.get? name) :
    SameOutcome Part.Alike (resolveLiteral p name) (resolveLiteral q name) := by
  unfold resolveLiteral
  rw [h]
  split
  · rename_i v _
    cases literalText name v with
    | error e => exact .error e
    | ok s => exact .ok (.plain _)
  · exact .error _
  · exact .error _

/-- Parameters of the same form fail to resolve the pieces in the same way, or resolve them to
parts that are alike.  The parameters that are left for positional placeholders go along. -/
theorem resolve_alike (h : p.SameForm q) {left left' : List (String × ParamValue)}
    (hleft : List.Forall₂ (fun e f => e.1 = f.1 ∧ e.2.SameForm f.2) left left')
    {ps : List Piece}
    (hliteral : ∀ name, Piece.literal name ∈ ps →
      p.get? (String.ofList name) = q.get? (String.ofList name)) :
    SameOutcome (List.Forall₂ Part.Alike) (resolve p left ps) (resolve q left' ps) := by
  induction ps generalizing left left' with
  | nil => exact .ok .nil
  | cons piece ps ih =>
    have hrest := fun name hname => hliteral name (List.mem_cons_of_mem _ hname)
    -- a piece that resolves without parameters to the same part in both
    have hplain (text : List Char) : SameOutcome (List.Forall₂ Part.Alike)
        (resolve p left ps >>= fun parts => .ok (.plain text :: parts))
        (resolve q left' ps >>= fun parts => .ok (.plain text :: parts)) :=
      (ih hleft hrest).bind fun _ _ hparts => .ok (.cons (.plain text) hparts)
    cases piece with
    | positional =>
      cases hleft with
      | nil => exact .error _
      | cons hef hleft =>
        exact (resolvePositional_alike hef).bind fun _ _ hpart =>
          (ih hleft hrest).bind fun _ _ hparts => .ok (.cons hpart hparts)
    | literal name =>
      exact (resolveLiteral_alike (hliteral name List.mem_cons_self)).bind fun _ _ hpart =>
        (ih hleft hrest).bind fun _ _ hparts => .ok (.cons hpart hparts)
    | named marker name afterIn =>
      exact (ih hleft hrest).bind fun _ _ hparts =>
        .ok (.cons (resolveNamed_alike h marker name afterIn) hparts)
    | code c => exact hplain _
    | quoted text => exact hplain _
    | comment text => exact hplain _
    | system marker name => exact hplain _

end Template

/-! ### Statements -/

/-- What can be seen of a statement besides its bound values: its text, its kind and the names that
it binds, in their order. -/
def Rendered.outline (r : Rendered) : String × StatementKind × List String :=
  (r.sql, r.kind, r.bindings.map Prod.fst)

namespace Template

variable {p q : Params} (t : Template) (o : Options)

theorem renderText_outline_eq (h : p.SameForm q)
    (hliteral : ∀ name, Piece.literal name ∈ t.pieces →
      p.get? (String.ofList name) = q.get? (String.ofList name)) :
    (t.renderText p o).map Rendered.outline = (t.renderText q o).map Rendered.outline := by
  have hstyle : t.checkStyle p = t.checkStyle q := by
    simp only [checkStyle, h.size_eq]
  have hparts := resolve_alike h h hliteral
  unfold renderText
  rw [hstyle]
  cases t.checkStyle q with
  | error e => rfl
  | ok =>
    refine SameOutcome.map_eq (R := fun r s => r.outline = s.outline)
      (hparts.bind fun _ _ hparts => .ok ?_) fun _ _ houtline => houtline
    simp only [Rendered.outline, Part.flatMap_text_eq o hparts, Part.allBindings_names_eq o hparts]

theorem arguments_names_eq (statement : String) {es fs : List (String × ParamValue)}
    (h : List.Forall₂ (fun e f => e.1 = f.1 ∧ e.2.SameForm f.2) es fs) :
    (arguments statement es).map (List.map Prod.fst) =
      (arguments statement fs).map (List.map Prod.fst) := by
  induction h with
  | nil => rfl
  | @cons e f es fs hef _ ih =>
    obtain ⟨name, v⟩ := e
    obtain ⟨name', w⟩ := f
    obtain ⟨rfl, hvw⟩ := hef
    cases v <;> cases w
    · simp only [arguments]
      cases hes : arguments statement es <;> cases hfs : arguments statement fs <;>
        simp_all [Except.map]
    · exact hvw.elim
    · exact hvw.elim
    · rfl

theorem renderName_outline_eq (h : p.SameForm q) :
    (t.renderName p).map Rendered.outline = (t.renderName q).map Rendered.outline := by
  have hnames := arguments_names_eq (Text.trim t.text) h
  unfold renderName
  cases hp : arguments (Text.trim t.text) p.entries <;>
    cases hq : arguments (Text.trim t.text) q.entries <;>
    simp_all [Except.map, Rendered.outline]

/-- **Bound values do not show in statements.**  Parameters of the same form, which bind the names
of the literal tokens to equal values, give the same error or statements with the same outline. -/
theorem render_outline_eq (h : p.SameForm q)
    (hliteral : ∀ token ∈ t.tokens, token.kind = .literal →
      p.get? token.name = q.get? token.name) :
    (t.render p o).map Rendered.outline = (t.render q o).map Rendered.outline := by
  unfold render
  split
  · refine t.renderText_outline_eq o h fun name hname => ?_
    obtain ⟨token, hmem, hkind, htoken⟩ := Token.exists_mem_ofPieces_of_literal hname 0
    rw [← htoken]
    exact hliteral token hmem hkind
  · exact t.renderName_outline_eq h

/-- A literal token, a list and a name that comes twice. -/
theorem render_outline_eq_of_list :
    let t := parse "select {=kind} from t where a = @id and x in @xs or y = @ID" .default
    let p := ((Params.empty.bind "id" (.text "it's")).bindList "xs" [.signed 1, .null]).bind "kind"
      (.signed 3)
    let q := ((Params.empty.bind "id" .null).bindList "xs" [.text "a", .bool true]).bind "kind"
      (.signed 3)
    p.SameForm q ∧
      (∀ token ∈ t.tokens, token.kind = .literal → p.get? token.name = q.get? token.name) ∧
      (t.render p .default).map Rendered.outline = (t.render q .default).map Rendered.outline := by
  intro t p q
  have h : p.SameForm q :=
    .cons ⟨rfl, trivial⟩ (.cons ⟨rfl, rfl⟩ (.cons ⟨rfl, trivial⟩ .nil))
  have hliteral : ∀ token ∈ t.tokens, token.kind = .literal →
      p.get? token.name = q.get? token.name := by decide +kernel
  exact ⟨h, hliteral, render_outline_eq t .default h hliteral⟩

end Template

end RowMapping
