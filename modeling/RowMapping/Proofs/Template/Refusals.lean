import RowMapping.Proofs.Template.BoundNames

/-!
# Which templates are refused

A template of kind text is refused for one of three reasons: its placeholders are of two styles,
there is not one parameter for each positional placeholder, or something is wrong with the parameter
that a token stands for.  The first two are found before any token is looked at; of the tokens, the
first with a fault gives the error.

* `Token.fault?`: what can be wrong with the parameter of a token;
* `Template.checkStyle_eq`: which styles are refused;
* `Template.errorOf?_resolve`: the error of the first token with a fault;
* `Template.render_refuses`: when rendering fails, and with which error.
-/

namespace RowMapping

/-! ### Faults of tokens -/

/-- The value has a text in a statement. -/
def Value.isLiteral : Value → Bool
  | .text _ | .bytes _ => false
  | .float x => x.isFinite
  | .double x => x.isFinite
  | _ => true

/-- What a value is called that has no text in a statement. -/
def Value.literalKind : Value → String
  | .float _ | .double _ => "non-finite float"
  | v => v.kind

namespace Token

/-- The token is a question mark. -/
def isPositional (token : Token) : Bool := token.kind == .positional

/-- The token has a marker and a name. -/
def isNamed (token : Token) : Bool := token.kind == .named || token.kind == .listExpansion

/-- What is wrong with the parameter that a token stands for, if positional tokens before it have
taken the first `taken` parameters. -/
def fault? (p : Params) (taken : Nat) (token : Token) : Option Error :=
  match token.kind with
  | .positional =>
    match p.entries[taken]? with
    | some (name, .list _) => some (.input (.positionalList name))
    | _ => none
  | .literal =>
    match p.get? token.name with
    | none => some (.input (.unboundLiteral token.name))
    | some (.list _) => some (.unsupportedLiteral token.name "list")
    | some (.scalar v) =>
      if v.isLiteral then none else some (.unsupportedLiteral token.name v.literalKind)
  | .named | .listExpansion => none

/-- The fault of the first token that has one. -/
def firstFault? (p : Params) : (taken : Nat) → List Token → Option Error
  | _, [] => none
  | taken, token :: tokens =>
    (token.fault? p taken).or
      (firstFault? p (if token.isPositional then taken + 1 else taken) tokens)

/-- The tokens up to one of them have no fault, and this one has that of the error. -/
def FirstFault (p : Params) (tokens : List Token) (e : Error) : Prop :=
  ∃ left token right, tokens = left ++ token :: right ∧
    token.fault? p (left.countP isPositional) = some e ∧
    ∀ front earlier back, left = front ++ earlier :: back →
      earlier.fault? p (front.countP isPositional) = none

variable {p : Params} {taken : Nat} {tokens : List Token} {e : Error}

theorem countP_isPositional_cons (token : Token) (tokens : List Token) :
    taken + (token :: tokens).countP isPositional =
      (if token.isPositional then taken + 1 else taken) + tokens.countP isPositional := by
  rw [List.countP_cons]
  split <;> omega

theorem firstFault?_eq_none_iff :
    firstFault? p taken tokens = none ↔ ∀ left token right, tokens = left ++ token :: right →
      token.fault? p (taken + left.countP isPositional) = none := by
  induction tokens generalizing taken with
  | nil => simp [firstFault?]
  | cons first tokens ih =>
    rw [firstFault?, Option.or_eq_none_iff, ih]
    constructor
    · rintro ⟨hfirst, hrest⟩ left token right h
      cases left with
      | nil =>
        obtain ⟨rfl, -⟩ := List.cons.inj h
        exact hfirst
      | cons other left =>
        obtain ⟨rfl, htail⟩ := List.cons.inj h
        rw [countP_isPositional_cons]
        exact hrest left token right htail
    · intro h
      refine ⟨h [] first tokens rfl, fun left token right htokens => ?_⟩
      rw [← countP_isPositional_cons]
      exact h (first :: left) token right (htokens ▸ rfl)

theorem firstFault?_eq_some_iff :
    firstFault? p taken tokens = some e ↔ ∃ left token right, tokens = left ++ token :: right ∧
      token.fault? p (taken + left.countP isPositional) = some e ∧
      firstFault? p taken left = none := by
  induction tokens generalizing taken with
  | nil => simp [firstFault?]
  | cons first tokens ih =>
    rw [firstFault?, Option.or_eq_some_iff, ih]
    constructor
    · rintro (hfirst | ⟨hfirst, left, token, right, rfl, htoken, hleft⟩)
      · exact ⟨[], first, tokens, rfl, hfirst, rfl⟩
      · refine ⟨first :: left, token, right, rfl, ?_, ?_⟩
        · rw [countP_isPositional_cons]
          exact htoken
        · rw [firstFault?, hfirst, hleft]
          rfl
    · rintro ⟨left, token, right, h, htoken, hleft⟩
      cases left with
      | nil =>
        obtain ⟨rfl, -⟩ := List.cons.inj h
        exact .inl htoken
      | cons other left =>
        obtain ⟨rfl, htail⟩ := List.cons.inj h
        rw [firstFault?, Option.or_eq_none_iff] at hleft
        rw [countP_isPositional_cons] at htoken
        exact .inr ⟨hleft.1, left, token, right, htail, htoken, hleft.2⟩

theorem firstFault_iff : FirstFault p tokens e ↔ firstFault? p 0 tokens = some e := by
  simp only [FirstFault, firstFault?_eq_some_iff, firstFault?_eq_none_iff, Nat.zero_add]

/-- No fault of a token is one of style, and none is that a parameter is missing. -/
theorem ne_of_fault? {token : Token} (h : token.fault? p taken = some e) :
    (∀ fault, e ≠ .ambiguousStyle fault) ∧ e ≠ .input .missingPositional := by
  unfold fault? at h
  split at h
  · split at h <;> cases h
    exact ⟨nofun, nofun⟩
  · split at h
    · cases h
      exact ⟨nofun, nofun⟩
    · cases h
      exact ⟨nofun, nofun⟩
    · split at h <;> cases h
      exact ⟨nofun, nofun⟩
  · cases h
  · cases h

/-! ### Tokens and pieces -/

theorem countP_isPositional_ofPieces (start : Nat) (ps : List Piece) :
    (ofPieces start ps).countP isPositional = ps.countP Piece.isPositional := by
  induction ps generalizing start with
  | nil => rfl
  | cons piece ps ih =>
    cases piece with
    | named _ _ afterIn =>
      cases afterIn <;>
        simp [ofPieces, kindAndName?, ih, isPositional, Piece.isPositional]
    | _ => simp [ofPieces, kindAndName?, ih, isPositional, Piece.isPositional, List.countP_cons]

theorem find?_isNamed_ofPieces (start : Nat) (ps : List Piece) :
    ((ofPieces start ps).find? isNamed).map source =
      (ps.find? Piece.isNamed).map fun piece => String.ofList piece.text := by
  induction ps generalizing start with
  | nil => rfl
  | cons piece ps ih =>
    cases piece with
    | named _ _ afterIn =>
      cases afterIn <;>
        simp [ofPieces, kindAndName?, isNamed, Piece.isNamed, List.find?_cons]
    | _ => simp [ofPieces, kindAndName?, ih, isNamed, Piece.isNamed]

end Token

namespace Template

variable {t : Template} {p : Params} {o : Options}

theorem errorOf?_literalText (name : String) (v : Value) :
    errorOf? (literalText name v) =
      if v.isLiteral then none else some (.unsupportedLiteral name v.literalKind) := by
  cases v with
  | float x | double x =>
    cases hfinite : x.isFinite <;> simp only [literalText, Value.isLiteral, hfinite] <;> rfl
  | _ => rfl

theorem errorOf?_resolveLiteral (name : List Char) (taken start stop : Nat) (source : String) :
    errorOf? (resolveLiteral p (String.ofList name)) =
      Token.fault? p taken ⟨.literal, start, stop, String.ofList name, source⟩ := by
  simp only [resolveLiteral, Token.fault?]
  cases p.get? (String.ofList name) with
  | none => rfl
  | some value =>
    cases value with
    | list => rfl
    | scalar v => exact (errorOf?_map _).trans (errorOf?_literalText _ v)

theorem errorOf?_resolvePositional {taken : Nat} (h : taken < p.entries.length)
    (start stop : Nat) (name source : String) :
    errorOf? (resolvePositional p.entries[taken]) =
      Token.fault? p taken ⟨.positional, start, stop, name, source⟩ := by
  simp only [Token.fault?, List.getElem?_eq_getElem h]
  obtain ⟨entryName, value⟩ := p.entries[taken]
  cases value <;> rfl

/-- **Of the tokens, the first with a fault gives the error**, if there are enough parameters for
the positional ones. -/
theorem errorOf?_resolve {ps : List Piece} {taken : Nat}
    (h : taken + ps.countP Piece.isPositional ≤ p.entries.length) (start : Nat) :
    errorOf? (resolve p (p.entries.drop taken) ps) =
      Token.firstFault? p taken (Token.ofPieces start ps) := by
  induction ps generalizing taken start with
  | nil => rfl
  | cons piece ps ih =>
    -- the pieces behind one that takes no parameter
    have hrest (hpiece : piece.isPositional = false) (start : Nat) :
        errorOf? (resolve p (p.entries.drop taken) ps) =
          Token.firstFault? p taken (Token.ofPieces start ps) := by
      rw [List.countP_cons_of_neg (Bool.eq_false_iff.1 hpiece)] at h
      exact ih h start
    cases piece with
    | positional =>
      rw [List.countP_cons_of_pos rfl] at h
      have htaken : taken < p.entries.length := by omega
      have hbehind : taken + 1 + ps.countP Piece.isPositional ≤ p.entries.length := by omega
      rw [List.drop_eq_getElem_cons htaken, resolve,
        errorOf?_bind fun _ => errorOf?_bind_ok _, ih hbehind (start + Piece.positional.byteSize),
        errorOf?_resolvePositional htaken]
      rfl
    | literal name =>
      rw [resolve, errorOf?_bind fun _ => errorOf?_bind_ok _,
        hrest rfl (start + (Piece.literal name).byteSize), errorOf?_resolveLiteral]
      rfl
    | named marker name afterIn =>
      rw [resolve, errorOf?_bind_ok, hrest rfl (start + (Piece.named marker name afterIn).byteSize)]
      cases afterIn <;> rfl
    | code | quoted | comment | system => exact (errorOf?_bind_ok _).trans (hrest rfl _)

/-! ### Styles -/

/-- **Which styles are refused**: positional and named tokens together, and any number of
positional tokens but that of the parameters. -/
theorem checkStyle_eq (t : Template) (p : Params) :
    t.checkStyle p =
      let markers := t.tokens.countP Token.isPositional
      if markers = 0 then .ok ()
      else
        match t.tokens.find? Token.isNamed with
        | some token => .error (.ambiguousStyle (.mixed markers token.source))
        | none =>
          if markers = p.size then .ok ()
          else .error (.input (.positionalCount markers p.size)) := by
  have hcount : t.tokens.countP Token.isPositional = t.positionalCount :=
    Token.countP_isPositional_ofPieces 0 t.pieces
  have hfind := Token.find?_isNamed_ofPieces 0 t.pieces
  simp only [checkStyle, hcount]
  cases hpiece : t.pieces.find? Piece.isNamed with
  | none =>
    rw [hpiece] at hfind
    rw [tokens, Option.map_eq_none_iff.1 hfind]
  | some piece =>
    rw [hpiece] at hfind
    obtain ⟨token, htoken, hsource⟩ := Option.map_eq_some_iff.1 hfind
    simp only [tokens, htoken, hsource]

theorem find?_isNamed_eq_none_iff {tokens : List Token} :
    tokens.find? Token.isNamed = none ↔ ∀ token ∈ tokens, token.isNamed = false := by
  simp only [List.find?_eq_none, Bool.not_eq_true]

theorem checkStyle_eq_ok_iff :
    t.checkStyle p = .ok () ↔ (0 < t.tokens.countP Token.isPositional →
      (∀ token ∈ t.tokens, token.isNamed = false) ∧
        p.size = t.tokens.countP Token.isPositional) := by
  rw [checkStyle_eq, ← find?_isNamed_eq_none_iff]
  dsimp only
  split
  · exact iff_of_true rfl fun h => by omega
  · split
    · rename_i hmarkers _ _ hfind
      exact iff_of_false nofun fun h => nomatch hfind.symm.trans (h (by omega)).1
    · rename_i hmarkers _ hfind
      split
      · exact iff_of_true rfl fun _ => ⟨hfind, by omega⟩
      · exact iff_of_false nofun fun h => by
          have := (h (by omega)).2
          omega

/-! ### Outcomes -/

variable {r : Rendered} {e : Error}

theorem render_of_checkStyle_eq_error (hkind : t.kind = .text) (h : t.checkStyle p = .error e) :
    t.render p o = .error e := by
  rw [render, if_pos hkind, renderText, h]
  rfl

/-- Where the placeholders fit the parameters, the first token with a fault gives the error. -/
theorem errorOf?_render (hkind : t.kind = .text) (hstyle : t.checkStyle p = .ok ()) :
    errorOf? (t.render p o) = Token.firstFault? p 0 t.tokens := by
  have hcount : 0 + t.pieces.countP Piece.isPositional ≤ p.entries.length := by
    have hcases := of_checkStyle hstyle
    simp only [positionalCount, Params.size] at hcases
    omega
  have hresolve := errorOf?_resolve hcount 0
  rw [List.drop_zero] at hresolve
  rw [render, if_pos hkind, renderText, hstyle, tokens, ← hresolve]
  exact errorOf?_bind_ok _

end Template

namespace Token

variable {p : Params} {o : Options} {taken : Nat} {token : Token}

theorem fault?_literal_eq_none_iff (hkind : token.kind = .literal) :
    token.fault? p taken = none ↔
      ∃ v, p.get? token.name = some (.scalar v) ∧ v.isLiteral = true := by
  simp only [fault?, hkind]
  cases p.get? token.name with
  | none => simp
  | some value =>
    cases value with
    | list => simp
    | scalar v => cases hv : v.isLiteral <;> simp [hv]

theorem fault?_eq_none_of_scalars (hkind : token.kind ≠ .literal)
    (h : token.kind = .positional → ∀ entry ∈ p.entries, entry.2.isList = false) :
    token.fault? p taken = none := by
  unfold fault?
  split
  · split
    · rename_i hpositional _ _ _ hentry
      cases h hpositional _ (List.mem_of_getElem? hentry)
    · rfl
  · exact absurd ‹_› hkind
  · rfl
  · rfl

/-- The text of its value, for a literal token.  Every other token stays as it is written. -/
def literalText? (p : Params) (token : Token) : Option (List Char) :=
  if token.kind = .literal then Template.literalChars? p token.name else none

theorem replacement?_of_not_isNamed (h : token.isNamed = false) :
    token.replacement? p o = token.literalText? p := by
  unfold replacement? literalText? Template.literalChars?
  cases hkind : token.kind with
  | named | listExpansion =>
    rw [isNamed, hkind] at h
    cases h
  | positional => rfl
  | literal =>
    cases p.get? token.name with
    | none => rfl
    | some value => cases value <;> rfl

theorem splice_congr {f g : Token → Option (List Char)} {tokens : List Token}
    (h : ∀ token ∈ tokens, f token = g token) (bytes : List UInt8) (done : Nat) :
    splice f bytes done tokens = splice g bytes done tokens := by
  induction tokens generalizing done with
  | nil => rfl
  | cons token tokens ih =>
    obtain ⟨htoken, htokens⟩ := List.forall_mem_cons.1 h
    rw [splice, splice, htoken, ih htokens]

end Token

namespace Template

variable {t : Template} {p : Params} {o : Options} {r : Rendered} {e : Error}

/-- Positional tokens bind all parameters, in their order. -/
theorem entries_of_render (hkind : t.kind = .text)
    (hmarkers : 0 < t.tokens.countP Token.isPositional) (h : t.render p o = .ok r) :
    r.bindings.map (fun b => (b.1, ParamValue.scalar b.2)) = p.entries := by
  obtain ⟨parts, hstyle, hparts, rfl⟩ := exists_parts_of_render hkind h
  rw [tokens, Token.countP_isPositional_ofPieces] at hmarkers
  rcases of_checkStyle hstyle with hcount | ⟨hnamed, hcount⟩
  · exact absurd hcount (Nat.ne_of_gt hmarkers)
  · obtain ⟨hkeys, hentries⟩ := entries_of_resolve (o := o) hnamed hparts
    rw [Part.allBindings_of_key? o hkeys, hentries]
    exact List.take_of_length_le (Nat.le_of_eq hcount.symm)

/-- A template whose placeholders fit the parameters is rendered if its tokens have no faults. -/
theorem exists_render_iff (hkind : t.kind = .text) (hstyle : t.checkStyle p = .ok ()) :
    (∃ r, t.render p o = .ok r) ↔
      (∀ token ∈ t.tokens, token.kind = .literal →
        ∃ v, p.get? token.name = some (.scalar v) ∧ v.isLiteral = true) ∧
      (0 < t.tokens.countP Token.isPositional → ∀ entry ∈ p.entries, entry.2.isList = false) := by
  constructor
  · rintro ⟨r, h⟩
    constructor
    · intro token htoken hliteral
      have hfirst := errorOf?_render (o := o) hkind hstyle
      rw [errorOf?_eq_none.2 ⟨r, h⟩, eq_comm, Token.firstFault?_eq_none_iff] at hfirst
      obtain ⟨left, right, htokens⟩ := List.append_of_mem htoken
      exact (Token.fault?_literal_eq_none_iff hliteral).1 (hfirst left token right htokens)
    · intro hmarkers entry hentry
      rw [← entries_of_render hkind hmarkers h] at hentry
      obtain ⟨b, -, rfl⟩ := List.mem_map.1 hentry
      rfl
  · rintro ⟨hliteral, hscalar⟩
    rw [← errorOf?_eq_none, errorOf?_render hkind hstyle, Token.firstFault?_eq_none_iff]
    intro left token right htokens
    have htoken : token ∈ t.tokens := htokens ▸ List.mem_append_right left List.mem_cons_self
    by_cases hkind : token.kind = .literal
    · exact (Token.fault?_literal_eq_none_iff hkind).2 (hliteral token htoken hkind)
    · refine Token.fault?_eq_none_of_scalars hkind fun hpositional => hscalar ?_
      exact List.countP_pos_iff.2 ⟨token, htoken, beq_iff_eq.2 hpositional⟩

theorem ne_of_render (hkind : t.kind = .text) (hstyle : t.checkStyle p = .ok ())
    (h : t.render p o = .error e) :
    (∀ fault, e ≠ .ambiguousStyle fault) ∧ e ≠ .input .missingPositional := by
  rw [← errorOf?_eq_some, errorOf?_render hkind hstyle] at h
  obtain ⟨left, token, right, -, hfault, -⟩ := Token.firstFault?_eq_some_iff.1 h
  exact Token.ne_of_fault? hfault

theorem render_of_mixed {token : Token} (hkind : t.kind = .text)
    (hmarkers : 0 < t.tokens.countP Token.isPositional)
    (hfind : t.tokens.find? Token.isNamed = some token) :
    t.render p o = .error (.ambiguousStyle
      (.mixed (t.tokens.countP Token.isPositional) token.source)) := by
  refine render_of_checkStyle_eq_error hkind ?_
  simp only [checkStyle_eq, if_neg (Nat.ne_of_gt hmarkers), hfind]

theorem render_of_count (hkind : t.kind = .text)
    (hmarkers : 0 < t.tokens.countP Token.isPositional)
    (hnamed : ∀ token ∈ t.tokens, token.isNamed = false)
    (hsize : p.size ≠ t.tokens.countP Token.isPositional) :
    t.render p o =
      .error (.input (.positionalCount (t.tokens.countP Token.isPositional) p.size)) := by
  refine render_of_checkStyle_eq_error hkind ?_
  simp only [checkStyle_eq, if_neg (Nat.ne_of_gt hmarkers), find?_isNamed_eq_none_iff.2 hnamed,
    if_neg hsize.symm]

/-- **When rendering fails, and with which error.**  Positional and named tokens do not go
together, whether or not the names are bound.  Otherwise, if there are positional tokens, there must
be one for each parameter, and the error has both numbers.  Otherwise a template is rendered if the
literal tokens name single values that have a text, and no list stands for a positional token; if
not, the first token with a fault gives the error, and it is never that a parameter is missing.  If
there are positional tokens, only the literal ones are replaced, and all parameters are bound in
their order. -/
theorem render_refuses {text : String} {flags : Flags} (hkind : (parse text flags).kind = .text)
    (p : Params) (o : Options) :
    let t := parse text flags
    let markers := t.tokens.countP Token.isPositional
    ((∃ fault, t.render p o = .error (.ambiguousStyle fault)) ↔
        0 < markers ∧ ∃ token ∈ t.tokens, token.isNamed = true) ∧
      (∀ token, 0 < markers → t.tokens.find? Token.isNamed = some token →
        t.render p o = .error (.ambiguousStyle (.mixed markers token.source))) ∧
      (0 < markers → (∀ token ∈ t.tokens, token.isNamed = false) → p.size ≠ markers →
        t.render p o = .error (.input (.positionalCount markers p.size))) ∧
      ((0 < markers → (∀ token ∈ t.tokens, token.isNamed = false) ∧ p.size = markers) →
        ((∃ r, t.render p o = .ok r) ↔
          (∀ token ∈ t.tokens, token.kind = .literal →
            ∃ v, p.get? token.name = some (.scalar v) ∧ v.isLiteral = true) ∧
          (0 < markers → ∀ entry ∈ p.entries, entry.2.isList = false)) ∧
        ∀ e, t.render p o = .error e ↔ Token.FirstFault p t.tokens e) ∧
      t.render p o ≠ .error (.input .missingPositional) ∧
      ∀ r, t.render p o = .ok r → 0 < markers →
        Text.bytes r.sql = Token.splice (Token.literalText? p) (Text.bytes text) 0 t.tokens ∧
          r.bindings.map (fun b => (b.1, ParamValue.scalar b.2)) = p.entries := by
  intro t markers
  -- the errors of templates whose placeholders do not fit the parameters
  have hstyles : t.checkStyle p = .ok () ∨
      (0 < markers ∧ ∃ token ∈ t.tokens, token.isNamed = true) ∨
      t.render p o = .error (.input (.positionalCount markers p.size)) := by
    by_cases hnamed : ∃ token ∈ t.tokens, token.isNamed = true
    · rcases Nat.eq_zero_or_pos markers with hzero | hmarkers
      · exact .inl (checkStyle_eq_ok_iff.2 fun h => absurd hzero (Nat.ne_of_gt h))
      · exact .inr (.inl ⟨hmarkers, hnamed⟩)
    · have hnamed : ∀ token ∈ t.tokens, token.isNamed = false := fun token htoken =>
        Bool.eq_false_iff.2 fun h => hnamed ⟨token, htoken, h⟩
      by_cases hfits : 0 < markers → p.size = markers
      · exact .inl (checkStyle_eq_ok_iff.2 fun h => ⟨hnamed, hfits h⟩)
      · obtain ⟨hmarkers, hsize⟩ := Classical.not_imp.1 hfits
        exact .inr (.inr (render_of_count hkind hmarkers hnamed hsize))
  have hmixed : 0 < markers ∧ (∃ token ∈ t.tokens, token.isNamed = true) →
      ∃ token : Token, t.render p o = .error (.ambiguousStyle (.mixed markers token.source)) := by
    rintro ⟨hmarkers, hnamed⟩
    obtain ⟨token, hfind⟩ := Option.isSome_iff_exists.1 (List.find?_isSome.2 hnamed)
    exact ⟨token, render_of_mixed hkind hmarkers hfind⟩
  refine ⟨⟨?_, fun h => (hmixed h).imp' _ fun _ => id⟩, fun _ => render_of_mixed hkind,
    render_of_count hkind, fun hfits => ?_, ?_, fun r h hmarkers => ?_⟩
  · rintro ⟨fault, h⟩
    rcases hstyles with hstyle | hmixed | hcount
    · exact absurd rfl ((ne_of_render hkind hstyle h).1 fault)
    · exact hmixed
    · cases h.symm.trans hcount
  · have hstyle := checkStyle_eq_ok_iff.2 hfits
    refine ⟨exists_render_iff hkind hstyle, fun e => ?_⟩
    rw [Token.firstFault_iff, ← errorOf?_render hkind hstyle, errorOf?_eq_some]
  · intro h
    rcases hstyles with hstyle | hnamed | hcount
    · exact (ne_of_render hkind hstyle h).2 rfl
    · obtain ⟨token, herror⟩ := hmixed hnamed
      cases h.symm.trans herror
    · cases h.symm.trans hcount
  · obtain ⟨-, hstyle, -⟩ := exists_parts_of_render hkind h
    have hnamed := (checkStyle_eq_ok_iff.1 hstyle hmarkers).1
    refine ⟨?_, entries_of_render hkind hmarkers h⟩
    rw [bytes_sql hkind h]
    exact Token.splice_congr (fun token htoken =>
      Token.replacement?_of_not_isNamed (hnamed token htoken)) _ _

/-- Two question marks and a literal token between them, which names a text, and then a number. -/
theorem render_refuses_of_text :
    let text := "select ?, {=n}, '?@x' where é = ?"
    let t := parse text .default
    let p := (Params.empty.bind "a" .null).bind "n" (.text "x")
    let p' := p.bind "n" (.signed (-3))
    t.render p .default = .error (.unsupportedLiteral "n" "text") ∧
      ∃ r, t.render p' .default = .ok r ∧
        Text.bytes r.sql = Token.splice (Token.literalText? p') (Text.bytes text) 0 t.tokens ∧
          r.bindings.map (fun b => (b.1, ParamValue.scalar b.2)) = p'.entries := by
  intro text t p p'
  have hkind : t.kind = .text := by decide +kernel
  have hmarkers : 0 < t.tokens.countP Token.isPositional := by decide +kernel
  have hfits : (∀ token ∈ t.tokens, token.isNamed = false) ∧
      p.size = t.tokens.countP Token.isPositional := by decide +kernel
  have hfault : Token.firstFault? p 0 t.tokens = some (.unsupportedLiteral "n" "text") := by
    decide +kernel
  have hok : (t.render p' .default).toOption.isSome = true := by decide +kernel
  obtain ⟨-, -, -, hoffence, -⟩ := render_refuses hkind p .default
  obtain ⟨-, -, -, -, -, hbound⟩ := render_refuses hkind p' .default
  obtain ⟨r, hr⟩ := exists_eq_ok hok
  exact ⟨((hoffence fun _ => hfits).2 _).2 (Token.firstFault_iff.2 hfault), r, hr,
    hbound r hr hmarkers⟩

end Template

end RowMapping
