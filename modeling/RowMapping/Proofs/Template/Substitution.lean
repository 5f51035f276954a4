import RowMapping.Proofs.Template.Touching

/-!
# Putting in the texts of literal tokens

A literal token is replaced by the text of its value.  Where that does not touch what is next to
it, the rest of the statement is read as in the template.

* `Template.LiteralsApart.atomsFrom_put`: all other characters are read as in the template;
* `Template.ofPieces_putAtoms`: the tokens move by what is put in and taken out before them;
* `Template.sql_reads_as_template`: both, for a template that is rendered with single values.
-/

namespace RowMapping

namespace Template

variable {lit : List Char → List Char} {left right pieces : List Piece} {piece : Piece}

/-! ### The reading of a statement -/

/-- How a piece is read in the statement. -/
def putAtoms (lit : List Char → List Char) : Piece → List Piece
  | .literal name => literalAtoms (lit name)
  | piece => piece.atoms

theorem flatMap_put_eq_nil (h : LiteralsApart lit pieces)
    (hpieces : pieces = left.reverse ++ right) (hnil : right.flatMap Piece.text = []) :
    right.flatMap (put lit) = [] := by
  cases right with
  | nil => rfl
  | cons piece right =>
    have hmem : piece ∈ pieces := hpieces ▸ List.mem_append_right _ List.mem_cons_self
    exact absurd (List.append_eq_nil_iff.1 hnil).1 (h.text_ne_nil piece hmem)

theorem readAs_put {flags : Flags} (h : LiteralsApart lit pieces)
    (hpieces : pieces = left.reverse ++ piece :: right)
    (hscan : scanFrom flags (backwards Piece.text left) ((piece :: right).flatMap Piece.text) =
      piece :: right)
    (hkind : Token.kindAndName? piece = none) :
    ReadAs flags (backwards (put lit) left) piece.text piece.atoms (right.flatMap (put lit)) := by
  obtain ⟨hreads, hright⟩ := reads_of_scanFrom_eq hscan
  have hnext := eq_reverse_cons_append hpieces
  cases piece with
  | quoted | comment =>
    exact readAs_of_isHidden hreads rfl (flatMap_put_eq_nil h hnext)
  | system marker name =>
    cases hreads with
    | system hmarker hname => exact readAs_system hmarker hname
  | code c =>
    cases hreads with
    | code hcode => exact readAs_of_reads (.code (standsAlone_put h hpieces hcode hright))
  | positional | named | literal => cases hkind

/-- A placeholder other than a literal token is read in the statement as in the template. -/
theorem reads_put {flags : Flags} (h : LiteralsApart lit pieces)
    (hpieces : pieces = left.reverse ++ piece :: right)
    (hpiece : piece.isNamed = true ∨ piece.isPositional = true)
    (hreads : Reads flags (backwards Piece.text left) piece (right.flatMap Piece.text)) :
    Reads flags (backwards (put lit) left) piece (right.flatMap (put lit)) := by
  cases hreads with
  | named hmarker hbefore hstart hname hrest =>
    have hbefore' := any_left_put h hpiece hpieces likeWord_isWord hbefore
    have hrest' := any_right_put h hpiece hpieces likeWord_isWord hrest
    rw [← followsIn_put h hpieces hmarker hstart]
    exact .named hmarker hbefore' hstart hname hrest'
  | positional hflag hbefore hrest =>
    exact .positional hflag (any_left_put h hpiece hpieces likeWord_joinsQuestionMark hbefore)
      (any_right_put h hpiece hpieces likeWord_joinsQuestionMark hrest)
  | quoted | line | block | system | literal | code => rcases hpiece with h | h <;> cases h

/-- **Where no literal text touches anything, all is read as in the template.**  The induction is on
the pieces that are still to come; the scanner is at the same piece of the template and of the
statement. -/
theorem LiteralsApart.atomsFrom_put {flags : Flags} (h : LiteralsApart lit pieces)
    (hpieces : pieces = left.reverse ++ right)
    (hscan : scanFrom flags (backwards Piece.text left) (right.flatMap Piece.text) = right) :
    atomsFrom flags (backwards (put lit) left) (right.flatMap (put lit)) =
      right.flatMap (putAtoms lit) := by
  induction right generalizing left with
  | nil => rw [atomsFrom, List.flatMap_nil, scanFrom]; rfl
  | cons piece right ih =>
    obtain ⟨hreads, hright⟩ := reads_of_scanFrom_eq hscan
    have hread : ReadAs flags (backwards (put lit) left) (put lit piece) (putAtoms lit piece)
        (right.flatMap (put lit)) := by
      cases piece with
      | literal name =>
        exact readAs_literal
          (h.isLiteral name (hpieces ▸ List.mem_append_right _ List.mem_cons_self))
      | positional => exact readAs_of_reads (reads_put h hpieces (.inr rfl) hreads)
      | named => exact readAs_of_reads (reads_put h hpieces (.inl rfl) hreads)
      | code | quoted | comment | system => exact readAs_put h hpieces hscan rfl
    exact hread.trans (congrArg _ (ih (eq_reverse_cons_append hpieces) hright))

theorem LiteralsApart.atoms_scan {flags : Flags} (h : LiteralsApart lit pieces)
    (hscan : scan flags (pieces.flatMap Piece.text) = pieces) :
    (scan flags (pieces.flatMap (put lit))).flatMap Piece.atoms =
      pieces.flatMap (putAtoms lit) := by
  have hpieces : pieces = ([] : List Piece).reverse ++ pieces := rfl
  exact h.atomsFrom_put hpieces hscan

/-! ### The tokens of a statement -/

/-- Tokens without the literal ones, in the places that they have when texts are put in for these.
`added` bytes have been put in so far, and `removed` bytes taken out. -/
def replaceLiterals (lit : List Char → List Char) : (added removed : Nat) → List Token → List Token
  | _, _, [] => []
  | added, removed, token :: tokens =>
    if token.kind = .literal then
      replaceLiterals lit (added + Text.byteCount (lit token.name.toList))
        (removed + (token.stop - token.start)) tokens
    else
      { token with
        start := token.start + added - removed
        stop := token.stop + added - removed } :: replaceLiterals lit added removed tokens

theorem ofPieces_literalAtoms_append (s : List Char) (ps : List Piece) (start : Nat) :
    Token.ofPieces start (literalAtoms s ++ ps) =
      Token.ofPieces (start + Text.byteCount s) ps := by
  unfold literalAtoms
  split <;> exact Token.ofPieces_map_append (fun _ => rfl) (fun _ => rfl) s ps start

/-- The tokens that are read are those of the template other than the literal ones. -/
theorem ofPieces_putAtoms (lit : List Char → List Char) (ps : List Piece)
    {start start' added removed : Nat} (h : start' + removed = start + added) :
    Token.ofPieces start' (ps.flatMap (putAtoms lit)) =
      replaceLiterals lit added removed (Token.ofPieces start ps) := by
  induction ps generalizing start start' added removed with
  | nil => rfl
  | cons piece ps ih =>
    have hmoved : start' + piece.byteSize + removed = start + piece.byteSize + added := by omega
    rw [List.flatMap_cons]
    -- a placeholder that stays moves by what was put in and taken out before it
    have hkept {kind : TokenKind} {name : List Char}
        (hkind : Token.kindAndName? piece = some (kind, name)) (hliteral : kind ≠ .literal) :
        Token.ofPieces start' (piece.atoms ++ ps.flatMap (putAtoms lit)) =
          replaceLiterals lit added removed (Token.ofPieces start (piece :: ps)) := by
      have hstart : start + added - removed = start' := by omega
      have hstop : start + piece.byteSize + added - removed = start' + piece.byteSize := by omega
      simp only [Token.ofPieces_atoms_append, Token.ofPieces, hkind, replaceLiterals,
        if_neg hliteral, hstart, hstop, ih hmoved]
    cases piece with
    | literal name =>
      have hsize : start + (Piece.literal name).byteSize - start = (Piece.literal name).byteSize :=
        Nat.add_sub_cancel_left start _
      have hput : start' + Text.byteCount (lit name) + (removed + (Piece.literal name).byteSize) =
          start + (Piece.literal name).byteSize + (added + Text.byteCount (lit name)) := by omega
      rw [putAtoms, ofPieces_literalAtoms_append, ih hput]
      simp only [Token.ofPieces, Token.kindAndName?, replaceLiterals, if_true,
        String.toList_ofList, hsize]
    | positional => exact hkept rfl (by decide)
    | named marker name afterIn => exact hkept rfl (by cases afterIn <;> decide)
    | code | quoted | comment | system =>
      simp only [putAtoms, Token.ofPieces_atoms_append, Token.ofPieces, Token.kindAndName?]
      exact ih hmoved

/-! ### Templates that are rendered -/

/-- The characters that take the place of a literal token, by its name. -/
def literalTexts (p : Params) (name : List Char) : List Char :=
  (literalChars? p (String.ofList name)).getD []

variable {p : Params} {o : Options} {r : Rendered} {text : String} {flags : Flags}

theorem exists_mem_of_get? {name : String} {v : ParamValue} (h : p.get? name = some v) :
    ∃ e ∈ p.entries, e.2 = v := by
  obtain ⟨e, he, rfl⟩ := Option.map_eq_some_iff.1 h
  exact ⟨e, List.mem_of_find?_eq_some he, rfl⟩

/-- With single values only, a named placeholder stays as it was written. -/
theorem text_resolveNamed (hsingle : ∀ e ∈ p.entries, e.2.isList = false) (marker : Char)
    (name : List Char) (afterIn : Bool) :
    (resolveNamed p marker name afterIn).text o = marker :: name := by
  unfold resolveNamed
  split
  · rfl
  · rfl
  · rename_i hget
    obtain ⟨e, he, hlist⟩ := exists_mem_of_get? hget
    have hnot := hsingle e he
    rw [hlist] at hnot
    cases hnot

/-- With single values only, a statement is its template with the texts of literal tokens put
in. -/
theorem toList_sql_of_single (hsingle : ∀ e ∈ p.entries, e.2.isList = false)
    (hkind : (parse text flags).kind = .text) (h : (parse text flags).render p o = .ok r) :
    r.sql.toList = (parse text flags).pieces.flatMap (put (literalTexts p)) := by
  rw [toList_sql hkind h]
  refine List.flatMap_congr fun piece hpiece => ?_
  cases piece with
  | literal name =>
    obtain ⟨v, s, hv, hs⟩ := exists_literalText_of_render hkind h hpiece
    rw [written, put, literalTexts, literalChars?_of_literalText hv hs]
    rfl
  | named marker name afterIn => exact text_resolveNamed hsingle marker name afterIn
  | _ => rfl

/-- **Literal texts do not change how the rest of a statement is read**, as long as they do not
touch what is next to them.  With single values only, the tokens of a statement are those of its
template other than the literal ones, moved by the bytes that were put in and taken out before
them; and every character that is not put in is code, quoted or in a comment as in the template. -/
theorem sql_reads_as_template (hsingle : ∀ e ∈ p.entries, e.2.isList = false)
    (hkind : (parse text flags).kind = .text) (h : (parse text flags).render p o = .ok r)
    (hapart : literalsApart (literalTexts p) [] (parse text flags).pieces = true) :
    (parse r.sql flags).tokens =
        replaceLiterals (literalTexts p) 0 0 (parse text flags).tokens ∧
      (scan flags r.sql.toList).flatMap Piece.atoms =
        (parse text flags).pieces.flatMap (putAtoms (literalTexts p)) := by
  have hpieces := pieces_parse hkind
  have hliterals : LiteralsApart (literalTexts p) (parse text flags).pieces :=
    { text_ne_nil := fun piece hpiece => by
        rw [hpieces] at hpiece
        obtain ⟨before, rest, hreads⟩ := exists_reads_of_mem_scanFrom hpiece
        exact hreads.text_ne_nil
      isLiteral := fun name hname => by
        obtain ⟨v, s, hv, hs⟩ := exists_literalText_of_render hkind h hname
        rw [literalTexts, literalChars?_of_literalText hv hs]
        exact isLiteral_of_literalText hs
      apart := hapart }
  have hscan : scan flags ((parse text flags).pieces.flatMap Piece.text) =
      (parse text flags).pieces := by
    rw [hpieces, text_scan]
  have hatoms := hliterals.atoms_scan hscan
  rw [← toList_sql_of_single hsingle hkind h] at hatoms
  refine ⟨?_, hatoms⟩
  rw [tokens_parse, ← Token.ofPieces_flatMap_atoms, hatoms]
  exact ofPieces_putAtoms (literalTexts p) _ rfl

/-- A negative number, a null value and an identifier between quotes, next to signs, quotes and
brackets. -/
theorem sql_reads_as_template_of_signs :
    let text := "select ({=n}), 'é'{=g}, 1 -{=k} from t where a = @a and b in @b"
    let p := (((Params.empty.bind "n" (.signed (-5))).bind "g" (.guid .nil)).bind "k" .null).bind
      "a" (.signed 1)
    ∃ r, (parse text .default).render p .default = .ok r ∧
      (parse r.sql .default).tokens =
          replaceLiterals (literalTexts p) 0 0 (parse text .default).tokens ∧
        (scan .default r.sql.toList).flatMap Piece.atoms =
          (parse text .default).pieces.flatMap (putAtoms (literalTexts p)) := by
  intro text p
  have hsingle : ∀ e ∈ p.entries, e.2.isList = false := by decide +kernel
  have hkind : (parse text .default).kind = .text := by decide +kernel
  have hapart : literalsApart (literalTexts p) [] (parse text .default).pieces = true := by
    decide +kernel
  have hok : ((parse text .default).render p .default).toOption.isSome = true := by decide +kernel
  obtain ⟨r, h⟩ := exists_eq_ok hok
  exact ⟨r, h, sql_reads_as_template hsingle hkind h hapart⟩

/-- A number runs into the name before it: the placeholder has another name in the statement. -/
theorem sql_reads_otherwise_of_touching :
    let t := parse "select @a{=n}" .default
    let p := (Params.empty.bind "n" (.signed 5)).bind "a" (.signed 7)
    t.kind = .text ∧ (∀ e ∈ p.entries, e.2.isList = false) ∧
      ∃ r, t.render p .default = .ok r ∧ r.sql = "select @a5" ∧
        (parse r.sql .default).tokens.map Token.name = ["a5"] ∧
        (replaceLiterals (literalTexts p) 0 0 t.tokens).map Token.name = ["a"] := by
  intro t p
  refine ⟨by decide +kernel, by decide +kernel, ⟨"select @a5", [("a", .signed 7)], .text⟩, ?_⟩
  exact ⟨by decide +kernel, rfl, by decide +kernel, by decide +kernel⟩

end Template

end RowMapping
