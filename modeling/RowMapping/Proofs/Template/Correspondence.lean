import RowMapping.Proofs.Template.Statement

/-!
# Placeholders and bindings correspond

The text of a statement is the text of its template with the spans of some tokens replaced, byte by
byte, and its bindings are those of the tokens that are the first to name a parameter.

* `Template.bytes_sql`: only lists and literal tokens are replaced, all other bytes stay in order;
* `Template.bindings_eq_flatMap`: what is bound, and by which token;
* `Template.placeholders_correspond`: both, for a template without positional placeholders.
-/

namespace RowMapping

theorem Params.get?_congr (p : Params) {a b : String} (h : Text.sameName a b) :
    p.get? a = p.get? b := by
  simp only [get?, Text.sameName, Text.sameName_iff.1 h]

/-! ### Bytes of texts -/

/-- The bytes of a text in UTF-8. -/
def Text.bytes (s : String) : List UInt8 := s.toUTF8.data.toList

/-- The bytes of characters in UTF-8. -/
def Text.encode (cs : List Char) : List UInt8 := cs.flatMap String.utf8EncodeChar

theorem Text.bytes_ofList (cs : List Char) : Text.bytes (String.ofList cs) = Text.encode cs := by
  rw [bytes, String.toUTF8_eq_toByteArray, String.toByteArray_ofList, List.utf8Encode,
    List.data_toByteArray, encode]

theorem Text.bytes_eq_encode (s : String) : Text.bytes s = Text.encode s.toList := by
  rw [← Text.bytes_ofList, String.ofList_toList]

theorem Text.encode_flatMap (f : Piece → List Char) (ps : List Piece) :
    Text.encode (ps.flatMap f) = ps.flatMap fun piece => Text.encode (f piece) :=
  List.flatMap_assoc

theorem Piece.length_encode_text (piece : Piece) :
    (Text.encode piece.text).length = piece.byteSize := by
  unfold byteSize Text.encode
  induction piece.text with
  | nil => rfl
  | cons c cs ih =>
    rw [List.flatMap_cons, List.length_append, ih, String.length_utf8EncodeChar]
    rfl

/-- The elements from `start` up to, and without, `stop`. -/
def slice {α : Type} (xs : List α) (start stop : Nat) : List α := (xs.take stop).drop start

theorem slice_append {α : Type} (pre mid post : List α) :
    slice (pre ++ mid ++ post) pre.length (pre ++ mid).length = mid := by
  rw [slice, List.take_left, List.drop_left]

/-! ### Replacing tokens -/

namespace Token

/-- The name of the placeholder for one element of a list. -/
def elementName (name : String) (i : Nat) : String := name ++ "_" ++ Text.natText i

/-- The placeholders for a list: one for each element up to the padded length, with the separator
between them.  An empty list has a text of its own, whose brackets are left out where the template
has them. -/
def listText (o : Options) (marker : Char) (name : String) (brackets : Bool) (vs : List Value) :
    List Char :=
  if vs = [] then
    if brackets then o.emptyList.toList else Part.withoutBrackets o.emptyList.toList
  else
    let inner := o.separator.toList.intercalate <|
      (List.range (Part.paddedLength o vs.length)).map fun i =>
        marker :: (elementName name i).toList
    if brackets then '(' :: inner ++ [')'] else inner

/-- What comes in the place of a token.  A list takes the place of a named one, with brackets after
the keyword `IN`, and the text of its value that of a literal one.  Every other token stays as it
is written. -/
def replacement? (p : Params) (o : Options) (token : Token) : Option (List Char) :=
  match token.kind, p.get? token.name with
  | .named, some (.list vs) => some (listText o token.marker token.name false vs)
  | .listExpansion, some (.list vs) => some (listText o token.marker token.name true vs)
  | .literal, some (.scalar v) =>
    ((Template.literalText token.name v).map String.toList).toOption
  | _, _ => none

/-- The token names a parameter that is bound. -/
def isBound (p : Params) (token : Token) : Bool :=
  (token.kind == .named || token.kind == .listExpansion) && (p.get? token.name).isSome

/-- The tokens that are the first to name a parameter that is bound. -/
def firstUses (p : Params) (tokens : List Token) : List Token :=
  (tokens.filter (isBound p)).eraseDupsBy fun a b => Text.sameName a.name b.name

/-- What a token binds: the value under the name as it is spelled, or the elements of a list up to
the padded length, the last one repeated. -/
def bindings (p : Params) (o : Options) (token : Token) : List (String × Value) :=
  match p.get? token.name with
  | some (.scalar v) => [(token.name, v)]
  | some (.list []) | none => []
  | some (.list vs) =>
    (List.range (Part.paddedLength o vs.length)).map fun i =>
      (elementName token.name i, vs.getD (min i (vs.length - 1)) .null)

/-- The bytes from `done` on, each token's span replaced if there is something to replace it. -/
def splice (replace : Token → Option (List Char)) (bytes : List UInt8) :
    (done : Nat) → List Token → List UInt8
  | done, [] => bytes.drop done
  | done, token :: tokens =>
    slice bytes done token.start ++
      ((replace token).map Text.encode).getD (slice bytes token.start token.stop) ++
        splice replace bytes token.stop tokens

/-- The tokens of pieces are spliced piece by piece.  The bytes before the pieces are `before` and
`kept`, and those of `kept` are not copied yet. -/
theorem splice_ofPieces (replace : Token → Option (List Char)) (put : Piece → List Char)
    (hput : ∀ piece kind name start stop, kindAndName? piece = some (kind, name) →
      (replace ⟨kind, start, stop, String.ofList name, String.ofList piece.text⟩).getD piece.text =
        put piece)
    (hkept : ∀ piece, kindAndName? piece = none → put piece = piece.text)
    (before kept : List UInt8) (ps : List Piece) :
    splice replace (before ++ kept ++ ps.flatMap fun piece => Text.encode piece.text)
        before.length (ofPieces (before ++ kept).length ps) =
      kept ++ ps.flatMap fun piece => Text.encode (put piece) := by
  induction ps generalizing before kept with
  | nil =>
    simp only [ofPieces, splice, List.flatMap_nil, List.append_nil, List.drop_left]
  | cons piece ps ih =>
    have hstop : (before ++ kept).length + piece.byteSize =
        (before ++ kept ++ Text.encode piece.text).length := by
      simp only [List.length_append, Piece.length_encode_text]
    simp only [ofPieces, List.flatMap_cons, hstop]
    cases hkind : kindAndName? piece with
    | none =>
      have ih := ih before (kept ++ Text.encode piece.text)
      simp only [hkept piece hkind, ← List.append_assoc] at ih ⊢
      exact ih
    | some kindAndName =>
      obtain ⟨kind, name⟩ := kindAndName
      have ih := ih (before ++ kept ++ Text.encode piece.text) []
      simp only [List.append_nil, List.nil_append, List.append_assoc] at ih
      have hbefore := slice_append before kept
        (Text.encode piece.text ++ ps.flatMap fun piece => Text.encode piece.text)
      have hpiece := slice_append (before ++ kept) (Text.encode piece.text)
        (ps.flatMap fun piece => Text.encode piece.text)
      simp only [List.append_assoc] at hbefore hpiece ⊢
      simp only [splice, hbefore, hpiece, ih, Option.getD_map, hput piece kind name _ _ hkind,
        List.append_assoc]

end Token

/-! ### The text -/

namespace Template

variable {p : Params} {o : Options} {r : Rendered}

theorem ofList_elementName (name : List Char) (i : Nat) :
    String.ofList (Part.elementName name i) = Token.elementName (String.ofList name) i := by
  rw [Token.elementName, Text.natText, ← String.toList_inj]
  simp only [Part.elementName, String.toList_append, String.toList_ofList, List.append_assoc]
  rfl

theorem text_expanded (marker : Char) (name : List Char) (brackets : Bool) (vs : List Value) :
    (Part.expanded marker name brackets vs).text o =
      Token.listText o marker (String.ofList name) brackets vs := by
  cases vs <;> simp only [Part.text, Token.listText, Part.elementsText, ← ofList_elementName,
    String.toList_ofList] <;> rfl

theorem marker_named (kind : TokenKind) (start stop : Nat) (name : String) (marker : Char)
    (cs : List Char) :
    Token.marker ⟨kind, start, stop, name, String.ofList (marker :: cs)⟩ = marker := by
  rw [Token.marker, String.toList_ofList, List.headD_cons]

theorem getD_replacement? {piece : Piece} {kind : TokenKind} {name : List Char} {start stop : Nat}
    (h : Token.kindAndName? piece = some (kind, name)) :
    (Token.replacement? p o ⟨kind, start, stop, String.ofList name, String.ofList piece.text⟩).getD
      piece.text = written p o piece := by
  cases piece with
  | positional => cases h; rfl
  | literal =>
    cases h
    simp only [Token.replacement?, written, literalChars?]
    cases p.get? (String.ofList name) with
    | none => rfl
    | some v => cases v <;> rfl
  | named marker _ afterIn =>
    cases h
    simp only [Token.replacement?, written, resolveNamed]
    cases p.get? (String.ofList name) with
    | none => cases afterIn <;> rfl
    | some v =>
      cases v with
      | scalar v => cases afterIn <;> rfl
      | list vs =>
        simp only [text_expanded, Piece.text, marker_named]
        cases afterIn <;> rfl
  | code | quoted | comment | system => cases h

theorem pieces_parse {text : String} {flags : Flags} (hkind : (parse text flags).kind = .text) :
    (parse text flags).pieces = scan flags text.toList := by
  simp only [parse] at hkind ⊢
  rw [if_pos hkind]

/-- **Only lists and literal tokens are replaced.**  All other bytes of a template are those of its
statement, in order. -/
theorem bytes_sql {text : String} {flags : Flags} (hkind : (parse text flags).kind = .text)
    (h : (parse text flags).render p o = .ok r) :
    Text.bytes r.sql = Token.splice (Token.replacement? p o) (Text.bytes text) 0
      (parse text flags).tokens := by
  have htext : Text.bytes text =
      (parse text flags).pieces.flatMap fun piece => Text.encode piece.text := by
    rw [Text.bytes_eq_encode, pieces_parse hkind, ← Text.encode_flatMap, text_scan]
  have hsplice := Token.splice_ofPieces (Token.replacement? p o) (written p o)
    (fun _ _ _ _ _ hpiece => getD_replacement? hpiece)
    (fun _ hpiece => written_of_kindAndName? hpiece) [] [] (parse text flags).pieces
  simp only [List.nil_append, List.length_nil] at hsplice
  rw [Text.bytes_eq_encode r.sql, toList_sql hkind h, Text.encode_flatMap, htext, tokens, hsplice]

/-! ### The bindings -/

theorem le_paddedLength (o : Options) (n : Nat) : n ≤ Part.paddedLength o n := by
  unfold Part.paddedLength
  split <;> omega

theorem map_zipIdx_padded {vs : List Value} (hvs : vs ≠ []) {count : Nat} (h : vs.length ≤ count)
    (name : Nat → String) :
    ((Part.padded vs count).zipIdx.map fun e => (name e.2, e.1)) =
      (List.range count).map fun i => (name i, vs.getD (min i (vs.length - 1)) .null) := by
  have hpos := List.length_pos_iff.2 hvs
  have hlength : (Part.padded vs count).length = count := by
    rw [Part.padded, List.length_append, List.length_replicate, Nat.add_sub_cancel' h]
  refine List.ext_getElem (by simp only [List.length_map, List.length_zipIdx, hlength,
    List.length_range]) fun i hi _ => ?_
  simp only [List.getElem_map, List.getElem_zipIdx, List.getElem_range, Nat.zero_add, Part.padded,
    List.getElem_append, List.getElem_replicate, Prod.mk.injEq, true_and]
  rw [List.getD_eq_getElem?_getD, List.getElem?_eq_getElem (by omega), Option.getD_some]
  split
  · next hlt => simp only [Nat.min_eq_left (Nat.le_sub_one_of_lt hlt)]
  · next hlt =>
    have hlast : vs.length - 1 ≤ i := by omega
    rw [List.getLastD_eq_getLast?, List.getLast?_eq_some_getLast hvs, Option.getD_some,
      List.getLast_eq_getElem]
    simp only [Nat.min_eq_right hlast]

/-- The part binds what the token does, under the name of the token. -/
def BindsAs (p : Params) (o : Options) (part : Part) (token : Token) : Prop :=
  part.key? = some (Text.fold token.name) ∧ part.bindings o = token.bindings p o

theorem bindsAs_scalar {marker : Char} {name : List Char} {v : Value} {token : Token}
    (hname : token.name = String.ofList name) (hget : p.get? token.name = some (.scalar v)) :
    BindsAs p o (.scalar marker name v) token := by
  constructor
  · rw [hname, Text.fold, String.toList_ofList, Part.key?]
  · rw [Token.bindings, hget, Part.bindings, hname]

theorem bindsAs_expanded {marker : Char} {name : List Char} {brackets : Bool} {vs : List Value}
    {token : Token} (hname : token.name = String.ofList name)
    (hget : p.get? token.name = some (.list vs)) :
    BindsAs p o (.expanded marker name brackets vs) token := by
  constructor
  · rw [hname, Text.fold, String.toList_ofList, Part.key?]
  · cases vs with
    | nil => rw [Token.bindings, hget]; rfl
    | cons v vs =>
      simp only [Token.bindings, hget]
      simp only [Part.bindings, List.isEmpty_cons, Bool.false_eq_true, if_false, hname,
        ← ofList_elementName]
      exact map_zipIdx_padded (List.cons_ne_nil v vs) (le_paddedLength o _)
        fun i => String.ofList (Part.elementName name i)

theorem forall₂_bindsAs {ps : List Piece} {parts : List Part}
    (h : List.Forall₂ (Resolves p) ps parts) (start : Nat) :
    List.Forall₂ (BindsAs p o) (parts.filter fun part => part.key?.isSome)
      ((Token.ofPieces start ps).filter (Token.isBound p)) := by
  induction h generalizing start with
  | nil => exact .nil
  | @cons piece part ps parts hpart _ ih =>
    have ih := ih (start + piece.byteSize)
    cases hpart with
    | positional | literal => exact ih
    | kept hkind =>
      simp only [Token.ofPieces, hkind]
      exact ih
    | named marker name afterIn =>
      cases hget : p.get? (String.ofList name) with
      | none =>
        simpa only [Token.ofPieces, Token.kindAndName?, resolveNamed, hget, List.filter_cons,
          Token.isBound, Option.isSome_none, Bool.and_false, Bool.false_eq_true, if_false,
          Part.key?] using ih
      | some v =>
        have hbound (start stop : Nat) (source : String) :
            Token.isBound p ⟨if afterIn then .listExpansion else .named, start, stop,
              String.ofList name, source⟩ = true := by
          simp only [Token.isBound, hget, Option.isSome_some, Bool.and_true]
          cases afterIn <;> rfl
        simp only [Token.ofPieces, Token.kindAndName?, resolveNamed, hget]
        rw [List.filter_cons_of_pos (hbound _ _ _)]
        cases v with
        | scalar v => exact .cons (bindsAs_scalar rfl hget) ih
        | list vs => exact .cons (bindsAs_expanded rfl hget) ih

theorem bindings_eq_nil_of_resolves {ps : List Piece} {parts : List Part}
    (h : List.Forall₂ (Resolves p) ps parts) (hpositional : .positional ∉ ps) :
    ∀ part ∈ parts, part.key? = none → part.bindings o = [] := by
  induction h with
  | nil => exact fun _ h => nomatch h
  | @cons piece part ps parts hpart _ ih =>
    have hrest := fun hmem => hpositional (List.mem_cons_of_mem piece hmem)
    refine List.forall_mem_cons.2 ⟨fun hkey => ?_, ih hrest⟩
    cases hpart with
    | positional => exact absurd List.mem_cons_self hpositional
    | literal | kept => rfl
    | named marker name afterIn =>
      unfold resolveNamed at hkey ⊢
      split <;> simp_all [Part.key?, Part.bindings]

/-- **What is bound.**  Without positional placeholders, the bindings of a statement are those of
the tokens that are the first to name a bound parameter. -/
theorem bindings_eq_flatMap {t : Template} (hkind : t.kind = .text)
    (hpositional : ∀ token ∈ t.tokens, token.kind ≠ .positional) (h : t.render p o = .ok r) :
    r.bindings = (Token.firstUses p t.tokens).flatMap (Token.bindings p o) := by
  obtain ⟨parts, -, hparts, rfl⟩ := exists_parts_of_render hkind h
  have hresolves := resolves_of_resolve hparts
  have hpieces : .positional ∉ t.pieces := fun hmem => by
    obtain ⟨token, htoken, hkind, -⟩ := Token.exists_mem_ofPieces hmem rfl 0
    exact hpositional token htoken hkind
  have hfirst : List.Forall₂ (BindsAs p o) _ (Token.firstUses p t.tokens) :=
    forall₂_eraseDupsBy (r := fun a b => a.key? == b.key?)
      (fun a b c d hab hcd => by rw [hab.1, hcd.1]; rfl) (forall₂_bindsAs hresolves 0)
  have hbindings := List.rel_flatMap hfirst fun _ _ h => List.forall₂_eq_eq_eq ▸ h.2
  rw [List.forall₂_eq_eq_eq] at hbindings
  rw [Part.allBindings_eq_flatMap o (bindings_eq_nil_of_resolves hresolves hpieces)]
  exact hbindings

/-- **Placeholders and bindings correspond.**  Without positional placeholders, a statement is its
template in which lists and literal tokens are replaced, byte by byte, and it binds what the tokens
do that are the first to name a bound parameter.  Tokens of one name, in any case, stand for the
same value, so that a list has as many placeholders wherever it comes. -/
theorem placeholders_correspond {text : String} {flags : Flags}
    (hkind : (parse text flags).kind = .text)
    (hpositional : ∀ token ∈ (parse text flags).tokens, token.kind ≠ .positional)
    (h : (parse text flags).render p o = .ok r) :
    Text.bytes r.sql = Token.splice (Token.replacement? p o) (Text.bytes text) 0
        (parse text flags).tokens ∧
      (∀ a ∈ (parse text flags).tokens, ∀ b ∈ (parse text flags).tokens,
        Text.sameName a.name b.name → p.get? a.name = p.get? b.name) ∧
      r.bindings =
        (Token.firstUses p (parse text flags).tokens).flatMap (Token.bindings p o) :=
  ⟨bytes_sql hkind h, fun _ _ _ _ hname => p.get?_congr hname,
    bindings_eq_flatMap hkind hpositional h⟩

/-- A name that comes in two spellings, a list that comes twice and is filled up, an empty list, a
literal token and a name that is not bound. -/
theorem placeholders_correspond_of_lists :
    let text := "select {=n}, 'é@a', @A, @a where x in @xs or y in (@XS, @no) or z in @es"
    let o : Options := { Options.default with flags.padLists := true, paddingThreshold := 2 }
    let p := (((Params.empty.bind "a" .null).bindList "xs" [.signed 1, .bool true]).bindList "es"
      []).bind "n" (.signed (-3))
    let t := parse text .default
    ∃ r, t.render p o = .ok r ∧
      Text.bytes r.sql = Token.splice (Token.replacement? p o) (Text.bytes text) 0 t.tokens ∧
        (∀ a ∈ t.tokens, ∀ b ∈ t.tokens, Text.sameName a.name b.name →
          p.get? a.name = p.get? b.name) ∧
        r.bindings = (Token.firstUses p t.tokens).flatMap (Token.bindings p o) := by
  intro text o p t
  have hkind : t.kind = .text := by decide +kernel
  have hpositional : ∀ token ∈ t.tokens, token.kind ≠ .positional := by decide +kernel
  have hok : (t.render p o).toOption.isSome = true := by decide +kernel
  obtain ⟨r, h⟩ := exists_eq_ok hok
  exact ⟨r, h, placeholders_correspond hkind hpositional h⟩

end Template

end RowMapping
