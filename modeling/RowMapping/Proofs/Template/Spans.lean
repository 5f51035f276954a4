import RowMapping.Proofs.Template.Bytes

/-!
# Where tokens stand

The place of a token is given by two numbers of bytes.  The scanner cuts between characters, so that
both are borders of characters, and no slice that is taken there goes wrong.  What comes before and
behind a token is said in bytes as well: the bytes of a character are of the class that it is of.

* `Token.mem_ofPieces_iff`: the tokens of pieces are the placeholders among them;
* `Template.reads_of_scanFrom_eq_append`: each piece is read between those before and behind it;
* `Template.exists_piece_of_code`: a character of code is in a piece that is not hidden;
* `Template.wellFormed_of_scan_eq`: a placeholder among the pieces of a text is a slice of it, of
  the shape that its kind has;
* `Template.exists_token_of_marker`: no marker in code is passed over.
-/

namespace RowMapping

/-! ### Tokens and pieces -/

namespace Token

open Text (byteCount)

/-- The token of a piece that begins at byte `start`, if the piece is a placeholder. -/
def ofPiece? (start : Nat) (piece : Piece) : Option Token :=
  (kindAndName? piece).map fun e =>
    ⟨e.1, start, start + piece.byteSize, String.ofList e.2, String.ofList piece.text⟩

variable {token : Token} {ps : List Piece} {start : Nat}

theorem ofPieces_cons (start : Nat) (piece : Piece) (ps : List Piece) :
    ofPieces start (piece :: ps) =
      (ofPiece? start piece).toList ++ ofPieces (start + piece.byteSize) ps := by
  rw [ofPieces, ofPiece?]
  cases kindAndName? piece <;> rfl

/-- The tokens of pieces are the placeholders among them, each where its piece is. -/
theorem mem_ofPieces_iff :
    token ∈ ofPieces start ps ↔ ∃ left piece right, ps = left ++ piece :: right ∧
      ofPiece? (start + byteCount (left.flatMap Piece.text)) piece = some token := by
  constructor
  · intro h
    induction ps generalizing start with
    | nil => cases h
    | cons first ps ih =>
      rw [ofPieces_cons, List.mem_append, Option.mem_toList] at h
      rcases h with h | h
      · exact ⟨[], first, ps, rfl, h⟩
      · obtain ⟨left, piece, right, rfl, hpiece⟩ := ih h
        refine ⟨first :: left, piece, right, rfl, ?_⟩
        rw [List.flatMap_cons, Text.byteCount_append, Text.byteCount_text, ← Nat.add_assoc]
        exact hpiece
  · rintro ⟨left, piece, right, rfl, hpiece⟩
    rw [ofPieces_append, ofPieces_cons, hpiece]
    exact List.mem_append_right _ List.mem_cons_self

theorem pairwise_ofPieces (start : Nat) (ps : List Piece) :
    (ofPieces start ps).Pairwise fun a b => a.stop ≤ b.start := by
  induction ps generalizing start with
  | nil => exact .nil
  | cons piece ps ih =>
    rw [ofPieces_cons, List.pairwise_append]
    refine ⟨?_, ih _, fun a ha b hb => ?_⟩
    · cases ofPiece? start piece <;> simp
    · obtain ⟨e, -, rfl⟩ := Option.map_eq_some_iff.1 (Option.mem_toList.1 ha)
      exact (bounds_of_mem_ofPieces hb).1

end Token

namespace Template

open Text (byteCount)

variable {flags : Flags} {before cs : List Char} {left right : List Piece} {piece : Piece}

/-- Each piece of a text is read between the pieces before it and those behind it. -/
theorem reads_of_scanFrom_eq_append (h : scanFrom flags before cs = left ++ piece :: right) :
    Reads flags ((left.flatMap Piece.text).reverse ++ before) piece (right.flatMap Piece.text) :=
  (reads_of_scanFrom_eq (scanFrom_back h)).1

theorem text_of_scan_eq_append (h : scan flags cs = left ++ piece :: right) :
    cs = left.flatMap Piece.text ++ piece.text ++ right.flatMap Piece.text := by
  have hall := text_scan flags cs
  rw [h, List.flatMap_append, List.flatMap_cons, ← List.append_assoc] at hall
  exact hall.symm

/-! ### Characters of code -/

theorem Segmented.text_eq {segments : List Segment} (h : Segmented piece segments) :
    segments.flatMap Segment.text = piece.text := by
  cases h with
  | @region s => rw [List.flatMap_singleton, s.text_piece]
  | code =>
    rw [List.flatMap_map]
    exact List.flatMap_pure_eq_map _ _ |>.trans (List.map_id _)

theorem exists_piece_of_segmented {pieces : List Piece} {parts : List (List Segment)}
    (h : List.Forall₂ Segmented pieces parts) {front back : List Segment} {c : Char}
    (hparts : parts.flatten = front ++ .code c :: back) :
    ∃ left piece right pre post, pieces = left ++ piece :: right ∧ piece.isHidden = false ∧
      piece.text = pre ++ c :: post ∧
      front.flatMap Segment.text = left.flatMap Piece.text ++ pre := by
  induction h generalizing front with
  | nil => cases front <;> cases hparts
  | @cons piece part pieces parts hpart _ ih =>
    rw [List.flatten_cons] at hparts
    -- the character is in one of the pieces behind this one
    have hbehind {front' : List Segment} (hfront : front = part ++ front')
        (hrest : parts.flatten = front' ++ .code c :: back) :
        ∃ left other right pre post, piece :: pieces = left ++ other :: right ∧
          other.isHidden = false ∧ other.text = pre ++ c :: post ∧
          front.flatMap Segment.text = left.flatMap Piece.text ++ pre := by
      obtain ⟨left, other, right, pre, post, rfl, hhidden, htext, hleft⟩ := ih hrest
      refine ⟨piece :: left, other, right, pre, post, rfl, hhidden, htext, ?_⟩
      rw [hfront, List.flatMap_append, hleft, List.flatMap_cons, List.append_assoc,
        hpart.text_eq]
    cases hpart with
    | @region s hskip =>
      cases front with
      | nil =>
        obtain ⟨rfl, -⟩ := List.cons.inj hparts
        cases hskip
      | cons t front =>
        obtain ⟨rfl, hrest⟩ := List.cons.inj hparts
        exact hbehind rfl hrest
    | code hhidden =>
      rcases List.append_eq_append_iff.1 hparts with ⟨front', hfront, hrest⟩ | ⟨mid, hmid, hrest⟩
      · exact hbehind hfront hrest
      · cases mid with
        | nil =>
          rw [List.append_nil] at hmid
          exact hbehind (hmid.symm.trans (List.append_nil _).symm) hrest.symm
        | cons t mid =>
          obtain ⟨rfl, -⟩ := List.cons.inj hrest
          obtain ⟨pre, tail, htext, hpre, htail⟩ := List.map_eq_append_iff.1 hmid
          obtain ⟨d, post, rfl, hd, -⟩ := List.map_eq_cons_iff.1 htail
          cases hd
          refine ⟨[], piece, pieces, pre, post, rfl, hhidden, htext, ?_⟩
          rw [← hpre, List.flatMap_map]
          simp [Segment.text]

theorem exists_piece_of_code {front back : List Segment} {c : Char}
    (h : divide cs = front ++ .code c :: back) (flags : Flags) (before : List Char) :
    ∃ left piece right pre post, scanFrom flags before cs = left ++ piece :: right ∧
      piece.isHidden = false ∧ piece.text = pre ++ c :: post ∧
      front.flatMap Segment.text = left.flatMap Piece.text ++ pre ∧
      back.flatMap Segment.text = post ++ right.flatMap Piece.text := by
  obtain ⟨parts, hparts, hdivide⟩ := exists_segmented flags before cs
  obtain ⟨left, piece, right, pre, post, hscan, hhidden, htext, hfront⟩ :=
    exists_piece_of_segmented hparts (hdivide.symm.trans h)
  refine ⟨left, piece, right, pre, post, hscan, hhidden, htext, hfront, ?_⟩
  have hall := (text_scanFrom flags before cs).trans (text_divide cs).symm
  rw [hscan, h, List.flatMap_append, List.flatMap_append, List.flatMap_cons, List.flatMap_cons,
    hfront, htext, Segment.text] at hall
  simp only [List.append_assoc, List.cons_append, List.nil_append] at hall
  exact (List.cons.inj (List.append_cancel_left (List.append_cancel_left hall))).2.symm

end Template

/-! ### Shapes of tokens -/

namespace Token

/-- The text may be a name. -/
def IsName (s : String) : Prop := s ≠ "" ∧ (Text.bytes s).all Text.isWordByte = true

/-- What a token is, between the bytes before it and those behind it. -/
inductive Shape (before after : List UInt8) (token : Token) : Prop where
  | positional (hkind : token.kind = .positional) (hname : token.name = "")
    (hsource : token.source = "?")
  | literal (hkind : token.kind = .literal) (hname : IsName token.name)
    (hsource : token.source = "\x7b=" ++ token.name ++ "\x7d")
  | named (hkind : token.kind = .named ∨ token.kind = .listExpansion) (hname : IsName token.name)
    (hstart : (Text.bytes token.name).head?.any Text.isNameStartByte = true)
    (hmarker : Params.isMarker token.marker = true)
    (hsource : token.source = String.singleton token.marker ++ token.name)
    (hbefore : before.getLast?.any Text.isWordByte = false)
    (hafter : after.head?.any Text.isWordByte = false)

/-- The byte with which the name of a token begins. -/
def nameStart (token : Token) : Nat :=
  match token.kind with
  | .positional => token.stop
  | .named | .listExpansion => token.start + 1
  | .literal => token.start + 2

/-- The byte behind the name of a token. -/
def nameStop (token : Token) : Nat :=
  match token.kind with
  | .positional | .named | .listExpansion => token.stop
  | .literal => token.stop - 1

/-- The token is a slice of the text, as is its name, and has the shape of its kind. -/
structure WellFormed (text : String) (token : Token) : Prop where
  lt : token.start < token.stop
  source : Text.IsSlice text token.start token.stop token.source
  name : Text.IsSlice text token.nameStart token.nameStop token.name
  shape : Shape ((Text.bytes text).take token.start) ((Text.bytes text).drop token.stop) token

end Token

namespace Template

open Text (byteCount)

variable {flags : Flags} {before cs : List Char} {left right : List Piece} {piece : Piece}

theorem isName_of_isWord {name : List Char} (hne : name ≠ [])
    (hname : ∀ c ∈ name, isWord c = true) : Token.IsName (String.ofList name) := by
  refine ⟨fun h => hne ?_, ?_⟩
  · rw [← String.toList_ofList (l := name), h, String.toList_empty]
  · rw [Text.bytes_ofList, Text.bytewise_isWord.all_encode]
    exact List.all_eq_true.2 hname

/-- What is read as a placeholder has the shape of its kind. -/
theorem shape_of_reads {after : List Char} {start : Nat} {token : Token}
    (h : Reads flags before.reverse piece after)
    (htoken : Token.ofPiece? start piece = some token) :
    Token.Shape (Text.encode before) (Text.encode after) token := by
  obtain ⟨⟨kind, name⟩, hkind, rfl⟩ := Option.map_eq_some_iff.1 htoken
  cases h with
  | positional =>
    cases hkind
    exact .positional rfl rfl rfl
  | literal _ hne hname =>
    cases hkind
    refine .literal rfl (isName_of_isWord hne hname) ?_
    rw [← String.toList_inj]
    simp [Piece.text]
  | @named marker name _ hmarker hbefore hstart hname hrest =>
    obtain ⟨rfl, rfl⟩ := Prod.mk.inj (Option.some.inj hkind)
    have hne : name ≠ [] := by
      rintro rfl
      cases hstart
    refine .named ?_ (isName_of_isWord hne hname) ?_ ?_ ?_ ?_ ?_
    · cases followsIn before.reverse
      · exact .inl rfl
      · exact .inr rfl
    · rw [Text.bytes_ofList, Text.bytewise_isNameStart.any_head?_encode]
      exact hstart
    · rw [Piece.text, marker_named]
      exact hmarker
    · rw [Piece.text, marker_named, ← String.toList_inj, String.toList_append,
        String.toList_ofList, String.toList_ofList, String.toList_singleton]
      rfl
    · rw [Text.bytewise_isWord.any_getLast?_encode, ← List.head?_reverse]
      exact hbefore
    · rw [Text.bytewise_isWord.any_head?_encode]
      exact hrest
  | quoted | line | block | system | code => cases hkind

theorem byteCount_marker {marker : Char} (h : Params.isMarker marker = true) :
    byteCount [marker] = 1 := by
  rcases isMarker_iff.1 h with rfl | rfl <;> rfl

theorem byteSize_literal (name : List Char) :
    (Piece.literal name).byteSize = 2 + byteCount name + 1 := by
  have hname : byteCount ('\x7b' :: '=' :: name) = 2 + byteCount name :=
    Text.byteCount_append ['\x7b', '='] name
  rw [← Text.byteCount_text, Piece.text, Text.byteCount_append, hname]
  rfl

theorem byteSize_named {marker : Char} (h : Params.isMarker marker = true) (name : List Char)
    (afterIn : Bool) : (Piece.named marker name afterIn).byteSize = 1 + byteCount name := by
  rw [← Text.byteCount_text, Piece.text, Text.byteCount_cons, byteCount_marker h]

theorem isSlice_name {text : String} {left right : List Char} {token : Token}
    (h : Reads flags before piece right) (htext : text.toList = left ++ piece.text ++ right)
    (htoken : Token.ofPiece? (byteCount left) piece = some token) :
    Text.IsSlice text token.nameStart token.nameStop token.name := by
  obtain ⟨⟨kind, name⟩, hkind, rfl⟩ := Option.map_eq_some_iff.1 htoken
  cases h with
  | positional =>
    cases hkind
    refine Text.isSlice_of_append (a := left ++ ['?']) (s := []) (b := right) ?_ ?_ ?_
    · rw [htext, List.append_nil]
      rfl
    · rw [Text.byteCount_append]
      rfl
    · rw [Text.byteCount_append]
      rfl
  | literal =>
    cases hkind
    refine Text.isSlice_of_append (a := left ++ ['\x7b', '=']) (s := name) (b := '\x7d' :: right)
      ?_ ?_ ?_
    · simp [htext, Piece.text]
    · rw [Text.byteCount_append]
      rfl
    · have hopener : byteCount ['\x7b', '='] = 2 := rfl
      simp only [Token.nameStop, byteSize_literal, Text.byteCount_append, hopener]
      omega
  | @named marker name' _ hmarker =>
    obtain ⟨rfl, rfl⟩ := Prod.mk.inj (Option.some.inj hkind)
    have hone := byteCount_marker hmarker
    refine Text.isSlice_of_append (a := left ++ [marker]) (b := right) ?_ ?_ ?_
    · simp [htext, Piece.text]
    · rw [Text.byteCount_append, hone]
      cases followsIn before <;> rfl
    · rw [Text.byteCount_append, hone, Nat.add_assoc,
        ← byteSize_named hmarker name' (followsIn before)]
      cases followsIn before <;> rfl
  | quoted | line | block | system | code => cases hkind

theorem wellFormed_of_scan_eq {text : String} {token : Token}
    (h : scan flags text.toList = left ++ piece :: right)
    (htoken : Token.ofPiece? (byteCount (left.flatMap Piece.text)) piece = some token) :
    token.WellFormed text := by
  have hreads := reads_of_scanFrom_eq_append h
  rw [List.append_nil] at hreads
  have htext := text_of_scan_eq_append h
  have hshape := shape_of_reads hreads htoken
  have hname := isSlice_name hreads htext htoken
  obtain ⟨e, hkind, rfl⟩ := Option.map_eq_some_iff.1 htoken
  refine ⟨?_, ?_, hname, ?_⟩
  · rw [← Text.byteCount_text]
    exact Nat.lt_add_of_pos_right (Text.byteCount_pos hreads.text_ne_nil)
  · exact Text.isSlice_of_append htext rfl (by rw [Text.byteCount_text])
  · have hbefore := (Text.bytes_of_append (htext.trans (List.append_assoc _ _ _))).1
    have hafter := (Text.bytes_of_append htext).2
    rw [Text.byteCount_append, Text.byteCount_text] at hafter
    simp only [hbefore, hafter]
    exact hshape

theorem exists_token_of_named {text : String} {marker : Char} {name : List Char} {afterIn : Bool}
    (h : scan flags text.toList = left ++ .named marker name afterIn :: right) :
    ∃ token ∈ (parse text flags).tokens, token.start = byteCount (left.flatMap Piece.text) ∧
      token.marker = marker ∧ (token.kind = .named ∨ token.kind = .listExpansion) := by
  obtain ⟨token, htoken⟩ : ∃ token, Token.ofPiece? (0 + byteCount (left.flatMap Piece.text))
      (.named marker name afterIn) = some token := ⟨_, rfl⟩
  refine ⟨token, ?_, ?_⟩
  · rw [tokens_parse]
    exact Token.mem_ofPieces_iff.2 ⟨left, _, right, h, htoken⟩
  · cases htoken
    refine ⟨Nat.zero_add _, marker_named .., ?_⟩
    cases afterIn
    · exact .inl rfl
    · exact .inr rfl

/-- No marker in code is passed over. -/
theorem exists_token_of_marker {text : String} {front back : List Segment} {marker : Char}
    (h : divide text.toList = front ++ .code marker :: back)
    (hmarker : Params.isMarker marker = true)
    (hadjacent : (front.flatMap Segment.text).getLast? ≠ some marker)
    (hbefore : (front.flatMap Segment.text).getLast?.any isWord = false)
    (hafter : (back.flatMap Segment.text).head?.any isNameStart = true) :
    ∃ token ∈ (parse text flags).tokens, token.start = Segment.byteSize front ∧
      token.marker = marker ∧ (token.kind = .named ∨ token.kind = .listExpansion) := by
  obtain ⟨left, piece, right, pre, post, hscan, hhidden, htext, hfront, hback⟩ :=
    exists_piece_of_code h flags []
  have hreads := reads_of_scanFrom_eq_append hscan
  rw [List.append_nil] at hreads
  rw [hfront] at hadjacent hbefore
  rw [hback] at hafter
  -- a marker is in no name
  have hnotword {cs : List Char} (hcs : ∀ c ∈ cs, isWord c = true) : marker ∉ cs := fun hmem =>
    Bool.false_ne_true ((isWord_eq_false_of_isMarker hmarker).symm.trans (hcs marker hmem))
  have hnotstart : isNameStart marker = false := by
    rcases isMarker_iff.1 hmarker with rfl | rfl <;> rfl
  cases hreads with
  | quoted | line | block => cases hhidden
  | @system m name _ _ hname =>
    -- the first of two markers is adjacent to the second one, and this to the first
    exfalso
    match pre with
    | [] =>
      cases htext
      rw [List.cons_append, List.head?_cons, Option.any_some, hnotstart] at hafter
      cases hafter
    | [_] =>
      cases htext
      exact hadjacent (List.getLast?_concat ..)
    | _ :: _ :: pre =>
      obtain ⟨-, htext⟩ := List.cons.inj htext
      obtain ⟨-, rfl⟩ := List.cons.inj htext
      exact hnotword hname (List.mem_append_right pre List.mem_cons_self)
  | @literal name _ _ _ hname =>
    have hmem : marker ∈ (Piece.literal name).text :=
      htext ▸ List.mem_append_right pre List.mem_cons_self
    simp only [Piece.text, List.cons_append, List.mem_cons, List.mem_append, hnotword hname,
      List.not_mem_nil, false_or, or_false] at hmem
    rcases hmem with rfl | rfl | rfl <;> cases hmarker
  | @named m name _ _ _ _ hname =>
    cases pre with
    | nil =>
      cases htext
      rw [Segment.byteSize, hfront, List.append_nil]
      exact exists_token_of_named hscan
    | cons _ pre =>
      obtain ⟨-, rfl⟩ := List.cons.inj htext
      exact absurd (List.mem_append_right pre List.mem_cons_self) (hnotword hname)
  | positional =>
    have hmem : marker ∈ Piece.positional.text :=
      htext ▸ List.mem_append_right pre List.mem_cons_self
    rw [List.mem_singleton.1 hmem] at hmarker
    cases hmarker
  | @code c _ hcode =>
    cases pre with
    | nil =>
      cases htext
      rw [List.append_nil] at hbefore
      rcases hcode.named hmarker with hword | hstart
      · rw [List.head?_reverse, hbefore] at hword
        cases hword
      · exact (Bool.false_ne_true (hstart.symm.trans hafter)).elim
    | cons _ pre =>
      obtain ⟨-, htail⟩ := List.cons.inj htext
      exact absurd htail (by simp)

end Template

end RowMapping
