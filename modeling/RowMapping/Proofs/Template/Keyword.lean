import RowMapping.Proofs.Template.Spans

/-!
# The keyword `IN`

A named placeholder is expanded to a list with brackets if it follows the keyword `IN`.  For this
the scanner goes back over the characters before the placeholder, whatever they were read as.  The
word that it finds need not be code: it may end a line comment, or be the name of another
placeholder, of a system variable or of a cast.

* `Template.followsIn_reverse_iff`: the characters that the scanner goes back over;
* `Template.exists_pieces_of_keyword`: the pieces that they belong to;
* `Template.listExpansion_iff`: when a placeholder is expanded with brackets;
* `Template.listExpansion_of_comment_and_name`: it is after a comment and after a name, too.
-/

namespace RowMapping.Template

open Text (byteCount)

/-! ### Characters -/

/-- The letters of the keyword with blanks behind it, and before it no word that goes on. -/
structure IsKeyword (front : List Char) (i n : Char) (gaps : List Char) : Prop where
  toLower_i : i.toLower = 'i'
  toLower_n : n.toLower = 'n'
  ne_nil : gaps ≠ []
  isGap : ∀ c ∈ gaps, isGap c = true
  front : front.getLast?.any isWord = false

/-- The text ends in the keyword and at least one blank. -/
def EndsInKeyword (cs : List Char) : Prop :=
  ∃ front i n gaps, cs = front ++ i :: n :: gaps ∧ IsKeyword front i n gaps

theorem isWord_of_toLower {c d : Char} (h : c.toLower = d) (hd : d.isLower = true) :
    isWord c = true := by
  have halpha : c.isAlpha = true := by
    unfold Char.toLower at h
    split at h
    · exact Bool.or_eq_true_iff.2 (.inl (decide_eq_true ‹_›))
    · exact Bool.or_eq_true_iff.2 (.inr (h ▸ hd))
  simp only [isWord, Char.isAlphanum, halpha, Bool.true_or]

theorem isGap_eq_false_of_isWord {c : Char} (h : isWord c = true) : isGap c = false := by
  refine Bool.eq_false_iff.2 fun hgap => ?_
  simp only [isGap, Bool.or_eq_true, beq_iff_eq] at hgap
  rcases hgap with (((rfl | rfl) | rfl) | rfl) | rfl <;> cases h

/-- The scanner goes back over the characters of the keyword. -/
theorem followsIn_reverse_iff {cs : List Char} :
    followsIn cs.reverse = true ↔ EndsInKeyword cs := by
  constructor
  · intro h
    obtain ⟨gaps, word, hcs, hgaps, hfront⟩ := exists_gaps cs.reverse
    rw [hcs, followsIn_append hgaps hfront, Bool.and_eq_true, Bool.not_eq_true'] at h
    obtain ⟨hne, hword⟩ := h
    unfold endsInKeyword at hword
    split at hword
    · rename_i n i front
      simp only [Bool.and_eq_true, beq_iff_eq, Bool.not_eq_true'] at hword
      refine ⟨front.reverse, i, n, gaps.reverse, ?_, hword.1.2, hword.1.1, ?_, ?_, ?_⟩
      · rw [← List.reverse_reverse cs, hcs]
        simp
      · rw [ne_eq, List.reverse_eq_nil_iff]
        exact List.isEmpty_eq_false_iff.1 hne
      · exact fun c hc => hgaps c (List.mem_reverse.1 hc)
      · rw [List.getLast?_reverse]
        exact hword.2
    · cases hword
  · rintro ⟨front, i, n, gaps, rfl, hi, hn, hne, hgaps, hfront⟩
    have hreverse : (front ++ i :: n :: gaps).reverse =
        gaps.reverse ++ n :: i :: front.reverse := by
      simp
    have hgap : (n :: i :: front.reverse).head?.any isGap = false :=
      isGap_eq_false_of_isWord (isWord_of_toLower hn rfl)
    rw [hreverse, followsIn_append (fun c hc => hgaps c (List.mem_reverse.1 hc)) hgap]
    have hempty : gaps.reverse.isEmpty = false := by simpa using hne
    simp only [hempty, endsInKeyword, hi, hn, List.head?_reverse, hfront, beq_self_eq_true,
      Bool.not_false, Bool.and_self]

/-! ### Ends of pieces -/

variable {flags : Flags} {before cs rest : List Char} {piece : Piece}

theorem Reads.exists_closed (h : Reads flags before piece rest) (hhidden : piece.isHidden = true)
    (hrest : rest ≠ []) : ∃ d body, piece = (Segment.closed d body).piece := by
  obtain ⟨s, hskip, hpiece, hcuts⟩ := h.exists_cuts hhidden
  cases hcuts with
  | code => cases hskip
  | closed => exact ⟨_, _, hpiece.symm⟩
  | unclosed => exact absurd rfl hrest

/-- The piece is a marker, or two of them, and a name. -/
inductive HasName (marker : Char) (name : List Char) : Piece → Prop where
  | named (afterIn : Bool) : HasName marker name (.named marker name afterIn)
  | system : HasName marker name (.system marker name)

theorem HasName.exists_text {marker : Char} {name : List Char} (h : HasName marker name piece) :
    ∃ front, piece.text = front ++ marker :: name := by
  cases h with
  | named => exact ⟨[], rfl⟩
  | system => exact ⟨[marker], rfl⟩

theorem HasName.isGap_eq_false {marker c : Char} {name : List Char} (h : HasName marker name piece)
    (hmarker : Params.isMarker marker = true) (hname : ∀ d ∈ name, isWord d = true)
    (hlast : piece.text.getLast? = some c) : isGap c = false := by
  obtain ⟨front, htext⟩ := h.exists_text
  rw [htext, List.getLast?_append_of_ne_nil _ (List.cons_ne_nil _ _)] at hlast
  rcases List.mem_cons.1 (List.mem_of_getLast? hlast) with rfl | hc
  · exact isGap_eq_false_of_isMarker hmarker
  · exact isGap_eq_false_of_isWord (hname c hc)

/-- How a piece ends in the character `c` where something follows. -/
inductive Ends (c : Char) : Piece → List Char → Prop where
  | code {rest : List Char} : Ends c (.code c) rest
  | line {body rest : List Char} (hc : c = '\n') : Ends c (Segment.closed .line body).piece rest
  | name {marker : Char} {name rest : List Char} {piece : Piece} (h : HasName marker name piece)
    (hmarker : Params.isMarker marker = true) (hname : ∀ d ∈ name, isWord d = true)
    (hgap : isGap c = false) (hrest : rest.head?.any isWord = false) : Ends c piece rest
  | other {piece : Piece} {rest : List Char} (hgap : isGap c = false) (hword : isWord c = false) :
    Ends c piece rest

theorem Reads.ends (h : Reads flags before piece rest) (hrest : rest ≠ []) {c : Char}
    (hlast : piece.text.getLast? = some c) : Ends c piece rest := by
  cases hhidden : piece.isHidden with
  | true =>
    obtain ⟨d, body, rfl⟩ := h.exists_closed hhidden hrest
    rw [Segment.text_piece, Segment.text] at hlast
    cases d with
    | quote q hq =>
      obtain rfl : q = c := Option.some.inj ((List.getLast?_concat ..).symm.trans hlast)
      simp only [isQuote, Bool.or_eq_true, beq_iff_eq] at hq
      rcases hq with (rfl | rfl) | rfl <;> exact .other rfl rfl
    | line => exact .line (Option.some.inj ((List.getLast?_concat ..).symm.trans hlast)).symm
    | block =>
      have hne : Delimiter.block.closer ≠ [] := List.cons_ne_nil _ _
      rw [List.getLast?_append_of_ne_nil _ hne] at hlast
      cases hlast
      exact .other rfl rfl
  | false =>
    cases h with
    | quoted | line | block => cases hhidden
    | system hmarker hname hrest =>
      exact .name .system hmarker hname (HasName.system.isGap_eq_false hmarker hname hlast) hrest
    | named hmarker _ _ hname hrest =>
      have hgap := (HasName.named (followsIn before)).isGap_eq_false hmarker hname hlast
      exact .name (.named _) hmarker hname hgap hrest
    | literal =>
      obtain rfl : '\x7d' = c := Option.some.inj ((List.getLast?_concat ..).symm.trans hlast)
      exact .other rfl rfl
    | positional =>
      cases hlast
      exact .other rfl rfl
    | code =>
      cases hlast
      exact .code

/-! ### Going back over pieces -/

variable {left right : List Piece} {front gaps : List Char} {c i n : Char}

/-- The last of the pieces that the scanner goes back over.  The pieces before are in backward
order. -/
theorem exists_ends (hscan : scan flags cs = left.reverse ++ right)
    (hright : right.flatMap Piece.text ≠ []) {tail : List Char}
    (htext : backwards Piece.text left = c :: tail) :
    ∃ piece left', left = piece :: left' ∧ scan flags cs = left'.reverse ++ piece :: right ∧
      piece.text ≠ [] ∧ Ends c piece (right.flatMap Piece.text) ∧
      piece.text.reverse ++ backwards Piece.text left' = c :: tail := by
  cases left with
  | nil => cases htext
  | cons piece left =>
    have hscan' : scan flags cs = left.reverse ++ piece :: right := by
      rw [hscan, List.reverse_cons, List.append_assoc]
      rfl
    have hreads := reads_of_scanFrom_eq_append hscan'
    rw [backwards, List.flatMap_cons, ← backwards] at htext
    refine ⟨piece, left, rfl, hscan', hreads.text_ne_nil, hreads.ends hright ?_, htext⟩
    have hhead := congrArg List.head? htext
    obtain ⟨d, ds, hreverse⟩ := List.exists_cons_of_ne_nil
      (List.reverse_ne_nil_iff.2 hreads.text_ne_nil)
    rw [hreverse, List.cons_append, List.head?_cons, List.head?_cons] at hhead
    rw [← List.head?_reverse, hreverse, List.head?_cons, hhead]

/-- The pieces of the letters of the keyword, where no word goes on behind them: two characters of
code, or a whole name. -/
theorem exists_pieces_of_word (hscan : scan flags cs = left.reverse ++ right)
    (hright : right.flatMap Piece.text ≠ [])
    (hi : i.toLower = 'i') (hn : n.toLower = 'n') (hfront : front.head?.any isWord = false)
    (htext : backwards Piece.text left = n :: i :: front) :
    (∃ left', left = .code n :: .code i :: left' ∧ backwards Piece.text left' = front) ∨
      ∃ marker piece left', left = piece :: left' ∧ HasName marker [i, n] piece ∧
        Params.isMarker marker = true := by
  have hwordi : isWord i = true := isWord_of_toLower hi rfl
  have hwordn : isWord n = true := isWord_of_toLower hn rfl
  have hgapn := isGap_eq_false_of_isWord hwordn
  obtain ⟨piece, left, rfl, hscan, hne, hends, htext⟩ := exists_ends hscan hright htext
  cases hends with
  | code =>
    rw [Piece.text, List.reverse_singleton, List.singleton_append] at htext
    obtain ⟨-, htext⟩ := List.cons.inj htext
    obtain ⟨piece, left, rfl, hscan, hne, hends, htext⟩ :=
      exists_ends hscan (List.cons_ne_nil _ _) htext
    cases hends with
    | code =>
      rw [Piece.text, List.reverse_singleton, List.singleton_append] at htext
      exact .inl ⟨left, rfl, (List.cons.inj htext).2⟩
    | line hc =>
      rw [hc] at hwordi
      cases hwordi
    | name _ _ _ _ hrest =>
      -- a name would go on with the second letter
      exact (Bool.false_ne_true (hrest.symm.trans hwordn)).elim
    | other _ hword => exact (Bool.false_ne_true (hword.symm.trans hwordi)).elim
  | line hc =>
    rw [hc] at hwordn
    cases hwordn
  | @name marker name _ _ hname hmarker hwords =>
    obtain ⟨pre, hpre⟩ := hname.exists_text
    have hnotword := isWord_eq_false_of_isMarker hmarker
    rw [hpre, List.reverse_append, List.reverse_cons, List.append_assoc, List.append_assoc,
      List.singleton_append] at htext
    have hreverse := List.reverse_reverse name
    have hwords : ∀ c ∈ name.reverse, isWord c = true := fun c hc =>
      hwords c (List.mem_reverse.1 hc)
    -- the name has these two letters, since its marker is no letter and no word comes before them
    generalize name.reverse = letters at htext hreverse hwords
    rcases letters with _ | ⟨c, _ | ⟨d, _ | ⟨e, letters⟩⟩⟩
    · obtain ⟨rfl, -⟩ := List.cons.inj htext
      exact (Bool.false_ne_true (hnotword.symm.trans hwordn)).elim
    · obtain ⟨rfl, -⟩ := List.cons.inj (List.cons.inj htext).2
      exact (Bool.false_ne_true (hnotword.symm.trans hwordi)).elim
    · cases htext
      obtain rfl : [i, n] = name := hreverse
      exact .inr ⟨marker, piece, left, rfl, hname, hmarker⟩
    · cases htext
      have he := hwords e (List.mem_cons_of_mem _ (List.mem_cons_of_mem _ List.mem_cons_self))
      exact (Bool.false_ne_true (hfront.symm.trans he)).elim
  | other _ hword => exact (Bool.false_ne_true (hword.symm.trans hwordn)).elim

/-- Where the letters of the keyword are, if blanks follow: before them, in a line comment that ends
among them, or in a name. -/
theorem exists_pieces_of_keyword (hscan : scan flags cs = left.reverse ++ right)
    (hright : right.flatMap Piece.text ≠ []) (hgaps : ∀ c ∈ gaps, isGap c = true)
    (hi : i.toLower = 'i') (hn : n.toLower = 'n') (hfront : front.head?.any isWord = false)
    (htext : backwards Piece.text left = gaps ++ n :: i :: front) :
    (∃ left', left = gaps.map .code ++ .code n :: .code i :: left' ∧
        backwards Piece.text left' = front) ∨
      (∃ outer inner body left', gaps = outer ++ '\n' :: inner ∧
        left = outer.map .code ++ (Segment.closed .line (body ++ i :: n :: inner.reverse)).piece ::
          left' ∧
        front = body.reverse ++ '-' :: '-' :: backwards Piece.text left') ∨
      ∃ marker piece left', left = gaps.map .code ++ piece :: left' ∧
        HasName marker [i, n] piece ∧ Params.isMarker marker = true := by
  have hwordi : isWord i = true := isWord_of_toLower hi rfl
  have hwordn : isWord n = true := isWord_of_toLower hn rfl
  induction gaps generalizing left right with
  | nil =>
    rcases exists_pieces_of_word hscan hright hi hn hfront htext with h | h
    · exact .inl h
    · exact .inr (.inr h)
  | cons g gaps ih =>
    obtain ⟨hgap, hgaps⟩ := List.forall_mem_cons.1 hgaps
    obtain ⟨piece, left, rfl, hscan, hne, hends, htext⟩ := exists_ends hscan hright htext
    cases hends with
    | code =>
      rw [Piece.text, List.reverse_singleton, List.singleton_append] at htext
      rcases ih hscan (List.cons_ne_nil _ _) hgaps (List.cons.inj htext).2 with
        ⟨left', rfl, hleft⟩ | ⟨outer, inner, body, left', rfl, rfl, hleft⟩ |
        ⟨marker, piece, left', rfl, hname, hmarker⟩
      · exact .inl ⟨left', rfl, hleft⟩
      · exact .inr (.inl ⟨g :: outer, inner, body, left', rfl, rfl, hleft⟩)
      · exact .inr (.inr ⟨marker, piece, left', rfl, hname, hmarker⟩)
    | @line body _ hc =>
      subst hc
      have hreverse : (Segment.closed .line body).piece.text.reverse =
          '\n' :: (body.reverse ++ ['-', '-']) := by
        rw [Segment.text_piece, Segment.text]
        simp [Delimiter.opener, Delimiter.closer]
      rw [hreverse, List.cons_append, List.append_assoc] at htext
      -- the letters and the blanks behind them have no minus sign among them
      have hminus : '-' ∉ gaps ++ [n, i] := by
        intro hmem
        rcases List.mem_append.1 hmem with hmem | hmem
        · cases hgaps '-' (List.mem_cons_of_mem _ hmem)
        · rcases List.mem_pair.1 hmem with rfl | rfl
          · cases hwordn
          · cases hwordi
      have htext : (gaps ++ [n, i]) ++ front =
          body.reverse ++ '-' :: '-' :: backwards Piece.text left := by
        rw [List.append_assoc]
        exact (List.cons.inj htext).2.symm
      obtain ⟨tail, hbody, hfront⟩ := exists_eq_append_of_not_mem hminus htext
      refine .inr (.inl ⟨[], gaps, tail.reverse, left, rfl, ?_, ?_⟩)
      · rw [← List.reverse_reverse body, hbody]
        simp
      · rw [List.reverse_reverse]
        exact hfront
    | name _ _ _ hgap' | other hgap' => exact (Bool.false_ne_true (hgap'.symm.trans hgap)).elim

/-! ### What the keyword is read as -/

/-- The pieces end in the keyword, which is code. -/
def KeywordInCode (left : List Piece) : Prop :=
  ∃ front i n gaps, left = front ++ .code i :: .code n :: gaps.map .code ∧
    IsKeyword (front.flatMap Piece.text) i n gaps

/-- The pieces end in a line comment, and this in the keyword. -/
def KeywordInComment (left : List Piece) : Prop :=
  ∃ front body i n inner outer,
    left = front ++ (Segment.closed .line (body ++ i :: n :: inner)).piece :: outer.map .code ∧
      IsKeyword ('-' :: '-' :: body) i n (inner ++ '\n' :: outer)

/-- The pieces end in the keyword, which is the name of a placeholder, a system variable or a
cast. -/
def KeywordAsName (left : List Piece) : Prop :=
  ∃ front marker i n gaps piece, left = front ++ piece :: gaps.map .code ∧
    HasName marker [i, n] piece ∧ Params.isMarker marker = true ∧ IsKeyword [marker] i n gaps

theorem text_map_code (cs : List Char) : (cs.map Piece.code).flatMap Piece.text = cs := by
  rw [List.flatMap_map]
  exact (List.flatMap_pure_eq_map id cs).trans (List.map_id cs)

theorem text_line (body : List Char) :
    (Segment.closed .line body).piece.text = '-' :: '-' :: body ++ ['\n'] :=
  Segment.text_piece _

/-- What the keyword is read as, if the text before a piece ends in it. -/
theorem endsInKeyword_iff (hscan : scan flags cs = left ++ right)
    (hright : right.flatMap Piece.text ≠ []) :
    EndsInKeyword (left.flatMap Piece.text) ↔
      KeywordInCode left ∨ KeywordInComment left ∨ KeywordAsName left := by
  constructor
  · rintro ⟨front, i, n, gaps, htext, hword⟩
    have hback : backwards Piece.text left.reverse = gaps.reverse ++ n :: i :: front.reverse := by
      rw [← List.reverse_reverse (backwards _ _), reverse_backwards, List.reverse_reverse, htext]
      simp
    have hscan : scan flags cs = left.reverse.reverse ++ right := by rwa [List.reverse_reverse]
    have hgaps : ∀ c ∈ gaps.reverse, isGap c = true := fun c hc =>
      hword.isGap c (List.mem_reverse.1 hc)
    have hfront : front.reverse.head?.any isWord = false := by
      rw [List.head?_reverse]
      exact hword.front
    rcases exists_pieces_of_keyword hscan hright hgaps hword.toLower_i hword.toLower_n hfront hback
      with ⟨left', hleft, hfront⟩ | ⟨outer, inner, body, left', hgaps, hleft, hfront⟩ |
        ⟨marker, piece, left', hleft, hname, hmarker⟩ <;>
      rw [List.reverse_eq_iff] at hleft
    · refine .inl ⟨left'.reverse, i, n, gaps, ?_, ?_⟩
      · simp [hleft]
      · rw [← reverse_backwards, hfront, List.reverse_reverse]
        exact hword
    · rw [List.reverse_eq_iff] at hgaps hfront
      refine .inr (.inl ⟨left'.reverse, body, i, n, inner.reverse, outer.reverse, ?_, ?_⟩)
      · simp [hleft]
      · have hgaps : inner.reverse ++ '\n' :: outer.reverse = gaps := by simp [hgaps]
        have hfront : front = (backwards Piece.text left').reverse ++ '-' :: '-' :: body := by
          simp [hfront]
        refine { hword with
          ne_nil := hgaps ▸ hword.ne_nil
          isGap := hgaps ▸ hword.isGap
          front := ?_ }
        rw [← List.getLast?_append_of_ne_nil _ (List.cons_ne_nil _ _), ← hfront]
        exact hword.front
    · refine .inr (.inr ⟨left'.reverse, marker, i, n, gaps, piece, ?_, hname, hmarker, ?_⟩)
      · simp [hleft]
      · exact { hword with front := isWord_eq_false_of_isMarker hmarker }
  · rintro (⟨front, i, n, gaps, rfl, hword⟩ | ⟨front, body, i, n, inner, outer, rfl, hword⟩ |
      ⟨front, marker, i, n, gaps, piece, rfl, hname, hmarker, hword⟩)
    · refine ⟨front.flatMap Piece.text, i, n, gaps, ?_, hword⟩
      rw [List.flatMap_append, List.flatMap_cons, List.flatMap_cons, text_map_code]
      rfl
    · refine ⟨front.flatMap Piece.text ++ '-' :: '-' :: body, i, n, _, ?_,
        { hword with front := ?_ }⟩
      · rw [List.flatMap_append, List.flatMap_cons, text_map_code, text_line]
        simp
      · rw [List.getLast?_append_of_ne_nil _ (List.cons_ne_nil _ _)]
        exact hword.front
    · obtain ⟨pre, hpre⟩ := hname.exists_text
      refine ⟨front.flatMap Piece.text ++ pre ++ [marker], i, n, gaps, ?_,
        { hword with front := ?_ }⟩
      · rw [List.flatMap_append, List.flatMap_cons, text_map_code, hpre]
        simp
      · rw [List.getLast?_concat]
        exact hword.front

/-- The piece is a blank of code. -/
def isBlankCode : Piece → Bool
  | .code c => isGap c
  | _ => false

theorem head?_dropWhile_isBlankCode (front : List Piece) (hpiece : isBlankCode piece = false)
    (hgaps : ∀ c ∈ gaps, isGap c = true) :
    ((front ++ piece :: gaps.map .code).reverse.dropWhile isBlankCode).head? = some piece := by
  have hblank : ∀ p ∈ (gaps.map Piece.code).reverse, isBlankCode p = true := by
    intro p hp
    obtain ⟨c, hc, rfl⟩ := List.mem_map.1 (List.mem_reverse.1 hp)
    exact hgaps c hc
  rw [List.reverse_append, List.reverse_cons, List.append_assoc, List.singleton_append,
    List.dropWhile_append_of_pos hblank,
    List.dropWhile_cons_of_neg (Bool.eq_false_iff.1 hpiece)]
  rfl

theorem KeywordInCode.not_comment_or_name (h : KeywordInCode left) :
    ¬(KeywordInComment left ∨ KeywordAsName left) := by
  obtain ⟨front, i, n, gaps, rfl, hword⟩ := h
  have hletter : isBlankCode (.code n) = false :=
    isGap_eq_false_of_isWord (isWord_of_toLower hword.toLower_n rfl)
  have hlast := head?_dropWhile_isBlankCode (front ++ [.code i]) hletter hword.isGap
  rw [List.append_assoc, List.singleton_append] at hlast
  rintro (⟨front', body, i', n', inner, outer, hleft, hword'⟩ |
    ⟨front', marker, i', n', gaps', piece, hleft, hname, -, hword'⟩)
  · have houter : ∀ c ∈ outer, isGap c = true := fun c hc =>
      hword'.isGap c (List.mem_append_right _ (List.mem_cons_of_mem _ hc))
    rw [hleft, head?_dropWhile_isBlankCode _ rfl houter] at hlast
    cases hlast
  · have hpiece : isBlankCode piece = false := by cases hname <;> rfl
    rw [hleft, head?_dropWhile_isBlankCode _ hpiece hword'.isGap] at hlast
    obtain rfl := Option.some.inj hlast
    cases hname

/-! ### Lists with brackets -/

/-- **When a placeholder is expanded with brackets.**  The text before it ends in the keyword and at
least one blank.  The keyword is code, or else it ends a line comment, or it is the name of another
placeholder, of a system variable or of a cast; it is in no other comment, no quoted text and no
literal token. -/
theorem listExpansion_iff {text : String} {token : Token}
    (htoken : token ∈ (parse text flags).tokens)
    (hkind : token.kind = .named ∨ token.kind = .listExpansion) :
    ∃ left right, scan flags text.toList = left ++ right ∧
      byteCount (left.flatMap Piece.text) = token.start ∧
      (token.kind = .listExpansion ↔ EndsInKeyword (left.flatMap Piece.text)) ∧
      (EndsInKeyword (left.flatMap Piece.text) ↔
        KeywordInCode left ∨ KeywordInComment left ∨ KeywordAsName left) ∧
      (KeywordInCode left → ¬(KeywordInComment left ∨ KeywordAsName left)) := by
  rw [tokens_parse] at htoken
  obtain ⟨left, piece, right, hscan, hpiece⟩ := Token.mem_ofPieces_iff.1 htoken
  have hreads := reads_of_scanFrom_eq_append hscan
  rw [List.append_nil] at hreads
  have hbehind : (piece :: right).flatMap Piece.text ≠ [] := by
    rw [List.flatMap_cons]
    exact List.append_ne_nil_of_left_ne_nil hreads.text_ne_nil _
  obtain ⟨⟨kind, name⟩, hname, rfl⟩ := Option.map_eq_some_iff.1 hpiece
  refine ⟨left, piece :: right, hscan, (Nat.zero_add _).symm, ?_, endsInKeyword_iff hscan hbehind,
    KeywordInCode.not_comment_or_name⟩
  rw [← followsIn_reverse_iff]
  cases hreads with
  | named =>
    cases hname
    cases followsIn (left.flatMap Piece.text).reverse <;> simp
  | positional | literal =>
    cases hname
    rcases hkind with h | h <;> cases h
  | quoted | line | block | system | code => cases hname

/-- A placeholder after the keyword, and one after a word that ends like the keyword. -/
theorem listExpansion_iff_of_list :
    let text := "é IN\t@ids, pin @x"
    (∃ left right, scan .default text.toList = left ++ right ∧
      byteCount (left.flatMap Piece.text) = 6 ∧
      (KeywordInCode left ∨ KeywordInComment left ∨ KeywordAsName left)) ∧
    ∃ left right, scan .default text.toList = left ++ right ∧
      byteCount (left.flatMap Piece.text) = 16 ∧ ¬EndsInKeyword (left.flatMap Piece.text) := by
  intro text
  have hlist : ⟨.listExpansion, 6, 10, "ids", "@ids"⟩ ∈ (parse text .default).tokens := by
    decide +kernel
  have hnamed : ⟨.named, 16, 18, "x", "@x"⟩ ∈ (parse text .default).tokens := by decide +kernel
  obtain ⟨left, right, hscan, hsize, hkind, hread, -⟩ := listExpansion_iff hlist (.inr rfl)
  obtain ⟨left', right', hscan', hsize', hkind', -⟩ := listExpansion_iff hnamed (.inl rfl)
  exact ⟨⟨left, right, hscan, hsize, hread.1 (hkind.1 rfl)⟩, left', right', hscan', hsize',
    fun h => nomatch hkind'.2 h⟩

/-- The keyword need not be code: it may end a line comment, or be the name of a placeholder. -/
theorem listExpansion_of_comment_and_name :
    (⟨.listExpansion, 15, 17, "x", "@x"⟩ ∈ (parse "select 1 -- in\n@x" .default).tokens ∧
      ∃ left right, scan .default "select 1 -- in\n@x".toList = left ++ right ∧
        byteCount (left.flatMap Piece.text) = 15 ∧ ¬KeywordInCode left) ∧
    ⟨.listExpansion, 11, 13, "x", "@x"⟩ ∈ (parse "select @in @x" .default).tokens ∧
      ∃ left right, scan .default "select @in @x".toList = left ++ right ∧
        byteCount (left.flatMap Piece.text) = 11 ∧ ¬KeywordInCode left := by
  refine ⟨⟨by decide +kernel, ?_⟩, by decide +kernel, ?_⟩
  · let front := scan .default "select 1 ".toList
    let line := (Segment.closed .line " in".toList).piece
    refine ⟨front ++ [line], [.named '@' ['x'] true], by decide +kernel, by decide +kernel,
      fun hcode => hcode.not_comment_or_name (.inl ?_)⟩
    exact ⟨front, [' '], 'i', 'n', [], [], rfl, rfl, rfl, List.cons_ne_nil _ _,
      List.forall_mem_singleton.2 rfl, rfl⟩
  · let front := scan .default "select ".toList
    refine ⟨front ++ [.named '@' ['i', 'n'] false, .code ' '], [.named '@' ['x'] true],
      by decide +kernel, by decide +kernel, fun hcode => hcode.not_comment_or_name (.inr ?_)⟩
    exact ⟨front, '@', 'i', 'n', [' '], _, rfl, .named false, rfl, rfl, rfl,
      List.cons_ne_nil _ _, List.forall_mem_singleton.2 rfl, rfl⟩

end RowMapping.Template
