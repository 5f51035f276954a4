import RowMapping.Proofs.Template.Reading

/-!
# Literal texts and what is next to them

The text of a literal token is put in as it stands.  It may touch what is next to it: run into the
name of a placeholder or into a question mark, make a comment or a placeholder together with the
character before it, come between `{=` and a brace, or hide the keyword `IN` of a list.

* `Template.touches`: the text of a literal token touches what is next to it;
* `Template.head?_left`, `Template.head?_right`: what stands next to a piece in the statement;
* `Template.standsAlone_put`: where no text touches anything, a single character stays one;
* `Template.any_left_put`, `Template.any_right_put`, `Template.followsIn_put`: a placeholder stays
  one, and of its kind.
-/

namespace RowMapping

namespace Template

/-! ### Texts that touch -/

section Touching

variable (lit : List Char → List Char)

/-- The characters of a piece; the text of a literal token is given by its name. -/
def put : Piece → List Char
  | .literal name => lit name
  | piece => piece.text

/-- The text of pieces in backward order, given backwards. -/
def backwards (f : Piece → List Char) (left : List Piece) : List Char :=
  left.flatMap fun piece => (f piece).reverse

/-- The text begins with the keyword `IN`, blanks and a placeholder. -/
def opensList : List Char → Bool
  | i :: n :: cs =>
    i.toLower == 'i' && n.toLower == 'n' && cs.head?.any isGap &&
      match cs.dropWhile isGap with
      | marker :: c :: _ => Params.isMarker marker && isNameStart c
      | _ => false
  | _ => false

/-- The text `s` runs into the piece before it: into the name of a placeholder or a question mark,
or it makes a comment with a minus sign or a placeholder with a marker. -/
def joinsLeft (left : List Piece) (s : List Char) : Bool :=
  match left with
  | .named .. :: _ | .positional :: _ => s.head?.any isWord
  | .code c :: left =>
    c == '-' && s.head? == some '-' ||
      Params.isMarker c && !(backwards (put lit) left).head?.any isWord && s.head?.any isNameStart
  | _ => false

/-- The text `s` ends in a word that runs into the piece behind it: into a placeholder, or into the
keyword `IN` of a list. -/
def joinsRight (s : List Char) (right : List Piece) : Bool :=
  s.getLast?.any isWord &&
    match right with
    | .named .. :: _ | .positional :: _ => true
    | _ => opensList (right.flatMap (put lit))

/-- The text `s` is a word that completes a literal token, or a part of such a word. -/
def fillsBraces (left : List Piece) (s : List Char) (right : List Piece) : Bool :=
  s.all isWord && ['=', '\x7b'].isPrefixOf ((backwards (put lit) left).dropWhile isWord) &&
    ((right.flatMap (put lit)).dropWhile isWord).head? == some '\x7d'

/-- The text `s` touches what is next to it. -/
def touches (left : List Piece) (s : List Char) (right : List Piece) : Bool :=
  joinsLeft lit left s || joinsRight lit s right || fillsBraces lit left s right

/-- The text of no literal token touches what is next to it.  The pieces before are in backward
order. -/
def literalsApart (left : List Piece) : List Piece → Bool
  | [] => true
  | .literal name :: right =>
    !touches lit left (lit name) right && literalsApart (.literal name :: left) right
  | piece :: right => literalsApart (piece :: left) right

end Touching

variable {lit : List Char → List Char} {left right pieces : List Piece}

theorem eq_reverse_cons_append {piece : Piece} (h : pieces = left.reverse ++ piece :: right) :
    pieces = (piece :: left).reverse ++ right := by
  rw [List.reverse_cons, List.append_assoc]
  exact h

theorem literalsApart_cons {piece : Piece} (h : literalsApart lit left (piece :: right) = true) :
    literalsApart lit (piece :: left) right = true := by
  cases piece with
  | literal name => exact (Bool.and_eq_true_iff.1 h).2
  | _ => exact h

theorem touches_of_literalsApart {name : List Char} {mid : List Piece}
    (h : literalsApart lit left (mid ++ .literal name :: right) = true) :
    touches lit (mid.reverse ++ left) (lit name) right = false := by
  induction mid generalizing left with
  | nil => exact (Bool.not_eq_true' _).mp (Bool.and_eq_true_iff.1 h).1
  | cons piece mid ih =>
    rw [List.reverse_cons, List.append_assoc]
    exact ih (literalsApart_cons h)

/-- Pieces of a template with a text for each literal token, none of which touches anything. -/
structure LiteralsApart (lit : List Char → List Char) (pieces : List Piece) : Prop where
  text_ne_nil : ∀ piece ∈ pieces, piece.text ≠ []
  isLiteral : ∀ name, .literal name ∈ pieces → IsLiteral (lit name)
  apart : literalsApart lit [] pieces = true

theorem LiteralsApart.of_split {name : List Char} (h : LiteralsApart lit pieces)
    (hpieces : pieces = left.reverse ++ .literal name :: right) :
    joinsLeft lit left (lit name) = false ∧ joinsRight lit (lit name) right = false ∧
      fillsBraces lit left (lit name) right = false := by
  have hsplit := touches_of_literalsApart (hpieces ▸ h.apart)
  rwa [List.reverse_reverse, List.append_nil, touches, Bool.or_eq_false_iff, Bool.or_eq_false_iff,
    and_assoc] at hsplit

/-! ### Ends of literal texts -/

theorem IsLiteral.exists_head? {s : List Char} (h : IsLiteral s) :
    ∃ c, s.head? = some c ∧ (c = '\x27' ∨ c = '-' ∨ isWord c = true) := by
  cases h with
  | quoted => exact ⟨_, rfl, .inl rfl⟩
  | plain h =>
    obtain ⟨c, ds, rfl, hc⟩ := exists_cons_of_any_head? h.first
    exact ⟨c, rfl, .inr (.inr hc)⟩
  | negative => exact ⟨_, rfl, .inr (.inl rfl)⟩

theorem IsLiteral.exists_getLast? {s : List Char} (h : IsLiteral s) :
    ∃ c, s.getLast? = some c ∧ (c = '\x27' ∨ isEnd c = true) := by
  have hplain {cs : List Char} (h : Plain cs) :
      ∃ c, cs.getLast? = some c ∧ (c = '\x27' ∨ isEnd c = true) := by
    have hlast := h.last
    cases hc : cs.getLast? with
    | none => rw [hc] at hlast; cases hlast
    | some c => exact ⟨c, rfl, .inr (by rw [hc] at hlast; exact hlast)⟩
  cases h with
  | quoted => exact ⟨'\x27', by rw [← List.cons_append, List.getLast?_concat], .inl rfl⟩
  | plain h => exact hplain h
  | negative h =>
    obtain ⟨c, ds, rfl, -⟩ := exists_cons_of_any_head? h.first
    rw [List.getLast?_cons_cons]
    exact hplain h

theorem isWord_of_isEnd {c : Char} (h : isEnd c = true) : isWord c = true := by
  rw [isEnd, Bool.or_eq_true, beq_iff_eq] at h
  rcases h with h | rfl
  · exact isWord_of_isDigit h
  · rfl

theorem joinsQuestionMark_eq {c : Char} (h : c = '\x27' ∨ c = '-' ∨ isWord c = true) :
    joinsQuestionMark c = isWord c := by
  rcases h with rfl | rfl | h
  · decide
  · decide
  · rw [joinsQuestionMark, h]
    rfl

/-! ### What stands next to a piece -/

/-- The character behind a piece is the same in the statement, unless a literal token follows. -/
theorem head?_right (h : LiteralsApart lit pieces) (hpieces : pieces = left.reverse ++ right) :
    (right.flatMap (put lit)).head? = (right.flatMap Piece.text).head? ∨
      ∃ name right' c, right = .literal name :: right' ∧
        (right.flatMap Piece.text).head? = some '\x7b' ∧
        (right.flatMap (put lit)).head? = some c ∧ (lit name).head? = some c ∧
        (c = '\x27' ∨ c = '-' ∨ isWord c = true) := by
  cases right with
  | nil => exact .inl rfl
  | cons piece right =>
    have hmem : piece ∈ pieces := hpieces ▸ List.mem_append_right _ List.mem_cons_self
    cases piece with
    | literal name =>
      obtain ⟨c, hhead, hc⟩ := (h.isLiteral name hmem).exists_head?
      refine .inr ⟨name, right, c, rfl, rfl, ?_, hhead, hc⟩
      rw [List.flatMap_cons, put, List.head?_append, hhead, Option.some_or]
    | _ =>
      left
      obtain ⟨c, cs, htext⟩ := List.exists_cons_of_ne_nil (h.text_ne_nil _ hmem)
      simp only [List.flatMap_cons, put, htext, List.cons_append, List.head?_cons]

theorem head?_left (h : LiteralsApart lit pieces) (hpieces : pieces = left.reverse ++ right) :
    (backwards (put lit) left).head? = (backwards Piece.text left).head? ∨
      ∃ name left' c, left = .literal name :: left' ∧
        (backwards Piece.text left).head? = some '\x7d' ∧
        (backwards (put lit) left).head? = some c ∧ (lit name).getLast? = some c ∧
        (c = '\x27' ∨ isEnd c = true) := by
  cases left with
  | nil => exact .inl rfl
  | cons piece left =>
    have hmem : piece ∈ pieces :=
      hpieces ▸ List.mem_append_left _ (List.mem_reverse.2 List.mem_cons_self)
    cases piece with
    | literal name =>
      obtain ⟨c, hlast, hc⟩ := (h.isLiteral name hmem).exists_getLast?
      refine .inr ⟨name, left, c, rfl, ?_, ?_, hlast, hc⟩
      · simp [backwards, Piece.text]
      · rw [backwards, List.flatMap_cons, put, List.head?_append, List.head?_reverse, hlast,
          Option.some_or]
    | _ =>
      left
      have hne := List.reverse_ne_nil_iff.2 (h.text_ne_nil _ hmem)
      obtain ⟨c, cs, htext⟩ := List.exists_cons_of_ne_nil hne
      simp only [backwards, List.flatMap_cons, put, htext, List.cons_append, List.head?_cons]

/-! ### Single characters -/

theorem Reads.eq_code_of_equals {flags : Flags} {before rest : List Char} {piece : Piece}
    (h : Reads flags before piece rest) (hhead : piece.text.head? = some '=') :
    piece = .code '=' := by
  cases h with
  | quoted hquote => cases hhead; cases hquote
  | system hmarker => cases hhead; cases hmarker
  | named hmarker => cases hhead; cases hmarker
  | line | block | literal | positional => cases hhead
  | code => cases hhead; rfl

theorem head?_dropWhile_of_isLiteral {s : List Char} (h : IsLiteral s)
    (hall : s.all isWord = false) (rest : List Char) :
    ((s ++ rest).dropWhile isWord).head? ≠ some '\x7d' := by
  cases h with
  | quoted | negative => exact fun h => nomatch h
  | plain h =>
    cases hdrop : s.dropWhile isWord with
    | nil =>
      have htake := List.takeWhile_append_dropWhile (p := isWord) (l := s)
      rw [hdrop, List.append_nil] at htake
      rw [← htake, List.all_takeWhile] at hall
      cases hall
    | cons d ds =>
      have hword : isWord d = false := by
        have := any_head?_dropWhile isWord s
        rwa [hdrop] at this
      have hmem : d ∈ s := (List.dropWhile_sublist isWord).mem (hdrop ▸ List.mem_cons_self)
      rw [List.dropWhile_append, hdrop]
      rcases h.mem d hmem with hd | rfl
      · rw [hword] at hd
        cases hd
      · exact fun h => nomatch h

/-- Behind a text that is not a word, words go on as they do behind its end. -/
theorem takeWhile_dropWhile_append {cs : List Char} (h : cs.all isWord = false)
    (rest rest' : List Char) :
    (cs ++ rest).takeWhile isWord = (cs ++ rest').takeWhile isWord ∧
      ((cs ++ rest).dropWhile isWord).head? = ((cs ++ rest').dropWhile isWord).head? := by
  induction cs with
  | nil => cases h
  | cons c cs ih =>
    cases hc : isWord c with
    | false => simp [hc]
    | true =>
      rw [List.all_cons, hc, Bool.true_and] at h
      obtain ⟨htake, hdrop⟩ := ih h
      simp only [List.cons_append, List.takeWhile_cons, List.dropWhile_cons, hc, if_true, htake,
        hdrop, and_self]

/-- If the statement has a word and a closing brace after `{=`, so has the template. -/
theorem head?_dropWhile_put (h : LiteralsApart lit pieces)
    (hpieces : pieces = left.reverse ++ right)
    (hopen : ['=', '\x7b'].isPrefixOf ((backwards (put lit) left).dropWhile isWord) = true)
    (hclose : ((right.flatMap (put lit)).dropWhile isWord).head? = some '\x7d') :
    ((right.flatMap Piece.text).dropWhile isWord).head? = some '\x7d' ∧
      (right.flatMap (put lit)).takeWhile isWord = (right.flatMap Piece.text).takeWhile isWord := by
  induction right generalizing left with
  | nil => exact ⟨hclose, rfl⟩
  | cons piece right ih =>
    have hmem : piece ∈ pieces := hpieces ▸ List.mem_append_right _ List.mem_cons_self
    have hnext := eq_reverse_cons_append hpieces
    -- a piece that stays as it is
    have hkept (hput : put lit piece = piece.text) :
        (((piece :: right).flatMap Piece.text).dropWhile isWord).head? = some '\x7d' ∧
          ((piece :: right).flatMap (put lit)).takeWhile isWord =
            ((piece :: right).flatMap Piece.text).takeWhile isWord := by
      simp only [List.flatMap_cons, hput] at hclose ⊢
      cases hall : piece.text.all isWord with
      | false =>
        obtain ⟨htake, hdrop⟩ :=
          takeWhile_dropWhile_append hall (right.flatMap (put lit)) (right.flatMap Piece.text)
        exact ⟨hdrop.symm.trans hclose, htake⟩
      | true =>
        have hwords := List.all_eq_true.1 hall
        rw [List.dropWhile_append_of_pos hwords] at hclose
        obtain ⟨hhead, htake⟩ := ih hnext (by
          rw [backwards, List.flatMap_cons, hput, List.dropWhile_append_of_pos fun c hc =>
            hwords c (List.mem_reverse.1 hc)]
          exact hopen) hclose
        rw [List.dropWhile_append_of_pos hwords, List.takeWhile_append_of_pos hwords,
          List.takeWhile_append_of_pos hwords, htake]
        exact ⟨hhead, rfl⟩
    cases piece with
    | literal name =>
      have hfills := (h.of_split hpieces).2.2
      rw [List.flatMap_cons, put] at hclose
      cases hall : (lit name).all isWord with
      | false => exact absurd hclose (head?_dropWhile_of_isLiteral (h.isLiteral name hmem) hall _)
      | true =>
        rw [List.dropWhile_append_of_pos (List.all_eq_true.1 hall)] at hclose
        rw [fillsBraces, hall, hopen, hclose] at hfills
        cases hfills
    | _ => exact hkept rfl

theorem ne_of_begins {c d : Char} (h : c = '\x27' ∨ c = '-' ∨ isWord c = true)
    (hd : (d == '\x27' || d == '-' || isWord d) = false) : c ≠ d := by
  rintro rfl
  simp only [Bool.or_eq_false_iff, beq_eq_false_iff_ne] at hd
  rcases h with h | h | h
  · exact hd.1.1 h
  · exact hd.1.2 h
  · exact Bool.false_ne_true (hd.2.symm.trans h)

theorem not_closesBrace_put {flags : Flags} (h : LiteralsApart lit pieces)
    (hpieces : pieces = left.reverse ++ .code '\x7b' :: right)
    (hright : scanFrom flags ('\x7b' :: backwards Piece.text left) (right.flatMap Piece.text) =
      right)
    (hequals : (right.flatMap Piece.text).head? = some '=')
    (hopen : ¬ClosesBrace (right.flatMap Piece.text).tail) :
    ¬ClosesBrace (right.flatMap (put lit)).tail := by
  rintro ⟨hne, hclose⟩
  cases right with
  | nil => cases hequals
  | cons piece right =>
    have hreads := (reads_of_scanFrom_eq hright).1
    have hhead : piece.text.head? = some '=' := by
      obtain ⟨c, cs, htext⟩ := List.exists_cons_of_ne_nil hreads.text_ne_nil
      rw [List.flatMap_cons, htext, List.cons_append] at hequals
      rw [htext]
      exact hequals
    obtain rfl := hreads.eq_code_of_equals hhead
    have hnext := eq_reverse_cons_append (eq_reverse_cons_append hpieces)
    obtain ⟨hbrace, htake⟩ := head?_dropWhile_put h hnext rfl hclose
    exact hopen ⟨fun hnil => hne (htake.trans hnil), hbrace⟩

/-- A single character that begins nothing else in the template begins nothing else in the
statement. -/
theorem standsAlone_put {flags : Flags} {c : Char} (h : LiteralsApart lit pieces)
    (hpieces : pieces = left.reverse ++ .code c :: right)
    (hcode : StandsAlone flags (backwards Piece.text left) c (right.flatMap Piece.text))
    (hright : scanFrom flags (c :: backwards Piece.text left) (right.flatMap Piece.text) = right) :
    StandsAlone flags (backwards (put lit) left) c (right.flatMap (put lit)) := by
  have hnext := eq_reverse_cons_append hpieces
  -- a literal token that follows does not make anything together with the character
  have hjoins {name : List Char} {right' : List Piece} {d : Char}
      (hliteral : right = .literal name :: right') (hd : (lit name).head? = some d) :
      ¬(c = '-' ∧ d = '-') ∧ (Params.isMarker c = true →
        (backwards (put lit) left).head?.any isWord = true ∨ isNameStart d = false) := by
    have hleft := (h.of_split (hliteral ▸ hnext)).1
    simp only [joinsLeft, hd, Bool.or_eq_false_iff] at hleft
    constructor
    · rintro ⟨rfl, rfl⟩
      cases hleft.1
    · intro hmarker
      have hnamed := hleft.2
      rw [hmarker, Bool.true_and, Bool.and_eq_false_iff, Bool.not_eq_false'] at hnamed
      exact hnamed
  -- the character behind is not one of those that begin no literal text
  have hhead {d : Char} (hd : (d == '\x27' || d == '-' || isWord d) = false)
      (heq : (right.flatMap (put lit)).head? = some d) :
      (right.flatMap Piece.text).head? = some d := by
    rcases head?_right h hnext with hsame | ⟨_, _, e, _, _, hput, _, he⟩
    · exact hsame ▸ heq
    · exact absurd (Option.some.inj (hput.symm.trans heq)) (ne_of_begins he hd)
  refine ⟨hcode.quote, ?_, ?_, ?_, ?_, ?_, ?_⟩
  · intro hc heq
    rcases head?_right h hnext with hsame | ⟨name, right', e, hliteral, _, hput, hlit, _⟩
    · exact hcode.line hc (hsame ▸ heq)
    · exact (hjoins hliteral hlit).1 ⟨hc, Option.some.inj (hput.symm.trans heq)⟩
  · exact fun hc heq => hcode.block hc (hhead rfl heq)
  · rintro rfl hflag heq
    have hequals := hhead rfl heq
    exact not_closesBrace_put h hpieces hright hequals (hcode.literal rfl hflag hequals)
  · intro hmarker heq
    refine hcode.system hmarker (hhead ?_ heq)
    rcases isMarker_iff.1 hmarker with rfl | rfl <;> decide
  · intro hmarker
    rcases hcode.named hmarker with hword | hstart
    · rcases head?_left h hpieces with hsame | ⟨_, _, _, _, hbrace, _⟩
      · exact .inl (hsame ▸ hword)
      · rw [hbrace] at hword
        cases hword
    · rcases head?_right h hnext with hsame | ⟨name, right', d, hliteral, _, hput, hlit, _⟩
      · exact .inr (hsame ▸ hstart)
      · exact ((hjoins hliteral hlit).2 hmarker).imp_right fun hd => by rw [hput]; exact hd
  · intro hmark hflag
    rcases hcode.positional hmark hflag with hjoined | hjoined
    · rcases head?_left h hpieces with hsame | ⟨_, _, _, _, hbrace, _⟩
      · exact .inl (hsame ▸ hjoined)
      · rw [hbrace] at hjoined
        cases hjoined
    · rcases head?_right h hnext with hsame | ⟨_, _, _, _, hbrace, _⟩
      · exact .inr (hsame ▸ hjoined)
      · rw [hbrace] at hjoined
        cases hjoined

/-! ### Placeholders -/

/-- Next to a literal text, the characters of the class are those of words. -/
def LikeWord (q : Char → Bool) : Prop :=
  ∀ c, c = '\x27' ∨ c = '-' ∨ isWord c = true → q c = isWord c

theorem likeWord_isWord : LikeWord isWord := fun _ _ => rfl

theorem likeWord_joinsQuestionMark : LikeWord joinsQuestionMark := fun _ => joinsQuestionMark_eq

variable {piece : Piece} {q : Char → Bool}

/-- No literal text joins a placeholder behind it. -/
theorem any_left_put (h : LiteralsApart lit pieces)
    (hpiece : piece.isNamed = true ∨ piece.isPositional = true)
    (hpieces : pieces = left.reverse ++ piece :: right) (hq : LikeWord q)
    (hbefore : (backwards Piece.text left).head?.any q = false) :
    (backwards (put lit) left).head?.any q = false := by
  rcases head?_left h hpieces with hsame | ⟨name, left', c, rfl, -, hput, hlast, hc⟩
  · rw [hsame, hbefore]
  · rw [List.reverse_cons, List.append_assoc] at hpieces
    have hjoins : joinsRight lit (lit name) (piece :: right) = false := (h.of_split hpieces).2.1
    have hword : isWord c = false := by
      cases piece with
      | named | positional =>
        simp only [joinsRight, hlast, Bool.and_true] at hjoins
        exact hjoins
      | code | quoted | comment | system | literal => rcases hpiece with h | h <;> cases h
    have hends : c = '\x27' ∨ c = '-' ∨ isWord c = true :=
      hc.imp_right fun hend => .inr (isWord_of_isEnd hend)
    rw [hput, Option.any_some, hq c hends, hword]

/-- No literal text joins a placeholder before it. -/
theorem any_right_put (h : LiteralsApart lit pieces)
    (hpiece : piece.isNamed = true ∨ piece.isPositional = true)
    (hpieces : pieces = left.reverse ++ piece :: right) (hq : LikeWord q)
    (hafter : (right.flatMap Piece.text).head?.any q = false) :
    (right.flatMap (put lit)).head?.any q = false := by
  have hnext := eq_reverse_cons_append hpieces
  rcases head?_right h hnext with hsame | ⟨name, right', c, rfl, -, hput, hhead, hc⟩
  · rw [hsame, hafter]
  · have hjoins := (h.of_split hnext).1
    have hword : isWord c = false := by
      cases piece with
      | named | positional =>
        simp only [joinsLeft, hhead] at hjoins
        exact hjoins
      | code | quoted | comment | system | literal => rcases hpiece with h | h <;> cases h
    rw [hput, Option.any_some, hq c hc, hword]

/-! ### The keyword `IN` -/

/-- The characters are the keyword `IN`, given backwards, and what precedes them is no word. -/
def endsInKeyword : List Char → Bool
  | n :: i :: front => n.toLower == 'n' && i.toLower == 'i' && !front.head?.any isWord
  | _ => false

/-- A text, given backwards, has blanks and what precedes them. -/
theorem exists_gaps (before : List Char) :
    ∃ gaps word, before = gaps ++ word ∧ (∀ c ∈ gaps, isGap c = true) ∧
      word.head?.any isGap = false :=
  ⟨before.takeWhile isGap, before.dropWhile isGap, List.takeWhile_append_dropWhile.symm,
    List.all_eq_true.1 List.all_takeWhile, any_head?_dropWhile isGap before⟩

theorem followsIn_append {gaps front : List Char} (hgaps : ∀ c ∈ gaps, isGap c = true)
    (hfront : front.head?.any isGap = false) :
    followsIn (gaps ++ front) = (!gaps.isEmpty && endsInKeyword front) := by
  rw [followsIn, takeWhile_append_rest hgaps hfront, dropWhile_append_rest hgaps hfront]
  cases gaps with
  | nil => rfl
  | cons gap gaps =>
    match front with
    | [] | [_] | _ :: _ :: _ => rfl

theorem opensList_append {gaps : List Char} {i n marker c : Char}
    (hi : i.toLower = 'i') (hn : n.toLower = 'n') (hgaps : ∀ c ∈ gaps, isGap c = true)
    (hne : gaps ≠ []) (hmarker : Params.isMarker marker = true) (hc : isNameStart c = true)
    (cs : List Char) :
    opensList (i :: n :: (gaps ++ marker :: c :: cs)) = true := by
  have hdrop : (gaps ++ marker :: c :: cs).dropWhile isGap = marker :: c :: cs :=
    dropWhile_append_rest hgaps (isGap_eq_false_of_isMarker hmarker)
  obtain ⟨gap, gaps, rfl⟩ := List.exists_cons_of_ne_nil hne
  have hhead : (gap :: gaps ++ marker :: c :: cs).head?.any isGap = true :=
    hgaps gap List.mem_cons_self
  simp only [opensList, hi, hn, hhead, hdrop, hmarker, hc, beq_self_eq_true, Bool.and_self]

theorem endsInKeyword_of_ne {c : Char} (h : c.toLower ≠ 'n') (front : List Char) :
    endsInKeyword (c :: front) = false := by
  cases front with
  | nil => rfl
  | cons i front => simp only [endsInKeyword, beq_eq_false_iff_ne.2 h, Bool.false_and]

theorem not_keyword_of_isEnd {c : Char} (h : c = '\x27' ∨ isEnd c = true) :
    isGap c = false ∧ c.toLower ≠ 'n' ∧ c.toLower ≠ 'i' := by
  rw [isEnd, Bool.or_eq_true, beq_iff_eq] at h
  rcases h with rfl | h | rfl
  · decide
  · have hne {d : Char} (hd : d.isDigit = false) : c ≠ d := by
      rintro rfl
      exact Bool.false_ne_true (hd.symm.trans h)
    simp only [isGap, Bool.or_eq_false_iff, beq_eq_false_iff_ne, Text.toLower_of_isDigit h]
    exact ⟨⟨⟨⟨⟨hne rfl, hne rfl⟩, hne rfl⟩, hne rfl⟩, hne rfl⟩, hne rfl, hne rfl⟩
  · decide

/-- Whether a list follows `IN` does not change when a literal text comes before it, in the place of
its token, unless the text ends in a word and the keyword follows at once. -/
theorem followsIn_congr {e : Char} (he : e = '\x27' ∨ isEnd e = true)
    {mid front front' : List Char}
    (hlist : isWord e = true → ∀ i n gaps, mid = gaps ++ [n, i] → i.toLower = 'i' →
      n.toLower = 'n' → (∀ c ∈ gaps, isGap c = true) → gaps = []) :
    followsIn (mid ++ e :: front') = followsIn (mid ++ '\x7d' :: front) := by
  obtain ⟨hgap, hn, hi⟩ := not_keyword_of_isEnd he
  obtain ⟨gaps, word, hmid, hgaps, hdrop⟩ := exists_gaps mid
  have hfront {c : Char} (hc : isGap c = false) (cs : List Char) :
      (word ++ c :: cs).head?.any isGap = false := by
    cases word with
    | nil => exact hc
    | cons d word => exact hdrop
  rw [hmid, List.append_assoc, List.append_assoc, followsIn_append hgaps (hfront hgap _),
    followsIn_append hgaps (hfront rfl _)]
  cases hempty : gaps.isEmpty with
  | true => rfl
  | false =>
    refine congrArg _ ?_
    -- how much of the keyword there is before the literal text
    match word with
    | [] =>
      rw [List.nil_append, List.nil_append, endsInKeyword_of_ne hn, endsInKeyword_of_ne (by decide)]
    | [n] =>
      simp only [List.cons_append, List.nil_append, endsInKeyword, beq_eq_false_iff_ne.2 hi]
      simp
    | [n, i] =>
      simp only [List.cons_append, List.nil_append, endsInKeyword, List.head?_cons, Option.any_some]
      cases hword : isWord e with
      | false => rfl
      | true =>
        have hnot : (n.toLower == 'n' && i.toLower == 'i') = false := by
          refine Bool.eq_false_iff.2 fun hin => ?_
          rw [Bool.and_eq_true, beq_iff_eq, beq_iff_eq] at hin
          rw [hlist hword i n gaps hmid hin.2 hin.1 hgaps] at hempty
          cases hempty
        rw [hnot, Bool.false_and, Bool.false_and]
    | _ :: _ :: _ :: _ => rfl

theorem reverse_backwards (f : Piece → List Char) (left : List Piece) :
    (backwards f left).reverse = left.reverse.flatMap f := by
  induction left with
  | nil => rfl
  | cons piece left ih =>
    rw [backwards, List.flatMap_cons, List.reverse_append, List.reverse_reverse, ← backwards, ih,
      List.reverse_cons, List.flatMap_append, List.flatMap_singleton]

theorem exists_last_literal (lit : List Char → List Char) (left : List Piece) :
    backwards (put lit) left = backwards Piece.text left ∨
      ∃ mid name left', left = mid ++ .literal name :: left' ∧
        backwards (put lit) mid = backwards Piece.text mid := by
  induction left with
  | nil => exact .inl rfl
  | cons piece left ih =>
    have hkept (hput : put lit piece = piece.text) :
        backwards (put lit) (piece :: left) = backwards Piece.text (piece :: left) ∨
          ∃ mid name left', piece :: left = mid ++ .literal name :: left' ∧
            backwards (put lit) mid = backwards Piece.text mid := by
      rcases ih with hsame | ⟨mid, name, left', rfl, hsame⟩
      · refine .inl ?_
        rw [backwards, List.flatMap_cons, hput, ← backwards, hsame]
        rfl
      · refine .inr ⟨piece :: mid, name, left', rfl, ?_⟩
        rw [backwards, List.flatMap_cons, hput, ← backwards, hsame]
        rfl
    cases piece with
    | literal name => exact .inr ⟨[], name, left, rfl, rfl⟩
    | _ => exact hkept rfl

theorem opensList_eq_false {s : List Char} (h : joinsRight lit s right = false)
    (hword : s.getLast?.any isWord = true) : opensList (right.flatMap (put lit)) = false := by
  unfold joinsRight at h
  rw [hword, Bool.true_and] at h
  split at h
  · cases h
  · cases h
  · exact h

theorem followsIn_put {marker : Char} {name : List Char} {afterIn : Bool}
    (h : LiteralsApart lit pieces)
    (hpieces : pieces = left.reverse ++ .named marker name afterIn :: right)
    (hmarker : Params.isMarker marker = true) (hstart : name.head?.any isNameStart = true) :
    followsIn (backwards (put lit) left) = followsIn (backwards Piece.text left) := by
  rcases exists_last_literal lit left with hsame | ⟨mid, literalName, left', rfl, hsame⟩
  · rw [hsame]
  · have hmem : .literal literalName ∈ pieces := by
      rw [hpieces]
      simp
    obtain ⟨e, hlast, he⟩ := (h.isLiteral literalName hmem).exists_getLast?
    obtain ⟨front', hfront'⟩ : ∃ front', (lit literalName).reverse = e :: front' :=
      List.head?_eq_some_iff.1 (by rw [List.head?_reverse, hlast])
    obtain ⟨c, cs, rfl, -⟩ := exists_cons_of_any_head? hstart
    rw [List.reverse_append, List.reverse_cons, List.append_assoc, List.append_assoc] at hpieces
    have hjoins : joinsRight lit (lit literalName)
        (mid.reverse ++ .named marker (c :: cs) afterIn :: right) = false :=
      (h.of_split hpieces).2.1
    have hput : backwards (put lit) (mid ++ .literal literalName :: left') =
        backwards Piece.text mid ++ e :: (front' ++ backwards (put lit) left') := by
      rw [backwards, List.flatMap_append, ← backwards, hsame, List.flatMap_cons, put, hfront']
      rfl
    have htext : backwards Piece.text (mid ++ .literal literalName :: left') =
        backwards Piece.text mid ++ '\x7d' ::
          (literalName.reverse ++ ['=', '\x7b'] ++ backwards Piece.text left') := by
      rw [backwards, List.flatMap_append, List.flatMap_cons]
      simp [backwards, Piece.text]
    rw [hput, htext]
    refine followsIn_congr he fun hword i n gaps hmid hi hn hgaps => ?_
    by_contra hne
    have hopens := opensList_append hi hn (fun c hc => hgaps c (List.mem_reverse.1 hc))
      (List.reverse_ne_nil_iff.2 hne) hmarker hstart (cs ++ right.flatMap (put lit))
    have hnot := opensList_eq_false hjoins (by rw [hlast]; exact hword)
    have hkeyword : (mid.reverse ++ .named marker (c :: cs) afterIn :: right).flatMap (put lit) =
        i :: n :: (gaps.reverse ++ marker :: c :: (cs ++ right.flatMap (put lit))) := by
      rw [List.flatMap_append, ← reverse_backwards, hsame, hmid, List.reverse_append]
      rfl
    rw [hkeyword, hopens] at hnot
    cases hnot

end Template

end RowMapping
