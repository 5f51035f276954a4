import RowMapping.Proofs.Template.Keyword

/-!
# Lists in brackets

A list that follows the keyword `IN` is written with brackets.  If the template has the brackets
already, the same placeholder is named and not one for a list, and what comes in its place has none.
The two templates are the same query.

* `Template.scanFrom_front_blank`: what is read before a blank does not depend on what follows it;
* `Template.scanFrom_behind`: what is read behind a name does not depend on the name, if it is not
  the keyword itself;
* `Part.SameStatement`: parts that make the same statement, wherever they stand;
* `Template.render_bracketed`: with and without brackets, the statement is the same.
-/

namespace RowMapping

namespace Template

variable {flags : Flags} {before before' cs rest : List Char} {piece : Piece}
  {left right : List Piece} {c marker : Char} {name : List Char}

/-! ### Before a blank -/

theorem isBorder_of_isGap (h : isGap c = true) : isBorder c = true := by
  simp only [isGap, Bool.or_eq_true, beq_iff_eq] at h
  rcases h with (((rfl | rfl) | rfl) | rfl) | rfl <;> rfl

theorem standsAlone_of_isGap (h : isGap c = true) : StandsAlone flags before c rest := by
  simp only [isGap, Bool.or_eq_true, beq_iff_eq] at h
  rcases h with (((rfl | rfl) | rfl) | rfl) | rfl <;>
    exact standsAlone_of_notMem (by decide) (by decide) (by decide)

theorem standsAlone_of_bracket (h : c = '(' ∨ c = ')') : StandsAlone flags before c rest := by
  rcases h with rfl | rfl <;> exact standsAlone_of_notMem (by decide) (by decide) (by decide)

theorem Reads.congr_line {body : List Char}
    (h : Reads flags before (Segment.closed .line body).piece rest) (hrest : rest ≠ [])
    (rest' : List Char) : Reads flags before (Segment.closed .line body).piece rest' := by
  cases h with
  | line h =>
    have hne : (throughNewline (body ++ Delimiter.line.closer ++ rest)).2 ≠ [] := by
      rw [h]
      exact hrest
    have hother := throughNewline_append_other hne rest'
    rw [h] at hother
    exact .line hother

theorem Reads.congr_blank (h : Reads flags before piece rest) (hrest : rest ≠ [])
    (hlast : piece.text.getLast? = some c) (hc : isGap c = true) (rest' : List Char) :
    Reads flags before piece rest' := by
  cases h.ends hrest hlast with
  | code => exact .code (standsAlone_of_isGap hc)
  | line => exact h.congr_line hrest rest'
  | name _ _ _ hgap | other hgap => exact (Bool.false_ne_true (hgap.symm.trans hc)).elim

theorem Reads.any_isBorder_of_blank (h : Reads flags before piece rest) (hrest : rest ≠ [])
    (hlast : piece.text.getLast? = some c) (hc : isGap c = true) :
    piece.text.head?.any isBorder = true := by
  cases h.ends hrest hlast with
  | code => exact isBorder_of_isGap hc
  | line => rfl
  | name _ _ _ hgap | other hgap => exact (Bool.false_ne_true (hgap.symm.trans hc)).elim

/-- **The pieces that end in a blank** do not depend on what follows. -/
theorem scanFrom_front_blank (h : scanFrom flags before cs = left ++ right)
    (hright : right.flatMap Piece.text ≠ [])
    (hlast : (left.flatMap Piece.text).getLast?.any isGap = true) (rest : List Char) :
    scanFrom flags before (left.flatMap Piece.text ++ rest) =
      left ++ scanFrom flags ((left.flatMap Piece.text).reverse ++ before) rest := by
  rcases List.eq_nil_or_concat left with rfl | ⟨left, last, rfl⟩
  · cases hlast
  · simp only [List.concat_eq_append, List.flatMap_append, List.flatMap_singleton,
      List.append_assoc, List.singleton_append] at h hlast ⊢
    have hreads := reads_of_scanFrom_eq_append h
    rw [List.getLast?_append_of_ne_nil _ hreads.text_ne_nil] at hlast
    obtain ⟨g, hg, hgap⟩ := (Option.any_eq_true _ _).1 hlast
    obtain ⟨c, tail, htext, hborder⟩ :=
      exists_cons_of_any_head? (hreads.any_isBorder_of_blank hright hg hgap)
    have hbehind : (last :: right).flatMap Piece.text =
        c :: (tail ++ right.flatMap Piece.text) := by
      rw [List.flatMap_cons, htext]
      rfl
    -- the piece with the blank begins where the scanner looks no further, and is read as before
    have hfront : scanFrom flags before (left.flatMap Piece.text ++ c :: (tail ++ rest)) =
        left ++
          scanFrom flags ((left.flatMap Piece.text).reverse ++ before) (c :: (tail ++ rest)) :=
      scanFrom_front h hbehind hborder
    rw [← List.cons_append, ← htext, (hreads.congr_blank hright hg hgap rest).scanFrom_eq] at hfront
    rw [hfront, List.reverse_append, List.append_assoc]

/-! ### Behind a name -/

/-- The character may begin a piece that depends on what comes before it. -/
def looksBack (c : Char) : Bool := Params.isMarker c || c == '?'

theorem any_looksBack (h : Params.isMarker c = true ∨ c = '?') :
    (c :: cs).head?.any looksBack = true := by
  rw [List.head?_cons, Option.any_some, looksBack, Bool.or_eq_true, beq_iff_eq]
  exact h

theorem Reads.congr_of_not_looksBack (h : Reads flags before piece rest)
    (hhead : piece.text.head?.any looksBack = false) : Reads flags before' piece rest := by
  cases h with
  | quoted hquote h => exact .quoted hquote h
  | line h => exact .line h
  | block h => exact .block h
  | literal hflag hne hname => exact .literal hflag hne hname
  | system hmarker hname hrest => exact .system hmarker hname hrest
  | named hmarker => cases hhead.symm.trans (any_looksBack (.inl hmarker))
  | positional => cases hhead
  | @code c _ h =>
    have hc : ¬(Params.isMarker c = true ∨ c = '?') := fun hc => by
      cases hhead.symm.trans (any_looksBack hc)
    exact .code { h with
      named := fun hmarker => absurd (.inl hmarker) hc
      positional := fun hmark => absurd (.inr hmark) hc }

theorem Reads.of_named {afterIn : Bool} (h : Reads flags before (.named marker name afterIn) rest) :
    followsIn before = afterIn ∧ Params.isMarker marker = true ∧
      name.head?.any isNameStart = true ∧ ∀ c ∈ name, isWord c = true := by
  generalize hpiece : Piece.named marker name afterIn = piece at h
  cases h with
  | named hmarker _ hstart hname =>
    cases hpiece
    exact ⟨rfl, hmarker, hstart, hname⟩
  | quoted | line | block | system | literal | positional | code => cases hpiece

/-- What is read depends on the character before it, and on whether the text before it ends in the
keyword. -/
theorem Reads.congr_before (h : Reads flags before piece rest)
    (hhead : before.head? = before'.head?) (hin : followsIn before = followsIn before') :
    Reads flags before' piece rest := by
  obtain ⟨piece', hsame, h'⟩ := h.exists_congr_before hhead
  cases hsame with
  | refl => exact h'
  | named =>
    rw [← h.of_named.1, hin, h'.of_named.1]
    exact h'

theorem endsInKeyword_append {word : List Char} (hne : word ≠ [])
    (hlast : word.getLast?.any isWord = false) (before : List Char) :
    endsInKeyword (word ++ before) = endsInKeyword word := by
  have hletter {c d : Char} (hc : isWord c = false) (hd : d.isLower = true) :
      (c.toLower == d) = false :=
    beq_eq_false_iff_ne.2 fun h => Bool.false_ne_true (hc.symm.trans (isWord_of_toLower h hd))
  match word with
  | [] => exact absurd rfl hne
  | [n] =>
    have hn : (n.toLower == 'n') = false := hletter hlast rfl
    cases before <;>
      simp only [List.cons_append, List.nil_append, endsInKeyword, hn, Bool.false_and]
  | [n, i] =>
    have hi : (i.toLower == 'i') = false := hletter hlast rfl
    simp only [List.cons_append, List.nil_append, endsInKeyword, hi, Bool.and_false, Bool.false_and]
  | _ :: _ :: _ :: _ => rfl

/-- Behind a text that does not end in the keyword, the keyword is in what was read since then, if
that does not begin with a word. -/
theorem followsIn_append_of_not_keyword {mid : List Char}
    (hgap : before.head?.any isGap = false) (hkeyword : endsInKeyword before = false)
    (hmid : mid.getLast?.any isWord = false) : followsIn (mid ++ before) = followsIn mid := by
  obtain ⟨gaps, word, rfl, hgaps, hword⟩ := exists_gaps mid
  rw [List.append_assoc, followsIn_append hgaps hword]
  by_cases hne : word = []
  · rw [hne, List.nil_append, followsIn_append hgaps hgap, hkeyword]
    rfl
  · have hhead : (word ++ before).head?.any isGap = false := by
      rwa [List.head?_append_of_ne_nil _ hne]
    rw [List.getLast?_append_of_ne_nil _ hne] at hmid
    rw [followsIn_append hgaps hhead, endsInKeyword_append hne hmid]

/-- What is read since then does not depend on what was read before. -/
theorem scanFrom_append_congr (hfollows : ∀ mid : List Char, mid.getLast?.any isWord = false →
      followsIn (mid ++ before) = followsIn (mid ++ before'))
    {mid : List Char} (hne : mid ≠ []) (hmid : mid.getLast?.any isWord = false) (cs : List Char) :
    scanFrom flags (mid ++ before) cs = scanFrom flags (mid ++ before') cs := by
  generalize hbefore : mid ++ before = front
  fun_induction scanFrom flags front cs generalizing mid with
  | case1 => rw [scanFrom]
  | @case2 front c rest r ih =>
    subst hbefore
    have hreads : Reads flags (mid ++ before) r.1 r.2 := reads_firstPiece flags _ c rest
    have hhead : (mid ++ before).head? = (mid ++ before').head? := by
      rw [List.head?_append_of_ne_nil _ hne, List.head?_append_of_ne_nil _ hne]
    have hscan := (hreads.congr_before hhead (hfollows mid hmid)).scanFrom_eq
    have htext : r.1.text ++ r.2 = c :: rest := text_firstPiece flags _ c rest
    have hlast : (r.1.text.reverse ++ mid).getLast?.any isWord = false := by
      rwa [List.getLast?_append_of_ne_nil _ hne]
    rw [htext] at hscan
    rw [hscan, ih (List.append_ne_nil_of_right_ne_nil _ hne) hlast (List.append_assoc _ _ _),
      List.append_assoc]

/-- **What is read behind a text** does not depend on the text, if this does not end in the keyword
and neither a word nor a placeholder follows at once. -/
theorem scanFrom_behind (hgap : before.head?.any isGap = false)
    (hgap' : before'.head?.any isGap = false) (hkeyword : endsInKeyword before = false)
    (hkeyword' : endsInKeyword before' = false)
    (hcs : cs.head?.any (fun c => isWord c || looksBack c) = false) :
    scanFrom flags before cs = scanFrom flags before' cs := by
  cases cs with
  | nil => rw [scanFrom, scanFrom]
  | cons c rest =>
    obtain ⟨hword, hlooks⟩ := Bool.or_eq_false_iff.1 hcs
    have hreads := reads_firstPiece flags before c rest
    have htext := text_firstPiece flags before c rest
    generalize firstPiece flags before c rest = r at hreads htext
    obtain ⟨d, tail, hpiece⟩ := List.exists_cons_of_ne_nil hreads.text_ne_nil
    obtain rfl : d = c := by
      rw [hpiece] at htext
      exact (List.cons.inj htext).1
    have hhead : r.1.text.head?.any looksBack = false := by
      rw [hpiece]
      exact hlooks
    have hother : Reads flags before' r.1 r.2 := hreads.congr_of_not_looksBack hhead
    have hscan := hreads.scanFrom_eq
    have hscan' := hother.scanFrom_eq
    rw [htext] at hscan hscan'
    rw [hscan, hscan']
    refine congrArg (r.1 :: ·) (scanFrom_append_congr (fun mid hmid => ?_) ?_ ?_ r.2)
    · rw [followsIn_append_of_not_keyword hgap hkeyword hmid,
        followsIn_append_of_not_keyword hgap' hkeyword' hmid]
    · exact List.reverse_ne_nil_iff.2 hreads.text_ne_nil
    · rw [List.getLast?_reverse, hpiece]
      exact hword

/-! ### Brackets around a placeholder -/

theorem EndsInKeyword.any_isGap (h : EndsInKeyword cs) : cs.getLast?.any isGap = true := by
  obtain ⟨front, i, n, gaps, rfl, hword⟩ := h
  have hsplit : front ++ i :: n :: gaps = front ++ [i, n] ++ gaps := by simp
  rw [hsplit, List.getLast?_append_of_ne_nil _ hword.ne_nil,
    List.getLast?_eq_some_getLast hword.ne_nil]
  exact hword.isGap _ (List.getLast_mem hword.ne_nil)

theorem not_keyword_of_name (hmarker : Params.isMarker marker = true) (hne : name ≠ [])
    (hname : ∀ c ∈ name, isWord c = true) (hin : name.map Char.toLower ≠ ['i', 'n']) :
    ((marker :: name).reverse ++ before).head?.any isGap = false ∧
      endsInKeyword ((marker :: name).reverse ++ before) = false := by
  have hnotword := isWord_eq_false_of_isMarker hmarker
  have hwords : ∀ c ∈ name.reverse, isWord c = true := fun c hc => hname c (List.mem_reverse.1 hc)
  have hin : name.reverse.map Char.toLower ≠ ['n', 'i'] := fun h => hin <| by
    rw [List.map_reverse, List.reverse_eq_iff] at h
    exact h
  rw [List.reverse_cons, List.append_assoc, List.singleton_append]
  rcases hreverse : name.reverse with _ | ⟨n, letters⟩
  · exact absurd (List.reverse_eq_nil_iff.1 hreverse) hne
  · rw [hreverse] at hwords hin
    refine ⟨isGap_eq_false_of_isWord (hwords n List.mem_cons_self), ?_⟩
    rcases letters with _ | ⟨i, _ | ⟨c, letters⟩⟩
    · have hletter : (marker.toLower == 'i') = false := beq_eq_false_iff_ne.2 fun h =>
        Bool.false_ne_true (hnotword.symm.trans (isWord_of_toLower h rfl))
      simp only [List.singleton_append, endsInKeyword, hletter, Bool.and_false, Bool.false_and]
    · have hletters : (n.toLower == 'n' && i.toLower == 'i') = false := by
        refine Bool.eq_false_iff.2 fun h => hin ?_
        rw [Bool.and_eq_true, beq_iff_eq, beq_iff_eq] at h
        rw [List.map_cons, List.map_singleton, h.1, h.2]
      simp only [List.cons_append, endsInKeyword, hletters, Bool.false_and]
    · have hc : isWord c = true := hwords c (by simp)
      simp only [List.cons_append, endsInKeyword, List.head?_cons, Option.any_some, hc,
        Bool.not_true, Bool.and_false]

/-- **Brackets around a placeholder that follows the keyword.**  All other pieces are the same, and
the placeholder is the same but for the keyword. -/
theorem scan_bracketed (hscan : scan flags cs = left ++ .named marker name true :: right)
    (hin : name.map Char.toLower ≠ ['i', 'n'])
    (hback : (right.flatMap Piece.text).head?.any (fun c => isWord c || looksBack c) = false) :
    scan flags
        (left.flatMap Piece.text ++ '(' :: marker :: name ++ ')' :: right.flatMap Piece.text) =
      left ++ .code '(' :: .named marker name false :: .code ')' :: right := by
  have hreads := reads_of_scanFrom_eq_append hscan
  obtain ⟨hfollows, hmarker, hstart, hname⟩ := hreads.of_named
  have hne : name ≠ [] := by
    rintro rfl
    cases hstart
  rw [List.append_nil] at hreads hfollows
  have hgap := (followsIn_reverse_iff.1 hfollows).any_isGap
  have hfront (rest : List Char) :
      scan flags (left.flatMap Piece.text ++ rest) =
        left ++ scanFrom flags (left.flatMap Piece.text).reverse rest := by
    rw [scan, scanFrom_front_blank hscan (List.cons_ne_nil _ _) hgap, List.append_nil]
  have hright := (reads_of_scanFrom_eq (scanFrom_back hscan)).2
  rw [List.append_nil] at hright
  generalize (left.flatMap Piece.text).reverse = front at hfront hright
  -- the three pieces that are read instead of one
  have hopen : Reads flags front (.code '(') (marker :: name ++ ')' :: right.flatMap Piece.text) :=
    .code (standsAlone_of_bracket (.inl rfl))
  have hnamed : Reads flags ('(' :: front) (.named marker name false)
      (')' :: right.flatMap Piece.text) :=
    .named hmarker rfl hstart hname rfl
  have hclose : Reads flags ((marker :: name).reverse ++ '(' :: front) (.code ')')
      (right.flatMap Piece.text) :=
    .code (standsAlone_of_bracket (.inr rfl))
  have hbehind : scanFrom flags (')' :: ((marker :: name).reverse ++ '(' :: front))
      (right.flatMap Piece.text) = right := by
    obtain ⟨hgap, hkeyword⟩ := not_keyword_of_name hmarker hne hname hin
    exact (scanFrom_behind rfl hgap (endsInKeyword_of_ne (by decide) _) hkeyword hback).trans hright
  have hopen := hopen.scanFrom_eq
  have hnamed := hnamed.scanFrom_eq
  have hclose := hclose.scanFrom_eq
  simp only [Piece.text, List.reverse_singleton, List.singleton_append] at hopen hnamed hclose
  rw [List.append_assoc, hfront, List.cons_append, hopen, hnamed, hclose, hbehind]

end Template

/-! ### Parts that make the same statement -/

namespace Part

variable {o : Options} {ps qs : List Part}

/-- The parts have the same text, and bind the same whatever is bound before them. -/
structure SameStatement (o : Options) (ps qs : List Part) : Prop where
  text_eq : ps.flatMap (text o) = qs.flatMap (text o)
  bindings_eq : ∀ seen, allBindings o seen ps = allBindings o seen qs

theorem SameStatement.cons (h : SameStatement o ps qs) (part : Part) :
    SameStatement o (part :: ps) (part :: qs) where
  text_eq := by rw [List.flatMap_cons, List.flatMap_cons, h.text_eq]
  bindings_eq seen := by
    unfold allBindings
    cases part.key? with
    | none => simp only [h.bindings_eq]
    | some key => simp only [h.bindings_eq]

theorem withoutBrackets_append (inner : List Char) :
    withoutBrackets ('(' :: inner ++ [')']) = inner := by
  rw [List.cons_append, withoutBrackets, List.getLast?_concat, if_pos rfl, List.dropLast_concat]

theorem text_bracketed {inner : String} (hempty : o.emptyList = "(" ++ inner ++ ")")
    (marker : Char) (name : List Char) (vs : List Value) :
    (expanded marker name true vs).text o =
      '(' :: (expanded marker name false vs).text o ++ [')'] := by
  have hbrackets : o.emptyList.toList = '(' :: inner.toList ++ [')'] := by
    rw [hempty, String.toList_append, String.toList_append]
    rfl
  simp only [text]
  split
  · rw [hbrackets, withoutBrackets_append]
    rfl
  · rfl

theorem sameStatement_bracketed {inner : String} (hempty : o.emptyList = "(" ++ inner ++ ")")
    (marker : Char) (name : List Char) (vs : List Value) (parts : List Part) :
    SameStatement o (expanded marker name true vs :: parts)
      (plain ['('] :: expanded marker name false vs :: plain [')'] :: parts) where
  text_eq := by
    rw [List.flatMap_cons, text_bracketed hempty]
    simp [text]
  bindings_eq seen := rfl

end Part

namespace Template

open Text (byteCount)

variable {p : Params} {o : Options} {ps qs : List Piece} {flags : Flags}

theorem resolve_append_congr
    (h : ∀ left, SameOutcome (Part.SameStatement o) (resolve p left ps) (resolve p left qs))
    (front : List Piece) (left : List (String × ParamValue)) :
    SameOutcome (Part.SameStatement o) (resolve p left (front ++ ps))
      (resolve p left (front ++ qs)) := by
  induction front generalizing left with
  | nil => exact h left
  | cons piece front ih =>
    -- a part that both have first
    have hcons (left : List (String × ParamValue)) (part : Part) :
        SameOutcome (Part.SameStatement o)
          (resolve p left (front ++ ps) >>= fun parts => .ok (part :: parts))
          (resolve p left (front ++ qs) >>= fun parts => .ok (part :: parts)) :=
      (ih left).bind fun _ _ hparts => .ok (hparts.cons part)
    have hresolved (left : List (String × ParamValue)) (a : Except Error Part) :
        SameOutcome (Part.SameStatement o)
          (a >>= fun part => resolve p left (front ++ ps) >>= fun parts => .ok (part :: parts))
          (a >>= fun part => resolve p left (front ++ qs) >>= fun parts => .ok (part :: parts)) :=
      (SameOutcome.refl (R := Eq) (fun _ => rfl) a).bind fun part _ hpart => hpart ▸ hcons left part
    cases piece with
    | positional =>
      cases left with
      | nil => exact .error _
      | cons entry left => exact hresolved left _
    | literal name => exact hresolved left _
    | named | code | quoted | comment | system => exact hcons left _

/-- Whether the placeholders fit the parameters depends on the number of positional ones and on the
first named one. -/
theorem checkStyle_congr {t t' : Template} (hcount : t.positionalCount = t'.positionalCount)
    (hnamed : (t.pieces.find? Piece.isNamed).map Piece.text =
      (t'.pieces.find? Piece.isNamed).map Piece.text) : t.checkStyle p = t'.checkStyle p := by
  simp only [checkStyle, hcount]
  cases hfind : t.pieces.find? Piece.isNamed with
  | none =>
    rw [hfind, Option.map_none, eq_comm, Option.map_eq_none_iff] at hnamed
    rw [hnamed]
  | some piece =>
    rw [hfind, Option.map_some, eq_comm, Option.map_eq_some_iff] at hnamed
    obtain ⟨piece', hfind', htext⟩ := hnamed
    rw [hfind']
    simp only [htext]

theorem renderText_congr {t t' : Template} (hstyle : t.checkStyle p = t'.checkStyle p)
    (hparts : SameOutcome (Part.SameStatement o) (resolve p p.entries t.pieces)
      (resolve p p.entries t'.pieces)) : t.renderText p o = t'.renderText p o := by
  rw [renderText, renderText, hstyle]
  refine congrArg _ (funext fun _ => SameOutcome.eq (hparts.bind fun _ _ h => .ok ?_))
  rw [h.text_eq, h.bindings_eq]

/-- **A list in brackets is rendered as one that is given brackets.** -/
theorem renderText_bracketed {t t' : Template} {left right : List Piece} {marker : Char}
    {name : List Char} {vs : List Value} {inner : String}
    (ht : t.pieces = left ++ .named marker name true :: right)
    (ht' : t'.pieces = left ++ .code '(' :: .named marker name false :: .code ')' :: right)
    (hempty : o.emptyList = "(" ++ inner ++ ")")
    (hlist : p.get? (String.ofList name) = some (.list vs)) :
    t.renderText p o = t'.renderText p o := by
  refine renderText_congr (checkStyle_congr ?_ ?_) ?_
  · rw [positionalCount, positionalCount, ht, ht', List.countP_append, List.countP_append]
    rfl
  · rw [ht, ht', List.find?_append, List.find?_append]
    cases left.find? Piece.isNamed <;> rfl
  · rw [ht, ht']
    refine resolve_append_congr (fun rest => ?_) left p.entries
    have hpart (afterIn : Bool) :
        resolveNamed p marker name afterIn = .expanded marker name afterIn vs := by
      simp only [resolveNamed, hlist]
    simp only [resolve, hpart]
    cases resolve p rest right with
    | error e => exact .error e
    | ok parts => exact .ok (Part.sameStatement_bracketed hempty marker name vs parts)

/-! ### Queries -/

theorem kind_parse_of_mem {text : String} {c : Char} (hc : c ∈ text.toList)
    (hblank : Text.isBlank c = false) (hbare : StatementKind.isBare c = false) (flags : Flags) :
    (parse text flags).kind = .text := by
  simp only [parse]
  by_contra hkind
  rcases isBlank_or_isBare_of_classify hkind hc with h | h
  · exact Bool.false_ne_true (hblank.symm.trans h)
  · exact Bool.false_ne_true (hbare.symm.trans h)

theorem exists_piece_of_place {text : String} {token : Token} {front source back : List Char}
    (htoken : token ∈ (parse text flags).tokens) (htext : text.toList = front ++ source ++ back)
    (hstart : token.start = byteCount front) (hstop : token.stop = byteCount (front ++ source)) :
    ∃ left piece right, scan flags text.toList = left ++ piece :: right ∧
      left.flatMap Piece.text = front ∧ piece.text = source ∧ right.flatMap Piece.text = back ∧
      Token.kindAndName? piece = some (token.kind, token.name.toList) := by
  rw [tokens_parse] at htoken
  obtain ⟨left, piece, right, hscan, hpiece⟩ := Token.mem_ofPieces_iff.1 htoken
  obtain ⟨⟨kind, name⟩, hkind, rfl⟩ := Option.map_eq_some_iff.1 hpiece
  have hall := (text_of_scan_eq_append hscan).symm
  have hfront : front <+: text.toList := ⟨source ++ back, by rw [htext, List.append_assoc]⟩
  have hfront' : front ++ source <+: text.toList := ⟨back, htext.symm⟩
  have hprefix : left.flatMap Piece.text <+: text.toList :=
    ⟨piece.text ++ right.flatMap Piece.text, by rw [← hall, List.append_assoc]⟩
  have hprefix' : left.flatMap Piece.text ++ piece.text <+: text.toList := ⟨_, hall⟩
  have hleft : left.flatMap Piece.text = front :=
    Text.eq_of_byteCount_eq hprefix hfront ((Nat.zero_add _).symm.trans hstart)
  have hsource : left.flatMap Piece.text ++ piece.text = front ++ source := by
    refine Text.eq_of_byteCount_eq hprefix' hfront' ?_
    rw [← hstop, Text.byteCount_append, Text.byteCount_text]
    exact congrArg (· + piece.byteSize) (Nat.zero_add _).symm
  rw [hsource, htext] at hall
  rw [hleft] at hsource
  refine ⟨left, piece, right, hscan, hleft, List.append_cancel_left hsource,
    List.append_cancel_left hall, ?_⟩
  rw [hkind, String.toList_ofList]

/-- **With and without brackets, a list is the same query.**  The placeholder follows the keyword
`IN` and is bound to a list; what follows it is neither a word nor another placeholder, and the text
for an empty list has brackets.  Then the template in which the placeholder has brackets gives the
same statement, or fails with the same error. -/
theorem render_bracketed (front name back : String) (marker : Char) {inner : String}
    {token : Token} {p : Params} {o : Options} {vs : List Value}
    (hname : Text.sameName name "in" = false)
    (hback : back.toList.head?.any (fun c => isWord c || Params.isMarker c || c == '?') = false)
    (htoken : token ∈ (parse (front ++ String.singleton marker ++ name ++ back) flags).tokens)
    (hkind : token.kind = .listExpansion) (hstart : token.start = front.utf8ByteSize)
    (hstop : token.stop = (front ++ String.singleton marker ++ name).utf8ByteSize)
    (hempty : o.emptyList = "(" ++ inner ++ ")") (hlist : p.get? name = some (.list vs)) :
    (parse (front ++ String.singleton marker ++ name ++ back) flags).render p o =
      (parse (front ++ "(" ++ String.singleton marker ++ name ++ ")" ++ back) flags).render
        p o := by
  have htext : (front ++ String.singleton marker ++ name ++ back).toList =
      front.toList ++ (marker :: name.toList) ++ back.toList := by simp
  have htext' : (front ++ "(" ++ String.singleton marker ++ name ++ ")" ++ back).toList =
      front.toList ++ '(' :: marker :: name.toList ++ ')' :: back.toList := by simp
  rw [← Text.byteCount_toList] at hstart hstop
  generalize front ++ String.singleton marker ++ name ++ back = text at htoken htext ⊢
  generalize front ++ "(" ++ String.singleton marker ++ name ++ ")" ++ back = text' at htext' ⊢
  obtain ⟨left, piece, right, hscan, hleft, hsource, hright, hpiece⟩ :=
    exists_piece_of_place htoken htext hstart (by rw [hstop]; simp)
  obtain rfl : piece = .named marker name.toList true := by
    rw [hkind] at hpiece
    cases piece with
    | named _ _ afterIn =>
      cases afterIn with
      | true =>
        cases hsource
        rfl
      | false => cases hpiece
    | positional | literal | code | quoted | comment | system => cases hpiece
  have hmarker := (reads_of_scanFrom_eq_append hscan).of_named.2.1
  have hin : name.toList.map Char.toLower ≠ ['i', 'n'] := fun h => by
    rw [← Bool.not_eq_true, Text.sameName_iff] at hname
    exact hname h
  have hbehind :
      (right.flatMap Piece.text).head?.any (fun c => isWord c || looksBack c) = false := by
    rw [hright]
    simpa only [looksBack, Bool.or_assoc] using hback
  have hscan' := scan_bracketed hscan hin hbehind
  rw [hleft, hright, ← htext'] at hscan'
  have hkind : (parse text flags).kind = .text := by
    have hmem : marker ∈ text.toList := by simp [htext]
    rcases isMarker_iff.1 hmarker with rfl | rfl <;>
      exact kind_parse_of_mem hmem (by decide) (by decide) flags
  have hkind' : (parse text' flags).kind = .text := by
    have hmem : '(' ∈ text'.toList := by simp [htext']
    exact kind_parse_of_mem hmem (by decide) (by decide) flags
  rw [← String.ofList_toList (s := name)] at hlist
  rw [render, render, if_pos hkind, if_pos hkind']
  exact renderText_bracketed ((pieces_parse hkind).trans hscan)
    ((pieces_parse hkind').trans hscan') hempty hlist

/-- A list that is filled up and comes again, and one that is empty. -/
theorem render_bracketed_of_lists :
    let p := (Params.empty.bindList "xs" [.signed 1, .null]).bindList "es" []
    let o : Options := { Options.default with flags.padLists := true, paddingThreshold := 2 }
    (parse "é IN @xs, :xs" .default).render p o = (parse "é IN (@xs), :xs" .default).render p o ∧
      (parse "'a' in\t:es" .default).render p o = (parse "'a' in\t(:es)" .default).render p o := by
  intro p o
  have hlists : p.get? "xs" = some (.list [.signed 1, .null]) ∧ p.get? "es" = some (.list []) := by
    decide +kernel
  have htoken : ⟨.listExpansion, 6, 9, "xs", "@xs"⟩ ∈ (parse "é IN @xs, :xs" .default).tokens := by
    decide +kernel
  have htoken' : ⟨.listExpansion, 7, 10, "es", ":es"⟩ ∈ (parse "'a' in\t:es" .default).tokens := by
    decide +kernel
  have hempty : o.emptyList = "(" ++ "SELECT NULL WHERE 1 = 0" ++ ")" := rfl
  exact ⟨render_bracketed "é IN " "xs" ", :xs" '@' (by decide +kernel) (by decide +kernel) htoken
      rfl (by decide +kernel) (by decide +kernel) hempty hlists.1,
    render_bracketed "'a' in\t" "es" "" ':' (by decide +kernel) (by decide +kernel) htoken' rfl
      (by decide +kernel) (by decide +kernel) hempty hlists.2⟩

end Template

end RowMapping
