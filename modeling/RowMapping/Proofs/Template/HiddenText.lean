import RowMapping.Proofs.Template.Division
import RowMapping.Proofs.Template.Touching

/-!
# Quoted texts and comments hide what is in them

The scanner looks for no placeholder in an opaque region.  It looks across the borders of a region,
though: one character back and one ahead, for a name further ahead, and for the keyword `IN` further
back.  The borders themselves, which stay when the body of a region is replaced, end every such look
but the last, since a line ends in a blank.

* `Template.exists_segmented`: the scanner finds the regions of the division, and no others;
* `Template.Reads.congr_border`: what is read before a region does not depend on its body;
* `Template.forall₂_scanFrom`: what is read behind it depends on the body for the keyword `IN` only;
* `Template.opaque_regions_hidden`: no token is in a region, and no body has any effect on tokens.
-/

namespace RowMapping

/-! ### Regions as pieces -/

namespace Delimiter

/-- The piece as which the scanner cuts off a region, given what follows the opener. -/
def piece : Delimiter → List Char → Piece
  | quote q _, cs => .quoted (q :: cs)
  | line, cs => .comment ('-' :: '-' :: cs)
  | block, cs => .comment ('/' :: '*' :: cs)

theorem text_piece (d : Delimiter) (cs : List Char) : (d.piece cs).text = d.opener ++ cs := by
  cases d <;> rfl

theorem isHidden_piece (d : Delimiter) (cs : List Char) : (d.piece cs).isHidden = true := by
  cases d <;> rfl

/-- What follows the opener, cut behind the closer. -/
def through (d : Delimiter) (cs : List Char) : List Char × List Char :=
  match d.close? cs with
  | some (body, rest) => (body ++ d.closer, rest)
  | none => (cs, [])

end Delimiter

namespace Segment

/-- The piece as which the scanner cuts off a segment. -/
def piece : Segment → Piece
  | code c => .code c
  | closed d body => d.piece (body ++ d.closer)
  | unclosed d body => d.piece body

theorem text_piece (s : Segment) : s.piece.text = s.text := by
  cases s with
  | code c => rfl
  | closed d body => rw [piece, Delimiter.text_piece, text, List.append_assoc]
  | unclosed d body => exact d.text_piece body

theorem isHidden_piece {s : Segment} (h : s.isOpaque = true) : s.piece.isHidden = true := by
  cases s with
  | code => cases h
  | closed d body => exact d.isHidden_piece (body ++ d.closer)
  | unclosed d body => exact d.isHidden_piece body

/-- The number of bytes of segments. -/
def byteSize (segments : List Segment) : Nat := Text.byteCount (segments.flatMap text)

end Segment

namespace Template

theorem throughQuote_eq {q : Char} (hq : isQuote q = true) (cs : List Char) :
    throughQuote q cs = (Delimiter.quote q hq).through cs := by
  rw [Delimiter.through, Delimiter.close?]
  fun_induction throughQuote q cs with
  | case1 => rfl
  | case2 c =>
    by_cases hc : c = q
    · have hhead : ([] : List Char).head? ≠ some q := (Option.some_ne_none q).symm
      rw [hc, Delimiter.splitAtQuote?_quote hhead]
      rfl
    · rw [Delimiter.splitAtQuote?_cons_of_ne hc]
      rfl
  | case3 c d cs hc r ih =>
    simp only [Delimiter.splitAtQuote?_cons_of_ne hc, r, ih]
    cases Delimiter.splitAtQuote? q (d :: cs) <;> rfl
  | case4 c cs hc r ih =>
    obtain rfl := Decidable.not_not.1 hc
    simp only [Delimiter.splitAtQuote?_doubled, r, ih]
    cases Delimiter.splitAtQuote? c cs <;> rfl
  | case5 c d cs hc hd =>
    obtain rfl := Decidable.not_not.1 hc
    have hhead : (d :: cs).head? ≠ some c := fun h => hd (Option.some.inj h)
    rw [Delimiter.splitAtQuote?_quote hhead]
    rfl

theorem throughNewline_eq (cs : List Char) : throughNewline cs = Delimiter.line.through cs := by
  rw [Delimiter.through, Delimiter.close?]
  fun_induction throughNewline cs with
  | case1 | case2 => rfl
  | case3 c cs hc r ih =>
    have hmark : ¬ ['\n'].isPrefixOf (c :: cs) = true := by simpa using Ne.symm hc
    simp only [Delimiter.splitAt?, if_neg hmark, r, ih]
    cases Delimiter.splitAt? ['\n'] cs <;> rfl

theorem throughStarSlash_eq (cs : List Char) :
    throughStarSlash cs = Delimiter.block.through cs := by
  rw [Delimiter.through, Delimiter.close?]
  fun_induction throughStarSlash cs with
  | case1 => rfl
  | case2 c => simp [Delimiter.splitAt?]
  | case3 c d cs hcd =>
    rw [hcd.1, hcd.2]
    rfl
  | case4 c d cs hcd r ih =>
    have hmark : ¬ ['*', '/'].isPrefixOf (c :: d :: cs) = true := fun h => by
      obtain ⟨tail, htail⟩ := List.isPrefixOf_iff_prefix.1 h
      cases htail
      exact hcd ⟨rfl, rfl⟩
    rw [Delimiter.splitAt?, if_neg hmark]
    simp only [r, ih]
    cases Delimiter.splitAt? ['*', '/'] (d :: cs) <;> rfl

variable {flags : Flags} {before before' rest rest' : List Char} {piece : Piece} {s : Segment}

theorem reads_of_through {d : Delimiter} {cs : List Char}
    (h : d.through (cs ++ rest) = (cs, rest)) : Reads flags before (d.piece cs) rest := by
  cases d with
  | quote q hq => exact .quoted hq (by rw [throughQuote_eq hq, h])
  | line => exact .line (by rw [throughNewline_eq, h])
  | block => exact .block (by rw [throughStarSlash_eq, h])

theorem Cuts.reads (h : Cuts s rest) (hskip : s.isOpaque = true) :
    Reads flags before s.piece rest := by
  cases h with
  | code => cases hskip
  | closed h => exact reads_of_through (by rw [Delimiter.through, h])
  | unclosed h =>
    refine reads_of_through ?_
    rw [List.append_nil, Delimiter.through, h]

theorem exists_cuts_of_through {d : Delimiter} {cs : List Char}
    (h : d.through (cs ++ rest) = (cs, rest)) :
    ∃ s : Segment, s.isOpaque = true ∧ s.piece = d.piece cs ∧ Cuts s rest := by
  unfold Delimiter.through at h
  split at h
  · rename_i body after hclose
    cases h
    exact ⟨.closed d body, rfl, rfl, .closed hclose⟩
  · rename_i hclose
    obtain ⟨-, rfl⟩ := Prod.mk.inj h
    rw [List.append_nil] at hclose
    exact ⟨.unclosed d cs, rfl, rfl, .unclosed hclose⟩

/-- A hidden piece is a region, which the division cuts off where the scanner does. -/
theorem Reads.exists_cuts (h : Reads flags before piece rest) (hhidden : piece.isHidden = true) :
    ∃ s : Segment, s.isOpaque = true ∧ s.piece = piece ∧ Cuts s rest := by
  cases h with
  | quoted hq h => exact exists_cuts_of_through (d := .quote _ hq) (throughQuote_eq hq _ ▸ h)
  | line h => exact exists_cuts_of_through (d := .line) (throughNewline_eq _ ▸ h)
  | block h => exact exists_cuts_of_through (d := .block) (throughStarSlash_eq _ ▸ h)
  | system | literal | named | positional | code => cases hhidden

/-! ### The scanner finds the same regions -/

/-- The character may open a region. -/
def mayOpen (c : Char) : Bool := isQuote c || c == '-' || c == '/'

theorem isWord_of_mayOpen {c : Char} (h : mayOpen c = true) : isWord c = false := by
  simp only [mayOpen, isQuote, Bool.or_eq_true, beq_iff_eq] at h
  rcases h with (((rfl | rfl) | rfl) | rfl) | rfl <;> decide

theorem exists_opener (d : Delimiter) : ∃ c cs, d.opener = c :: cs ∧ mayOpen c = true := by
  cases d with
  | quote q hq => exact ⟨q, [], rfl, by simp only [mayOpen, hq, Bool.true_or]⟩
  | line => exact ⟨'-', ['-'], rfl, rfl⟩
  | block => exact ⟨'/', ['*'], rfl, rfl⟩

theorem divide_map_code {cs : List Char} (h : ∀ c ∈ cs, mayOpen c = false) :
    divide (cs ++ rest) = cs.map .code ++ divide rest := by
  induction cs with
  | nil => rfl
  | cons c cs ih =>
    have hc := h c List.mem_cons_self
    simp only [mayOpen, Bool.or_eq_false_iff, beq_eq_false_iff_ne] at hc
    have hcuts : Cuts (.code c) (cs ++ rest) :=
      .code (Delimiter.opens?_eq_none_iff.2
        ⟨hc.1.1, fun h => absurd h hc.1.2, fun h => absurd h hc.2⟩)
    rw [List.map_cons, List.cons_append, List.cons_append,
      ← ih fun d hd => h d (List.mem_cons_of_mem c hd)]
    exact hcuts.divide_eq

theorem Reads.divide_eq (h : Reads flags before piece rest) (hhidden : piece.isHidden = false) :
    divide (piece.text ++ rest) = piece.text.map .code ++ divide rest := by
  have hword {c : Char} (hc : isWord c = true) : mayOpen c = false := by
    refine Bool.eq_false_iff.2 fun hopen => ?_
    rw [isWord_of_mayOpen hopen] at hc
    cases hc
  have hmarker {c : Char} (hc : Params.isMarker c = true) : mayOpen c = false := by
    rcases isMarker_iff.1 hc with rfl | rfl <;> rfl
  cases h with
  | quoted | line | block => cases hhidden
  | system hm hname =>
    refine divide_map_code ?_
    simp only [Piece.text, List.forall_mem_cons]
    exact ⟨hmarker hm, hmarker hm, fun c hc => hword (hname c hc)⟩
  | literal _ _ hname =>
    refine divide_map_code ?_
    simp only [Piece.text, List.cons_append, List.forall_mem_cons, List.forall_mem_append]
    exact ⟨rfl, rfl, fun c hc => hword (hname c hc), rfl, List.forall_mem_nil _⟩
  | named hm _ _ hname =>
    refine divide_map_code ?_
    simp only [Piece.text, List.forall_mem_cons]
    exact ⟨hmarker hm, fun c hc => hword (hname c hc)⟩
  | positional => exact divide_map_code (List.forall_mem_singleton.2 rfl)
  | @code c _ h =>
    have hcuts : Cuts (.code c) rest :=
      .code (Delimiter.opens?_eq_none_iff.2 ⟨h.quote, h.line, h.block⟩)
    exact hcuts.divide_eq

/-- The segments of a piece: a hidden one is a region, every other one is code. -/
inductive Segmented : Piece → List Segment → Prop where
  | region {s : Segment} (h : s.isOpaque = true) : Segmented s.piece [s]
  | code {piece : Piece} (h : piece.isHidden = false) : Segmented piece (piece.text.map .code)

/-- **The scanner finds the regions of the division, and no others**, whatever the flags are. -/
theorem exists_segmented (flags : Flags) (before cs : List Char) :
    ∃ parts, List.Forall₂ Segmented (scanFrom flags before cs) parts ∧
      divide cs = parts.flatten := by
  fun_induction scanFrom flags before cs with
  | case1 => exact ⟨[], .nil, by rw [divide]; rfl⟩
  | case2 before c rest r ih =>
    obtain ⟨parts, hparts, hdivide⟩ := ih
    have hreads : Reads flags before r.1 r.2 := reads_firstPiece flags before c rest
    have htext : r.1.text ++ r.2 = c :: rest := text_firstPiece flags before c rest
    rw [← htext]
    cases hhidden : r.1.isHidden with
    | true =>
      obtain ⟨s, hskip, hpiece, hcuts⟩ := hreads.exists_cuts hhidden
      refine ⟨[s] :: parts, .cons (hpiece ▸ .region hskip) hparts, ?_⟩
      rw [← hpiece, s.text_piece, hcuts.divide_eq, hdivide]
      rfl
    | false =>
      refine ⟨r.1.text.map .code :: parts, .cons (.code hhidden) hparts, ?_⟩
      rw [hreads.divide_eq hhidden, hdivide]
      rfl

theorem filter_isHidden_of_segmented {pieces : List Piece} {parts : List (List Segment)}
    (h : List.Forall₂ Segmented pieces parts) :
    pieces.filter Piece.isHidden = (parts.flatten.filter Segment.isOpaque).map Segment.piece := by
  induction h with
  | nil => rfl
  | @cons piece _ _ _ hpart _ ih =>
    rw [List.flatten_cons, List.filter_append, List.map_append, ← ih]
    cases hpart with
    | region hskip =>
      rw [List.filter_cons_of_pos (Segment.isHidden_piece hskip),
        List.filter_cons_of_pos hskip]
      rfl
    | code hhidden =>
      have hcode : (piece.text.map Segment.code).filter Segment.isOpaque = [] := by
        rw [List.filter_eq_nil_iff]
        intro s hs
        obtain ⟨c, -, rfl⟩ := List.mem_map.1 hs
        exact Bool.false_ne_true
      rw [List.filter_cons_of_neg (Bool.eq_false_iff.1 hhidden), hcode]
      rfl

theorem filter_isHidden_scan (flags : Flags) (cs : List Char) :
    (scan flags cs).filter Piece.isHidden =
      ((divide cs).filter Segment.isOpaque).map Segment.piece := by
  obtain ⟨parts, hparts, hdivide⟩ := exists_segmented flags [] cs
  rw [hdivide]
  exact filter_isHidden_of_segmented hparts

theorem exists_eq_append_of_not_mem {α : Type} {x : α} {xs ys front back : List α} (hx : x ∉ xs)
    (h : xs ++ ys = front ++ x :: back) :
    ∃ front', front = xs ++ front' ∧ ys = front' ++ x :: back := by
  induction xs generalizing front with
  | nil => exact ⟨front, rfl, h⟩
  | cons y xs ih =>
    cases front with
    | nil => exact absurd (List.cons.inj h).1 (fun hy => hx (hy ▸ List.mem_cons_self))
    | cons z front =>
      obtain ⟨rfl, htail⟩ := List.cons.inj h
      obtain ⟨front', rfl, hys⟩ := ih (fun hmem => hx (List.mem_cons_of_mem y hmem)) htail
      exact ⟨front', rfl, hys⟩

theorem exists_split_of_segmented {pieces : List Piece} {parts : List (List Segment)}
    (h : List.Forall₂ Segmented pieces parts) {front back : List Segment} {region : Segment}
    (hparts : parts.flatten = front ++ region :: back) (hskip : region.isOpaque = true) :
    ∃ left right, pieces = left ++ region.piece :: right ∧
      left.flatMap Piece.text = front.flatMap Segment.text := by
  induction h generalizing front with
  | nil => cases front <;> cases hparts
  | @cons piece part pieces parts hpart _ ih =>
    rw [List.flatten_cons] at hparts
    cases hpart with
    | @region s =>
      -- this is the region, or one of those before it
      cases front with
      | nil =>
        obtain ⟨rfl, -⟩ := List.cons.inj hparts
        exact ⟨[], pieces, rfl, rfl⟩
      | cons t front =>
        obtain ⟨rfl, htail⟩ := List.cons.inj hparts
        obtain ⟨left, right, rfl, htext⟩ := ih htail
        refine ⟨s.piece :: left, right, rfl, ?_⟩
        rw [List.flatMap_cons, List.flatMap_cons, htext, s.text_piece]
    | code =>
      have hregion : region ∉ piece.text.map .code := fun hmem => by
        obtain ⟨c, -, rfl⟩ := List.mem_map.1 hmem
        cases hskip
      obtain ⟨front', rfl, htail⟩ := exists_eq_append_of_not_mem hregion hparts
      obtain ⟨left, right, rfl, htext⟩ := ih htail
      refine ⟨piece :: left, right, rfl, ?_⟩
      rw [List.flatMap_cons, htext, List.flatMap_append, List.flatMap_map]
      simp [Segment.text]

/-! ### Before a region -/

/-- Whether a name and a closing brace follow is decided before a character that is in no name, or
by that character. -/
theorem closesBrace_append_other {mid : List Char} {c : Char} (hc : isWord c = false)
    (cs cs' : List Char) :
    ClosesBrace (mid ++ c :: cs) ↔ ClosesBrace (mid ++ c :: cs') := by
  have hmid : (mid ++ [c]).all isWord = false := by
    rw [List.all_append, List.all_cons, hc, Bool.false_and, Bool.and_false]
  obtain ⟨htake, hdrop⟩ := takeWhile_dropWhile_append hmid cs cs'
  simp only [List.append_assoc, List.singleton_append] at htake hdrop
  rw [ClosesBrace, ClosesBrace, htake, hdrop]

/-- The character is in no name, nor is it the equals sign of a literal token: the scanner looks no
further than this character. -/
def isBorder (c : Char) : Bool := !isWord c && c != '='

theorem isWord_of_isBorder {c : Char} (h : isBorder c = true) : isWord c = false := by
  rw [isBorder, Bool.and_eq_true, Bool.not_eq_true'] at h
  exact h.1

theorem isBorder_of_mayOpen {c : Char} (h : mayOpen c = true) : isBorder c = true := by
  have hequals : c ≠ '=' := by
    rintro rfl
    cases h
  rw [isBorder, isWord_of_mayOpen h, bne_iff_ne.2 hequals]
  rfl

/-- **What is read before a border** does not depend on what follows the border. -/
theorem Reads.congr_border {mid : List Char} {c : Char} (hc : isBorder c = true)
    {cs cs' : List Char} (h : Reads flags before piece (mid ++ c :: cs)) :
    Reads flags before piece (mid ++ c :: cs') := by
  have hhead : (mid ++ c :: cs).head? = (mid ++ c :: cs').head? := by
    rw [List.head?_append, List.head?_append]
    rfl
  -- a hidden piece ends where the division cuts it off; every other one looks one character ahead,
  -- and only `{=` further, through a name
  cases hhidden : piece.isHidden with
  | true =>
    obtain ⟨s, hskip, rfl, hcuts⟩ := h.exists_cuts hhidden
    exact (hcuts.congr hhead).reads hskip
  | false =>
    cases h with
    | quoted | line | block => cases hhidden
    | system hmarker hname hrest => exact .system hmarker hname (hhead ▸ hrest)
    | literal hflag hne hname => exact .literal hflag hne hname
    | named hmarker hbefore hstart hname hrest =>
      exact .named hmarker hbefore hstart hname (hhead ▸ hrest)
    | positional hflag hbefore hrest => exact .positional hflag hbefore (hhead ▸ hrest)
    | code h =>
      refine .code
        { quote := h.quote
          line := hhead ▸ h.line
          block := hhead ▸ h.block
          literal := fun hbrace hflag hequals => ?_
          system := hhead ▸ h.system
          named := hhead ▸ h.named
          positional := hhead ▸ h.positional }
      have hopen := h.literal hbrace hflag (hhead ▸ hequals)
      cases mid with
      | nil =>
        cases hequals
        cases hc
      | cons d mid =>
        rw [List.cons_append, List.tail_cons] at hopen ⊢
        exact fun hclose =>
          hopen ((closesBrace_append_other (isWord_of_isBorder hc) _ _).1 hclose)

/-- The pieces before a border do not depend on what follows the border. -/
theorem scanFrom_front {left right : List Piece} {c : Char} {cs cs' text : List Char}
    (h : scanFrom flags before text = left ++ right) (hright : right.flatMap Piece.text = c :: cs)
    (hc : isBorder c = true) :
    scanFrom flags before (left.flatMap Piece.text ++ c :: cs') =
      left ++ scanFrom flags ((left.flatMap Piece.text).reverse ++ before) (c :: cs') := by
  induction left generalizing before text with
  | nil => rfl
  | cons piece left ih =>
    rw [List.cons_append] at h
    obtain ⟨hreads, hscan⟩ := reads_of_scanFrom_eq h
    have hrest : (left ++ right).flatMap Piece.text = left.flatMap Piece.text ++ c :: cs := by
      rw [List.flatMap_append, hright]
    rw [hrest] at hreads hscan
    have hother : Reads flags before piece (left.flatMap Piece.text ++ c :: cs') :=
      hreads.congr_border hc
    rw [List.flatMap_cons, List.append_assoc, hother.scanFrom_eq, ih hscan, List.reverse_append,
      List.append_assoc, List.cons_append]

/-! ### Behind a region -/

/-- The pieces are the same, except that only one of them may follow the keyword `IN`. -/
inductive SameExceptIn : Piece → Piece → Prop where
  | refl (piece : Piece) : SameExceptIn piece piece
  | named (marker : Char) (name : List Char) (afterIn afterIn' : Bool) :
    SameExceptIn (.named marker name afterIn) (.named marker name afterIn')

theorem SameExceptIn.text_eq {piece' : Piece} (h : SameExceptIn piece piece') :
    piece.text = piece'.text := by
  cases h <;> rfl

/-- What is read depends on the character before it, and on the keyword `IN` further back. -/
theorem Reads.exists_congr_before (h : Reads flags before piece rest)
    (hhead : before.head? = before'.head?) :
    ∃ piece', SameExceptIn piece piece' ∧ Reads flags before' piece' rest := by
  cases h with
  | quoted hquote h => exact ⟨_, .refl _, .quoted hquote h⟩
  | line h => exact ⟨_, .refl _, .line h⟩
  | block h => exact ⟨_, .refl _, .block h⟩
  | system hmarker hname hrest => exact ⟨_, .refl _, .system hmarker hname hrest⟩
  | literal hflag hne hname => exact ⟨_, .refl _, .literal hflag hne hname⟩
  | named hmarker hbefore hstart hname hrest =>
    exact ⟨_, .named _ _ _ _, .named hmarker (hhead ▸ hbefore) hstart hname hrest⟩
  | positional hflag hbefore hrest => exact ⟨_, .refl _, .positional hflag (hhead ▸ hbefore) hrest⟩
  | code h =>
    exact ⟨_, .refl _, .code { h with
      named := hhead ▸ h.named
      positional := hhead ▸ h.positional }⟩

/-- **What is read behind a region** does not depend on what the region hides, but for the keyword
`IN`. -/
theorem forall₂_scanFrom (cs : List Char) (hhead : before.head? = before'.head?) :
    List.Forall₂ SameExceptIn (scanFrom flags before cs) (scanFrom flags before' cs) := by
  fun_induction scanFrom flags before cs generalizing before' with
  | case1 =>
    rw [scanFrom]
    exact .nil
  | @case2 before c rest r ih =>
    have hreads : Reads flags before r.1 r.2 := reads_firstPiece flags before c rest
    have htext : r.1.text ++ r.2 = c :: rest := text_firstPiece flags before c rest
    obtain ⟨piece', hsame, hreads'⟩ := hreads.exists_congr_before hhead
    have hscan := hreads'.scanFrom_eq
    rw [← hsame.text_eq, htext] at hscan
    rw [hscan]
    -- the text that both have read by now is not empty, so that its last character comes before
    refine .cons hsame (ih ?_)
    obtain ⟨d, ds, hreverse⟩ := List.exists_cons_of_ne_nil
      (List.reverse_ne_nil_iff.2 hreads.text_ne_nil)
    rw [hreverse]
    rfl

/-! ### Replacing what a region hides -/

theorem scanFrom_back {left right : List Piece} {cs : List Char}
    (h : scanFrom flags before cs = left ++ right) :
    scanFrom flags ((left.flatMap Piece.text).reverse ++ before) (right.flatMap Piece.text) =
      right := by
  induction left generalizing before cs with
  | nil =>
    have htext := text_scanFrom flags before cs
    rw [h] at htext
    exact htext ▸ h
  | cons piece left ih =>
    rw [List.flatMap_cons, List.reverse_append, List.append_assoc]
    exact ih (reads_of_scanFrom_eq h).2

theorem exists_scanFrom_eq {front back : List Segment} {region : Segment} {cs : List Char}
    (h : divide cs = front ++ region :: back) (hskip : region.isOpaque = true) (flags : Flags)
    (before : List Char) :
    ∃ left right, scanFrom flags before cs = left ++ region.piece :: right ∧
      left.flatMap Piece.text = front.flatMap Segment.text ∧
      right.flatMap Piece.text = back.flatMap Segment.text := by
  obtain ⟨parts, hparts, hdivide⟩ := exists_segmented flags before cs
  obtain ⟨left, right, hscan, hleft⟩ :=
    exists_split_of_segmented hparts (hdivide.symm.trans h) hskip
  refine ⟨left, right, hscan, hleft, ?_⟩
  have htext := (text_scanFrom flags before cs).trans (text_divide cs).symm
  rw [hscan, h, List.flatMap_append, List.flatMap_append, List.flatMap_cons, List.flatMap_cons,
    hleft, region.text_piece] at htext
  exact List.append_cancel_left (List.append_cancel_left htext)

/-- When the body of a region is replaced, the pieces before the region stay, and those behind it
stay but for the keyword `IN`. -/
theorem exists_scan_replace {front back : List Segment} {d : Delimiter} {body body' cs : List Char}
    (h : divide cs = front ++ .closed d body :: back)
    (hcuts : Cuts (.closed d body') (back.flatMap Segment.text)) (flags : Flags) :
    ∃ left right right',
      scan flags cs = left ++ (Segment.closed d body).piece :: right ∧
      scan flags ((front ++ .closed d body' :: back).flatMap Segment.text) =
        left ++ (Segment.closed d body').piece :: right' ∧
      left.flatMap Piece.text = front.flatMap Segment.text ∧
      List.Forall₂ SameExceptIn right right' := by
  obtain ⟨left, right, hscan, hleft, hright⟩ := exists_scanFrom_eq h rfl flags []
  obtain ⟨c, cs, hopener, hc⟩ := exists_opener d
  have htext (body : List Char) : (Segment.closed d body).text ++ back.flatMap Segment.text =
      c :: (cs ++ body ++ d.closer ++ back.flatMap Segment.text) := by
    rw [Segment.text, hopener]
    rfl
  have hlast (body before : List Char) :
      ((Segment.closed d body).piece.text.reverse ++ before).head? = d.closer.getLast? := by
    rw [Segment.text_piece, Segment.text]
    cases d <;> simp [Delimiter.closer]
  have hregion : ((Segment.closed d body).piece :: right).flatMap Piece.text =
      c :: (cs ++ body ++ d.closer ++ back.flatMap Segment.text) := by
    rw [List.flatMap_cons, Segment.text_piece, hright, htext]
  have hscan' : scan flags ((front ++ .closed d body' :: back).flatMap Segment.text) =
      left ++ (Segment.closed d body').piece :: scanFrom flags
        ((Segment.closed d body').piece.text.reverse ++ ((left.flatMap Piece.text).reverse ++ []))
        (back.flatMap Segment.text) := by
    rw [scan, List.flatMap_append, List.flatMap_cons, htext, ← hleft,
      scanFrom_front hscan hregion (isBorder_of_mayOpen hc), ← htext, ← Segment.text_piece,
      (hcuts.reads rfl).scanFrom_eq]
  refine ⟨left, right, _, hscan, hscan', hleft, ?_⟩
  -- behind the region, both scanners go on after the same closer
  have hback := (reads_of_scanFrom_eq (scanFrom_back hscan)).2
  rw [hright] at hback
  rw [← hback]
  exact forall₂_scanFrom _ (by rw [hlast, hlast])

end Template

/-! ### Tokens -/

theorem Text.byteCount_append (cs ds : List Char) :
    byteCount (cs ++ ds) = byteCount cs + byteCount ds := by
  rw [byteCount, encode, List.flatMap_append, List.length_append]
  rfl

/-- The kind of a placeholder, whether or not it follows the keyword `IN`. -/
def TokenKind.exceptIn : TokenKind → TokenKind
  | listExpansion => named
  | kind => kind

namespace Token

open Text (byteCount)

/-- The second token is the first one, moved by what is removed and added before it, and perhaps
with another keyword before it. -/
structure Moved (removed added : Nat) (token token' : Token) : Prop where
  name : token'.name = token.name
  marker : token'.marker = token.marker
  source : token'.source = token.source
  kind : token'.kind.exceptIn = token.kind.exceptIn
  start : token'.start + removed = token.start + added
  stop : token'.stop + removed = token.stop + added

variable {token : Token} {ps qs : List Piece} {start start' removed added : Nat}

theorem ofPieces_append (ps qs : List Piece) (start : Nat) :
    ofPieces start (ps ++ qs) =
      ofPieces start ps ++ ofPieces (start + byteCount (ps.flatMap Piece.text)) qs := by
  induction ps generalizing start with
  | nil => rfl
  | cons piece ps ih =>
    rw [List.flatMap_cons, Text.byteCount_append, Text.byteCount_text, ← Nat.add_assoc]
    simp only [List.cons_append, ofPieces, ih]
    cases kindAndName? piece <;> rfl

theorem bounds_of_mem_ofPieces (h : token ∈ ofPieces start ps) :
    start ≤ token.start ∧ token.stop ≤ start + byteCount (ps.flatMap Piece.text) := by
  induction ps generalizing start with
  | nil => cases h
  | cons piece ps ih =>
    rw [List.flatMap_cons, Text.byteCount_append, Text.byteCount_text]
    have hrest (h : token ∈ ofPieces (start + piece.byteSize) ps) :
        start ≤ token.start ∧
          token.stop ≤ start + (piece.byteSize + byteCount (ps.flatMap Piece.text)) := by
      have := ih h
      omega
    simp only [ofPieces] at h
    split at h
    · rcases List.mem_cons.1 h with rfl | h
      · exact ⟨Nat.le_refl _, by simp only; omega⟩
      · exact hrest h
    · exact hrest h

theorem forall₂_moved (h : List.Forall₂ Template.SameExceptIn ps qs)
    (hstart : start' + removed = start + added) :
    List.Forall₂ (Moved removed added) (ofPieces start ps) (ofPieces start' qs) := by
  induction h generalizing start start' with
  | nil => exact .nil
  | @cons piece piece' ps qs hsame _ ih =>
    have ih := @ih (start + piece.byteSize) (start' + piece.byteSize) (by omega)
    cases hsame with
    | refl =>
      simp only [ofPieces]
      split
      · exact .cons ⟨rfl, rfl, rfl, rfl, hstart, by simp only; omega⟩ ih
      · exact ih
    | named marker name afterIn afterIn' =>
      simp only [ofPieces, kindAndName?]
      refine .cons ⟨rfl, rfl, rfl, ?_, hstart, by simp only [Piece.byteSize, Piece.text]; omega⟩ ih
      cases afterIn <;> cases afterIn' <;> rfl

end Token

namespace Template

open Text (byteCount)

variable {flags : Flags} {text : String} {front : List Segment} {region : Segment}
  {left right : List Piece}

theorem tokens_eq_append (hscan : scan flags text.toList = left ++ region.piece :: right)
    (hleft : left.flatMap Piece.text = front.flatMap Segment.text)
    (hskip : region.isOpaque = true) :
    (parse text flags).tokens =
      Token.ofPieces 0 left ++ Token.ofPieces (Segment.byteSize (front ++ [region])) right := by
  have hnone : Token.kindAndName? region.piece = none := by
    cases region with
    | code => cases hskip
    | closed d | unclosed d => cases d <;> rfl
  rw [tokens_parse, hscan, Token.ofPieces_append, Nat.zero_add, hleft]
  simp only [Token.ofPieces, hnone, Segment.byteSize, List.flatMap_append, List.flatMap_singleton,
    Text.byteCount_append, ← Text.byteCount_text, Segment.text_piece]

theorem stop_le_of_mem_left {token : Token}
    (hleft : left.flatMap Piece.text = front.flatMap Segment.text)
    (h : token ∈ Token.ofPieces 0 left) : token.stop ≤ Segment.byteSize front := by
  have hstop := (Token.bounds_of_mem_ofPieces h).2
  rwa [Nat.zero_add, hleft] at hstop

/-- **Quoted texts and comments have no effect on placeholders.**  The regions of a text are what
the scanner skips, whatever the flags are.  No token overlaps a region.  If the body of a region is
replaced by another one, which the same delimiters enclose, no other segment changes, the tokens
before the region are the same, and those behind it are moved by what is removed and added. -/
theorem opaque_regions_hidden (flags : Flags) {text : String} {front back : List Segment}
    {region : Segment} (hdivide : divide text.toList = front ++ region :: back)
    (hskip : region.isOpaque = true) :
    (scan flags text.toList).filter Piece.isHidden =
        ((divide text.toList).filter Segment.isOpaque).map Segment.piece ∧
      (∀ token ∈ (parse text flags).tokens,
        token.stop ≤ Segment.byteSize front ∨ Segment.byteSize (front ++ [region]) ≤ token.start) ∧
      ∀ d body body', region = .closed d body → Cuts (.closed d body') (back.flatMap Segment.text) →
        let text' := String.ofList ((front ++ .closed d body' :: back).flatMap Segment.text)
        divide text'.toList = front ++ .closed d body' :: back ∧
          ∃ left right right',
            (parse text flags).tokens = left ++ right ∧
            (parse text' flags).tokens = left ++ right' ∧
            (∀ token ∈ left, token.stop ≤ Segment.byteSize front) ∧
            (∀ token ∈ right, Segment.byteSize (front ++ [region]) ≤ token.start) ∧
            List.Forall₂ (Token.Moved (byteCount body) (byteCount body')) right right' := by
  refine ⟨filter_isHidden_scan flags _, ?_, ?_⟩
  · obtain ⟨left, right, hscan, hleft, -⟩ := exists_scanFrom_eq hdivide hskip flags []
    intro token htoken
    rw [tokens_eq_append hscan hleft hskip] at htoken
    exact (List.mem_append.1 htoken).imp (stop_le_of_mem_left hleft)
      fun h => (Token.bounds_of_mem_ofPieces h).1
  · rintro d body body' rfl hcuts text'
    have htext' : text'.toList = (front ++ .closed d body' :: back).flatMap Segment.text :=
      String.toList_ofList
    obtain ⟨left, right, right', hscan, hscan', hleft, hsame⟩ :=
      exists_scan_replace hdivide hcuts flags
    rw [← htext'] at hscan'
    refine ⟨htext' ▸ divide_replace hdivide hcuts, _, _, _, tokens_eq_append hscan hleft rfl,
      tokens_eq_append hscan' hleft rfl, fun token => stop_le_of_mem_left hleft,
      fun token h => (Token.bounds_of_mem_ofPieces h).1, Token.forall₂_moved hsame ?_⟩
    simp only [Segment.byteSize, List.flatMap_append, List.flatMap_singleton, Segment.text,
      Text.byteCount_append]
    omega

/-- A line comment that ends in the keyword `IN`, after a quoted text with a doubled quote and a
token in it, and before a comment that is not closed.  Without what it says, the comment leaves the
next token named, and not a list. -/
theorem opaque_regions_hidden_of_comment :
    let text := "é '@a''' -- in\n@ids, ?, {=n} /* :b"
    let text' := "é '@a''' --\n@ids, ?, {=n} /* :b"
    (∀ token ∈ (parse text .default).tokens, token.stop ≤ 10 ∨ 16 ≤ token.start) ∧
      ∃ left right right',
        (parse text .default).tokens = left ++ right ∧
          (parse text' .default).tokens = left ++ right' ∧
          List.Forall₂ (Token.Moved 3 0) right right' := by
  intro text text'
  let front := divide "é '@a''' ".toList
  let back := divide "@ids, ?, {=n} /* :b".toList
  have hdivide : divide text.toList = front ++ .closed .line " in".toList :: back := by
    decide +kernel
  have hcuts : Cuts (.closed .line []) (back.flatMap Segment.text) := .closed (by decide +kernel)
  have h := opaque_regions_hidden .default hdivide rfl
  obtain ⟨-, left, right, right', hright, hright', -, -, hmoved⟩ :=
    h.2.2 .line " in".toList [] rfl hcuts
  have htext' :
      String.ofList ((front ++ .closed .line [] :: back).flatMap Segment.text) = text' := by
    decide +kernel
  have hsize : Segment.byteSize front = 10 ∧
      Segment.byteSize (front ++ [.closed .line " in".toList]) = 16 := by decide +kernel
  rw [htext'] at hright'
  rw [hsize.1, hsize.2] at h
  exact ⟨h.2.1, left, right, right', hright, hright', hmoved⟩

end Template

end RowMapping
