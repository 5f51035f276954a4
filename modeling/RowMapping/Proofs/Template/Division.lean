import RowMapping.Template.Scan

/-!
# Code and opaque regions

A text is divided into characters of code and opaque regions: texts between quotes, and comments.
The division knows nothing of placeholders and flags.  What opens a region is one or two characters,
and what closes it is found in what follows them.

* `Template.divide`, `Template.text_divide`: the division of a text, which loses nothing;
* `Template.Cuts`: when a segment is cut off before a text, kind by kind;
* `Template.Cuts.congr`: where a segment ends is decided by the segment and one character behind it;
* `Template.divide_replace`: the body of a region can be replaced without any effect on the others.
-/

namespace RowMapping

/-! ### Delimiters -/

/-- The kinds of opaque regions. -/
inductive Delimiter where
  /-- A text between two of the quotes `q`. -/
  | quote (q : Char) (hq : Template.isQuote q = true)
  /-- A comment up to the end of the line. -/
  | line
  /-- A comment between a slash with a star and a star with a slash. -/
  | block
  deriving DecidableEq

namespace Delimiter

/-- The characters that open a region. -/
def opener : Delimiter → List Char
  | quote q _ => [q]
  | line => ['-', '-']
  | block => ['/', '*']

/-- The characters that close a region. -/
def closer : Delimiter → List Char
  | quote q _ => [q]
  | line => ['\n']
  | block => ['*', '/']

/-- The region that the front of a text opens, and what follows its opener. -/
def opens? : List Char → Option (Delimiter × List Char)
  | '-' :: '-' :: cs => some (line, cs)
  | '/' :: '*' :: cs => some (block, cs)
  | c :: cs => if hc : Template.isQuote c = true then some (quote c hc, cs) else none
  | [] => none

/-- What stands before the first occurrence of `mark`, and what follows it. -/
def splitAt? (mark : List Char) : List Char → Option (List Char × List Char)
  | [] => none
  | c :: cs =>
    if mark.isPrefixOf (c :: cs) then some ([], (c :: cs).drop mark.length)
    else (splitAt? mark cs).map fun e => (c :: e.1, e.2)

/-- What stands before the first quote that is not doubled, and what follows it. -/
def splitAtQuote? (q : Char) : List Char → Option (List Char × List Char)
  | [] => none
  | [c] => if c = q then some ([], []) else none
  | c :: d :: cs =>
    if c ≠ q then (splitAtQuote? q (d :: cs)).map fun e => (c :: e.1, e.2)
    else if d = q then (splitAtQuote? q cs).map fun e => (q :: q :: e.1, e.2)
    else some ([], d :: cs)

/-- The body of a region and what follows the region, given what follows its opener; none if the
region is not closed. -/
def close? : Delimiter → List Char → Option (List Char × List Char)
  | quote q _, cs => splitAtQuote? q cs
  | line, cs => splitAt? ['\n'] cs
  | block, cs => splitAt? ['*', '/'] cs

/-! ### What opens a region -/

theorem opener_ne_nil (d : Delimiter) : d.opener ≠ [] := by cases d <;> exact List.cons_ne_nil _ _

theorem opens?_opener (d : Delimiter) (cs : List Char) :
    opens? (d.opener ++ cs) = some (d, cs) := by
  cases d with
  | quote q hq =>
    rw [opener, List.singleton_append]
    unfold opens?
    split
    · rename_i heq
      cases heq
      exact absurd hq (by decide)
    · rename_i heq
      cases heq
      exact absurd hq (by decide)
    · rename_i heq
      cases heq
      exact dif_pos hq
    · rename_i heq
      cases heq
  | line | block => rfl

theorem eq_of_opens? {cs rest : List Char} {d : Delimiter} (h : opens? cs = some (d, rest)) :
    cs = d.opener ++ rest := by
  unfold opens? at h
  split at h
  · cases h; rfl
  · cases h; rfl
  · split at h
    · cases h; rfl
    · cases h
  · cases h

theorem opens?_eq_none_iff {c : Char} {cs : List Char} :
    opens? (c :: cs) = none ↔
      Template.isQuote c = false ∧ (c = '-' → cs.head? ≠ some '-') ∧
        (c = '/' → cs.head? ≠ some '*') := by
  constructor
  · refine fun h => ⟨?_, ?_, ?_⟩
    · refine Bool.eq_false_iff.2 fun hc => ?_
      cases (opens?_opener (.quote c hc) cs).symm.trans h
    · rintro rfl hhead
      obtain ⟨ds, rfl⟩ := List.head?_eq_some_iff.1 hhead
      cases h
    · rintro rfl hhead
      obtain ⟨ds, rfl⟩ := List.head?_eq_some_iff.1 hhead
      cases h
  · rintro ⟨hquote, hline, hblock⟩
    unfold opens?
    split
    · rename_i heq
      cases heq
      exact absurd rfl (hline rfl)
    · rename_i heq
      cases heq
      exact absurd rfl (hblock rfl)
    · rename_i heq
      cases heq
      exact dif_neg (Bool.eq_false_iff.1 hquote)
    · rfl

/-! ### What closes a region -/

variable {mark cs body rest rest' : List Char} {q : Char} {d : Delimiter}

theorem eq_of_splitAt? (h : splitAt? mark cs = some (body, rest)) : cs = body ++ mark ++ rest := by
  induction cs generalizing body with
  | nil => cases h
  | cons c cs ih =>
    rw [splitAt?] at h
    split at h
    · rename_i hmark
      cases h
      obtain ⟨tail, htail⟩ := List.isPrefixOf_iff_prefix.1 hmark
      rw [← htail, List.drop_left, List.nil_append]
    · obtain ⟨e, he, heq⟩ := Option.map_eq_some_iff.1 h
      cases heq
      rw [ih he, List.cons_append, List.cons_append]

theorem eq_of_splitAtQuote? (h : splitAtQuote? q cs = some (body, rest)) :
    cs = body ++ [q] ++ rest := by
  fun_induction splitAtQuote? q cs generalizing body with
  | case1 | case3 => cases h
  | case2 =>
    cases h
    rfl
  | case4 c d cs hc ih =>
    obtain ⟨e, he, heq⟩ := Option.map_eq_some_iff.1 h
    cases heq
    rw [ih he, List.cons_append, List.cons_append]
  | case5 c cs hc ih =>
    obtain ⟨e, he, heq⟩ := Option.map_eq_some_iff.1 h
    cases heq
    rw [Decidable.not_not.1 hc, ih he]
    rfl
  | case6 c d cs hc hd =>
    cases h
    rw [Decidable.not_not.1 hc]
    rfl

theorem eq_of_close? (h : d.close? cs = some (body, rest)) : cs = body ++ d.closer ++ rest := by
  cases d with
  | quote q hq => exact eq_of_splitAtQuote? h
  | line | block => exact eq_of_splitAt? h

theorem isPrefixOf_append_other (mark cs rest rest' : List Char) :
    mark.isPrefixOf (cs ++ mark ++ rest) = mark.isPrefixOf (cs ++ mark ++ rest') := by
  have hlength : mark.length ≤ (cs ++ mark).length := by
    rw [List.length_append]
    exact Nat.le_add_left _ _
  have hfront (rest : List Char) : mark <+: cs ++ mark ++ rest ↔ mark <+: cs ++ mark :=
    ⟨fun h => List.prefix_of_prefix_length_le h (List.prefix_append _ _) hlength,
      fun h => h.trans (List.prefix_append _ _)⟩
  rw [Bool.eq_iff_iff, List.isPrefixOf_iff_prefix, List.isPrefixOf_iff_prefix, hfront, hfront]

theorem splitAt?_append_other (h : splitAt? mark cs = some (body, rest)) (hmark : mark ≠ []) :
    splitAt? mark (body ++ mark ++ rest') = some (body, rest') := by
  induction cs generalizing body with
  | nil => cases h
  | cons c cs ih =>
    rw [splitAt?] at h
    split at h
    · cases h
      obtain ⟨c, cs, rfl⟩ := List.exists_cons_of_ne_nil hmark
      have hprefix : (c :: cs).isPrefixOf (c :: (cs ++ rest')) = true :=
        List.isPrefixOf_iff_prefix.2 (List.prefix_append (c :: cs) rest')
      rw [List.nil_append, List.cons_append, splitAt?, if_pos hprefix, ← List.cons_append,
        List.drop_left]
    · rename_i hprefix
      obtain ⟨e, he, heq⟩ := Option.map_eq_some_iff.1 h
      cases heq
      have hother := isPrefixOf_append_other mark (c :: e.1) e.2 rest'
      simp only [List.cons_append] at hother ⊢
      rw [eq_of_splitAt? he, hother] at hprefix
      rw [splitAt?, if_neg hprefix, ih he]
      rfl

theorem splitAtQuote?_cons_of_ne {c : Char} (hc : c ≠ q) (cs : List Char) :
    splitAtQuote? q (c :: cs) = (splitAtQuote? q cs).map fun e => (c :: e.1, e.2) := by
  cases cs with
  | nil => exact if_neg hc
  | cons d ds => rw [splitAtQuote?, if_pos hc]

theorem splitAtQuote?_doubled (q : Char) (cs : List Char) :
    splitAtQuote? q (q :: q :: cs) = (splitAtQuote? q cs).map fun e => (q :: q :: e.1, e.2) := by
  rw [splitAtQuote?, if_neg (fun h => h rfl), if_pos rfl]

theorem splitAtQuote?_quote (h : rest.head? ≠ some q) :
    splitAtQuote? q (q :: rest) = some ([], rest) := by
  cases rest with
  | nil => exact if_pos rfl
  | cons d ds =>
    have hd : d ≠ q := fun hd => h (congrArg some hd)
    rw [splitAtQuote?, if_neg (fun h => h rfl), if_neg hd]

theorem splitAtQuote?_append_other (h : splitAtQuote? q cs = some (body, rest))
    (hhead : rest.head? = rest'.head?) :
    splitAtQuote? q (body ++ [q] ++ rest') = some (body, rest') := by
  fun_induction splitAtQuote? q cs generalizing body with
  | case1 | case3 => cases h
  | case2 =>
    cases h
    exact splitAtQuote?_quote (hhead ▸ nofun)
  | case4 c d cs hc ih =>
    obtain ⟨e, he, heq⟩ := Option.map_eq_some_iff.1 h
    cases heq
    rw [List.cons_append, List.cons_append, splitAtQuote?_cons_of_ne hc, ih he]
    rfl
  | case5 c cs hc ih =>
    obtain ⟨e, he, heq⟩ := Option.map_eq_some_iff.1 h
    cases heq
    simp only [List.cons_append, splitAtQuote?_doubled, ih he]
    rfl
  | case6 c d cs hc hd =>
    cases h
    exact splitAtQuote?_quote (hhead ▸ fun h => hd (Option.some.inj h))

theorem close?_append_other (h : d.close? cs = some (body, rest))
    (hhead : rest.head? = rest'.head?) :
    d.close? (body ++ d.closer ++ rest') = some (body, rest') := by
  cases d with
  | quote q hq => exact splitAtQuote?_append_other h hhead
  | line | block => exact splitAt?_append_other h (List.cons_ne_nil _ _)

end Delimiter

/-! ### Segments -/

/-- A segment of a divided text. -/
inductive Segment where
  /-- A character of code. -/
  | code (c : Char)
  /-- A region with its body. -/
  | closed (d : Delimiter) (body : List Char)
  /-- A region that is not closed. -/
  | unclosed (d : Delimiter) (body : List Char)
  deriving DecidableEq

namespace Segment

/-- The characters of a segment. -/
def text : Segment → List Char
  | code c => [c]
  | closed d body => d.opener ++ body ++ d.closer
  | unclosed d body => d.opener ++ body

/-- The segment is a region. -/
def isOpaque : Segment → Bool
  | code _ => false
  | closed .. | unclosed .. => true

end Segment

namespace Template

/-- The segment that begins with the character `c`, and what follows it. -/
def firstSegment (c : Char) (rest : List Char) : Segment × List Char :=
  match Delimiter.opens? (c :: rest) with
  | none => (.code c, rest)
  | some (d, cs) =>
    match d.close? cs with
    | none => (.unclosed d cs, [])
    | some (body, after) => (.closed d body, after)

/-- The segment is cut off before the text `rest`. -/
inductive Cuts : Segment → List Char → Prop where
  | code {c : Char} {rest : List Char} (h : Delimiter.opens? (c :: rest) = none) :
    Cuts (.code c) rest
  | closed {d : Delimiter} {body rest : List Char}
    (h : d.close? (body ++ d.closer ++ rest) = some (body, rest)) : Cuts (.closed d body) rest
  | unclosed {d : Delimiter} {body : List Char} (h : d.close? body = none) :
    Cuts (.unclosed d body) []

variable {s : Segment} {rest rest' : List Char}

theorem text_firstSegment (c : Char) (rest : List Char) :
    (firstSegment c rest).1.text ++ (firstSegment c rest).2 = c :: rest := by
  unfold firstSegment
  split
  · rfl
  · rename_i hopens
    rw [Delimiter.eq_of_opens? hopens]
    split
    · rw [Segment.text, List.append_nil]
    · rename_i hclose
      rw [Delimiter.eq_of_close? hclose, Segment.text]
      simp only [List.append_assoc]

theorem cuts_firstSegment (c : Char) (rest : List Char) :
    Cuts (firstSegment c rest).1 (firstSegment c rest).2 := by
  unfold firstSegment
  split
  · exact .code ‹_›
  · split
    · exact .unclosed ‹_›
    · rename_i hclose
      exact .closed (Delimiter.eq_of_close? hclose ▸ hclose)

theorem Cuts.exists_firstSegment (h : Cuts s rest) :
    ∃ c cs, s.text = c :: cs ∧ firstSegment c (cs ++ rest) = (s, rest) := by
  cases h with
  | code h =>
    refine ⟨_, [], rfl, ?_⟩
    rw [firstSegment, List.nil_append, h]
  | @closed d body _ h =>
    obtain ⟨c, cs, hopener⟩ := List.exists_cons_of_ne_nil d.opener_ne_nil
    refine ⟨c, cs ++ body ++ d.closer, by rw [Segment.text, hopener]; rfl, ?_⟩
    have hopens := d.opens?_opener (body ++ d.closer ++ rest)
    rw [hopener, List.cons_append] at hopens
    rw [firstSegment, List.append_assoc, List.append_assoc, ← List.append_assoc body, hopens]
    simp only [h]
  | @unclosed d body h =>
    obtain ⟨c, cs, hopener⟩ := List.exists_cons_of_ne_nil d.opener_ne_nil
    refine ⟨c, cs ++ body, by rw [Segment.text, hopener]; rfl, ?_⟩
    have hopens := d.opens?_opener body
    rw [hopener, List.cons_append] at hopens
    rw [firstSegment, List.append_nil, hopens]
    simp only [h]

theorem Cuts.text_ne_nil (h : Cuts s rest) : s.text ≠ [] := by
  obtain ⟨c, cs, htext, -⟩ := h.exists_firstSegment
  exact htext ▸ List.cons_ne_nil c cs

/-- Where a segment ends is decided by the segment and the character behind it. -/
theorem Cuts.congr (h : Cuts s rest) (hhead : rest.head? = rest'.head?) : Cuts s rest' := by
  cases h with
  | code h =>
    rw [Delimiter.opens?_eq_none_iff, hhead] at h
    exact .code (Delimiter.opens?_eq_none_iff.2 h)
  | closed h => exact .closed (Delimiter.close?_append_other h hhead)
  | unclosed h =>
    rw [List.head?_eq_none_iff.1 hhead.symm]
    exact .unclosed h

theorem length_firstSegment (c : Char) (rest : List Char) :
    (firstSegment c rest).2.length ≤ rest.length := by
  have h := congrArg List.length (text_firstSegment c rest)
  have hpos := List.length_pos_iff.2 (cuts_firstSegment c rest).text_ne_nil
  simp only [List.length_append, List.length_cons] at h
  omega

/-! ### The division -/

/-- The segments of a text. -/
def divide : List Char → List Segment
  | [] => []
  | c :: rest =>
    let r := firstSegment c rest
    r.1 :: divide r.2
termination_by cs => cs.length
decreasing_by exact Nat.lt_succ_of_le (length_firstSegment c rest)

theorem text_divide (cs : List Char) : (divide cs).flatMap Segment.text = cs := by
  fun_induction divide cs with
  | case1 => rfl
  | case2 c rest r ih =>
    rw [List.flatMap_cons, ih]
    exact text_firstSegment c rest

theorem Cuts.divide_eq (h : Cuts s rest) : divide (s.text ++ rest) = s :: divide rest := by
  obtain ⟨c, cs, htext, hfirst⟩ := h.exists_firstSegment
  rw [htext, List.cons_append, divide]
  simp only [hfirst]

/-- The first of the segments of a text is cut off, and the others are those of what follows. -/
theorem cuts_of_divide_eq {cs : List Char} {segments : List Segment}
    (h : divide cs = s :: segments) :
    Cuts s (segments.flatMap Segment.text) ∧
      divide (segments.flatMap Segment.text) = segments := by
  cases cs with
  | nil => rw [divide] at h; cases h
  | cons c rest =>
    rw [divide] at h
    obtain ⟨rfl, hsegments⟩ := List.cons.inj h
    have hrest := text_divide (firstSegment c rest).2
    rw [hsegments] at hrest
    rw [hrest]
    exact ⟨cuts_firstSegment c rest, hsegments⟩

/-- What follows some segments is divided into the others. -/
theorem divide_back {front back : List Segment} {cs : List Char} (h : divide cs = front ++ back) :
    divide (back.flatMap Segment.text) = back := by
  induction front generalizing cs with
  | nil =>
    have htext := text_divide cs
    rw [h] at htext
    exact htext ▸ h
  | cons s front ih => exact ih (cuts_of_divide_eq h).2

/-- Segments are cut off as before if what follows begins as before. -/
theorem divide_front {front back : List Segment} {cs : List Char}
    (h : divide cs = front ++ back) (hhead : (back.flatMap Segment.text).head? = rest.head?) :
    divide (front.flatMap Segment.text ++ rest) = front ++ divide rest := by
  induction front generalizing cs with
  | nil => rfl
  | cons s front ih =>
    obtain ⟨hcuts, hdivide⟩ := cuts_of_divide_eq h
    have hfront : ((front ++ back).flatMap Segment.text).head? =
        (front.flatMap Segment.text ++ rest).head? := by
      rw [List.flatMap_append, List.head?_append, List.head?_append, hhead]
    rw [List.flatMap_cons, List.append_assoc, (hcuts.congr hfront).divide_eq, ih hdivide,
      List.cons_append]

/-- **A body can be replaced.**  If the region is still closed where it was, the division is the
same otherwise. -/
theorem divide_replace {front back : List Segment} {d : Delimiter} {body body' cs : List Char}
    (h : divide cs = front ++ .closed d body :: back)
    (hclose : Cuts (.closed d body') (back.flatMap Segment.text)) :
    divide ((front ++ .closed d body' :: back).flatMap Segment.text) =
      front ++ .closed d body' :: back := by
  have hsplit : divide cs = (front ++ [.closed d body]) ++ back := by
    rw [h, List.append_assoc]
    rfl
  have hhead (body : List Char) :
      ((Segment.closed d body).text ++ back.flatMap Segment.text).head? = d.opener.head? := by
    obtain ⟨c, cs, hopener⟩ := List.exists_cons_of_ne_nil d.opener_ne_nil
    rw [Segment.text, hopener]
    rfl
  rw [List.flatMap_append, List.flatMap_cons, divide_front h, hclose.divide_eq,
    divide_back hsplit]
  rw [List.flatMap_cons, hhead, hhead]

end Template

end RowMapping
