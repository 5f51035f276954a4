import RowMapping.Template.Params
import RowMapping.Template.Scan

/-!
# Where the scanner cuts

`Reads flags before piece rest` says, kind by kind, when the scanner reads a piece between the text
before it, given backwards, and the text after it.

* `reads_firstPiece`, `Reads.firstPiece_eq`: this is what the scanner does;
* `scanFrom_cons`, `Reads.scanFrom_eq`: a scanned text is taken apart, and put together, piece by
  piece.
-/

namespace RowMapping.Template

/-! ### Characters of one class -/

section Class

variable {p : Char → Bool} {cs rest : List Char}

theorem any_head?_dropWhile (p : Char → Bool) (cs : List Char) :
    (cs.dropWhile p).head?.any p = false := by
  have h := List.head?_dropWhile_not p cs
  cases hhead : (cs.dropWhile p).head? with
  | none => rfl
  | some c =>
    rw [hhead] at h
    exact h

theorem exists_cons_of_any_head? (h : cs.head?.any p = true) :
    ∃ c ds, cs = c :: ds ∧ p c = true := by
  cases cs with
  | nil => cases h
  | cons c ds => exact ⟨c, ds, rfl, h⟩

theorem takeWhile_append_rest (h : ∀ c ∈ cs, p c = true) (hrest : rest.head?.any p = false) :
    (cs ++ rest).takeWhile p = cs := by
  rw [List.takeWhile_append_of_pos h]
  cases rest with
  | nil => exact List.append_nil cs
  | cons c rest =>
    have hc : ¬p c = true := Bool.eq_false_iff.1 hrest
    rw [List.takeWhile_cons_of_neg hc, List.append_nil]

theorem dropWhile_append_rest (h : ∀ c ∈ cs, p c = true) (hrest : rest.head?.any p = false) :
    (cs ++ rest).dropWhile p = rest := by
  rw [List.dropWhile_append_of_pos h]
  cases rest with
  | nil => rfl
  | cons c rest => exact List.dropWhile_cons_of_neg (Bool.eq_false_iff.1 hrest)

end Class

/-! ### Quoted texts -/

/-- The text goes up to the quote that closes a quoted text, and no further. -/
inductive Closes (quote : Char) : List Char → Prop where
  | quote : Closes quote [quote]
  | char {c : Char} {cs : List Char} (hc : c ≠ quote) (h : Closes quote cs) : Closes quote (c :: cs)
  | doubled {cs : List Char} (h : Closes quote cs) : Closes quote (quote :: quote :: cs)

section Quotes

variable {quote : Char} {cs : List Char}

theorem throughQuote_cons_of_ne {c : Char} (hc : c ≠ quote) (cs : List Char) :
    throughQuote quote (c :: cs) =
      (c :: (throughQuote quote cs).1, (throughQuote quote cs).2) := by
  cases cs with
  | nil => rfl
  | cons d ds => rw [throughQuote, if_pos hc]

theorem throughQuote_doubled (quote : Char) (cs : List Char) :
    throughQuote quote (quote :: quote :: cs) =
      (quote :: quote :: (throughQuote quote cs).1, (throughQuote quote cs).2) := by
  rw [throughQuote, if_neg (fun h => h rfl), if_pos rfl]

theorem throughQuote_quote {rest : List Char} (h : rest.head? ≠ some quote) :
    throughQuote quote (quote :: rest) = ([quote], rest) := by
  cases rest with
  | nil => rfl
  | cons d ds =>
    have hd : d ≠ quote := fun hd => h (congrArg some hd)
    rw [throughQuote, if_neg (fun h => h rfl), if_neg hd]

/-- Before another quote, the quoted text goes on behind it. -/
theorem Closes.throughQuote_quote (h : Closes quote cs) (rest : List Char) :
    throughQuote quote (cs ++ quote :: rest) =
      (cs ++ quote :: (throughQuote quote rest).1, (throughQuote quote rest).2) := by
  induction h with
  | quote => exact throughQuote_doubled quote rest
  | char hc _ ih => rw [List.cons_append, throughQuote_cons_of_ne hc, ih, List.cons_append]
  | doubled _ ih =>
    rw [List.cons_append, List.cons_append, throughQuote_doubled, ih, List.cons_append,
      List.cons_append]

theorem Closes.throughQuote_eq (h : Closes quote cs) {rest : List Char}
    (hrest : rest.head? ≠ some quote) : throughQuote quote (cs ++ rest) = (cs, rest) := by
  induction h with
  | quote => exact Template.throughQuote_quote hrest
  | char hc _ ih => rw [List.cons_append, throughQuote_cons_of_ne hc, ih]
  | doubled _ ih => rw [List.cons_append, List.cons_append, throughQuote_doubled, ih]

theorem closes_throughQuote (h : (throughQuote quote cs).2 ≠ []) :
    Closes quote (throughQuote quote cs).1 ∧ (throughQuote quote cs).2.head? ≠ some quote := by
  fun_induction throughQuote quote cs with
  | case1 | case2 => exact absurd rfl h
  | case3 c d ds hc r ih => exact (ih h).imp_left (.char hc)
  | case4 c ds hc r ih =>
    rw [Decidable.not_not.1 hc]
    exact (ih h).imp_left .doubled
  | case5 c d ds hc hd =>
    rw [Decidable.not_not.1 hc]
    exact ⟨.quote, fun h => hd (Option.some.inj h)⟩

theorem closes_append_quote {cs : List Char} (h : quote ∉ cs) : Closes quote (cs ++ [quote]) := by
  induction cs with
  | nil => exact .quote
  | cons c cs ih =>
    exact .char (fun hc => h (hc ▸ List.mem_cons_self))
      (ih fun hmem => h (List.mem_cons_of_mem c hmem))

end Quotes

/-! ### Comments -/

theorem throughNewline_append_other {cs : List Char} (h : (throughNewline cs).2 ≠ [])
    (other : List Char) :
    throughNewline ((throughNewline cs).1 ++ other) = ((throughNewline cs).1, other) := by
  fun_induction throughNewline cs with
  | case1 => exact absurd rfl h
  | case2 => rfl
  | case3 c cs hc r ih => rw [List.cons_append, throughNewline, if_neg hc, ih h]

theorem throughStarSlash_cons (c : Char) (cs : List Char) :
    ∃ tail, (throughStarSlash (c :: cs)).1 = c :: tail := by
  cases cs with
  | nil => exact ⟨[], rfl⟩
  | cons d ds =>
    rw [throughStarSlash]
    split <;> exact ⟨_, rfl⟩

theorem throughStarSlash_append_other {cs : List Char} (h : (throughStarSlash cs).2 ≠ [])
    (other : List Char) :
    throughStarSlash ((throughStarSlash cs).1 ++ other) = ((throughStarSlash cs).1, other) := by
  fun_induction throughStarSlash cs with
  | case1 | case2 => exact absurd rfl h
  | case3 c d ds hcd =>
    rw [List.cons_append, List.cons_append, throughStarSlash]
    exact if_pos hcd
  | case4 c d ds hcd r ih =>
    have ih := ih h
    -- the character after the first one is in the comment as well
    obtain ⟨tail, htail⟩ := throughStarSlash_cons d ds
    rw [htail, List.cons_append] at ih
    simp only [r, htail, List.cons_append]
    rw [throughStarSlash, if_neg hcd, ih]

/-! ### Pieces -/

variable (flags : Flags) (before : List Char)

/-- The text begins with a name and a closing brace. -/
def ClosesBrace (cs : List Char) : Prop :=
  cs.takeWhile isWord ≠ [] ∧ (cs.dropWhile isWord).head? = some '\x7d'

/-- The character begins nothing but itself. -/
structure StandsAlone (c : Char) (rest : List Char) : Prop where
  quote : isQuote c = false
  line : c = '-' → rest.head? ≠ some '-'
  block : c = '/' → rest.head? ≠ some '*'
  literal : c = '\x7b' → flags.literalTokens = true → rest.head? = some '=' → ¬ClosesBrace rest.tail
  system : Params.isMarker c = true → rest.head? ≠ some c
  named : Params.isMarker c = true →
    before.head?.any isWord = true ∨ rest.head?.any isNameStart = false
  positional : c = '?' → flags.legacyMarkers = true →
    before.head?.any joinsQuestionMark = true ∨ rest.head?.any joinsQuestionMark = true

/-- The scanner reads the piece between the text before it, given backwards, and the text after
it. -/
inductive Reads : Piece → List Char → Prop where
  | quoted {quote : Char} {body rest : List Char} (hquote : isQuote quote = true)
    (h : throughQuote quote (body ++ rest) = (body, rest)) : Reads (.quoted (quote :: body)) rest
  | line {body rest : List Char} (h : throughNewline (body ++ rest) = (body, rest)) :
    Reads (.comment ('-' :: '-' :: body)) rest
  | block {body rest : List Char} (h : throughStarSlash (body ++ rest) = (body, rest)) :
    Reads (.comment ('/' :: '*' :: body)) rest
  | system {marker : Char} {name rest : List Char} (hmarker : Params.isMarker marker = true)
    (hname : ∀ c ∈ name, isWord c = true) (hrest : rest.head?.any isWord = false) :
    Reads (.system marker name) rest
  | literal {name rest : List Char} (hflag : flags.literalTokens = true) (hne : name ≠ [])
    (hname : ∀ c ∈ name, isWord c = true) : Reads (.literal name) rest
  | named {marker : Char} {name rest : List Char} (hmarker : Params.isMarker marker = true)
    (hbefore : before.head?.any isWord = false) (hstart : name.head?.any isNameStart = true)
    (hname : ∀ c ∈ name, isWord c = true) (hrest : rest.head?.any isWord = false) :
    Reads (.named marker name (followsIn before)) rest
  | positional {rest : List Char} (hflag : flags.legacyMarkers = true)
    (hbefore : before.head?.any joinsQuestionMark = false)
    (hrest : rest.head?.any joinsQuestionMark = false) : Reads .positional rest
  | code {c : Char} {rest : List Char} (h : StandsAlone flags before c rest) : Reads (.code c) rest

/-! ### What the scanner reads -/

theorem isMarker_iff {c : Char} : Params.isMarker c = true ↔ c = '@' ∨ c = ':' := by
  rw [Params.isMarker, Bool.or_eq_true, beq_iff_eq, beq_iff_eq]

theorem isWord_eq_false_of_isMarker {c : Char} (h : Params.isMarker c = true) :
    isWord c = false := by
  rcases isMarker_iff.1 h with rfl | rfl <;> rfl

theorem isGap_eq_false_of_isMarker {c : Char} (h : Params.isMarker c = true) :
    isGap c = false := by
  rcases isMarker_iff.1 h with rfl | rfl <;> rfl

theorem isWord_of_isNameStart {c : Char} (h : isNameStart c = true) : isWord c = true := by
  simp only [isNameStart, isWord, Char.isAlphanum, Bool.or_eq_true] at h ⊢
  exact h.imp_left (Or.imp_left .inl)

theorem isWord_of_mem_takeWhile {cs : List Char} : ∀ c ∈ cs.takeWhile isWord, isWord c = true :=
  List.all_eq_true.1 List.all_takeWhile

theorem any_head?_takeWhile {cs : List Char} (h : cs.head?.any isNameStart = true) :
    (cs.takeWhile isWord).head?.any isNameStart = true := by
  obtain ⟨c, ds, rfl, hc⟩ := exists_cons_of_any_head? h
  rw [List.takeWhile_cons, if_pos (isWord_of_isNameStart hc)]
  exact hc

variable {flags : Flags} {before : List Char}

theorem standsAlone_of_notMem {c : Char} {rest : List Char} (hquote : isQuote c = false)
    (hmarker : Params.isMarker c = false) (hc : c ∉ ['-', '/', '\x7b', '?']) :
    StandsAlone flags before c rest where
  quote := hquote
  line h := absurd (by simp [h]) hc
  block h := absurd (by simp [h]) hc
  literal h := absurd (by simp [h]) hc
  system h := absurd h (Bool.eq_false_iff.1 hmarker)
  named h := absurd h (Bool.eq_false_iff.1 hmarker)
  positional h := absurd (by simp [h]) hc

theorem reads_system {marker : Char} (hmarker : Params.isMarker marker = true) (cs : List Char) :
    Reads flags before (.system marker (cs.takeWhile isWord)) (cs.dropWhile isWord) :=
  .system hmarker isWord_of_mem_takeWhile (any_head?_dropWhile isWord cs)

theorem reads_marked {marker : Char} {rest : List Char} (hmarker : Params.isMarker marker = true)
    (hsystem : rest.head? ≠ some marker) :
    Reads flags before (marked before marker rest).1 (marked before marker rest).2 := by
  unfold marked
  split
  · rename_i h
    rw [Bool.and_eq_true, Bool.not_eq_true'] at h
    exact .named hmarker h.1 (any_head?_takeWhile h.2) isWord_of_mem_takeWhile
      (any_head?_dropWhile isWord rest)
  · rename_i h
    have hnamed : before.head?.any isWord = true ∨ rest.head?.any isNameStart = false := by
      rwa [Bool.not_eq_true, Bool.and_eq_false_iff, Bool.not_eq_false'] at h
    refine .code ⟨?_, ?_, ?_, ?_, fun _ => hsystem, fun _ => hnamed, ?_⟩ <;>
      rcases isMarker_iff.1 hmarker with rfl | rfl <;> first | rfl | nofun

theorem reads_question {rest : List Char} (hflag : flags.legacyMarkers = true) :
    Reads flags before (question before rest).1 (question before rest).2 := by
  unfold question
  split
  · rename_i h
    exact .code ⟨rfl, nofun, nofun, nofun, nofun, nofun, fun _ _ => Bool.or_eq_true_iff.1 h⟩
  · rename_i h
    rw [Bool.not_eq_true, Bool.or_eq_false_iff] at h
    exact .positional hflag h.1 h.2

theorem reads_braced {rest : List Char} (hflag : flags.literalTokens = true) :
    Reads flags before (braced rest).1 (braced rest).2 := by
  unfold braced
  split
  · rename_i c name after htake hdrop
    exact .literal hflag (List.cons_ne_nil c name) (htake ▸ isWord_of_mem_takeWhile)
  · rename_i hnone
    refine .code ⟨rfl, nofun, nofun, fun _ _ _ hcloses => ?_, nofun, nofun, nofun⟩
    obtain ⟨hname, hbrace⟩ := hcloses
    obtain ⟨c, name, htake⟩ := List.exists_cons_of_ne_nil hname
    obtain ⟨after, hdrop⟩ := List.head?_eq_some_iff.1 hbrace
    exact hnone c name after htake hdrop

theorem reads_firstPiece (flags : Flags) (before : List Char) (c : Char) (rest : List Char) :
    Reads flags before (firstPiece flags before c rest).1 (firstPiece flags before c rest).2 := by
  unfold firstPiece
  split
  · rename_i hquote
    refine .quoted hquote ?_
    rw [throughQuote_append]
  · rename_i hquote
    split
    · refine .line ?_
      rw [throughNewline_append]
    · refine .block ?_
      rw [throughStarSlash_append]
    · split
      · exact reads_braced ‹_›
      · rename_i hflag
        exact .code ⟨rfl, nofun, nofun, fun _ h => absurd h hflag, nofun, nofun, nofun⟩
    · exact reads_system rfl _
    · exact reads_system rfl _
    · rename_i hsystem
      exact reads_marked rfl fun h => (List.head?_eq_some_iff.1 h).elim hsystem
    · rename_i hsystem
      exact reads_marked rfl fun h => (List.head?_eq_some_iff.1 h).elim hsystem
    · split
      · exact reads_question ‹_›
      · rename_i hflag
        exact .code ⟨rfl, nofun, nofun, nofun, nofun, nofun, fun _ h => absurd h hflag⟩
    · rename_i hat hcolon hmark hline hblock hbrace _ _
      have hnotmarker : ¬Params.isMarker c = true := fun h => (isMarker_iff.1 h).elim hat hcolon
      exact .code
        { quote := Bool.eq_false_iff.2 hquote
          line := fun hc h => (List.head?_eq_some_iff.1 h).elim fun cs => hline cs hc
          block := fun hc h => (List.head?_eq_some_iff.1 h).elim fun cs => hblock cs hc
          literal := fun hc _ h => ((List.head?_eq_some_iff.1 h).elim fun cs => hbrace cs hc).elim
          system := fun h => absurd h hnotmarker
          named := fun h => absurd h hnotmarker
          positional := fun hc => (hmark hc).elim }

theorem firstPiece_marker {marker : Char} {rest : List Char}
    (hmarker : Params.isMarker marker = true) (hsystem : rest.head? ≠ some marker) :
    firstPiece flags before marker rest = marked before marker rest := by
  have hquote : ¬isQuote marker = true := by
    rcases isMarker_iff.1 hmarker with rfl | rfl <;> decide
  unfold firstPiece
  rw [if_neg hquote]
  split
  · cases hmarker
  · cases hmarker
  · cases hmarker
  · exact absurd rfl hsystem
  · exact absurd rfl hsystem
  · rfl
  · rfl
  · cases hmarker
  · rename_i hat hcolon _ _ _ _ _ _
    exact ((isMarker_iff.1 hmarker).elim hat hcolon).elim

theorem firstPiece_system {marker : Char} (hmarker : Params.isMarker marker = true)
    (cs : List Char) :
    firstPiece flags before marker (marker :: cs) =
      (.system marker (cs.takeWhile isWord), cs.dropWhile isWord) := by
  rcases isMarker_iff.1 hmarker with rfl | rfl <;> rfl

theorem StandsAlone.firstPiece_eq {c : Char} {rest : List Char}
    (h : StandsAlone flags before c rest) : firstPiece flags before c rest = (.code c, rest) := by
  have hmarked (hmarker : Params.isMarker c = true) : marked before c rest = (.code c, rest) := by
    refine if_neg ?_
    rw [Bool.not_eq_true, Bool.and_eq_false_iff, Bool.not_eq_false']
    exact h.named hmarker
  unfold firstPiece
  rw [if_neg (Bool.eq_false_iff.1 h.quote)]
  split
  · exact absurd rfl (h.line rfl)
  · exact absurd rfl (h.block rfl)
  · split
    · rename_i cs hflag
      have hopen : ¬ClosesBrace cs := h.literal rfl hflag rfl
      unfold braced
      split
      · rename_i htake hdrop
        refine absurd ⟨?_, ?_⟩ hopen
        · rw [htake]
          exact List.cons_ne_nil _ _
        · rw [hdrop, List.head?_cons]
      · rfl
    · rfl
  · exact absurd rfl (h.system rfl)
  · exact absurd rfl (h.system rfl)
  · exact hmarked rfl
  · exact hmarked rfl
  · split
    · rename_i hflag
      exact if_pos (Bool.or_eq_true_iff.2 (h.positional rfl hflag))
    · rfl
  · rfl

theorem Reads.exists_firstPiece {piece : Piece} {rest : List Char}
    (h : Reads flags before piece rest) :
    ∃ c cs, piece.text = c :: cs ∧ firstPiece flags before c (cs ++ rest) = (piece, rest) := by
  cases h with
  | quoted hquote h =>
    refine ⟨_, _, rfl, ?_⟩
    unfold firstPiece
    rw [if_pos hquote, h]
  | @line body _ h =>
    refine ⟨'-', '-' :: body, rfl, ?_⟩
    have hfirst : firstPiece flags before '-' ('-' :: (body ++ rest)) =
        (.comment ('-' :: '-' :: (throughNewline (body ++ rest)).1),
          (throughNewline (body ++ rest)).2) := rfl
    rw [List.cons_append, hfirst, h]
  | @block body _ h =>
    refine ⟨'/', '*' :: body, rfl, ?_⟩
    have hfirst : firstPiece flags before '/' ('*' :: (body ++ rest)) =
        (.comment ('/' :: '*' :: (throughStarSlash (body ++ rest)).1),
          (throughStarSlash (body ++ rest)).2) := rfl
    rw [List.cons_append, hfirst, h]
  | @system marker name _ hmarker hname hrest =>
    refine ⟨marker, marker :: name, rfl, ?_⟩
    rw [List.cons_append, firstPiece_system hmarker, takeWhile_append_rest hname hrest,
      dropWhile_append_rest hname hrest]
  | @literal name _ hflag hne hname =>
    obtain ⟨c, cs, rfl⟩ := List.exists_cons_of_ne_nil hne
    have hbrace : (['\x7d'] ++ rest).head?.any isWord = false := rfl
    refine ⟨'\x7b', '=' :: (c :: cs) ++ ['\x7d'], rfl, ?_⟩
    have hfirst : firstPiece flags before '\x7b' ('=' :: ((c :: cs) ++ (['\x7d'] ++ rest))) =
        braced ((c :: cs) ++ (['\x7d'] ++ rest)) := if_pos hflag
    rw [List.append_assoc, List.cons_append, hfirst, braced, takeWhile_append_rest hname hbrace,
      dropWhile_append_rest hname hbrace]
    rfl
  | @named marker name _ hmarker hbefore hstart hname hrest =>
    refine ⟨marker, name, rfl, ?_⟩
    obtain ⟨c, cs, rfl, hc⟩ := exists_cons_of_any_head? hstart
    have hsystem : ((c :: cs) ++ rest).head? ≠ some marker := fun h => by
      cases h
      rcases isMarker_iff.1 hmarker with rfl | rfl <;> cases hc
    rw [firstPiece_marker hmarker hsystem, marked, takeWhile_append_rest hname hrest,
      dropWhile_append_rest hname hrest]
    exact if_pos (by rw [hbefore]; exact hstart)
  | positional hflag hbefore hrest =>
    refine ⟨'?', [], rfl, ?_⟩
    change (if flags.legacyMarkers = true then question before rest else _) = _
    rw [if_pos hflag]
    exact if_neg (Bool.eq_false_iff.1 (Bool.or_eq_false_iff.2 ⟨hbefore, hrest⟩))
  | code h => exact ⟨_, [], rfl, h.firstPiece_eq⟩

/-! ### Scanned texts -/

theorem Reads.scanFrom_eq {piece : Piece} {rest : List Char} (h : Reads flags before piece rest) :
    scanFrom flags before (piece.text ++ rest) =
      piece :: scanFrom flags (piece.text.reverse ++ before) rest := by
  obtain ⟨c, cs, htext, hfirst⟩ := h.exists_firstPiece
  rw [htext, List.cons_append, scanFrom]
  simp only [hfirst, htext]

/-- The first of the pieces of a text is read there, and the others are those of what follows. -/
theorem reads_of_scanFrom_eq {cs : List Char} {piece : Piece} {ps : List Piece}
    (h : scanFrom flags before cs = piece :: ps) :
    Reads flags before piece (ps.flatMap Piece.text) ∧
      scanFrom flags (piece.text.reverse ++ before) (ps.flatMap Piece.text) = ps := by
  cases cs with
  | nil => rw [scanFrom] at h; cases h
  | cons c rest =>
    rw [scanFrom] at h
    obtain ⟨rfl, hps⟩ := List.cons.inj h
    have hrest := text_scanFrom flags ((firstPiece flags before c rest).1.text.reverse ++ before)
      (firstPiece flags before c rest).2
    rw [hps] at hrest
    rw [hrest]
    exact ⟨reads_firstPiece flags before c rest, hps⟩

theorem exists_reads_of_mem_scanFrom {cs : List Char} {piece : Piece}
    (h : piece ∈ scanFrom flags before cs) : ∃ before rest, Reads flags before piece rest := by
  fun_induction scanFrom flags before cs with
  | case1 => cases h
  | case2 before c rest r ih =>
    rcases List.mem_cons.1 h with rfl | h
    · exact ⟨before, r.2, reads_firstPiece flags before c rest⟩
    · exact ih h

theorem Reads.text_ne_nil {piece : Piece} {rest : List Char} (h : Reads flags before piece rest) :
    piece.text ≠ [] := by
  obtain ⟨c, cs, htext, -⟩ := h.exists_firstPiece
  exact htext ▸ List.cons_ne_nil c cs

end RowMapping.Template
