import RowMapping.Proofs.Template.Correspondence
import RowMapping.Proofs.Template.Cutting
import RowMapping.Proofs.Template.LiteralText

/-!
# How a text is read

A text is read from left to right.  Some text is read in one way wherever it stands, and what
follows is read as if the scanner had just begun there, with that text before it.  For this, quoted
texts and names of the data source are seen as single characters (`Piece.atoms`): two that touch are
scanned as one, but each of their characters is read as before.

* `Template.ReadAs.append`: texts are read one after the other;
* `Template.readAs_of_closes`, `Template.readAs_literal`: quoted texts and the texts of literal
  tokens are read in one way, whatever stands next to them;
* `Template.tokens_parse`: the tokens of a template are those of its text, also of a bare name.
-/

namespace RowMapping

/-! ### Atoms -/

/-- A character of a quoted text. -/
def Piece.quotedChar (c : Char) : Piece := .quoted [c]

/-- The piece as it is read: the characters of a quoted text, and those of a name that belongs to
the data source, one by one. -/
def Piece.atoms : Piece → List Piece
  | .quoted cs => cs.map quotedChar
  | .system marker name => (marker :: marker :: name).map .code
  | piece => [piece]

/-- The number of bytes of characters in UTF-8. -/
def Text.byteCount (cs : List Char) : Nat := (Text.encode cs).length

theorem Text.byteCount_cons (c : Char) (cs : List Char) :
    byteCount (c :: cs) = byteCount [c] + byteCount cs := by
  rw [byteCount, ← List.singleton_append, encode, List.flatMap_append, List.length_append]
  rfl

theorem Text.byteCount_text (piece : Piece) : byteCount piece.text = piece.byteSize :=
  piece.length_encode_text

namespace Token

theorem ofPieces_map_append {f : Char → Piece} (hkind : ∀ c, kindAndName? (f c) = none)
    (htext : ∀ c, (f c).text = [c]) (cs : List Char) (ps : List Piece) (start : Nat) :
    ofPieces start (cs.map f ++ ps) = ofPieces (start + Text.byteCount cs) ps := by
  induction cs generalizing start with
  | nil => rfl
  | cons c cs ih =>
    rw [List.map_cons, List.cons_append, Text.byteCount_cons, ← htext c, Text.byteCount_text,
      ← Nat.add_assoc, ← ih]
    simp only [ofPieces, hkind]

theorem ofPieces_atoms_append (piece : Piece) (ps : List Piece) (start : Nat) :
    ofPieces start (piece.atoms ++ ps) = ofPieces start (piece :: ps) := by
  cases piece with
  | quoted | system =>
    rw [Piece.atoms, ofPieces_map_append (fun _ => rfl) (fun _ => rfl), ofPieces,
      ← Text.byteCount_text]
    rfl
  | code | comment | positional | named | literal => rfl

theorem ofPieces_flatMap_atoms (ps : List Piece) (start : Nat) :
    ofPieces start (ps.flatMap Piece.atoms) = ofPieces start ps := by
  induction ps generalizing start with
  | nil => rfl
  | cons piece ps ih =>
    rw [List.flatMap_cons, ofPieces_atoms_append]
    simp only [ofPieces, ih]

end Token

namespace Template

/-- How a text is read; what comes before it is given backwards. -/
def atomsFrom (flags : Flags) (before cs : List Char) : List Piece :=
  (scanFrom flags before cs).flatMap Piece.atoms

/-- Between the text before it and the text after it, `mid` is read as `out`, and what follows as if
the scanner had just begun there. -/
def ReadAs (flags : Flags) (before mid : List Char) (out : List Piece) (rest : List Char) : Prop :=
  atomsFrom flags before (mid ++ rest) = out ++ atomsFrom flags (mid.reverse ++ before) rest

variable {flags : Flags} {before mid rest : List Char} {out : List Piece}

theorem ReadAs.append {mid' : List Char} {out' : List Piece}
    (h : ReadAs flags before mid out (mid' ++ rest))
    (h' : ReadAs flags (mid.reverse ++ before) mid' out' rest) :
    ReadAs flags before (mid ++ mid') (out ++ out') rest := by
  rw [ReadAs, List.append_assoc, h, h', List.reverse_append, List.append_assoc, List.append_assoc]

theorem readAs_of_reads {piece : Piece} (h : Reads flags before piece rest) :
    ReadAs flags before piece.text piece.atoms rest := by
  rw [ReadAs, atomsFrom, h.scanFrom_eq, List.flatMap_cons]
  rfl

/-! ### Text that is read in one way -/

theorem standsAlone_of_isWord {c : Char} (h : isWord c = true ∨ c = '.') :
    StandsAlone flags before c rest := by
  have hne {d : Char} (hword : isWord d = false) (hpoint : d ≠ '.') : c ≠ d := by
    rintro rfl
    rcases h with h | h
    · rw [h] at hword
      cases hword
    · exact hpoint h
  have hmarker : ¬Params.isMarker c = true := fun hmarker =>
    (isMarker_iff.1 hmarker).elim (hne rfl (by decide)) (hne rfl (by decide))
  have hquote : isQuote c = false := by
    simp only [isQuote, Bool.or_eq_false_iff, beq_eq_false_iff_ne]
    exact ⟨⟨hne rfl (by decide), hne rfl (by decide)⟩, hne rfl (by decide)⟩
  exact
    { quote := hquote
      line := fun hc => (hne rfl (by decide) hc).elim
      block := fun hc => (hne rfl (by decide) hc).elim
      literal := fun hc => (hne rfl (by decide) hc).elim
      system := fun hc => absurd hc hmarker
      named := fun hc => absurd hc hmarker
      positional := fun hc => (hne rfl (by decide) hc).elim }

theorem readAs_words {cs : List Char} (h : ∀ c ∈ cs, isWord c = true ∨ c = '.') :
    ReadAs flags before cs (cs.map .code) rest := by
  induction cs generalizing before with
  | nil => rfl
  | cons c cs ih =>
    have hfirst : ReadAs flags before [c] [.code c] (cs ++ rest) :=
      readAs_of_reads (.code (standsAlone_of_isWord (h c List.mem_cons_self)))
    exact hfirst.append (ih fun d hd => h d (List.mem_cons_of_mem c hd))

/-- A closed quoted text is read in one way.  If a quote follows at once, the scanner takes it for a
doubled one, and the text behind it for a part of the same quoted text; but all of these characters
are quoted in any case. -/
theorem readAs_of_closes {quote : Char} {body : List Char} (hquote : isQuote quote = true)
    (h : Closes quote body) :
    ReadAs flags before (quote :: body) ((quote :: body).map Piece.quotedChar) rest := by
  by_cases hrest : rest.head? = some quote
  · obtain ⟨tail, rfl⟩ := List.head?_eq_some_iff.1 hrest
    have hinner : throughQuote quote
        ((throughQuote quote tail).1 ++ (throughQuote quote tail).2) = throughQuote quote tail := by
      rw [throughQuote_append]
    -- the quoted text that begins with the quote behind, and the one with both
    have hsecond : Reads flags ((quote :: body).reverse ++ before)
        (.quoted (quote :: (throughQuote quote tail).1)) (throughQuote quote tail).2 :=
      .quoted hquote hinner
    have hboth : Reads flags before
        (.quoted (quote :: (body ++ quote :: (throughQuote quote tail).1)))
        (throughQuote quote tail).2 := by
      refine .quoted hquote ?_
      rw [List.append_assoc, List.cons_append, h.throughQuote_quote, hinner]
    have htail : quote :: (throughQuote quote tail).1 ++ (throughQuote quote tail).2 =
        quote :: tail := by
      rw [List.cons_append, throughQuote_append]
    have hsecond := readAs_of_reads hsecond
    have hboth := readAs_of_reads hboth
    simp only [ReadAs, Piece.text, Piece.atoms] at hsecond hboth
    rw [htail] at hsecond
    rw [← List.cons_append, List.append_assoc, htail, List.map_append, List.reverse_append,
      List.append_assoc, List.append_assoc] at hboth
    rw [ReadAs, hboth, hsecond]
  · exact readAs_of_reads (.quoted hquote (h.throughQuote_eq hrest))

/-- A quoted text or a comment that something follows is read in one way. -/
theorem readAs_of_isHidden {piece : Piece} {before' rest' : List Char}
    (h : Reads flags before piece rest) (hhidden : piece.isHidden = true)
    (hrest : rest = [] → rest' = []) : ReadAs flags before' piece.text piece.atoms rest' := by
  cases h with
  | @quoted quote body _ hquote h =>
    by_cases hnil : rest = []
    · obtain rfl := hrest hnil
      subst hnil
      exact readAs_of_reads (.quoted hquote h)
    · have hne : (throughQuote quote (body ++ rest)).2 ≠ [] := by rwa [h]
      have hclosed := closes_throughQuote hne
      rw [h] at hclosed
      exact readAs_of_closes hquote hclosed.1
  | @line body _ h =>
    have hline : throughNewline (body ++ rest') = (body, rest') := by
      by_cases hnil : rest = []
      · rw [hrest hnil, ← hnil]
        exact h
      · have hne : (throughNewline (body ++ rest)).2 ≠ [] := by rwa [h]
        have hother := throughNewline_append_other hne rest'
        rwa [h] at hother
    exact readAs_of_reads (.line hline)
  | @block body _ h =>
    have hblock : throughStarSlash (body ++ rest') = (body, rest') := by
      by_cases hnil : rest = []
      · rw [hrest hnil, ← hnil]
        exact h
      · have hne : (throughStarSlash (body ++ rest)).2 ≠ [] := by rwa [h]
        have hother := throughStarSlash_append_other hne rest'
        rwa [h] at hother
    exact readAs_of_reads (.block hblock)
  | system | literal | named | positional | code => cases hhidden

theorem readAs_system {marker : Char} (hmarker : Params.isMarker marker = true)
    {name : List Char} (hname : ∀ c ∈ name, isWord c = true) :
    ReadAs flags before (marker :: marker :: name) ((marker :: marker :: name).map .code) rest := by
  -- the name may go on in what follows, whose characters are read one by one in any case
  have hmore : ∀ c ∈ rest.takeWhile isWord, isWord c = true := isWord_of_mem_takeWhile
  have hlong : Reads flags before (.system marker (name ++ rest.takeWhile isWord))
      (rest.dropWhile isWord) :=
    .system hmarker (fun c hc => (List.mem_append.1 hc).elim (hname c) (hmore c))
      (any_head?_dropWhile isWord rest)
  have hlong := readAs_of_reads hlong
  have hwords : ReadAs flags ((marker :: marker :: name).reverse ++ before)
      (rest.takeWhile isWord) ((rest.takeWhile isWord).map .code) (rest.dropWhile isWord) :=
    readAs_words fun c hc => .inl (hmore c hc)
  simp only [ReadAs, Piece.text, Piece.atoms, List.takeWhile_append_dropWhile] at hlong hwords
  rw [← List.cons_append, ← List.cons_append, List.append_assoc, List.takeWhile_append_dropWhile,
    List.map_append, List.reverse_append, List.append_assoc, List.append_assoc] at hlong
  rw [ReadAs, hlong, hwords]

/-- How a literal text is read: as a quoted text, or character by character. -/
def literalAtoms (s : List Char) : List Piece :=
  if s.head? = some '\x27' then s.map Piece.quotedChar else s.map .code

/-- **The text of a literal token is read in one way**, whatever stands before and behind it. -/
theorem readAs_literal (h : IsLiteral mid) : ReadAs flags before mid (literalAtoms mid) rest := by
  cases h with
  | quoted h => exact readAs_of_closes rfl (closes_append_quote h)
  | plain h =>
    have hhead : mid.head? ≠ some '\x27' := fun hhead => by
      have hfirst := h.first
      rw [hhead] at hfirst
      cases hfirst
    rw [literalAtoms, if_neg hhead]
    exact readAs_words h.mem
  | @negative cs h =>
    have hminus : StandsAlone flags before '-' (cs ++ rest) := by
      refine ⟨rfl, fun _ hhead => ?_, nofun, nofun, nofun, nofun, nofun⟩
      obtain ⟨c, ds, rfl, hc⟩ := exists_cons_of_any_head? h.first
      cases hhead
      cases hc
    have hfirst : ReadAs flags before ['-'] [.code '-'] (cs ++ rest) :=
      readAs_of_reads (.code hminus)
    exact hfirst.append (readAs_words h.mem)

/-! ### Bare names -/

theorem isBlank_or_mem_trimFront {c : Char} {cs : List Char} (h : c ∈ cs) :
    Text.isBlank c = true ∨ c ∈ Text.trimFront cs := by
  rw [← List.takeWhile_append_dropWhile (p := Text.isBlank) (l := cs)] at h
  rcases List.mem_append.1 h with h | h
  · exact .inl (List.all_eq_true.1 List.all_takeWhile c h)
  · exact .inr h

theorem isBlank_or_isBare_of_classify {text : String} (h : StatementKind.classify text ≠ .text)
    {c : Char} (hc : c ∈ text.toList) : Text.isBlank c = true ∨ StatementKind.isBare c = true := by
  simp only [StatementKind.classify] at h
  split at h
  · exact absurd rfl h
  · rename_i hbare
    rw [Bool.or_eq_true, not_or, Bool.not_eq_true, Bool.not_eq_true, Bool.not_eq_false'] at hbare
    rcases isBlank_or_mem_trimFront hc with hblank | hc
    · exact .inl hblank
    · rcases isBlank_or_mem_trimFront (List.mem_reverse.2 hc) with hblank | hc
      · exact .inl hblank
      · refine .inr (List.all_eq_true.1 hbare.2 c ?_)
        rw [Text.trim, String.toList_ofList, Text.trimChars]
        exact List.mem_reverse.2 hc

/-- A placeholder begins with a character that is not in a bare name. -/
theorem exists_mem_text_of_kindAndName? {piece : Piece} {kind : TokenKind} {name : List Char}
    (h : Reads flags before piece rest) (hkind : Token.kindAndName? piece = some (kind, name)) :
    ∃ c ∈ piece.text, Text.isBlank c = false ∧ StatementKind.isBare c = false := by
  cases h with
  | named hmarker =>
    refine ⟨_, List.mem_cons_self, ?_⟩
    rcases isMarker_iff.1 hmarker with rfl | rfl <;> decide
  | positional | literal => exact ⟨_, List.mem_cons_self, by decide⟩
  | quoted | line | block | system | code => cases hkind

/-- **The tokens of a template are those of its text**, also of a bare name, which has none. -/
theorem tokens_parse (text : String) (flags : Flags) :
    (parse text flags).tokens = Token.ofPieces 0 (scan flags text.toList) := by
  by_cases hkind : (parse text flags).kind = .text
  · rw [tokens, pieces_parse hkind]
  · simp only [parse] at hkind
    have hnone : (parse text flags).tokens = [] := by
      simp only [tokens, parse, if_neg hkind]
      rfl
    rw [hnone, eq_comm, List.eq_nil_iff_forall_not_mem]
    intro token htoken
    obtain ⟨piece, hpiece, hname⟩ := Token.exists_mem_of_mem_ofPieces htoken
    obtain ⟨before, rest, hreads⟩ := exists_reads_of_mem_scanFrom hpiece
    obtain ⟨c, hc, hblank, hbare⟩ := exists_mem_text_of_kindAndName? hreads hname
    have htext : c ∈ text.toList := by
      rw [← text_scan flags text.toList]
      exact List.mem_flatMap_of_mem hpiece hc
    rcases isBlank_or_isBare_of_classify hkind htext with h | h
    · exact Bool.false_ne_true (hblank.symm.trans h)
    · exact Bool.false_ne_true (hbare.symm.trans h)

end Template

end RowMapping
