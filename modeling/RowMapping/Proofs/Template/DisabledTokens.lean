import RowMapping.Proofs.Template.Reading

/-!
# Tokens that are not recognised

Literal tokens and positional placeholders are looked for if the flags say so.  Where they are not,
the scanner goes through their characters one at a time, instead of stepping over them, and it comes
out at the same place with the same text behind it: none of these characters begins anything.  So
the flags only decide which of the tokens of a text are seen.

* `Piece.seenWith`: the pieces that a scanner with other flags makes of one piece;
* `Template.scanFrom_eq_flatMap`: the pieces of a text with some flags, from those with all flags;
* `Template.tokens_parse_eq_filter`: the tokens that are left.
-/

namespace RowMapping

/-- Everything is recognised, and lists are filled up. -/
def Flags.all : Flags := ⟨true, true, true⟩

/-- The pieces that a scanner with the given flags makes of a piece: itself, or else its
characters. -/
def Piece.seenWith (flags : Flags) : Piece → List Piece
  | .literal name =>
    if flags.literalTokens then [.literal name] else (Piece.literal name).text.map .code
  | .positional => if flags.legacyMarkers then [.positional] else [.code '?']
  | piece => [piece]

namespace Token

/-- Tokens of this kind are recognised. -/
def isSeenWith (flags : Flags) (token : Token) : Bool :=
  match token.kind with
  | .literal => flags.literalTokens
  | .positional => flags.legacyMarkers
  | .named | .listExpansion => true

/-- The tokens of the pieces that are made with some flags are those that are recognised. -/
theorem ofPieces_seenWith (flags : Flags) (ps : List Piece) (start : Nat) :
    ofPieces start (ps.flatMap (Piece.seenWith flags)) =
      (ofPieces start ps).filter (isSeenWith flags) := by
  induction ps generalizing start with
  | nil => rfl
  | cons piece ps ih =>
    rw [List.flatMap_cons]
    cases piece with
    | literal name =>
      by_cases hflag : flags.literalTokens = true
      · simp [Piece.seenWith, hflag, ofPieces, kindAndName?, isSeenWith, ih]
      · rw [Piece.seenWith, if_neg hflag, ofPieces_map_append (fun _ => rfl) (fun _ => rfl),
          Text.byteCount_text, ih]
        simp [ofPieces, kindAndName?, isSeenWith, hflag]
    | positional =>
      by_cases hflag : flags.legacyMarkers = true
      · simp [Piece.seenWith, hflag, ofPieces, kindAndName?, isSeenWith, ih]
      · simp [Piece.seenWith, hflag, ofPieces, kindAndName?, isSeenWith, ih, Piece.byteSize,
          Piece.text]
    | named marker name afterIn =>
      have hseen (start stop : Nat) (source : String) : isSeenWith flags
          ⟨if afterIn then .listExpansion else .named, start, stop, String.ofList name, source⟩ =
            true := by
        cases afterIn <;> rfl
      simp only [Piece.seenWith, List.singleton_append, ofPieces, kindAndName?, ih]
      rw [List.filter_cons_of_pos (hseen ..)]
    | code | quoted | comment | system =>
      simp [Piece.seenWith, ofPieces, kindAndName?, ih]

end Token

namespace Template

variable {flags : Flags} {before rest : List Char}

theorem StandsAlone.scanFrom_eq {c : Char} (h : StandsAlone flags before c rest) :
    scanFrom flags before (c :: rest) = .code c :: scanFrom flags (c :: before) rest :=
  (Reads.code h).scanFrom_eq

theorem scanFrom_words {cs : List Char} (h : ∀ c ∈ cs, isWord c = true) :
    scanFrom flags before (cs ++ rest) =
      cs.map .code ++ scanFrom flags (cs.reverse ++ before) rest := by
  induction cs generalizing before with
  | nil => rfl
  | cons c cs ih =>
    obtain ⟨hc, hcs⟩ := List.forall_mem_cons.1 h
    rw [List.cons_append, (standsAlone_of_isWord (.inl hc)).scanFrom_eq, ih hcs]
    simp

/-- A literal token that is not recognised is read character by character. -/
theorem scanFrom_literal {name : List Char} (hflag : ¬flags.literalTokens = true)
    (hname : ∀ c ∈ name, isWord c = true) :
    let text := (Piece.literal name).text
    scanFrom flags before (text ++ rest) =
      text.map .code ++ scanFrom flags (text.reverse ++ before) rest := by
  have hopen : StandsAlone flags before '\x7b' ('=' :: (name ++ '\x7d' :: rest)) :=
    ⟨rfl, nofun, nofun, fun _ h => absurd h hflag, nofun, nofun, nofun⟩
  have hequals : StandsAlone flags ('\x7b' :: before) '=' (name ++ '\x7d' :: rest) :=
    standsAlone_of_notMem rfl rfl (by decide)
  have hclose : StandsAlone flags (name.reverse ++ '=' :: '\x7b' :: before) '\x7d' rest :=
    standsAlone_of_notMem rfl rfl (by decide)
  simp only [Piece.text, List.cons_append, List.append_assoc, List.nil_append]
  rw [hopen.scanFrom_eq, hequals.scanFrom_eq, scanFrom_words hname, hclose.scanFrom_eq]
  simp

theorem StandsAlone.of_all {c : Char} (h : StandsAlone .all before c rest) :
    StandsAlone flags before c rest where
  quote := h.quote
  line := h.line
  block := h.block
  literal hc _ := h.literal hc rfl
  system := h.system
  named := h.named
  positional hc _ := h.positional hc rfl

/-- **One step.**  What is read as one piece with all flags is read as the pieces seen with any
others, and what follows is read from the same place. -/
theorem Reads.scanFrom_seenWith {piece : Piece} (h : Reads .all before piece rest) :
    scanFrom flags before (piece.text ++ rest) =
      piece.seenWith flags ++ scanFrom flags (piece.text.reverse ++ before) rest := by
  cases h with
  | quoted hquote h => exact (Reads.quoted hquote h).scanFrom_eq
  | line h => exact (Reads.line h).scanFrom_eq
  | block h => exact (Reads.block h).scanFrom_eq
  | system hmarker hname hrest => exact (Reads.system hmarker hname hrest).scanFrom_eq
  | named hmarker hbefore hstart hname hrest =>
    exact (Reads.named hmarker hbefore hstart hname hrest).scanFrom_eq
  | code h => exact h.of_all.scanFrom_eq
  | literal _ hne hname =>
    by_cases hflag : flags.literalTokens = true
    · rw [Piece.seenWith, if_pos hflag]
      exact (Reads.literal hflag hne hname).scanFrom_eq
    · rw [Piece.seenWith, if_neg hflag]
      exact scanFrom_literal hflag hname
  | positional _ hbefore hrest =>
    by_cases hflag : flags.legacyMarkers = true
    · rw [Piece.seenWith, if_pos hflag]
      exact (Reads.positional hflag hbefore hrest).scanFrom_eq
    · rw [Piece.seenWith, if_neg hflag]
      have hmark : StandsAlone flags before '?' rest :=
        ⟨rfl, nofun, nofun, nofun, nofun, nofun, fun _ h => absurd h hflag⟩
      exact hmark.scanFrom_eq

/-- The pieces of a text with some flags, from its pieces with all flags. -/
theorem scanFrom_eq_flatMap (flags : Flags) (before cs : List Char) :
    scanFrom flags before cs = (scanFrom .all before cs).flatMap (Piece.seenWith flags) := by
  fun_induction scanFrom .all before cs with
  | case1 => rw [scanFrom, List.flatMap_nil]
  | case2 before c rest r ih =>
    have hreads : Reads .all before r.1 r.2 := reads_firstPiece .all before c rest
    have htext : r.1.text ++ r.2 = c :: rest := text_firstPiece .all before c rest
    rw [List.flatMap_cons, ← ih, ← hreads.scanFrom_seenWith, htext]

/-- **Flags only hide tokens.**  The tokens of a template with some flags are those with all flags,
in their order and with their places, names and kinds, without the literal ones or the positional
ones if these are not recognised. -/
theorem tokens_parse_eq_filter (text : String) (flags : Flags) :
    (parse text flags).tokens = (parse text .all).tokens.filter (Token.isSeenWith flags) := by
  rw [tokens_parse, tokens_parse, scan, scan, scanFrom_eq_flatMap, Token.ofPieces_seenWith]

end Template

end RowMapping
