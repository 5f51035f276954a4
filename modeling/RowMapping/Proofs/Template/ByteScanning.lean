import Mathlib.Data.List.Induction
import RowMapping.Proofs.Template.Spans
import RowMapping.Proofs.Text.Trimming

/-!
# Bytes are scanned as characters are

A scan of the bytes of a text finds the tokens that a scan of its characters finds.  What begins at
a border of characters ends at one: the jumps over names, quoted texts and comments end where the
cuts between characters are, and the bytes of a character outside ASCII are passed over one by one.

* `ByteScan.followsIn?_eq`: the keyword before a place is found;
* `ByteScan.step?_eq`: what one step finds is what the scanner of characters reads there;
* `ByteScan.scanFrom?_eq`: by induction on the pieces, the scan finds their tokens;
* `ByteScan.exists_between?`: the texts between tokens can be taken;
* `Template.wellFormed_tokens`: the scan goes without a fault, tokens are slices of the text, one
  behind the other, of the shape that their kind has, and no marker in code is passed over.
-/

namespace RowMapping

open Text (encode byteCount Bytewise)

namespace ByteScan

/-! ### Bytes at a place -/

variable {bytes : ByteArray} {front block rest : List UInt8} {i k : Nat} {b quote : UInt8}

theorem getElem?_toList (bytes : ByteArray) (i : Nat) : bytes[i]? = bytes.data.toList[i]? := by
  simp [getElem?_def, ByteArray.getElem_eq_getElem_data]

section Place

variable (h : bytes.data.toList = front ++ rest)

include h

theorem size_eq : bytes.size = front.length + rest.length := by
  rw [← List.length_append, ← h]
  rfl

theorem getElem?_add (k : Nat) : bytes[front.length + k]? = rest[k]? := by
  rw [getElem?_toList, h, List.getElem?_append_right (Nat.le_add_right _ _),
    Nat.add_sub_cancel_left]

theorem getElem?_length : bytes[front.length]? = rest.head? := by
  rw [List.head?_eq_getElem?, ← getElem?_add h 0]
  rfl

theorem getElem?_of_lt (hk : k < front.length) : bytes[k]? = front[k]? := by
  rw [getElem?_toList, h, List.getElem?_append_left hk]

theorem getElem?_pred (hfront : front ≠ []) : bytes[front.length - 1]? = front.getLast? := by
  have hpos := List.length_pos_iff.2 hfront
  rw [getElem?_of_lt h (by omega), List.getLast?_eq_getElem?]

end Place

/-! ### Names -/

theorem wordEnd_of_word (h : bytes[i]? = some b) (hb : Text.isWordByte b = true) :
    wordEnd bytes i = wordEnd bytes (i + 1) := by
  obtain ⟨hi, rfl⟩ := getElem?_eq_some_iff.1 h
  rw [wordEnd, dif_pos hi, if_pos hb]

theorem wordEnd_of_not_word (h : bytes[i]?.any Text.isWordByte = false) :
    wordEnd bytes i = i := by
  rw [wordEnd]
  split
  · rename_i hi
    rw [getElem?_pos bytes i hi, Option.any_some] at h
    rw [if_neg (Bool.eq_false_iff.1 h)]
  · rfl

theorem wordEnd_eq (h : bytes.data.toList = front ++ (block ++ rest))
    (hblock : ∀ b ∈ block, Text.isWordByte b = true)
    (hrest : rest.head?.any Text.isWordByte = false) :
    wordEnd bytes front.length = front.length + block.length := by
  induction block generalizing front with
  | nil =>
    refine wordEnd_of_not_word ?_
    rw [getElem?_length h]
    exact hrest
  | cons b block ih =>
    obtain ⟨hb, hblock⟩ := List.forall_mem_cons.1 hblock
    have ih := @ih (front ++ [b]) (h.trans (List.append_cons ..)) hblock
    rw [List.length_append, List.length_singleton] at ih
    rw [wordEnd_of_word (getElem?_length h) hb, ih, List.length_cons, Nat.add_right_comm,
      Nat.add_assoc]

/-! ### Quoted texts -/

theorem quoteEnd_of_ne (h : bytes[i]? = some b) (hb : b ≠ quote) :
    quoteEnd bytes quote i = quoteEnd bytes quote (i + 1) := by
  obtain ⟨hi, rfl⟩ := getElem?_eq_some_iff.1 h
  rw [quoteEnd, dif_pos hi, if_neg hb]

theorem quoteEnd_doubled (h : bytes[i]? = some quote) (hnext : bytes[i + 1]? = some quote) :
    quoteEnd bytes quote i = quoteEnd bytes quote (i + 2) := by
  obtain ⟨hi, hquote⟩ := getElem?_eq_some_iff.1 h
  rw [quoteEnd, dif_pos hi, if_pos hquote, if_pos hnext]

theorem quoteEnd_of_quote (h : bytes[i]? = some quote) (hnext : bytes[i + 1]? ≠ some quote) :
    quoteEnd bytes quote i = i + 1 := by
  obtain ⟨hi, hquote⟩ := getElem?_eq_some_iff.1 h
  rw [quoteEnd, dif_pos hi, if_pos hquote, if_neg hnext]

theorem quoteEnd_of_size_le (h : bytes.size ≤ i) : quoteEnd bytes quote i = bytes.size := by
  rw [quoteEnd, dif_neg (Nat.not_lt_of_le h)]

theorem quoteEnd_block (h : bytes.data.toList = front ++ (block ++ rest))
    (hblock : ∀ b ∈ block, b ≠ quote) :
    quoteEnd bytes quote front.length = quoteEnd bytes quote (front ++ block).length := by
  induction block generalizing front with
  | nil => rw [List.append_nil]
  | cons b block ih =>
    obtain ⟨hb, hblock⟩ := List.forall_mem_cons.1 hblock
    have ih := @ih (front ++ [b]) (h.trans (List.append_cons ..)) hblock
    rw [← List.append_cons, List.length_append, List.length_singleton] at ih
    rw [quoteEnd_of_ne (getElem?_length h) hb, ih]

theorem toUInt8_ne_of_mem {c q : Char} (hq : q.toNat < 128) (hc : c ≠ q)
    (hb : b ∈ String.utf8EncodeChar c) : b ≠ q.toUInt8 := by
  have hbeq : (b == q.toUInt8) = (c == q) := Text.bytewise_beq hq c b hb
  rwa [beq_eq_false_iff_ne.2 hc, beq_eq_false_iff_ne] at hbeq

theorem encode_cons (c : Char) (cs : List Char) :
    encode (c :: cs) = String.utf8EncodeChar c ++ encode cs := List.flatMap_cons

theorem byteCount_cons_eq (c : Char) (cs : List Char) :
    byteCount (c :: cs) = (String.utf8EncodeChar c).length + byteCount cs := by
  rw [byteCount, encode_cons, List.length_append]
  rfl

theorem any_beq_iff {α : Type} [BEq α] [LawfulBEq α] {o : Option α} {a : α} :
    o.any (· == a) = true ↔ o = some a := by
  cases o <;> simp

theorem head?_encode_eq_some_iff {q : Char} (hq : q.toNat < 128) {cs : List Char} :
    (encode cs).head? = some q.toUInt8 ↔ cs.head? = some q := by
  rw [← any_beq_iff, (Text.bytewise_beq hq).any_head?_encode cs, any_beq_iff]

theorem append_encode_cons {c : Char} {cs : List Char}
    (h : bytes.data.toList = front ++ encode (c :: cs)) :
    bytes.data.toList = (front ++ String.utf8EncodeChar c) ++ encode cs := by
  rw [h, encode_cons, List.append_assoc]

theorem quoteEnd_other {c q : Char} (hq : q.toNat < 128) (hc : c ≠ q) {cs : List Char}
    (h : bytes.data.toList = front ++ encode (c :: cs)) :
    quoteEnd bytes q.toUInt8 front.length =
      quoteEnd bytes q.toUInt8 (front ++ String.utf8EncodeChar c).length :=
  quoteEnd_block h fun _ hb => toUInt8_ne_of_mem hq hc hb

theorem quoteEnd_nil (h : bytes.data.toList = front ++ encode []) :
    quoteEnd bytes quote front.length = front.length :=
  (quoteEnd_of_size_le (Nat.le_of_eq (size_eq h))).trans (size_eq h)

theorem quoteEnd_closing {q : Char} (hq : q.toNat < 128) {cs : List Char}
    (hcs : cs.head? ≠ some q) (h : bytes.data.toList = front ++ encode (q :: cs)) :
    quoteEnd bytes q.toUInt8 front.length = front.length + byteCount [q] := by
  have hquote : String.utf8EncodeChar q = [q.toUInt8] := Text.utf8EncodeChar_of_lt hq
  rw [encode_cons, hquote] at h
  have hnext : bytes[front.length + 1]? ≠ some q.toUInt8 := by
    rw [getElem?_add h, List.singleton_append, List.getElem?_cons_succ, ← List.head?_eq_getElem?]
    exact fun heq => hcs ((head?_encode_eq_some_iff hq).1 heq)
  rw [quoteEnd_of_quote (getElem?_length h) hnext, byteCount, encode_cons, hquote]
  rfl

theorem quoteEnd_encode {q : Char} (hq : q.toNat < 128) {cs : List Char}
    (h : bytes.data.toList = front ++ encode cs) :
    quoteEnd bytes q.toUInt8 front.length =
      front.length + byteCount (Template.throughQuote q cs).1 := by
  fun_induction Template.throughQuote q cs generalizing front with
  | case1 => exact quoteEnd_nil h
  | case2 c =>
    by_cases hc : c = q
    · subst hc
      have hnil : ([] : List Char).head? ≠ some c := (Option.some_ne_none c).symm
      exact quoteEnd_closing hq hnil h
    · rw [quoteEnd_other hq hc h, quoteEnd_nil (append_encode_cons h), List.length_append,
        byteCount_cons_eq]
      rfl
  | case3 c d cs hc r =>
    rename_i ih
    rw [quoteEnd_other hq hc h, ih (append_encode_cons h), List.length_append, byteCount_cons_eq,
      Nat.add_assoc]
  | case4 c cs hc r =>
    rename_i ih
    obtain rfl := Decidable.not_not.1 hc
    have hquote : String.utf8EncodeChar c = [c.toUInt8] := Text.utf8EncodeChar_of_lt hq
    have ih := ih (append_encode_cons (append_encode_cons h))
    rw [encode_cons, encode_cons, hquote] at h
    simp only [hquote, List.length_append, List.length_singleton] at ih
    change _ = front.length + byteCount (c :: c :: (Template.throughQuote c cs).1)
    rw [quoteEnd_doubled (getElem?_length h) (getElem?_add h 1), ih, byteCount_cons_eq,
      byteCount_cons_eq, hquote, List.length_singleton]
    omega
  | case5 c d cs hc hd =>
    obtain rfl := Decidable.not_not.1 hc
    have hnext : (d :: cs).head? ≠ some c := fun heq => hd (Option.some.inj heq)
    exact quoteEnd_closing hq hnext h

/-! ### Comments -/

theorem suffix?_eq (h : bytes.data.toList = front ++ rest) :
    suffix? bytes front.length = some rest := by
  have hsize := size_eq h
  rw [suffix?, if_pos (by omega), h, List.drop_left]

theorem findIdx?_encode_newline (cs : List Char) :
    (((encode cs).findIdx? (· == '\n'.toUInt8)).map (· + 1)).getD (byteCount cs) =
      byteCount (Template.throughNewline cs).1 := by
  induction cs with
  | nil => rfl
  | cons c cs ih =>
    rw [Template.throughNewline]
    split
    · rename_i hc
      subst hc
      rfl
    · rename_i hc
      have hnone : (String.utf8EncodeChar c).findIdx? (· == '\n'.toUInt8) = none :=
        List.findIdx?_eq_none_iff.2 fun b hb =>
          beq_eq_false_iff_ne.2 (toUInt8_ne_of_mem (by decide) hc hb)
      rw [encode_cons, List.findIdx?_append, hnone, Option.none_or, byteCount_cons_eq,
        byteCount_cons_eq, ← ih]
      cases (encode cs).findIdx? (· == '\n'.toUInt8) with
      | none => rfl
      | some n =>
        simp only [Option.map_some, Option.getD_some]
        omega

theorem lineEnd?_encode {cs : List Char} (h : bytes.data.toList = front ++ encode cs) :
    lineEnd? bytes front.length =
      some (front.length + byteCount (Template.throughNewline cs).1) := by
  rw [lineEnd?, suffix?_eq h, Option.map_some, ← findIdx?_encode_newline, size_eq h]
  cases (encode cs).findIdx? (· == '\n'.toUInt8) <;> rfl

theorem starSlash?_cons {bs : List UInt8}
    (h : b ≠ '*'.toUInt8 ∨ bs.head? ≠ some '/'.toUInt8) :
    starSlash? (b :: bs) = (starSlash? bs).map (· + 1) := by
  cases bs with
  | nil => rfl
  | cons d ds =>
    have hpair : ((b, d) == ('*'.toUInt8, '/'.toUInt8)) = false := by
      rw [beq_eq_false_iff_ne]
      rintro ⟨⟩
      exact h.elim (fun h => h rfl) fun h => h rfl
    rw [starSlash?, List.tail_cons, List.zip_cons_cons, List.findIdx?_cons, hpair]
    rfl

theorem starSlash?_block {bs : List UInt8} (h : ∀ b ∈ block, b ≠ '*'.toUInt8) :
    starSlash? (block ++ bs) = (starSlash? bs).map (· + block.length) := by
  induction block with
  | nil => simp
  | cons b block ih =>
    obtain ⟨hb, hblock⟩ := List.forall_mem_cons.1 h
    rw [List.cons_append, starSlash?_cons (.inl hb), ih hblock, Option.map_map]
    rfl

theorem starSlash?_encode (cs : List Char) :
    ((starSlash? (encode cs)).map (· + 2)).getD (byteCount cs) =
      byteCount (Template.throughStarSlash cs).1 := by
  fun_induction Template.throughStarSlash cs with
  | case1 => rfl
  | case2 c =>
    have hnone : starSlash? (encode [c]) = none := by
      by_cases hc : c = '*'
      · subst hc
        rfl
      · exact @starSlash?_block _ [] fun b hb => toUInt8_ne_of_mem (by decide) hc hb
    rw [hnone]
    rfl
  | case3 c d cs hcd =>
    rw [hcd.1, hcd.2]
    rfl
  | case4 c d cs hcd r ih =>
    have hskip : starSlash? (encode (c :: d :: cs)) =
        (starSlash? (encode (d :: cs))).map (· + (String.utf8EncodeChar c).length) := by
      rw [encode_cons]
      by_cases hc : c = '*'
      · subst hc
        refine starSlash?_cons (.inr fun hslash => hcd ⟨rfl, ?_⟩)
        exact Option.some.inj ((head?_encode_eq_some_iff (by decide)).1 hslash)
      · exact starSlash?_block fun b hb => toUInt8_ne_of_mem (by decide) hc hb
    change _ = byteCount (c :: (Template.throughStarSlash (d :: cs)).1)
    rw [hskip, byteCount_cons_eq c, byteCount_cons_eq c, ← ih]
    cases starSlash? (encode (d :: cs)) with
    | none => rfl
    | some n =>
      simp only [Option.map_some, Option.getD_some]
      omega

theorem blockEnd?_encode {cs : List Char} (h : bytes.data.toList = front ++ encode cs) :
    blockEnd? bytes front.length =
      some (front.length + byteCount (Template.throughStarSlash cs).1) := by
  rw [blockEnd?, suffix?_eq h, Option.map_some, ← starSlash?_encode, size_eq h]
  cases starSlash? (encode cs) <;> rfl

/-! ### The keyword before a place -/

variable {base gaps : List UInt8} {before : List Char}

theorem gapStart?_append (h : bytes.data.toList = base ++ (gaps ++ rest))
    (hgaps : ∀ b ∈ gaps, Text.isGapByte b = true)
    (hbase : base.getLast?.any Text.isGapByte = false) :
    gapStart? bytes (base ++ gaps).length = some base.length := by
  induction gaps using List.reverseRecOn generalizing rest with
  | nil =>
    rw [List.append_nil]
    rcases List.eq_nil_or_concat base with rfl | ⟨base, b, rfl⟩
    · rfl
    · rw [List.concat_eq_append] at h hbase ⊢
      rw [List.getLast?_concat, Option.any_some] at hbase
      have hb : bytes[base.length]? = some b :=
        (getElem?_length (h.trans (List.append_assoc ..))).trans rfl
      rw [List.length_append, List.length_singleton, gapStart?, hb]
      exact if_neg (Bool.eq_false_iff.1 hbase)
  | append_singleton gaps g ih =>
    rw [List.append_assoc] at h
    have hg : bytes[(base ++ gaps).length]? = some g :=
      (getElem?_length (h.trans (List.append_assoc ..).symm)).trans rfl
    rw [← List.append_assoc, List.length_append, List.length_singleton, gapStart?, hg]
    refine (if_pos (hgaps g ?_)).trans (ih h fun b hb => hgaps b (List.mem_append_left _ hb))
    exact List.mem_append_right _ List.mem_cons_self

theorem toLower_eq_iff {c lower upper : Char} (hlower : 97 ≤ lower.toNat ∧ lower.toNat ≤ 122)
    (hupper : upper.toNat + 32 = lower.toNat) : c.toLower = lower ↔ c = lower ∨ c = upper := by
  rw [← Char.toNat_inj, ← Char.toNat_inj, ← Char.toNat_inj]
  by_cases hc : 65 ≤ c.toNat ∧ c.toNat ≤ 90
  · rw [Text.toNat_toLower hc]
    omega
  · rw [Text.toLower_of_not_upper hc]
    omega

theorem bytewise_isLetter {lower upper : Char} (hlower : 97 ≤ lower.toNat ∧ lower.toNat ≤ 122)
    (hupper : upper.toNat + 32 = lower.toNat) :
    Bytewise (Text.isLetterByte lower upper) fun c => c.toLower == lower := by
  have hor : (fun c : Char => c.toLower == lower) = fun c => c == lower || c == upper := by
    funext c
    rw [Bool.eq_iff_iff, Bool.or_eq_true, beq_iff_eq, beq_iff_eq, beq_iff_eq,
      toLower_eq_iff hlower hupper]
  rw [hor]
  exact (Text.bytewise_beq (by omega)).or (Text.bytewise_beq (by omega))

theorem bytewise_isLetter_i : Bytewise (Text.isLetterByte 'i' 'I') fun c => c.toLower == 'i' :=
  bytewise_isLetter (by decide) rfl

theorem bytewise_isLetter_n : Bytewise (Text.isLetterByte 'n' 'N') fun c => c.toLower == 'n' :=
  bytewise_isLetter (by decide) rfl

theorem utf8EncodeChar_of_isLetter {c lower : Char}
    (hlower : 97 ≤ lower.toNat ∧ lower.toNat ≤ 122) (hc : (c.toLower == lower) = true) :
    String.utf8EncodeChar c = [c.toUInt8] := by
  refine Text.utf8EncodeChar_of_lt ?_
  rw [beq_iff_eq] at hc
  by_cases hupper : 65 ≤ c.toNat ∧ c.toNat ≤ 90
  · omega
  · rw [Text.toLower_of_not_upper hupper] at hc
    rw [hc]
    omega

/-- The characters, given backwards, begin with the keyword, and no name runs into it. -/
def beginsIn : List Char → Bool
  | n :: i :: front => n.toLower == 'n' && i.toLower == 'i' && !front.head?.any Template.isWord
  | _ => false

theorem followsIn_eq (before : List Char) : Template.followsIn before =
    (!(before.takeWhile Template.isGap).isEmpty &&
      beginsIn (before.dropWhile Template.isGap)) := by
  rw [Template.followsIn]
  cases before.takeWhile Template.isGap with
  | nil => rfl
  | cons c cs =>
    cases before.dropWhile Template.isGap with
    | nil => rfl
    | cons n front => cases front <;> rfl

theorem length_encode_cons (c : Char) (cs : List Char) :
    (encode (c :: cs).reverse).length =
      (encode cs.reverse).length + (String.utf8EncodeChar c).length := by
  rw [List.reverse_cons, Text.encode_append, List.length_append, encode_cons, List.length_append]
  rfl

/-- The byte before a place is of the class that the character before it is of. -/
theorem exists_getElem?_pred {q : UInt8 → Bool} {p : Char → Bool} (hq : Bytewise q p)
    {c : Char} {cs : List Char} (h : bytes.data.toList = encode (c :: cs).reverse ++ rest) :
    ∃ b, bytes[(encode (c :: cs).reverse).length - 1]? = some b ∧ q b = p c := by
  have hne : encode (c :: cs).reverse ≠ [] := by
    have hpos := List.length_pos_iff.2 (Text.utf8EncodeChar_ne_nil c)
    rw [← List.length_pos_iff, length_encode_cons]
    omega
  have hany := hq.any_getLast?_encode (c :: cs).reverse
  rw [List.getLast?_reverse, List.head?_cons, Option.any_some,
    List.getLast?_eq_some_getLast hne, Option.any_some] at hany
  exact ⟨_, (getElem?_pred h hne).trans (List.getLast?_eq_some_getLast hne), hany⟩

/-- The bytes, given backwards, begin with the keyword, and no name runs into it. -/
def beginsInBytes : List UInt8 → Bool
  | n :: i :: front =>
    Text.isLetterByte 'i' 'I' i && Text.isLetterByte 'n' 'N' n && !front.head?.any Text.isWordByte
  | _ => false

theorem getElem?_reverse {bs : List UInt8} {b : UInt8} {behind : List UInt8}
    (h : bytes.data.toList = (behind ++ b :: bs).reverse ++ rest) :
    bytes[bs.length]? = some b := by
  rw [List.reverse_append, List.reverse_cons, List.append_assoc, List.append_assoc] at h
  have hb := getElem?_length h
  rwa [List.length_reverse] at hb

theorem endsIn?_reverse {bs : List UInt8} (h : bytes.data.toList = bs.reverse ++ rest) :
    endsIn? bytes bs.length = some (beginsInBytes bs) := by
  match bs with
  | [] | [_] => rfl
  | n :: i :: front =>
    have hsecond : bytes[front.length + 1]? = some n := @getElem?_reverse _ _ (i :: front) n [] h
    have hfirst : bytes[front.length]? = some i := @getElem?_reverse _ _ front i [n] h
    have hplaces : front.length + 1 + 1 - 2 = front.length ∧
        front.length + 1 + 1 - 1 = front.length + 1 := ⟨rfl, rfl⟩
    rw [endsIn?, List.length_cons, List.length_cons, if_neg (by omega), hplaces.1, hplaces.2,
      hfirst, hsecond, Option.bind_eq_bind, Option.bind_some, Option.bind_some, beginsInBytes]
    cases Text.isLetterByte 'i' 'I' i && Text.isLetterByte 'n' 'N' n with
    | false => rfl
    | true =>
      cases front with
      | nil => rfl
      | cons c cs =>
        have hthird : bytes[cs.length]? = some c := @getElem?_reverse _ _ cs c [n, i] h
        have hplace : (c :: cs).length + 1 + 1 - 3 = cs.length := rfl
        rw [if_pos rfl, if_neg (by rw [List.length_cons]; omega), hplace, hthird]
        rfl

theorem reverse_encode_cons (c : Char) (cs : List Char) :
    (encode (c :: cs).reverse).reverse =
      (String.utf8EncodeChar c).reverse ++ (encode cs.reverse).reverse := by
  rw [List.reverse_cons, Text.encode_append, List.reverse_append, encode, List.flatMap_singleton]

/-- The last byte of a character is of the class that the character is of. -/
theorem exists_reverse_utf8EncodeChar {q : UInt8 → Bool} {p : Char → Bool} (hq : Bytewise q p)
    (c : Char) : ∃ b bs, (String.utf8EncodeChar c).reverse = b :: bs ∧ q b = p c := by
  obtain ⟨bs, b, hbs⟩ := (List.eq_nil_or_concat _).resolve_left (Text.utf8EncodeChar_ne_nil c)
  rw [List.concat_eq_append] at hbs
  refine ⟨b, bs.reverse, ?_, hq c b ?_⟩
  · rw [hbs, List.reverse_append]
    rfl
  · rw [hbs]
    exact List.mem_append_right _ List.mem_cons_self

theorem beginsInBytes_encode (before : List Char) :
    beginsInBytes (encode before.reverse).reverse = beginsIn before := by
  cases before with
  | nil => rfl
  | cons n before =>
    obtain ⟨b, bs, hlast, hn⟩ := exists_reverse_utf8EncodeChar bytewise_isLetter_n n
    rw [reverse_encode_cons]
    cases hletter : n.toLower == 'n' with
    | false =>
      rw [hletter] at hn
      have hbytes (bs : List UInt8) : beginsInBytes (b :: bs) = false := by
        cases bs with
        | nil => rfl
        | cons i front => rw [beginsInBytes, hn, Bool.and_false, Bool.false_and]
      rw [hlast, List.cons_append, hbytes]
      cases before with
      | nil => rfl
      | cons i front => rw [beginsIn, hletter, Bool.false_and, Bool.false_and]
    | true =>
      rw [utf8EncodeChar_of_isLetter (by decide) hletter] at hlast ⊢
      cases hlast
      rw [hletter] at hn
      cases before with
      | nil => rfl
      | cons i front =>
        obtain ⟨b, bs, hlast, hi⟩ := exists_reverse_utf8EncodeChar bytewise_isLetter_i i
        rw [reverse_encode_cons]
        cases hletter' : i.toLower == 'i' with
        | false =>
          rw [hletter'] at hi
          rw [hlast, List.reverse_singleton, List.singleton_append, List.cons_append, beginsInBytes,
            hi, beginsIn, hletter']
          simp only [Bool.false_and, Bool.and_false]
        | true =>
          rw [utf8EncodeChar_of_isLetter (by decide) hletter'] at hlast ⊢
          cases hlast
          rw [hletter'] at hi
          rw [List.reverse_singleton, List.singleton_append, List.reverse_singleton,
            List.singleton_append, beginsInBytes, beginsIn, hn, hi, hletter, hletter',
            List.head?_reverse, Text.bytewise_isWord.any_getLast?_encode, List.getLast?_reverse]

theorem endsIn?_eq (h : bytes.data.toList = encode before.reverse ++ rest) :
    endsIn? bytes (encode before.reverse).length = some (beginsIn before) := by
  rw [← List.reverse_reverse (encode before.reverse)] at h
  rw [← List.length_reverse, endsIn?_reverse h, beginsInBytes_encode]

/-- The keyword is found before a place just if the characters before it end in the keyword. -/
theorem followsIn?_eq (h : bytes.data.toList = encode before.reverse ++ rest) :
    followsIn? bytes (encode before.reverse).length = some (Template.followsIn before) := by
  have hsplit := List.takeWhile_append_dropWhile (p := Template.isGap) (l := before)
  have hgap : (before.takeWhile Template.isGap).all Template.isGap = true := List.all_takeWhile
  have hother := Template.any_head?_dropWhile Template.isGap before
  rw [followsIn_eq]
  generalize before.takeWhile Template.isGap = gap at *
  generalize before.dropWhile Template.isGap = other at *
  subst hsplit
  rw [List.reverse_append, Text.encode_append] at h ⊢
  have hstart := gapStart?_append (h.trans (List.append_assoc ..))
    (List.all_eq_true.1 ((Text.bytewise_isGap.all_encode _).trans (List.all_reverse.trans hgap)))
    (by rw [Text.bytewise_isGap.any_getLast?_encode, List.getLast?_reverse, hother])
  rw [followsIn?, hstart, Option.bind_eq_bind, Option.bind_some]
  cases gap with
  | nil => exact if_pos (congrArg List.length (List.append_nil _).symm)
  | cons c cs =>
    have hpos := List.length_pos_iff.2 (Text.utf8EncodeChar_ne_nil c)
    have hlength := length_encode_cons c cs
    rw [if_neg (by rw [List.length_append]; omega), endsIn?_eq (h.trans (List.append_assoc ..))]
    rfl

/-! ### Neighbours of a place -/

theorem standsAlone?_eq (h : bytes.data.toList = encode before.reverse ++ rest) :
    standsAlone? bytes (encode before.reverse).length =
      some (!before.head?.any Template.isWord) := by
  cases before with
  | nil => rfl
  | cons c cs =>
    obtain ⟨b, hb, hclass⟩ := exists_getElem?_pred Text.bytewise_isWord h
    have hpos := List.length_pos_iff.2 (Text.utf8EncodeChar_ne_nil c)
    have hlength := length_encode_cons c cs
    rw [standsAlone?, if_neg (by omega), hb, Option.map_some, hclass]
    rfl

theorem any_pred {q : UInt8 → Bool} {p : Char → Bool} (hq : Bytewise q p)
    (h : bytes.data.toList = encode before.reverse ++ rest) :
    (if (encode before.reverse).length = 0 then none
      else bytes[(encode before.reverse).length - 1]?).any q = before.head?.any p := by
  cases before with
  | nil => rfl
  | cons c cs =>
    obtain ⟨b, hb, hclass⟩ := exists_getElem?_pred hq h
    have hpos := List.length_pos_iff.2 (Text.utf8EncodeChar_ne_nil c)
    have hlength := length_encode_cons c cs
    rw [if_neg (by omega), hb, Option.any_some, hclass]
    rfl

/-! ### Pieces -/

variable {text : String} {flags : Flags} {piece : Piece} {c : Char} {cs after : List Char}

theorem toUTF8_eq {a b : List Char} (h : text.toList = a ++ b) :
    text.toUTF8.data.toList = encode a ++ encode b := by
  rw [← Text.encode_append, ← h]
  exact Text.bytes_eq_encode text

theorem toUInt8_of_bytewise {q : UInt8 → Bool} {p : Char → Bool} (h : Bytewise q p)
    (hc : c.toNat < 128) : q c.toUInt8 = p c :=
  h c _ (Text.utf8EncodeChar_of_lt hc ▸ List.mem_cons_self)

theorem toUInt8_inj {a : Char} (hc : c.toNat < 128) (ha : a.toNat < 128) :
    c.toUInt8 = a.toUInt8 ↔ c = a := by
  rw [← UInt8.toNat_inj, Text.toNat_toUInt8 hc, Text.toNat_toUInt8 ha, Char.toNat_inj]

theorem lt_of_isQuote (h : Template.isQuote c = true) : c.toNat < 128 := by
  simp only [Template.isQuote, Bool.or_eq_true, beq_iff_eq] at h
  rcases h with (rfl | rfl) | rfl <;> decide

theorem getElem?_behind (h : text.toList = before.reverse ++ c :: cs) (hc : c.toNat < 128) :
    text.toUTF8[byteCount before.reverse + 1]? = (encode cs).head? := by
  have hbytes := toUTF8_eq h
  rw [encode_cons, Text.utf8EncodeChar_of_lt hc, List.singleton_append] at hbytes
  rw [List.head?_eq_getElem?]
  exact getElem?_add hbytes 1

theorem step?_eq_read? (hc : c.toNat < 128) (h : text.toList = before.reverse ++ c :: cs) :
    step? text flags (byteCount before.reverse) =
      read? text flags (byteCount before.reverse) c.toUInt8 (encode cs).head? := by
  have hbytes := toUTF8_eq h
  rw [encode_cons, Text.utf8EncodeChar_of_lt hc, List.singleton_append] at hbytes
  have hhere : text.toUTF8[byteCount before.reverse]? = some c.toUInt8 := getElem?_length hbytes
  rw [step?, hhere, getElem?_behind h hc]
  rfl

theorem read?_marker {marker : Char} (hmarker : Params.isMarker marker = true) (i : Nat)
    (next : Option UInt8) :
    read? text flags i marker.toUInt8 next =
      if next = some marker.toUInt8 then some (none, wordEnd text.toUTF8 (i + 2))
      else marked? text i := by
  rcases Template.isMarker_iff.1 hmarker with rfl | rfl <;>
  · unfold read?
    rw [if_neg (by decide), if_neg (fun h => absurd h.1 (by decide)),
      if_neg (fun h => absurd h.1 (by decide)), if_neg (fun h => absurd h.1 (by decide))]
    simp only [true_or, or_true, true_and, if_true]

theorem byteCount_cons_of_lt (hc : c.toNat < 128) (cs : List Char) :
    byteCount (c :: cs) = 1 + byteCount cs := by
  rw [byteCount_cons_eq, Text.utf8EncodeChar_of_lt hc]
  rfl

theorem step?_quoted (hquote : Template.isQuote c = true)
    (h : text.toList = before.reverse ++ c :: cs) :
    step? text flags (byteCount before.reverse) =
      some (none, byteCount before.reverse + byteCount (c :: (Template.throughQuote c cs).1)) := by
  have hc := lt_of_isQuote hquote
  have hend := quoteEnd_encode hc (toUTF8_eq (h.trans (List.append_cons ..)))
  have hplace : (encode (before.reverse ++ [c])).length = byteCount before.reverse + 1 := by
    rw [← byteCount, Text.byteCount_append, byteCount_cons_of_lt hc]
    rfl
  rw [hplace] at hend
  rw [step?_eq_read? hc h, read?,
    if_pos ((toUInt8_of_bytewise Text.bytewise_isQuote hc).trans hquote), hend,
    byteCount_cons_of_lt hc, Nat.add_assoc]

theorem step?_line (h : text.toList = before.reverse ++ '-' :: '-' :: cs) :
    step? text flags (byteCount before.reverse) =
      some (none, byteCount before.reverse +
        byteCount ('-' :: '-' :: (Template.throughNewline cs).1)) := by
  have hend := lineEnd?_encode (toUTF8_eq h)
  have hthrough : (Template.throughNewline ('-' :: '-' :: cs)).1 =
      '-' :: '-' :: (Template.throughNewline cs).1 := rfl
  rw [← byteCount, hthrough] at hend
  rw [step?_eq_read? (by decide) h, read?, if_neg (by decide), if_pos ⟨rfl, rfl⟩, hend,
    Option.map_some]

theorem step?_block (h : text.toList = before.reverse ++ '/' :: '*' :: cs) :
    step? text flags (byteCount before.reverse) =
      some (none, byteCount before.reverse +
        byteCount ('/' :: '*' :: (Template.throughStarSlash cs).1)) := by
  have hbody : text.toList = (before.reverse ++ ['/', '*']) ++ cs := by
    rw [h, List.append_assoc]
    rfl
  have hend := blockEnd?_encode (toUTF8_eq hbody)
  have hplace : (encode (before.reverse ++ ['/', '*'])).length = byteCount before.reverse + 2 :=
    Text.byteCount_append ..
  have hsize (cs : List Char) : byteCount ('/' :: '*' :: cs) = 2 + byteCount cs :=
    Text.byteCount_append ['/', '*'] cs
  rw [hplace, Nat.add_assoc, ← hsize] at hend
  rw [step?_eq_read? (by decide) h, read?, if_neg (by decide),
    if_neg (fun h => absurd h.1 (by decide)), if_pos ⟨rfl, rfl⟩, hend, Option.map_some]

theorem wordEnd_encode {name : List Char} (h : text.toList = cs ++ (name ++ after))
    (hname : ∀ c ∈ name, Template.isWord c = true)
    (hafter : after.head?.any Template.isWord = false) :
    wordEnd text.toUTF8 (byteCount cs) = byteCount cs + byteCount name := by
  have hbytes := toUTF8_eq h
  rw [Text.encode_append] at hbytes
  refine wordEnd_eq hbytes (List.all_eq_true.1 ?_) ?_
  · rw [Text.bytewise_isWord.all_encode]
    exact List.all_eq_true.2 hname
  · rw [Text.bytewise_isWord.any_head?_encode]
    exact hafter

theorem lt_of_isMarker (h : Params.isMarker c = true) : c.toNat < 128 := by
  rcases Template.isMarker_iff.1 h with rfl | rfl <;> decide

theorem step?_system {name : List Char} (hmarker : Params.isMarker c = true)
    (hname : ∀ c ∈ name, Template.isWord c = true)
    (hafter : after.head?.any Template.isWord = false)
    (h : text.toList = before.reverse ++ c :: c :: (name ++ after)) :
    step? text flags (byteCount before.reverse) =
      some (none, byteCount before.reverse + byteCount (c :: c :: name)) := by
  have hc := lt_of_isMarker hmarker
  have hbehind : text.toList = (before.reverse ++ [c, c]) ++ (name ++ after) := by
    rw [h, List.append_assoc]
    rfl
  have hend := wordEnd_encode hbehind hname hafter
  have hsize (cs : List Char) : byteCount (c :: c :: cs) = 2 + byteCount cs := by
    rw [byteCount_cons_of_lt hc, byteCount_cons_of_lt hc, ← Nat.add_assoc]
  have hplace : byteCount (before.reverse ++ [c, c]) = byteCount before.reverse + 2 := by
    rw [Text.byteCount_append, hsize]
    rfl
  rw [hplace, Nat.add_assoc, ← hsize] at hend
  rw [step?_eq_read? hc h, read?_marker hmarker,
    if_pos ((head?_encode_eq_some_iff hc).2 rfl), hend]

theorem source_eq {a b : List Char} (h : text.toList = a ++ cs ++ b) :
    source text (byteCount a) (byteCount a + byteCount cs) = String.ofList cs := by
  rw [source, Text.slice?_eq_some_iff.2 (Text.isSlice_of_append h rfl rfl)]
  rfl

theorem token?_eq {token : Token} (h : Template.Reads flags before piece after)
    (htext : text.toList = before.reverse ++ piece.text ++ after)
    (htoken : Token.ofPiece? (byteCount before.reverse) piece = some token) :
    token? text token.kind token.start token.stop token.nameStart token.nameStop = some token := by
  have hname := Template.isSlice_name h htext htoken
  obtain ⟨e, -, rfl⟩ := Option.map_eq_some_iff.1 htoken
  rw [token?, Text.slice?_eq_some_iff.2 hname, Option.map_some]
  dsimp only
  rw [← Text.byteCount_text, source_eq htext]

theorem step?_literal {name : List Char} (hflag : flags.literalTokens = true) (hne : name ≠ [])
    (hname : ∀ c ∈ name, Template.isWord c = true)
    (h : text.toList = before.reverse ++ (Piece.literal name).text ++ after) :
    step? text flags (byteCount before.reverse) =
      some (Token.ofPiece? (byteCount before.reverse) (.literal name),
        byteCount before.reverse + (Piece.literal name).byteSize) := by
  have hhere := h.trans (List.append_assoc ..)
  have hbehind : text.toList = (before.reverse ++ ['\x7b', '=']) ++ (name ++ '\x7d' :: after) := by
    simp [h, Piece.text]
  have hplace : byteCount (before.reverse ++ ['\x7b', '=']) = byteCount before.reverse + 2 :=
    Text.byteCount_append ..
  have hend := wordEnd_encode hbehind hname rfl
  rw [hplace] at hend
  have hpos := Text.byteCount_pos hne
  have hbrace : text.toUTF8[byteCount before.reverse + 2 + byteCount name]? =
      some '\x7d'.toUInt8 := by
    rw [← hplace, ← Text.byteCount_append]
    exact getElem?_length (toUTF8_eq (hbehind.trans (List.append_assoc ..).symm))
  have hsize : byteCount before.reverse + (Piece.literal name).byteSize =
      byteCount before.reverse + 2 + byteCount name + 1 := by
    rw [Template.byteSize_literal, ← Nat.add_assoc, ← Nat.add_assoc]
  have hfound : token? text .literal (byteCount before.reverse)
      (byteCount before.reverse + (Piece.literal name).byteSize) (byteCount before.reverse + 2)
      (byteCount before.reverse + (Piece.literal name).byteSize - 1) =
        Token.ofPiece? (byteCount before.reverse) (.literal name) :=
    token?_eq (.literal hflag hne hname) h rfl
  rw [hsize, Nat.add_sub_cancel] at hfound
  rw [step?_eq_read? (by decide) hhere, read?, if_neg (by decide),
    if_neg (fun h => absurd h.1 (by decide)), if_neg (fun h => absurd h.1 (by decide)),
    if_pos ⟨rfl, rfl, hflag⟩, braced?, hend, if_pos ⟨Nat.lt_add_of_pos_right hpos, hbrace⟩, hfound,
    hsize]
  rfl

theorem step?_named {name : List Char} (hmarker : Params.isMarker c = true)
    (hbefore : before.head?.any Template.isWord = false)
    (hstart : name.head?.any Template.isNameStart = true)
    (hname : ∀ c ∈ name, Template.isWord c = true)
    (hafter : after.head?.any Template.isWord = false)
    (h : text.toList = before.reverse ++ c :: name ++ after) :
    step? text flags (byteCount before.reverse) =
      some (Token.ofPiece? (byteCount before.reverse)
        (.named c name (Template.followsIn before)), byteCount before.reverse +
          (Piece.named c name (Template.followsIn before)).byteSize) := by
  have hc := lt_of_isMarker hmarker
  have hhere : text.toList = before.reverse ++ c :: (name ++ after) :=
    h.trans (List.append_assoc ..)
  have hbytes := toUTF8_eq hhere
  have hplace : byteCount (before.reverse ++ [c]) = byteCount before.reverse + 1 := by
    rw [Text.byteCount_append, byteCount_cons_of_lt hc]
    rfl
  have hend := wordEnd_encode (hhere.trans (List.append_cons ..)) hname hafter
  rw [hplace, Nat.add_assoc,
    ← Template.byteSize_named hmarker name (Template.followsIn before)] at hend
  have hnext : text.toUTF8[byteCount before.reverse + 1]? = (encode (name ++ after)).head? := by
    rw [← hplace]
    exact getElem?_length (toUTF8_eq (hhere.trans (List.append_cons ..)))
  have hfirst : (encode (name ++ after)).head?.any Text.isNameStartByte = true := by
    rw [Text.bytewise_isNameStart.any_head?_encode]
    obtain ⟨d, ds, rfl, hd⟩ := Template.exists_cons_of_any_head? hstart
    exact hd
  have hsystem : (encode (name ++ after)).head? ≠ some c.toUInt8 := by
    intro heq
    rw [heq, Option.any_some, toUInt8_of_bytewise Text.bytewise_isNameStart hc] at hfirst
    rcases Template.isMarker_iff.1 hmarker with rfl | rfl <;> cases hfirst
  have hreads : Template.Reads flags before (.named c name (Template.followsIn before)) after :=
    .named hmarker hbefore hstart hname hafter
  have hfound : token? text (if Template.followsIn before then .listExpansion else .named)
      (byteCount before.reverse) (byteCount before.reverse +
        (Piece.named c name (Template.followsIn before)).byteSize) (byteCount before.reverse + 1)
      (byteCount before.reverse + (Piece.named c name (Template.followsIn before)).byteSize) =
        Token.ofPiece? (byteCount before.reverse) (.named c name (Template.followsIn before)) := by
    have htoken := token?_eq hreads h rfl
    generalize Template.followsIn before = afterIn at htoken ⊢
    cases afterIn <;> exact htoken
  have hin : followsIn? text.toUTF8 (byteCount before.reverse) =
      some (Template.followsIn before) := followsIn?_eq hbytes
  have halone : standsAlone? text.toUTF8 (byteCount before.reverse) = some true := by
    rw [byteCount, standsAlone?_eq hbytes, hbefore]
    rfl
  rw [step?_eq_read? hc hhere, read?_marker hmarker, if_neg hsystem, marked?, halone, hnext,
    hfirst, hend, hin]
  simp only [Option.bind_eq_bind, Option.bind_some, Bool.and_true, if_true, hfound]
  rfl

theorem question_condition (h : text.toList = before.reverse ++ '?' :: cs) :
    ((if byteCount before.reverse = 0 then none
        else text.toUTF8[byteCount before.reverse - 1]?).any Text.joinsQuestionMarkByte ||
      text.toUTF8[byteCount before.reverse + 1]?.any Text.joinsQuestionMarkByte) =
    (before.head?.any Template.joinsQuestionMark || cs.head?.any Template.joinsQuestionMark) := by
  rw [getElem?_behind h (by decide), Text.bytewise_joinsQuestionMark.any_head?_encode]
  exact congrArg (· || _) (any_pred Text.bytewise_joinsQuestionMark (toUTF8_eq h))

theorem step?_positional (hflag : flags.legacyMarkers = true)
    (hbefore : before.head?.any Template.joinsQuestionMark = false)
    (hafter : after.head?.any Template.joinsQuestionMark = false)
    (h : text.toList = before.reverse ++ '?' :: after) :
    step? text flags (byteCount before.reverse) =
      some (Token.ofPiece? (byteCount before.reverse) .positional,
        byteCount before.reverse + Piece.positional.byteSize) := by
  have hcondition := question_condition h
  rw [hbefore, hafter] at hcondition
  have hsource : source text _ (_ + byteCount ['?']) = "?" :=
    source_eq (h.trans (List.append_cons ..))
  rw [step?_eq_read? (by decide) h, read?, if_neg (by decide),
    if_neg (fun h => absurd h.1 (by decide)), if_neg (fun h => absurd h.1 (by decide)),
    if_neg (fun h => absurd h.1 (by decide)), if_neg (fun h => absurd h.1 (by decide)),
    if_neg (by decide), if_pos ⟨rfl, hflag⟩, question, hcondition]
  exact congrArg (fun s => some (some (Token.mk .positional _ _ _ s), _)) hsource

/-! ### Single characters -/

theorem braced?_code (hcode : ¬Template.ClosesBrace cs)
    (h : text.toList = before.reverse ++ '\x7b' :: '=' :: cs) :
    braced? text (byteCount before.reverse) = some (none, byteCount before.reverse + 1) := by
  have hsplit := List.takeWhile_append_dropWhile (p := Template.isWord) (l := cs)
  have hbehind : text.toList = (before.reverse ++ ['\x7b', '=']) ++
      (cs.takeWhile Template.isWord ++ cs.dropWhile Template.isWord) := by
    rw [hsplit, h, List.append_assoc]
    rfl
  have hplace : byteCount (before.reverse ++ ['\x7b', '=']) = byteCount before.reverse + 2 :=
    Text.byteCount_append ..
  have hend := wordEnd_encode hbehind Template.isWord_of_mem_takeWhile
    (Template.any_head?_dropWhile Template.isWord cs)
  have hbrace := getElem?_length (toUTF8_eq (hbehind.trans (List.append_assoc ..).symm))
  rw [← byteCount, Text.byteCount_append, hplace] at hbrace
  rw [hplace] at hend
  rw [braced?, hend, hbrace, if_neg]
  rintro ⟨hlt, hclose⟩
  refine hcode ⟨fun hnil => ?_, (head?_encode_eq_some_iff (by decide)).1 hclose⟩
  rw [hnil] at hlt
  exact Nat.lt_irrefl _ hlt

theorem marked?_code (hmarker : Params.isMarker c = true)
    (hcode : before.head?.any Template.isWord = true ∨
      cs.head?.any Template.isNameStart = false)
    (h : text.toList = before.reverse ++ c :: cs) :
    marked? text (byteCount before.reverse) = some (none, byteCount before.reverse + 1) := by
  have halone : standsAlone? text.toUTF8 (byteCount before.reverse) =
      some (!before.head?.any Template.isWord) := standsAlone?_eq (toUTF8_eq h)
  rw [marked?, halone, getElem?_behind h (lt_of_isMarker hmarker),
    Text.bytewise_isNameStart.any_head?_encode, Option.bind_eq_bind, Option.bind_some, if_neg]
  rw [Bool.not_eq_true, Bool.and_eq_false_iff, Bool.not_eq_false']
  exact hcode

theorem question_code (hcode : before.head?.any Template.joinsQuestionMark = true ∨
      cs.head?.any Template.joinsQuestionMark = true)
    (h : text.toList = before.reverse ++ '?' :: cs) :
    question text (byteCount before.reverse) = (none, byteCount before.reverse + 1) := by
  have hcondition := question_condition h
  rw [Bool.or_eq_true_iff.2 hcode] at hcondition
  exact if_pos hcondition

theorem step?_code (hc : c.toNat < 128) (hcode : Template.StandsAlone flags before c cs)
    (h : text.toList = before.reverse ++ c :: cs) :
    step? text flags (byteCount before.reverse) = some (none, byteCount before.reverse + 1) := by
  rw [step?_eq_read? hc h]
  have hnext (a : Char) (ha : a.toNat < 128) :
      (encode cs).head? = some a.toUInt8 ↔ cs.head? = some a := head?_encode_eq_some_iff ha
  by_cases hmarker : Params.isMarker c = true
  · rw [read?_marker hmarker, if_neg fun h => hcode.system hmarker ((hnext c hc).1 h)]
    exact marked?_code hmarker (hcode.named hmarker) h
  · have hquote : Text.isQuoteByte c.toUInt8 = false :=
      (toUInt8_of_bytewise Text.bytewise_isQuote hc).trans hcode.quote
    have hbyte (a : Char) (ha : a.toNat < 128) : c.toUInt8 = a.toUInt8 ↔ c = a := toUInt8_inj hc ha
    have hother : ¬(c.toUInt8 = '@'.toUInt8 ∨ c.toUInt8 = ':'.toUInt8) := by
      rwa [hbyte '@' (by decide), hbyte ':' (by decide), ← Template.isMarker_iff]
    have hline : ¬(c.toUInt8 = '-'.toUInt8 ∧ (encode cs).head? = some '-'.toUInt8) := by
      rw [hbyte '-' (by decide), hnext '-' (by decide)]
      exact fun h => hcode.line h.1 h.2
    have hblock : ¬(c.toUInt8 = '/'.toUInt8 ∧ (encode cs).head? = some '*'.toUInt8) := by
      rw [hbyte '/' (by decide), hnext '*' (by decide)]
      exact fun h => hcode.block h.1 h.2
    rw [read?, if_neg (Bool.eq_false_iff.1 hquote), if_neg hline, if_neg hblock]
    split
    · rename_i hopen
      rw [hbyte '\x7b' (by decide), hnext '=' (by decide)] at hopen
      obtain ⟨rfl, hequals, hflag⟩ := hopen
      obtain ⟨tail, rfl⟩ := List.head?_eq_some_iff.1 hequals
      exact braced?_code (hcode.literal rfl hflag rfl) h
    · rw [if_neg (not_and_of_not_left _ hother)]
      split
      · rename_i hquestion
        rw [hbyte '?' (by decide)] at hquestion
        obtain ⟨rfl, hflag⟩ := hquestion
        rw [question_code (hcode.positional rfl hflag) h]
      · rfl

/-! ### The scan -/

/-- **A piece is found** at its place, and the scan goes on behind it. -/
theorem step?_eq (h : Template.Reads flags before piece after)
    (htext : text.toList = before.reverse ++ (piece.text ++ after))
    (hascii : ∀ c, piece = .code c → c.toNat < 128) :
    step? text flags (byteCount before.reverse) =
      some (Token.ofPiece? (byteCount before.reverse) piece,
        byteCount before.reverse + piece.byteSize) := by
  rw [← Text.byteCount_text]
  cases h with
  | @quoted quote body _ hquote hthrough =>
    have hstep : step? text flags _ = _ := step?_quoted hquote htext
    rw [List.append_eq, hthrough] at hstep
    exact hstep
  | @line body _ hthrough =>
    have hstep : step? text flags _ = _ := step?_line htext
    rw [List.append_eq, hthrough] at hstep
    exact hstep
  | @block body _ hthrough =>
    have hstep : step? text flags _ = _ := step?_block htext
    rw [List.append_eq, hthrough] at hstep
    exact hstep
  | @system marker name _ hmarker hname hrest => exact step?_system hmarker hname hrest htext
  | @literal name _ hflag hne hname =>
    rw [Text.byteCount_text]
    exact step?_literal hflag hne hname (htext.trans (List.append_assoc ..).symm)
  | @named marker name _ hmarker hbefore hstart hname hrest =>
    rw [Text.byteCount_text]
    exact step?_named hmarker hbefore hstart hname hrest (htext.trans (List.append_assoc ..).symm)
  | positional hflag hbefore hrest =>
    rw [Text.byteCount_text]
    exact step?_positional hflag hbefore hrest htext
  | @code c _ hcode =>
    have hc := hascii c rfl
    rw [Piece.text, byteCount_cons_of_lt hc]
    exact step?_code hc hcode htext

theorem scanFrom?_of_step? {found : Option Token} {j : Nat}
    (h : step? text flags i = some (found, j)) :
    scanFrom? text flags i = (scanFrom? text flags j).map (found.toList ++ ·) := by
  have hi : i < text.toUTF8.size := by
    obtain ⟨b, hb, -⟩ := Option.bind_eq_some_iff.1 h
    exact (getElem?_eq_some_iff.1 hb).1
  rw [scanFrom?, dif_pos hi]
  split
  · rename_i hnone
    rw [h] at hnone
    cases hnone
  · rename_i hsome
    rw [h] at hsome
    cases hsome
    rfl

/-- Nothing begins at a byte that is not in ASCII. -/
theorem read?_of_le (hb : 128 ≤ b.toNat) (i : Nat) (next : Option UInt8) :
    read? text flags i b next = some (none, i + 1) := by
  have hne (a : UInt8) (ha : a.toNat < 128) : b ≠ a := by
    rintro rfl
    exact Nat.not_lt_of_le hb ha
  have hmarker : ¬(b = '@'.toUInt8 ∨ b = ':'.toUInt8) :=
    not_or.2 ⟨hne _ (by decide), hne _ (by decide)⟩
  have hquote : ¬Text.isQuoteByte b = true := by
    simp only [Text.isQuoteByte, Bool.or_eq_true, beq_iff_eq]
    exact not_or.2 ⟨not_or.2 ⟨hne _ (by decide), hne _ (by decide)⟩, hne _ (by decide)⟩
  rw [read?, if_neg hquote, if_neg (not_and_of_not_left _ (hne _ (by decide))),
    if_neg (not_and_of_not_left _ (hne _ (by decide))),
    if_neg (not_and_of_not_left _ (hne _ (by decide))), if_neg (not_and_of_not_left _ hmarker),
    if_neg hmarker, if_neg (not_and_of_not_left _ (hne _ (by decide)))]

theorem scanFrom?_block (h : text.toUTF8.data.toList = front ++ (block ++ rest))
    (hblock : ∀ b ∈ block, 128 ≤ b.toNat) :
    scanFrom? text flags front.length = scanFrom? text flags (front ++ block).length := by
  induction block generalizing front with
  | nil => rw [List.append_nil]
  | cons b block ih =>
    obtain ⟨hb, hblock⟩ := List.forall_mem_cons.1 hblock
    have hstep : step? text flags front.length = some (none, front.length + 1) := by
      rw [step?, getElem?_length h]
      exact read?_of_le hb _ _
    have ih := @ih (front ++ [b]) (h.trans (List.append_cons ..)) hblock
    rw [← List.append_cons, List.length_append, List.length_singleton] at ih
    rw [scanFrom?_of_step? hstep, ih]
    exact Option.map_id'

/-- **The bytes are cut where the characters are**: from behind any of the pieces on, the scan of
the bytes finds the tokens of the pieces that follow. -/
theorem scanFrom?_eq {left right : List Piece}
    (h : Template.scan flags text.toList = left ++ right) :
    scanFrom? text flags (byteCount (left.flatMap Piece.text)) =
      some (Token.ofPieces (byteCount (left.flatMap Piece.text)) right) := by
  induction right generalizing left with
  | nil =>
    have htext := Template.text_scan flags text.toList
    rw [h, List.append_nil] at htext
    have hsize : text.toUTF8.size = byteCount (left.flatMap Piece.text) :=
      size_eq (toUTF8_eq (htext.symm.trans (List.append_nil _).symm))
    rw [scanFrom?, dif_neg (Nat.not_lt_of_le (Nat.le_of_eq hsize))]
    rfl
  | cons piece right ih =>
    have hreads := Template.reads_of_scanFrom_eq_append h
    have htext := Template.text_of_scan_eq_append h
    have ih := ih (h.trans (List.append_cons ..))
    rw [List.flatMap_append, List.flatMap_singleton, Text.byteCount_append,
      Text.byteCount_text] at ih
    rw [Token.ofPieces_cons]
    by_cases hascii : ∀ c, piece = .code c → c.toNat < 128
    · have hstep := step?_eq hreads (by simpa using htext) hascii
      rw [List.append_nil, List.reverse_reverse] at hstep
      rw [scanFrom?_of_step? hstep, ih]
      rfl
    · obtain ⟨c, rfl, hc⟩ : ∃ c, piece = .code c ∧ 128 ≤ c.toNat := by
        simpa using hascii
      have hbytes := toUTF8_eq (htext.trans (List.append_assoc ..))
      rw [Text.encode_append] at hbytes
      have hhigh : ∀ b ∈ encode (Piece.code c).text, 128 ≤ b.toNat := fun b hb => by
        rw [Piece.text, encode, List.flatMap_singleton] at hb
        rcases Text.toNat_of_mem_utf8EncodeChar hb with h | h <;> omega
      have hskip : scanFrom? text flags _ = _ := scanFrom?_block hbytes hhigh
      rw [List.length_append, ← byteCount, ← byteCount, Text.byteCount_text] at hskip
      rw [hskip, ih]
      rfl

/-- **The scan of the bytes finds the tokens of the characters**, and never looks where there is
none or takes a text between places that are no borders. -/
theorem scan?_eq (text : String) (flags : Flags) :
    scan? text flags = some (Token.ofPieces 0 (Template.scan flags text.toList)) :=
  scanFrom?_eq (List.nil_append _).symm

end ByteScan

/-! ### Texts between tokens -/

namespace Token

/-- Texts, with the characters of a token behind each of them but the last one. -/
def weave : List String → List Token → String
  | part :: parts, token :: tokens => part ++ token.source ++ weave parts tokens
  | part :: _, [] => part
  | [], _ => ""

end Token

namespace Text

theorem bytes_append (s t : String) : bytes (s ++ t) = bytes s ++ bytes t := by
  rw [bytes_eq_encode, bytes_eq_encode, bytes_eq_encode, String.toList_append, encode_append]

theorem slice_append_drop {text : List UInt8} {start stop : Nat} (h : start ≤ stop) :
    slice text start stop ++ text.drop stop = text.drop start := by
  have hdrop : text.drop stop = (text.drop start).drop (stop - start) := by
    rw [List.drop_drop, Nat.add_sub_cancel' h]
  rw [slice, List.drop_take, hdrop, List.take_append_drop]

end Text

namespace ByteScan

variable {text : String} {flags : Flags} {tokens : List Token} {done : Nat}

/-- Between tokens that stand one behind the other texts can be taken, and together with the tokens
they are the text from which they are taken. -/
theorem exists_between? (hdone : String.Pos.Raw.IsValid text ⟨done⟩)
    (hstart : ∀ token ∈ tokens, done ≤ token.start)
    (hpairwise : tokens.Pairwise fun a b => a.stop ≤ b.start)
    (hwellFormed : ∀ token ∈ tokens, token.WellFormed text) :
    ∃ parts, between? text done tokens = some parts ∧
      Text.bytes (Token.weave parts tokens) = (Text.bytes text).drop done := by
  induction tokens generalizing done with
  | nil =>
    obtain ⟨s, hs⟩ := Text.exists_isSlice hdone String.Pos.Raw.isValid_rawEndPos hdone.le_rawEndPos
    refine ⟨[s], ?_, ?_⟩
    · exact Option.map_eq_some_iff.2 ⟨s, Text.slice?_eq_some_iff.2 hs, rfl⟩
    · have hsize : (Text.bytes text).length = text.utf8ByteSize := rfl
      rw [Token.weave, ← hs.bytes_eq, ← Text.slice_append_drop hs.le, List.drop_of_length_le,
        List.append_nil]
      exact Nat.le_of_eq hsize
  | cons token tokens ih =>
    obtain ⟨htoken, htokens⟩ := List.forall_mem_cons.1 hwellFormed
    obtain ⟨hbehind, hpairwise⟩ := List.pairwise_cons.1 hpairwise
    obtain ⟨s, hs⟩ := Text.exists_isSlice hdone htoken.source.start_valid
      (hstart token List.mem_cons_self)
    obtain ⟨parts, hparts, hweave⟩ := ih htoken.source.stop_valid hbehind hpairwise htokens
    refine ⟨s :: parts, ?_, ?_⟩
    · rw [between?, Text.slice?_eq_some_iff.2 hs, hparts]
      rfl
    · rw [Token.weave, Text.bytes_append, Text.bytes_append, hweave, ← hs.bytes_eq,
        ← htoken.source.bytes_eq, List.append_assoc,
        Text.slice_append_drop (Nat.le_of_lt htoken.lt), Text.slice_append_drop hs.le]

end ByteScan

namespace Template

/-- No marker in code is passed over, given the bytes next to it. -/
theorem exists_token_of_marker_byte {text : String} {flags : Flags} {front back : List Segment}
    {marker : Char} (h : divide text.toList = front ++ .code marker :: back)
    (hmarker : Params.isMarker marker = true)
    (hadjacent : ((Text.bytes text).take (Segment.byteSize front)).getLast? ≠
      some marker.toUInt8)
    (hbefore : ((Text.bytes text).take (Segment.byteSize front)).getLast?.any Text.isWordByte =
      false)
    (hafter : ((Text.bytes text).drop (Segment.byteSize front + 1)).head?.any
      Text.isNameStartByte = true) :
    ∃ token ∈ (parse text flags).tokens, token.start = Segment.byteSize front ∧
      token.marker = marker ∧ (token.kind = .named ∨ token.kind = .listExpansion) := by
  have htext : text.toList = front.flatMap Segment.text ++ marker :: back.flatMap Segment.text := by
    have hall := text_divide text.toList
    rw [h, List.flatMap_append, List.flatMap_cons] at hall
    exact hall.symm
  have htake := (Text.bytes_of_append htext).1
  have hdrop := (Text.bytes_of_append (htext.trans (List.append_cons ..))).2
  rw [Text.byteCount_append, byteCount_marker hmarker] at hdrop
  have hstart : Segment.byteSize front = byteCount (front.flatMap Segment.text) := rfl
  rw [hstart, htake] at hadjacent hbefore
  rw [hstart, hdrop, Text.bytewise_isNameStart.any_head?_encode] at hafter
  rw [Text.bytewise_isWord.any_getLast?_encode] at hbefore
  refine exists_token_of_marker h hmarker (fun hlast => hadjacent ?_) hbefore hafter
  obtain ⟨cs, hcs⟩ := List.getLast?_eq_some_iff.1 hlast
  have hbyte : encode [marker] = [marker.toUInt8] := by
    rcases isMarker_iff.1 hmarker with rfl | rfl <;> rfl
  rw [hcs, Text.encode_append, hbyte, List.getLast?_concat]

/-- **The bytes of a text are scanned without a fault; tokens are slices of the text, and no marker
in code is passed over.**  The scan of the bytes comes to its end, never looks at a byte that is not
there and takes no text between places that are no borders of characters.  The tokens stand one
behind the other, and the texts between them, which can be taken as well, make up the text with
them.  Each token has the shape of its kind; a name goes as far as it can, and no word runs into its
marker.  A character `@` or `:` of code is the marker of a named token if it does not follow another
one, no word runs into it and something follows that may begin a name. -/
theorem wellFormed_tokens (flags : Flags) (text : String) :
    let tokens := (parse text flags).tokens
    ByteScan.scan? text flags = some tokens ∧
      tokens.Pairwise (fun a b => a.stop ≤ b.start) ∧
      (∀ token ∈ tokens, token.WellFormed text) ∧
      (∃ parts, ByteScan.between? text 0 tokens = some parts ∧
        Token.weave parts tokens = text) ∧
      ∀ front marker back, divide text.toList = front ++ .code marker :: back →
        Params.isMarker marker = true →
        let start := Segment.byteSize front
        ((Text.bytes text).take start).getLast? ≠ some marker.toUInt8 →
        ((Text.bytes text).take start).getLast?.any Text.isWordByte = false →
        ((Text.bytes text).drop (start + 1)).head?.any Text.isNameStartByte = true →
        ∃ token ∈ tokens, token.start = start ∧ token.marker = marker ∧
          (token.kind = .named ∨ token.kind = .listExpansion) := by
  intro tokens
  have htokens : tokens = Token.ofPieces 0 (scan flags text.toList) := tokens_parse text flags
  have hpairwise : tokens.Pairwise fun a b => a.stop ≤ b.start :=
    htokens ▸ Token.pairwise_ofPieces 0 _
  have hwellFormed : ∀ token ∈ tokens, token.WellFormed text := by
    intro token htoken
    rw [htokens] at htoken
    obtain ⟨left, piece, right, hscan, hpiece⟩ := Token.mem_ofPieces_iff.1 htoken
    rw [Nat.zero_add] at hpiece
    exact wellFormed_of_scan_eq hscan hpiece
  refine ⟨?_, hpairwise, hwellFormed, ?_, ?_⟩
  · rw [htokens]
    exact ByteScan.scan?_eq text flags
  · obtain ⟨parts, hparts, hweave⟩ := ByteScan.exists_between?
      (Text.isValid_of_append (a := []) rfl) (fun _ _ => Nat.zero_le _) hpairwise hwellFormed
    exact ⟨parts, hparts, Text.eq_of_bytes_eq hweave⟩
  · intro front marker back hdivide hmarker start hadjacent hbefore hafter
    exact exists_token_of_marker_byte hdivide hmarker hadjacent hbefore hafter

end Template

end RowMapping
