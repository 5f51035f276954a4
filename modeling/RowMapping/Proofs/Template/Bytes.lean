import RowMapping.Proofs.Template.HiddenText
import RowMapping.Template.ByteScan

/-!
# Bytes of texts

The bytes of a character are of the class that it is of, since a class has no character outside
ASCII, or all of them.  So what is said of the characters of a text can be said of its bytes.

* `Text.Bytewise`: classes of bytes that go with classes of characters;
* `Text.IsSlice`, `Text.slice?_eq_some_iff`: what stands between two borders of characters.
-/

namespace RowMapping

/-! ### Classes of bytes -/

namespace Text

/-- A character in ASCII is one byte, and the bytes of every other one are not in ASCII. -/
theorem toNat_of_mem_utf8EncodeChar {c : Char} {b : UInt8} (h : b ∈ String.utf8EncodeChar c) :
    b.toNat = c.toNat ∧ c.toNat < 128 ∨ 128 ≤ b.toNat ∧ 128 ≤ c.toNat := by
  have hval : c.val.toNat = c.toNat := rfl
  simp only [String.utf8EncodeChar, hval] at h
  split at h
  · rw [List.mem_singleton.1 h, UInt8.toNat_ofNat']
    omega
  · refine .inr ⟨?_, by omega⟩
    split at h
    · simp only [List.mem_cons, List.not_mem_nil, or_false] at h
      rcases h with rfl | rfl <;> simp only [UInt8.toNat_ofNat'] <;> omega
    · split at h <;> simp only [List.mem_cons, List.not_mem_nil, or_false] at h
      · rcases h with rfl | rfl | rfl <;> simp only [UInt8.toNat_ofNat'] <;> omega
      · rcases h with rfl | rfl | rfl | rfl <;> simp only [UInt8.toNat_ofNat'] <;> omega

/-- The bytes of a character are in the class `q` if and only if the character is in the class
`p`. -/
def Bytewise (q : UInt8 → Bool) (p : Char → Bool) : Prop :=
  ∀ c, ∀ b ∈ String.utf8EncodeChar c, q b = p c

theorem bytewise_of_code {f : Nat → Bool} {p : Char → Bool} {v : Bool}
    (hp : ∀ c, p c = f c.toNat) (hf : ∀ n, 128 ≤ n → f n = v) :
    Bytewise (fun b => f b.toNat) p := by
  intro c b hb
  dsimp only
  rcases toNat_of_mem_utf8EncodeChar hb with ⟨h, -⟩ | ⟨hbyte, hchar⟩
  · rw [hp, h]
  · rw [hp, hf _ hbyte, hf _ hchar]

theorem eq_underscore_iff {c : Char} : c = '_' ↔ c.toNat = 95 := Char.toNat_inj.symm

theorem isLower_iff {c : Char} : c.isLower = true ↔ 97 ≤ c.toNat ∧ c.toNat ≤ 122 :=
  Bool.and_eq_true_iff.trans (and_congr decide_eq_true_iff decide_eq_true_iff)

theorem isAlpha_iff {c : Char} :
    c.isAlpha = true ↔ 65 ≤ c.toNat ∧ c.toNat ≤ 90 ∨ 97 ≤ c.toNat ∧ c.toNat ≤ 122 :=
  Bool.or_eq_true_iff.trans (or_congr decide_eq_true_iff isLower_iff)

theorem isWord_eq_isWordCode (c : Char) : Template.isWord c = isWordCode c.toNat := by
  rw [Bool.eq_iff_iff]
  simp only [Template.isWord, isWordCode, Char.isAlphanum, isAlpha_iff, isDigit_iff,
    Bool.or_eq_true, decide_eq_true_eq, beq_iff_eq, eq_underscore_iff]
  omega

theorem isNameStart_eq_isNameStartCode (c : Char) :
    Template.isNameStart c = isNameStartCode c.toNat := by
  rw [Bool.eq_iff_iff]
  simp only [Template.isNameStart, isNameStartCode, isAlpha_iff, Bool.or_eq_true,
    decide_eq_true_eq, beq_iff_eq, eq_underscore_iff]

theorem bytewise_isWord : Bytewise isWordByte Template.isWord :=
  bytewise_of_code (v := true) isWord_eq_isWordCode fun n hn => by simp [isWordCode, hn]

theorem bytewise_isNameStart : Bytewise isNameStartByte Template.isNameStart :=
  bytewise_of_code (v := true) isNameStart_eq_isNameStartCode fun n hn => by
    simp [isNameStartCode, hn]

variable {q q' : UInt8 → Bool} {p p' : Char → Bool} {a : Char}

theorem Bytewise.or (h : Bytewise q p) (h' : Bytewise q' p') :
    Bytewise (fun b => q b || q' b) fun c => p c || p' c := fun c b hb =>
  congrArg₂ (· || ·) (h c b hb) (h' c b hb)

theorem toNat_toUInt8 (ha : a.toNat < 128) : a.toUInt8.toNat = a.toNat :=
  Nat.mod_eq_of_lt (Nat.lt_trans ha (by decide))

theorem bytewise_beq (ha : a.toNat < 128) : Bytewise (· == a.toUInt8) (· == a) := by
  have hcode : Bytewise (fun b => b.toNat == a.toNat) (· == a) := by
    refine bytewise_of_code (f := (· == a.toNat)) (v := false) (fun c => ?_) fun n hn => ?_
    · rw [Bool.eq_iff_iff, beq_iff_eq, beq_iff_eq, Char.toNat_inj]
    · exact beq_eq_false_iff_ne.2 fun h => absurd hn (h ▸ Nat.not_le_of_lt ha)
  intro c b hb
  rw [← hcode c b hb, Bool.eq_iff_iff, beq_iff_eq, beq_iff_eq, ← toNat_toUInt8 ha, UInt8.toNat_inj]

theorem bytewise_isQuote : Bytewise isQuoteByte Template.isQuote :=
  ((bytewise_beq (by decide)).or (bytewise_beq (by decide))).or (bytewise_beq (by decide))

theorem bytewise_isGap : Bytewise isGapByte Template.isGap :=
  ((((bytewise_beq (by decide)).or (bytewise_beq (by decide))).or (bytewise_beq (by decide))).or
    (bytewise_beq (by decide))).or (bytewise_beq (by decide))

theorem bytewise_joinsQuestionMark :
    Bytewise joinsQuestionMarkByte Template.joinsQuestionMark :=
  ((bytewise_isWord.or (bytewise_beq (by decide))).or (bytewise_beq (by decide))).or
    (bytewise_beq (by decide))

theorem utf8EncodeChar_ne_nil (c : Char) : String.utf8EncodeChar c ≠ [] := by
  rw [← List.length_pos_iff, String.length_utf8EncodeChar]
  exact c.utf8Size_pos

theorem utf8EncodeChar_of_lt {c : Char} (hc : c.toNat < 128) :
    String.utf8EncodeChar c = [c.toUInt8] := by
  rw [String.utf8EncodeChar_eq_singleton]
  · rfl
  · rw [Char.utf8Size_eq_one_iff, UInt32.le_iff_toNat_le]
    exact Nat.le_of_lt_succ hc

theorem Bytewise.any_head?_encode (h : Bytewise q p) (cs : List Char) :
    (encode cs).head?.any q = cs.head?.any p := by
  cases cs with
  | nil => rfl
  | cons c cs =>
    obtain ⟨b, bs, hc⟩ := List.exists_cons_of_ne_nil (utf8EncodeChar_ne_nil c)
    rw [encode, List.flatMap_cons, hc]
    exact h c b (hc ▸ List.mem_cons_self)

theorem Bytewise.any_getLast?_encode (h : Bytewise q p) (cs : List Char) :
    (encode cs).getLast?.any q = cs.getLast?.any p := by
  rcases List.eq_nil_or_concat cs with rfl | ⟨cs, c, rfl⟩
  · rfl
  · have hne := utf8EncodeChar_ne_nil c
    rw [encode, List.concat_eq_append, List.flatMap_append, List.flatMap_singleton,
      List.getLast?_append_of_ne_nil _ hne, List.getLast?_eq_some_getLast hne, List.getLast?_concat]
    exact h c _ (List.getLast_mem hne)

theorem Bytewise.all_encode (h : Bytewise q p) (cs : List Char) :
    (encode cs).all q = cs.all p := by
  induction cs with
  | nil => rfl
  | cons c cs ih =>
    have hc : (String.utf8EncodeChar c).all q = p c := by
      obtain ⟨b, bs, hbs⟩ := List.exists_cons_of_ne_nil (utf8EncodeChar_ne_nil c)
      rw [Bool.eq_iff_iff, List.all_eq_true]
      refine ⟨fun hall => ?_, fun hp b hb => (h c b hb).trans hp⟩
      have hmem : b ∈ String.utf8EncodeChar c := hbs ▸ List.mem_cons_self
      exact (h c b hmem).symm.trans (hall b hmem)
    rw [encode, List.flatMap_cons, List.all_append, hc, List.all_cons, ← ih, encode]

/-! ### Slices -/

/-- The text `s` stands in `text` from one byte to another, both of which are borders of
characters. -/
structure IsSlice (text : String) (start stop : Nat) (s : String) : Prop where
  start_valid : String.Pos.Raw.IsValid text ⟨start⟩
  stop_valid : String.Pos.Raw.IsValid text ⟨stop⟩
  le : start ≤ stop
  bytes_eq : slice (bytes text) start stop = bytes s

theorem eq_of_bytes_eq {s t : String} (h : bytes s = bytes t) : s = t :=
  String.toByteArray_inj.1 (ByteArray.ext (Array.toList_inj.1 h))

theorem isSlice_extract {text : String} {start stop : Nat} (hle : start ≤ stop)
    (hstart : String.Pos.Raw.IsValid text ⟨start⟩) (hstop : String.Pos.Raw.IsValid text ⟨stop⟩) :
    IsSlice text start stop (text.extract ⟨⟨start⟩, hstart⟩ ⟨⟨stop⟩, hstop⟩) := by
  refine ⟨hstart, hstop, hle, ?_⟩
  rw [slice, bytes, bytes, String.toUTF8_eq_toByteArray, String.toUTF8_eq_toByteArray,
    String.toByteArray_extract, ByteArray.data_extract, Array.toList_extract, List.drop_take,
    List.extract_eq_take_drop]

/-- **A slice can be taken** just where there is one. -/
theorem slice?_eq_some_iff {text s : String} {start stop : Nat} :
    slice? text start stop = some s ↔ IsSlice text start stop s := by
  unfold slice?
  split
  · rename_i h
    have hslice := isSlice_extract h.1 h.2.1 h.2.2
    constructor
    · intro heq
      exact Option.some.inj heq ▸ hslice
    · intro hs
      exact congrArg some (eq_of_bytes_eq (hslice.bytes_eq.symm.trans hs.bytes_eq))
  · rename_i h
    exact iff_of_false nofun fun hs => h ⟨hs.le, hs.start_valid, hs.stop_valid⟩

theorem byteIdx_rawEndPos_ofList (cs : List Char) :
    (String.ofList cs).rawEndPos = ⟨byteCount cs⟩ := by
  rw [byteCount, ← bytes_ofList]
  rfl

theorem byteCount_toList (s : String) : byteCount s.toList = s.utf8ByteSize := by
  have h := byteIdx_rawEndPos_ofList s.toList
  rw [String.ofList_toList] at h
  exact (congrArg String.Pos.Raw.byteIdx h).symm

theorem isValid_of_append {text : String} {a b : List Char} (h : text.toList = a ++ b) :
    String.Pos.Raw.IsValid text ⟨byteCount a⟩ := by
  refine String.Pos.Raw.isValid_iff_exists_append.2 ⟨.ofList a, .ofList b, ?_, ?_⟩
  · rw [← String.ofList_append, ← h, String.ofList_toList]
  · exact (byteIdx_rawEndPos_ofList a).symm

theorem encode_append (a b : List Char) : encode (a ++ b) = encode a ++ encode b :=
  List.flatMap_append

theorem bytes_of_append {text : String} {a b : List Char} (h : text.toList = a ++ b) :
    (bytes text).take (byteCount a) = encode a ∧ (bytes text).drop (byteCount a) = encode b := by
  have hbytes : bytes text = encode a ++ encode b := by
    rw [bytes_eq_encode, h, encode_append]
  rw [hbytes, byteCount]
  exact ⟨List.take_left, List.drop_left⟩

theorem isSlice_of_append {text : String} {a s b : List Char} {start stop : Nat}
    (h : text.toList = a ++ s ++ b) (hstart : start = byteCount a)
    (hstop : stop = byteCount a + byteCount s) : IsSlice text start stop (String.ofList s) := by
  rw [← byteCount_append] at hstop
  subst hstart hstop
  refine ⟨isValid_of_append (h.trans (List.append_assoc a s b)), isValid_of_append h, ?_, ?_⟩
  · rw [byteCount_append]
    exact Nat.le_add_right _ _
  · rw [slice, (bytes_of_append h).1, bytes_ofList, byteCount, encode_append]
    exact List.drop_left

theorem byteCount_pos {cs : List Char} (h : cs ≠ []) : 0 < byteCount cs := by
  obtain ⟨c, cs, rfl⟩ := List.exists_cons_of_ne_nil h
  rw [byteCount_cons]
  have hc : byteCount [c] = c.utf8Size := by
    rw [byteCount, encode, List.flatMap_singleton, String.length_utf8EncodeChar]
  have := c.utf8Size_pos
  omega

/-- Of two fronts of a text, the one with no more bytes is a front of the other. -/
theorem prefix_of_byteCount_le {a b cs : List Char} (ha : a <+: cs) (hb : b <+: cs)
    (h : byteCount a ≤ byteCount b) : a <+: b := by
  rcases List.prefix_or_prefix_of_prefix ha hb with hab | ⟨tail, rfl⟩
  · exact hab
  · have htail : tail = [] := by
      by_contra hne
      have := byteCount_pos hne
      rw [byteCount_append] at h
      omega
    exact ⟨[], by rw [htail, List.append_nil, List.append_nil]⟩

theorem eq_of_byteCount_eq {a b cs : List Char} (ha : a <+: cs) (hb : b <+: cs)
    (h : byteCount a = byteCount b) : a = b := by
  have hab := prefix_of_byteCount_le ha hb (Nat.le_of_eq h)
  have hba := prefix_of_byteCount_le hb ha (Nat.le_of_eq h.symm)
  exact hab.eq_of_length (Nat.le_antisymm hab.length_le hba.length_le)

theorem exists_front_of_isValid {text : String} {i : Nat}
    (h : String.Pos.Raw.IsValid text ⟨i⟩) : ∃ a, a <+: text.toList ∧ i = byteCount a := by
  obtain ⟨a, b, rfl, hi⟩ := String.Pos.Raw.isValid_iff_exists_append.1 h
  refine ⟨a.toList, ⟨b.toList, String.toList_append.symm⟩, ?_⟩
  rw [← String.ofList_toList (s := a), byteIdx_rawEndPos_ofList] at hi
  exact congrArg String.Pos.Raw.byteIdx hi

theorem exists_isSlice {text : String} {start stop : Nat}
    (hstart : String.Pos.Raw.IsValid text ⟨start⟩) (hstop : String.Pos.Raw.IsValid text ⟨stop⟩)
    (hle : start ≤ stop) : ∃ s, IsSlice text start stop s := by
  obtain ⟨a, ha, rfl⟩ := exists_front_of_isValid hstart
  obtain ⟨b, hb, rfl⟩ := exists_front_of_isValid hstop
  obtain ⟨s, rfl⟩ := prefix_of_byteCount_le ha hb hle
  obtain ⟨rest, hrest⟩ := hb
  exact ⟨_, isSlice_of_append hrest.symm rfl (byteCount_append a s)⟩

end Text

end RowMapping
