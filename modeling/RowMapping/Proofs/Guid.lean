import RowMapping.Guid
import RowMapping.Proofs.Text.Trimming

/-!
# Identifiers are read as they are written

An identifier that is written as hexadecimal digits in groups, with hyphens between them, is read
back from that text.  The text has no blanks.

* `Text.readHexBytes?_hexBytes`: the digits of bytes denote the bytes;
* `Guid.joinGroups?_hyphenate`: cutting digits into groups is undone by joining the groups;
* `Guid.read?_text`: reading undoes writing.
-/

namespace RowMapping

/-! ### Hexadecimal digits -/

namespace Text

theorem hexValue?_hexDigit (n : Nat) : hexValue? (hexDigit n) = some (n % 16) := by
  have hdigit : ∀ k < 16, hexValue? (Nat.digitChar k) = some k := by decide
  exact hdigit _ (Nat.mod_lt n (by decide))

theorem visible_hexDigit (n : Nat) : 0x20 < (hexDigit n).toNat ∧ (hexDigit n).toNat < 0x80 := by
  have hdigit : ∀ k < 16, 0x20 < (Nat.digitChar k).toNat ∧ (Nat.digitChar k).toNat < 0x80 := by
    decide
  exact hdigit _ (Nat.mod_lt n (by decide))

theorem hexBytes_cons (b : UInt8) (bs : List UInt8) :
    hexBytes (b :: bs) = hexDigit (b.toNat / 16) :: hexDigit b.toNat :: hexBytes bs := rfl

theorem length_hexBytes (bs : List UInt8) : (hexBytes bs).length = 2 * bs.length := by
  induction bs with
  | nil => rfl
  | cons b bs ih =>
    rw [hexBytes_cons, List.length_cons, List.length_cons, ih, List.length_cons]
    omega

theorem exists_hexDigit_of_mem {c : Char} {bs : List UInt8} (h : c ∈ hexBytes bs) :
    ∃ n, c = hexDigit n := by
  obtain ⟨b, -, hb⟩ := List.mem_flatMap.1 h
  simp only [hexByte, List.mem_cons, List.not_mem_nil, or_false] at hb
  rcases hb with rfl | rfl <;> exact ⟨_, rfl⟩

/-- **The digits of bytes denote the bytes.** -/
theorem readHexBytes?_hexBytes (bs : List UInt8) : readHexBytes? (hexBytes bs) = some bs := by
  induction bs with
  | nil => rfl
  | cons b bs ih =>
    have hhigh : b.toNat / 16 % 16 = b.toNat / 16 := Nat.mod_eq_of_lt (by have := b.toNat_lt; omega)
    have hbyte : UInt8.ofNat (b.toNat / 16 * 16 + b.toNat % 16) = b := by
      rw [Nat.div_add_mod', UInt8.ofNat_toNat]
    simp only [hexBytes_cons, readHexBytes?, hexValue?_hexDigit, ih, hhigh, Option.bind_eq_bind,
      Option.bind_some, hbyte]

end Text

namespace Guid

-- a sum of natural numbers starts at their literal zero, whatever else is imported
attribute [local instance (high)] Zero.ofOfNat0

/-! ### Groups of digits -/

variable {ns : List Nat} {cs : List Char}

theorem hyphenate_cons (n : Nat) (hns : ns ≠ []) (cs : List Char) :
    hyphenate (n :: ns) cs = cs.take n ++ '-' :: hyphenate ns (cs.drop n) := by
  rw [hyphenate]
  exact hns

theorem eq_hyphen_or_mem_of_mem {c : Char} (h : c ∈ hyphenate ns cs) : c = '-' ∨ c ∈ cs := by
  induction ns, cs using hyphenate.induct with
  | case1 cs => exact absurd h List.not_mem_nil
  | case2 n cs => exact .inr (List.mem_of_mem_take h)
  | case3 n ns cs hns ih =>
    rw [hyphenate_cons n hns, List.mem_append, List.mem_cons] at h
    rcases h with h | h | h
    · exact .inr (List.mem_of_mem_take h)
    · exact .inl h
    · exact (ih h).imp_right List.mem_of_mem_drop

theorem length_hyphenate (hns : ns ≠ []) (hcs : cs.length = ns.sum) :
    (hyphenate ns cs).length + 1 = cs.length + ns.length := by
  induction ns, cs using hyphenate.induct with
  | case1 cs => exact absurd rfl hns
  | case2 n cs =>
    rw [List.sum_singleton] at hcs
    rw [hyphenate, List.length_take, List.length_singleton]
    omega
  | case3 n ns cs hrest ih =>
    rw [List.sum_cons] at hcs
    have hdrop : (cs.drop n).length = ns.sum := by rw [List.length_drop]; omega
    have hlength := ih hrest hdrop
    rw [hyphenate_cons n hrest, List.length_append, List.length_cons, List.length_take,
      List.length_cons]
    omega

/-- **Joining undoes cutting.** -/
theorem joinGroups?_hyphenate (hns : ns ≠ []) (hcs : cs.length = ns.sum) :
    joinGroups? ns (hyphenate ns cs) = some cs := by
  induction ns, cs using hyphenate.induct with
  | case1 cs => exact absurd rfl hns
  | case2 n cs =>
    rw [List.sum_singleton] at hcs
    rw [hyphenate, List.take_of_length_le (by omega), joinGroups?, if_pos hcs]
  | case3 n ns cs hrest ih =>
    rw [List.sum_cons] at hcs
    have hdrop : (cs.drop n).length = ns.sum := by rw [List.length_drop]; omega
    have htake : (cs.take n).length = n := by rw [List.length_take]; omega
    rw [hyphenate_cons n hrest, joinGroups?]
    · rw [List.drop_left' htake, List.take_left' htake]
      simp only [ih hrest hdrop, Option.map_some, List.take_append_drop]
    · exact hrest

/-! ### The written form -/

variable (g : Guid)

theorem length_hexBytes : (Text.hexBytes g.bytes).length = groups.sum := by
  rw [Text.length_hexBytes, g.length_bytes]
  rfl

theorem length_chars : g.chars.length = 36 := by
  have hlength := length_hyphenate (by decide : groups ≠ []) g.length_hexBytes
  rw [g.length_hexBytes] at hlength
  exact Nat.succ.inj hlength

theorem ofChars?_chars : ofChars? g.chars = some g := by
  have hdigits : ofDigits? (Text.hexBytes g.bytes) = some g := by
    rw [ofDigits?, Text.readHexBytes?_hexBytes, Option.bind_some, ofBytes?, dif_pos g.length_bytes]
  have hgroups : ofHyphenated? g.chars = some g := by
    rw [ofHyphenated?, chars, joinGroups?_hyphenate (by decide) g.length_hexBytes,
      Option.bind_some, hdigits]
  rw [ofChars?, g.length_chars, if_neg (by decide), if_pos rfl, hgroups]

theorem trimmed_text : Text.Trimmed g.text := by
  refine Text.trimmed_of_forall fun c hc => Text.isBlank_eq_false_of_visible ?_
  rw [text, String.toList_ofList] at hc
  rcases eq_hyphen_or_mem_of_mem hc with rfl | hc
  · decide
  · obtain ⟨n, rfl⟩ := Text.exists_hexDigit_of_mem hc
    exact Text.visible_hexDigit n

/-- **Reading undoes writing**, also where blanks at the ends are taken off first. -/
theorem read?_text : read? (Text.trim g.text) = some g := by
  rw [Text.trim_eq_self_iff.2 g.trimmed_text, read?, text, String.toList_ofList, ofChars?_chars]

theorem ofBytes?_bytes : ofBytes? g.bytes = some g := dif_pos g.length_bytes

end Guid

end RowMapping
