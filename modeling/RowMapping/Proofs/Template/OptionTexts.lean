import Mathlib.Data.List.Basic
import Mathlib.Data.List.Induction
import RowMapping.Proofs.Template.OptionSegments

/-!
# Option texts

An option text sets options one after the other, from the default on.  It can be written in many
ways: in any order, with blanks around segments, keys and values, with blank segments, and with any
spelling of the values.  Whatever is written is read back, and a text is refused just where one of
its segments has a fault.

* `Options.read_written`: what is written sets the options in its order;
* `Options.get_foldl_assign`: the last setting of an option counts;
* `Options.exists_read_eq_error_iff`: the texts that are refused;
* `Options.read_exact`: all of it.
-/

namespace RowMapping

/-- The setting can be written into an option text. -/
def Setting.Writable : Setting → Prop
  | separator text | emptyList text => Text.Trimmed text ∧ ';' ∉ text.toList
  | paddingThreshold length => length < 2 ^ (64 : Nat)
  | padLists _ | legacyMarkers _ | literalTokens _ => True

instance : DecidablePred Setting.Writable
  | .separator text | .emptyList text =>
    inferInstanceAs (Decidable (Text.Trimmed text ∧ ';' ∉ text.toList))
  | .paddingThreshold length => inferInstanceAs (Decidable (length < 2 ^ (64 : Nat)))
  | .padLists _ | .legacyMarkers _ | .literalTokens _ => inferInstanceAs (Decidable True)

namespace Options

/-! ### Written texts -/

/-- A text of blanks, or none at all. -/
abbrev Blanks : Type := { s : String // Text.Blank s }

/-- A setting as it is written, with a spelling of its value and with the blanks around the key and
around the value. -/
structure Entry where
  /-- What is written. -/
  setting : Setting
  /-- The spelling of the value. -/
  value : String
  spelled : setting.Spelled value
  writable : setting.Writable
  /-- The blanks in front of the key. -/
  beforeKey : Blanks
  /-- The blanks behind the key. -/
  afterKey : Blanks
  /-- The blanks in front of the value. -/
  beforeValue : Blanks
  /-- The blanks behind the value. -/
  afterValue : Blanks

/-- The text of an entry. -/
def Entry.text (e : Entry) : String :=
  (e.beforeKey.val ++ e.setting.key.text ++ e.afterKey.val) ++ "=" ++
    (e.beforeValue.val ++ e.value ++ e.afterValue.val)

/-- An entry without blanks. -/
def Entry.tight {setting : Setting} {value : String} (spelled : setting.Spelled value)
    (writable : setting.Writable) : Entry :=
  ⟨setting, value, spelled, writable, ⟨"", rfl⟩, ⟨"", rfl⟩, ⟨"", rfl⟩, ⟨"", rfl⟩⟩

/-- A segment as it is written. -/
inductive Segment where
  /-- A blank segment. -/
  | blank (blanks : Blanks)
  /-- A segment that sets an option. -/
  | entry (e : Entry)

namespace Segment

/-- The text of a segment. -/
def text : Segment → String
  | blank blanks => blanks.val
  | entry e => e.text

/-- What a segment sets. -/
def setting? : Segment → Option Setting
  | blank _ => none
  | entry e => some e.setting

end Segment

/-- An option text of these segments. -/
def written (segments : List Segment) : String :=
  String.intercalate ";" (segments.map Segment.text)

/-! ### Characters of what is written -/

section Characters

variable {s : String} {c : Char}

theorem notMem_of_blank (h : Text.Blank s) (hc : Text.isBlank c = false) : c ∉ s.toList :=
  fun hmem => Bool.false_ne_true (hc.symm.trans (List.all_eq_true.1 h c hmem))

theorem trimmed_key (key : OptionKey) : Text.Trimmed key.text := by
  cases key <;> decide

theorem equals_notMem_key (key : OptionKey) : '=' ∉ key.text.toList := by
  cases key <;> decide

theorem semicolon_notMem_key (key : OptionKey) : ';' ∉ key.text.toList := by
  cases key <;> decide

theorem trimmed_of_isWord {on : Bool} (h : Setting.IsWord on s) : Text.Trimmed s := by
  obtain ⟨word, hword, hsame⟩ := h
  have hwords : ∀ word ∈ Setting.words on, Text.Trimmed word := by cases on <;> decide
  exact (Text.trimmed_iff_of_sameName hsame).1 (hwords word hword)

theorem semicolon_notMem_of_isWord {on : Bool} (h : Setting.IsWord on s) : ';' ∉ s.toList := by
  obtain ⟨word, hword, hsame⟩ := h
  have hwords : ∀ word ∈ Setting.words on, ';' ∉ Text.fold word := by cases on <;> decide
  intro hmem
  have hfold : ';' ∈ Text.fold s := List.mem_map_of_mem (f := Char.toLower) hmem
  exact hwords word hword (Text.sameName_iff.1 hsame ▸ hfold)

theorem trimmed_of_isNumeral {n : Nat} (h : Text.IsNumeral n s) :
    Text.Trimmed s ∧ ';' ∉ s.toList := by
  refine ⟨Text.trimmed_of_forall fun c hc => ?_, fun hmem => ?_⟩
  · rcases h.isDigit_or_eq_plus c hc with hdigit | rfl
    · have hbounds := Text.isDigit_iff.1 hdigit
      exact Text.isBlank_eq_false_of_visible (by omega)
    · rfl
  · rcases h.isDigit_or_eq_plus _ hmem with hdigit | hplus
    · cases hdigit
    · cases hplus

/-- **The spelling of a value** has no blanks at its ends and no semicolon. -/
theorem trimmed_of_spelled {setting : Setting} (hspelled : setting.Spelled s)
    (hwritable : setting.Writable) : Text.Trimmed s ∧ ';' ∉ s.toList := by
  cases setting with
  | separator text | emptyList text =>
    cases hspelled
    exact hwritable
  | paddingThreshold n => exact trimmed_of_isNumeral hspelled.1
  | padLists on | legacyMarkers on | literalTokens on =>
    exact ⟨trimmed_of_isWord hspelled, semicolon_notMem_of_isWord hspelled⟩

end Characters

/-! ### Reading what is written -/

theorem addSegment_entry (e : Entry) (o : Options) :
    addSegment o e.text.toList = .ok (o.assign e.setting) := by
  have hname : '=' ∉ (e.beforeKey.val ++ e.setting.key.text ++ e.afterKey.val).toList := by
    simp only [String.toList_append, List.mem_append, not_or]
    exact ⟨⟨notMem_of_blank e.beforeKey.2 rfl, equals_notMem_key _⟩,
      notMem_of_blank e.afterKey.2 rfl⟩
  rw [Entry.text, addSegment_pair hname, Text.trim_append e.beforeKey.2 e.afterKey.2,
    Text.trim_append e.beforeValue.2 e.afterValue.2, Text.trim_eq_self_iff.2 (trimmed_key _),
    Text.trim_eq_self_iff.2 (trimmed_of_spelled e.spelled e.writable).1]
  exact set_of_spelled e.spelled o

theorem semicolon_notMem_text (segment : Segment) : ';' ∉ segment.text.toList := by
  cases segment with
  | blank blanks => exact notMem_of_blank blanks.2 rfl
  | entry e =>
    simp only [Segment.text, Entry.text, String.toList_append, List.mem_append, not_or]
    exact ⟨⟨⟨⟨notMem_of_blank e.beforeKey.2 rfl, semicolon_notMem_key _⟩,
      notMem_of_blank e.afterKey.2 rfl⟩, by decide⟩,
      ⟨notMem_of_blank e.beforeValue.2 rfl, (trimmed_of_spelled e.spelled e.writable).2⟩,
      notMem_of_blank e.afterValue.2 rfl⟩

theorem foldlM_addSegment (segments : List Segment) (o : Options) :
    (segments.map fun segment => segment.text.toList).foldlM addSegment o =
      .ok ((segments.filterMap Segment.setting?).foldl assign o) := by
  induction segments generalizing o with
  | nil => rfl
  | cons segment segments ih =>
    rw [List.map_cons, List.foldlM_cons]
    cases segment with
    | blank blanks =>
      rw [Segment.text, addSegment_of_blank o blanks.2]
      exact ih o
    | entry e =>
      rw [Segment.text, addSegment_entry e o]
      exact ih _

/-- **What is written** sets the options in its order. -/
theorem read_written (segments : List Segment) :
    read (written segments) = .ok ((segments.filterMap Segment.setting?).foldl assign default) := by
  rw [read, splitAll_eq_splitOn, written, String.toList_intercalate, List.map_map]
  by_cases hnil : segments = []
  · rw [hnil]
    rfl
  · have hsemicolon : ∀ cs ∈ segments.map (String.toList ∘ Segment.text), ';' ∉ cs := by
      rintro cs hcs hmem
      obtain ⟨segment, -, rfl⟩ := List.mem_map.1 hcs
      exact semicolon_notMem_text segment hmem
    have hsplit := List.splitOn_intercalate ';' hsemicolon (by simpa using hnil)
    rw [← foldlM_addSegment]
    exact congrArg (List.foldlM addSegment default) hsplit

/-! ### What is set -/

variable {o o' : Options} {key : OptionKey}

theorem key_get (o : Options) (key : OptionKey) : (o.get key).key = key := by
  cases key <;> rfl

theorem ext_get (h : ∀ key, o.get key = o'.get key) : o = o' := by
  obtain ⟨separator, emptyList, ⟨padLists, legacyMarkers, literalTokens⟩, threshold⟩ := o
  obtain ⟨separator', emptyList', ⟨padLists', legacyMarkers', literalTokens'⟩, threshold'⟩ := o'
  cases h .separator
  cases h .emptyList
  cases h .paddingThreshold
  cases h .padLists
  cases h .legacyMarkers
  cases h .literalTokens
  rfl

theorem get_assign (o : Options) (setting : Setting) (key : OptionKey) :
    (o.assign setting).get key = if setting.key = key then setting else o.get key := by
  cases setting <;> cases key <;> rfl

/-- The last of the settings of an option. -/
def last? (settings : List Setting) (key : OptionKey) : Option Setting :=
  settings.reverse.find? fun setting => setting.key == key

theorem last?_concat (settings : List Setting) (setting : Setting) (key : OptionKey) :
    last? (settings ++ [setting]) key =
      if setting.key = key then some setting else last? settings key := by
  rw [last?, List.reverse_append, List.reverse_singleton, List.singleton_append, List.find?_cons]
  by_cases hkey : setting.key = key
  · rw [beq_iff_eq.2 hkey, if_pos hkey]
  · rw [beq_eq_false_iff_ne.2 hkey, if_neg hkey, last?]

/-- **The last setting of an option counts**, and an option that is not set stays as it is. -/
theorem get_foldl_assign (settings : List Setting) (o : Options) (key : OptionKey) :
    (settings.foldl assign o).get key = (last? settings key).getD (o.get key) := by
  induction settings using List.reverseRecOn with
  | nil => rfl
  | append_singleton settings setting ih =>
    rw [List.foldl_concat, get_assign, ih, last?_concat]
    split <;> rfl

/-- What sets every option as in `o`, in any order, makes the options `o`. -/
theorem foldl_assign_of_perm {settings : List Setting}
    (h : settings.Perm (OptionKey.all.map o.get)) : settings.foldl assign o' = o := by
  refine ext_get fun key => ?_
  have hmem : o.get key ∈ settings.reverse := by
    refine List.mem_reverse.2 (h.mem_iff.2 (List.mem_map_of_mem ?_))
    cases key <;> decide
  rw [get_foldl_assign]
  cases hlast : last? settings key with
  | none =>
    have hnone := List.find?_eq_none.1 hlast _ hmem
    rw [key_get, beq_self_eq_true] at hnone
    exact absurd rfl hnone
  | some setting =>
    obtain ⟨other, -, rfl⟩ :=
      List.mem_map.1 (h.mem_iff.1 (List.mem_reverse.1 (List.mem_of_find?_eq_some hlast)))
    have hkey := List.find?_some hlast
    rw [key_get, beq_iff_eq] at hkey
    rw [hkey, Option.getD_some]

/-! ### Everything can be written -/

theorem exists_spelled {setting : Setting} (h : setting.Writable) :
    ∃ value, setting.Spelled value := by
  have hword (on : Bool) : ∃ value, Setting.IsWord on value := by
    cases on
    · exact ⟨"false", "false", by decide, by decide⟩
    · exact ⟨"true", "true", by decide, by decide⟩
  cases setting with
  | separator text | emptyList text => exact ⟨text, rfl⟩
  | paddingThreshold n => exact ⟨Text.natText n, Text.isNumeral_natText n, h⟩
  | padLists on | legacyMarkers on | literalTokens on => exact hword on

/-- **Everything can be written**, in any order. -/
theorem exists_written (settings : List Setting) (h : ∀ setting ∈ settings, setting.Writable) :
    ∃ segments : List Segment, segments.filterMap Segment.setting? = settings := by
  induction settings with
  | nil => exact ⟨[], rfl⟩
  | cons setting settings ih =>
    obtain ⟨hhead, htail⟩ := List.forall_mem_cons.1 h
    obtain ⟨segments, hsegments⟩ := ih htail
    obtain ⟨value, hvalue⟩ := exists_spelled hhead
    exact ⟨.entry (.tight hvalue hhead) :: segments, congrArg (setting :: ·) hsegments⟩

/-! ### Texts that are refused -/

/-- The segments of a text. -/
def segments (s : String) : List String := (s.toList.splitOn ';').map String.ofList

theorem read_eq (s : String) :
    read s = (segments s).foldlM (fun o segment => addSegment o segment.toList) default := by
  rw [read, splitAll_eq_splitOn, segments, List.foldlM_map]
  simp only [String.toList_ofList]

theorem exists_foldlM_eq_ok {texts : List String} (h : ∀ segment ∈ texts, ¬Faulty segment)
    (o : Options) :
    ∃ o', texts.foldlM (fun o segment => addSegment o segment.toList) o = .ok o' := by
  induction texts generalizing o with
  | nil => exact ⟨o, rfl⟩
  | cons segment texts ih =>
    obtain ⟨hhead, htail⟩ := List.forall_mem_cons.1 h
    obtain ⟨o₁, ho₁⟩ := exists_addSegment_eq hhead o
    rw [List.foldlM_cons, ho₁]
    exact ih htail o₁

theorem exists_foldlM_eq_error {texts : List String} (h : ∃ segment ∈ texts, Faulty segment)
    (o : Options) :
    ∃ fault, texts.foldlM (fun o segment => addSegment o segment.toList) o =
      .error (.input fault) := by
  induction texts generalizing o with
  | nil => exact absurd h (by simp)
  | cons segment texts ih =>
    rw [List.foldlM_cons]
    by_cases hhead : Faulty segment
    · obtain ⟨fault, hfault⟩ := hhead.addSegment_eq o
      exact ⟨fault, by rw [hfault]; rfl⟩
    · obtain ⟨o₁, ho₁⟩ := exists_addSegment_eq hhead o
      obtain ⟨bad, hmem, hbad⟩ := h
      rcases List.mem_cons.1 hmem with rfl | hmem
      · exact absurd hbad hhead
      · rw [ho₁]
        exact ih ⟨bad, hmem, hbad⟩ o₁

theorem exists_read_eq_ok {s : String} (h : ¬∃ segment ∈ segments s, Faulty segment) :
    ∃ o, read s = .ok o := by
  rw [read_eq]
  exact exists_foldlM_eq_ok (fun segment hmem hfaulty => h ⟨segment, hmem, hfaulty⟩) default

/-- **A text is refused** just where one of its segments has a fault. -/
theorem exists_read_eq_error_iff (s : String) :
    (∃ fault, read s = .error (.input fault)) ↔ ∃ segment ∈ segments s, Faulty segment := by
  constructor
  · rintro ⟨fault, hfault⟩
    by_contra hnone
    obtain ⟨o, ho⟩ := exists_read_eq_ok hnone
    cases hfault.symm.trans ho
  · intro h
    rw [read_eq]
    exact exists_foldlM_eq_error h default

theorem exists_input_of_read_eq_error {s : String} {e : Error} (h : read s = .error e) :
    ∃ fault, e = .input fault := by
  by_cases hfaulty : ∃ segment ∈ segments s, Faulty segment
  · obtain ⟨fault, hfault⟩ := (exists_read_eq_error_iff s).2 hfaulty
    exact ⟨fault, Except.error.inj (h.symm.trans hfault)⟩
  · obtain ⟨o, ho⟩ := exists_read_eq_ok hfaulty
    cases h.symm.trans ho

/-! ### Exact reading -/

/-- **Option texts are read exactly.**  A text that is written, with any blanks and in any spelling,
sets each of its options as the last of its segments for it says, and leaves the others at their
default; so options whose settings are written in any order are read back.  Every list of settings
that can stand in a text can be written.  Any text is refused, for its input, just where one of its
segments has a fault, and there is no other reason to refuse it. -/
theorem read_exact :
    (∀ segments : List Segment, ∃ o, read (written segments) = .ok o ∧ ∀ key,
      o.get key = (last? (segments.filterMap Segment.setting?) key).getD (default.get key)) ∧
    (∀ (o : Options) (segments : List Segment),
      (segments.filterMap Segment.setting?).Perm (OptionKey.all.map o.get) →
        read (written segments) = .ok o) ∧
    (∀ settings : List Setting, (∀ setting ∈ settings, setting.Writable) →
      ∃ segments : List Segment, segments.filterMap Segment.setting? = settings) ∧
    (∀ s, (∃ fault, read s = .error (.input fault)) ↔ ∃ segment ∈ segments s, Faulty segment) ∧
    ∀ s e, read s = .error e → ∃ fault, e = .input fault := by
  refine ⟨fun segments => ⟨_, read_written segments, fun key => ?_⟩, fun o segments hperm => ?_,
    exists_written, exists_read_eq_error_iff, fun _ _ => exists_input_of_read_eq_error⟩
  · exact get_foldl_assign _ default key
  · rw [read_written, foldl_assign_of_perm hperm]

/-- All six options in an order of their own, with blanks and a blank segment, and a text with a
word that is not for a truth value. -/
theorem read_exact_of_spaced :
    read (" pad_lists =YES;list_separator= a=b;\t;literal_tokens=oN;empty_list_sql=;" ++
        "list_padding_threshold=+007;legacy_markers=0") =
          .ok ⟨"a=b", "", ⟨true, false, true⟩, 7⟩ ∧
      ∃ fault, read "pad_lists=maybe" = .error (.input fault) := by
  obtain ⟨-, hall, -, hrefused, -⟩ := read_exact
  let segments : List Segment :=
    [.entry ⟨.padLists true, "YES", ⟨"yes", by decide, by decide⟩, by decide, ⟨" ", by decide⟩,
        ⟨" ", by decide⟩, ⟨"", rfl⟩, ⟨"", rfl⟩⟩,
      .entry ⟨.separator "a=b", "a=b", rfl, by decide, ⟨"", rfl⟩, ⟨"", rfl⟩, ⟨" ", by decide⟩,
        ⟨"", rfl⟩⟩,
      .blank ⟨"\t", by decide⟩,
      .entry (@Entry.tight (.literalTokens true) "oN" ⟨"on", by decide, by decide⟩ (by decide)),
      .entry (@Entry.tight (.emptyList "") "" rfl (by decide)),
      .entry (@Entry.tight (.paddingThreshold 7) "+007"
        ⟨⟨['0', '0', '7'], ⟨by decide, by simp⟩, by decide, .inr rfl⟩, by decide⟩ (by decide)),
      .entry (@Entry.tight (.legacyMarkers false) "0" ⟨"0", by decide, by decide⟩ (by decide))]
  have hperm : (segments.filterMap Segment.setting?).Perm
      (OptionKey.all.map (⟨"a=b", "", ⟨true, false, true⟩, 7⟩ : Options).get) := by
    decide +kernel
  have htext : written segments =
      " pad_lists =YES;list_separator= a=b;\t;literal_tokens=oN;empty_list_sql=;" ++
        "list_padding_threshold=+007;legacy_markers=0" := by
    decide +kernel
  have hmaybe : ¬OptionKey.padLists.Accepts "maybe" := by
    rintro ⟨setting, hkey, hspelled⟩
    cases setting with
    | padLists on => cases readBool?_eq_some_iff.2 hspelled
    | separator | emptyList | paddingThreshold | legacyMarkers | literalTokens => cases hkey
  have hfaulty : Faulty "pad_lists=maybe" :=
    .value .padLists "pad_lists" "maybe" rfl (by decide) (by decide) hmaybe
  exact ⟨htext ▸ hall _ segments hperm, (hrefused _).2 ⟨_, by decide +kernel, hfaulty⟩⟩

end Options

end RowMapping
