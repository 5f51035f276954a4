import RowMapping.Proofs.Template.Cutting
import RowMapping.Proofs.Text.Numerals
import RowMapping.Proofs.Text.Trimming
import RowMapping.Template.Options

/-!
# Segments of option texts

A segment of an option text is blank, or it has a key and a value with an equals sign between them.
What stands before the first equals sign is the key; blanks around it and around the value do not
count.  A value says how an option is set if it is spelled as the option wants.

* `Options.splitAll_eq_splitOn`: the segments are the parts between the semicolons;
* `Options.set_of_spelled`, `Options.set_of_not_accepts`: a value sets an option, or the option
  does not accept it;
* `Options.Faulty.addSegment_eq`, `Options.exists_addSegment_eq`: there is a fault in a segment, or
  it is read.
-/

namespace RowMapping

namespace Options

/-! ### Splitting -/

theorem splitAll_eq_splitOn (c : Char) (cs : List Char) : splitAll c cs = cs.splitOn c := by
  induction cs with
  | nil => rfl
  | cons d ds ih =>
    have hcons : (d :: ds).splitOn c =
        if d == c then [] :: ds.splitOn c else (ds.splitOn c).modifyHead (d :: ·) :=
      List.splitOnP_cons_eq_if_modifyHead ..
    obtain ⟨part, parts, hparts⟩ := List.exists_cons_of_ne_nil (List.splitOn_ne_nil c ds)
    rw [splitAll, ih, hcons, hparts]
    by_cases hd : d = c <;> simp [hd]

variable {c : Char} {cs front : List Char}

theorem splitOnce?_append (h : c ∉ front) (back : List Char) :
    splitOnce? c (front ++ c :: back) = some (front, back) := by
  have hfront : ∀ d ∈ front, (d != c) = true := fun d hd => bne_iff_ne.2 fun hdc => h (hdc ▸ hd)
  have hback : (c :: back).head?.any (· != c) = false := bne_self_eq_false c
  rw [splitOnce?, Template.dropWhile_append_rest hfront hback,
    Template.takeWhile_append_rest hfront hback]

theorem splitOnce?_of_notMem (h : c ∉ cs) : splitOnce? c cs = none := by
  have hnone : cs.dropWhile (· != c) = [] :=
    List.dropWhile_eq_nil_iff.2 fun d hd => bne_iff_ne.2 fun hdc => h (hdc ▸ hd)
  rw [splitOnce?, hnone]

theorem addSegment_of_blank (o : Options) (h : cs.all Text.isBlank = true) :
    addSegment o cs = .ok o := by
  rw [addSegment, Text.trimChars_eq_nil_iff.2 h]
  rfl

theorem addSegment_append (o : Options) (h : '=' ∉ front) (back : List Char) :
    addSegment o (front ++ '=' :: back) =
      o.set (String.ofList (Text.trimChars front)) (String.ofList (Text.trimChars back)) := by
  have hfront : '=' ∉ Text.trimFront front := fun hmem => h (List.dropWhile_subset _ hmem)
  have hne : (Text.trimFront front ++ '=' :: Text.trimBack back).isEmpty = false := by simp
  rw [addSegment, Text.trimChars_append_cons rfl]
  simp only [hne, splitOnce?_append hfront, Text.trimChars_trimFront, Text.trimChars_trimBack]
  rfl

theorem addSegment_of_notMem (o : Options) (hblank : ¬cs.all Text.isBlank = true) (h : '=' ∉ cs) :
    addSegment o cs = .error (.input (.expectedPair (String.ofList (Text.trimChars cs)))) := by
  have hne : (Text.trimChars cs).isEmpty = false :=
    List.isEmpty_eq_false_iff.2 fun hnil => hblank (Text.trimChars_eq_nil_iff.1 hnil)
  have hsplit := splitOnce?_of_notMem fun hmem => h (Text.trimChars_subset cs hmem)
  simp only [addSegment, hne, hsplit]
  rfl

end Options

/-! ### Settings -/

/-- What can be set by an option text. -/
inductive OptionKey where
  /-- The text between the placeholders of a list. -/
  | separator
  /-- The text for an empty list. -/
  | emptyList
  /-- The length from which lists are filled up. -/
  | paddingThreshold
  /-- Whether lists are filled up. -/
  | padLists
  /-- Whether a bare question mark is a placeholder. -/
  | legacyMarkers
  /-- Whether a name in braces is replaced by the text of its value. -/
  | literalTokens
  deriving DecidableEq

namespace OptionKey

/-- All keys. -/
def all : List OptionKey :=
  [separator, emptyList, paddingThreshold, padLists, legacyMarkers, literalTokens]

/-- The text of a key. -/
def text : OptionKey → String
  | separator => "list_separator"
  | emptyList => "empty_list_sql"
  | paddingThreshold => "list_padding_threshold"
  | padLists => "pad_lists"
  | legacyMarkers => "legacy_markers"
  | literalTokens => "literal_tokens"

end OptionKey

/-- One option with the value that it is set to. -/
inductive Setting where
  /-- The text between the placeholders of a list. -/
  | separator (text : String)
  /-- The text for an empty list. -/
  | emptyList (text : String)
  /-- The length from which lists are filled up. -/
  | paddingThreshold (length : Nat)
  /-- Whether lists are filled up. -/
  | padLists (on : Bool)
  /-- Whether a bare question mark is a placeholder. -/
  | legacyMarkers (on : Bool)
  /-- Whether a name in braces is replaced by the text of its value. -/
  | literalTokens (on : Bool)
  deriving DecidableEq

namespace Setting

/-- What is set. -/
def key : Setting → OptionKey
  | separator _ => .separator
  | emptyList _ => .emptyList
  | paddingThreshold _ => .paddingThreshold
  | padLists _ => .padLists
  | legacyMarkers _ => .legacyMarkers
  | literalTokens _ => .literalTokens

/-- The words for a truth value. -/
def words : Bool → List String
  | true => ["true", "1", "yes", "on"]
  | false => ["false", "0", "no", "off"]

/-- The text is a word for the truth value, in any case. -/
def IsWord (on : Bool) (value : String) : Prop := ∃ word ∈ words on, Text.sameName word value = true

/-- The value that an option is set to is spelled so. -/
def Spelled : Setting → String → Prop
  | separator text, value | emptyList text, value => value = text
  | paddingThreshold length, value => Text.IsNumeral length value ∧ length < 2 ^ (64 : Nat)
  | padLists on, value | legacyMarkers on, value | literalTokens on, value => IsWord on value

end Setting

/-- The option can be set to something that is spelled so. -/
def OptionKey.Accepts (key : OptionKey) (value : String) : Prop :=
  ∃ setting : Setting, setting.key = key ∧ setting.Spelled value

namespace Options

/-- How an option is set. -/
def get (o : Options) : OptionKey → Setting
  | .separator => .separator o.separator
  | .emptyList => .emptyList o.emptyList
  | .paddingThreshold => .paddingThreshold o.paddingThreshold
  | .padLists => .padLists o.flags.padLists
  | .legacyMarkers => .legacyMarkers o.flags.legacyMarkers
  | .literalTokens => .literalTokens o.flags.literalTokens

/-- The options with one of them set. -/
def assign (o : Options) : Setting → Options
  | .separator text => { o with separator := text }
  | .emptyList text => { o with emptyList := text }
  | .paddingThreshold length => { o with paddingThreshold := length }
  | .padLists on => { o with flags.padLists := on }
  | .legacyMarkers on => { o with flags.legacyMarkers := on }
  | .literalTokens on => { o with flags.literalTokens := on }

variable {o : Options} {key : OptionKey} {value : String}

theorem any_words_iff {on : Bool} :
    (Setting.words on).any (Text.sameName value) = true ↔ Setting.IsWord on value := by
  rw [List.any_eq_true, Setting.IsWord]
  exact exists_congr fun word => and_congr_right fun _ => by
    rw [Text.sameName_iff, Text.sameName_iff, eq_comm]

theorem not_isWord_false (h : Setting.IsWord true value) : ¬Setting.IsWord false value := by
  obtain ⟨yes, hyes, hsameyes⟩ := h
  rintro ⟨no, hno, hsameno⟩
  have hdistinct : ∀ a ∈ Setting.words true, ∀ b ∈ Setting.words false,
      Text.fold a ≠ Text.fold b := by
    decide
  exact hdistinct yes hyes no hno
    ((Text.sameName_iff.1 hsameyes).trans (Text.sameName_iff.1 hsameno).symm)

theorem readBool?_eq_some_iff {on : Bool} :
    readBool? value = some on ↔ Setting.IsWord on value := by
  constructor
  · intro h
    unfold readBool? at h
    split at h
    · rename_i htrue
      cases h
      exact any_words_iff.1 htrue
    · split at h
      · rename_i hfalse
        cases h
        exact any_words_iff.1 hfalse
      · cases h
  · intro h
    cases on with
    | true => exact if_pos (any_words_iff.2 h)
    | false =>
      have hnot := fun htrue => not_isWord_false (any_words_iff.1 htrue) h
      exact (if_neg hnot).trans (if_pos (any_words_iff.2 h))

theorem readBool_of_isWord {on : Bool} (h : Setting.IsWord on value) (name : String) :
    readBool name value = .ok on := by
  rw [readBool, readBool?_eq_some_iff.2 h]

theorem readBool_of_not_isWord (h : ∀ on, ¬Setting.IsWord on value) (name : String) :
    readBool name value = .error (.input (.invalidBoolean name value)) := by
  cases hread : readBool? value with
  | some on => exact absurd (readBool?_eq_some_iff.1 hread) (h on)
  | none => rw [readBool, hread]

/-- **A value sets an option** if it is spelled as the option wants. -/
theorem set_of_spelled {setting : Setting} (h : setting.Spelled value) (o : Options) :
    o.set setting.key.text value = .ok (o.assign setting) := by
  cases setting with
  | separator text | emptyList text =>
    cases h
    rfl
  | paddingThreshold n =>
    simp only [Setting.key, OptionKey.text, set, Text.readUnsigned_eq_ok_iff.2 h]
    rfl
  | padLists on | legacyMarkers on | literalTokens on =>
    simp only [Setting.key, OptionKey.text, set, readBool_of_isWord h]
    rfl

theorem set_of_not_accepts (h : ¬key.Accepts value) (o : Options) :
    ∃ fault, o.set key.text value = .error (.input fault) := by
  cases key with
  | separator => exact absurd ⟨.separator value, rfl, rfl⟩ h
  | emptyList => exact absurd ⟨.emptyList value, rfl, rfl⟩ h
  | paddingThreshold =>
    cases hread : Text.readUnsigned value with
    | ok n =>
      exact absurd ⟨.paddingThreshold n, rfl, Text.readUnsigned_eq_ok_iff.1 hread⟩ h
    | error fault =>
      refine ⟨.invalidThreshold value fault, ?_⟩
      simp only [OptionKey.text, set, hread]
  | padLists =>
    have hnone on (hword : Setting.IsWord on value) : False := h ⟨.padLists on, rfl, hword⟩
    exact ⟨_, congrArg (Except.map _) (readBool_of_not_isWord hnone OptionKey.padLists.text)⟩
  | legacyMarkers =>
    have hnone on (hword : Setting.IsWord on value) : False := h ⟨.legacyMarkers on, rfl, hword⟩
    exact ⟨_, congrArg (Except.map _) (readBool_of_not_isWord hnone OptionKey.legacyMarkers.text)⟩
  | literalTokens =>
    have hnone on (hword : Setting.IsWord on value) : False := h ⟨.literalTokens on, rfl, hword⟩
    exact ⟨_, congrArg (Except.map _) (readBool_of_not_isWord hnone OptionKey.literalTokens.text)⟩

theorem set_of_unknown {name : String} (h : ∀ key : OptionKey, key.text ≠ name) (o : Options) :
    o.set name value = .error (.input (.unknownOption name)) := by
  unfold set
  split
  · exact absurd rfl (h .separator)
  · exact absurd rfl (h .emptyList)
  · exact absurd rfl (h .paddingThreshold)
  · exact absurd rfl (h .padLists)
  · exact absurd rfl (h .legacyMarkers)
  · exact absurd rfl (h .literalTokens)
  · rfl

/-! ### Faults -/

/-- There is a fault in a segment: it is not blank and has no equals sign, or its key is unknown, or
the option does not accept its value. -/
inductive Faulty (segment : String) : Prop where
  | noEquals (hblank : ¬Text.Blank segment) (h : '=' ∉ segment.toList)
  | unknownKey (name value : String) (h : segment = name ++ "=" ++ value)
    (hname : '=' ∉ name.toList) (hunknown : ∀ key : OptionKey, key.text ≠ Text.trim name)
  | value (key : OptionKey) (name value : String) (h : segment = name ++ "=" ++ value)
    (hname : '=' ∉ name.toList) (hkey : key.text = Text.trim name)
    (hvalue : ¬key.Accepts (Text.trim value))

variable {name segment : String}

theorem addSegment_pair (h : '=' ∉ name.toList) (value : String) (o : Options) :
    addSegment o (name ++ "=" ++ value).toList = o.set (Text.trim name) (Text.trim value) := by
  have htext : (name ++ "=" ++ value).toList = name.toList ++ '=' :: value.toList := by
    rw [String.toList_append, String.toList_append, List.append_assoc]
    rfl
  rw [htext, addSegment_append o h]
  rfl

/-- **A segment with a fault** is refused. -/
theorem Faulty.addSegment_eq (h : Faulty segment) (o : Options) :
    ∃ fault, addSegment o segment.toList = .error (.input fault) := by
  cases h with
  | noEquals hblank h => exact ⟨_, addSegment_of_notMem o hblank h⟩
  | unknownKey name value h hname hunknown =>
    rw [h, addSegment_pair hname]
    exact ⟨_, set_of_unknown hunknown o⟩
  | value key name value h hname hkey hvalue =>
    rw [h, addSegment_pair hname, ← hkey]
    exact set_of_not_accepts hvalue o

/-- **A segment without a fault** is read. -/
theorem exists_addSegment_eq (h : ¬Faulty segment) (o : Options) :
    ∃ o', addSegment o segment.toList = .ok o' := by
  by_cases hblank : Text.Blank segment
  · exact ⟨o, addSegment_of_blank o hblank⟩
  · by_cases hequals : '=' ∈ segment.toList
    · obtain ⟨front, back, hsplit, hfront⟩ := List.eq_append_cons_of_mem hequals
      have hname : '=' ∉ (String.ofList front).toList := by rwa [String.toList_ofList]
      have hsegment : segment = String.ofList front ++ "=" ++ String.ofList back :=
        String.toList_inj.1 (by simp [hsplit])
      by_cases hknown : ∃ key : OptionKey, key.text = Text.trim (String.ofList front)
      · obtain ⟨key, hkey⟩ := hknown
        by_cases haccepts : key.Accepts (Text.trim (String.ofList back))
        · obtain ⟨setting, rfl, hspelled⟩ := haccepts
          rw [hsegment, addSegment_pair hname, ← hkey]
          exact ⟨_, set_of_spelled hspelled o⟩
        · exact absurd (.value key _ _ hsegment hname hkey haccepts) h
      · exact absurd (.unknownKey _ _ hsegment hname fun key hkey => hknown ⟨key, hkey⟩) h
    · exact absurd (.noEquals hblank hequals) h

end Options

end RowMapping
