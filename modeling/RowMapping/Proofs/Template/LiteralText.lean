import RowMapping.Proofs.Laws
import RowMapping.Proofs.Outcome
import RowMapping.Template.Rendering

/-!
# Texts of literal tokens

The text of a value in a statement is a number, with or without a point and a minus sign, or `NULL`,
or it stands between single quotes, with none between them.

* `Template.isLiteral_of_literalText`: this holds for every value that has a text.
-/

namespace RowMapping

namespace Template

open Text (Digits)

/-- The character may come last in a number or in `NULL`. -/
def isEnd (c : Char) : Bool := c.isDigit || c == 'L'

/-- The text of a number without a sign, or `NULL`. -/
structure Plain (cs : List Char) : Prop where
  mem : ∀ c ∈ cs, isWord c = true ∨ c = '.'
  first : cs.head?.any isWord = true
  last : cs.getLast?.any isEnd = true

/-- The characters of a literal text. -/
inductive IsLiteral : List Char → Prop where
  | quoted {body : List Char} (h : '\x27' ∉ body) : IsLiteral ('\x27' :: (body ++ ['\x27']))
  | plain {cs : List Char} (h : Plain cs) : IsLiteral cs
  | negative {cs : List Char} (h : Plain cs) : IsLiteral ('-' :: cs)

/-! ### Numbers -/

theorem isWord_of_isDigit {c : Char} (h : c.isDigit = true) : isWord c = true := by
  simp only [isWord, Char.isAlphanum, h, Bool.or_true, Bool.true_or]

theorem isEnd_of_isDigit {c : Char} (h : c.isDigit = true) : isEnd c = true := by
  rw [isEnd, h, Bool.true_or]

theorem any_head?_of_digits {cs : List Char} (h : Digits cs) (rest : List Char) :
    (cs ++ rest).head?.any isWord = true := by
  obtain ⟨c, cs, rfl⟩ := List.exists_cons_of_ne_nil h.1
  exact isWord_of_isDigit (h.2 c List.mem_cons_self)

theorem any_getLast?_of_digits {cs : List Char} (h : Digits cs) (front : List Char) :
    (front ++ cs).getLast?.any isEnd = true := by
  rw [List.getLast?_append_of_ne_nil front h.1, List.getLast?_eq_some_getLast h.1]
  exact isEnd_of_isDigit (h.2 _ (List.getLast_mem h.1))

theorem plain_of_digits {cs : List Char} (h : Digits cs) : Plain cs where
  mem c hc := .inl (isWord_of_isDigit (h.2 c hc))
  first := by simpa only [List.append_nil] using any_head?_of_digits h []
  last := any_getLast?_of_digits h []

theorem plain_of_point {whole fraction : List Char} (hwhole : Digits whole)
    (hfraction : Digits fraction) : Plain (whole ++ '.' :: fraction) where
  mem c hc := by
    rcases List.mem_append.1 hc with hc | hc
    · exact .inl (isWord_of_isDigit (hwhole.2 c hc))
    · rcases List.mem_cons.1 hc with rfl | hc
      · exact .inr rfl
      · exact .inl (isWord_of_isDigit (hfraction.2 c hc))
  first := any_head?_of_digits hwhole _
  last := by
    rw [List.append_cons]
    exact any_getLast?_of_digits hfraction (whole ++ ['.'])

theorem plain_null : Plain ['N', 'U', 'L', 'L'] where
  mem c hc := by
    simp only [List.mem_cons, List.not_mem_nil, or_false] at hc
    rcases hc with rfl | rfl | rfl | rfl <;> exact .inl rfl
  first := rfl
  last := rfl

theorem isLiteral_signed {s : String} (negative : Bool) (h : Plain s.toList) :
    IsLiteral (if negative then "-" ++ s else s).toList := by
  cases negative with
  | false => exact .plain h
  | true =>
    rw [if_pos rfl, String.toList_append]
    exact .negative h

theorem isLiteral_natText (n : Nat) : IsLiteral (Text.natText n).toList :=
  .plain (plain_of_digits (Text.digits_natText n))

theorem isLiteral_intText (n : Int) : IsLiteral (Text.intText n).toList := by
  cases n with
  | ofNat n => exact isLiteral_natText n
  | negSucc n =>
    rw [Text.intText, String.toList_append]
    exact .negative (plain_of_digits (Text.digits_natText (n + 1)))

theorem plain_scientific (x : Scientific) : Plain x.text.toList := by
  unfold Scientific.text
  split
  · exact plain_of_digits (Text.digits_natText _)
  · rw [String.toList_append, String.toList_append, List.append_assoc]
    exact plain_of_point (Text.digits_natText _) (Text.digits_zeroPadded _ _)

theorem isLiteral_binary {f : Format} {x : Binary f} (h : x.isFinite = true) :
    IsLiteral x.text.toList := by
  have hfinite := of_decide_eq_true h
  have hfinite {negative : Bool} {significand : Nat} {exponent : Int}
      (h : x.datum = .finite negative significand exponent) : IsLiteral x.text.toList := by
    simp only [Binary.text, h]
    refine isLiteral_signed negative ?_
    split
    · exact plain_of_digits (Text.digits_natText 0)
    · exact plain_scientific _
  cases hdatum : x.datum with
  | finite => exact hfinite hdatum
  | nan | infinite =>
    simp only [Binary.datum] at hdatum
    grind

theorem isLiteral_decimal (x : Decimal) : IsLiteral x.text.toList := by
  obtain ⟨cs, htext, hcs⟩ := Decimal.laws.toList_text x
  have hplain : Plain cs := by
    rcases hcs with hcs | ⟨whole, fraction, hwhole, hfraction, rfl⟩
    · exact plain_of_digits hcs
    · exact plain_of_point hwhole hfraction
  rw [htext]
  split
  · exact .negative hplain
  · exact .plain hplain

/-! ### Quoted texts -/

theorem quote_notMem_guid (g : Guid) : '\x27' ∉ g.text.toList := by
  intro hmem
  rcases Guid.laws.mem_text g _ hmem with h | ⟨n, hn⟩
  · cases h
  · exact Nat.digitChar_ne '\x27' rfl hn.symm

theorem quote_notMem_dateTime (t : DateTime) : '\x27' ∉ t.text.toList := fun hmem => by
  cases DateTime.laws.mem_text t _ hmem

theorem isLiteral_quoted {s : String} (h : '\x27' ∉ s.toList) :
    IsLiteral ("'" ++ s ++ "'").toList := by
  rw [String.toList_append, String.toList_append]
  exact .quoted h

/-- **The text of a value** is a number or `NULL`, or stands between quotes. -/
theorem isLiteral_of_literalText {name : String} {v : Value} {s : String}
    (h : literalText name v = .ok s) : IsLiteral s.toList := by
  cases v with
  | null => cases h; exact .plain plain_null
  | bool b =>
    cases h
    cases b
    · exact isLiteral_natText 0
    · exact isLiteral_natText 1
  | signed n => cases h; exact isLiteral_intText _
  | unsigned n => cases h; exact isLiteral_natText _
  | float x | double x =>
    simp only [literalText] at h
    split at h
    · cases h
      exact isLiteral_binary ‹_›
    · cases h
  | decimal x => cases h; exact isLiteral_decimal x
  | guid g => cases h; exact isLiteral_quoted (quote_notMem_guid g)
  | dateTime t => cases h; exact isLiteral_quoted (quote_notMem_dateTime t)
  | text | bytes => cases h

end Template

end RowMapping
