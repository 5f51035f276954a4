import Mathlib.Order.Bounds.Defs
import RowMapping.Proofs.Template.Noninterference
import RowMapping.Proofs.Template.Refusals

/-!
# Lists that are filled up

Where lists are filled up, a list that is long enough is bound as if its last element were repeated
up to the next multiple of ten.  Lists of ten lengths so share one text, and a database that keeps
the plans of statements by their text has fewer of them to keep.

* `Filled`: what is bound for a list;
* `Params.FilledAlike`: parameters that a statement tells apart by the values it binds only;
* `Template.exists_render_of_filledAlike`: such parameters give the same text and the same names;
* `Template.render_filled`: both, for one list among the parameters of a template.

The threshold is any number.  At zero an empty list is long enough too, but the next multiple of ten
is then zero, and its text is shared with no other list.
-/

namespace RowMapping

/-! ### The length up to which a list is filled -/

namespace Part

variable {o : Options} {n : Nat}

theorem paddedLength_of_lt (h : n < o.paddingThreshold) : paddedLength o n = n := by
  rw [paddedLength, decide_eq_false (Nat.not_le.2 h), Bool.and_false, if_neg Bool.false_ne_true]

theorem paddedLength_of_le (hpad : o.flags.padLists = true) (h : o.paddingThreshold ≤ n) :
    paddedLength o n = (n + 9) / 10 * 10 := by
  rw [paddedLength, hpad, decide_eq_true h, Bool.and_true, if_pos rfl]

theorem isLeast_paddedLength (hpad : o.flags.padLists = true) (h : o.paddingThreshold ≤ n) :
    IsLeast {m | n ≤ m ∧ 10 ∣ m} (paddedLength o n) := by
  rw [paddedLength_of_le hpad h]
  constructor
  · exact ⟨by omega, Nat.dvd_mul_left 10 _⟩
  · rintro m ⟨hle, k, rfl⟩
    omega

end Part

/-! ### What is bound for a list -/

/-- The values that are bound for a list where lists are filled up from a length on. -/
structure Filled (threshold : Nat) (vs values : List Value) : Prop where
  /-- A shorter list is bound as it is. -/
  length_of_lt : vs.length < threshold → values.length = vs.length
  /-- Any other list is filled up to the next multiple of ten. -/
  isLeast_length : threshold ≤ vs.length → IsLeast {m | vs.length ≤ m ∧ 10 ∣ m} values.length
  /-- The list comes first, in its order. -/
  take_eq : values.take vs.length = vs
  /-- Only its last element follows. -/
  getLast?_eq : ∀ v ∈ values.drop vs.length, vs.getLast? = some v
  /-- No other values are bound than those of the list. -/
  mem_iff : ∀ v, v ∈ values ↔ v ∈ vs

theorem Part.padded_eq {vs : List Value} (hvs : vs ≠ []) (count : Nat) :
    padded vs count = vs ++ List.replicate (count - vs.length) (vs.getLast hvs) := by
  rw [padded, List.getLastD_eq_getLast?, List.getLast?_eq_some_getLast hvs, Option.getD_some]

theorem filled_padded {o : Options} {vs : List Value} (hpad : o.flags.padLists = true)
    (hvs : vs ≠ []) :
    Filled o.paddingThreshold vs (Part.padded vs (Part.paddedLength o vs.length)) := by
  have hlength : (Part.padded vs (Part.paddedLength o vs.length)).length =
      Part.paddedLength o vs.length := by
    rw [Part.length_padded, Nat.max_eq_right (Template.le_paddedLength o vs.length)]
  refine ⟨fun h => ?_, fun h => ?_, List.take_left, fun v hv => ?_, fun v => ?_⟩
  · rw [hlength, Part.paddedLength_of_lt h]
  · rw [hlength]
    exact Part.isLeast_paddedLength hpad h
  · rw [Part.padded_eq hvs, List.drop_left] at hv
    rw [List.eq_of_mem_replicate hv, List.getLast?_eq_some_getLast hvs]
  · rw [Part.padded_eq hvs, List.mem_append]
    refine or_iff_left_of_imp fun hv => ?_
    rw [List.eq_of_mem_replicate hv]
    exact List.getLast_mem hvs

theorem Token.bindings_of_list {p : Params} {o : Options} {token : Token} {vs : List Value}
    (hget : p.get? token.name = some (.list vs)) (hvs : vs ≠ []) :
    token.bindings p o = (List.range (Part.paddedLength o vs.length)).map fun i =>
      (elementName token.name i, vs.getD (min i (vs.length - 1)) .null) := by
  rw [bindings, hget]
  obtain ⟨v, vs, rfl⟩ := List.exists_cons_of_ne_nil hvs
  rfl

/-! ### Parameters that are filled alike -/

namespace Params

/-- A statement tells the two apart by the values it binds only: a name is bound to the same in
both, or to lists that are filled up to one length. -/
def FilledAlike (o : Options) (p q : Params) : Prop :=
  ∀ name, p.get? name = q.get? name ∨ ∃ vs ws, p.get? name = some (.list vs) ∧
    q.get? name = some (.list ws) ∧ vs ≠ [] ∧ ws ≠ [] ∧
    Part.paddedLength o vs.length = Part.paddedLength o ws.length

/-- The second has one list for another of the given name, and all else as the first. -/
def DifferIn (name : String) (vs ws : List Value) (p q : Params) : Prop :=
  ∃ front spelled back, Text.sameName spelled name = true ∧
    p.entries = front ++ (spelled, .list vs) :: back ∧
    q.entries = front ++ (spelled, .list ws) :: back

variable {o : Options} {p q : Params}

theorem DifferIn.filledAlike {name : String} {vs ws : List Value} (h : DifferIn name vs ws p q)
    (hvs : vs ≠ []) (hws : ws ≠ [])
    (hlength : Part.paddedLength o vs.length = Part.paddedLength o ws.length) :
    FilledAlike o p q := by
  obtain ⟨front, spelled, back, -, hp, hq⟩ := h
  intro other
  rw [get?, get?, hp, hq, List.find?_append, List.find?_append, List.find?_cons, List.find?_cons]
  -- the entry that is asked for is before the list, the list itself or behind it
  cases front.find? fun e => Text.sameName e.1 other with
  | some e => exact .inl rfl
  | none =>
    cases Text.sameName spelled other with
    | true => exact .inr ⟨vs, ws, rfl, rfl, hvs, hws, hlength⟩
    | false => exact .inl rfl

namespace FilledAlike

theorem get?_scalar (h : FilledAlike o p q) {name : String} {v : Value}
    (hget : p.get? name = some (.scalar v)) : q.get? name = some (.scalar v) := by
  obtain heq | ⟨vs, ws, hp, -⟩ := h name
  · exact heq ▸ hget
  · cases hget.symm.trans hp

theorem written_eq (h : FilledAlike o p q) (piece : Piece) :
    Template.written p o piece = Template.written q o piece := by
  cases piece with
  | literal name =>
    obtain heq | ⟨vs, ws, hp, hq, -⟩ := h (String.ofList name)
    · simp only [Template.written, Template.literalChars?, heq]
    · simp only [Template.written, Template.literalChars?, hp, hq]
  | named marker name afterIn =>
    obtain heq | ⟨vs, ws, hp, hq, hvs, hws, hlength⟩ := h (String.ofList name)
    · simp only [Template.written, Template.resolveNamed, heq]
    · simp only [Template.written, Template.resolveNamed, hp, hq, Template.text_expanded,
        Token.listText, if_neg hvs, if_neg hws, hlength]
  | code | quoted | comment | system | positional => rfl

theorem firstUses_eq (h : FilledAlike o p q) (tokens : List Token) :
    Token.firstUses p tokens = Token.firstUses q tokens := by
  have hbound : Token.isBound p = Token.isBound q := by
    funext token
    obtain heq | ⟨vs, ws, hp, hq, -⟩ := h token.name
    · rw [Token.isBound, Token.isBound, heq]
    · rw [Token.isBound, Token.isBound, hp, hq, Option.isSome_some, Option.isSome_some]
  rw [Token.firstUses, Token.firstUses, hbound]

theorem names_bindings_eq (h : FilledAlike o p q) (token : Token) :
    (token.bindings p o).map Prod.fst = (token.bindings q o).map Prod.fst := by
  obtain heq | ⟨vs, ws, hp, hq, hvs, hws, hlength⟩ := h token.name
  · rw [Token.bindings, Token.bindings, heq]
  · rw [Token.bindings_of_list hp hvs, Token.bindings_of_list hq hws, hlength, List.map_map,
      List.map_map]
    rfl

end FilledAlike

end Params

namespace Template

variable {t : Template} {p q : Params} {o : Options} {r : Rendered}

/-- **Lists of one padded length share a text.**  Without positional placeholders, parameters that
are filled alike give statements with the same text and the same names. -/
theorem exists_render_of_filledAlike (hkind : t.kind = .text)
    (hpositional : ∀ token ∈ t.tokens, token.kind ≠ .positional) (hpq : p.FilledAlike o q)
    (h : t.render p o = .ok r) :
    ∃ s, t.render q o = .ok s ∧ s.sql = r.sql ∧
      s.bindings.map Prod.fst = r.bindings.map Prod.fst := by
  have hcount : ¬0 < t.tokens.countP Token.isPositional := fun hpos => by
    obtain ⟨token, htoken, hmarker⟩ := List.countP_pos_iff.1 hpos
    exact hpositional token htoken (beq_iff_eq.1 hmarker)
  have hstyle (p : Params) : t.checkStyle p = .ok () :=
    checkStyle_eq_ok_iff.2 fun hpos => absurd hpos hcount
  have hliteral := ((exists_render_iff hkind (hstyle p)).1 ⟨r, h⟩).1
  obtain ⟨s, hs⟩ := (exists_render_iff (o := o) hkind (hstyle q)).2
    ⟨fun token htoken htokenkind => (hliteral token htoken htokenkind).imp fun _ hv =>
      ⟨hpq.get?_scalar hv.1, hv.2⟩, fun hpos => absurd hpos hcount⟩
  refine ⟨s, hs, ?_, ?_⟩
  · rw [← String.toList_inj, toList_sql hkind h, toList_sql hkind hs]
    exact congrArg (List.flatMap · t.pieces) (funext fun piece => (hpq.written_eq piece).symm)
  · rw [bindings_eq_flatMap hkind hpositional h, bindings_eq_flatMap hkind hpositional hs,
      hpq.firstUses_eq, List.map_flatMap, List.map_flatMap]
    exact congrArg (List.flatMap · _) (funext fun token => (hpq.names_bindings_eq token).symm)

end Template

/-- Of the uses of a bound name, exactly one is the first. -/
theorem Token.exists_firstUses_eq_append {p : Params} {tokens : List Token} {token : Token}
    (htoken : token ∈ tokens) (hbound : token.isBound p = true) :
    ∃ left first right, firstUses p tokens = left ++ first :: right ∧
      Text.sameName first.name token.name = true ∧
      ∀ other ∈ left ++ right, Text.sameName other.name token.name = false := by
  obtain ⟨first, hfirst, hname⟩ := exists_mem_firstUses htoken hbound
  obtain ⟨left, right, huses⟩ := List.append_of_mem hfirst
  have hdistinct := pairwise_firstUses (p := p) tokens
  rw [huses, List.pairwise_middle Ne.symm, List.pairwise_cons] at hdistinct
  refine ⟨left, first, right, huses, Text.sameName_iff.2 hname, fun other hother => ?_⟩
  refine Bool.eq_false_iff.2 fun hsame => hdistinct.1 other hother ?_
  exact hname.trans (Text.sameName_iff.1 hsame).symm

namespace Template

variable {t : Template} {p : Params} {o : Options} {r : Rendered} {token : Token}
  {vs : List Value}

/-- **A list is filled up with its last element, and lists of one padded length share a text.**
With lists filled up, a list that a token stands for is bound at the first use of its name, once:
as it is when it is shorter than the threshold, and else with its last element repeated up to the
next multiple of ten.  Another list in its place, both from the threshold on and with the same
number of tens rounded up, gives the same text and the same names. -/
theorem render_filled (hpad : o.flags.padLists = true) (hkind : t.kind = .text)
    (hpositional : ∀ token ∈ t.tokens, token.kind ≠ .positional) (htoken : token ∈ t.tokens)
    (hnamed : token.isNamed = true) (hget : p.get? token.name = some (.list vs)) (hvs : vs ≠ [])
    (h : t.render p o = .ok r) :
    (∃ left first right values,
      Token.firstUses p t.tokens = left ++ first :: right ∧
        Text.sameName first.name token.name = true ∧
        (∀ other ∈ left ++ right, Text.sameName other.name token.name = false) ∧
        r.bindings = left.flatMap (Token.bindings p o) ++
          (values.zipIdx.map fun e => (Token.elementName first.name e.2, e.1)) ++
            right.flatMap (Token.bindings p o) ∧
        Filled o.paddingThreshold vs values) ∧
      ∀ ws q, p.DifferIn token.name vs ws q → o.paddingThreshold ≤ vs.length →
        o.paddingThreshold ≤ ws.length → (vs.length + 9) / 10 = (ws.length + 9) / 10 →
        ∃ s, t.render q o = .ok s ∧ s.sql = r.sql ∧
          s.bindings.map Prod.fst = r.bindings.map Prod.fst := by
  have hbound : token.isBound p = true := by
    rw [Token.isBound, hget, Option.isSome_some, Bool.and_true]
    exact hnamed
  refine ⟨?_, fun ws q hdiffer hvsle hwsle htens => ?_⟩
  · obtain ⟨left, first, right, huses, hname, hothers⟩ :=
      Token.exists_firstUses_eq_append htoken hbound
    have hfirst : p.get? first.name = some (.list vs) := (p.get?_congr hname).trans hget
    refine ⟨left, first, right, _, huses, hname, hothers, ?_, filled_padded hpad hvs⟩
    rw [bindings_eq_flatMap hkind hpositional h, huses, List.flatMap_append, List.flatMap_cons,
      map_zipIdx_padded hvs (le_paddedLength o vs.length), Token.bindings_of_list hfirst hvs,
      List.append_assoc]
  · have hlength : Part.paddedLength o vs.length = Part.paddedLength o ws.length := by
      rw [Part.paddedLength_of_le hpad hvsle, Part.paddedLength_of_le hpad hwsle, htens]
    refine exists_render_of_filledAlike hkind hpositional (hdiffer.filledAlike hvs ?_ hlength) h
    -- an empty list has no tens
    rintro rfl
    have hpos := List.length_pos_iff.2 hvs
    rw [List.length_nil] at htens
    omega

/-- Lists of twelve and of twenty elements with a threshold of twelve, which come in and out of
brackets in two spellings. -/
theorem render_filled_of_twelve :
    let t := parse "select {=k} from t where a in @ids and b = @n or c in (@IDS)" .default
    let o : Options := { Options.default with flags.padLists := true, paddingThreshold := 12 }
    let vs := List.replicate 11 (.signed 1) ++ [.null]
    let ws := List.replicate 20 (.bool true)
    let p := ((Params.empty.bind "k" (.signed 3)).bindList "Ids" vs).bind "n" .null
    let q := ((Params.empty.bind "k" (.signed 3)).bindList "Ids" ws).bind "n" .null
    let token : Token := ⟨.named, 55, 59, "IDS", "@IDS"⟩
    token ∈ t.tokens ∧ p.get? token.name = some (.list vs) ∧ p.DifferIn token.name vs ws q ∧
      ∃ r s, t.render p o = .ok r ∧ t.render q o = .ok s ∧
        (∃ left first right values,
          Token.firstUses p t.tokens = left ++ first :: right ∧
            Text.sameName first.name token.name = true ∧
            (∀ other ∈ left ++ right, Text.sameName other.name token.name = false) ∧
            r.bindings = left.flatMap (Token.bindings p o) ++
              (values.zipIdx.map fun e => (Token.elementName first.name e.2, e.1)) ++
                right.flatMap (Token.bindings p o) ∧
            Filled o.paddingThreshold vs values) ∧
        s.sql = r.sql ∧ s.bindings.map Prod.fst = r.bindings.map Prod.fst := by
  intro t o vs ws p q token
  have hkind : t.kind = .text := by decide +kernel
  have hpositional : ∀ token ∈ t.tokens, token.kind ≠ .positional := by decide +kernel
  have htoken : token ∈ t.tokens := by decide +kernel
  have hget : p.get? token.name = some (.list vs) := by decide +kernel
  have hdiffer : p.DifferIn token.name vs ws q :=
    ⟨[("k", .scalar (.signed 3))], "Ids", [("n", .scalar .null)], by decide +kernel,
      by decide +kernel, by decide +kernel⟩
  have hok : (t.render p o).toOption.isSome = true := by decide +kernel
  obtain ⟨r, h⟩ := exists_eq_ok hok
  obtain ⟨hfilled, hshared⟩ :=
    render_filled rfl hkind hpositional htoken rfl hget (by decide +kernel) h
  obtain ⟨s, hs, hsame⟩ := hshared ws q hdiffer (by decide) (by decide) (by decide)
  exact ⟨htoken, hget, hdiffer, r, s, h, hs, hfilled, hsame⟩

end Template

end RowMapping
