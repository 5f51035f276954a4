import Mathlib.Data.List.Lattice
import Mathlib.Data.List.Nodup
import Mathlib.Data.List.Pairwise
import RowMapping.Proofs.Template.Correspondence
import RowMapping.Proofs.Template.LiteralText

/-!
# Names of bindings

A list is bound element by element, under names that are made from its own: the name of the list, an
underscore and a number.  No two lists make the same name.  A template may use such a name itself,
though, and then two values are bound under it.

* `Params.Built.nodup_keys`: parameters that were bound by name have different names;
* `Token.fold_elementName_inj`: the made names tell the list and the number;
* `Template.nodup_bindings_iff`: the names of bindings are different, as long as the template does
  not itself use one of the made names for a single value.

Names are compared without regard to case everywhere.
-/

namespace RowMapping

/-! ### Parameters that were bound by name -/

namespace Params

/-- Parameters that were bound by name, one after the other. -/
inductive Built : Params → Prop where
  | empty : Built .empty
  | bind {p : Params} (h : Built p) (name : String) (v : Value) : Built (p.bind name v)
  | bindList {p : Params} (h : Built p) (name : String) (vs : List Value) :
    Built (p.bindList name vs)

/-- The folded names of entries. -/
def keys (es : List (String × ParamValue)) : List (List Char) := es.map fun e => Text.fold e.1

theorem mem_keys_put {name : String} {v : ParamValue} {es : List (String × ParamValue)}
    {key : List Char} (h : key ∈ keys (put name v es)) : key ∈ keys es ∨ key = Text.fold name := by
  induction es with
  | nil => exact .inr (List.mem_singleton.1 h)
  | cons e es ih =>
    unfold put at h
    split at h
    · exact .inl h
    · rcases List.mem_cons.1 h with rfl | h
      · exact .inl List.mem_cons_self
      · exact (ih h).imp_left (List.mem_cons_of_mem _)

theorem nodup_keys_put {es : List (String × ParamValue)} (h : (keys es).Nodup) (name : String)
    (v : ParamValue) : (keys (put name v es)).Nodup := by
  induction es with
  | nil => exact List.nodup_singleton _
  | cons e es ih =>
    obtain ⟨hhead, htail⟩ := List.nodup_cons.1 h
    unfold put
    split
    · exact h
    · rename_i hname
      refine List.nodup_cons.2 ⟨fun hmem => ?_, ih htail⟩
      rcases mem_keys_put hmem with hmem | hfold
      · exact hhead hmem
      · exact hname (Text.sameName_iff.2 hfold)

theorem Built.nodup_keys {p : Params} (h : p.Built) : (keys p.entries).Nodup := by
  induction h with
  | empty => exact List.nodup_nil
  | bind _ name v ih => exact nodup_keys_put ih (bareName name) (.scalar v)
  | bindList _ name vs ih => exact nodup_keys_put ih (bareName name) (.list vs)

end Params

/-! ### Names of elements -/

namespace Token

variable {p : Params} {o : Options}

/-- The names of the placeholders that take the place of a token that is bound to a list. -/
def generatedNames (p : Params) (o : Options) (token : Token) : List String :=
  match token.isBound p, p.get? token.name with
  | true, some (.list _) => (token.bindings p o).map Prod.fst
  | _, _ => []

/-- The token names a parameter that is bound to a single value. -/
def isSingle (p : Params) (token : Token) : Bool :=
  token.isBound p && (p.get? token.name).any fun v => !v.isList

theorem fold_elementName (name : String) (i : Nat) :
    Text.fold (elementName name i) = Text.fold name ++ '_' :: Nat.toDigits 10 i := by
  rw [← Text.fold_natText]
  simp only [Text.fold, elementName, String.toList_append, List.map_append, List.append_assoc]
  rfl

theorem underscore_notMem_toDigits (n : Nat) : '_' ∉ Nat.toDigits 10 n := fun h => by
  cases (Text.digits_toDigits n).2 '_' h

/-- The name of an element tells the list and the place of the element in it: the last underscore
stands between them. -/
theorem fold_elementName_inj {a b : String} {i j : Nat}
    (h : Text.fold (elementName a i) = Text.fold (elementName b j)) :
    Text.fold a = Text.fold b ∧ i = j := by
  simp only [fold_elementName] at h
  -- what is left of one name after the other would have an underscore among digits
  have hnone {front rest : List Char} {m n : Nat}
      (h : '_' :: Nat.toDigits 10 m = front ++ '_' :: rest) (hrest : rest = Nat.toDigits 10 n) :
      front = [] := by
    cases front with
    | nil => rfl
    | cons c front =>
      obtain ⟨rfl, hfront⟩ := List.cons.inj h
      exact absurd (hfront ▸ List.mem_append_right front List.mem_cons_self)
        (underscore_notMem_toDigits m)
  have hnames : Text.fold a = Text.fold b := by
    rcases List.append_eq_append_iff.1 h with ⟨front, hb, hfront⟩ | ⟨front, ha, hfront⟩
    · rw [hb, hnone hfront rfl, List.append_nil]
    · rw [ha, hnone hfront rfl, List.append_nil]
  rw [hnames] at h
  exact ⟨hnames, Text.toDigits_inj (List.cons.inj (List.append_cancel_left h)).2⟩

/-! ### Names that one token binds -/

/-- The folded names that a token binds. -/
def boundKeys (p : Params) (o : Options) (token : Token) : List (List Char) :=
  (token.bindings p o).map fun b => Text.fold b.1

theorem boundKeys_of_scalar {token : Token} {v : Value}
    (h : p.get? token.name = some (.scalar v)) :
    token.boundKeys p o = [Text.fold token.name] := by
  rw [boundKeys, bindings, h]
  rfl

theorem boundKeys_of_list {token : Token} {vs : List Value}
    (h : p.get? token.name = some (.list vs)) :
    token.boundKeys p o = (List.range (if vs = [] then 0 else Part.paddedLength o vs.length)).map
      fun i => Text.fold (elementName token.name i) := by
  rw [boundKeys, bindings, h]
  cases vs with
  | nil => rfl
  | cons v vs =>
    simp only [List.map_map, reduceCtorEq, if_false]
    rfl

theorem boundKeys_of_none {token : Token} (h : p.get? token.name = none) :
    token.boundKeys p o = [] := by
  rw [boundKeys, bindings, h]
  rfl

theorem nodup_boundKeys (token : Token) : (token.boundKeys p o).Nodup := by
  cases h : p.get? token.name with
  | none => rw [boundKeys_of_none h]; exact List.nodup_nil
  | some v =>
    cases v with
    | scalar v => rw [boundKeys_of_scalar h]; exact List.nodup_singleton _
    | list vs =>
      rw [boundKeys_of_list h]
      exact List.nodup_range.map_on fun _ _ _ _ hfold => (fold_elementName_inj hfold).2

theorem boundKeys_congr {a b : Token} (h : Text.fold a.name = Text.fold b.name) :
    a.boundKeys p o = b.boundKeys p o := by
  have hget := p.get?_congr (Text.sameName_iff.2 h)
  cases hb : p.get? b.name with
  | none => rw [boundKeys_of_none hb, boundKeys_of_none (hget.trans hb)]
  | some v =>
    cases v with
    | scalar v => rw [boundKeys_of_scalar hb, boundKeys_of_scalar (hget.trans hb), h]
    | list vs =>
      simp only [boundKeys_of_list hb, boundKeys_of_list (hget.trans hb), fold_elementName, h]

theorem isSingle_iff {token : Token} :
    token.isSingle p = true ↔
      token.isBound p = true ∧ ∃ v, p.get? token.name = some (.scalar v) := by
  rw [isSingle, Bool.and_eq_true]
  refine and_congr_right fun _ => ?_
  cases p.get? token.name with
  | none => simp
  | some v => cases v <;> simp [ParamValue.isList]

theorem mem_map_generatedNames {token : Token} {key : List Char} :
    (∃ name ∈ token.generatedNames p o, Text.fold name = key) ↔
      token.isBound p = true ∧ (∃ vs, p.get? token.name = some (.list vs)) ∧
        key ∈ token.boundKeys p o := by
  unfold generatedNames
  split
  · rename_i vs hbound hget
    simp [boundKeys, hbound, hget]
  · rename_i hnot
    refine ⟨fun ⟨_, h, _⟩ => (nomatch h), fun ⟨hbound, ⟨vs, hget⟩, _⟩ => ?_⟩
    exact (hnot vs hbound hget).elim

/-- Tokens of different names bind the same name only where one of them is bound to a single value
under a name that is made for an element of the other. -/
theorem exists_generated_of_mem_boundKeys {a b : Token} {key : List Char} (ha : a.isBound p = true)
    (hb : b.isBound p = true) (hname : Text.fold a.name ≠ Text.fold b.name)
    (hmema : key ∈ a.boundKeys p o) (hmemb : key ∈ b.boundKeys p o) :
    (a.isSingle p = true ∧ Text.fold a.name = key ∧
        ∃ name ∈ b.generatedNames p o, Text.fold name = key) ∨
      (b.isSingle p = true ∧ Text.fold b.name = key ∧
        ∃ name ∈ a.generatedNames p o, Text.fold name = key) := by
  have hkey {token : Token} {v : Value} (h : p.get? token.name = some (.scalar v))
      (hmem : key ∈ token.boundKeys p o) : Text.fold token.name = key := by
    rw [boundKeys_of_scalar h] at hmem
    exact (List.mem_singleton.1 hmem).symm
  obtain ⟨v, hgeta⟩ := Option.isSome_iff_exists.1 (Bool.and_eq_true_iff.1 ha).2
  obtain ⟨w, hgetb⟩ := Option.isSome_iff_exists.1 (Bool.and_eq_true_iff.1 hb).2
  cases v with
  | scalar v =>
    cases w with
    | scalar w => exact absurd ((hkey hgeta hmema).trans (hkey hgetb hmemb).symm) hname
    | list ws =>
      exact .inl ⟨isSingle_iff.2 ⟨ha, v, hgeta⟩, hkey hgeta hmema,
        mem_map_generatedNames.2 ⟨hb, ⟨ws, hgetb⟩, hmemb⟩⟩
  | list vs =>
    cases w with
    | scalar w =>
      exact .inr ⟨isSingle_iff.2 ⟨hb, w, hgetb⟩, hkey hgetb hmemb,
        mem_map_generatedNames.2 ⟨ha, ⟨vs, hgeta⟩, hmema⟩⟩
    | list ws =>
      rw [boundKeys_of_list hgeta] at hmema
      rw [boundKeys_of_list hgetb] at hmemb
      obtain ⟨i, -, hi⟩ := List.mem_map.1 hmema
      obtain ⟨j, -, hj⟩ := List.mem_map.1 hmemb
      exact absurd (fold_elementName_inj (hi.trans hj.symm)).1 hname

/-! ### First uses -/

theorem mem_and_isBound_of_mem_firstUses {tokens : List Token} {token : Token}
    (h : token ∈ firstUses p tokens) : token ∈ tokens ∧ token.isBound p = true :=
  List.mem_filter.1 (mem_of_mem_eraseDupsBy h)

theorem pairwise_firstUses (tokens : List Token) :
    (firstUses p tokens).Pairwise fun a b => Text.fold a.name ≠ Text.fold b.name :=
  (pairwise_eraseDupsBy _).imp fun hsame hfold => by
    rw [Text.sameName_iff.2 hfold.symm] at hsame
    cases hsame

theorem exists_mem_firstUses {tokens : List Token} {token : Token} (h : token ∈ tokens)
    (hbound : token.isBound p = true) :
    ∃ first ∈ firstUses p tokens, Text.fold first.name = Text.fold token.name := by
  obtain ⟨first, hfirst, hsame⟩ := exists_mem_eraseDupsBy (List.mem_filter.2 ⟨h, hbound⟩)
  refine ⟨first, hfirst, ?_⟩
  rcases hsame with rfl | hsame
  · rfl
  · exact (Text.sameName_iff.1 hsame).symm

/-- A token is bound to a single value under a name that is made for an element of a list that
another token stands for. -/
def Clash (p : Params) (o : Options) (tokens : List Token) : Prop :=
  ∃ single ∈ tokens, single.isSingle p = true ∧
    ∃ list ∈ tokens, ∃ name ∈ list.generatedNames p o, Text.fold name = Text.fold single.name

theorem nodup_firstUses_iff (tokens : List Token) :
    ((firstUses p tokens).flatMap (boundKeys p o)).Nodup ↔ ¬Clash p o tokens := by
  rw [List.nodup_flatMap, and_iff_right fun token _ => nodup_boundKeys token]
  constructor
  · rintro hdisjoint ⟨single, hsingle, hvalue, list, hlist, hgenerated⟩
    obtain ⟨hsinglebound, v, hget⟩ := isSingle_iff.1 hvalue
    obtain ⟨hlistbound, ⟨vs, hgetlist⟩, hkey⟩ := mem_map_generatedNames.1 hgenerated
    obtain ⟨a, ha, haname⟩ := exists_mem_firstUses hsingle hsinglebound
    obtain ⟨b, hb, hbname⟩ := exists_mem_firstUses hlist hlistbound
    have hab : a ≠ b := by
      rintro rfl
      have hsame := p.get?_congr (Text.sameName_iff.2 (haname.symm.trans hbname))
      rw [hget, hgetlist] at hsame
      cases hsame
    have hkeya : Text.fold single.name ∈ a.boundKeys p o := by
      rw [boundKeys_congr haname, boundKeys_of_scalar hget]
      exact List.mem_cons_self
    have hkeyb : Text.fold single.name ∈ b.boundKeys p o := boundKeys_congr hbname ▸ hkey
    have : Std.Symm (Function.onFun List.Disjoint (boundKeys p o)) := 
      ⟨fun _ _ h => List.Disjoint.symm h⟩
    exact hdisjoint.forall ha hb hab hkeya hkeyb
  · intro hclash
    refine (pairwise_firstUses tokens).imp_of_mem fun {a b} ha hb hname key hkeya hkeyb => hclash ?_
    obtain ⟨ha, habound⟩ := mem_and_isBound_of_mem_firstUses ha
    obtain ⟨hb, hbbound⟩ := mem_and_isBound_of_mem_firstUses hb
    rcases exists_generated_of_mem_boundKeys habound hbbound hname hkeya hkeyb with
      ⟨hvalue, rfl, hgenerated⟩ | ⟨hvalue, rfl, hgenerated⟩
    · exact ⟨a, ha, hvalue, b, hb, hgenerated⟩
    · exact ⟨b, hb, hvalue, a, ha, hgenerated⟩

end Token

namespace Template

variable {t : Template} {p : Params} {o : Options} {r : Rendered}

/-! ### Positional placeholders -/

/-- Positional placeholders bind the parameters in their order, and nothing else is bound. -/
theorem entries_of_resolve {ps : List Piece} {left : List (String × ParamValue)}
    {parts : List Part} (hnamed : ∀ piece ∈ ps, piece.isNamed = false)
    (h : resolve p left ps = .ok parts) :
    (∀ part ∈ parts, part.key? = none) ∧
      (parts.flatMap (Part.bindings o)).map (fun b => (b.1, ParamValue.scalar b.2)) =
        left.take (ps.countP Piece.isPositional) := by
  induction ps generalizing left parts with
  | nil => cases h; exact ⟨fun _ h => (nomatch h), rfl⟩
  | cons piece ps ih =>
    have ih {left parts} := @ih left parts fun piece hpiece =>
      hnamed piece (List.mem_cons_of_mem _ hpiece)
    -- a part that binds nothing
    have hplain {text : List Char} {parts : List Part} (h : resolve p left ps = .ok parts)
        (hpiece : piece.isPositional = false) :
        (∀ part ∈ Part.plain text :: parts, part.key? = none) ∧
          ((Part.plain text :: parts).flatMap (Part.bindings o)).map
              (fun b => (b.1, ParamValue.scalar b.2)) =
            left.take ((piece :: ps).countP Piece.isPositional) := by
      rw [List.countP_cons_of_neg (by rw [hpiece]; exact Bool.false_ne_true)]
      exact ⟨List.forall_mem_cons.2 ⟨rfl, (ih h).1⟩, (ih h).2⟩
    cases piece with
    | positional =>
      cases left with
      | nil => cases h
      | cons entry left =>
        obtain ⟨part, hpart, h⟩ := bind_eq_ok.1 h
        obtain ⟨parts, hparts, h⟩ := bind_eq_ok.1 h
        cases h
        obtain ⟨hkeys, hentries⟩ := ih hparts
        obtain ⟨name, v⟩ := entry
        cases v with
        | list => cases hpart
        | scalar v =>
          cases hpart
          refine ⟨List.forall_mem_cons.2 ⟨rfl, hkeys⟩, ?_⟩
          rw [List.flatMap_cons, List.map_append, hentries, List.countP_cons_of_pos rfl,
            List.take_succ_cons]
          rfl
    | named => cases hnamed _ List.mem_cons_self
    | literal =>
      obtain ⟨part, hpart, h⟩ := bind_eq_ok.1 h
      obtain ⟨parts, hparts, h⟩ := bind_eq_ok.1 h
      cases h
      cases resolves_of_resolveLiteral hpart with
      | literal => exact hplain hparts rfl
      | kept => exact hplain hparts rfl
    | code | quoted | comment | system =>
      obtain ⟨parts, hparts, h⟩ := bind_eq_ok.1 h
      cases h
      exact hplain hparts rfl

theorem names_of_resolve {ps : List Piece} {left : List (String × ParamValue)} {parts : List Part}
    (hnamed : ∀ piece ∈ ps, piece.isNamed = false) (h : resolve p left ps = .ok parts) :
    (∀ part ∈ parts, part.key? = none) ∧
      (parts.flatMap (Part.bindings o)).map Prod.fst =
        (left.map Prod.fst).take (ps.countP Piece.isPositional) := by
  obtain ⟨hkeys, hentries⟩ := entries_of_resolve (o := o) hnamed h
  refine ⟨hkeys, ?_⟩
  rw [← List.map_take, ← hentries, List.map_map]
  rfl

/-- Where the placeholders of a template fit the parameters, none of them is positional, or none is
named and there is one for each parameter. -/
theorem of_checkStyle (h : t.checkStyle p = .ok ()) :
    t.positionalCount = 0 ∨
      (∀ piece ∈ t.pieces, piece.isNamed = false) ∧ t.positionalCount = p.size := by
  simp only [checkStyle] at h
  split at h
  · exact .inl ‹_›
  · split at h
    · cases h
    · rename_i hfind
      split at h
      · refine .inr ⟨fun piece hpiece => ?_, ‹_›⟩
        exact Bool.eq_false_iff.2 (List.find?_eq_none.1 hfind piece hpiece)
      · cases h

theorem kind_ne_positional (h : t.positionalCount = 0) :
    ∀ token ∈ t.tokens, token.kind ≠ .positional := by
  intro token htoken hkind
  obtain ⟨piece, hpiece, hpositional⟩ := Token.exists_mem_of_mem_ofPieces htoken
  rw [hkind] at hpositional
  cases piece with
  | positional => exact List.countP_eq_zero.1 h _ hpiece rfl
  | named _ _ afterIn => cases afterIn <;> cases hpositional
  | code | quoted | comment | system | literal => cases hpositional

theorem not_clash_of_isNamed (h : ∀ piece ∈ t.pieces, piece.isNamed = false) :
    ¬Token.Clash p o t.tokens := by
  rintro ⟨token, htoken, hsingle, -⟩
  obtain ⟨piece, hpiece, hkind⟩ := Token.exists_mem_of_mem_ofPieces htoken
  have hbound := (Token.isSingle_iff.1 hsingle).1
  cases piece with
  | named => cases h _ hpiece
  | positional | literal =>
    obtain ⟨hkind, -⟩ := Prod.mk.inj (Option.some.inj hkind)
    rw [Token.isBound, ← hkind] at hbound
    cases hbound
  | code | quoted | comment | system => cases hkind

/-! ### All bindings -/

/-- **The names of bindings are different**, whatever the template and the options are, unless a
name that is made for an element of a list is also the name of a placeholder that is bound to a
single value. -/
theorem nodup_bindings_iff (hp : p.Built) (hkind : t.kind = .text) (h : t.render p o = .ok r) :
    (r.bindings.map fun b => Text.fold b.1).Nodup ↔ ¬Token.Clash p o t.tokens := by
  obtain ⟨parts, hstyle, hparts, hr⟩ := exists_parts_of_render hkind h
  rcases of_checkStyle hstyle with hcount | ⟨hnamed, hcount⟩
  · rw [bindings_eq_flatMap hkind (kind_ne_positional hcount) h, List.map_flatMap]
    exact Token.nodup_firstUses_iff t.tokens
  · obtain ⟨hkeys, hnames⟩ := names_of_resolve (o := o) hnamed hparts
    have hlength : t.pieces.countP Piece.isPositional = (p.entries.map Prod.fst).length := by
      rw [List.length_map]
      exact hcount
    rw [hlength, List.take_length] at hnames
    have hbindings : (r.bindings.map fun b => Text.fold b.1) = Params.keys p.entries :=
      calc r.bindings.map (fun b => Text.fold b.1)
        _ = (r.bindings.map Prod.fst).map Text.fold := by rw [List.map_map]; rfl
        _ = (p.entries.map Prod.fst).map Text.fold := by
          rw [hr, Part.allBindings_of_key? o hkeys, hnames]
        _ = Params.keys p.entries := by rw [List.map_map]; rfl
    rw [hbindings]
    exact iff_of_true hp.nodup_keys (not_clash_of_isNamed hnamed)

/-- Two lists, and the name of one of them is made for an element of the other: no name is bound
twice. -/
theorem nodup_bindings_of_lists :
    let t := parse "select 1 where a in @xs and b in @XS_1 and c = @a" .default
    let p := ((Params.empty.bindList "xs" [.signed 1, .null]).bindList "xs_1" [.signed 3]).bind "a"
      .null
    ∃ r, t.render p .default = .ok r ∧ ¬Token.Clash p .default t.tokens ∧
      (r.bindings.map fun b => Text.fold b.1).Nodup := by
  intro t p
  have hp : p.Built := .bind (.bindList (.bindList .empty _ _) _ _) _ _
  have hkind : t.kind = .text := by decide +kernel
  have hclash : ¬Token.Clash p .default t.tokens := by
    unfold Token.Clash
    decide +kernel
  have hok : (t.render p .default).toOption.isSome = true := by decide +kernel
  obtain ⟨r, h⟩ := exists_eq_ok hok
  exact ⟨r, h, hclash, (nodup_bindings_iff hp hkind h).2 hclash⟩

/-- The name of a single value is made for an element of a list: it is bound twice. -/
theorem not_nodup_bindings_of_clash :
    let t := parse "select @ids_0, @ids" .default
    let p := (Params.empty.bind "ids_0" (.signed 5)).bindList "ids" [.signed 7]
    p.Built ∧ t.kind = .text ∧ Token.Clash p .default t.tokens ∧
      ∃ r, t.render p .default = .ok r ∧ r.sql = "select @ids_0, @ids_0" ∧
        ¬(r.bindings.map fun b => Text.fold b.1).Nodup := by
  intro t p
  refine ⟨.bindList (.bind .empty _ _) _ _, by decide +kernel, ?_, ?_⟩
  · unfold Token.Clash
    decide +kernel
  · exact ⟨⟨"select @ids_0, @ids_0", [("ids_0", .signed 5), ("ids_0", .signed 7)], .text⟩,
      by decide +kernel, rfl, by decide +kernel⟩

end Template

end RowMapping
