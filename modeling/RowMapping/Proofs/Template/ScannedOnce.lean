import Mathlib.Data.List.Dedup
import Mathlib.Data.List.Induction
import RowMapping.Template.Rewriter

/-!
# Templates that are scanned once

A rewriter keeps the templates that it has scanned.  Nothing but its size shows this: it answers as
if it scanned every template anew, also after calls that failed and after it was cleared.

* `Rewriter.keeps_run`: what a rewriter keeps after any calls;
* `Rewriter.answers_as_fresh`: its answers, and the number of templates that it keeps.
-/

namespace RowMapping

/-- A call of a rewriter. -/
inductive RewriterCall where
  /-- A template is scanned. -/
  | parse (text : String)
  /-- A template is rendered. -/
  | rewrite (text : String) (p : Params)
  /-- All templates are dropped. -/
  | clear

namespace RewriterCall

/-- The template of a call. -/
def text? : RewriterCall → Option String
  | parse text | rewrite text _ => some text
  | clear => none

/-- The templates of the calls since the last one that dropped all, the last template first. -/
def textsKept (calls : List RewriterCall) : List String :=
  (calls.reverse.takeWhile (·.text?.isSome)).filterMap text?

theorem textsKept_concat (calls : List RewriterCall) (call : RewriterCall) :
    textsKept (calls ++ [call]) =
      match call.text? with
      | some text => text :: textsKept calls
      | none => [] := by
  rw [textsKept, List.reverse_concat, List.takeWhile_cons]
  cases htext : call.text? with
  | none => rfl
  | some text => exact List.filterMap_cons_some htext

end RewriterCall

theorem lookup_map_mk {α β : Type} [BEq α] [LawfulBEq α] (f : α → β) (l : List α) (a : α) :
    (l.map fun b => (b, f b)).lookup a = if a ∈ l then some (f a) else none := by
  induction l with
  | nil => rfl
  | cons b l ih =>
    rw [List.map_cons, List.lookup_cons, ih]
    cases hab : a == b with
    | true => rw [eq_of_beq hab, if_pos List.mem_cons_self]
    | false => simp only [List.mem_cons, ne_of_beq_false hab, false_or]

namespace Rewriter

/-- The rewriter after a call. -/
def after (r : Rewriter) : RewriterCall → Rewriter
  | .parse text => (r.parse text).2
  | .rewrite text p => (r.rewrite text p).2
  | .clear => r.clear

/-- The rewriter after calls. -/
def run (r : Rewriter) (calls : List RewriterCall) : Rewriter := calls.foldl after r

theorem run_concat (r : Rewriter) (calls : List RewriterCall) (call : RewriterCall) :
    r.run (calls ++ [call]) = (r.run calls).after call := by simp [run]

/-- A rewriter keeps the templates that were scanned under its own options, once each. -/
structure Keeps (r : Rewriter) (o : Options) (texts : List String) : Prop where
  /-- The options. -/
  options : r.options = o
  /-- The templates. -/
  templates : r.templates = texts.dedup.map fun text => (text, Template.parse text o.flags)

variable {r : Rewriter} {o : Options} {texts : List String}

/-- **Scanning gives the same template whether it is kept or not**, and keeps it. -/
theorem Keeps.parse (h : r.Keeps o texts) (text : String) :
    (r.parse text).1 = Template.parse text o.flags ∧ (r.parse text).2.Keeps o (text :: texts) := by
  have hlookup := lookup_map_mk (Template.parse · o.flags) texts.dedup text
  rw [← h.templates] at hlookup
  unfold Rewriter.parse
  by_cases hmem : text ∈ texts
  · rw [if_pos (List.mem_dedup.2 hmem)] at hlookup
    rw [hlookup]
    exact ⟨rfl, h.options, by rw [List.dedup_cons_of_mem hmem]; exact h.templates⟩
  · rw [if_neg fun hkept => hmem (List.mem_dedup.1 hkept)] at hlookup
    rw [hlookup]
    refine ⟨by rw [h.options], h.options, ?_⟩
    rw [List.dedup_cons_of_notMem hmem, List.map_cons, ← h.templates, ← h.options]

theorem Keeps.rewrite (h : r.Keeps o texts) (text : String) (p : Params) :
    (r.rewrite text p).1 = (Template.parse text o.flags).render p o ∧
      (r.rewrite text p).2.Keeps o (text :: texts) := by
  obtain ⟨hparse, hkeeps⟩ := h.parse text
  refine ⟨?_, hkeeps⟩
  rw [Rewriter.rewrite]
  dsimp only
  rw [hparse, hkeeps.options]

theorem keeps_run (o : Options) (calls : List RewriterCall) :
    (run ⟨o, []⟩ calls).Keeps o (RewriterCall.textsKept calls) := by
  induction calls using List.reverseRecOn with
  | nil => exact ⟨rfl, rfl⟩
  | append_singleton calls call ih =>
    rw [run_concat, RewriterCall.textsKept_concat]
    cases call with
    | parse text => exact (ih.parse text).2
    | rewrite text p => exact (ih.rewrite text p).2
    | clear => exact ⟨ih.options, rfl⟩

/-- **Keeping templates does not show.**  After any calls, a rewriter answers as if it scanned and
rendered the template under its options for the first time, whether or not this succeeds; with the
default options, as rewriting without a rewriter does.  It keeps as many templates as there were
different ones in the calls since it was last cleared. -/
theorem answers_as_fresh (o : Options) (calls : List RewriterCall) :
    (∀ text p, ((run ⟨o, []⟩ calls).rewrite text p).1 =
        (Template.parse text o.flags).render p o) ∧
      (∀ text, ((run ⟨o, []⟩ calls).parse text).1 = Template.parse text o.flags) ∧
      (∀ text p, ((run ⟨.default, []⟩ calls).rewrite text p).1 = Template.rewrite text p) ∧
      (run ⟨o, []⟩ calls).size = (RewriterCall.textsKept calls).dedup.length := by
  have h := keeps_run o calls
  refine ⟨fun text p => (h.rewrite text p).1, fun text => (h.parse text).1,
    fun text p => ((keeps_run .default calls).rewrite text p).1, ?_⟩
  rw [size, h.templates, List.length_map]

end Rewriter

end RowMapping
