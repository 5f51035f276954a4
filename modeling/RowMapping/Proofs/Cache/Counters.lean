import Mathlib.Algebra.Order.Ring.Nat
import RowMapping.Proofs.Cache.Lookup

/-!
# Hits and counters

Let no two shapes that are looked up for one row type have the same signature.  Then a lookup is
served by an entry just if, since its type was last purged, an earlier lookup asked for the same
columns, and every other one that gives a row function builds it.  The counters keep account of
that.

* `Cache.answeredSince_concat_iff`, `Cache.serves_iff`: when a lookup is served;
* `Cache.exists_putInBy_of_mem_run`: which lookups the entries were put in by;
* `Cache.Counted.after`, `Cache.counted_run`: what the counters say, after one event and after all;
* `Cache.hits_and_builds`: all of it for a history.
-/

namespace RowMapping

variable {κ : Type} [RowTypes κ]

/-- No two shapes that are looked up for one row type at the same place have the same signature. -/
def CollisionFree (signature : Signature) (events : List (CacheEvent κ)) : Prop :=
  ∀ k firstMissing v range w range', .lookup k v range firstMissing ∈ events →
    .lookup k w range' firstMissing ∈ events → ∀ start length,
      range.resolve v.columnCount = .ok (start, length) →
      range'.resolve w.columnCount = .ok (start, length) →
      signature firstMissing start (.capture v start length) =
        signature firstMissing start (.capture w start length) →
      v.SameColumns start w start length

namespace Cache

variable [DecidableEq κ] {c c₀ : Cache κ} {k : κ} {v : RowView} {start length : Nat}
  {firstMissing : Bool} {events : List (CacheEvent κ)} {e : CacheEvent κ}

/-! ### When a lookup is served -/

/-- Since the type was last purged, a lookup for the same columns gave a row function. -/
def AnsweredSince (c₀ : Cache κ) (k : κ) (v : RowView) (start length : Nat) (firstMissing : Bool)
    (events : List (CacheEvent κ)) : Prop :=
  ∃ before w range,
    CacheEvent.NoPurgeSince k (before ++ [.lookup k w range firstMissing]) events ∧
      range.resolve w.columnCount = .ok (start, length) ∧ w.SameColumns start v start length ∧
      ∃ found, (c₀.run before).getOrBuild k w range firstMissing = .ok found

/-- The event is a lookup for the columns that gives a row function. -/
def Answers (c : Cache κ) (k : κ) (v : RowView) (start length : Nat) (firstMissing : Bool)
    (e : CacheEvent κ) : Prop :=
  ∃ w range, e = .lookup k w range firstMissing ∧
    range.resolve w.columnCount = .ok (start, length) ∧ w.SameColumns start v start length ∧
    ∃ found, c.getOrBuild k w range firstMissing = .ok found

theorem not_answeredSince_nil : ¬ c₀.AnsweredSince k v start length firstMissing [] := by
  rintro ⟨before, w, range, ⟨after, heq, -⟩, -⟩
  simp at heq

theorem answeredSince_concat_iff :
    c₀.AnsweredSince k v start length firstMissing (events ++ [e]) ↔
      (c₀.run events).Answers k v start length firstMissing e ∨
        (¬ e.Purges k ∧ c₀.AnsweredSince k v start length firstMissing events) := by
  constructor
  · rintro ⟨before, w, range, ⟨after, heq, hafter⟩, hrange, hw, hfound⟩
    rcases List.eq_nil_or_concat after with rfl | ⟨after, e', rfl⟩
    · obtain ⟨rfl, hlast⟩ := List.append_inj' (heq.trans (List.append_nil _)) rfl
      exact .inl ⟨w, range, List.singleton_inj.1 hlast, hrange, hw, hfound⟩
    · rw [List.concat_eq_append, ← List.append_assoc] at heq
      obtain ⟨rfl, hlast⟩ := List.append_inj' heq rfl
      cases List.singleton_inj.1 hlast
      rw [List.concat_eq_append, List.forall_mem_append] at hafter
      exact .inr ⟨hafter.2 e (List.mem_singleton_self e),
        before, w, range, ⟨after, rfl, hafter.1⟩, hrange, hw, hfound⟩
  · rintro (⟨w, range, rfl, hrange, hw, hfound⟩ | ⟨he, before, w, range, hbefore, hrest⟩)
    · exact ⟨events, w, range, ⟨[], (List.append_nil _).symm, fun _ h => nomatch h⟩, hrange, hw,
        hfound⟩
    · exact ⟨before, w, range, hbefore.concat he, hrest⟩

theorem serves_purge_iff {key : CacheKey κ} {type? : Option κ} :
    (c.after (.purge type?)).Serves key v ↔
      ¬ (CacheEvent.purge type?).Purges key.type ∧ c.Serves key v := by
  cases type? with
  | none => exact ⟨fun ⟨_, h, _⟩ => (nomatch h), fun h => (h.1 trivial).elim⟩
  | some k =>
    have hentries : (c.after (.purge (some k))).entries =
      c.entries.filter fun e => decide (e.1.type ≠ k) := rfl
    by_cases hk : k = key.type
    · refine ⟨fun ⟨d, hfind, _⟩ => ?_, fun h => (h.1 hk).elim⟩
      rw [hentries] at hfind
      have hmem := List.of_mem_filter (mem_of_find? hfind)
      exact (of_decide_eq_true hmem hk.symm).elim
    · have hkeep (d : Deserializer key.type) : decide (key.type ≠ k) = true :=
        decide_eq_true (Ne.symm hk)
      unfold Serves
      rw [hentries, find?_filter hkeep]
      exact ⟨fun h => ⟨hk, h⟩, And.right⟩

/-- What one event does to being served, if no lookup for other columns comes under the same key. -/
theorem serves_after_iff
    (hfree : ∀ w range, e = .lookup k w range firstMissing →
      range.resolve w.columnCount = .ok (start, length) →
      c.signature firstMissing start (.capture w start length) =
        c.signature firstMissing start (.capture v start length) →
      w.SameColumns start v start length) :
    (c.after e).Serves (c.keyFor k v start length firstMissing) v ↔
      c.Answers k v start length firstMissing e ∨
        (¬ e.Purges k ∧ c.Serves (c.keyFor k v start length firstMissing) v) := by
  cases e with
  | lookup k' w range firstMissing' =>
    have hpurges : ¬ (CacheEvent.lookup k' w range firstMissing').Purges k := id
    rcases lookup_cases c k' w range firstMissing' with
      ⟨error, hlookup⟩ | ⟨start', length', hrange, ⟨hserves, d, -, hlookup⟩ |
        ⟨-, rowFn, -, hlookup⟩⟩
    · -- the lookup fails
      have hanswers :
          ¬ c.Answers k v start length firstMissing (.lookup k' w range firstMissing') := by
        rintro ⟨_, _, ⟨⟩, -, -, found, hfound⟩
        rw [hlookup] at hfound
        cases hfound
      rw [after_lookup_of_error hlookup]
      simp only [hanswers, hpurges, not_false_eq_true, true_and, false_or]
    · -- the lookup is served
      have hafter : (c.countHit d).Serves (c.keyFor k v start length firstMissing) v ↔
          c.Serves (c.keyFor k v start length firstMissing) v := Iff.rfl
      rw [after_lookup_of_ok hlookup, hafter]
      refine ⟨fun h => .inr ⟨hpurges, h⟩, ?_⟩
      rintro (⟨_, _, ⟨⟩, hrange', hw, -⟩ | ⟨-, h⟩)
      · cases hrange.symm.trans hrange'
        rw [← c.keyFor_congr k firstMissing hw]
        exact (serves_congr hw).1 hserves
      · exact h
    · -- the lookup builds
      rw [after_lookup_of_ok hlookup]
      refine serves_withEntry_iff.trans ?_
      constructor
      · rintro (⟨hkey, hw⟩ | ⟨-, h⟩)
        · obtain ⟨rfl, -, rfl, rfl, rfl⟩ := CacheKey.mk.inj hkey
          exact .inl ⟨w, range, rfl, hrange, hw, _, hlookup⟩
        · exact .inr ⟨hpurges, h⟩
      · rintro (⟨_, _, ⟨⟩, hrange', hw, -⟩ | ⟨-, h⟩)
        · cases hrange.symm.trans hrange'
          exact .inl ⟨c.keyFor_congr k firstMissing hw, hw⟩
        · by_cases hkey : c.keyFor k' w start' length' firstMissing' =
              c.keyFor k v start length firstMissing
          · obtain ⟨rfl, hsignature, rfl, rfl, rfl⟩ := CacheKey.mk.inj hkey
            exact .inl ⟨hkey, hfree w range rfl hrange hsignature⟩
          · exact .inr ⟨hkey, h⟩
  | purge type? =>
    have hanswers : ¬ c.Answers k v start length firstMissing (.purge type?) :=
      fun ⟨_, _, heq, _⟩ => nomatch heq
    rw [serves_purge_iff]
    simp only [hanswers, false_or]
    rfl
  | addHandler t handler =>
    have hanswers : ¬ c.Answers k v start length firstMissing (.addHandler t handler) :=
      fun ⟨_, _, heq, _⟩ => nomatch heq
    exact ⟨fun h => .inr ⟨id, h⟩, fun h => (h.resolve_left hanswers).2⟩
  | removeHandler t =>
    have hanswers : ¬ c.Answers k v start length firstMissing (.removeHandler t) :=
      fun ⟨_, _, heq, _⟩ => nomatch heq
    exact ⟨fun h => .inr ⟨id, h⟩, fun h => (h.resolve_left hanswers).2⟩

theorem signature_run (c : Cache κ) (events : List (CacheEvent κ)) :
    (c.run events).signature = c.signature := by
  induction events using List.reverseRecOn with
  | nil => rfl
  | append_singleton events e ih => rw [run_concat, signature_after, ih]

theorem keyFor_after (c : Cache κ) (e : CacheEvent κ) :
    (c.after e).keyFor k v start length firstMissing = c.keyFor k v start length firstMissing := by
  rw [keyFor, signature_after, keyFor]

theorem serves_iff (hc : c₀.entries = [])
    (hfree : ∀ w range, .lookup k w range firstMissing ∈ events →
      range.resolve w.columnCount = .ok (start, length) →
      c₀.signature firstMissing start (.capture w start length) =
        c₀.signature firstMissing start (.capture v start length) →
      w.SameColumns start v start length) :
    (c₀.run events).Serves ((c₀.run events).keyFor k v start length firstMissing) v ↔
      c₀.AnsweredSince k v start length firstMissing events := by
  induction events using List.reverseRecOn with
  | nil =>
    refine iff_of_false (fun ⟨_, hfind, _⟩ => ?_) not_answeredSince_nil
    rw [run_nil, hc] at hfind
    cases hfind
  | append_singleton events e ih =>
    have hbefore := ih fun w range hmem => hfree w range (List.mem_append_left _ hmem)
    rw [run_concat, keyFor_after, answeredSince_concat_iff, ← hbefore]
    refine serves_after_iff fun w range he => ?_
    rw [signature_run]
    exact hfree w range (List.mem_append_right _ (List.mem_singleton.2 he.symm))

/-! ### What the entries were put in for -/

/-- The entry was put in by a lookup, with the shape of its columns. -/
def PutInBy (c : Cache κ) (entry : (key : CacheKey κ) × Deserializer key.type)
    (e : CacheEvent κ) : Prop :=
  ∃ w range, e = .lookup entry.1.type w range entry.1.firstMissing ∧
    range.resolve w.columnCount = .ok (entry.1.start, entry.1.length) ∧
    entry.1 = c.keyFor entry.1.type w entry.1.start entry.1.length entry.1.firstMissing ∧
    entry.2.shape = .capture w entry.1.start entry.1.length

theorem putInBy_of_mem_after {entry : (key : CacheKey κ) × Deserializer key.type}
    (h : entry ∈ (c.after e).entries) : entry ∈ c.entries ∨ c.PutInBy entry e := by
  cases e with
  | lookup k w range firstMissing =>
    rcases lookup_cases c k w range firstMissing with
      ⟨error, hlookup⟩ | ⟨start, length, hrange, ⟨-, d, -, hlookup⟩ | ⟨-, rowFn, -, hlookup⟩⟩
    · rw [after_lookup_of_error hlookup] at h
      exact .inl h
    · rw [after_lookup_of_ok hlookup] at h
      exact .inl h
    · rw [after_lookup_of_ok hlookup] at h
      rcases List.mem_cons.1 h with rfl | h
      · exact .inr ⟨w, range, rfl, hrange, rfl, rfl⟩
      · exact .inl (List.mem_of_mem_filter h)
  | purge type? =>
    cases type? with
    | none => cases h
    | some k => exact .inl (List.mem_of_mem_filter h)
  | addHandler t handler => exact .inl h
  | removeHandler t => exact .inl h

theorem exists_putInBy_of_mem_run (hc : c₀.entries = [])
    {entry : (key : CacheKey κ) × Deserializer key.type} (h : entry ∈ (c₀.run events).entries) :
    ∃ e ∈ events, c₀.PutInBy entry e := by
  induction events using List.reverseRecOn with
  | nil =>
    rw [run_nil, hc] at h
    cases h
  | append_singleton events e ih =>
    rw [run_concat] at h
    rcases putInBy_of_mem_after h with h | h
    · obtain ⟨e', he', hentry⟩ := ih h
      exact ⟨e', List.mem_append_left _ he', hentry⟩
    · refine ⟨e, List.mem_append_right _ (List.mem_singleton_self e), ?_⟩
      simpa only [PutInBy, keyFor, signature_run] using h

/-- If shapes do not share signatures, the entry under the key of a lookup serves it. -/
theorem serves_of_find? (hc : c₀.entries = [])
    (hfree : ∀ w range, .lookup k w range firstMissing ∈ events →
      range.resolve w.columnCount = .ok (start, length) →
      c₀.signature firstMissing start (.capture w start length) =
        c₀.signature firstMissing start (.capture v start length) →
      w.SameColumns start v start length) {d : Deserializer k}
    (hfind : find? ((c₀.run events).keyFor k v start length firstMissing)
      (c₀.run events).entries = some d) :
    (c₀.run events).Serves ((c₀.run events).keyFor k v start length firstMissing) v := by
  obtain ⟨_, hmem, w, range, rfl, hrange, hkey, hshape⟩ :=
    exists_putInBy_of_mem_run hc (mem_of_find? hfind)
  have hsignature : (c₀.run events).signature firstMissing start (.capture v start length) =
      c₀.signature firstMissing start (.capture w start length) :=
    congrArg CacheKey.signature hkey
  rw [signature_run] at hsignature
  refine ⟨d, hfind, ?_⟩
  have hshape : d.shape = .capture w start length := hshape
  rw [hshape]
  exact Shape.isShapeOf_capture_iff.2 (hfree w range hmem hrange hsignature.symm)

/-! ### What the counters say -/

/-- The row functions that an event gives: one if it is a lookup that does not fail. -/
def found (c : Cache κ) : CacheEvent κ → List ((k : κ) × Deserializer k)
  | .lookup k v range firstMissing =>
    match c.getOrBuild k v range firstMissing with
    | .ok (d, _) => [⟨k, d⟩]
    | .error _ => []
  | _ => []

/-- The row functions that an event builds. -/
def newlyBuilt (c : Cache κ) : CacheEvent κ → List ((k : κ) × Deserializer k)
  | .lookup k v range firstMissing =>
    match c.getOrBuild k v range firstMissing with
    | .ok (d, c') => if c'.builds = c.builds then [] else [⟨k, d⟩]
    | .error _ => []
  | _ => []

/-- What an event says about how many entries it dropped, if it is a purge. -/
def dropped (c : Cache κ) : CacheEvent κ → List Nat
  | .purge type? => [(c.purge type?).1]
  | _ => []

/-- What the events of a history give, one after the other. -/
def log {α : Type} (f : Cache κ → CacheEvent κ → List α) (c : Cache κ) :
    List (CacheEvent κ) → List α
  | [] => []
  | e :: es => f c e ++ log f (c.after e) es

theorem log_concat {α : Type} (f : Cache κ → CacheEvent κ → List α) (c : Cache κ)
    (events : List (CacheEvent κ)) (e : CacheEvent κ) :
    c.log f (events ++ [e]) = c.log f events ++ f (c.run events) e := by
  induction events generalizing c with
  | nil => simp [log]
  | cons e' events ih => simp [log, ih, run]

/-- The counters agree with the row functions that lookups gave, those that were built, and the
numbers of entries that were dropped. -/
structure Counted (c : Cache κ) (found built : List ((k : κ) × Deserializer k))
    (dropped : List Nat) : Prop where
  /-- Every lookup that gave a row function built it or was served. -/
  found : c.builds + c.hits = found.length
  /-- The row functions are numbered in the order of building. -/
  built : built.map (·.2.entry) = List.range c.builds
  /-- Each of them has a counter. -/
  counters : c.hitCounts.length = c.builds
  /-- What served a lookup has counted it. -/
  hits : c.hits = c.hitCounts.sum
  /-- The entries are those of them. -/
  entry_lt : ∀ entry ∈ c.entries, entry.2.entry < c.builds
  /-- What was built is there or was dropped. -/
  size : c.size + dropped.sum = c.builds
  /-- Every purge was counted. -/
  purges : c.purges = dropped.length

omit [DecidableEq κ] in
theorem counted_fresh (signature : Signature) (handlers : Handlers) :
    (fresh signature handlers : Cache κ).Counted [] [] [] where
  found := rfl
  built := rfl
  counters := rfl
  hits := rfl
  entry_lt := fun _ h => (List.not_mem_nil h).elim
  size := rfl
  purges := rfl

theorem sum_modify_succ {counts : List Nat} {i : Nat} (h : i < counts.length) :
    (counts.modify i (· + 1)).sum = counts.sum + 1 := by
  induction counts generalizing i with
  | nil => cases h
  | cons n counts ih =>
    cases i with
    | zero =>
      rw [List.modify_zero_cons, List.sum_cons, List.sum_cons]
      omega
    | succ i =>
      rw [List.modify_succ_cons, List.sum_cons, List.sum_cons,
        ih (Nat.lt_of_succ_lt_succ h)]
      omega

theorem ne_of_find?_eq_none {key : CacheKey κ}
    {es : List ((key : CacheKey κ) × Deserializer key.type)} (h : find? key es = none) :
    ∀ e ∈ es, e.1 ≠ key := by
  induction es with
  | nil => exact fun _ h => (List.not_mem_nil h).elim
  | cons e es ih =>
    obtain ⟨key', d⟩ := e
    by_cases hkey : key' = key
    · subst hkey
      rw [find?_cons_self] at h
      cases h
    · rw [find?_cons_of_ne hkey] at h
      exact List.forall_mem_cons.2 ⟨hkey, ih h⟩

variable {found built : List ((k : κ) × Deserializer k)} {dropped : List Nat}

theorem Counted.countHit (h : c.Counted found built dropped) {key : CacheKey κ}
    {d : Deserializer key.type} (hd : find? key c.entries = some d) (f : (k : κ) × Deserializer k) :
    (c.countHit d).Counted (found ++ [f]) built dropped where
  found := by
    have hfound := h.found
    rw [List.length_append, List.length_singleton, ← hfound]
    rfl
  built := h.built
  counters := (List.length_modify ..).trans h.counters
  hits := by
    have hentry : d.entry < c.hitCounts.length := by
      rw [h.counters]
      exact h.entry_lt _ (mem_of_find? hd)
    have hsum : (c.countHit d).hitCounts.sum = c.hitCounts.sum + 1 := sum_modify_succ hentry
    rw [hsum, ← h.hits]
    rfl
  entry_lt := h.entry_lt
  size := h.size
  purges := h.purges

theorem Counted.withEntry (h : c.Counted found built dropped) {key : CacheKey κ}
    (hnone : find? key c.entries = none) (v : RowView) (rowFn : RowFn (Object key.type)) :
    (c.withEntry v key rowFn).Counted (found ++ [⟨key.type, c.newEntry v key rowFn⟩])
      (built ++ [⟨key.type, c.newEntry v key rowFn⟩]) dropped where
  found := by
    have hfound := h.found
    have hbuilds : (c.withEntry v key rowFn).builds + (c.withEntry v key rowFn).hits =
      c.builds + 1 + c.hits := rfl
    rw [hbuilds, List.length_append, List.length_singleton, ← hfound]
    omega
  built := by
    have hbuilds : (c.withEntry v key rowFn).builds = c.builds + 1 := rfl
    have hentry : (c.newEntry v key rowFn).entry = c.hitCounts.length := rfl
    rw [hbuilds, List.range_succ, List.map_append, h.built, List.map_singleton, hentry, h.counters]
  counters := by
    have hcounts : (c.withEntry v key rowFn).hitCounts = c.hitCounts ++ [0] := rfl
    rw [hcounts, List.length_append, h.counters]
    rfl
  hits := by
    have hcounts : (c.withEntry v key rowFn).hitCounts = c.hitCounts ++ [0] := rfl
    rw [hcounts, List.sum_append, ← h.hits]
    rfl
  entry_lt := by
    intro entry hentry
    rcases List.mem_cons.1 hentry with rfl | hentry
    · exact Nat.lt_succ_of_le (Nat.le_of_eq h.counters)
    · exact Nat.lt_succ_of_lt (h.entry_lt entry (List.mem_of_mem_filter hentry))
  size := by
    have hkept : (c.entries.filter fun e => decide (e.1 ≠ key)) = c.entries :=
      List.filter_eq_self.2 fun e he => decide_eq_true (ne_of_find?_eq_none hnone e he)
    have hsize : (c.withEntry v key rowFn).size =
      (c.entries.filter fun e => decide (e.1 ≠ key)).length + 1 := rfl
    have hbuilds : (c.withEntry v key rowFn).builds = c.builds + 1 := rfl
    have hbefore : c.entries.length + dropped.sum = c.builds := h.size
    rw [hsize, hkept, hbuilds, ← hbefore]
    omega
  purges := h.purges

theorem Counted.purge (h : c.Counted found built dropped) (type? : Option κ) :
    (c.purge type?).2.Counted found built (dropped ++ [(c.purge type?).1]) where
  found := h.found
  built := h.built
  counters := h.counters
  hits := h.hits
  entry_lt := by
    intro entry hentry
    cases type? with
    | none => cases hentry
    | some k => exact h.entry_lt entry (List.mem_of_mem_filter hentry)
  size := by
    have hle : (c.purge type?).2.size ≤ c.size := by
      cases type? with
      | none => exact Nat.zero_le _
      | some k => exact List.length_filter_le ..
    have hdropped : (c.purge type?).1 = c.size - (c.purge type?).2.size := rfl
    have hbuilds : (c.purge type?).2.builds = c.builds := rfl
    have hbefore := h.size
    rw [List.sum_append, List.sum_singleton, hdropped, hbuilds]
    omega
  purges := by
    have hpurges : (c.purge type?).2.purges = c.purges + 1 := rfl
    rw [hpurges, h.purges, List.length_append, List.length_singleton]

theorem Counted.after (h : c.Counted found built dropped)
    (hserves : ∀ k v range firstMissing, e = .lookup k v range firstMissing → ∀ start length,
      range.resolve v.columnCount = .ok (start, length) → ∀ d : Deserializer k,
      find? (c.keyFor k v start length firstMissing) c.entries = some d →
      c.Serves (c.keyFor k v start length firstMissing) v) :
    (c.after e).Counted (found ++ c.found e) (built ++ c.newlyBuilt e)
      (dropped ++ c.dropped e) := by
  cases e with
  | lookup k v range firstMissing =>
    rcases lookup_cases c k v range firstMissing with
      ⟨error, hlookup⟩ | ⟨start, length, hrange, ⟨-, d, hfind, hlookup⟩ |
        ⟨hnew, rowFn, -, hlookup⟩⟩
    · rw [after_lookup_of_error hlookup]
      simp only [Cache.found, newlyBuilt, Cache.dropped, hlookup, List.append_nil]
      exact h
    · rw [after_lookup_of_ok hlookup]
      have hbuilds : (c.countHit d).builds = c.builds := rfl
      simp only [Cache.found, newlyBuilt, Cache.dropped, hlookup, hbuilds, if_true, List.append_nil]
      exact h.countHit hfind ⟨k, d⟩
    · rw [after_lookup_of_ok hlookup]
      have hnone : find? (c.keyFor k v start length firstMissing) c.entries = none := by
        cases hfind : find? (c.keyFor k v start length firstMissing) c.entries with
        | none => rfl
        | some d =>
          exact absurd (hserves k v range firstMissing rfl start length hrange d hfind) hnew
      have hbuilds : (c.withEntry v (c.keyFor k v start length firstMissing) rowFn).builds ≠
        c.builds := Nat.succ_ne_self _
      simp only [Cache.found, newlyBuilt, Cache.dropped, hlookup, List.append_nil]
      rw [if_neg hbuilds]
      exact h.withEntry hnone v rowFn
  | purge type? =>
    simp only [Cache.found, newlyBuilt, Cache.dropped, List.append_nil]
    exact h.purge type?
  | addHandler t handler =>
    simp only [Cache.found, newlyBuilt, Cache.dropped, List.append_nil]
    exact ⟨h.found, h.built, h.counters, h.hits, h.entry_lt, h.size, h.purges⟩
  | removeHandler t =>
    simp only [Cache.found, newlyBuilt, Cache.dropped, List.append_nil]
    exact ⟨h.found, h.built, h.counters, h.hits, h.entry_lt, h.size, h.purges⟩

theorem counted_run {signature : Signature} (handlers : Handlers)
    (hfree : CollisionFree signature events) :
    let c : Cache κ := fresh signature handlers
    (c.run events).Counted (c.log Cache.found events) (c.log newlyBuilt events)
      (c.log Cache.dropped events) := by
  intro c
  induction events using List.reverseRecOn with
  | nil => exact counted_fresh signature handlers
  | append_singleton events e ih =>
    have hbefore := ih fun k firstMissing v range w range' hv hw =>
      hfree k firstMissing v range w range' (List.mem_append_left _ hv) (List.mem_append_left _ hw)
    rw [run_concat, log_concat, log_concat, log_concat]
    refine hbefore.after fun k v range firstMissing he start length hrange d hfind => ?_
    refine serves_of_find? rfl (fun w range' hmem hrange' => ?_) hfind
    exact hfree k firstMissing w range' v range (List.mem_append_left _ hmem)
      (List.mem_append_right _ (List.mem_singleton.2 he.symm)) start length hrange' hrange

omit [DecidableEq κ] in
theorem Counted.map_hitsOf (h : c.Counted found built dropped) :
    built.map (fun d => c.hitsOf d.2) = c.hitCounts := by
  calc built.map (fun d => c.hitsOf d.2)
      = (built.map (·.2.entry)).map fun i => c.hitCounts.getD i 0 := by
        rw [List.map_map]
        rfl
    _ = (List.range c.hitCounts.length).map fun i => c.hitCounts.getD i 0 := by
        rw [h.built, h.counters]
    _ = c.hitCounts := by
        apply List.ext_getElem
        · simp
        · intro i _ hi
          simp [hi]

/-- **A lookup is served just when it can be, and the counters add up.**  Let no two shapes that are
looked up for one row type have the same signature.  A lookup that gives a row function is a hit if,
since its type was last purged, one for the same columns gave a row function, and otherwise it
builds one; it does not matter whether the ranges were given with a length or without.  A lookup
that fails changes nothing.  There are as many hits and builds as lookups that gave a row function,
as many hits as the row functions built so far have counted, as many builds as entries together with
those that purges dropped, and as many purges as were asked for. -/
theorem hits_and_builds (signature : Signature) (handlers : Handlers)
    (events : List (CacheEvent κ)) (hfree : CollisionFree signature events) :
    let c₀ : Cache κ := fresh signature handlers
    let c := c₀.run
    (∀ before k v range firstMissing after,
        events = before ++ .lookup k v range firstMissing :: after →
        let c' := c (before ++ [.lookup k v range firstMissing])
        (∀ e, (c before).getOrBuild k v range firstMissing = .error e → c' = c before) ∧
          ∀ d c'', (c before).getOrBuild k v range firstMissing = .ok (d, c'') → c'' = c' ∧
            ∃ start length, range.resolve v.columnCount = .ok (start, length) ∧
              (c₀.AnsweredSince k v start length firstMissing before →
                c'.hits = (c before).hits + 1 ∧ c'.builds = (c before).builds) ∧
              (¬ c₀.AnsweredSince k v start length firstMissing before →
                c'.builds = (c before).builds + 1 ∧ c'.hits = (c before).hits)) ∧
      (c events).builds + (c events).hits = (c₀.log Cache.found events).length ∧
      (c events).hits = ((c₀.log newlyBuilt events).map fun d => (c events).hitsOf d.2).sum ∧
      (c events).size + (c₀.log Cache.dropped events).sum = (c events).builds ∧
      (c events).purges = (c₀.log Cache.dropped events).length := by
  intro c₀ c
  have hcounted := counted_run handlers hfree
  refine ⟨?_, hcounted.found, ?_, hcounted.size, hcounted.purges⟩
  · rintro before k v range firstMissing after rfl c'
    have hafter : c' = (c before).after (.lookup k v range firstMissing) := run_concat ..
    refine ⟨fun e he => hafter.trans (after_lookup_of_error he), fun d c'' hok => ?_⟩
    refine ⟨(hafter.trans (after_lookup_of_ok hok)).symm, ?_⟩
    rcases lookup_cases (c before) k v range firstMissing with
      ⟨error, hlookup⟩ | ⟨start, length, hrange, hlookup⟩
    · rw [hok] at hlookup
      cases hlookup
    · have hserves : (c before).Serves ((c before).keyFor k v start length firstMissing) v ↔
          c₀.AnsweredSince k v start length firstMissing before :=
        serves_iff rfl fun w range' hmem hrange' =>
          hfree k firstMissing w range' v range (List.mem_append_left _ hmem)
            (List.mem_append_right _ List.mem_cons_self) start length hrange' hrange
      refine ⟨start, length, hrange, ?_⟩
      rw [hafter, ← hserves]
      rcases hlookup with ⟨hhit, d', -, hlookup⟩ | ⟨hnew, rowFn, -, hlookup⟩
      · rw [after_lookup_of_ok hlookup]
        exact ⟨fun _ => ⟨rfl, rfl⟩, fun h => absurd hhit h⟩
      · rw [after_lookup_of_ok hlookup]
        exact ⟨fun h => absurd h hnew, fun _ => ⟨rfl, rfl⟩⟩
  · rw [hcounted.map_hitsOf]
    exact hcounted.hits

/-- A range given in two ways, columns that cannot be converted, and a purge. -/
theorem hits_and_builds_of_purged :
    let word : RowView := ⟨1, fun _ => "word", fun _ => .text, fun _ => .ok (.text "a")⟩
    let number : RowView := ⟨1, fun _ => "number", fun _ => .i64, fun _ => .ok (.signed 7)⟩
    let events : List (CacheEvent ScalarType) :=
      [.lookup .text word .all false, .lookup .text word ⟨0, some 1⟩ false,
        .lookup .value number .all false, .lookup .text number .all false, .purge (some .text),
        .lookup .text word .all false]
    let c₀ : Cache ScalarType := fresh .hashed .empty
    let c := c₀.run events
    CollisionFree .hashed events ∧ c.stats = ⟨2, 3, 1, 1⟩ ∧
      c.builds + c.hits = (c₀.log Cache.found events).length ∧
      c.hits = ((c₀.log newlyBuilt events).map fun d => c.hitsOf d.2).sum ∧
      c.size + (c₀.log Cache.dropped events).sum = c.builds ∧
      c.purges = (c₀.log Cache.dropped events).length := by
  intro word number events c₀ c
  have hlookup (k : ScalarType) (v : RowView) (range : ColumnRange) (firstMissing : Bool)
      (h : .lookup k v range firstMissing ∈ events) (start length : Nat)
      (hrange : range.resolve v.columnCount = .ok (start, length)) :
      (v = word ∨ v = number) ∧ firstMissing = false ∧ start = 0 ∧ length = 1 := by
    simp only [events, List.mem_cons, CacheEvent.lookup.injEq, List.not_mem_nil, or_false,
      reduceCtorEq, false_or] at h
    rcases h with ⟨-, rfl, rfl, rfl⟩ | ⟨-, rfl, rfl, rfl⟩ | ⟨-, rfl, rfl, rfl⟩ |
      ⟨-, rfl, rfl, rfl⟩ | ⟨-, rfl, rfl, rfl⟩ <;> cases hrange
    · exact ⟨.inl rfl, rfl, rfl, rfl⟩
    · exact ⟨.inl rfl, rfl, rfl, rfl⟩
    · exact ⟨.inr rfl, rfl, rfl, rfl⟩
    · exact ⟨.inr rfl, rfl, rfl, rfl⟩
    · exact ⟨.inl rfl, rfl, rfl, rfl⟩
  have hsignature : Signature.hashed false 0 (.capture word 0 1) ≠
      Signature.hashed false 0 (.capture number 0 1) := by
    dsimp only [word, number]
    decide +kernel
  have hfree : CollisionFree .hashed events := by
    intro k firstMissing v range w range' hmem hmem' start length hrange hrange' hsame
    obtain ⟨hv, rfl, rfl, rfl⟩ := hlookup k v range firstMissing hmem start length hrange
    obtain ⟨hw, -⟩ := hlookup k w range' false hmem' 0 1 hrange'
    rcases hv with rfl | rfl <;> rcases hw with rfl | rfl
    · exact ⟨fun _ _ => rfl, fun _ _ => rfl⟩
    · exact absurd hsame hsignature
    · exact absurd hsame.symm hsignature
    · exact ⟨fun _ _ => rfl, fun _ _ => rfl⟩
  refine ⟨hfree, ?_, (hits_and_builds .hashed .empty events hfree).2⟩
  decide +kernel

end Cache

end RowMapping
