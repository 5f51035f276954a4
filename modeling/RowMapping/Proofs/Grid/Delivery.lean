import RowMapping.Proofs.Grid.Request
import RowMapping.Proofs.Grid.ResultSets

/-!
# Delivery of grids

A grid reader of result sets in memory delivers each of them once and in order, however it is used:
the reader is always before the result set with the number of the requests that were admitted so
far, until there is none or reading stops (`ReaderOp.delivery`).  What a request is answered is made
of the items of that result set (`Request.perform_result`).

The invariant `ReaderOp.Delivery` ties the position of the reader to the cursor; one operation keeps
it, and so do all.
-/

namespace RowMapping

variable {κ : Type} [RowTypes κ] [DecidableEq κ]

/-! ### Requests -/

namespace Request

variable {sets : List ResultSet} {i grid : Nat} {s : ResultSet} {q : Request κ}
  {r : GridReader BufferedCursor κ}

theorem perform_result (hs : sets[i]? = some s) (hr : r.walk = ⟨⟨sets, i, none⟩, .active i⟩)
    (hadmitted : q.admitted r.walk.position = .ok grid) :
    let result := (q.perform r).result
    grid = i ∧
      result.1 = (s.offer r.cache q.type).bind (fun items => q.answer i (q.demand.seen items)) ∧
      (result.2.cache = r.cache ∨
        result.2.cache = r.cache.after (.lookup q.type s.header .all false)) ∧
      (s.offersFatal r.cache q.type q.demand → result.2.walk.position = .disposed) ∧
      (¬ s.offersFatal r.cache q.type q.demand → result.2.walk = .past sets i) := by
  intro result
  obtain ⟨hposition, htarget⟩ := admitted_eq_ok hadmitted
  have hgrid : grid = i := by
    rw [hr] at hposition
    cases hposition
    rfl
  subst hgrid
  obtain ⟨hitems, hcache, hwalk⟩ := GridReader.pullGrid_result hs hr q.type q.demand
  have hresult : result = (((r.pullGrid q.type grid q.demand).result.1.bind fun p =>
      q.answer grid p.items), (r.pullGrid q.type grid q.demand).result.2) := by
    change (q.perform r).result = _
    rw [perform_eq, htarget]
    rfl
  rw [hresult]
  refine ⟨rfl, ?_, hcache, hwalk⟩
  dsimp only
  cases hpulled : (r.pullGrid q.type grid q.demand).result.1 with
  | error e =>
    rw [hpulled] at hitems
    rw [map_eq_error.1 hitems.symm]
    rfl
  | ok p =>
    rw [hpulled] at hitems
    obtain ⟨items, hoffer, hseen⟩ := map_eq_ok.1 hitems.symm
    rw [hoffer]
    change q.answer grid p.items = q.answer grid (q.demand.seen items)
    rw [hseen]

/-- The request may begin, and sees a fatal error. -/
def SeesFatal (q : Request κ) (r : GridReader BufferedCursor κ) : Prop :=
  ∃ grid s, q.admitted r.walk.position = .ok grid ∧ r.walk.cursor.sets[grid]? = some s ∧
    s.offersFatal r.cache q.type q.demand

theorem seesFatal_iff (hs : sets[i]? = some s) (hr : r.walk = ⟨⟨sets, i, none⟩, .active i⟩)
    (hadmitted : q.admitted r.walk.position = .ok i) :
    q.SeesFatal r ↔ s.offersFatal r.cache q.type q.demand := by
  constructor
  · rintro ⟨grid, s', hok, hset, hoffers⟩
    cases hadmitted.symm.trans hok
    rw [hr] at hset
    cases hs.symm.trans hset
    exact hoffers
  · intro hoffers
    refine ⟨i, s, hadmitted, ?_, hoffers⟩
    rw [hr]
    exact hs

end Request

namespace ReaderOp

/-- The operation is a request that sees a fatal error. -/
def SeesFatal (r : GridReader BufferedCursor κ) : ReaderOp κ → Prop
  | request q => q.SeesFatal r
  | dispose => False

/-- Some operation sees a fatal error at its time. -/
def FatalSeen (r : GridReader BufferedCursor κ) : List (ReaderOp κ) → Prop
  | [] => False
  | op :: ops => op.SeesFatal r ∨ FatalSeen (op.after r) ops

theorem fatalSeen_concat {r : GridReader BufferedCursor κ} (ops : List (ReaderOp κ))
    (op : ReaderOp κ) :
    FatalSeen r (ops ++ [op]) ↔ FatalSeen r ops ∨ op.SeesFatal (run r ops) := by
  induction ops generalizing r with
  | nil => simp [FatalSeen, run]
  | cons first ops ih =>
    rw [List.cons_append, FatalSeen, FatalSeen, ih, or_assoc]
    rfl

/-- How a reader of result sets stands after operations. -/
structure Delivery (sets : List ResultSet) (start : GridReader BufferedCursor κ)
    (ops : List (ReaderOp κ)) : Prop where
  /-- The cache has only been looked up. -/
  cache : ∃ lookups : List (CacheEvent κ), (∀ e ∈ lookups, e.IsLookup) ∧
    (run start ops).cache = start.cache.run lookups
  /-- The reader is before the grid that comes after those that were read, or has stopped for a
  reason. -/
  stands :
    ((run start ops).walk = ⟨⟨sets, accepted start ops, none⟩, .active (accepted start ops)⟩ ∧
      accepted start ops < sets.length ∧ .dispose ∉ ops ∧ ¬ FatalSeen start ops) ∨
    ((run start ops).walk.position = .disposed ∧
      (accepted start ops = sets.length ∨ .dispose ∈ ops ∨ FatalSeen start ops))

variable {sets : List ResultSet} {start : GridReader BufferedCursor κ} {ops : List (ReaderOp κ)}

theorem delivery_nil (hsets : sets ≠ []) (hstart : start.walk = ⟨⟨sets, 0, none⟩, .active 0⟩) :
    Delivery sets start [] where
  cache := ⟨[], nofun, rfl⟩
  stands := .inl ⟨hstart, List.length_pos_iff.2 hsets, List.not_mem_nil, id⟩

theorem Delivery.concat_rejected (h : Delivery sets start ops) {q : Request κ} {e : Error}
    (hadmitted : q.admitted (run start ops).walk.position = .error e) :
    Delivery sets start (ops ++ [.request q]) := by
  have hrun : run start (ops ++ [.request q]) = run start ops := by
    rw [run_concat, after, Request.perform_of_admitted_eq_error hadmitted]
    rfl
  have haccepted : accepted start (ops ++ [.request q]) = accepted start ops := by
    rw [accepted_concat, isAccepted, hadmitted]
    rfl
  have hdispose : .dispose ∈ ops ++ [.request q] ↔ .dispose ∈ ops := by simp
  have hfatal : FatalSeen start (ops ++ [.request q]) ↔ FatalSeen start ops := by
    rw [fatalSeen_concat, or_iff_left]
    rintro ⟨grid, s, hok, -⟩
    cases hadmitted.symm.trans hok
  refine ⟨hrun ▸ h.cache, ?_⟩
  rw [hrun, haccepted, hdispose, hfatal]
  exact h.stands

theorem Delivery.concat_accepted (h : Delivery sets start ops) {q : Request κ} {grid : Nat}
    (hadmitted : q.admitted (run start ops).walk.position = .ok grid) :
    Delivery sets start (ops ++ [.request q]) := by
  rcases h.stands with ⟨hwalk, hlt, hdispose, hfatal⟩ | ⟨hdisposed, -⟩
  · have hs := List.getElem?_eq_getElem hlt
    have haccepted : accepted start (ops ++ [.request q]) = accepted start ops + 1 := by
      rw [accepted_concat, isAccepted, hadmitted]
      rfl
    generalize accepted start ops = i at hwalk hlt hs haccepted
    obtain ⟨rfl, -, hcache, hstop, hpast⟩ := Request.perform_result hs hwalk hadmitted
    have hrun : run start (ops ++ [.request q]) = (q.perform (run start ops)).result.2 :=
      run_concat ops (.request q)
    rw [← hrun] at hcache hstop hpast
    have hsees : FatalSeen start (ops ++ [.request q]) ↔
        sets[grid].offersFatal (run start ops).cache q.type q.demand := by
      rw [fatalSeen_concat, or_iff_right hfatal]
      exact Request.seesFatal_iff hs hwalk hadmitted
    constructor
    · obtain ⟨lookups, hlookups, heq⟩ := h.cache
      rcases hcache with hcache | hcache
      · exact ⟨lookups, hlookups, hcache.trans heq⟩
      · refine ⟨lookups ++ [.lookup q.type sets[grid].header .all false], ?_, ?_⟩
        · exact List.forall_mem_append.2 ⟨hlookups, List.forall_mem_singleton.2 trivial⟩
        · rw [hcache, heq, Cache.run_concat]
    · rw [haccepted]
      by_cases hoffers : sets[grid].offersFatal (run start ops).cache q.type q.demand
      · exact .inr ⟨hstop hoffers, .inr (.inr (hsees.2 hoffers))⟩
      · rw [hpast hoffers]
        by_cases hnext : grid + 1 < sets.length
        · exact .inl ⟨Walk.past_eq_active hnext, hnext, by simpa using hdispose,
            fun hseen => hoffers (hsees.1 hseen)⟩
        · exact .inr ⟨Walk.past_position_eq_disposed hnext, .inl (by omega)⟩
  · -- a reader with nothing left to read admits nothing
    obtain ⟨hposition, -⟩ := Request.admitted_eq_ok hadmitted
    cases hdisposed.symm.trans hposition

theorem Delivery.concat (h : Delivery sets start ops) (op : ReaderOp κ) :
    Delivery sets start (ops ++ [op]) := by
  cases op with
  | request q =>
    cases hadmitted : q.admitted (run start ops).walk.position with
    | error e => exact h.concat_rejected hadmitted
    | ok grid => exact h.concat_accepted hadmitted
  | dispose =>
    refine ⟨?_, .inr ⟨?_, .inr (.inl (by simp))⟩⟩
    · rw [run_concat]
      exact h.cache
    · rw [run_concat]
      rfl

theorem delivery (hsets : sets ≠ []) (hstart : start.walk = ⟨⟨sets, 0, none⟩, .active 0⟩)
    (ops : List (ReaderOp κ)) : Delivery sets start ops := by
  induction ops using List.reverseRecOn with
  | nil => exact delivery_nil hsets hstart
  | append_singleton ops op ih => exact ih.concat op

/-- **Grids are delivered once and in order.**  Let a reader of result sets have any history of its
cache, and do any operations with it.  Then it is before the result set with the number of the
requests admitted so far, or is disposed, which it is exactly if there is no such result set, or it
was told to be, or a fatal error was seen.  A request that is not admitted changes nothing.  One
that is admitted is answered from the items of that result set: one for each row, in order, as a row
function makes them that was built for its columns; none if there are no columns; or the error why
no row function can be built. -/
theorem grids_delivered (signature : Signature) (handlers : Handlers)
    (events : List (CacheEvent κ)) (sets : List ResultSet) (hsets : sets ≠ [])
    (ops : List (ReaderOp κ)) :
    let c : List (CacheEvent κ) → Cache κ := (Cache.fresh signature handlers).run
    let start : GridReader BufferedCursor κ := .ofCursor { sets } (c events)
    let r := run start ops
    let i := accepted start ops
    (r.walk = ⟨⟨sets, i, none⟩, .active i⟩ ∨ r.walk.position = .disposed) ∧
      (r.walk.position = .disposed ↔ i = sets.length ∨ .dispose ∈ ops ∨ FatalSeen start ops) ∧
      ∃ lookups, (∀ e ∈ lookups, e.IsLookup) ∧ r.cache = c (events ++ lookups) ∧
        ∀ q : Request κ,
          (∀ e, q.admitted r.walk.position = .error e → q.perform r = pure (.error e, r)) ∧
          ∀ grid, q.admitted r.walk.position = .ok grid → grid = i ∧ ∃ s, sets[i]? = some s ∧
            (q.perform r).result.1 =
              (s.offer r.cache q.type).bind (fun items => q.answer i (q.demand.seen items)) ∧
            (s.columns = [] → s.offer r.cache q.type = .ok []) ∧
            (∀ e, s.offer r.cache q.type = .error e → ∃ schema,
              (RowTypes.layout q.type).build s.header r.cache.handlers 0 s.columns.length false
                schema = .error e) ∧
            ∀ items, s.offer r.cache q.type = .ok items → q.demand.seen items <+: items ∧
              (s.columns ≠ [] → ∃ before,
                CacheEvent.NoPurgeSince q.type before (events ++ lookups) ∧
                  s.Materializes q.type (c before).handlers items) := by
  intro c start r i
  have h : Delivery sets start ops := delivery hsets rfl ops
  obtain ⟨lookups, hlookups, heq⟩ := h.cache
  have hcache : r.cache = c (events ++ lookups) := by
    rw [heq]
    exact (List.foldl_append ..).symm
  refine ⟨h.stands.imp And.left And.left, ?_, lookups, hlookups, hcache, fun q =>
    ⟨fun e hadmitted => Request.perform_of_admitted_eq_error hadmitted,
      fun grid hadmitted => ?_⟩⟩
  · rcases h.stands with ⟨hwalk, hlt, hdispose, hfatal⟩ | ⟨hdisposed, hwhy⟩
    · refine iff_of_false ?_ ?_
      · rw [hwalk]
        nofun
      · rintro (hi | hmem | hseen)
        · exact absurd hi (Nat.ne_of_lt hlt)
        · exact hdispose hmem
        · exact hfatal hseen
    · exact iff_of_true hdisposed hwhy
  · rcases h.stands with ⟨hwalk, hlt, -, -⟩ | ⟨hdisposed, -⟩
    · have hs := List.getElem?_eq_getElem hlt
      obtain ⟨hgrid, hanswer, -⟩ := Request.perform_result hs hwalk hadmitted
      refine ⟨hgrid, _, hs, hanswer, fun hcolumns => if_pos hcolumns,
        fun e he => ResultSet.exists_build_of_offer_eq_error he,
        fun items hitems => ⟨q.demand.seen_isPrefix items, fun hcolumns => ?_⟩⟩
      rw [hcache] at hitems
      exact ResultSet.exists_materializes_of_offer rfl hcolumns hitems
    · obtain ⟨hposition, -⟩ := Request.admitted_eq_ok hadmitted
      cases hdisposed.symm.trans hposition

/-- The second of two result sets is asked for and refused, and then the first one is read. -/
theorem grids_delivered_of_two_sets :
    let words : ResultSet := ⟨[⟨"word", .text⟩], [[.text "a"], [.null]],
      List.forall_mem_cons.2 ⟨rfl, List.forall_mem_singleton.2 rfl⟩⟩
    let numbers : ResultSet := ⟨[⟨"number", .i64⟩], [[.signed 7]],
      List.forall_mem_singleton.2 rfl⟩
    let c : Cache ScalarType := (Cache.fresh .hashed .empty).run []
    let start : GridReader BufferedCursor ScalarType := .ofCursor { sets := [words, numbers] } c
    let ops : List (ReaderOp ScalarType) := [.request (.indexed (.int ⟨true, .w64⟩) 1 true none)]
    [words, numbers] ≠ [] ∧ accepted start ops = 0 ∧
      ((Request.read (ScalarType.option .text)).perform (run start ops)).result.1 =
        .ok [some "a", none] := by
  intro words numbers c start ops
  have hsets : [words, numbers] ≠ [] := List.cons_ne_nil _ _
  obtain ⟨-, -, _, -, -, hrequest⟩ :=
    grids_delivered .hashed .empty [] [words, numbers] hsets ops
  obtain ⟨-, s, hs, hanswer, -⟩ := (hrequest (.read (.option .text))).2 0 rfl
  cases hs
  exact ⟨hsets, rfl, hanswer.trans rfl⟩

end ReaderOp

end RowMapping
