import Zettide.Catalog.Ownership
import Mathlib.Data.List.Find

/-! # The sweep decides the pointwise rule

A transition between two catalogs is checked only where an interval of one of them begins or ends.
That is enough: from one position to the next, without a boundary in between, both catalogs keep
their state, or move to the next extent of the same runs, and the rule that compares the states
gives the same verdict. So the sweep accepts exactly when the rule holds at every position.

* `sweepFrom_visits`: the loop ends, and its cursor takes every boundary once, in order.
* `Visits.forAll_iff`: what a sweep decides about a check that does not change between boundaries.
* `validateSnapshots_iff_pointwise`: the check of two catalogs, position by position. -/

namespace Zettide.PoolCatalogGraph

open PoolCatalog PoolCatalogPage List Sample PhysicalState

/-! ## The loop over the boundaries -/

variable {position slot last cursor first : Nat} {boundaries : List Nat}
  {catalog current previous : ValidatedCatalog} {intervals : List PhysicalInterval}
  {cursors : List Nat} {page : Nat}

theorem nextBoundary_eq_none :
    nextBoundary boundaries cursor = none ↔ ∀ boundary ∈ boundaries, boundary ≤ cursor := by
  simp [nextBoundary, min?_eq_none_iff]

theorem nextBoundary_eq_some {next : Nat} (h : nextBoundary boundaries cursor = some next) :
    next ∈ boundaries ∧ cursor < next ∧
      ∀ boundary ∈ boundaries, cursor < boundary → next ≤ boundary := by
  obtain ⟨hmem, hmin⟩ := min?_eq_some_iff.mp h
  simp only [mem_filter, decide_eq_true_eq] at hmem hmin
  exact ⟨hmem.1, hmem.2, fun boundary hboundary hlt => hmin boundary ⟨hboundary, hlt⟩⟩

/-- The cursors of a sweep: its start and every boundary behind it, each once and in order. -/
structure Visits (boundaries : List Nat) (first : Nat) (cursors : List Nat) : Prop where
  ordered : cursors.Pairwise (· < ·)
  mem_iff : ∀ position, position ∈ cursors ↔
    position = first ∨ position ∈ boundaries ∧ first < position

/-- The boundaries behind the next one are fewer than those behind the cursor. -/
theorem length_filter_lt {next : Nat} (hmem : next ∈ boundaries)
    (hlt : cursor < next) : (boundaries.filter (next < ·)).length <
      (boundaries.filter (cursor < ·)).length := by
  have heq : boundaries.filter (next < ·) = (boundaries.filter (cursor < ·)).filter (next < ·) := by
    rw [filter_filter]
    refine filter_congr fun boundary _ => ?_
    by_cases hnext : next < boundary
    · simp [hnext, hlt.trans hnext]
    · simp [hnext]
  rw [heq]
  refine length_filter_lt_length_iff_exists.mpr ⟨next, ?_, ?_⟩
  · simp [hmem, hlt]
  · simp

/-- With enough fuel the loop checks every cursor but the last and returns the last, whatever the
check is. -/
theorem sweepFrom_visits (fuel : Nat) :
    ∀ {cursor : Nat}, (boundaries.filter (cursor < ·)).length < fuel →
      ∃ cursors last, Visits boundaries cursor (cursors ++ [last]) ∧
        ∀ check, sweepFrom boundaries check fuel cursor = (do forAll check cursors; .ok last) := by
  induction fuel with
  | zero => intro cursor h; omega
  | succ fuel ih =>
    intro cursor hfuel
    cases hnext : nextBoundary boundaries cursor with
    | none =>
      have hnone := nextBoundary_eq_none.mp hnext
      refine ⟨[], cursor, ⟨by simp, fun position => ?_⟩, fun check => ?_⟩
      · constructor
        · intro hmem
          exact .inl (by simpa using hmem)
        · rintro (rfl | ⟨hmem, hlt⟩)
          · simp
          · exact absurd hlt (Nat.not_lt.mpr (hnone position hmem))
      · rw [sweepFrom, hnext]
        rfl
    | some next =>
      obtain ⟨hmem, hlt, hmin⟩ := nextBoundary_eq_some hnext
      have hfewer : (boundaries.filter (next < ·)).length < fuel :=
        (length_filter_lt hmem hlt).trans_le (Nat.le_of_lt_succ hfuel)
      obtain ⟨cursors, last, hvisits, hrun⟩ := ih hfewer
      refine ⟨cursor :: cursors, last, ⟨?_, fun position => ?_⟩, fun check => ?_⟩
      · refine pairwise_cons.mpr ⟨fun other hother => ?_, hvisits.ordered⟩
        rcases (hvisits.mem_iff other).mp hother with rfl | ⟨-, hbehind⟩
        · exact hlt
        · exact hlt.trans hbehind
      · rw [cons_append, mem_cons, hvisits.mem_iff]
        constructor
        · rintro (rfl | rfl | ⟨hboundary, hbehind⟩)
          · exact .inl rfl
          · exact .inr ⟨hmem, hlt⟩
          · exact .inr ⟨hboundary, hlt.trans hbehind⟩
        · rintro (rfl | ⟨hboundary, hbehind⟩)
          · exact .inl rfl
          · rcases (hmin position hboundary hbehind).eq_or_lt with heq | hgt
            · exact .inr (.inl heq.symm)
            · exact .inr (.inr ⟨hboundary, hgt⟩)
      · rw [sweepFrom, hnext]
        simp only [hrun, forAll]
        cases check cursor <;> rfl

theorem sweep_visits (boundaries : List Nat) (first : Nat) :
    ∃ cursors last, Visits boundaries first (cursors ++ [last]) ∧
      ∀ check, sweep boundaries check first = (do forAll check cursors; .ok last) := by
  refine sweepFrom_visits (boundaries.length + 1) ?_
  exact Nat.lt_succ_of_le (length_filter_le _ _)

/-- The position is the greatest of the start and the boundaries behind it. -/
def IsLast (boundaries : List Nat) (first last : Nat) : Prop :=
  (last = first ∨ last ∈ boundaries) ∧ first ≤ last ∧ ∀ boundary ∈ boundaries, boundary ≤ last

theorem IsLast.unique {other : Nat}
    (h : IsLast boundaries first last) (h' : IsLast boundaries first other) : last = other := by
  apply Nat.le_antisymm
  · rcases h.1 with rfl | hmem
    · exact h'.2.1
    · exact h'.2.2 last hmem
  · rcases h'.1 with rfl | hmem
    · exact h.2.1
    · exact h.2.2 other hmem

section

variable (h : Visits boundaries first (cursors ++ [last]))
include h

theorem Visits.isLast : IsLast boundaries first last := by
  have hle : ∀ position ∈ cursors ++ [last], position ≤ last := by
    intro position hmem
    rcases mem_append.mp hmem with hcursor | hlast
    · exact ((pairwise_append.mp h.ordered).2.2 position hcursor last (by simp)).le
    · exact (mem_singleton.mp hlast).le
  have hfirst : first ≤ last := hle first ((h.mem_iff first).mpr (.inl rfl))
  refine ⟨?_, hfirst, fun boundary hmem => ?_⟩
  · rcases (h.mem_iff last).mp (by simp) with hstart | hboundary
    · exact .inl hstart
    · exact .inr hboundary.1
  · by_cases hbehind : first < boundary
    · exact hle boundary ((h.mem_iff boundary).mpr (.inr ⟨hmem, hbehind⟩))
    · omega

/-- A check whose success carries over to the next position, unless that is a boundary, is decided
by the cursors for all positions from the first one to the last. -/
theorem Visits.forAll_iff {check : Nat → Except CatalogError Unit}
    (hstep : ∀ position, position + 1 ∉ boundaries → check position = .ok () →
      check (position + 1) = .ok ()) :
    forAll check cursors = .ok () ↔
      ∀ position, first ≤ position → position < last → check position = .ok () := by
  rw [forAll_eq_ok]
  constructor
  · intro hcursors position hfirst hlt
    -- a cursor before the last one is checked
    have hchecked : ∀ position ∈ cursors ++ [last], position < last → check position = .ok () := by
      intro position hmem hlt
      rcases mem_append.mp hmem with hcursor | hlast
      · exact hcursors position hcursor
      · exact absurd (mem_singleton.mp hlast) hlt.ne
    -- From a position to the next: either the next one is a cursor, or nothing changes.
    induction position, hfirst using Nat.le_induction with
    | base => exact hchecked first ((h.mem_iff first).mpr (.inl rfl)) hlt
    | succ position hle ih =>
      by_cases hboundary : position + 1 ∈ boundaries
      · exact hchecked _ ((h.mem_iff _).mpr (.inr ⟨hboundary, by omega⟩)) hlt
      · exact hstep position hboundary (ih (by omega))
  · intro hpoint cursor hcursor
    refine hpoint cursor ?_ ?_
    · rcases (h.mem_iff cursor).mp (mem_append_left _ hcursor) with rfl | ⟨-, hlt⟩
      · exact Nat.le_refl _
      · exact hlt.le
    · exact (pairwise_append.mp h.ordered).2.2 cursor hcursor last (by simp)

end

/-! ## Physical extents -/

/-- The state of the next extent, when no interval begins or ends there: a mapped extent is
followed by the next one of its volume. -/
def PhysicalState.next : PhysicalState → PhysicalState
  | .mapped mapping => .mapped ⟨mapping.volumeId, mapping.logicalExtent + 1⟩
  | state => state

theorem validatePhysicalStateChange_next {before after : PhysicalState} {hasState : Bool}
    {generation barrier : Nat} :
    validatePhysicalStateChange before.next after.next hasState generation barrier = .ok () ↔
      validatePhysicalStateChange before after hasState generation barrier = .ok () := by
  cases before with
  | mapped mapping =>
    cases after with
    | mapped other =>
      obtain ⟨volume, extent⟩ := mapping
      obtain ⟨otherVolume, otherExtent⟩ := other
      simp [PhysicalState.next, validatePhysicalStateChange]
    | _ => rfl
  | _ => cases after <;> rfl

/-- An interval that neither begins nor ends at the next position holds both or none. -/
theorem rangeContains_succ {start count : Nat} (h : position + 1 ∉ boundaries)
    (hstart : start ∈ boundaries) (hend : start + count ∈ boundaries) :
    rangeContains start count (position + 1) ↔ rangeContains start count position := by
  have hne : position + 1 ≠ start := fun heq => h (heq ▸ hstart)
  have hne' : position + 1 ≠ start + count := fun heq => h (heq ▸ hend)
  unfold rangeContains
  omega

theorem interval_boundaries {interval : PhysicalInterval}
    (hmem : interval ∈ catalog.free ++ catalog.retired) :
    interval.physicalStart ∈ physicalBoundaries catalog interval.memberSlot ∧
      interval.physicalStart + interval.extentCount ∈
        physicalBoundaries catalog interval.memberSlot := by
  have hlisted : interval ∈ (catalog.free ++ catalog.retired).filter
      fun other => other.memberSlot = interval.memberSlot := by
    simpa using hmem
  constructor
  · exact mem_append_left _ (mem_flatMap.mpr ⟨interval, hlisted, by simp⟩)
  · exact mem_append_left _ (mem_flatMap.mpr ⟨interval, hlisted, by simp⟩)

theorem run_boundaries {volumeId : Id} {run : ExtentRun}
    (hmem : (volumeId, run) ∈ catalog.runs) (hslot : slot ∈ run.memberSlots) :
    run.physicalStart ∈ physicalBoundaries catalog slot ∧
      run.physicalStart + run.extentCount ∈ physicalBoundaries catalog slot := by
  obtain ⟨descriptor, runs, hvolume, -, hrun⟩ := mem_runs.mp hmem
  have hflat : run ∈ catalog.extentRuns.flatten :=
    mem_flatten.mpr ⟨runs, (of_mem_zip hvolume).2, hrun⟩
  have hlisted : run ∈ catalog.extentRuns.flatten.filter
      fun other => other.memberSlots.contains slot := by
    exact mem_filter.mpr ⟨hflat, contains_iff_mem.mpr hslot⟩
  constructor
  · exact mem_append_right _ (mem_flatMap.mpr ⟨run, hlisted, by simp⟩)
  · exact mem_append_right _ (mem_flatMap.mpr ⟨run, hlisted, by simp⟩)

theorem findInterval_succ
    (hsub : ∀ interval ∈ intervals, interval ∈ catalog.free ++ catalog.retired)
    (h : position + 1 ∉ physicalBoundaries catalog slot) :
    findInterval intervals slot (position + 1) = findInterval intervals slot position := by
  refine find?_congr fun interval hmem => ?_
  by_cases hslot : interval.memberSlot = slot
  · subst hslot
    obtain ⟨hstart, hend⟩ := interval_boundaries (hsub interval hmem)
    simp [rangeContains_succ h hstart hend]
  · simp [hslot]

/-- The run that an extent of a slot belongs to. -/
def findRun (catalog : ValidatedCatalog) (slot position : Nat) : Option (Id × ExtentRun) :=
  catalog.runs.find? fun (_, run) => slot ∈ run.memberSlots ∧
    rangeContains run.physicalStart run.extentCount position

theorem findRun_succ (h : position + 1 ∉ physicalBoundaries catalog slot) :
    findRun catalog slot (position + 1) = findRun catalog slot position := by
  refine find?_congr fun entry hmem => ?_
  obtain ⟨volumeId, run⟩ := entry
  by_cases hslot : slot ∈ run.memberSlots
  · obtain ⟨hstart, hend⟩ := run_boundaries hmem hslot
    simp [rangeContains_succ h hstart hend]
  · simp [hslot]

theorem physicalStateAt_succ (h : position + 1 ∉ physicalBoundaries catalog slot) :
    physicalStateAt catalog slot (position + 1) = (physicalStateAt catalog slot position).next := by
  rw [physicalStateAt, physicalStateAt, ← findRun, ← findRun,
    findInterval_succ (fun _ hmem => mem_append_left _ hmem) h,
    findInterval_succ (fun _ hmem => mem_append_right _ hmem) h, findRun_succ h]
  cases findInterval catalog.free slot position with
  | some interval => rfl
  | none =>
    cases findInterval catalog.retired slot position with
    | some interval => rfl
    | none =>
      rcases hfind : findRun catalog slot position with _ | entry
      · rfl
      obtain ⟨volumeId, run⟩ := entry
      have hwithin := find?_some hfind
      simp only [decide_eq_true_eq] at hwithin
      have hstart : run.physicalStart ≤ position := hwithin.2.1
      have hnext : run.logicalStart + (position + 1 - run.physicalStart) =
          run.logicalStart + (position - run.physicalStart) + 1 := by omega
      simp only [PhysicalState.next, hnext]

/-- The position is before all boundaries or behind all of them. -/
def Outside (boundaries : List Nat) (position : Nat) : Prop :=
  (∀ boundary ∈ boundaries, position < boundary) ∨ ∀ boundary ∈ boundaries, boundary ≤ position

theorem Outside.mono {fewer : List Nat}
    (h : Outside boundaries position) (hsub : ∀ boundary ∈ fewer, boundary ∈ boundaries) :
    Outside fewer position :=
  h.imp (fun hbefore boundary hmem => hbefore boundary (hsub boundary hmem))
    fun hbehind boundary hmem => hbehind boundary (hsub boundary hmem)

theorem Outside.not_rangeContains {start count : Nat}
    (h : Outside boundaries position) (hstart : start ∈ boundaries)
    (hend : start + count ∈ boundaries) : ¬ rangeContains start count position := by
  rintro ⟨hlow, hhigh⟩
  rcases h with hbefore | hbehind
  · have := hbefore start hstart
    omega
  · have := hbehind (start + count) hend
    omega

/-- No interval of the catalog is found where none covers the extent. -/
theorem findInterval_eq_none (h : ∀ interval ∈ catalog.free ++ catalog.retired,
      ¬ (interval.memberSlot = slot ∧
        rangeContains interval.physicalStart interval.extentCount position)) :
    findInterval catalog.free slot position = none ∧
      findInterval catalog.retired slot position = none :=
  ⟨find?_eq_none.mpr fun interval hmem hcovers =>
      h interval (mem_append_left _ hmem) (of_decide_eq_true hcovers),
    find?_eq_none.mpr fun interval hmem hcovers =>
      h interval (mem_append_right _ hmem) (of_decide_eq_true hcovers)⟩

theorem physicalStateAt_outside (h : Outside (physicalBoundaries catalog slot) position) :
    physicalStateAt catalog slot position = .absent := by
  have hrun : findRun catalog slot position = none := by
    refine find?_eq_none.mpr fun entry hmem hcovers => ?_
    obtain ⟨hslot, hwithin⟩ := of_decide_eq_true hcovers
    obtain ⟨hstart, hend⟩ := run_boundaries hmem hslot
    exact h.not_rangeContains hstart hend hwithin
  obtain ⟨hfree, hretired⟩ : findInterval catalog.free slot position = none ∧ _ := by
    refine findInterval_eq_none ?_
    rintro interval hmem ⟨rfl, hwithin⟩
    obtain ⟨hstart, hend⟩ := interval_boundaries hmem
    exact h.not_rangeContains hstart hend hwithin
  rw [physicalStateAt, ← findRun, hfree, hretired, hrun]

/-- The check of one extent of a slot. -/
def physicalCheck (previous current : ValidatedCatalog) (slot ordinal : Nat) :
    Except CatalogError Unit :=
  validatePhysicalStateChange (physicalStateAt previous slot ordinal)
    (physicalStateAt current slot ordinal) (physicalSlotHasState previous slot)
    current.root.generation previous.root.generation

/-- The boundaries of both catalogs on a slot. -/
def slotBoundaries (previous current : ValidatedCatalog) (slot : Nat) : List Nat :=
  physicalBoundaries previous slot ++ physicalBoundaries current slot

theorem physicalCheck_succ (hboundary : position + 1 ∉ slotBoundaries previous current slot)
    (h : physicalCheck previous current slot position = .ok ()) :
    physicalCheck previous current slot (position + 1) = .ok () := by
  simp only [slotBoundaries, mem_append, not_or] at hboundary
  unfold physicalCheck
  rw [physicalStateAt_succ hboundary.1, physicalStateAt_succ hboundary.2,
    validatePhysicalStateChange_next]
  exact h

theorem physicalCheck_outside (h : Outside (slotBoundaries previous current slot) position) :
    physicalCheck previous current slot position = .ok () := by
  unfold physicalCheck
  rw [physicalStateAt_outside (h.mono fun _ hmem => mem_append_left _ hmem),
    physicalStateAt_outside (h.mono fun _ hmem => mem_append_right _ hmem)]
  rfl

/-- A check that goes on to a result which is then dropped. -/
theorem bind_ok_unit {α : Type} (x : Except CatalogError Unit) (a : α) :
    ((x >>= fun _ => .ok a) >>= fun _ => .ok ()) = x := by
  cases x <;> rfl

theorem slot_sweep (previous current : ValidatedCatalog) (slot : Nat) :
    (slotBoundaries previous current slot = [] ∧
      validatePhysicalSlotTransition previous current slot = .ok ()) ∨
    ∃ first cursors last, (first ∈ slotBoundaries previous current slot ∧
        ∀ boundary ∈ slotBoundaries previous current slot, first ≤ boundary) ∧
      Visits (slotBoundaries previous current slot) first (cursors ++ [last]) ∧
      validatePhysicalSlotTransition previous current slot =
        forAll (physicalCheck previous current slot) cursors := by
  cases hmin : (slotBoundaries previous current slot).min? with
  | none =>
    refine .inl ⟨min?_eq_none_iff.mp hmin, ?_⟩
    rw [slotBoundaries] at hmin
    simp only [validatePhysicalSlotTransition, hmin]
  | some first =>
    obtain ⟨cursors, last, hvisits, hrun⟩ :=
      sweep_visits (slotBoundaries previous current slot) first
    refine .inr ⟨first, cursors, last, min?_eq_some_iff.mp hmin, hvisits, ?_⟩
    rw [slotBoundaries] at hmin hrun
    simp only [validatePhysicalSlotTransition, hmin, hrun]
    exact bind_ok_unit _ last

/-- The sweep of a slot checks each of its boundaries once, but the last one. -/
theorem validatePhysicalSlotTransition_visits (previous current : ValidatedCatalog) (slot : Nat) :
    ∃ cursors : List Nat, cursors.Pairwise (· < ·) ∧
      (∀ position, position ∈ cursors ↔ position ∈ slotBoundaries previous current slot) ∧
      validatePhysicalSlotTransition previous current slot =
        forAll (physicalCheck previous current slot) cursors.dropLast := by
  rcases slot_sweep previous current slot with
    ⟨hempty, hrun⟩ | ⟨first, cursors, last, ⟨hfirst, hle⟩, hvisits, hrun⟩
  · exact ⟨[], by simp, by simp [hempty], hrun⟩
  refine ⟨cursors ++ [last], hvisits.ordered, fun position => ?_, by rwa [dropLast_concat]⟩
  rw [hvisits.mem_iff]
  constructor
  · rintro (rfl | ⟨hmem, -⟩)
    · exact hfirst
    · exact hmem
  · intro hmem
    rcases (hle position hmem).eq_or_lt with heq | hlt
    · exact .inl heq.symm
    · exact .inr ⟨hmem, hlt⟩

/-- The sweep of a slot decides the rule for all of its extents. -/
theorem validatePhysicalSlotTransition_iff :
    validatePhysicalSlotTransition previous current slot = .ok () ↔
      ∀ ordinal, physicalCheck previous current slot ordinal = .ok () := by
  rcases slot_sweep previous current slot with
    ⟨hempty, hrun⟩ | ⟨first, cursors, last, ⟨hfirst, hle⟩, hvisits, hrun⟩
  · exact iff_of_true hrun fun ordinal => physicalCheck_outside (by simp [Outside, hempty])
  rw [hrun, hvisits.forAll_iff fun _ => physicalCheck_succ]
  refine ⟨fun hinside ordinal => ?_, fun hrule ordinal _ _ => hrule ordinal⟩
  by_cases hbefore : ordinal < first
  · refine physicalCheck_outside (.inl fun boundary hmem => ?_)
    exact hbefore.trans_le (hle boundary hmem)
  by_cases hbehind : last ≤ ordinal
  · refine physicalCheck_outside (.inr fun boundary hmem => ?_)
    exact (hvisits.isLast.2.2 boundary hmem).trans hbehind
  · exact hinside ordinal (by omega) (by omega)

theorem physicalStateAt_unheld
    (h : ∀ holding ∈ catalog.holdings, slot ∉ holding.memberSlots) (ordinal : Nat) :
    physicalStateAt catalog slot ordinal = .absent := by
  obtain ⟨hfree, hretired⟩ : findInterval catalog.free slot ordinal = none ∧ _ := by
    refine findInterval_eq_none ?_
    rintro interval hmem ⟨rfl, -⟩
    refine h (.ofInterval interval) (mem_append_right _ ?_) (by simp [Holding.ofInterval])
    rw [← map_append]
    exact mem_map_of_mem hmem
  have hrun : findRun catalog slot ordinal = none := by
    refine find?_eq_none.mpr fun entry hmem hcovers => ?_
    obtain ⟨hslot, -⟩ := of_decide_eq_true hcovers
    refine h (.ofRun entry.2) (mem_append_left _ ?_) hslot
    exact mem_map.mpr ⟨entry, hmem, rfl⟩
  rw [physicalStateAt, ← findRun, hfree, hretired, hrun]

/-! ## Metadata pages -/

/-- The check of one metadata page. -/
def metadataCheck (previous current : ValidatedCatalog) (page : Nat) : Except CatalogError Unit :=
  validateMetadataStateChange (metadataStateAt previous page) (metadataStateAt current page)
    previous.root.generation current.root.generation

/-- The boundaries of both catalogs between metadata pages. -/
def pageBoundaries (previous current : ValidatedCatalog) : List Nat :=
  metadataBoundaries previous ++ metadataBoundaries current

theorem metadataStateAt_succ (h : page + 1 ∉ metadataBoundaries catalog) :
    metadataStateAt catalog (page + 1) = metadataStateAt catalog page := by
  have hreferences : (catalog.currentPages.find? fun reference =>
        reference.offset / pageSize = page + 1) =
      catalog.currentPages.find? fun reference => reference.offset / pageSize = page := by
    refine find?_congr fun reference hmem => ?_
    have hboundary : ∀ boundary ∈ [reference.offset / pageSize, reference.offset / pageSize + 1],
        boundary ∈ metadataBoundaries catalog := fun boundary hboundary =>
      mem_append_left _ (mem_cons_of_mem _ (mem_flatMap.mpr ⟨reference, hmem, hboundary⟩))
    have hne : reference.offset / pageSize ≠ page + 1 := fun heq =>
      h (heq ▸ hboundary _ mem_cons_self)
    have hne' : reference.offset / pageSize ≠ page := fun heq =>
      h (heq ▸ hboundary _ (mem_cons_of_mem _ mem_cons_self))
    simp [hne, hne']
  have hintervals : (catalog.metadata.find? fun interval =>
        rangeContains interval.pageStart interval.pageCount (page + 1)) =
      catalog.metadata.find? fun interval =>
        rangeContains interval.pageStart interval.pageCount page := by
    refine find?_congr fun interval hmem => ?_
    have hboundary : ∀ boundary ∈ [interval.pageStart, interval.pageStart + interval.pageCount],
        boundary ∈ metadataBoundaries catalog := fun boundary hboundary =>
      mem_append_right _ (mem_flatMap.mpr ⟨interval, hmem, hboundary⟩)
    have hsame := rangeContains_succ h (hboundary _ mem_cons_self)
      (hboundary _ (mem_cons_of_mem _ mem_cons_self))
    simp [hsame]
  unfold metadataStateAt
  rw [hreferences, hintervals]

theorem metadataCheck_succ (hboundary : page + 1 ∉ pageBoundaries previous current)
    (h : metadataCheck previous current page = .ok ()) :
    metadataCheck previous current (page + 1) = .ok () := by
  simp only [pageBoundaries, mem_append, not_or] at hboundary
  unfold metadataCheck
  rw [metadataStateAt_succ hboundary.1, metadataStateAt_succ hboundary.2]
  exact h

/-- The sweep over the metadata pages checks page 2 and each boundary behind it once, but the last
one, which has to be the end of the region. -/
theorem validateMetadataTransition_visits (previous current : ValidatedCatalog) :
    ∃ cursors last, Visits (pageBoundaries previous current) 2 (cursors ++ [last]) ∧
      validateMetadataTransition previous current = (do
          forAll (metadataCheck previous current) cursors
          rejectIf (last ≠ previous.metadataPageCount) .incompleteMetadataAllocator) := by
  obtain ⟨cursors, last, hvisits, hrun⟩ := sweep_visits (pageBoundaries previous current) 2
  refine ⟨cursors, last, hvisits, ?_⟩
  rw [pageBoundaries] at hrun
  simp only [validateMetadataTransition, hrun]
  show ((forAll (metadataCheck previous current) cursors >>= fun _ => .ok last) >>= _) = _
  cases forAll (metadataCheck previous current) cursors <;> rfl

/-- The sweep over the metadata pages decides the rule for all of them, in catalogs that end
together. -/
theorem validateMetadataTransition_iff
    (hlast : IsLast (pageBoundaries previous current) 2 previous.metadataPageCount) :
    validateMetadataTransition previous current = .ok () ↔
      ∀ page, 2 ≤ page → page < previous.metadataPageCount →
        metadataCheck previous current page = .ok () := by
  obtain ⟨cursors, last, hvisits, hrun⟩ := validateMetadataTransition_visits previous current
  obtain rfl := hvisits.isLast.unique hlast
  rw [hrun]
  simp only [ok_iff, hvisits.forAll_iff fun _ => metadataCheck_succ, ne_eq, not_true_eq_false,
    not_false_eq_true, and_true]

/-! ## Snapshots -/

section

variable [Codec]

/-- What two catalogs have to agree on before their space is compared. -/
structure SnapshotHeads (previous current : ValidatedCatalog) : Prop where
  generation : previous.root.generation ≠ maxU64 ∧
    current.root.generation = previous.root.generation + 1
  setId : previous.root.setId = current.root.setId
  digest : rootDigest previous.root = .ok current.root.previousRootDigest
  sequence : previous.root.sequence < current.root.sequence
  pageCount : previous.metadataPageCount = current.metadataPageCount
  memberCount : previous.members.length = current.members.length
  members : ∀ member ∈ previous.members, ∃ currentMember,
    current.members.find? (fun candidate => candidate.slot = member.slot) = some currentMember ∧
      member.memberId = currentMember.memberId ∧
      member.metadataLength = currentMember.metadataLength ∧
      member.dataLength = currentMember.dataLength

variable {current previous : ValidatedCatalog}

omit [Codec] in
theorem validateMemberTransition_eq_ok {member : MemberGeometry} :
    validateMemberTransition previous current member = .ok () ↔ (∃ currentMember,
        current.members.find? (fun candidate => candidate.slot = member.slot) =
          some currentMember ∧ member.memberId = currentMember.memberId ∧
        member.metadataLength = currentMember.metadataLength ∧
        member.dataLength = currentMember.dataLength) ∧
      validatePhysicalSlotTransition previous current member.slot = .ok () := by
  simp only [validateMemberTransition, ok_iff, ne_eq, not_or, not_not]
  constructor
  · rintro ⟨currentMember, hfind, hid, hlengths, hslot⟩
    exact ⟨⟨currentMember, hfind, hid, hlengths⟩, hslot⟩
  · rintro ⟨⟨currentMember, hfind, hid, hlengths⟩, hslot⟩
    exact ⟨currentMember, hfind, hid, hlengths, hslot⟩

theorem validateSnapshots_eq_ok :
    validateSnapshots previous current = .ok () ↔ SnapshotHeads previous current ∧
      (∀ member ∈ previous.members,
        validatePhysicalSlotTransition previous current member.slot = .ok ()) ∧
      validateMetadataTransition previous current = .ok () := by
  simp only [validateSnapshots, ok_iff, ne_eq, not_or, not_not, not_le, forAll_eq_ok,
    validateMemberTransition_eq_ok]
  constructor
  · rintro ⟨hgeneration, hset, digest, hdigest, hprevious, hsequence, hpages, hcount, hmembers,
      hmetadata⟩
    exact ⟨⟨hgeneration, hset, hprevious ▸ hdigest, hsequence, hpages, hcount,
      fun member hmem => (hmembers member hmem).1⟩, fun member hmem => (hmembers member hmem).2,
      hmetadata⟩
  · rintro ⟨heads, hslots, hmetadata⟩
    exact ⟨heads.generation, heads.setId, _, heads.digest, rfl, heads.sequence, heads.pageCount,
      heads.memberCount, fun member hmem => ⟨heads.members member hmem, hslots member hmem⟩,
      hmetadata⟩

variable {binding binding' : AuthorityBinding} {graph graph' : Graph}
  {members members' : List MemberGeometry} {protectedPages protectedPages' : List PageReference}
  {previous current : ValidatedCatalog}

section

variable (heads : SnapshotHeads previous current)
  (hprevious : Accepted binding graph members protectedPages previous)
  (hcurrent : Accepted binding' graph' members' protectedPages' current) {slot : Nat}
include heads hprevious hcurrent

/-- Catalogs that agree in their heads are about the same slots. -/
theorem SnapshotHeads.slots :
    slot ∈ members.map MemberGeometry.slot ↔ slot ∈ members'.map MemberGeometry.slot := by
  have hsub : members.map MemberGeometry.slot ⊆ members'.map MemberGeometry.slot := by
    intro slot hmem
    obtain ⟨member, hmember, rfl⟩ := mem_map.mp hmem
    rw [← hprevious.members_eq] at hmember
    obtain ⟨currentMember, hfind, -⟩ := heads.members member hmember
    rw [hcurrent.members_eq] at hfind
    refine mem_map.mpr ⟨currentMember, mem_of_find?_eq_some hfind, ?_⟩
    simpa using find?_some hfind
  have hlength : (members'.map MemberGeometry.slot).length ≤
      (members.map MemberGeometry.slot).length := by
    simp only [length_map]
    rw [← hprevious.members_eq, ← hcurrent.members_eq, heads.memberCount]
  exact ((hprevious.slots_nodup.subperm hsub).perm_of_length_le hlength).mem_iff

/-- A slot that no member has is checked by no sweep, and has nothing to check. -/
theorem physicalCheck_unknown (hslot : slot ∉ members.map MemberGeometry.slot) (ordinal : Nat) :
    physicalCheck previous current slot ordinal = .ok () := by
  unfold physicalCheck
  rw [physicalStateAt_unheld, physicalStateAt_unheld]
  · rfl
  · intro holding hmem hheld
    obtain ⟨member, hmember, rfl⟩ := hcurrent.holding_member hmem hheld
    exact hslot ((heads.slots hprevious hcurrent).mpr (mem_map_of_mem hmember))
  · intro holding hmem hheld
    obtain ⟨member, hmember, rfl⟩ := hprevious.holding_member hmem hheld
    exact hslot (mem_map_of_mem hmember)

end

theorem Accepted.metadataBoundaries_le
    (h : Accepted binding graph members protectedPages previous) :
    ∀ boundary ∈ metadataBoundaries previous,
      2 ≤ boundary ∧ boundary ≤ previous.metadataPageCount := by
  obtain ⟨member, hmember⟩ := exists_mem_of_ne_nil _ h.geometry.1
  have hroots := h.roots_inside hmember
  rw [h.metadataLength hmember] at hroots
  have hcount : 3 ≤ previous.metadataPageCount := Nat.le_of_mul_le_mul_right hroots (by decide)
  intro boundary hmem
  simp only [metadataBoundaries, mem_append, mem_cons, mem_flatMap, not_mem_nil, or_false] at hmem
  rcases hmem with (rfl | ⟨reference, href, hends⟩) | ⟨interval, hinterval, hends⟩
  · omega
  · have hinside := h.pageRanges_inside (reference.offset / pageSize, 1)
      (mem_append_left _ (mem_map.mpr ⟨reference, href, rfl⟩))
    omega
  · have hinside := h.pageRanges_inside (interval.pageStart, interval.pageCount)
      (mem_append_right _ (mem_map.mpr ⟨interval, hinterval, rfl⟩))
    dsimp only at hinside
    omega

theorem isLast_pageCount (heads : SnapshotHeads previous current)
    (hprevious : Accepted binding graph members protectedPages previous)
    (hcurrent : Accepted binding' graph' members' protectedPages' current) :
    IsLast (pageBoundaries previous current) 2 previous.metadataPageCount := by
  have hcount : previous.metadataPageCount ∈ metadataBoundaries previous := by
    simp [metadataBoundaries]
  refine ⟨.inr (mem_append_left _ hcount), (hprevious.metadataBoundaries_le _ hcount).1, ?_⟩
  intro boundary hmem
  rcases mem_append.mp hmem with hleft | hright
  · exact (hprevious.metadataBoundaries_le boundary hleft).2
  · rw [heads.pageCount]
    exact (hcurrent.metadataBoundaries_le boundary hright).2

/-- The check of accepted catalogs is the rule at every position. -/
theorem validateSnapshots_iff (hprevious : Accepted binding graph members protectedPages previous)
    (hcurrent : Accepted binding' graph' members' protectedPages' current) :
    validateSnapshots previous current = .ok () ↔ SnapshotHeads previous current ∧
      (∀ slot ordinal, physicalCheck previous current slot ordinal = .ok ()) ∧
      ∀ page, 2 ≤ page → page < previous.metadataPageCount →
        metadataCheck previous current page = .ok () := by
  rw [validateSnapshots_eq_ok]
  refine and_congr_right fun heads => and_congr ?_ ?_
  · simp only [validatePhysicalSlotTransition_iff, hprevious.members_eq]
    constructor
    · intro hmembers slot ordinal
      by_cases hslot : slot ∈ members.map MemberGeometry.slot
      · obtain ⟨member, hmember, rfl⟩ := mem_map.mp hslot
        exact hmembers member hmember ordinal
      · exact physicalCheck_unknown heads hprevious hcurrent hslot ordinal
    · exact fun hrule member _ ordinal => hrule member.slot ordinal
  · exact validateMetadataTransition_iff (isLast_pageCount heads hprevious hcurrent)

end

end Zettide.PoolCatalogGraph
