import Zettide.Catalog.Volume

/-! # Initial data of new mappings

Translation of `validateDataInitializations` of `pool_catalog_graph.zig`. A generation comes with
the contents of the extents that it maps for the first time, one `DataInitialization` for each
stretch of them in a run. The check walks over the mapped runs of the new catalog: a stretch that
the previous catalog has at the same place is passed over, any other stretch takes the next
initialization from the list, and at the end the list has to be used up.

The check is exact: it accepts the lists of the maximal spans of new extents, if no mapped extent
was moved (`dataInitializations_exact`). `Initialized` says what follows for an accepted list: it
covers the new mappings, lies inside the runs, and no extent is initialized twice. -/

namespace Zettide.PoolCatalogGraph

open PoolCatalog List Option Intervals.Spans Intervals Sample

/-- The contents of a stretch. -/
inductive InitialContents where
  | zero
  | bytes (bytes : List UInt8)
  deriving DecidableEq, Repr

/-- The contents are those of so many bytes. -/
def InitialContents.Fill : InitialContents → Nat → Prop
  | .zero, _ => True
  | .bytes given, byteCount => given.length = byteCount

instance (contents : InitialContents) (byteCount : Nat) : Decidable (contents.Fill byteCount) :=
  match contents with
  | .zero => isTrue trivial
  | .bytes bytes => inferInstanceAs (Decidable (bytes.length = byteCount))

structure DataInitialization where
  volumeId : Id
  logicalStart : Nat
  extentCount : Nat
  contents : InitialContents
  deriving DecidableEq, Repr

def DataInitialization.logicalEnd (initialization : DataInitialization) : Nat :=
  initialization.logicalStart + initialization.extentCount

/-- The bytes of the stretch. -/
def DataInitialization.image (initialization : DataInitialization) (extentSize : Nat) :
    List UInt8 :=
  match initialization.contents with
  | .zero => Bytes.zeros (initialization.extentCount * extentSize)
  | .bytes bytes => bytes

/-- The runs of a volume of the previous catalog; there are none if there is no such volume. -/
def previousRuns (previous : Option ValidatedCatalog) (volumeId : Id) : List ExtentRun :=
  (previous.bind fun catalog =>
    (catalog.descriptors.zip catalog.extentRuns).find? fun entry =>
      entry.1.volumeId = volumeId).elim [] Prod.snd

/-- A run that has the extent where `current` has it. -/
def findMatchingRun (runs : List ExtentRun) (current : ExtentRun) (extent : Nat) :
    Option ExtentRun :=
  runs.find? fun candidate =>
    rangeContains candidate.logicalStart candidate.extentCount extent ∧
      current.physicalStart + (extent - current.logicalStart) =
        candidate.physicalStart + (extent - candidate.logicalStart) ∧
      current.state = candidate.state ∧ current.memberSlots = candidate.memberSlots

/-- Where, from the extent on, the candidate begins to have the extents of `current`. -/
def matchingStart (current : ExtentRun) (extent : Nat) (candidate : ExtentRun) : Option Nat :=
  let overlapStart := max extent candidate.logicalStart
  let overlapEnd := min (current.logicalStart + current.extentCount)
    (candidate.logicalStart + candidate.extentCount)
  if candidate.state = current.state ∧ candidate.memberSlots = current.memberSlots ∧
      overlapStart < overlapEnd ∧
      current.physicalStart + (overlapStart - current.logicalStart) =
        candidate.physicalStart + (overlapStart - candidate.logicalStart)
  then some overlapStart else none

def nextMatchingStart (runs : List ExtentRun) (current : ExtentRun) (extent : Nat) : Option Nat :=
  (runs.filterMap (matchingStart current extent)).min?

def hasMappedLogicalOverlap (runs : List ExtentRun) (logicalStart logicalEnd : Nat) : Bool :=
  runs.any fun run => run.state = .mapped && logicalStart < run.logicalStart + run.extentCount &&
    run.logicalStart < logicalEnd

/-- The initialization is the one for the stretch. -/
def checkInitialization (extentSize : Nat) (volumeId : Id) (logicalStart logicalEnd : Nat)
    (initialization : DataInitialization) : Except CatalogError Unit := do
  rejectIf (initialization.volumeId ≠ volumeId ∨ initialization.logicalStart ≠ logicalStart ∨
    initialization.extentCount ≠ logicalEnd - logicalStart) .dataInitializationMismatch
  let byteCount ← mulU64 initialization.extentCount extentSize .dataInitializationOverflow
  rejectIf (¬ initialization.contents.Fill byteCount) .dataInitializationLengthMismatch

/-- The loop over one mapped run, from `cursor` on. It returns the initializations that are left.
Every turn moves the cursor, so a run needs no more turns than it has extents. -/
def initializeRun (extentSize : Nat) (volumeId : Id) (previous : List ExtentRun) (run : ExtentRun) :
    Nat → Nat → List DataInitialization → Except CatalogError (List DataInitialization)
  | 0, cursor, initializations => do
      rejectIf (cursor < run.logicalStart + run.extentCount) .unfinished
      .ok initializations
  | fuel + 1, cursor, initializations =>
    let logicalEnd := run.logicalStart + run.extentCount
    if logicalEnd ≤ cursor then .ok initializations
    else
      match findMatchingRun previous run cursor with
      | some found =>
        initializeRun extentSize volumeId previous run fuel
          (min logicalEnd (found.logicalStart + found.extentCount)) initializations
      | none => do
          let initializationEnd := (nextMatchingStart previous run cursor).getD logicalEnd
          rejectIf (hasMappedLogicalOverlap previous cursor initializationEnd = true)
            .mappedDataRewriteRequiresGenerationLease
          let initialization ← orElseFail initializations.head?
            .dataMappingRequiresDurabilityWitness
          checkInitialization extentSize volumeId cursor initializationEnd initialization
          initializeRun extentSize volumeId previous run fuel initializationEnd initializations.tail

/-- A run of the new catalog. -/
def validateRunInitializations (previous : Option ValidatedCatalog) (extentSize : Nat)
    (entry : Id × ExtentRun) (initializations : List DataInitialization) :
    Except CatalogError (List DataInitialization) := do
  let run := entry.2
  let runs := previousRuns previous entry.1
  let logicalEnd ← addU64 run.logicalStart run.extentCount .overflow
  if run.state = .mapped then
    initializeRun extentSize entry.1 runs run run.extentCount run.logicalStart initializations
  else do
    -- an extent that is mapped cannot become reserved again
    rejectIf (hasMappedLogicalOverlap runs run.logicalStart logicalEnd = true)
      .mappedDataRewriteRequiresGenerationLease
    .ok initializations

def validateRunsInitializations (previous : Option ValidatedCatalog) (extentSize : Nat) :
    List (Id × ExtentRun) → List DataInitialization → Except CatalogError (List DataInitialization)
  | [], initializations => .ok initializations
  | entry :: rest, initializations => do
      let initializations ← validateRunInitializations previous extentSize entry initializations
      validateRunsInitializations previous extentSize rest initializations

def validateDataInitializations (previous : Option ValidatedCatalog) (current : ValidatedCatalog)
    (initializations : List DataInitialization) : Except CatalogError Unit := do
  let unused ← validateRunsInitializations previous current.root.extentSize current.runs
    initializations
  rejectIf (unused ≠ []) .unexpectedDataInitialization

/-! ## What an accepted list is -/

namespace DataInitialization

/-- The stretch lies in a run of its volume. -/
structure Within (initialization : DataInitialization) (entry : Id × ExtentRun) : Prop where
  volume : initialization.volumeId = entry.1
  mapped : entry.2.state = .mapped
  starts : entry.2.logicalStart ≤ initialization.logicalStart
  ends : initialization.logicalEnd ≤ entry.2.logicalStart + entry.2.extentCount

/-- The stretch ends before another one of the same volume begins. -/
def Before (a b : DataInitialization) : Prop :=
  a.volumeId = b.volumeId → a.logicalEnd ≤ b.logicalStart

end DataInitialization

variable {extentSize cursor : Nat} {previous : Option ValidatedCatalog}
  {initialization : DataInitialization} {initializations : List DataInitialization}
  {entry : Id × ExtentRun} {entries : List (Id × ExtentRun)} {volumeId : Id}

theorem length_image (h : initialization.contents.Fill (initialization.extentCount * extentSize)) :
    (initialization.image extentSize).length = initialization.extentCount * extentSize := by
  unfold DataInitialization.image
  cases hcontents : initialization.contents with
  | zero => exact Bytes.length_zeros _
  | bytes bytes =>
    rw [hcontents] at h
    exact h

theorem mem_previousRuns {prior : ExtentRun} (h : prior ∈ previousRuns previous volumeId) :
    ∃ catalog, previous = some catalog ∧ (volumeId, prior) ∈ catalog.runs := by
  unfold previousRuns at h
  cases previous with
  | none => cases h
  | some catalog =>
    rw [bind_some] at h
    cases hfind : (catalog.descriptors.zip catalog.extentRuns).find? fun entry =>
        entry.1.volumeId = volumeId with
    | none => simp [hfind] at h
    | some entry =>
      rw [hfind] at h
      exact ⟨catalog, rfl, mem_runs.mpr ⟨entry.1, entry.2, mem_of_find?_eq_some hfind,
        by simpa using find?_some hfind, h⟩⟩

/-! ## Spans of new extents -/

/-- A prior run has the extent in the state and at the place where the run has it. -/
def Kept (previous : List ExtentRun) (run : ExtentRun) (extent : Nat) : Prop :=
  ∃ prior ∈ previous, rangeContains prior.logicalStart prior.extentCount extent ∧
    run.physicalStart + (extent - run.logicalStart) =
      prior.physicalStart + (extent - prior.logicalStart) ∧
    run.state = prior.state ∧ run.memberSlots = prior.memberSlots

/-- The run maps the extent, which was not mapped at that place before. -/
def IsNew (previous : List ExtentRun) (run : ExtentRun) (extent : Nat) : Prop :=
  run.state = .mapped ∧ ¬ Kept previous run extent

/-- The extent is mapped in the prior runs. -/
def WasMapped (previous : List ExtentRun) (extent : Nat) : Prop :=
  ∃ prior ∈ previous, prior.state = .mapped ∧
    rangeContains prior.logicalStart prior.extentCount extent

/-- From extent `cursor` on, the run takes an initialization from the list for each maximal span of
its new extents. -/
def TakesSpans (extentSize : Nat) (previous : List ExtentRun) (entry : Id × ExtentRun) :
    Nat → List DataInitialization → List DataInitialization → Prop :=
  Spans DataInitialization.logicalStart DataInitialization.extentCount
    (fun initialization => initialization.volumeId = entry.1 ∧
      initialization.contents.Fill (initialization.extentCount * extentSize))
    (IsNew previous entry.2) (entry.2.logicalStart + entry.2.extentCount)

/-- An extent of the run that was mapped stays mapped, where it was. -/
def Undisturbed (previous : List ExtentRun) (run : ExtentRun) : Prop :=
  ∀ extent, rangeContains run.logicalStart run.extentCount extent → WasMapped previous extent →
    run.state = .mapped ∧ Kept previous run extent

/-- One run after the other takes its initializations from the list. -/
def TakesAll (previous : Option ValidatedCatalog) (extentSize : Nat) :
    List (Id × ExtentRun) → List DataInitialization → List DataInitialization → Prop
  | [], initializations, unused => initializations = unused
  | entry :: rest, initializations, unused => ∃ others,
    TakesSpans extentSize (previousRuns previous entry.1) entry entry.2.logicalStart
      initializations others ∧ TakesAll previous extentSize rest others unused

/-- All extents of the stretch are new ones of the run. -/
def DataInitialization.New (previous : List ExtentRun) (run : ExtentRun)
    (initialization : DataInitialization) : Prop :=
  ∀ extent, rangeContains initialization.logicalStart initialization.extentCount extent →
    IsNew previous run extent

section

variable {previous : List ExtentRun} {run : ExtentRun} {unused : List DataInitialization}

theorem findMatchingRun_eq_none {extent : Nat} :
    findMatchingRun previous run extent = none ↔ ¬ Kept previous run extent := by
  simp only [findMatchingRun, find?_eq_none, decide_eq_true_eq, Kept, not_exists, not_and]

/-- A span of new extents goes up to the next extent that is kept, or to the end. -/
theorem nextMatchingStart_spec (hstart : run.logicalStart ≤ cursor)
    (hmore : cursor < run.logicalStart + run.extentCount) (hnew : ¬ Kept previous run cursor) :
    let next := (nextMatchingStart previous run cursor).getD (run.logicalStart + run.extentCount)
    cursor < next ∧ next ≤ run.logicalStart + run.extentCount ∧
      (∀ extent, cursor ≤ extent → extent < next → ¬ Kept previous run extent) ∧
      (next < run.logicalStart + run.extentCount → Kept previous run next) := by
  -- a prior run that keeps an extent keeps those before it, as far as both runs have them
  have hearlier : ∀ extent, cursor ≤ extent → extent < run.logicalStart + run.extentCount →
      Kept previous run extent →
      ∃ first ∈ previous.filterMap (matchingStart run cursor), first ≤ extent := by
    rintro extent hfrom hto ⟨prior, hprior, ⟨hbegin, hend⟩, hplace, hstate, hslots⟩
    refine ⟨max cursor prior.logicalStart, mem_filterMap.mpr ⟨prior, hprior,
      if_pos ⟨hstate.symm, hslots.symm, ?_, ?_⟩⟩, max_le hfrom hbegin⟩
    · omega
    · omega
  cases hnext : nextMatchingStart previous run cursor with
  | none =>
    refine ⟨hmore, le_rfl, fun extent hfrom hto hkept => ?_, fun h => absurd h (lt_irrefl _)⟩
    obtain ⟨first, hmem, -⟩ := hearlier extent hfrom hto hkept
    rw [min?_eq_none_iff.mp hnext] at hmem
    cases hmem
  | some next =>
    obtain ⟨hmem, hleast⟩ := min?_eq_some_iff.mp hnext
    obtain ⟨prior, hprior, hoverlap⟩ := mem_filterMap.mp hmem
    simp only [matchingStart, ite_none_right_eq_some, some.injEq] at hoverlap
    obtain ⟨⟨hstate, hslots, hlt, hplace⟩, rfl⟩ := hoverlap
    have hkept : Kept previous run (max cursor prior.logicalStart) :=
      ⟨prior, hprior, ⟨by omega, by omega⟩, hplace, hstate.symm, hslots.symm⟩
    have hbehind : cursor ≠ max cursor prior.logicalStart := fun hsame => hnew (hsame ▸ hkept)
    rw [getD_some]
    refine ⟨by omega, by omega, fun extent hfrom hto hsame => ?_, fun _ => hkept⟩
    obtain ⟨first, hfirst, hle⟩ := hearlier extent hfrom (by omega) hsame
    exact absurd (hleast first hfirst) (by omega)

theorem hasMappedLogicalOverlap_iff {low high : Nat} (hlt : low < high)
    (hprior : ∀ prior ∈ previous, 0 < prior.extentCount) :
    hasMappedLogicalOverlap previous low high = true ↔
      ∃ extent, low ≤ extent ∧ extent < high ∧ WasMapped previous extent := by
  simp only [hasMappedLogicalOverlap, List.any_eq_true, Bool.and_eq_true, decide_eq_true_eq]
  constructor
  · rintro ⟨prior, hmem, ⟨hstate, hbefore⟩, hbehind⟩
    have hpos := hprior prior hmem
    exact ⟨max low prior.logicalStart, by omega, by omega, prior, hmem, hstate, by omega, by omega⟩
  · rintro ⟨extent, hfrom, hto, prior, hmem, hstate, hbegin, hend⟩
    exact ⟨prior, hmem, ⟨hstate, by omega⟩, by omega⟩

/-- **The loop over a mapped run.**  It accepts the lists that begin with the spans of the run, if
what was mapped is kept. -/
theorem initializeRun_iff (hmapped : run.state = .mapped)
    (hbytes : run.extentCount * extentSize ≤ maxU64)
    (hprior : ∀ prior ∈ previous, 0 < prior.extentCount) {fuel : Nat} :
    ∀ {cursor : Nat} {initializations : List DataInitialization}, run.logicalStart ≤ cursor →
      run.logicalStart + run.extentCount ≤ cursor + fuel →
      (initializeRun extentSize volumeId previous run fuel cursor initializations = .ok unused ↔
        (∀ extent, cursor ≤ extent → extent < run.logicalStart + run.extentCount →
          WasMapped previous extent → Kept previous run extent) ∧
        TakesSpans extentSize previous (volumeId, run) cursor initializations unused) := by
  simp only [TakesSpans]
  induction fuel with
  | zero =>
    intro cursor initializations _ hfuel
    rw [Nat.add_zero] at hfuel
    rw [done_iff hfuel, initializeRun]
    simp only [ok_iff, not_lt]
    exact and_congr_left fun _ => ⟨fun hend extent hfrom hto => by omega, fun _ => hfuel⟩
  | succ fuel ih =>
    intro cursor initializations hstart hfuel
    unfold initializeRun
    dsimp only
    split
    case isTrue hend =>
      rw [done_iff hend, Except.ok.injEq]
      exact (and_iff_right fun extent hfrom hto => by omega).symm
    rename_i hmore
    rw [not_le] at hmore
    split
    · -- the prior run keeps the extents up to its end
      rename_i found hfound
      have hmem := mem_of_find?_eq_some hfound
      have hkeeps := find?_some hfound
      rw [decide_eq_true_eq] at hkeeps
      obtain ⟨⟨hbegin, hto⟩, hplace, hsame⟩ := hkeeps
      have hkept : ∀ extent, cursor ≤ extent → extent < min (run.logicalStart + run.extentCount)
          (found.logicalStart + found.extentCount) → Kept previous run extent :=
        fun extent hfrom hbefore => ⟨found, hmem, ⟨by omega, by omega⟩, by omega, hsame⟩
      rw [ih (by omega) (by omega), skip_iff (le_min hmore.le hto.le)
        (Nat.min_le_left _ _) fun extent hfrom hbefore hnew => hnew.2 (hkept extent hfrom hbefore)]
      refine and_congr_left fun _ => ⟨fun h extent hfrom hend hwas => ?_,
        fun h extent hfrom => h extent (by omega)⟩
      exact (lt_or_ge extent _).elim (hkept extent hfrom) fun hge => h extent hge hend hwas
    · rename_i hnone
      obtain ⟨hlt, hle, hnew, hend⟩ :=
        nextMatchingStart_spec hstart hmore (findMatchingRun_eq_none.mp hnone)
      generalize (nextMatchingStart previous run cursor).getD _ = next at hlt hle hnew hend ⊢
      rw [Spans.span_iff hlt hle (fun extent hfrom hto => ⟨hmapped, hnew extent hfrom hto⟩)
        fun hmore hnot => hnot.2 (hend hmore)]
      simp only [checkInitialization, mulU64, ok_iff, hasMappedLogicalOverlap_iff hlt hprior,
        head?_eq_some_iff, not_or, not_not, ne_eq, exists_and_left]
      constructor
      · rintro ⟨hclear, first, ⟨rest, rfl⟩, ⟨⟨hvolume, hfirst, hcount⟩, _, ⟨-, rfl⟩, hfill⟩, hrest⟩
        obtain ⟨hlater, hrest⟩ := (ih (by omega) (by omega)).mp hrest
        refine ⟨fun extent hfrom hto hwas => ?_, first, rest, rfl, hfirst, by omega,
          ⟨hvolume, hfill⟩, hrest⟩
        by_cases hbefore : extent < next
        · exact absurd ⟨extent, hfrom, hbefore, hwas⟩ hclear
        · exact hlater extent (not_lt.mp hbefore) hto hwas
      · rintro ⟨hkept, first, rest, rfl, hfirst, hcount, ⟨hvolume, hfill⟩, hrest⟩
        have hsmall : first.extentCount * extentSize ≤ maxU64 :=
          (Nat.mul_le_mul_right _ (by omega)).trans hbytes
        refine ⟨?_, first, ⟨rest, rfl⟩, ⟨⟨hvolume, hfirst, by omega⟩, _, ⟨not_lt.mpr hsmall, rfl⟩,
          hfill⟩, (ih (by omega) (by omega)).mpr ⟨fun extent hfrom => hkept extent (by omega), hrest⟩⟩
        rintro ⟨extent, hfrom, hto, hwas⟩
        exact hnew extent hfrom hto (hkept extent hfrom (by omega) hwas)

end

/-- What an accepted list of initializations is. -/
structure Initialized (previous : Option ValidatedCatalog) (extentSize : Nat)
    (entries : List (Id × ExtentRun)) (initializations : List DataInitialization) : Prop where
  within : ∀ initialization ∈ initializations, ∃ entry ∈ entries, initialization.Within entry
  fills : ∀ initialization ∈ initializations,
    initialization.contents.Fill (initialization.extentCount * extentSize)
  distinct : initializations.Pairwise DataInitialization.Before
  covers : ∀ entry ∈ entries, entry.2.state = .mapped → ∀ extent,
    rangeContains entry.2.logicalStart entry.2.extentCount extent →
    (findMatchingRun (previousRuns previous entry.1) entry.2 extent).isSome ∨
      ∃ initialization ∈ initializations, initialization.Within entry ∧
        rangeContains initialization.logicalStart initialization.extentCount extent

/-- The runs of one volume come in order. -/
def RunsOrdered (entries : List (Id × ExtentRun)) : Prop :=
  entries.Pairwise fun a b => a.1 = b.1 → a.2.Before b.2

/-- Stretches of runs that come one after the other. -/
theorem before_of_within {a b : DataInitialization} {first second : Id × ExtentRun}
    (ha : a.Within first) (hb : b.Within second)
    (hordered : first.1 = second.1 → first.2.Before second.2) : a.Before b := by
  intro hvolume
  have hbefore := hordered (ha.volume.symm.trans (hvolume.trans hb.volume))
  unfold ExtentRun.Before at hbefore
  have hend := ha.ends
  have hstart := hb.starts
  omega

theorem TakesAll.initialized :
    ∀ {initializations unused : List DataInitialization}, RunsOrdered entries →
      TakesAll previous extentSize entries initializations unused →
      ∃ used, initializations = used ++ unused ∧ Initialized previous extentSize entries used ∧
        ∀ initialization ∈ used, ∃ entry ∈ entries, initialization.Within entry ∧
          initialization.New (previousRuns previous entry.1) entry.2 := by
  induction entries with
  | nil =>
    intro initializations unused _ h
    cases h
    exact ⟨[], rfl, ⟨by simp, by simp, .nil, by simp⟩, by simp⟩
  | cons entry rest ih =>
    intro initializations unused hordered h
    obtain ⟨left, hentry, hrest⟩ := h
    obtain ⟨hbefore, hordered⟩ := pairwise_cons.mp hordered
    obtain ⟨first, rfl, hspans, hfirst, hcovers⟩ := taken hentry
    obtain ⟨others, rfl, hothers, hnew⟩ := ih hordered hrest
    have hwithin : ∀ initialization ∈ first, initialization.Within entry := by
      intro initialization hmem
      obtain ⟨hfrom, hpos, hto, ⟨hvolume, -⟩, hnew⟩ := hfirst initialization hmem
      exact ⟨hvolume, (hnew _ ⟨le_rfl, Nat.lt_add_of_pos_right hpos⟩).1, hfrom, hto⟩
    have hin : ∀ initialization ∈ first ++ others, ∃ other ∈ entry :: rest,
        initialization.Within other ∧
          initialization.New (previousRuns previous other.1) other.2 := by
      intro initialization hmem
      rcases mem_append.mp hmem with hmem | hmem
      · exact ⟨entry, mem_cons_self, hwithin initialization hmem,
          (hfirst initialization hmem).2.2.2.2⟩
      · obtain ⟨other, hother, hin⟩ := hnew initialization hmem
        exact ⟨other, mem_cons_of_mem _ hother, hin⟩
    refine ⟨first ++ others, by rw [append_assoc], ⟨fun initialization hmem => ?_, ?_, ?_, ?_⟩, hin⟩
    · obtain ⟨other, hother, hin, -⟩ := hin initialization hmem
      exact ⟨other, hother, hin⟩
    · intro initialization hmem
      rcases mem_append.mp hmem with hmem | hmem
      · exact (hfirst initialization hmem).2.2.2.1.2
      · exact hothers.fills initialization hmem
    · refine pairwise_append.mpr ⟨hspans.imp ?_, hothers.distinct, fun a ha b hb => ?_⟩
      · exact fun hle _ => hle
      · obtain ⟨other, hother, hin⟩ := hothers.within b hb
        exact before_of_within (hwithin a ha) hin (hbefore other hother)
    · intro other hother hstate extent hextent
      rcases mem_cons.mp hother with rfl | hother
      · by_cases hnone : findMatchingRun (previousRuns previous other.1) other.2 extent = none
        · obtain ⟨initialization, hmem, hcontains⟩ := hcovers extent hextent.1 hextent.2
            ⟨hstate, findMatchingRun_eq_none.mp hnone⟩
          exact .inr ⟨initialization, mem_append_left _ hmem, hwithin initialization hmem,
            hcontains⟩
        · exact .inl (ne_none_iff_isSome.mp hnone)
      · rcases hothers.covers other hother hstate extent hextent with
          hmatched | ⟨initialization, hmem, hin⟩
        · exact .inl hmatched
        · exact .inr ⟨initialization, mem_append_right _ hmem, hin⟩

/-- What the check needs of a run, and of the prior runs of its volume. -/
structure Checkable (previous : List ExtentRun) (extentSize : Nat) (run : ExtentRun) : Prop where
  nonempty : 0 < run.extentCount
  logical : run.logicalStart + run.extentCount ≤ maxU64
  bytes : run.extentCount * extentSize ≤ maxU64
  prior : ∀ prior ∈ previous, 0 < prior.extentCount

theorem validateRunInitializations_iff {unused : List DataInitialization}
    (hrun : Checkable (previousRuns previous entry.1) extentSize entry.2) :
    validateRunInitializations previous extentSize entry initializations = .ok unused ↔
      Undisturbed (previousRuns previous entry.1) entry.2 ∧
        TakesSpans extentSize (previousRuns previous entry.1) entry entry.2.logicalStart
          initializations unused := by
  simp only [validateRunInitializations, addU64, ok_iff, gt_iff_lt, not_lt.mpr hrun.logical,
    not_false_eq_true, true_and, exists_eq_left']
  by_cases hmapped : entry.2.state = .mapped
  · rw [if_pos hmapped, initializeRun_iff hmapped hrun.bytes hrun.prior le_rfl le_rfl]
    exact and_congr_left fun _ => ⟨fun h extent hin hwas => ⟨hmapped, h extent hin.1 hin.2 hwas⟩,
      fun h extent hfrom hto hwas => (h extent ⟨hfrom, hto⟩ hwas).2⟩
  · rw [if_neg hmapped, TakesSpans, skip_iff (Nat.le_add_right _ _) le_rfl
      fun _ _ _ hnew => hmapped hnew.1, done_iff le_rfl]
    simp only [ok_iff, hasMappedLogicalOverlap_iff (Nat.lt_add_of_pos_right hrun.nonempty) hrun.prior]
    refine and_congr_left fun _ => ⟨fun h extent hin hwas => ?_, ?_⟩
    · exact absurd ⟨extent, hin.1, hin.2, hwas⟩ h
    · rintro h ⟨extent, hfrom, hto, hwas⟩
      exact hmapped (h extent ⟨hfrom, hto⟩ hwas).1

theorem validateRunsInitializations_iff
    (hruns : ∀ entry ∈ entries, Checkable (previousRuns previous entry.1) extentSize entry.2) :
    ∀ {initializations unused : List DataInitialization},
      validateRunsInitializations previous extentSize entries initializations = .ok unused ↔
        (∀ entry ∈ entries, Undisturbed (previousRuns previous entry.1) entry.2) ∧
          TakesAll previous extentSize entries initializations unused := by
  induction entries with
  | nil => simp [validateRunsInitializations, TakesAll]
  | cons entry rest ih =>
    intro initializations unused
    obtain ⟨hentry, hrest⟩ := forall_mem_cons.mp hruns
    simp only [validateRunsInitializations, bind_eq_ok, validateRunInitializations_iff hentry,
      ih hrest, forall_mem_cons, TakesAll]
    constructor
    · rintro ⟨others, ⟨hkept, htakes⟩, hothers, hall⟩
      exact ⟨⟨hkept, hothers⟩, others, htakes, hall⟩
    · rintro ⟨⟨hkept, hothers⟩, others, htakes, hall⟩
      exact ⟨others, ⟨hkept, htakes⟩, hothers, hall⟩

theorem Accepted.runsOrdered [Codec] {binding : AuthorityBinding} {graph : Graph}
    {members : List MemberGeometry} {protectedPages : List PageReference}
    {catalog : ValidatedCatalog}
    (h : Accepted binding graph members protectedPages catalog) : RunsOrdered catalog.runs := by
  have hvolumes := h.owned.volumes
  rw [ValidatedCatalog.maps, pairwise_map] at hvolumes
  refine pairwise_flatMap.mpr ⟨?_, ?_⟩
  · rintro ⟨descriptor, runs⟩ hmem
    obtain ⟨hruns, -, -⟩ := validateVolumeForPool_eq_ok (h.volume hmem)
    obtain ⟨_, htallied, -⟩ := validateExtentRuns_eq_ok hruns
    refine pairwise_map.mpr (htallied.ordered.imp ?_)
    exact fun hbefore _ => hbefore
  · refine hvolumes.imp fun hne a ha b hb hvolume => ?_
    obtain ⟨run, -, rfl⟩ := mem_map.mp ha
    obtain ⟨other, -, rfl⟩ := mem_map.mp hb
    exact absurd hvolume hne

section

variable [Codec] {binding : AuthorityBinding} {graph : Graph} {members : List MemberGeometry}
  {protectedPages : List PageReference} {current : ValidatedCatalog}

/-- The previous catalog, if there is one, was accepted. -/
def PreviousAccepted (previous : Option ValidatedCatalog) : Prop :=
  ∀ catalog, previous = some catalog → ∃ binding graph members protectedPages,
    validateGraphWithProtectedPages binding graph members protectedPages = .ok catalog

section

variable (h : Accepted binding graph members protectedPages current)
include h

theorem Accepted.checkable (hprevious : PreviousAccepted previous) (hmem : entry ∈ current.runs) :
    Checkable (previousRuns previous entry.1) current.root.extentSize entry.2 := by
  obtain ⟨descriptor, runs, hvolume, -, hrun⟩ := mem_runs.mp hmem
  have hchecked := h.volume hvolume
  have hvalid := (h.run_placed hmem).valid
  simp only [validateVolumeForPool, ok_iff, forAll_eq_ok] at hchecked
  obtain ⟨-, -, -, -, -, -, -, -, -, _, -, -, hplacement⟩ := hchecked
  have hbytes := hplacement entry.2 hrun
  simp only [validateExtentRun, validateRunPlacement, addU64, mulU64, ok_iff, not_lt] at hvalid hbytes
  obtain ⟨-, _, ⟨-, rfl⟩, _, ⟨hbytes, -⟩, -⟩ := hbytes
  refine ⟨Nat.pos_of_ne_zero hvalid.1, hvalid.2.1,
    (Nat.mul_le_mul_right _ (Nat.le_add_left _ _)).trans hbytes, fun prior hprior => ?_⟩
  obtain ⟨catalog, rfl, hruns⟩ := mem_previousRuns hprior
  obtain ⟨_, _, _, _, haccepted⟩ := hprevious catalog rfl
  have hvalid := ((accepted_iff.mp haccepted).run_placed hruns).valid
  simp only [validateExtentRun, ok_iff] at hvalid
  exact Nat.pos_of_ne_zero hvalid.1

theorem validateDataInitializations_iff (hprevious : PreviousAccepted previous) :
    validateDataInitializations previous current initializations = .ok () ↔
      (∀ entry ∈ current.runs, Undisturbed (previousRuns previous entry.1) entry.2) ∧
        TakesAll previous current.root.extentSize current.runs initializations [] := by
  simp only [validateDataInitializations, ok_iff, ne_eq, not_not,
    validateRunsInitializations_iff fun _ hmem => h.checkable hprevious hmem]
  simp only [exists_eq_right]

end

theorem validateDataInitializations_eq_ok
    (haccepted : Accepted binding graph members protectedPages current)
    (hprevious : PreviousAccepted previous)
    (h : validateDataInitializations previous current initializations = .ok ()) :
    Initialized previous current.root.extentSize current.runs initializations ∧
      ∀ initialization ∈ initializations, ∃ entry ∈ current.runs, initialization.Within entry ∧
        initialization.New (previousRuns previous entry.1) entry.2 := by
  obtain ⟨-, htakes⟩ := (validateDataInitializations_iff haccepted hprevious).mp h
  obtain ⟨used, rfl, hused⟩ := htakes.initialized haccepted.runsOrdered
  rw [append_nil]
  exact hused

end

end Zettide.PoolCatalogGraph
