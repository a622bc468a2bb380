import Zettide.Catalog.Partition

/-! # Who owns a physical extent

In an accepted catalog a physical extent of a member backs at most one logical extent of one
volume, or is free, or is retired. Runs are compared with each other three times, within a volume
by `validateExtentRuns` and across volumes by `validatePhysicalOwnership`, which also compares them
with the free and the retired intervals; intervals of one list are ordered. The counters of a
volume are accumulated by the loop of `validateExtentRuns`, whose frontier tells which logical
extents the runs before it have reached. -/

namespace Zettide

open PoolCatalog PoolCatalogPage PoolCatalogGraph Intervals List ValidatedCatalog PoolLayout Except

variable {previous : List ExtentRun} {physicalEnd : Nat} {root : Root}

namespace PoolCatalog

/-! ## The loop over the runs of a volume -/

/-- The extents of the runs in one state. -/
def extentsIn (state : ExtentState) (runs : List ExtentRun) : Nat :=
  ((runs.filter fun run => run.state = state).map ExtentRun.extentCount).sum

/-- What one run adds to the tally. -/
structure Tallied (descriptor : VolumeDescriptor) (run : ExtentRun) (tally after : ExtentTally) :
    Prop where
  valid : validateExtentRun run = .ok ()
  inside : run.logicalStart + run.extentCount ≤ descriptor.logicalExtentCount
  allocated : after.allocated = tally.allocated + extentsIn .mapped [run]
  reserved : after.reserved = tally.reserved + extentsIn .reservedZero [run]
  frontier : after.logicalFrontier = run.logicalStart + run.extentCount
  thick : descriptor.provisioning = .thick → run.logicalStart = tally.logicalFrontier
  thin : descriptor.provisioning = .thin → run.state = .mapped

variable {descriptor : VolumeDescriptor} {runs : List ExtentRun}
  {members : List MemberDataGeometry} {tally after : ExtentTally}
  {topology : Topology} {layout : Layout}

theorem tallyExtentRun_eq_ok {run : ExtentRun}
    (h : tallyExtentRun descriptor previous run tally = .ok after) :
    Tallied descriptor run tally after ∧
      (previous ≠ [] → tally.logicalFrontier ≤ run.logicalStart) := by
  cases hstate : run.state with
  | mapped =>
    simp only [tallyExtentRun, hstate, addU64, ok_iff, not_lt, not_and, ne_eq, not_not,
      exists_eq_left'] at h
    obtain ⟨hvalid, _, ⟨-, rfl⟩, hinside, horder, -, -, _, ⟨-, rfl⟩, hthick, rfl⟩ := h
    refine ⟨⟨hvalid, hinside, ?_, ?_, rfl, hthick, fun _ => hstate⟩, horder⟩
    all_goals simp [extentsIn, hstate]
  | reservedZero =>
    simp only [tallyExtentRun, hstate, addU64, ok_iff, not_lt, not_and, ne_eq, not_not,
      exists_eq_left'] at h
    obtain ⟨hvalid, _, ⟨-, rfl⟩, hinside, horder, -, -, hthin, _, ⟨-, rfl⟩, hthick, rfl⟩ := h
    refine ⟨⟨hvalid, hinside, ?_, ?_, rfl, hthick, fun h => absurd h hthin⟩, horder⟩
    all_goals simp [extentsIn, hstate]

theorem extentsIn_cons (state : ExtentState) (run : ExtentRun) (rest : List ExtentRun) :
    extentsIn state (run :: rest) = extentsIn state [run] + extentsIn state rest := by
  by_cases hstate : run.state = state <;> simp [extentsIn, hstate]

/-- A run ends, logically, before another one begins. -/
def ExtentRun.Before (a b : ExtentRun) : Prop := a.logicalStart + a.extentCount ≤ b.logicalStart

/-- What the loop over the runs has found when it ends. -/
structure TalliedRuns (descriptor : VolumeDescriptor) (runs : List ExtentRun)
    (tally after : ExtentTally) : Prop where
  valid : ∀ run ∈ runs, validateExtentRun run = .ok ()
  inside : ∀ run ∈ runs, run.logicalStart + run.extentCount ≤ descriptor.logicalExtentCount
  behind : ∀ run ∈ runs, tally.logicalFrontier ≤ run.logicalStart
  ordered : runs.Pairwise ExtentRun.Before
  allocated : after.allocated = tally.allocated + extentsIn .mapped runs
  reserved : after.reserved = tally.reserved + extentsIn .reservedZero runs
  thick : descriptor.provisioning = .thick →
    after.logicalFrontier = tally.logicalFrontier + (runs.map ExtentRun.extentCount).sum

theorem tallyExtentRuns_eq_ok : ∀ {previous : List ExtentRun} {tally after : ExtentTally},
      tallyExtentRuns descriptor previous runs tally = .ok after →
      (previous = [] → tally.logicalFrontier = 0) →
      TalliedRuns descriptor runs tally after := by
  induction runs with
  | nil =>
    intro previous tally after h hfirst
    cases h
    exact ⟨by simp, by simp, by simp, .nil, by simp [extentsIn], by simp [extentsIn], by simp⟩
  | cons run rest ih =>
    intro previous tally after h hfirst
    simp only [tallyExtentRuns, bind_eq_ok] at h
    obtain ⟨next, hrun, hrest⟩ := h
    obtain ⟨htallied, horder⟩ := tallyExtentRun_eq_ok hrun
    have hothers := ih hrest (by simp)
    have hfrontier := htallied.frontier
    have hbehind : tally.logicalFrontier ≤ run.logicalStart := by
      by_cases hempty : previous = []
      · rw [hfirst hempty]; omega
      · exact horder hempty
    constructor
    case valid => exact forall_mem_cons.mpr ⟨htallied.valid, hothers.valid⟩
    case inside => exact forall_mem_cons.mpr ⟨htallied.inside, hothers.inside⟩
    case behind =>
      refine forall_mem_cons.mpr ⟨hbehind, fun other hmem => ?_⟩
      have := hothers.behind other hmem
      omega
    case ordered =>
      refine pairwise_cons.mpr ⟨fun other hmem => ?_, hothers.ordered⟩
      have := hothers.behind other hmem
      unfold ExtentRun.Before
      omega
    case allocated =>
      rw [hothers.allocated, htallied.allocated, extentsIn_cons .mapped run rest]
      omega
    case reserved =>
      rw [hothers.reserved, htallied.reserved, extentsIn_cons .reservedZero run rest]
      omega
    case thick =>
      intro hthick
      have hstart := htallied.thick hthick
      rw [hothers.thick hthick, map_cons, sum_cons]
      omega

theorem validateExtentRuns_eq_ok (h : validateExtentRuns descriptor runs = .ok ()) :
    ∃ after, TalliedRuns descriptor runs ⟨0, 0, 0⟩ after ∧
      after.allocated = descriptor.allocatedExtentCount ∧
      (descriptor.provisioning = .thick → after.reserved = descriptor.reservedExtentCount ∧
        after.logicalFrontier = descriptor.logicalExtentCount) := by
  simp only [validateExtentRuns, ok_iff, ne_eq, not_not, not_and, not_or] at h
  obtain ⟨-, after, htally, hallocated, hthick⟩ := h
  exact ⟨after, tallyExtentRuns_eq_ok htally fun _ => rfl, hallocated, hthick⟩

/-- The logical extents of a volume that runs in one state cover. -/
def coveredExtents (descriptor : VolumeDescriptor) (runs : List ExtentRun) (state : ExtentState) :
    Finset Nat :=
  (Finset.range descriptor.logicalExtentCount).filter fun extent =>
    ∃ run ∈ runs, run.state = state ∧
      run.logicalStart ≤ extent ∧ extent < run.logicalStart + run.extentCount

theorem TalliedRuns.card_coveredExtents (h : TalliedRuns descriptor runs tally after)
    (state : ExtentState) : (coveredExtents descriptor runs state).card = extentsIn state runs := by
  have hapart : (runs.filter fun run => run.state = state).Pairwise
      (Apart ExtentRun.logicalStart ExtentRun.extentCount) :=
    (h.ordered.filter _).imp fun hbefore => apart_of_le hbefore
  have hinside : ∀ run ∈ runs.filter fun run => run.state = state, 0 ≤ run.logicalStart ∧
        run.logicalStart + run.extentCount ≤ descriptor.logicalExtentCount :=
    fun run hmem => ⟨Nat.zero_le _, h.inside run (mem_filter.mp hmem).1⟩
  rw [extentsIn, ← card_covered hapart hinside, coveredExtents, Finset.range_eq_Ico]
  congr 1
  ext extent
  simp only [mem_filter, decide_eq_true_eq, and_assoc]
  rfl

/-- The counters of a volume count what its map covers, and the map of a thick volume covers every
logical extent once. -/
theorem validateExtentRuns_counters (h : validateExtentRuns descriptor runs = .ok ()) :
    descriptor.allocatedExtentCount = (coveredExtents descriptor runs .mapped).card ∧
      (descriptor.provisioning = .thick →
        descriptor.reservedExtentCount = (coveredExtents descriptor runs .reservedZero).card ∧
        ∀ extent < descriptor.logicalExtentCount,
          cover ExtentRun.logicalStart ExtentRun.extentCount runs extent = 1) := by
  obtain ⟨after, htally, hallocated, hthick⟩ := validateExtentRuns_eq_ok h
  have hmapped := htally.allocated
  have hreserved := htally.reserved
  dsimp only at hmapped hreserved
  refine ⟨by rw [htally.card_coveredExtents]; omega, fun hprovisioning => ?_⟩
  obtain ⟨hcount, hfrontier⟩ := hthick hprovisioning
  have htotal := htally.thick hprovisioning
  dsimp only at htotal
  refine ⟨by rw [htally.card_coveredExtents]; omega, fun extent hextent => ?_⟩
  have hinside : ∀ run ∈ runs, 0 ≤ run.logicalStart ∧
      run.logicalStart + run.extentCount ≤ descriptor.logicalExtentCount :=
    fun run hmem => ⟨Nat.zero_le _, htally.inside run hmem⟩
  exact cover_eq_one (htally.ordered.imp fun hbefore => apart_of_le hbefore) hinside (by omega)
    (Nat.zero_le _) hextent

/-! ## Placement -/

/-- A slot of the pool with the data region that the extents up to `physicalEnd` lie in. -/
structure Placed (topology : Topology) (members : List MemberDataGeometry)
    (extentSize physicalEnd slot : Nat) : Prop where
  member : ∃ member, topology.members.find? (fun member => member.slot = slot) = some member ∧
    member.state ≠ .joining
  region : ∃ geometry ∈ members, geometry.slot = slot ∧
    physicalEnd * extentSize ≤ geometry.dataLength

theorem validateReplica_eq_ok {extentSize slot : Nat}
    (h : validateReplica topology members (physicalEnd * extentSize) slot = .ok ()) :
    Placed topology members extentSize physicalEnd slot := by
  simp only [validateReplica, ok_iff, not_lt] at h
  obtain ⟨member, hmember, hstate, geometry, hgeometry, hinside⟩ := h
  refine ⟨⟨member, hmember, hstate⟩, geometry, mem_of_find?_eq_some hgeometry, ?_, hinside⟩
  simpa using find?_some hgeometry

/-- What the pool knows about one run. -/
structure RunPlaced (extentSize width : Nat) (topology : Topology)
    (members : List MemberDataGeometry) (run : ExtentRun) : Prop where
  valid : validateExtentRun run = .ok ()
  width_eq : run.memberSlots.length = width
  placed : ∀ slot ∈ run.memberSlots,
    Placed topology members extentSize (run.physicalStart + run.extentCount) slot

theorem validateVolumeForPool_eq_ok
    (h : validateVolumeForPool root descriptor runs layout topology members = .ok ()) :
    validateExtentRuns descriptor runs = .ok () ∧ root.extentSize = descriptor.extentSize ∧
      ∃ width, requiredMemberCount layout = .ok width ∧
        ∀ run ∈ runs, RunPlaced root.extentSize width topology members run := by
  simp only [validateVolumeForPool, ok_iff, not_or, ne_eq, not_not, forAll_eq_ok] at h
  obtain ⟨-, -, hruns, -, -, -, -, -, ⟨hsize, -⟩, width, hwidth, -, hplacement⟩ := h
  refine ⟨hruns, hsize, width, hwidth, fun run hmem => ?_⟩
  have hrun := hplacement run hmem
  simp only [validateRunPlacement, addU64, mulU64, ok_iff, ne_eq, not_not, forAll_eq_ok] at hrun
  obtain ⟨hcount, _, ⟨-, rfl⟩, _, ⟨-, rfl⟩, hreplicas⟩ := hrun
  obtain ⟨after, htally, -⟩ := validateExtentRuns_eq_ok hruns
  exact ⟨htally.valid run hmem, hcount, fun slot hslot => validateReplica_eq_ok (hreplicas slot hslot)⟩

/-- A valid layout that the catalog supports says itself on how many members an extent lies. -/
theorem requiredMemberCount_eq {width : Nat} (hvalid : validate layout = .ok ())
    (h : requiredMemberCount layout = .ok width) : width = layout.dataFragments := by
  simp only [validate, ok_iff] at hvalid
  obtain ⟨-, -, -, -, hprofile⟩ := hvalid
  unfold requiredMemberCount at h
  cases hscheduled : layout.scheduledBlob with
  | some scheduled =>
    simp only [hscheduled, validateScheduled, ok_iff, not_or, ne_eq, not_not] at hprofile
    obtain ⟨⟨hkind, hdata, -⟩, -⟩ := hprofile
    rw [hkind] at h
    rw [hdata]
    exact (ok.inj h).symm
  | none =>
    simp only [hscheduled, validateProfile] at hprofile
    cases hkind : layout.kind with
    | unprotected | replicated =>
      simp only [hkind, rejectIf_eq_ok, not_or, ne_eq, not_not] at hprofile h
      exact (ok.inj h).symm.trans hprofile.1.symm
    | erasureCoded =>
      simp only [hkind] at h
      cases h

end PoolCatalog

variable {a b : PhysicalInterval}

namespace PoolCatalogPage

/-! ## Ranges that do not overlap -/

/-- Ranges that do not overlap have no position in common, and end inside 64 bits. -/
theorem not_rangesOverlap {a b c d : Nat} (h : ¬ rangesOverlap a b c d) (position : Nat) :
    ¬ (rangeContains a b position ∧ rangeContains c d position) := by
  simp only [rangesOverlap, not_or, not_and, not_lt] at h
  rintro ⟨⟨ha, hb⟩, hc, hd⟩
  omega

/-- An interval ends before another one begins, or is on an earlier slot. -/
def PhysicalInterval.Before (a b : PhysicalInterval) : Prop := a.memberSlot < b.memberSlot ∨
    a.memberSlot = b.memberSlot ∧ a.physicalStart + a.extentCount ≤ b.physicalStart

instance : IsTrans PhysicalInterval PhysicalInterval.Before :=
  ⟨fun a b c hab hbc => by unfold PhysicalInterval.Before at *; omega⟩

theorem validatePhysicalOrder_eq_ok {kind : IntervalKind}
    (h : validatePhysicalOrder kind a b = .ok ()) : a.Before b := by
  simp only [validatePhysicalOrder, ok_iff, not_lt] at h
  obtain ⟨hslot, hrest⟩ := h
  by_cases hsame : b.memberSlot = a.memberSlot
  · rw [if_neg (not_not.mpr hsame)] at hrest
    simp only [addU64, ok_iff] at hrest
    obtain ⟨_, ⟨-, rfl⟩, horder, -⟩ := hrest
    exact .inr ⟨hsame.symm, not_lt.mp horder⟩
  · exact .inl (by omega)

end PoolCatalogPage

namespace PoolCatalogGraph

/-! ## Holdings -/

/-- A range of extents on some slots: what a run, a free interval or a retired interval holds. -/
structure Holding where
  memberSlots : List Nat
  physicalStart : Nat
  extentCount : Nat
  deriving DecidableEq, Repr

/-- The holding has the extent. -/
def Holding.Covers (holding : Holding) (slot ordinal : Nat) : Prop :=
  slot ∈ holding.memberSlots ∧ rangeContains holding.physicalStart holding.extentCount ordinal

instance (holding : Holding) (slot ordinal : Nat) : Decidable (holding.Covers slot ordinal) :=
  inferInstanceAs (Decidable (_ ∧ _))

def Holding.ofRun (run : ExtentRun) : Holding :=
  ⟨run.memberSlots, run.physicalStart, run.extentCount⟩

def Holding.ofInterval (interval : PhysicalInterval) : Holding :=
  ⟨[interval.memberSlot], interval.physicalStart, interval.extentCount⟩

/-- No extent is in both. -/
def Holding.Apart (a b : Holding) : Prop :=
  ∀ slot ordinal, ¬ (a.Covers slot ordinal ∧ b.Covers slot ordinal)

/-- Everything in a catalog that holds physical extents. -/
def ValidatedCatalog.holdings (catalog : ValidatedCatalog) : List Holding :=
  catalog.runs.map (fun entry => .ofRun entry.2) ++
    (catalog.free.map .ofInterval ++ catalog.retired.map .ofInterval)

/-- The number of runs, over all volumes, in which an extent of a slot backs a logical one. -/
def ValidatedCatalog.backing (catalog : ValidatedCatalog) (slot ordinal : Nat) : Nat :=
  catalog.runs.countP fun entry => (Holding.ofRun entry.2).Covers slot ordinal

/-- The number of intervals of a list that an extent of a slot lies in. -/
def intervalsAt (intervals : List PhysicalInterval) (slot ordinal : Nat) : Nat :=
  intervals.countP fun interval => (Holding.ofInterval interval).Covers slot ordinal

theorem countP_holdings (catalog : ValidatedCatalog) (slot ordinal : Nat) :
    catalog.holdings.countP (fun holding => holding.Covers slot ordinal) =
      catalog.backing slot ordinal + intervalsAt catalog.free slot ordinal +
        intervalsAt catalog.retired slot ordinal := by
  simp only [holdings, countP_append, countP_map, Nat.add_assoc]
  rfl

theorem apart_of_runsOverlap {a b : ExtentRun} (h : ¬ runsOverlap a b) :
    (Holding.ofRun a).Apart (.ofRun b) := by
  rintro slot ordinal ⟨⟨hslot, ha⟩, hother, hb⟩
  have hshare : shareMemberSlot a b = true := by
    simp only [shareMemberSlot, any_eq_true, contains_iff_mem]
    exact ⟨slot, hslot, hother⟩
  exact not_rangesOverlap (fun hoverlap => h ⟨hoverlap, hshare⟩) ordinal ⟨ha, hb⟩

variable {run : ExtentRun} {free retired : List PhysicalInterval} {catalog : ValidatedCatalog}
  {volumeId : Id}

theorem apart_of_runOverlapsInterval {interval : PhysicalInterval}
    (h : ¬ runOverlapsInterval run interval) : (Holding.ofRun run).Apart (.ofInterval interval) := by
  rintro slot ordinal ⟨⟨hslot, ha⟩, hother, hb⟩
  obtain rfl : slot = interval.memberSlot := by simpa [Holding.ofInterval] using hother
  exact not_rangesOverlap (fun hoverlap => h ⟨hoverlap, hslot⟩) ordinal ⟨ha, hb⟩

theorem apart_of_intervalsOverlap (h : ¬ intervalsOverlap a b) :
    (Holding.ofInterval a).Apart (.ofInterval b) := by
  rintro slot ordinal ⟨⟨hslot, ha⟩, hother, hb⟩
  obtain rfl : slot = a.memberSlot := by simpa [Holding.ofInterval] using hslot
  have hsame : a.memberSlot = b.memberSlot := by simpa [Holding.ofInterval] using hother
  exact not_rangesOverlap (fun hoverlap => h ⟨hsame, hoverlap⟩) ordinal ⟨ha, hb⟩

theorem apart_of_before (h : a.Before b) : (Holding.ofInterval a).Apart (.ofInterval b) := by
  rintro slot ordinal ⟨⟨hslot, -, ha⟩, hother, hb, -⟩
  obtain rfl : slot = a.memberSlot := by simpa [Holding.ofInterval] using hslot
  have hsame : a.memberSlot = b.memberSlot := by simpa [Holding.ofInterval] using hother
  simp only [PhysicalInterval.Before, Holding.ofInterval] at *
  omega

/-- The runs of maps with the volume they belong to. -/
def runsOf (maps : List VolumeExtentMap) : List (Id × ExtentRun) :=
  maps.flatMap fun map => map.runs.map fun run => (map.volumeId, run)

/-- The extent maps of a catalog. -/
def ValidatedCatalog.maps (catalog : ValidatedCatalog) : List VolumeExtentMap :=
  (catalog.descriptors.zip catalog.extentRuns).map fun entry => ⟨entry.1.volumeId, entry.2⟩

theorem runs_eq (catalog : ValidatedCatalog) : catalog.runs = runsOf catalog.maps := by
  simp only [runs, runsOf, maps, flatMap_map]

theorem mem_runs : (volumeId, run) ∈ catalog.runs ↔ ∃ descriptor runs,
      (descriptor, runs) ∈ catalog.descriptors.zip catalog.extentRuns ∧
        descriptor.volumeId = volumeId ∧ run ∈ runs := by
  simp only [runs, mem_flatMap, mem_map, Prod.mk.injEq]
  constructor
  · rintro ⟨⟨descriptor, runs⟩, hmem, found, hrun, rfl, rfl⟩
    exact ⟨descriptor, runs, hmem, rfl, hrun⟩
  · rintro ⟨descriptor, runs, hmem, rfl, hrun⟩
    exact ⟨(descriptor, runs), hmem, run, hrun, rfl, rfl⟩

/-- What the ownership check has compared. -/
structure Owned (maps : List VolumeExtentMap) (free retired : List PhysicalInterval) : Prop where
  freeOrder : free.Pairwise PhysicalInterval.Before
  retiredOrder : retired.Pairwise PhysicalInterval.Before
  freeValid : ∀ interval ∈ free, validatePhysicalInterval .free maxU64 interval = .ok ()
  retiredValid : ∀ interval ∈ retired, validatePhysicalInterval .retired maxU64 interval = .ok ()
  runs : (runsOf maps).Pairwise fun a b => ¬ runsOverlap a.2 b.2
  volumes : maps.Pairwise fun a b => a.volumeId ≠ b.volumeId
  runFree : ∀ entry ∈ runsOf maps, ∀ interval ∈ free, ¬ runOverlapsInterval entry.2 interval
  runRetired : ∀ entry ∈ runsOf maps, ∀ interval ∈ retired, ¬ runOverlapsInterval entry.2 interval
  freeRetired : ∀ a ∈ free, ∀ b ∈ retired, ¬ intervalsOverlap a b

theorem validateRunOwnership_eq_ok {previousMaps : List VolumeExtentMap}
    (h : validateRunOwnership free retired previousMaps previous run = .ok ()) :
    (∀ other ∈ previous, ¬ runsOverlap other run) ∧
      (∀ map ∈ previousMaps, ∀ other ∈ map.runs, ¬ runsOverlap other run) ∧
      (∀ interval ∈ free, ¬ runOverlapsInterval run interval) ∧
      ∀ interval ∈ retired, ¬ runOverlapsInterval run interval := by
  simp only [validateRunOwnership, ok_iff, not_exists, not_and] at h
  exact h.2

theorem validatePhysicalOwnership_eq_ok {maps : List VolumeExtentMap}
    (h : validatePhysicalOwnership maps free retired = .ok ()) : Owned maps free retired := by
  simp only [validatePhysicalOwnership, ok_iff, checkOrdered_eq_ok, Option.toList_none,
    nil_append, not_exists, not_and] at h
  obtain ⟨⟨hfreeValid, hfree⟩, ⟨hretiredValid, hretired⟩, hmaps, hboth⟩ := h
  -- A map was compared with every map before it, and its runs with every run before them.
  have hpairs : maps.Pairwise fun a b => a.volumeId ≠ b.volumeId ∧
      ∀ run ∈ b.runs, ∀ other ∈ a.runs, ¬ runsOverlap other run := by
    refine (forAllWithPrevious_pairwise (fun previous map hmap other hother => ?_) hmaps).1
    simp only [validateMapOwnership, ok_iff, not_exists, not_and] at hmap
    refine ⟨fun heq => hmap.2.1 other hother heq.symm, fun run hrun => ?_⟩
    obtain ⟨earlier, hcheck⟩ := forAllWithPrevious_mem hrun hmap.2.2
    exact (validateRunOwnership_eq_ok hcheck).2.1 other hother
  have hwithin : ∀ map ∈ maps, map.runs.Pairwise (fun a b => ¬ runsOverlap a b) ∧
      ∀ run ∈ map.runs, (∀ interval ∈ free, ¬ runOverlapsInterval run interval) ∧
        ∀ interval ∈ retired, ¬ runOverlapsInterval run interval := by
    intro map hmem
    obtain ⟨earlier, hmap⟩ := forAllWithPrevious_mem hmem hmaps
    simp only [validateMapOwnership, ok_iff] at hmap
    refine ⟨(forAllWithPrevious_pairwise ?_ hmap.2.2).1, fun run hrun => ?_⟩
    · exact fun previous run hcheck => (validateRunOwnership_eq_ok hcheck).1
    · obtain ⟨earlier, hcheck⟩ := forAllWithPrevious_mem hrun hmap.2.2
      exact (validateRunOwnership_eq_ok hcheck).2.2
  have hentry : ∀ entry ∈ runsOf maps, ∃ map ∈ maps, entry.2 ∈ map.runs := by
    intro entry hmem
    obtain ⟨map, hmap, hentry⟩ := mem_flatMap.mp hmem
    obtain ⟨run, hrun, rfl⟩ := mem_map.mp hentry
    exact ⟨map, hmap, hrun⟩
  constructor
  case freeOrder =>
    rw [← isChain_iff_pairwise]
    exact hfree.imp fun _ _ => validatePhysicalOrder_eq_ok
  case retiredOrder =>
    rw [← isChain_iff_pairwise]
    exact hretired.imp fun _ _ => validatePhysicalOrder_eq_ok
  case freeValid => exact hfreeValid
  case retiredValid => exact hretiredValid
  case runs =>
    refine pairwise_flatMap.mpr ⟨fun map hmem => ?_, hpairs.imp fun hpair => ?_⟩
    · exact pairwise_map.mpr (hwithin map hmem).1
    · intro entry hentry other hother
      obtain ⟨run, hrun, rfl⟩ := mem_map.mp hentry
      obtain ⟨later, hlater, rfl⟩ := mem_map.mp hother
      exact hpair.2 later hlater run hrun
  case volumes => exact hpairs.imp fun hpair => hpair.1
  case runFree =>
    intro entry hmem
    obtain ⟨map, hmap, hrun⟩ := hentry entry hmem
    exact ((hwithin map hmap).2 entry.2 hrun).1
  case runRetired =>
    intro entry hmem
    obtain ⟨map, hmap, hrun⟩ := hentry entry hmem
    exact ((hwithin map hmap).2 entry.2 hrun).2
  case freeRetired => exact fun a ha b hb => hboth a ha b hb

theorem Owned.holdings (h : Owned catalog.maps catalog.free catalog.retired) :
    catalog.holdings.Pairwise Holding.Apart := by
  rw [ValidatedCatalog.holdings, runs_eq]
  refine pairwise_append.mpr ⟨?_, pairwise_append.mpr ⟨?_, ?_, ?_⟩, ?_⟩
  · exact pairwise_map.mpr (h.runs.imp apart_of_runsOverlap)
  · exact pairwise_map.mpr (h.freeOrder.imp apart_of_before)
  · exact pairwise_map.mpr (h.retiredOrder.imp apart_of_before)
  · intro a ha b hb
    obtain ⟨freeInterval, hfree, rfl⟩ := mem_map.mp ha
    obtain ⟨retiredInterval, hretired, rfl⟩ := mem_map.mp hb
    exact apart_of_intervalsOverlap (h.freeRetired _ hfree _ hretired)
  · intro a ha b hb
    obtain ⟨entry, hentry, rfl⟩ := mem_map.mp ha
    rcases mem_append.mp hb with hfree | hretired
    · obtain ⟨interval, hmem, rfl⟩ := mem_map.mp hfree
      exact apart_of_runOverlapsInterval (h.runFree entry hentry interval hmem)
    · obtain ⟨interval, hmem, rfl⟩ := mem_map.mp hretired
      exact apart_of_runOverlapsInterval (h.runRetired entry hentry interval hmem)

/-! ## Accepted catalogs -/

section

variable [Codec]

theorem readVolumes_eq_ok {binding : AuthorityBinding} {graph : Graph}
    {geometry : List MemberDataGeometry} {descriptors : List VolumeDescriptor} :
    ∀ {pages pages' : List PageReference} {extentRuns : List (List ExtentRun)},
      readVolumes binding root graph geometry descriptors pages = .ok (extentRuns, pages') →
      List.Forall₂ (fun descriptor runs => validateVolumeForPool root descriptor runs
        binding.layout binding.topology geometry = .ok ()) descriptors extentRuns := by
  induction descriptors with
  | nil =>
    intro pages pages' extentRuns h
    simp only [readVolumes, ok.injEq, Prod.mk.injEq] at h
    rw [← h.1]
    exact .nil
  | cons descriptor rest ih =>
    intro pages pages' extentRuns h
    simp only [readVolumes, ok_iff, Prod.mk.injEq] at h
    obtain ⟨⟨runs, used⟩, hvolume, ⟨others, used'⟩, hothers, rfl, -⟩ := h
    refine .cons ?_ (ih hothers)
    simp only [readVolume, ok_iff, Prod.mk.injEq] at hvolume
    obtain ⟨_, -, -, ⟨found, _⟩, -, hvalid, rfl, -⟩ := hvolume
    exact hvalid

/-- An extent of a slot lies in the data region of a member of the pool. -/
def InDataRegion (topology : Topology) (members : List MemberGeometry)
    (extentSize slot ordinal : Nat) (member : TopologyMember) : Prop :=
  member ∈ topology.members ∧ member.slot = slot ∧
    ∃ geometry ∈ members, geometry.slot = slot ∧ geometry.memberId = member.memberId ∧
      (ordinal + 1) * extentSize ≤ geometry.dataLength

namespace Accepted

variable {binding : AuthorityBinding} {graph : Graph} {members : List MemberGeometry}
  {protectedPages : List PageReference} {catalog : ValidatedCatalog}

section

variable (h : Accepted binding graph members protectedPages catalog)
include h

theorem volumes :
    List.Forall₂ (fun descriptor runs => validateVolumeForPool catalog.root descriptor runs
      binding.layout binding.topology (dataGeometry members) = .ok ())
      catalog.descriptors catalog.extentRuns := by
  obtain ⟨pages, -, hvolumes⟩ := h.leaves
  exact readVolumes_eq_ok hvolumes

theorem volume {descriptor : VolumeDescriptor} {runs : List ExtentRun}
    (hmem : (descriptor, runs) ∈ catalog.descriptors.zip catalog.extentRuns) :
    validateVolumeForPool catalog.root descriptor runs binding.layout binding.topology
      (dataGeometry members) = .ok () :=
  forall₂_zip h.volumes hmem

theorem owned : Owned catalog.maps catalog.free catalog.retired := by
  have hparts := h.parts
  simp only [validateParts, ok_iff] at hparts
  exact validatePhysicalOwnership_eq_ok hparts.2.2.1

end

variable {slot ordinal : Nat} {interval : PhysicalInterval}

variable (h : Accepted binding graph members protectedPages catalog)
include h

/-- The geometry of a slot belongs to the member of the topology with that slot. -/
theorem geometry_member {dataLength : Nat} (hmem : ⟨slot, dataLength⟩ ∈ dataGeometry members) :
    ∃ geometry ∈ members, geometry.slot = slot ∧ geometry.dataLength = dataLength ∧
      ∃ member, binding.topology.members.find? (fun member => member.slot = slot) = some member ∧
        geometry.memberId = member.memberId := by
  obtain ⟨geometry, hgeometry, heq⟩ := mem_map.mp hmem
  obtain ⟨rfl, rfl⟩ := MemberDataGeometry.mk.inj heq
  obtain ⟨earlier, hcheck⟩ := forAllWithPrevious_mem hgeometry h.geometry.2
  simp only [validateMemberGeometry, ok_iff, ne_eq, not_not] at hcheck
  obtain ⟨member, hfind, hid, -⟩ := hcheck
  exact ⟨geometry, hgeometry, rfl, rfl, member, hfind, hid⟩

/-- A slot whose geometry has room for the extents before `physicalEnd` has each of them in its
data region. -/
theorem inDataRegion {geometry : MemberDataGeometry}
    (hmem : geometry ∈ dataGeometry members) (hslot : geometry.slot = slot)
    (hinside : physicalEnd * catalog.root.extentSize ≤ geometry.dataLength)
    (hordinal : ordinal < physicalEnd) :
    ∃ member, binding.topology.members.find? (fun member => member.slot = slot) = some member ∧
      InDataRegion binding.topology members catalog.root.extentSize slot ordinal member := by
  obtain ⟨found, hfound, hfoundSlot, hlength, member, hfind, hid⟩ := h.geometry_member hmem
  rw [hslot] at hfind hfoundSlot
  have hmember : member.slot = slot := by simpa using find?_some hfind
  refine ⟨member, hfind, mem_of_find?_eq_some hfind, hmember, found, hfound, hfoundSlot, hid, ?_⟩
  calc (ordinal + 1) * catalog.root.extentSize
      ≤ physicalEnd * catalog.root.extentSize := Nat.mul_le_mul_right _ hordinal
    _ ≤ geometry.dataLength := hinside
    _ = found.dataLength := hlength.symm

theorem run_placed (hmem : (volumeId, run) ∈ catalog.runs) :
    RunPlaced catalog.root.extentSize binding.layout.dataFragments binding.topology
      (dataGeometry members) run := by
  obtain ⟨descriptor, runs, hvolume, -, hrun⟩ := mem_runs.mp hmem
  obtain ⟨-, -, width, hwidth, hplaced⟩ := validateVolumeForPool_eq_ok (h.volume hvolume)
  have hlayout : validate binding.layout = .ok () := by
    have hinputs := h.inputs
    simp only [validateInputs, ok_iff, ofControl_eq_ok] at hinputs
    exact hinputs.2.1
  rw [← requiredMemberCount_eq hlayout hwidth]
  exact hplaced run hrun

theorem run_inDataRegion (hmem : (volumeId, run) ∈ catalog.runs)
    (hcovers : (Holding.ofRun run).Covers slot ordinal) :
    ∃ member, InDataRegion binding.topology members catalog.root.extentSize slot ordinal member ∧
      member.state ≠ .joining := by
  obtain ⟨hslot, -, hordinal⟩ := hcovers
  obtain ⟨⟨member, hfind, hstate⟩, geometry, hgeometry, hgeometrySlot, hinside⟩ :=
    (h.run_placed hmem).placed slot hslot
  obtain ⟨other, hother, hregion⟩ := h.inDataRegion hgeometry hgeometrySlot hinside hordinal
  obtain rfl : member = other := Option.some.inj (hfind.symm.trans hother)
  exact ⟨member, hregion, hstate⟩

section

variable (hmem : interval ∈ catalog.free ++ catalog.retired)
include hmem

theorem interval_placed : ∃ geometry ∈ dataGeometry members, geometry.slot = interval.memberSlot ∧
      (interval.physicalStart + interval.extentCount) * catalog.root.extentSize ≤
        geometry.dataLength := by
  have hchecked : validatePhysicalIntervalForMembers catalog.root.extentSize (dataGeometry members)
      interval = .ok () := by
    have hparts := h.parts
    simp only [validateParts, validatePhysicalIntervalsForMembers, ok_iff, forAll_eq_ok,
      h.members_eq] at hparts
    obtain ⟨⟨-, -, hfree⟩, ⟨-, -, hretired⟩, -⟩ := hparts
    exact (mem_append.mp hmem).elim (hfree interval) (hretired interval)
  simp only [validatePhysicalIntervalForMembers, addU64, mulU64, ok_iff, not_lt] at hchecked
  obtain ⟨geometry, hfind, _, ⟨-, rfl⟩, _, ⟨-, rfl⟩, hinside⟩ := hchecked
  exact ⟨geometry, mem_of_find?_eq_some hfind, by simpa using find?_some hfind, hinside⟩

theorem interval_inDataRegion (hcovers : (Holding.ofInterval interval).Covers slot ordinal) :
    ∃ member,
      InDataRegion binding.topology members catalog.root.extentSize slot ordinal member := by
  obtain ⟨geometry, hgeometry, hgeometrySlot, hinside⟩ := h.interval_placed hmem
  obtain ⟨hslot, -, hordinal⟩ := hcovers
  obtain rfl : slot = interval.memberSlot := by simpa [Holding.ofInterval] using hslot
  obtain ⟨member, -, hregion⟩ := h.inDataRegion hgeometry hgeometrySlot hinside hordinal
  exact ⟨member, hregion⟩

end

theorem holding_member {holding : Holding} (hmem : holding ∈ catalog.holdings)
    (hslot : slot ∈ holding.memberSlots) : ∃ member ∈ members, member.slot = slot := by
  have hplaced : ∃ geometry ∈ dataGeometry members, geometry.slot = slot := by
    rcases mem_append.mp hmem with hrun | hinterval
    · obtain ⟨⟨volumeId, run⟩, hentry, rfl⟩ := mem_map.mp hrun
      obtain ⟨-, geometry, hgeometry, hgeometrySlot, -⟩ := (h.run_placed hentry).placed slot hslot
      exact ⟨geometry, hgeometry, hgeometrySlot⟩
    rw [← map_append] at hinterval
    obtain ⟨interval, hlisted, rfl⟩ := mem_map.mp hinterval
    obtain ⟨geometry, hgeometry, hgeometrySlot, -⟩ := h.interval_placed hlisted
    obtain rfl : slot = interval.memberSlot := by simpa [Holding.ofInterval] using hslot
    exact ⟨geometry, hgeometry, hgeometrySlot⟩
  obtain ⟨geometry, hgeometry, rfl⟩ := hplaced
  obtain ⟨member, hmember, rfl⟩ := mem_map.mp hgeometry
  exact ⟨member, hmember, rfl⟩

/-- The members of the geometry are on different slots. -/
theorem slots_nodup : (members.map MemberGeometry.slot).Nodup := by
  refine pairwise_map.mpr (forAllWithPrevious_pairwise (fun previous member hcheck => ?_)
    h.geometry.2).1
  simp only [validateMemberGeometry, ok_iff, not_exists, not_and] at hcheck
  obtain ⟨_, -, -, hfresh, -⟩ := hcheck
  exact hfresh

end Accepted

/-- What the physical side of a catalog promises. -/
structure PhysicallySound (binding : AuthorityBinding) (members : List MemberGeometry)
    (catalog : ValidatedCatalog) : Prop where
  /-- An extent of a slot backs one logical extent, or is free, or is retired, at most once. -/
  exclusive : ∀ slot ordinal, catalog.backing slot ordinal + intervalsAt catalog.free slot ordinal +
    intervalsAt catalog.retired slot ordinal ≤ 1
  /-- An extent that backs a logical one lies in the data region of a member that has joined. -/
  backed : ∀ entry ∈ catalog.runs, ∀ slot ordinal, (Holding.ofRun entry.2).Covers slot ordinal →
    ∃ member, InDataRegion binding.topology members catalog.root.extentSize slot ordinal member ∧
      member.state ≠ .joining
  /-- A free or retired extent lies in the data region of a member. -/
  listed : ∀ interval ∈ catalog.free ++ catalog.retired, ∀ slot ordinal,
    (Holding.ofInterval interval).Covers slot ordinal →
    ∃ member, InDataRegion binding.topology members catalog.root.extentSize slot ordinal member
  /-- Runs and intervals end inside 64 bits. -/
  bounded : ∀ holding ∈ catalog.holdings, holding.physicalStart + holding.extentCount ≤ maxU64
  /-- A run lies on as many members as the layout says, all different. -/
  width : ∀ entry ∈ catalog.runs, entry.2.memberSlots.length = binding.layout.dataFragments ∧
    entry.2.memberSlots.Nodup
  /-- Every volume has its map. -/
  maps : catalog.extentRuns.length = catalog.descriptors.length
  /-- The allocated counter of a volume is the number of its mapped extents. -/
  allocated : ∀ volume ∈ catalog.descriptors.zip catalog.extentRuns,
    volume.1.allocatedExtentCount = (coveredExtents volume.1 volume.2 .mapped).card
  /-- The map of a thick volume covers every logical extent once, and the reserved counter is the
  number of its reserved extents. -/
  thick : ∀ volume ∈ catalog.descriptors.zip catalog.extentRuns, volume.1.provisioning = .thick →
    volume.1.reservedExtentCount = (coveredExtents volume.1 volume.2 .reservedZero).card ∧
      ∀ extent < volume.1.logicalExtentCount,
        volume.2.countP (fun run => rangeContains run.logicalStart run.extentCount extent) = 1

end

end PoolCatalogGraph

end Zettide
