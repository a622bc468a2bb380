import Zettide.Catalog.Ownership
import Zettide.Lib.Replicas

/-! # The logical address space of a volume

Translation of `VolumeMap` of `pool_catalog_volume.zig`. A transfer at an arbitrary offset and of
an arbitrary length is split at the boundaries of extents; each piece either lies in a mapped
extent, on all members of its run at one physical offset, or reads as zero.

`locate` is what the spans are for: the physical place of a single byte. The spans of a transfer
tile it (`Tiles`), and every byte of a span is where `locate` says. -/

namespace Zettide

open Option List

inductive VolumeError where
  | volumeNotReady | volumeNotFound | outOfBounds | unfinished
  deriving DecidableEq, Repr

namespace PoolCatalogVolume

open PoolCatalog PoolCatalogGraph

structure MappedSpan where
  physicalOffset : Nat
  length : Nat
  memberSlots : List Nat
  deriving DecidableEq, Repr

inductive Span where
  | zero (length : Nat)
  | mapped (span : MappedSpan)
  deriving DecidableEq, Repr

def Span.length : Span → Nat
  | .zero length => length
  | .mapped span => span.length

/-- A ready volume and its extent map. -/
structure VolumeMap where
  descriptor : VolumeDescriptor
  runs : List ExtentRun
  deriving DecidableEq, Repr

namespace VolumeMap

/-- The first volume with the identifier. -/
def init (catalog : ValidatedCatalog) (volumeId : Id) : Except VolumeError VolumeMap :=
  match (catalog.descriptors.zip catalog.extentRuns).find? fun volume =>
      volume.1.volumeId = volumeId with
  | none => .error .volumeNotFound
  | some (descriptor, runs) => do
      rejectIf (descriptor.state ≠ .ready) .volumeNotReady
      .ok ⟨descriptor, runs⟩

def logicalSize (map : VolumeMap) : Nat := map.descriptor.logicalSize

/-- The search over the runs, which are ordered by logical extent. -/
def findRun (extent : Nat) : List ExtentRun → Option ExtentRun
  | [] => none
  | run :: rest =>
    if extent < run.logicalStart then none
    else if run.logicalStart + run.extentCount ≤ extent then findRun extent rest
    else some run

def nextSpan (map : VolumeMap) (offset maximumLength : Nat) : Except VolumeError Span :=
  if maximumLength = 0 then .ok (.zero 0)
  else do
    rejectIf (map.descriptor.logicalSize ≤ offset) .outOfBounds
    let length := min (map.descriptor.logicalSize - offset) maximumLength
    let extentSize := map.descriptor.extentSize
    let logicalExtent := offset / extentSize
    let extentOffset := offset % extentSize
    let spanLength := min length (extentSize - extentOffset)
    match findRun logicalExtent map.runs with
    | none => .ok (.zero spanLength)
    | some run =>
      match run.state with
      | .reservedZero => .ok (.zero spanLength)
      | .mapped =>
        let physicalExtent := run.physicalStart + logicalExtent - run.logicalStart
        .ok (.mapped ⟨physicalExtent * extentSize + extentOffset, spanLength, run.memberSlots⟩)

/-- The spans that the loops over a transfer visit, each with the offset it begins at. The first
argument bounds the steps; every span has a byte, so the length of the transfer is enough. -/
def spansFrom (map : VolumeMap) : Nat → Nat → Nat → Except VolumeError (List (Nat × Span))
  | 0, _, remaining => if remaining = 0 then .ok [] else .error .unfinished
  | fuel + 1, position, remaining =>
    if remaining = 0 then .ok []
    else do
      let span ← map.nextSpan position remaining
      let rest ← spansFrom map fuel (position + span.length) (remaining - span.length)
      .ok ((position, span) :: rest)

def spans (map : VolumeMap) (offset length : Nat) : Except VolumeError (List (Nat × Span)) :=
  map.spansFrom length offset length

/-! ## Where a byte lies -/

/-- The run that maps an extent. -/
def mappedRun (map : VolumeMap) (extent : Nat) : Option ExtentRun :=
  match findRun extent map.runs with
  | some run => if run.state = .mapped then some run else none
  | none => none

theorem findRun_eq_some {extent : Nat} {run : ExtentRun} {runs : List ExtentRun}
    (hordered : runs.Pairwise ExtentRun.Before) :
    findRun extent runs = some run ↔
      run ∈ runs ∧ rangeContains run.logicalStart run.extentCount extent := by
  induction runs with
  | nil => simp [findRun]
  | cons first rest ih =>
    obtain ⟨hfirst, hrest⟩ := pairwise_cons.mp hordered
    unfold findRun
    by_cases hbefore : extent < first.logicalStart
    · -- the later runs begin behind the first one
      rw [if_pos hbefore]
      simp only [reduceCtorEq, false_iff, not_and]
      rintro hmem ⟨hstart, -⟩
      rcases mem_cons.mp hmem with rfl | hlater
      · omega
      · have := hfirst run hlater
        unfold ExtentRun.Before at this
        omega
    rw [if_neg hbefore]
    by_cases hbehind : first.logicalStart + first.extentCount ≤ extent
    · rw [if_pos hbehind, ih hrest, mem_cons]
      constructor
      · exact fun h => ⟨.inr h.1, h.2⟩
      · rintro ⟨rfl | hlater, hcontains⟩
        · unfold rangeContains at hcontains
          omega
        · exact ⟨hlater, hcontains⟩
    · rw [if_neg hbehind, some.injEq]
      constructor
      · rintro rfl
        exact ⟨mem_cons_self, by omega, by omega⟩
      · rintro ⟨hmem, hcontains⟩
        rcases mem_cons.mp hmem with rfl | hlater
        · rfl
        have := hfirst run hlater
        unfold ExtentRun.Before at this
        unfold rangeContains at hcontains
        omega

variable {map : VolumeMap} {offset length i : Nat}

theorem mappedRun_eq_some {extent : Nat} {run : ExtentRun}
    (hordered : map.runs.Pairwise ExtentRun.Before) :
    map.mappedRun extent = some run ↔ run ∈ map.runs ∧ run.state = .mapped ∧
        rangeContains run.logicalStart run.extentCount extent := by
  unfold mappedRun
  cases hfind : findRun extent map.runs with
  | none =>
    simp only [reduceCtorEq, false_iff]
    rintro ⟨hmem, -, hcontains⟩
    rw [(findRun_eq_some hordered).mpr ⟨hmem, hcontains⟩] at hfind
    cases hfind
  | some found =>
    have hfound := (findRun_eq_some hordered).mp hfind
    have hunique : run ∈ map.runs ∧ rangeContains run.logicalStart run.extentCount extent →
        found = run := by
      intro h
      have hrun := (findRun_eq_some hordered).mpr h
      rw [hfind, some.injEq] at hrun
      exact hrun
    simp only [ite_none_right_eq_some, some.injEq]
    constructor
    · rintro ⟨hstate, rfl⟩
      exact ⟨hfound.1, hstate, hfound.2⟩
    · rintro ⟨hmem, hstate, hcontains⟩
      obtain rfl := hunique ⟨hmem, hcontains⟩
      exact ⟨hstate, rfl⟩

/-- The members and the physical offset of a byte of the volume. -/
def locate (map : VolumeMap) (offset : Nat) : Option (List Nat × Nat) :=
  let extentSize := map.descriptor.extentSize
  (map.mappedRun (offset / extentSize)).map fun run =>
    (run.memberSlots,
      (run.physicalStart + offset / extentSize - run.logicalStart) * extentSize + offset % extentSize)

/-- Every byte of a span is where `locate` says. -/
def Describes (map : VolumeMap) (position : Nat) : Span → Prop
  | .zero length => ∀ i < length, map.locate (position + i) = none
  | .mapped span => ∀ i < span.length,
      map.locate (position + i) = some (span.memberSlots, span.physicalOffset + i)

/-- The offset lies in the extent of another one, `i` bytes behind it. -/
theorem div_mod_of_add_lt {size : Nat} (h : offset % size + i < size) :
    (offset + i) / size = offset / size ∧ (offset + i) % size = offset % size + i := by
  have hsize : 0 < size := by omega
  have hsplit : offset + i = offset % size + i + size * (offset / size) := by
    have := Nat.mod_add_div offset size
    omega
  constructor
  · rw [hsplit, Nat.add_mul_div_left _ _ hsize, Nat.div_eq_of_lt h, Nat.zero_add]
  · rw [hsplit, Nat.add_mul_mod_self_left, Nat.mod_eq_of_lt h]

/-- Within one extent the places of two bytes are as far from each other as the bytes. -/
theorem locate_add (h : offset % map.descriptor.extentSize + i < map.descriptor.extentSize) :
    map.locate (offset + i) = (map.locate offset).map fun place => (place.1, place.2 + i) := by
  obtain ⟨hdiv, hmod⟩ := div_mod_of_add_lt h
  simp only [locate, hdiv, hmod]
  cases map.mappedRun (offset / map.descriptor.extentSize) with
  | none => rfl
  | some run => simp only [map_some, Nat.add_assoc]

/-- The bytes from an offset on that lie in its extent, as many of them as given. -/
def spanAt (map : VolumeMap) (offset length : Nat) : Span :=
  match map.locate offset with
  | none => .zero length
  | some (memberSlots, physicalOffset) => .mapped ⟨physicalOffset, length, memberSlots⟩

@[simp] theorem length_spanAt (map : VolumeMap) (offset length : Nat) :
    (map.spanAt offset length).length = length := by
  unfold spanAt
  split <;> rfl

theorem describes_spanAt
    (h : offset % map.descriptor.extentSize + length ≤ map.descriptor.extentSize) :
    map.Describes offset (map.spanAt offset length) := by
  unfold spanAt
  split
  case h_1 hnone =>
    intro i hi
    rw [locate_add (by omega), hnone, map_none]
  case h_2 memberSlots physicalOffset hsome =>
    intro i hi
    have hlt : i < length := hi
    rw [locate_add (by omega), hsome, map_some]

/-- The bytes of the next span: up to the end of the volume, of the transfer or of the extent. -/
def spanLength (map : VolumeMap) (offset maximumLength : Nat) : Nat :=
  min (min (map.logicalSize - offset) maximumLength)
    (map.descriptor.extentSize - offset % map.descriptor.extentSize)

theorem nextSpan_eq {maximumLength : Nat} (hlength : 0 < maximumLength)
    (hinside : offset < map.logicalSize) :
    map.nextSpan offset maximumLength =
      .ok (map.spanAt offset (map.spanLength offset maximumLength)) := by
  have hbound : ¬ map.descriptor.logicalSize ≤ offset := Nat.not_le.mpr hinside
  simp only [nextSpan, if_neg (Nat.ne_of_gt hlength), rejectIf, if_neg hbound, spanAt, locate,
    mappedRun]
  cases findRun (offset / map.descriptor.extentSize) map.runs with
  | none => rfl
  | some run =>
    cases hstate : run.state with
    | reservedZero | mapped => simp only [hstate]; rfl

/-- The spans lie behind each other, from the offset of the transfer to its end. -/
def Tiles (map : VolumeMap) : Nat → Nat → List (Nat × Span) → Prop
  | _, remaining, [] => remaining = 0
  | position, remaining, (start, span) :: rest =>
    start = position ∧ 0 < span.length ∧ span.length ≤ remaining ∧ map.Describes position span ∧
      map.Tiles (position + span.length) (remaining - span.length) rest

theorem spansFrom_tile (hextent : 0 < map.descriptor.extentSize) :
    ∀ {fuel position remaining : Nat}, remaining ≤ fuel → position + remaining ≤ map.logicalSize →
      ∃ list, map.spansFrom fuel position remaining = .ok list ∧
        map.Tiles position remaining list := by
  intro fuel
  induction fuel with
  | zero =>
    intro position remaining hfuel _
    have hzero : remaining = 0 := Nat.le_zero.mp hfuel
    exact ⟨[], by simp only [spansFrom, if_pos hzero], hzero⟩
  | succ fuel ih =>
    intro position remaining hfuel hinside
    by_cases hzero : remaining = 0
    · exact ⟨[], by simp only [spansFrom, if_pos hzero], hzero⟩
    have hpos : 0 < remaining := Nat.pos_of_ne_zero hzero
    have hmod := Nat.mod_lt position hextent
    have hspan : map.nextSpan position remaining = _ := nextSpan_eq hpos (by omega)
    generalize hlength : map.spanLength position remaining = length at hspan
    -- the span has a byte, and stays in the transfer and in its extent
    have hbounds : 0 < length ∧ length ≤ remaining ∧
        position % map.descriptor.extentSize + length ≤ map.descriptor.extentSize := by
      rw [← hlength, spanLength]
      omega
    obtain ⟨hone, hle, hextentEnd⟩ := hbounds
    have hend : position + length + (remaining - length) ≤ map.logicalSize := by omega
    obtain ⟨rest, hrest, htiles⟩ := ih (by omega) hend
    refine ⟨(position, map.spanAt position length) :: rest, ?_, ?_⟩
    · rw [← length_spanAt map position length] at hrest
      simp only [spansFrom, if_neg hzero, hspan, bind, Except.bind, hrest]
    · refine ⟨rfl, ?_, ?_, describes_spanAt hextentEnd, ?_⟩ <;> rw [length_spanAt] <;> assumption

end VolumeMap

end PoolCatalogVolume

/-! ## The volumes of a catalog -/

namespace PoolCatalogGraph

open PoolCatalog PoolCatalogPage PoolCatalogVolume

/-- The catalog maps the extent of the volume, by the run. -/
def ValidatedCatalog.Maps (catalog : ValidatedCatalog) (volumeId : Id) (extent : Nat)
    (run : ExtentRun) : Prop :=
  (volumeId, run) ∈ catalog.runs ∧ run.state = .mapped ∧
    rangeContains run.logicalStart run.extentCount extent

/-- Where a byte of a ready volume lies. -/
def ValidatedCatalog.locate (catalog : ValidatedCatalog) (address : Id × Nat) :
    Option (List Nat × Nat) :=
  match VolumeMap.init catalog address.1 with
  | .error _ => none
  | .ok map => map.locate address.2

theorem init_eq_ok {catalog : ValidatedCatalog} {volumeId : Id} {map : VolumeMap}
    (h : VolumeMap.init catalog volumeId = .ok map) :
    (map.descriptor, map.runs) ∈ catalog.descriptors.zip catalog.extentRuns ∧
      map.descriptor.volumeId = volumeId ∧ map.descriptor.state = .ready := by
  unfold VolumeMap.init at h
  split at h
  case h_1 => simp at h
  case h_2 descriptor runs hfind =>
    simp only [ok_iff, ne_eq, not_not] at h
    obtain ⟨hstate, rfl⟩ := h
    exact ⟨mem_of_find?_eq_some hfind, by simpa using find?_some hfind, hstate⟩

variable [Codec] {binding : AuthorityBinding} {graph : Graph} {members : List MemberGeometry}
  {protectedPages : List PageReference} {catalog : ValidatedCatalog}

namespace Accepted

theorem extentSize_pos (h : Accepted binding graph members protectedPages catalog) :
    0 < catalog.root.extentSize := by
  have hroot := h.root
  simp only [decodeRoot, ok_iff] at hroot
  obtain ⟨-, -, -, -, -, hvalid, hfields⟩ := hroot
  rw [hfields] at hvalid
  simp only [validateRoot, ok_iff, not_or, not_not] at hvalid
  exact hvalid.2.2.2.1.1.1

variable {volumeId : Id} {map : VolumeMap}

section

variable (h : Accepted binding graph members protectedPages catalog)
  (hinit : VolumeMap.init catalog volumeId = .ok map)
include h hinit

theorem map_extentSize : map.descriptor.extentSize = catalog.root.extentSize :=
  (validateVolumeForPool_eq_ok (h.volume (init_eq_ok hinit).1)).2.1.symm

theorem map_logicalSize_le : map.logicalSize ≤ maxU64 := by
  have hvolume := h.volume (init_eq_ok hinit).1
  simp only [validateVolumeForPool, ok_iff] at hvolume
  have hvalid := hvolume.2.1
  simp only [validateVolume, ok_iff, not_or, not_lt] at hvalid
  have hsize := hvalid.2.1.2.1
  unfold pageSize at hsize
  unfold VolumeMap.logicalSize maxU64
  omega

theorem map_ordered : map.runs.Pairwise ExtentRun.Before := by
  obtain ⟨hruns, -, -⟩ := validateVolumeForPool_eq_ok (h.volume (init_eq_ok hinit).1)
  obtain ⟨_, htallied, -⟩ := validateExtentRuns_eq_ok hruns
  exact htallied.ordered

end

variable {offset : Nat} {run : ExtentRun} {slot : Nat}

section

variable (h : Accepted binding graph members protectedPages catalog)
include h

/-- The runs of a volume are the runs of the catalog with its identifier. -/
theorem map_runs (hinit : VolumeMap.init catalog volumeId = .ok map) :
    run ∈ map.runs ↔ (volumeId, run) ∈ catalog.runs := by
  obtain ⟨hmem, hid, -⟩ := init_eq_ok hinit
  rw [mem_runs]
  constructor
  · exact fun hrun => ⟨map.descriptor, map.runs, hmem, hid, hrun⟩
  · rintro ⟨descriptor, runs, hother, hotherId, hrun⟩
    have hvolumes := h.owned.volumes
    by_contra hnot
    -- two entries with one identifier would be two volumes with it
    have hne : (⟨map.descriptor.volumeId, map.runs⟩ : VolumeExtentMap) ≠
        ⟨descriptor.volumeId, runs⟩ := by
      intro heq
      rw [VolumeExtentMap.mk.injEq] at heq
      exact hnot (heq.2 ▸ hrun)
    have : Std.Symm fun a b : VolumeExtentMap => a.volumeId ≠ b.volumeId :=
      ⟨fun _ _ hne => hne.symm⟩
    exact hvolumes.forall (mem_map_of_mem hmem) (mem_map_of_mem hother) hne
      (hid.trans hotherId.symm)

/-- A byte lies in an extent that the catalog maps, on the members of its run. -/
theorem locate_eq_some {memberSlots : List Nat} {cell : Nat}
    (hlocate : catalog.locate (volumeId, offset) = some (memberSlots, cell)) :
    ∃ run, catalog.Maps volumeId (offset / catalog.root.extentSize) run ∧
      memberSlots = run.memberSlots ∧
      cell = (run.physicalStart + offset / catalog.root.extentSize - run.logicalStart) *
        catalog.root.extentSize + offset % catalog.root.extentSize := by
  unfold ValidatedCatalog.locate at hlocate
  split at hlocate
  case h_1 => simp at hlocate
  rename_i map hinit
  simp only [VolumeMap.locate, h.map_extentSize hinit, map_eq_some_iff, Prod.mk.injEq] at hlocate
  obtain ⟨run, hrun, rfl, rfl⟩ := hlocate
  obtain ⟨hmem, hstate, hcontains⟩ := (VolumeMap.mappedRun_eq_some (h.map_ordered hinit)).mp hrun
  exact ⟨run, ⟨(h.map_runs hinit).mp hmem, hstate, hcontains⟩, rfl, rfl⟩

/-- Every byte of a mapped extent of a ready volume lies somewhere. -/
theorem locate_of_maps (hinit : VolumeMap.init catalog volumeId = .ok map)
    (hmaps : catalog.Maps volumeId (offset / catalog.root.extentSize) run) :
    catalog.locate (volumeId, offset) = some (run.memberSlots,
      (run.physicalStart + offset / catalog.root.extentSize - run.logicalStart) *
        catalog.root.extentSize + offset % catalog.root.extentSize) := by
  have hrun := (VolumeMap.mappedRun_eq_some (h.map_ordered hinit)).mpr
    ⟨(h.map_runs hinit).mpr hmaps.1, hmaps.2⟩
  simp only [ValidatedCatalog.locate, hinit, VolumeMap.locate, h.map_extentSize hinit, hrun,
    map_some]

/-- The run and the position of an extent are known from any place it lies at. -/
theorem run_unique
    {entry other : Id × ExtentRun} (hentry : entry ∈ catalog.runs) (hother : other ∈ catalog.runs)
    {ordinal : Nat} (hcovers : (Holding.ofRun entry.2).Covers slot ordinal)
    (hotherCovers : (Holding.ofRun other.2).Covers slot ordinal) : entry = other := by
  have hruns := h.owned.runs
  rw [← runs_eq] at hruns
  have : Std.Symm fun a b : Id × ExtentRun => (Holding.ofRun a.2).Apart (.ofRun b.2) :=
    ⟨fun _ _ hapart slot ordinal hboth => hapart slot ordinal hboth.symm⟩
  by_contra hne
  exact (hruns.imp apart_of_runsOverlap).forall hentry hother hne slot ordinal
    ⟨hcovers, hotherCovers⟩

end

omit [Codec] in
theorem covers_of_maps {size : Nat} (hmaps : catalog.Maps volumeId (offset / size) run)
    (hslot : slot ∈ run.memberSlots) :
    (Holding.ofRun run).Covers slot (run.physicalStart + offset / size - run.logicalStart) := by
  obtain ⟨-, -, hstart, hend⟩ := hmaps
  refine ⟨hslot, ?_, ?_⟩ <;> simp only [Holding.ofRun] <;> omega

/-- No two bytes of the volumes of a catalog lie at the same place. -/
theorem locate_separate (h : Accepted binding graph members protectedPages catalog) :
    Replicas.Separate catalog.locate := by
  rintro ⟨volumeA, offsetA⟩ ⟨volumeB, offsetB⟩ slotsA slotsB cell slot hA hB hslotA hslotB
  obtain ⟨runA, hmapsA, rfl, hcellA⟩ := h.locate_eq_some hA
  obtain ⟨runB, hmapsB, rfl, hcellB⟩ := h.locate_eq_some hB
  have hpos := h.extentSize_pos
  have hmodA := Nat.mod_lt offsetA hpos
  have hmodB := Nat.mod_lt offsetB hpos
  -- the place determines the physical extent and the offset in it
  have hordinal : runA.physicalStart + offsetA / catalog.root.extentSize - runA.logicalStart =
      runB.physicalStart + offsetB / catalog.root.extentSize - runB.logicalStart := by
    have hA := congrArg (· / catalog.root.extentSize) hcellA
    have hB := congrArg (· / catalog.root.extentSize) hcellB
    simp only [Nat.mul_comm _ catalog.root.extentSize, Nat.mul_add_div hpos,
      Nat.div_eq_of_lt hmodA, Nat.div_eq_of_lt hmodB, Nat.add_zero] at hA hB
    omega
  have hmod : offsetA % catalog.root.extentSize = offsetB % catalog.root.extentSize := by
    rw [hordinal] at hcellA
    omega
  -- which is in one run only
  have hcovers := covers_of_maps hmapsA hslotA
  rw [hordinal] at hcovers
  have hsame := h.run_unique hmapsA.1 hmapsB.1 hcovers (covers_of_maps hmapsB hslotB)
  obtain ⟨rfl, rfl⟩ := hsame
  have hdiv : offsetA / catalog.root.extentSize = offsetB / catalog.root.extentSize := by
    have := hmapsA.2.2.1
    have := hmapsB.2.2.1
    omega
  rw [Prod.mk.injEq]
  refine ⟨rfl, ?_⟩
  rw [← Nat.div_add_mod offsetA catalog.root.extentSize,
    ← Nat.div_add_mod offsetB catalog.root.extentSize, hdiv, hmod]

end Accepted

end PoolCatalogGraph

end Zettide
