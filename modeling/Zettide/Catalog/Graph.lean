import Zettide.Catalog.Page

/-! # The catalog graph

Translation of `pool_catalog_graph.zig`: a catalog is a root and the pages that the root refers to.
`validateGraph` decodes them, checks them against the authority they belong to and against the
geometry of the members, and records which pages it used. `validateTransition` compares the
catalogs of two consecutive generations extent by extent and page by page. -/

namespace Zettide.PoolCatalogGraph

open PoolCatalog PoolCatalogPage

def maxVolumeCount : Nat := maxLeafVolumeCount
def maxCurrentPageCount : Nat := 5 + 2 * maxVolumeCount

/-- The bytes of one page. -/
structure PageImage where
  offset : Nat
  block : Block
  deriving DecidableEq, Repr

structure Graph where
  rootBytes : Block
  pages : List PageImage
  deriving DecidableEq, Repr

/-- What the authority says about its catalog. -/
structure AuthorityBinding where
  generation : Nat
  dataRootDigest : Digest
  topology : Topology
  layout : Layout
  deriving DecidableEq, Repr

structure MemberGeometry where
  memberId : Id
  slot : Nat
  metadataLength : Nat
  dataLength : Nat
  deriving DecidableEq, Repr

/-- A catalog after all checks. The source keeps every part in a fixed array with a count; here the
parts are the used elements. -/
structure ValidatedCatalog where
  root : Root
  descriptors : List VolumeDescriptor
  names : List NameEntry
  extentRuns : List (List ExtentRun)
  free : List PhysicalInterval
  retired : List PhysicalInterval
  metadata : List MetadataInterval
  currentPages : List PageReference
  members : List MemberGeometry
  metadataPageCount : Nat
  deriving DecidableEq, Repr

def dataGeometry (members : List MemberGeometry) : List MemberDataGeometry :=
  members.map fun member => ⟨member.slot, member.dataLength⟩

/-! ## Inputs -/

/-- One member of the geometry, against those before it. All metadata regions have one length. -/
def validateMemberGeometry (topology : Topology) (previous : List MemberGeometry)
    (member : MemberGeometry) : Except CatalogError Unit := do
  let topologyMember ← orElseFail
    (topology.members.find? fun candidate => candidate.slot = member.slot)
    .unexpectedMemberGeometry
  rejectIf (member.memberId ≠ topologyMember.memberId) .memberGeometryIdentityMismatch
  rejectIf (∃ other ∈ previous, other.slot = member.slot) .duplicateMemberGeometry
  rejectIf (member.metadataLength < 3 * pageSize ∨ member.metadataLength % pageSize ≠ 0)
    .invalidMemberMetadataGeometry
  rejectIf (∃ first ∈ previous.head?, member.metadataLength ≠ first.metadataLength)
    .inconsistentMemberMetadataGeometry

/-- One page image: its offset can be that of a page, and no earlier image has it. -/
def validatePageImage (previous : List PageImage) (image : PageImage) :
    Except CatalogError Unit := do
  PageReference.validate ⟨image.offset, 1⟩
  rejectIf (∃ other ∈ previous, other.offset = image.offset) .duplicatePageImage

def validateInputs (binding : AuthorityBinding) (graph : Graph) (members : List MemberGeometry) :
    Except CatalogError Unit := do
  ofControl (PoolTopology.validate binding.topology)
  ofControl (PoolLayout.validate binding.layout)
  let _ ← ofControl (PoolLayout.dataAccess binding.layout binding.topology)
  rejectIf (binding.generation = 0 ∨ binding.dataRootDigest = 0) .invalidCatalogAuthority
  rejectIf (members.length = 0 ∨ members.length > binding.topology.members.length)
    .missingMemberGeometry
  forAllWithPrevious (validateMemberGeometry binding.topology) [] members
  rejectIf (∃ member ∈ binding.topology.members, member.state ≠ .joining ∧
    ¬ ∃ geometry ∈ members, geometry.slot = member.slot) .missingMemberGeometry
  forAllWithPrevious validatePageImage [] graph.pages

/-! ## Resolving references -/

section

variable [Codec]

/-- The first image at the offset of a reference, if it has the digest of the reference. -/
def resolveReference (graph : Graph) (reference : PageReference) : Except CatalogError Block := do
  reference.validate
  let image ← orElseFail (graph.pages.find? fun image => image.offset = reference.offset)
    .missingPageImage
  rejectIf (Codec.blake3 image.block.bytes ≠ reference.digest) .pageDigestMismatch
  .ok image.block

/-- The bytes behind a reference, and the pages in use with it. -/
def addReference (graph : Graph) (pages : List PageReference) (reference : PageReference) :
    Except CatalogError (Block × List PageReference) := do
  rejectIf reference.isNull .missingPageReference
  rejectIf (∃ current ∈ pages, current.offset = reference.offset) .aliasedCatalogPageReference
  rejectIf (pages.length = maxCurrentPageCount) .tooManyCatalogPages
  let block ← resolveReference graph reference
  .ok (block, pages ++ [reference])

def validateLeafGeneration (block : Block) (kind : Kind) (rootGeneration : Nat) :
    Except CatalogError Unit := do
  let header ← decodeHeader block kind
  rejectIf (header.generation > rootGeneration) .futureCatalogPage

/-- One leaf page of a graph. -/
def readLeaf {α : Type} (graph : Graph) (rootGeneration : Nat) (kind : Kind)
    (decode : Block → Except CatalogError α) (pages : List PageReference)
    (reference : PageReference) : Except CatalogError (α × List PageReference) := do
  let (block, pages) ← addReference graph pages reference
  validateLeafGeneration block kind rootGeneration
  let content ← decode block
  .ok (content, pages)

/-- A leaf page that need not be there. -/
def readOptionalLeaf {α : Type} (graph : Graph) (rootGeneration : Nat) (kind : Kind)
    (decode : Block → Except CatalogError (List α)) (pages : List PageReference)
    (reference : PageReference) : Except CatalogError (List α × List PageReference) :=
  if reference.isNull then .ok ([], pages)
  else readLeaf graph rootGeneration kind decode pages reference

/-- An index page has as many entries as the root has volumes. -/
def countedIndex {α : Type} (root : Root) (decode : Block → Nat → Except CatalogError (List α))
    (block : Block) : Except CatalogError (List α) := do
  let entries ← decode block maxVolumeCount
  rejectIf (entries.length ≠ root.volumeCount) .catalogIndexCountMismatch
  .ok entries

/-! ## Volumes -/

def validateVolumeHeader (descriptor : VolumeDescriptor) (block : Block) :
    Except CatalogError Unit := do
  let header ← CatalogVolumeHeader.decode block
  rejectIf (header.uuid ≠ descriptor.volumeId ∨ header.createdNs ≠ descriptor.createdNs ∨
      header.logicalSize ≠ descriptor.logicalSize ∨ header.extentSize ≠ descriptor.extentSize ∨
      header.label ≠ descriptor.name) .volumeHeaderMismatch
  match descriptor.state with
  | .creating => rejectIf (header.state ≠ .creating) .volumeHeaderStateMismatch
  | .ready => rejectIf (header.state ≠ .ready) .volumeHeaderStateMismatch
  | .deleting => rejectIf (header.state ≠ .ready) .volumeHeaderStateMismatch

variable (binding : AuthorityBinding)

/-- The header page and the extent map of one volume. -/
def readVolume (root : Root) (graph : Graph)
    (geometry : List MemberDataGeometry) (descriptor : VolumeDescriptor)
    (pages : List PageReference) : Except CatalogError (List ExtentRun × List PageReference) := do
  let (block, pages) ← addReference graph pages descriptor.headerPage
  validateVolumeHeader descriptor block
  let (runs, pages) ← readOptionalLeaf graph root.generation .extentMap
    (fun block => decodeExtentMap block descriptor.volumeId maxExtentRunCount) pages
    descriptor.extentMapRoot
  validateVolumeForPool root descriptor runs binding.layout binding.topology geometry
  .ok (runs, pages)

def readVolumes (binding : AuthorityBinding) (root : Root) (graph : Graph)
    (geometry : List MemberDataGeometry) :
    List VolumeDescriptor → List PageReference →
      Except CatalogError (List (List ExtentRun) × List PageReference)
  | [], pages => .ok ([], pages)
  | descriptor :: rest, pages => do
      let (runs, pages) ← readVolume binding root graph geometry descriptor pages
      let (others, pages) ← readVolumes binding root graph geometry rest pages
      .ok (runs :: others, pages)

/-! ## The graph -/

def validateMetadataCoverage (pages : List PageReference) (metadata : List MetadataInterval)
    (metadataPageCount : Nat) : Except CatalogError Unit := do
  let accounted ← metadata.foldlM
    (fun accounted interval => addU64 accounted interval.pageCount .overflow)
    pages.length
  rejectIf (accounted ≠ metadataPageCount - 2) .incompleteMetadataAllocator

/-- The root of a graph belongs to the authority. -/
def validateRootBinding (root : Root) : Except CatalogError Unit := do
  rejectIf (root.generation ≠ binding.generation) .catalogGenerationMismatch
  rejectIf (root.setId ≠ binding.topology.setId) .catalogSetMismatch
  let digest ← rootDigest root
  rejectIf (digest ≠ binding.dataRootDigest) .catalogAuthorityDigestMismatch
  rejectIf (root.extentSize ≠ binding.layout.chunkSize) .extentSizeMismatch

/-- The leaf pages that the root itself refers to, decoded. -/
structure RootPages where
  descriptors : List VolumeDescriptor
  names : List NameEntry
  free : List PhysicalInterval
  retired : List PhysicalInterval
  metadata : List MetadataInterval
  deriving DecidableEq, Repr

def readRootPages (root : Root) (graph : Graph) (pages : List PageReference) :
    Except CatalogError (RootPages × List PageReference) := do
  let (descriptors, pages) ← readOptionalLeaf graph root.generation .volumeIndex
    (countedIndex root decodeVolumeIndex) pages root.volumeTreeRoot
  let (names, pages) ← readOptionalLeaf graph root.generation .nameIndex
    (countedIndex root decodeNameIndex) pages root.nameIndexRoot
  let (free, pages) ← readLeaf graph root.generation .physicalAllocator
    (fun block => decodePhysicalIntervals block .free maxPhysicalIntervalCount) pages
    root.allocatorRoot
  let (retired, pages) ← readOptionalLeaf graph root.generation .retiredExtents
    (fun block => decodePhysicalIntervals block .retired maxPhysicalIntervalCount) pages
    root.retiredExtentRoot
  let (metadata, pages) ← readLeaf graph root.generation .metadataAllocator
    (fun block => decodeMetadataAllocator block maxMetadataIntervalCount) pages
    root.metadataAllocatorRoot
  .ok (⟨descriptors, names, free, retired, metadata⟩, pages)

/-- The checks that relate the decoded parts of a catalog to each other. -/
def validateParts (catalog : ValidatedCatalog) (protectedPages : List PageReference) :
    Except CatalogError Unit := do
  let geometry := dataGeometry catalog.members
  validatePhysicalIntervalsForMembers catalog.free catalog.root.extentSize geometry
  validatePhysicalIntervalsForMembers catalog.retired catalog.root.extentSize geometry
  validatePhysicalOwnership
    ((catalog.descriptors.zip catalog.extentRuns).map fun (descriptor, runs) =>
      ⟨descriptor.volumeId, runs⟩) catalog.free catalog.retired
  validateMetadataIntervalsForMembers catalog.metadata catalog.currentPages protectedPages
    (catalog.members.map MemberGeometry.metadataLength)
  validateMetadataCoverage catalog.currentPages catalog.metadata catalog.metadataPageCount

/-- The number of pages of the metadata regions, all of the same length. -/
def metadataPageCountOf (members : List MemberGeometry) : Nat :=
  match members with
  | [] => 0
  | first :: _ => first.metadataLength / pageSize

def validateGraphWithProtectedPages (graph : Graph)
    (members : List MemberGeometry) (protectedPages : List PageReference) :
    Except CatalogError ValidatedCatalog := do
  validateInputs binding graph members
  let root ← decodeRoot graph.rootBytes
  validateRootBinding binding root
  let (parts, pages) ← readRootPages root graph []
  validateCatalogIndexes root parts.descriptors parts.names
  let (extentRuns, pages) ← readVolumes binding root graph (dataGeometry members)
    parts.descriptors pages
  let catalog : ValidatedCatalog :=
    { root := root
      descriptors := parts.descriptors
      names := parts.names
      extentRuns := extentRuns
      free := parts.free
      retired := parts.retired
      metadata := parts.metadata
      currentPages := pages
      members := members
      metadataPageCount := metadataPageCountOf members }
  validateParts catalog protectedPages
  .ok catalog

def validateGraph (graph : Graph) (members : List MemberGeometry) :
    Except CatalogError ValidatedCatalog :=
  validateGraphWithProtectedPages binding graph members []

end

/-! ## Sweeping over boundaries

A transition is compared at the boundaries of the intervals of both catalogs: between two of them
nothing changes. -/

/-- The smallest boundary behind the cursor. -/
def nextBoundary (boundaries : List Nat) (cursor : Nat) : Option Nat :=
  (boundaries.filter fun boundary => cursor < boundary).min?

/-- The loop over the boundaries, with the last cursor as result; the first argument bounds its
steps. -/
def sweepFrom (boundaries : List Nat) (check : Nat → Except CatalogError Unit) :
    Nat → Nat → Except CatalogError Nat
  | 0, _ => .error .unfinished
  | fuel + 1, cursor =>
    match nextBoundary boundaries cursor with
    | none => .ok cursor
    | some next => do
        check cursor
        sweepFrom boundaries check fuel next

/-- Every step leaves a boundary behind, so `boundaries.length + 1` steps are enough. -/
def sweep (boundaries : List Nat) (check : Nat → Except CatalogError Unit) (cursor : Nat) :
    Except CatalogError Nat :=
  sweepFrom boundaries check (boundaries.length + 1) cursor

def rangeContains (start count position : Nat) : Prop :=
  start ≤ position ∧ position < start + count

instance (start count position : Nat) : Decidable (rangeContains start count position) :=
  inferInstanceAs (Decidable (_ ∧ _))

/-! ## Physical extents -/

structure Mapping where
  volumeId : Id
  logicalExtent : Nat
  deriving DecidableEq, Repr

inductive PhysicalState where
  | absent | free
  | retired (generation : Nat)
  | mapped (mapping : Mapping)
  deriving DecidableEq, Repr

/-- The runs of a catalog with the volume they belong to. -/
def ValidatedCatalog.runs (catalog : ValidatedCatalog) : List (Id × ExtentRun) :=
  (catalog.descriptors.zip catalog.extentRuns).flatMap fun (descriptor, runs) =>
    runs.map fun run => (descriptor.volumeId, run)

/-- The first interval of a list that covers a position of a slot. -/
def findInterval (intervals : List PhysicalInterval) (slot position : Nat) :
    Option PhysicalInterval :=
  intervals.find? fun interval =>
    interval.memberSlot = slot ∧ rangeContains interval.physicalStart interval.extentCount position

variable (catalog : ValidatedCatalog)

def physicalStateAt (slot position : Nat) : PhysicalState :=
  match findInterval catalog.free slot position with
  | some _ => .free
  | none =>
    match findInterval catalog.retired slot position with
    | some interval => .retired interval.retiredGeneration
    | none =>
      match catalog.runs.find? fun (_, run) => slot ∈ run.memberSlots ∧
          rangeContains run.physicalStart run.extentCount position with
      | some (volumeId, run) =>
        .mapped ⟨volumeId, run.logicalStart + (position - run.physicalStart)⟩
      | none => .absent

def physicalSlotHasState (slot : Nat) : Bool :=
  catalog.free.any (fun interval => interval.memberSlot = slot) ||
    catalog.retired.any (fun interval => interval.memberSlot = slot) ||
    catalog.extentRuns.any fun runs => runs.any fun run => run.memberSlots.contains slot

def physicalBoundaries (slot : Nat) : List Nat :=
  ((catalog.free ++ catalog.retired).filter fun interval => interval.memberSlot = slot).flatMap
      (fun interval => [interval.physicalStart, interval.physicalStart + interval.extentCount]) ++
    (catalog.extentRuns.flatten.filter fun run => run.memberSlots.contains slot).flatMap
      fun run => [run.physicalStart, run.physicalStart + run.extentCount]

def validatePhysicalStateChange (before after : PhysicalState) (previousHasState : Bool)
    (currentGeneration reclaimBarrierGeneration : Nat) : Except CatalogError Unit :=
  match before, after with
  | .absent, .absent => .ok ()
  | .absent, .free => rejectIf (previousHasState = true) .inventedPhysicalFreeSpace
  | .absent, .retired _ => .error .invalidPhysicalAllocationTransition
  | .absent, .mapped _ => .error .invalidPhysicalAllocationTransition
  | .free, .retired _ => .error .invalidPhysicalAllocationTransition
  | .free, _ => .ok ()
  | .mapped before, .mapped after =>
    rejectIf (before ≠ after) .physicalExtentReassignedWithoutRetirement
  | .mapped _, .retired generation =>
    rejectIf (generation ≠ currentGeneration) .invalidNewRetirementGeneration
  | .mapped _, .absent => .error .physicalExtentReusedBeforeRetirement
  | .mapped _, .free => .error .physicalExtentReusedBeforeRetirement
  | .retired before, .retired after =>
    rejectIf (after ≠ before) .changedRetirementGeneration
  | .retired before, .free =>
    rejectIf (before > reclaimBarrierGeneration) .physicalExtentReclaimRequiresAuthorityBarrier
  | .retired before, .mapped _ =>
    rejectIf (before > reclaimBarrierGeneration) .physicalExtentReclaimRequiresAuthorityBarrier
  | .retired _, .absent => .error .invalidPhysicalAllocationTransition

def validatePhysicalSlotTransition (previous current : ValidatedCatalog) (slot : Nat) :
    Except CatalogError Unit :=
  let boundaries := physicalBoundaries previous slot ++ physicalBoundaries current slot
  match boundaries.min? with
  | none => .ok ()
  | some first => do
      let _ ← sweep boundaries (fun cursor =>
        validatePhysicalStateChange (physicalStateAt previous slot cursor)
          (physicalStateAt current slot cursor) (physicalSlotHasState previous slot)
          current.root.generation previous.root.generation) first
      .ok ()

/-! ## Metadata pages -/

inductive MetadataState where
  | absent | free
  | retired (generation : Nat)
  | used (digest : Digest)
  deriving DecidableEq, Repr

def metadataStateAt (page : Nat) : MetadataState :=
  match catalog.currentPages.find? fun reference => reference.offset / pageSize = page with
  | some reference => .used reference.digest
  | none =>
    match catalog.metadata.find? fun interval =>
        rangeContains interval.pageStart interval.pageCount page with
    | some interval =>
      match interval.state with
      | .free => .free
      | .retired => .retired interval.retiredGeneration
    | none => .absent

def metadataBoundaries : List Nat :=
  catalog.metadataPageCount ::
    (catalog.currentPages.flatMap fun reference =>
      [reference.offset / pageSize, reference.offset / pageSize + 1]) ++
    catalog.metadata.flatMap fun interval =>
      [interval.pageStart, interval.pageStart + interval.pageCount]

def validateMetadataStateChange (before after : MetadataState)
    (previousGeneration currentGeneration : Nat) : Except CatalogError Unit :=
  match before, after with
  | .absent, _ => .error .incompletePreviousMetadataAllocator
  | .free, .free => .ok ()
  | .free, .used _ => .ok ()
  | .free, _ => .error .invalidMetadataAllocationTransition
  | .used before, .used after =>
    rejectIf (before ≠ after) .metadataPageModifiedInPlace
  | .used _, .retired generation =>
    rejectIf (generation ≠ currentGeneration) .invalidNewRetirementGeneration
  | .used _, _ => .error .metadataPageReusedBeforeRetirement
  | .retired before, .retired after =>
    rejectIf (after ≠ before) .changedRetirementGeneration
  | .retired _, .absent => .error .invalidMetadataAllocationTransition
  | .retired before, _ =>
    rejectIf (before > previousGeneration) .metadataPageReclaimRequiresAuthorityBarrier

def validateMetadataTransition (previous current : ValidatedCatalog) :
    Except CatalogError Unit := do
  let cursor ← sweep (metadataBoundaries previous ++ metadataBoundaries current) (fun cursor =>
    validateMetadataStateChange (metadataStateAt previous cursor) (metadataStateAt current cursor)
      previous.root.generation current.root.generation) 2
  rejectIf (cursor ≠ previous.metadataPageCount) .incompleteMetadataAllocator

/-! ## Transitions -/

variable [Codec]

def validateMemberTransition (previous current : ValidatedCatalog) (member : MemberGeometry) :
    Except CatalogError Unit := do
  let currentMember ← orElseFail
    (current.members.find? fun candidate => candidate.slot = member.slot)
    .topologyChangedDuringCatalogGeneration
  rejectIf (member.memberId ≠ currentMember.memberId) .topologyChangedDuringCatalogGeneration
  rejectIf (member.metadataLength ≠ currentMember.metadataLength ∨
      member.dataLength ≠ currentMember.dataLength)
    .memberGeometryChangedDuringCatalogGeneration
  validatePhysicalSlotTransition previous current member.slot

def validateSnapshots (previous current : ValidatedCatalog) : Except CatalogError Unit := do
  rejectIf (previous.root.generation = maxU64 ∨
      current.root.generation ≠ previous.root.generation + 1)
    .unexpectedCatalogGeneration
  rejectIf (previous.root.setId ≠ current.root.setId) .catalogSetMismatch
  let digest ← rootDigest previous.root
  rejectIf (current.root.previousRootDigest ≠ digest) .invalidPreviousRootDigest
  rejectIf (current.root.sequence ≤ previous.root.sequence) .nonMonotonicRootSequence
  rejectIf (previous.metadataPageCount ≠ current.metadataPageCount) .metadataGeometryChanged
  rejectIf (previous.members.length ≠ current.members.length)
    .topologyChangedDuringCatalogGeneration
  forAll (validateMemberTransition previous current) previous.members
  validateMetadataTransition previous current

def validateTransition [Blake3] (previousBinding : AuthorityBinding) (previousGraph : Graph)
    (previousMembers : List MemberGeometry) (currentBinding : AuthorityBinding)
    (currentGraph : Graph) (currentMembers : List MemberGeometry) :
    Except CatalogError ValidatedCatalog := do
  let previous ← validateGraph previousBinding previousGraph previousMembers
  let current ← validateGraphWithProtectedPages currentBinding currentGraph currentMembers
    previous.currentPages
  let previousTopology ← ofControl (PoolTopology.digest previousBinding.topology)
  let currentTopology ← ofControl (PoolTopology.digest currentBinding.topology)
  rejectIf (previousTopology ≠ currentTopology) .topologyChangedDuringCatalogGeneration
  let previousLayout ← ofControl (PoolLayout.digest previousBinding.layout)
  let currentLayout ← ofControl (PoolLayout.digest currentBinding.layout)
  rejectIf (previousLayout ≠ currentLayout) .layoutChangedDuringCatalogGeneration
  validateSnapshots previous current
  .ok current

end Zettide.PoolCatalogGraph
