import Zettide.Format.Payloads

/-! # Member headers

Translation of `member_format.zig` and of the header checks of `pool_genesis_payload.zig` and
`member_bootstrap.zig`. A member stores two copies of its header; `select` picks the one that
counts. The label, the creation time and the compatible feature sets are left out: no control-plane
function reads them. -/

namespace Zettide

open PoolLayout

/-- A byte range of a member. -/
structure Region where
  offset : Nat
  length : Nat
  deriving DecidableEq, Repr

/-- The header of a member. The incompatible features are one flag each. -/
structure Header where
  headerSequence : Nat
  dynamicPool : Bool
  catalogData : Bool
  blobFilesystem : Bool
  scheduledBlobData : Bool
  catalogIntent : Bool
  setId : Id
  memberId : Id
  memberSlot : Nat
  memberCount : Nat
  roleFlags : Nat
  memberBytes : Nat
  logicalCapacity : Nat
  control : Region
  metadata : Region
  data : Region
  metadataBlockSize : Nat
  metadataReadSize : Nat
  metadataProgramSize : Nat
  chunkSize : Nat
  layoutFormatVersion : Nat
  genesisTopologyDigest : Digest
  checkpointOffset : Nat
  checkpointRecordSequence : Nat
  checkpointRecordDigest : Digest
  deriving DecidableEq, Repr

namespace Region

/-- The end of a region, if it fits in 64 bits. -/
def finish (region : Region) : Except Error Nat := do
  rejectIf (region.offset + region.length > maxU64) .regionOverflow
  .ok (region.offset + region.length)

def validate (region : Region) (alignment : Nat) : Except Error Unit := do
  rejectIf (alignment = 0 ∨ ¬ isPowerOfTwo alignment) .invalidAlignment
  rejectIf (region.offset % alignment ≠ 0 ∨ region.length % alignment ≠ 0) .unalignedRegion
  let _ ← region.finish
  .ok ()

def validateOrdered (first second : Region) : Except Error Unit := do
  let firstEnd ← first.finish
  rejectIf (firstEnd > second.offset) .overlappingRegions

/-- The next multiple of a power of two. -/
def alignForward (offset alignment : Nat) : Except Error Nat := do
  rejectIf (alignment = 0 ∨ ¬ isPowerOfTwo alignment) .invalidAlignment
  if offset % alignment = 0 then .ok offset
  else do
    rejectIf (offset + (alignment - offset % alignment) > maxU64) .regionOverflow
    .ok (offset + (alignment - offset % alignment))

end Region

/-- How a pool stores its data. -/
inductive PoolDataMode where
  | blob | catalog | legacyUnsupported
  deriving DecidableEq, Repr

namespace MemberFormat

def initialMemberCount : Nat := 3
def knownRoleFlags : Nat := 3
def maxDynamicMemberCount : Nat := 96

variable (header : Header)

def expectedLayoutFormatVersion : Nat :=
  if header.scheduledBlobData then 3 else if header.dynamicPool then 2 else 1

def poolDataMode : PoolDataMode :=
  if header.blobFilesystem then .blob
  else if header.catalogIntent ∨ header.catalogData then .catalog
  else .legacyUnsupported

/-- The features of a header agree with each other. -/
def validateFeatures : Except Error Unit := do
  rejectIf (header.blobFilesystem ∧ (header.catalogIntent ∨ header.catalogData))
    .conflictingPoolDataMode
  rejectIf (header.blobFilesystem ∧ ¬ header.dynamicPool) .blobFilesystemRequiresDynamicPool
  rejectIf (header.scheduledBlobData ∧ ¬ header.dynamicPool) .scheduledBlobDataRequiresDynamicPool
  rejectIf (header.scheduledBlobData ∧ ¬ header.blobFilesystem)
    .scheduledBlobDataRequiresBlobFilesystem
  if header.dynamicPool then do
    rejectIf (header.memberCount = 0 ∨ header.memberCount > maxDynamicMemberCount)
      .invalidMemberPlacement
    rejectIf (PoolTopology.hasUnknownRole header.roleFlags ∨
      header.roleFlags &&& PoolTopology.dataRole = 0) .invalidRoleFlags
  else do
    rejectIf (header.catalogIntent ∨ header.catalogData) .catalogDataRequiresDynamicPool
    rejectIf (header.memberCount ≠ initialMemberCount ∨ header.memberSlot ≥ initialMemberCount)
      .invalidMemberPlacement
    rejectIf (header.roleFlags ≠ knownRoleFlags) .invalidRoleFlags

/-- The regions follow each other and fill the member. -/
def validateGeometry : Except Error Unit := do
  rejectIf (¬ isPowerOfTwo header.metadataBlockSize ∨
      ¬ isPowerOfTwo header.metadataReadSize ∨
      ¬ isPowerOfTwo header.metadataProgramSize ∨
      ¬ isPowerOfTwo header.chunkSize ∨
      header.metadataBlockSize % header.metadataReadSize ≠ 0 ∨
      header.metadataBlockSize % header.metadataProgramSize ≠ 0 ∨
      header.chunkSize % header.metadataBlockSize ≠ 0) .invalidGeometry
  header.control.validate 4096
  header.metadata.validate header.metadataBlockSize
  header.data.validate header.chunkSize
  rejectIf (header.control.offset ≠ 64 * 1024 ∨ header.control.length < 4096) .invalidGeometry
  let controlEnd ← header.control.finish
  let metadataOffset ← Region.alignForward controlEnd (1024 * 1024)
  rejectIf (header.metadata.offset ≠ metadataOffset ∨ header.metadata.length < 256 * 1024)
    .invalidGeometry
  let blockCount := header.metadata.length / header.metadataBlockSize
  rejectIf (blockCount < 2 ∨ blockCount > 4294967295) .invalidGeometry
  let metadataEnd ← header.metadata.finish
  let dataOffset ← Region.alignForward metadataEnd (1024 * 1024)
  rejectIf (header.data.offset ≠ dataOffset ∨ header.data.length = 0) .invalidGeometry
  let dataEnd ← header.data.finish
  rejectIf (header.memberBytes ≠ dataEnd ∨ header.logicalCapacity = 0 ∨
      (¬ header.scheduledBlobData ∧ header.logicalCapacity > header.data.length))
    .invalidGeometry
  rejectIf (header.scheduledBlobData ∧ header.logicalCapacity % header.chunkSize ≠ 0)
    .invalidGeometry
  Region.validateOrdered header.control header.metadata
  Region.validateOrdered header.metadata header.data

/-- A header names either no checkpoint or a whole slot of the control region. -/
def validateCheckpoint : Except Error Unit := do
  let controlEnd ← header.control.finish
  rejectIf (¬ (header.checkpointOffset = 0 ↔ header.checkpointRecordSequence = 0) ∨
    ¬ (header.checkpointOffset = 0 ↔ header.checkpointRecordDigest = 0)) .invalidCheckpoint
  rejectIf (header.checkpointOffset ≠ 0 ∧ (header.checkpointOffset % 4096 ≠ 0 ∨
      header.checkpointOffset < header.control.offset ∨ header.checkpointOffset ≥ controlEnd))
    .invalidCheckpoint

def validate : Except Error Unit := do
  rejectIf (header.headerSequence = 0) .invalidSequence
  rejectIf (header.setId = 0 ∨ header.memberId = 0 ∨ header.setId = header.memberId)
    .invalidIdentity
  validateFeatures header
  rejectIf (header.genesisTopologyDigest = 0) .invalidTopologyDigest
  validateGeometry header
  validateCheckpoint header

/-! ## The two copies -/

/-- Which of the two header copies. -/
inductive SourceSlot where
  | a | b
  deriving DecidableEq, Repr

/-- One header copy as it is found on the member: a header, or bytes that do not decode. -/
inductive HeaderCopy where
  | bytes (header : Header)
  | damaged (fault : FramingFault)
  deriving DecidableEq, Repr

/-- The header of a copy, when it decodes. -/
def decodeCandidate (copy : HeaderCopy) : Option Header :=
  match copy with
  | .bytes header => (value (validate header)).map fun _ => header
  | .damaged _ => none

structure Selection where
  header : Header
  source : SourceSlot
  redundancyDegraded : Bool
  deriving DecidableEq, Repr

/-- The fields that a publication changes, set to fixed values. -/
def staticPart : Header :=
  { header with headerSequence := 1, checkpointOffset := 0, checkpointRecordSequence := 0,
                checkpointRecordDigest := 0, catalogData := false }

def mutableEqual (a b : Header) : Prop := a.checkpointOffset = b.checkpointOffset ∧
    a.checkpointRecordSequence = b.checkpointRecordSequence ∧
    a.checkpointRecordDigest = b.checkpointRecordDigest

instance (a b : Header) : Decidable (mutableEqual a b) := inferInstanceAs (Decidable (_ ∧ _ ∧ _))

def selectValid (a b : Header) : Except Error Selection := do
  rejectIf (staticPart a ≠ staticPart b) .conflictingMemberHeaders
  if a.catalogData ≠ b.catalogData then do
    let enabled := if a.catalogData then a else b
    let disabled := if a.catalogData then b else a
    rejectIf (disabled.headerSequence = maxU64 ∨
      enabled.headerSequence ≠ disabled.headerSequence + 1 ∨ ¬ mutableEqual enabled disabled)
      .conflictingMemberHeaders
    .ok ⟨enabled, if a.catalogData then .a else .b, true⟩
  else if a.headerSequence > b.headerSequence then .ok ⟨a, .a, false⟩
  else if b.headerSequence > a.headerSequence then .ok ⟨b, .b, false⟩
  else do
    rejectIf (¬ mutableEqual a b) .ambiguousMemberHeader
    .ok ⟨a, .a, false⟩

def select (a b : HeaderCopy) : Except Error Selection :=
  match decodeCandidate a, decodeCandidate b with
  | none, none => .error .noValidMemberHeader
  | none, some header => .ok ⟨header, .b, true⟩
  | some header, none => .ok ⟨header, .a, true⟩
  | some a, some b => selectValid a b

end MemberFormat

/-! ## First records against the header of their member -/

variable [Blake3]

namespace PoolGenesis

def validateMemberHeader (payload : GenesisPayload) (header : Header) : Except Error Unit := do
  validate payload
  MemberFormat.validate header
  rejectIf (¬ header.dynamicPool) .dynamicPoolFeatureRequired
  rejectIf (header.scheduledBlobData ≠ payload.layout.scheduledBlob.isSome)
    .scheduledBlobFeatureMismatch
  rejectIf (header.setId ≠ payload.topology.setId) .foreignSet
  let member ← findGenesisMember payload header.memberId
  rejectIf (header.memberSlot ≠ member.slot ∨ header.memberCount ≠ payload.topology.members.length ∨
      header.roleFlags ≠ member.roleFlags) .memberHeaderMismatch
  let topologyDigest ← PoolTopology.digest payload.topology
  rejectIf (header.genesisTopologyDigest ≠ topologyDigest) .genesisTopologyDigestMismatch
  rejectIf (header.chunkSize ≠ payload.layout.chunkSize) .chunkSizeMismatch
  rejectIf (header.layoutFormatVersion ≠ MemberFormat.expectedLayoutFormatVersion header)
    .unsupportedLayoutFormat
  rejectIf (∃ s ∈ payload.layout.scheduledBlob, header.logicalCapacity ≠ s.logicalCapacity)
    .logicalCapacityMismatch
  rejectIf (∃ s ∈ payload.layout.scheduledBlob, payload.topology.members.length ≠ s.memberCount)
    .scheduledMemberCountMismatch

end PoolGenesis

namespace MemberBootstrap

def validateTargetHeader (evidence : BootstrapEvidence) (header : Header) : Except Error Unit := do
  validate evidence
  MemberFormat.validate header
  rejectIf (¬ header.dynamicPool) .dynamicPoolFeatureRequired
  rejectIf (header.scheduledBlobData ≠ evidence.layout.scheduledBlob.isSome)
    .scheduledBlobFeatureMismatch
  rejectIf (header.setId ≠ evidence.topology.setId) .foreignSet
  rejectIf (header.memberId ≠ evidence.targetMemberId ∨
    header.memberSlot ≠ evidence.targetSlot) .bootstrapTargetMismatch
  let target ← orElseFail (PoolTopology.findMember evidence.topology evidence.targetMemberId)
    .bootstrapTargetNotFound
  rejectIf (header.memberCount ≠ evidence.topology.members.length ∨
    header.roleFlags ≠ target.roleFlags) .memberHeaderMismatch
  let topologyDigest ← PoolTopology.digest evidence.topology
  rejectIf (header.genesisTopologyDigest ≠ topologyDigest) .birthTopologyDigestMismatch
  rejectIf (header.chunkSize ≠ evidence.layout.chunkSize) .chunkSizeMismatch
  rejectIf (header.layoutFormatVersion ≠ MemberFormat.expectedLayoutFormatVersion header)
    .unsupportedLayoutFormat
  rejectIf (∃ s ∈ evidence.layout.scheduledBlob, header.logicalCapacity ≠ s.logicalCapacity)
    .logicalCapacityMismatch
  rejectIf (∃ s ∈ evidence.layout.scheduledBlob, evidence.topology.members.length ≠ s.memberCount)
    .scheduledMemberCountMismatch

def validateTargetFirstRecord (header : Header) (record : Record) :
    Except Error BootstrapEvidence := do
  let evidence ← validateRecord record
  rejectIf (record.localSequence ≠ 1 ∨ record.previousRecordDigest ≠ 0 ∨
    record.previousHistoryDigest = 0) .invalidBootstrapFirstRecord
  rejectIf (record.memberId ≠ evidence.targetMemberId) .bootstrapTargetMismatch
  validateTargetHeader evidence header
  .ok evidence

end MemberBootstrap

end Zettide
