import Zettide.Catalog.Format

/-! # Catalog pages

Translation of `pool_catalog_page.zig` and of the decoder of `catalog_volume_header.zig`: the six
kinds of leaf page, the header page of a volume, and the checks that relate the decoded pages of
one catalog to each other and to the geometry of the members. -/

namespace Zettide

open Bytes

/-! ## Volume headers -/

namespace CatalogVolumeHeader

def encodedSize : Nat := 4096
def payloadOffset : Nat := 64 * 1024
def minimumVolumeSize : Nat := 256 * 1024
def maxLabelLength : Nat := 127
def magic : List UInt8 := [0x4c, 0x46, 0x53, 0x44, 0x52, 0x56, 0x32, 0]
def checksumOffset : Nat := 4092

inductive State where
  | creating | ready
  deriving DecidableEq, Repr

def State.fromInt : Nat → Option State
  | 1 => some .creating
  | 2 => some .ready
  | _ => none

structure Header where
  sequence : Nat
  state : State
  uuid : Id
  createdNs : Int
  logicalSize : Nat
  payloadStart : Nat
  blockSize : Nat
  blockCount : Nat
  readSize : Nat
  programSize : Nat
  nameMax : Nat
  fileMax : Nat
  attrMax : Nat
  userFileMax : Nat
  objectVersion : Nat
  extentSize : Nat
  label : List UInt8
  deriving DecidableEq, Repr

/-- The header of a volume makes sense. All failures are one error, raised by the caller. -/
def Header.Valid (header : Header) : Prop :=
  payloadOffset ≤ header.payloadStart ∧ header.payloadStart % encodedSize = 0 ∧
    header.blockSize ≠ 0 ∧ minimumVolumeSize ≤ header.logicalSize ∧
    header.logicalSize % header.blockSize = 0 ∧
    header.logicalSize / header.blockSize = header.blockCount ∧
    header.readSize ≠ 0 ∧ header.programSize ≠ 0 ∧
    header.blockSize % header.readSize = 0 ∧ header.blockSize % header.programSize = 0 ∧
    header.nameMax ≠ 0 ∧ header.nameMax ≤ 255 ∧ header.fileMax ≠ 0 ∧
    header.fileMax ≤ 2147483647 ∧ 64 ≤ header.attrMax ∧ header.attrMax ≤ 1022 ∧
    header.userFileMax = 9223372036854775807 ∧ header.objectVersion = 1 ∧
    header.extentSize ≠ 0 ∧ header.extentSize ≤ header.fileMax ∧
    header.extentSize % header.blockSize = 0 ∧
    PoolCatalog.utf8ValidateSlice header.label = true

instance (header : Header) : Decidable header.Valid := inferInstanceAs (Decidable (_ ∧ _))

def decode [Codec] (block : Block) : Except CatalogError Header := do
  let bytes := block.bytes
  rejectIf (slice bytes 0 8 ≠ magic) .invalidMagic
  rejectIf (getInt 4 bytes checksumOffset ≠ Codec.crc32c (slice bytes 0 checksumOffset))
    .checksumMismatch
  rejectIf (getInt 2 bytes 8 ≠ 2 ∨ getInt 2 bytes 10 ≠ 0) .unsupportedFormatVersion
  rejectIf (getInt 4 bytes 12 ≠ encodedSize ∨ getInt 4 bytes 28 ≠ 1) .invalidVolumeHeader
  let labelLength := getInt 1 bytes 100
  rejectIf (labelLength > maxLabelLength) .invalidVolumeHeader
  let state ← orElseFail (State.fromInt (getInt 1 bytes 24)) .invalidVolumeHeader
  let header : Header :=
    { sequence := getInt 8 bytes 16
      state := state
      uuid := getId bytes 32
      createdNs := PoolCatalog.getI64 bytes 48
      logicalSize := getInt 8 bytes 56
      payloadStart := getInt 8 bytes 64
      blockSize := getInt 4 bytes 72
      blockCount := getInt 4 bytes 76
      readSize := getInt 4 bytes 80
      programSize := getInt 4 bytes 84
      nameMax := getInt 4 bytes 88
      fileMax := getInt 4 bytes 92
      attrMax := getInt 4 bytes 96
      userFileMax := getInt 8 bytes 232
      objectVersion := getInt 4 bytes 240
      extentSize := getInt 4 bytes 244
      label := slice bytes 104 labelLength }
  rejectIf (¬ header.Valid) .invalidVolumeHeader
  .ok header

end CatalogVolumeHeader

namespace PoolCatalogPage

open PoolCatalog

def headerSize : Nat := 64
def checksumOffset : Nat := 4092
def nameEntrySize : Nat := 160
def physicalIntervalEntrySize : Nat := 32
def metadataIntervalEntrySize : Nat := 32
def maxExtentRunCount : Nat := (checksumOffset - headerSize) / extentRunEncodedSize
def maxPhysicalIntervalCount : Nat := (checksumOffset - headerSize) / physicalIntervalEntrySize
def maxMetadataIntervalCount : Nat := (checksumOffset - headerSize) / metadataIntervalEntrySize

def magic : List UInt8 := [0x44, 0x44, 0x56, 0x50, 0x47, 0x30, 0x30, 0x31]
def formatVersion : Nat := 1

inductive Kind where
  | volumeIndex | nameIndex | extentMap | physicalAllocator | retiredExtents | metadataAllocator
  deriving DecidableEq, Repr

def Kind.fromInt : Nat → Option Kind
  | 1 => some .volumeIndex
  | 2 => some .nameIndex
  | 3 => some .extentMap
  | 4 => some .physicalAllocator
  | 5 => some .retiredExtents
  | 6 => some .metadataAllocator
  | _ => none

def entrySize : Kind → Nat
  | .volumeIndex => volumeEncodedSize
  | .nameIndex => nameEntrySize
  | .extentMap => extentRunEncodedSize
  | .physicalAllocator => physicalIntervalEntrySize
  | .retiredExtents => physicalIntervalEntrySize
  | .metadataAllocator => metadataIntervalEntrySize

structure Header where
  kind : Kind
  entryCount : Nat
  entrySize : Nat
  generation : Nat
  ownerId : Id
  deriving DecidableEq, Repr

def usedEnd (entrySize entryCount : Nat) : Except CatalogError Nat := do
  rejectIf (headerSize + entrySize * entryCount > checksumOffset) .pageCapacityExceeded
  .ok (headerSize + entrySize * entryCount)

def decodeHeader [Codec] (block : Block) (expectedKind : Kind) : Except CatalogError Header := do
  let bytes := block.bytes
  rejectIf (getInt 4 bytes checksumOffset ≠ Codec.crc32c (slice bytes 0 checksumOffset))
    .checksumMismatch
  rejectIf (slice bytes 0 8 ≠ magic) .invalidMagic
  rejectIf (getInt 2 bytes 0x008 ≠ formatVersion) .unsupportedFormatVersion
  let kind ← orElseFail (Kind.fromInt (getInt 2 bytes 0x00a)) .invalidPageKind
  rejectIf (kind ≠ expectedKind) .unexpectedPageKind
  rejectIf (getInt 2 bytes 0x00c ≠ 0 ∨ getInt 2 bytes 0x012 ≠ headerSize ∨
      getInt 4 bytes 0x014 ≠ 0 ∨ ¬ isZero (slice bytes 0x030 (headerSize - 0x030)))
    .invalidPageHeader
  let header : Header :=
    { kind := kind
      entryCount := getInt 2 bytes 0x00e
      entrySize := getInt 2 bytes 0x010
      generation := getInt 8 bytes 0x018
      ownerId := getId bytes 0x020 }
  rejectIf (header.generation = 0 ∨ header.entrySize ≠ PoolCatalogPage.entrySize kind)
    .invalidPageHeader
  rejectIf (¬ (kind = .extentMap ↔ header.ownerId ≠ 0)) .invalidPageOwner
  let used ← usedEnd header.entrySize header.entryCount
  rejectIf (¬ isZero (slice bytes used (checksumOffset - used))) .nonZeroPagePadding
  .ok header

/-- The bytes of the entries of a page. -/
def entriesOf (block : Block) (header : Header) : List (List UInt8) :=
  (List.range header.entryCount).map fun index =>
    slice block.bytes (headerSize + header.entrySize * index) header.entrySize

/-- The comparison of an entry with the one before it, if there is one. -/
def withPrevious {α : Type} (order : α → α → Except CatalogError Unit) (previous : Option α)
    (entry : α) : Except CatalogError Unit :=
  match previous with
  | none => .ok ()
  | some previous => order previous entry

/-- Decoding of the entries, each compared with the one before it. -/
def decodeEntries {α : Type} (decode : List UInt8 → Except CatalogError α)
    (order : α → α → Except CatalogError Unit) (previous : Option α) :
    List (List UInt8) → Except CatalogError (List α)
  | [] => .ok []
  | bytes :: rest => do
      let entry ← decode bytes
      withPrevious order previous entry
      let others ← decodeEntries decode order (some entry) rest
      .ok (entry :: others)

/-- Every element of a list compared with the one before it, after a check of its own. -/
def checkOrdered {α : Type} (check : α → Except CatalogError Unit)
    (order : α → α → Except CatalogError Unit) (previous : Option α) :
    List α → Except CatalogError Unit
  | [] => .ok ()
  | entry :: rest => do
      check entry
      withPrevious order previous entry
      checkOrdered check order (some entry) rest

/-! ## Volume index and name index -/

def validateVolumeOrder (previous current : VolumeDescriptor) : Except CatalogError Unit :=
  rejectIf (¬ previous.volumeId < current.volumeId) .nonCanonicalVolumeOrder

def decodeVolumeIndex [Codec] (block : Block) (capacity : Nat) :
    Except CatalogError (List VolumeDescriptor) := do
  let header ← decodeHeader block .volumeIndex
  rejectIf (capacity < header.entryCount) .outputTooSmall
  decodeEntries decodeVolume validateVolumeOrder none (entriesOf block header)

structure NameEntry where
  volumeId : Id
  name : Name
  deriving DecidableEq, Repr

def validateNameEntry (entry : NameEntry) : Except CatalogError Unit := do
  rejectIf (entry.volumeId = 0) .invalidVolumeId
  validateName entry.name

def validateNameOrder (previous current : NameEntry) : Except CatalogError Unit :=
  rejectIf (¬ previous.name < current.name) .nonCanonicalNameOrder

def decodeNameEntry (bytes : List UInt8) : Except CatalogError NameEntry := do
  let nameLength := getInt 2 bytes 0x010
  rejectIf (nameLength = 0 ∨ nameLength > maxVolumeNameLen ∨
      ¬ isZero (slice bytes 0x012 (0x020 - 0x012)) ∨ ¬ isZero (bytes.drop (0x020 + nameLength)))
    .invalidNameEntry
  let name := slice bytes 0x020 nameLength
  rejectIf (¬ utf8ValidateSlice name) .invalidVolumeName
  let entry : NameEntry := ⟨getId bytes 0x000, name⟩
  validateNameEntry entry
  .ok entry

def decodeNameIndex [Codec] (block : Block) (capacity : Nat) :
    Except CatalogError (List NameEntry) := do
  let header ← decodeHeader block .nameIndex
  rejectIf (capacity < header.entryCount) .outputTooSmall
  decodeEntries decodeNameEntry validateNameOrder none (entriesOf block header)

/-- A volume has exactly one entry in the name index, and it carries the volume's name. -/
def validateIndexedName (names : List NameEntry) (descriptor : VolumeDescriptor) :
    Except CatalogError Unit := do
  validateVolume descriptor
  rejectIf (∃ entry ∈ names, descriptor.volumeId = entry.volumeId ∧ descriptor.name ≠ entry.name)
    .catalogNameMismatch
  rejectIf ((names.countP fun entry => descriptor.volumeId = entry.volumeId) ≠ 1)
    .catalogNameMismatch

def validateCatalogIndexes (root : Root) (descriptors : List VolumeDescriptor)
    (names : List NameEntry) : Except CatalogError Unit := do
  validateRoot root
  rejectIf (descriptors.length ≠ root.volumeCount ∨ names.length ≠ root.volumeCount)
    .catalogIndexCountMismatch
  checkOrdered validateNameEntry validateNameOrder none names
  checkOrdered (validateIndexedName names) validateVolumeOrder none descriptors

/-! ## Extent maps -/

def validateRunOrder (previous current : ExtentRun) : Except CatalogError Unit := do
  rejectIf (current.logicalStart < previous.logicalStart + previous.extentCount)
    .overlappingLogicalExtents
  rejectIf (previous.canMerge current) .nonCanonicalExtentRuns

def decodeExtentMap [Codec] (block : Block) (volumeId : Id) (capacity : Nat) :
    Except CatalogError (List ExtentRun) := do
  let header ← decodeHeader block .extentMap
  rejectIf (header.ownerId ≠ volumeId) .pageOwnerMismatch
  rejectIf (capacity < header.entryCount) .outputTooSmall
  decodeEntries decodeExtentRun validateRunOrder none (entriesOf block header)

/-! ## Free and retired extents -/

structure PhysicalInterval where
  memberSlot : Nat
  physicalStart : Nat
  extentCount : Nat
  retiredGeneration : Nat
  deriving DecidableEq, Repr

/-- The two kinds of page that hold physical intervals. -/
inductive IntervalKind where
  | free | retired
  deriving DecidableEq, Repr

def IntervalKind.page : IntervalKind → Kind
  | .free => .physicalAllocator
  | .retired => .retiredExtents

def validatePhysicalInterval (kind : IntervalKind) (generation : Nat)
    (interval : PhysicalInterval) : Except CatalogError Unit := do
  rejectIf (interval.extentCount = 0) .emptyPhysicalInterval
  rejectIf (interval.physicalStart + interval.extentCount > maxU64) .physicalIntervalOverflow
  match kind with
  | .free => rejectIf (interval.retiredGeneration ≠ 0) .invalidRetiredGeneration
  | .retired =>
    rejectIf (interval.retiredGeneration = 0 ∨ interval.retiredGeneration > generation)
      .invalidRetiredGeneration

def validatePhysicalOrder (kind : IntervalKind) (previous current : PhysicalInterval) :
    Except CatalogError Unit := do
  rejectIf (current.memberSlot < previous.memberSlot) .nonCanonicalPhysicalIntervalOrder
  if current.memberSlot ≠ previous.memberSlot then .ok ()
  else do
    let previousEnd ← addU64 previous.physicalStart previous.extentCount .overflow
    rejectIf (current.physicalStart < previousEnd) .overlappingPhysicalIntervals
    rejectIf (current.physicalStart = previousEnd ∧
        (kind = .free ∨ current.retiredGeneration = previous.retiredGeneration))
      .nonCanonicalPhysicalIntervals

def decodePhysicalInterval (kind : IntervalKind) (generation : Nat) (bytes : List UInt8) :
    Except CatalogError PhysicalInterval := do
  rejectIf (¬ isZero (slice bytes 0x002 (0x008 - 0x002))) .nonZeroReserved
  let interval : PhysicalInterval :=
    { memberSlot := getInt 2 bytes 0x000
      physicalStart := getInt 8 bytes 0x008
      extentCount := getInt 8 bytes 0x010
      retiredGeneration := getInt 8 bytes 0x018 }
  validatePhysicalInterval kind generation interval
  .ok interval

def decodePhysicalIntervals [Codec] (block : Block) (kind : IntervalKind) (capacity : Nat) :
    Except CatalogError (List PhysicalInterval) := do
  let header ← decodeHeader block kind.page
  rejectIf (capacity < header.entryCount) .outputTooSmall
  decodeEntries (decodePhysicalInterval kind header.generation) (validatePhysicalOrder kind) none
    (entriesOf block header)

/-! ## Free and retired metadata pages -/

inductive MetadataIntervalState where
  | free | retired
  deriving DecidableEq, Repr

def MetadataIntervalState.fromInt : Nat → Option MetadataIntervalState
  | 1 => some .free
  | 2 => some .retired
  | _ => none

structure MetadataInterval where
  pageStart : Nat
  pageCount : Nat
  state : MetadataIntervalState
  retiredGeneration : Nat
  deriving DecidableEq, Repr

def validateMetadataInterval (generation : Nat) (interval : MetadataInterval) :
    Except CatalogError Unit := do
  rejectIf (interval.pageStart < 2 ∨ interval.pageCount = 0) .invalidMetadataInterval
  rejectIf (interval.pageStart + interval.pageCount > maxU64) .metadataIntervalOverflow
  rejectIf ((interval.pageStart + interval.pageCount) * pageSize > maxU64) .metadataIntervalOverflow
  match interval.state with
  | .free => rejectIf (interval.retiredGeneration ≠ 0) .invalidRetiredGeneration
  | .retired =>
    rejectIf (interval.retiredGeneration = 0 ∨ interval.retiredGeneration > generation)
      .invalidRetiredGeneration

def validateMetadataOrder (previous current : MetadataInterval) : Except CatalogError Unit := do
  let previousEnd ← addU64 previous.pageStart previous.pageCount .overflow
  rejectIf (current.pageStart < previousEnd) .overlappingMetadataIntervals
  rejectIf (current.pageStart = previousEnd ∧ current.state = previous.state ∧
    current.retiredGeneration = previous.retiredGeneration)
    .nonCanonicalMetadataIntervals

def decodeMetadataInterval (generation : Nat) (bytes : List UInt8) :
    Except CatalogError MetadataInterval := do
  let state ← orElseFail (MetadataIntervalState.fromInt (getInt 2 bytes 0x00c))
    .invalidMetadataIntervalState
  rejectIf (¬ isZero (slice bytes 0x00e 2) ∨ ¬ isZero (slice bytes 0x018 8)) .nonZeroReserved
  let interval : MetadataInterval :=
    { pageStart := getInt 8 bytes 0x000
      pageCount := getInt 4 bytes 0x008
      state := state
      retiredGeneration := getInt 8 bytes 0x010 }
  validateMetadataInterval generation interval
  .ok interval

def decodeMetadataAllocator [Codec] (block : Block) (capacity : Nat) :
    Except CatalogError (List MetadataInterval) := do
  let header ← decodeHeader block .metadataAllocator
  rejectIf (capacity < header.entryCount) .outputTooSmall
  decodeEntries (decodeMetadataInterval header.generation) validateMetadataOrder none
    (entriesOf block header)

/-! ## Pages and members -/

def validatePhysicalIntervalForMembers (extentSize : Nat) (members : List MemberDataGeometry)
    (interval : PhysicalInterval) : Except CatalogError Unit := do
  let member ← orElseFail (members.find? fun member => member.slot = interval.memberSlot)
    .missingMemberGeometry
  let physicalEnd ← addU64 interval.physicalStart interval.extentCount .overflow
  let physicalEndBytes ← mulU64 physicalEnd extentSize .physicalExtentOverflow
  rejectIf (physicalEndBytes > member.dataLength) .extentOutsideMemberData

def validatePhysicalIntervalsForMembers (intervals : List PhysicalInterval) (extentSize : Nat)
    (members : List MemberDataGeometry) : Except CatalogError Unit := do
  rejectIf (¬ PoolLayout.isPowerOfTwo extentSize ∨ extentSize < pageSize) .invalidExtentSize
  forAllWithPrevious (validateDataGeometry extentSize) [] members
  forAll (validatePhysicalIntervalForMembers extentSize members) intervals

/-- One reference of a list: it agrees with the earlier ones and lies inside every member. -/
def validateReferenceForMembers (metadataLengths : List Nat) (previous : List PageReference)
    (reference : PageReference) : Except CatalogError Unit := do
  reference.validate
  if reference.isNull then .ok ()
  else do
    rejectIf (∃ other ∈ previous, other.offset = reference.offset ∧
      other.digest ≠ reference.digest) .divergentRecoverablePage
    rejectIf (∃ metadataLength ∈ metadataLengths, reference.offset + pageSize > metadataLength)
      .metadataPageOutsideMember

/-- Some reference of the list is to a page of the interval. -/
def referenced (references : List PageReference) (pageStart pageEnd : Nat) : Prop :=
  ∃ reference ∈ references, ¬ reference.isNull ∧
    pageStart ≤ reference.offset / pageSize ∧ reference.offset / pageSize < pageEnd

instance (references : List PageReference) (pageStart pageEnd : Nat) :
    Decidable (referenced references pageStart pageEnd) :=
  inferInstanceAs (Decidable (∃ reference ∈ references, _ ∧ _ ∧ _))

/-- One metadata interval: it lies inside every member and holds no page in use. -/
def validateMetadataIntervalForMembers (currentPages recoverablePages : List PageReference)
    (metadataLengths : List Nat) (interval : MetadataInterval) : Except CatalogError Unit := do
  let pageEnd ← addU64 interval.pageStart interval.pageCount .overflow
  let byteEnd ← mulU64 pageEnd pageSize .overflow
  rejectIf (∃ metadataLength ∈ metadataLengths, byteEnd > metadataLength)
    .metadataIntervalOutsideMember
  rejectIf (referenced currentPages interval.pageStart pageEnd) .metadataPageStillReferenced
  rejectIf (interval.state = .free ∧ referenced recoverablePages interval.pageStart pageEnd)
    .metadataPageStillReferenced

/-- The loop over the metadata intervals: each is checked by itself, against the one before it and
against the pages. -/
def validateMetadataIntervals (currentPages recoverablePages : List PageReference)
    (metadataLengths : List Nat) (previous : Option MetadataInterval) :
    List MetadataInterval → Except CatalogError Unit
  | [] => .ok ()
  | interval :: rest => do
      validateMetadataInterval maxU64 interval
      withPrevious validateMetadataOrder previous interval
      validateMetadataIntervalForMembers currentPages recoverablePages metadataLengths interval
      validateMetadataIntervals currentPages recoverablePages metadataLengths (some interval) rest

def validateMetadataIntervalsForMembers (intervals : List MetadataInterval)
    (currentPages recoverablePages : List PageReference) (metadataLengths : List Nat) :
    Except CatalogError Unit := do
  rejectIf (metadataLengths = []) .missingMemberGeometry
  rejectIf (∃ metadataLength ∈ metadataLengths, metadataLength < 3 * pageSize ∨
    metadataLength % pageSize ≠ 0) .invalidMemberMetadataGeometry
  forAllWithPrevious (validateReferenceForMembers metadataLengths) [] currentPages
  forAllWithPrevious (validateReferenceForMembers metadataLengths) [] recoverablePages
  rejectIf (∃ current ∈ currentPages, ¬ current.isNull ∧ ∃ recoverable ∈ recoverablePages,
    recoverable.offset = current.offset ∧ recoverable.digest ≠ current.digest)
    .divergentRecoverablePage
  validateMetadataIntervals currentPages recoverablePages metadataLengths none intervals

/-! ## Ownership of physical extents -/

structure VolumeExtentMap where
  volumeId : Id
  runs : List ExtentRun
  deriving DecidableEq, Repr

/-- Two ranges overlap; a range that runs past 64 bits overlaps everything. -/
def rangesOverlap (leftStart leftCount rightStart rightCount : Nat) : Prop :=
  leftStart + leftCount > maxU64 ∨ rightStart + rightCount > maxU64 ∨
    leftStart < rightStart + rightCount ∧ rightStart < leftStart + leftCount

instance (a b c d : Nat) : Decidable (rangesOverlap a b c d) :=
  inferInstanceAs (Decidable (_ ∨ _ ∨ _))

def runsOverlap (left right : ExtentRun) : Prop :=
  rangesOverlap left.physicalStart left.extentCount right.physicalStart right.extentCount ∧
    shareMemberSlot left right

instance (left right : ExtentRun) : Decidable (runsOverlap left right) :=
  inferInstanceAs (Decidable (_ ∧ _))

def runOverlapsInterval (run : ExtentRun) (interval : PhysicalInterval) : Prop :=
  rangesOverlap run.physicalStart run.extentCount interval.physicalStart interval.extentCount ∧
    interval.memberSlot ∈ run.memberSlots

instance (run : ExtentRun) (interval : PhysicalInterval) :
    Decidable (runOverlapsInterval run interval) :=
  inferInstanceAs (Decidable (_ ∧ _))

def intervalsOverlap (left right : PhysicalInterval) : Prop :=
  left.memberSlot = right.memberSlot ∧
    rangesOverlap left.physicalStart left.extentCount right.physicalStart right.extentCount

instance (left right : PhysicalInterval) : Decidable (intervalsOverlap left right) :=
  inferInstanceAs (Decidable (_ ∧ _))

/-- One run of a map: `previousMaps` are the maps before it, `previous` the runs before it. -/
def validateRunOwnership (free retired : List PhysicalInterval)
    (previousMaps : List VolumeExtentMap) (previous : List ExtentRun) (run : ExtentRun) :
    Except CatalogError Unit := do
  validateExtentRun run
  rejectIf (∃ other ∈ previous, runsOverlap other run) .overlappingPhysicalOwnership
  rejectIf (∃ map ∈ previousMaps, ∃ other ∈ map.runs, runsOverlap other run)
    .overlappingPhysicalOwnership
  rejectIf (∃ interval ∈ free, runOverlapsInterval run interval) .overlappingPhysicalOwnership
  rejectIf (∃ interval ∈ retired, runOverlapsInterval run interval) .overlappingPhysicalOwnership

def validateMapOwnership (free retired : List PhysicalInterval)
    (previousMaps : List VolumeExtentMap) (map : VolumeExtentMap) : Except CatalogError Unit := do
  rejectIf (map.volumeId = 0) .invalidVolumeId
  rejectIf (∃ previous ∈ previousMaps, map.volumeId = previous.volumeId) .duplicateVolumeExtentMap
  forAllWithPrevious (validateRunOwnership free retired previousMaps) [] map.runs

def validatePhysicalOwnership (maps : List VolumeExtentMap) (free retired : List PhysicalInterval) :
    Except CatalogError Unit := do
  checkOrdered (validatePhysicalInterval .free maxU64) (validatePhysicalOrder .free) none free
  checkOrdered (validatePhysicalInterval .retired maxU64) (validatePhysicalOrder .retired) none
    retired
  forAllWithPrevious (validateMapOwnership free retired) [] maps
  rejectIf (∃ freeInterval ∈ free, ∃ retiredInterval ∈ retired,
    intervalsOverlap freeInterval retiredInterval) .overlappingPhysicalOwnership

end PoolCatalogPage

end Zettide
