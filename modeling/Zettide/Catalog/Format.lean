import Zettide.Catalog.Error
import Zettide.Format.Layout
import Zettide.Lib.Bytes

/-! # Catalog root, volume descriptors and extent runs

Translation of `pool_catalog.zig`. The catalog of a pool is stored in the metadata region of every
voter: two copies of a root block, and leaf pages that the root refers to by offset and digest.
Unlike the records of the control plane, these values are modelled down to their bytes, because a
write of a root or of a page can be interrupted in the middle.

CRC-32C and BLAKE3 are not part of the repository. Over bytes they are the parameter `Codec`;
nothing is assumed of them here but that their results fit their fields. -/

namespace Zettide

open List

/-- The checksum and the digest of a byte string. -/
class Codec where
  crc32c : List UInt8 → Nat
  blake3 : List UInt8 → Digest
  crc32c_lt : ∀ bytes, crc32c bytes < 256 ^ 4
  blake3_lt : ∀ bytes, blake3 bytes < 256 ^ 32

open Bytes

/-- The bytes of a root or of a page. -/
def blockSize : Nat := 4096

/-- A root or a page as it stands in the metadata region. -/
@[ext] structure Block where
  bytes : List UInt8
  length_bytes : bytes.length = blockSize
  deriving DecidableEq, Repr

/-- `a + b` in 64 bits. -/
def addU64 (a b : Nat) (e : CatalogError) : Except CatalogError Nat := do
  rejectIf (a + b > maxU64) e
  .ok (a + b)

/-- `a * b` in 64 bits. -/
def mulU64 (a b : Nat) (e : CatalogError) : Except CatalogError Nat := do
  rejectIf (a * b > maxU64) e
  .ok (a * b)

/-- The same check for every element of a list, in order. -/
def forAll {α : Type} (check : α → Except CatalogError Unit) : List α → Except CatalogError Unit
  | [] => .ok ()
  | a :: rest => do
      check a
      forAll check rest

/-- A check of every element of a list against the elements before it. -/
def forAllWithPrevious {α : Type} (check : List α → α → Except CatalogError Unit)
    (previous : List α) :
    List α → Except CatalogError Unit
  | [] => .ok ()
  | a :: rest => do
      check previous a
      forAllWithPrevious check (previous ++ [a]) rest

theorem forAll_eq_ok {α : Type} {check : α → Except CatalogError Unit} {list : List α} :
    forAll check list = .ok () ↔ ∀ a ∈ list, check a = .ok () := by
  induction list with
  | nil => simp [forAll]
  | cons a rest ih => simp [forAll, ih]

/-- Every element passed its check against the elements before it. -/
theorem forAllWithPrevious_eq_ok {α : Type} {check : List α → α → Except CatalogError Unit}
    {list : List α} : ∀ {previous : List α}, forAllWithPrevious check previous list = .ok () ↔
      ∀ before a after, list = before ++ a :: after → check (previous ++ before) a = .ok () := by
  induction list with
  | nil => simp [forAllWithPrevious]
  | cons b rest ih =>
    intro previous
    simp only [forAllWithPrevious, ok_iff, ih]
    constructor
    · rintro ⟨hfirst, hrest⟩ before a after heq
      cases before with
      | nil =>
        obtain ⟨rfl, -⟩ := cons.inj heq
        simpa using hfirst
      | cons c before =>
        obtain ⟨rfl, rfl⟩ := cons.inj heq
        simpa using hrest before a after rfl
    · intro h
      refine ⟨by simpa using h [] b rest rfl, fun before a after heq => ?_⟩
      simpa using h (b :: before) a after (by rw [heq]; rfl)

theorem forAllWithPrevious_mem {α : Type} {check : List α → α → Except CatalogError Unit}
    {list previous : List α} {a : α} (hmem : a ∈ list)
    (h : forAllWithPrevious check previous list = .ok ()) :
    ∃ before, check (previous ++ before) a = .ok () := by
  obtain ⟨before, after, heq⟩ := append_of_mem hmem
  exact ⟨before, forAllWithPrevious_eq_ok.mp h before a after heq⟩

/-- An identifier of 16 bytes; identifiers are ordered like their bytes. -/
def getId (bytes : List UInt8) (offset : Nat) : Id := toNat (slice bytes offset 16).reverse

def putId (id : Id) : List UInt8 := (ofNat 16 id).reverse

variable {bytes : List UInt8} {offset : Nat}

theorem putId_getId (h : offset + 16 ≤ bytes.length) :
    putId (getId bytes offset) = slice bytes offset 16 := by
  have hlength : (slice bytes offset 16).reverse.length = 16 := by
    rw [length_reverse, slice_length h]
  have hround := ofNat_toNat (slice bytes offset 16).reverse
  rw [hlength] at hround
  simp only [putId, getId, hround, reverse_reverse]

/-- A digest of 32 bytes. -/
def getDigest (bytes : List UInt8) (offset : Nat) : Digest := getInt 32 bytes offset

def putDigest (digest : Digest) : List UInt8 := ofNat 32 digest

namespace PoolCatalog

def pageSize : Nat := 4096
def volumeEncodedSize : Nat := 512
def extentRunEncodedSize : Nat := 64
def maxVolumeNameLen : Nat := 127
def maxLeafVolumeCount : Nat := 7

def rootMagic : List UInt8 := [0x44, 0x44, 0x56, 0x50, 0x52, 0x4f, 0x4f, 0x54]
def volumeMagic : List UInt8 := [0x44, 0x44, 0x56, 0x56, 0x4f, 0x4c, 0x31, 0]
def rootFormatVersion : Nat := 1
def volumeFormatVersion : Nat := 1
def rootChecksumOffset : Nat := 4092
def volumeChecksumOffset : Nat := 508
def extentChecksumOffset : Nat := 60
def rootReservedOffset : Nat := 0x128
def volumeNameOffset : Nat := 0x0a0
def extentReservedOffset : Nat := 0x024

/-! ## Page references -/

/-- Where a page is and what its bytes hash to. -/
structure PageReference where
  offset : Nat
  digest : Digest
  deriving DecidableEq, Repr

namespace PageReference

/-- The reference to no page. -/
def null : PageReference := ⟨0, 0⟩

def isNull (reference : PageReference) : Prop := reference.offset = 0

instance (reference : PageReference) : Decidable reference.isNull :=
  inferInstanceAs (Decidable (_ = _))

def validate (reference : PageReference) : Except CatalogError Unit :=
  if reference.offset = 0 then
    rejectIf (reference.digest ≠ 0) .invalidNullPageReference
  else do
    rejectIf (reference.offset < 2 * pageSize ∨ reference.offset % pageSize ≠ 0 ∨
      reference.digest = 0) .invalidPageReference
    rejectIf (reference.offset + pageSize > maxU64) .pageReferenceOverflow

/-- A reference to a page, not to no page, that passes its check is aligned and lies behind the two
root copies. -/
theorem aligned_of_validate {reference : PageReference} (h : reference.validate = .ok ())
    (hpage : ¬ reference.isNull) :
    2 * pageSize ≤ reference.offset ∧ reference.offset % pageSize = 0 := by
  have hoffset : ¬ reference.offset = 0 := hpage
  unfold validate at h
  rw [if_neg hoffset] at h
  simp only [ok_iff, not_or, not_not, not_lt] at h
  exact ⟨h.1.1, h.1.2.1⟩

end PageReference

def getPageReference (bytes : List UInt8) (offset : Nat) : PageReference where
  offset := getInt 8 bytes offset
  digest := getDigest bytes (offset + 8)

def putPageReference (reference : PageReference) : List UInt8 :=
  ofNat 8 reference.offset ++ putDigest reference.digest

theorem putPageReference_getPageReference (h : offset + 40 ≤ bytes.length) :
    putPageReference (getPageReference bytes offset) = slice bytes offset 40 := by
  simp only [putPageReference, getPageReference, putDigest, getDigest]
  rw [ofNat_getInt (by omega), ofNat_getInt (by omega), slice_append]

/-! ## The root -/

structure Root where
  setId : Id
  generation : Nat
  sequence : Nat
  previousRootDigest : Digest
  volumeTreeRoot : PageReference
  nameIndexRoot : PageReference
  allocatorRoot : PageReference
  retiredExtentRoot : PageReference
  metadataAllocatorRoot : PageReference
  volumeCount : Nat
  extentSize : Nat
  extentFormatVersion : Nat
  extentEntrySize : Nat
  flags : Nat
  deriving DecidableEq, Repr

/-- The references of a root, in the order of the format. -/
def Root.references (root : Root) : List PageReference :=
  [root.volumeTreeRoot, root.nameIndexRoot, root.allocatorRoot, root.retiredExtentRoot,
    root.metadataAllocatorRoot]

def validateRoot (root : Root) : Except CatalogError Unit := do
  rejectIf (root.setId = 0) .invalidSetId
  rejectIf (root.generation = 0 ∨ root.sequence = 0) .invalidRootSequence
  rejectIf (¬ (root.generation = 1 ↔ root.previousRootDigest = 0)) .invalidPreviousRootDigest
  rejectIf (¬ PoolLayout.isPowerOfTwo root.extentSize ∨ root.extentSize < pageSize)
    .invalidExtentSize
  rejectIf (root.extentFormatVersion ≠ 1 ∨ root.extentEntrySize ≠ extentRunEncodedSize)
    .unsupportedExtentFormat
  forAll PageReference.validate root.references
  rejectIf (¬ ((root.references.filter fun reference => ¬ reference.isNull).map
    PageReference.offset).Nodup) .aliasedRootPageReference
  rejectIf (root.allocatorRoot.isNull ∨ root.metadataAllocatorRoot.isNull) .missingAllocatorRoot
  if root.volumeCount = 0 then
    rejectIf (¬ root.volumeTreeRoot.isNull ∨ ¬ root.nameIndexRoot.isNull) .invalidVolumeRoots
  else
    rejectIf (root.volumeTreeRoot.isNull ∨ root.nameIndexRoot.isNull) .invalidVolumeRoots
  rejectIf (root.volumeCount > maxLeafVolumeCount) .volumePageCapacityExceeded
  rejectIf (root.flags ≠ 0) .invalidRootFlags

/-- The bytes of a root up to its checksum. The source puts every field at its offset into a
zeroed block; the fields follow each other without gaps, and the rest of the block is reserved. -/
def rootContent (root : Root) : List UInt8 :=
  rootMagic ++ ofNat 2 rootFormatVersion ++ ofNat 2 0 ++ ofNat 4 blockSize ++
    putId root.setId ++ ofNat 8 root.generation ++ ofNat 8 root.sequence ++
    putDigest root.previousRootDigest ++ putPageReference root.volumeTreeRoot ++
    putPageReference root.nameIndexRoot ++ putPageReference root.allocatorRoot ++
    putPageReference root.retiredExtentRoot ++ putPageReference root.metadataAllocatorRoot ++
    ofNat 4 root.volumeCount ++ ofNat 4 root.extentSize ++ ofNat 4 root.flags ++
    ofNat 2 root.extentFormatVersion ++ ofNat 2 root.extentEntrySize ++
    zeros (rootChecksumOffset - rootReservedOffset)

section

variable [Codec]

def encodeRoot (root : Root) : Except CatalogError (List UInt8) := do
  validateRoot root
  .ok (rootContent root ++ ofNat 4 (Codec.crc32c (rootContent root)))

/-- The fields of a root, from the bytes. -/
def rootFields (bytes : List UInt8) : Root where
  setId := getId bytes 0x010
  generation := getInt 8 bytes 0x020
  sequence := getInt 8 bytes 0x028
  previousRootDigest := getDigest bytes 0x030
  volumeTreeRoot := getPageReference bytes 0x050
  nameIndexRoot := getPageReference bytes 0x078
  allocatorRoot := getPageReference bytes 0x0a0
  retiredExtentRoot := getPageReference bytes 0x0c8
  metadataAllocatorRoot := getPageReference bytes 0x0f0
  volumeCount := getInt 4 bytes 0x118
  extentSize := getInt 4 bytes 0x11c
  flags := getInt 4 bytes 0x120
  extentFormatVersion := getInt 2 bytes 0x124
  extentEntrySize := getInt 2 bytes 0x126

def decodeRoot (block : Block) : Except CatalogError Root := do
  let bytes := block.bytes
  rejectIf (getInt 4 bytes rootChecksumOffset ≠ Codec.crc32c (slice bytes 0 rootChecksumOffset))
    .checksumMismatch
  rejectIf (slice bytes 0 8 ≠ rootMagic) .invalidMagic
  rejectIf (getInt 2 bytes 0x008 ≠ rootFormatVersion) .unsupportedFormatVersion
  rejectIf (getInt 2 bytes 0x00a ≠ 0 ∨ getInt 4 bytes 0x00c ≠ blockSize) .invalidRootHeader
  rejectIf (¬ isZero (slice bytes rootReservedOffset (rootChecksumOffset - rootReservedOffset)))
    .nonZeroReserved
  validateRoot (rootFields bytes)
  .ok (rootFields bytes)

/-- The digest of a root is over its bytes without the checksum. -/
def rootDigest (root : Root) : Except CatalogError Digest := do
  let bytes ← encodeRoot root
  .ok (Codec.blake3 (slice bytes 0 rootChecksumOffset))

end

/-! ## Volumes -/

inductive VolumeState where
  | creating | ready | deleting
  deriving DecidableEq, Repr

inductive Provisioning where
  | thin | thick
  deriving DecidableEq, Repr

def VolumeState.fromInt : Nat → Option VolumeState
  | 1 => some .creating
  | 2 => some .ready
  | 3 => some .deleting
  | _ => none

def Provisioning.fromInt : Nat → Option Provisioning
  | 1 => some .thin
  | 2 => some .thick
  | _ => none

/-- The name of a volume: the used bytes. -/
abbrev Name := List UInt8

/-- The UTF-8 check of the standard library. -/
def utf8ValidateSlice (bytes : List UInt8) : Bool := bytes.toByteArray.validateUTF8

def validateName (name : Name) : Except CatalogError Unit :=
  rejectIf (name.length = 0 ∨ name.length > maxVolumeNameLen ∨ ¬ utf8ValidateSlice name)
    .invalidVolumeName

structure VolumeDescriptor where
  volumeId : Id
  state : VolumeState
  provisioning : Provisioning
  createdNs : Int
  logicalSize : Nat
  headerPage : PageReference
  extentMapRoot : PageReference
  allocatedExtentCount : Nat
  reservedExtentCount : Nat
  extentSize : Nat
  name : Name
  flags : Nat
  deriving DecidableEq, Repr

/-- Quotient rounded up. -/
def divCeil (a b : Nat) : Nat := (a + b - 1) / b

variable (descriptor : VolumeDescriptor)

def VolumeDescriptor.logicalExtentCount : Nat :=
  divCeil descriptor.logicalSize descriptor.extentSize

def validateVolume : Except CatalogError Unit := do
  rejectIf (descriptor.volumeId = 0) .invalidVolumeId
  rejectIf (descriptor.logicalSize < 256 * 1024 ∨ descriptor.logicalSize > 4294967295 * pageSize ∨
    descriptor.logicalSize % pageSize ≠ 0) .invalidVolumeSize
  rejectIf (¬ PoolLayout.isPowerOfTwo descriptor.extentSize ∨ descriptor.extentSize < pageSize)
    .invalidExtentSize
  let committed ← addU64 descriptor.allocatedExtentCount descriptor.reservedExtentCount
    .extentCountOverflow
  rejectIf (committed > descriptor.logicalExtentCount) .invalidExtentCount
  rejectIf (descriptor.provisioning = .thick ∧ committed ≠ descriptor.logicalExtentCount)
    .incompleteThickReservation
  descriptor.headerPage.validate
  descriptor.extentMapRoot.validate
  rejectIf descriptor.headerPage.isNull .missingVolumeHeader
  rejectIf ((descriptor.provisioning = .thick ∨ descriptor.allocatedExtentCount ≠ 0) ∧
    descriptor.extentMapRoot.isNull) .missingExtentMap
  rejectIf (descriptor.provisioning = .thin ∧ descriptor.allocatedExtentCount = 0 ∧
    ¬ descriptor.extentMapRoot.isNull) .unexpectedExtentMap
  validateName descriptor.name
  rejectIf (descriptor.flags ≠ 0) .invalidVolumeFlags

/-- A signed 64-bit integer in two's complement. -/
def getI64 (bytes : List UInt8) (offset : Nat) : Int :=
  let n := getInt 8 bytes offset
  if n < 2 ^ 63 then n else (n : Int) - 2 ^ 64

/-- The decoder of the 512 bytes of a volume descriptor. -/
def decodeVolume [Codec] (bytes : List UInt8) : Except CatalogError VolumeDescriptor := do
  rejectIf (getInt 4 bytes volumeChecksumOffset ≠
    Codec.crc32c (slice bytes 0 volumeChecksumOffset)) .checksumMismatch
  rejectIf (slice bytes 0 8 ≠ volumeMagic) .invalidMagic
  rejectIf (getInt 2 bytes 0x008 ≠ volumeFormatVersion) .unsupportedFormatVersion
  rejectIf (getInt 2 bytes 0x00e ≠ volumeNameOffset ∨ getInt 2 bytes 0x092 ≠ 0) .invalidVolumeHeader
  let nameLength := getInt 2 bytes 0x090
  rejectIf (nameLength = 0 ∨ nameLength > maxVolumeNameLen) .invalidVolumeName
  rejectIf (¬ isZero (slice bytes 0x09c (volumeNameOffset - 0x09c)) ∨
      ¬ isZero (slice bytes (volumeNameOffset + nameLength)
        (volumeChecksumOffset - (volumeNameOffset + nameLength)))) .nonZeroReserved
  let state ← orElseFail (VolumeState.fromInt (getInt 2 bytes 0x00a)) .invalidVolumeState
  let provisioning ← orElseFail (Provisioning.fromInt (getInt 2 bytes 0x00c)) .invalidProvisioning
  let name := slice bytes volumeNameOffset nameLength
  rejectIf (¬ utf8ValidateSlice name) .invalidVolumeName
  let descriptor : VolumeDescriptor :=
    { volumeId := getId bytes 0x010
      state := state
      provisioning := provisioning
      createdNs := getI64 bytes 0x020
      logicalSize := getInt 8 bytes 0x028
      headerPage := getPageReference bytes 0x030
      extentMapRoot := getPageReference bytes 0x058
      allocatedExtentCount := getInt 8 bytes 0x080
      reservedExtentCount := getInt 8 bytes 0x088
      extentSize := getInt 4 bytes 0x098
      name := name
      flags := getInt 4 bytes 0x094 }
  validateVolume descriptor
  .ok descriptor

/-! ## Extent runs -/

inductive ExtentState where
  | reservedZero | mapped
  deriving DecidableEq, Repr

def ExtentState.fromInt : Nat → Option ExtentState
  | 1 => some .reservedZero
  | 2 => some .mapped
  | _ => none

/-- A run of extents of a volume and where they lie. The source keeps the member slots in an array
of three with a count; `memberSlots` is the used part. -/
structure ExtentRun where
  logicalStart : Nat
  physicalStart : Nat
  extentCount : Nat
  state : ExtentState
  memberSlots : List Nat
  flags : Nat
  deriving DecidableEq, Repr

def validateExtentRun (run : ExtentRun) : Except CatalogError Unit := do
  rejectIf (run.extentCount = 0) .emptyExtentRun
  rejectIf (run.logicalStart + run.extentCount > maxU64) .extentRunOverflow
  rejectIf (run.physicalStart + run.extentCount > maxU64) .extentRunOverflow
  rejectIf (run.memberSlots.length ≠ 1 ∧ run.memberSlots.length ≠ 3) .invalidExtentMemberCount
  rejectIf (¬ run.memberSlots.IsChain (· < ·)) .nonCanonicalMemberSlots
  rejectIf (run.flags ≠ 0) .invalidExtentFlags

def ExtentRun.canMerge (left right : ExtentRun) : Bool :=
  (value (validateExtentRun left)).isSome && (value (validateExtentRun right)).isSome &&
    left.extentCount + right.extentCount ≤ 4294967295 &&
    left.logicalStart + left.extentCount = right.logicalStart &&
    left.physicalStart + left.extentCount = right.physicalStart &&
    left.state = right.state && left.memberSlots = right.memberSlots && left.flags = right.flags

/-- The decoder of the 64 bytes of an extent run. -/
def decodeExtentRun [Codec] (bytes : List UInt8) : Except CatalogError ExtentRun := do
  rejectIf (getInt 4 bytes extentChecksumOffset ≠
    Codec.crc32c (slice bytes 0 extentChecksumOffset)) .checksumMismatch
  rejectIf (¬ isZero (slice bytes extentReservedOffset
    (extentChecksumOffset - extentReservedOffset))) .nonZeroReserved
  let state ← orElseFail (ExtentState.fromInt (getInt 2 bytes 0x014)) .invalidExtentState
  let memberCount := getInt 2 bytes 0x016
  rejectIf (memberCount ≠ 1 ∧ memberCount ≠ 3) .invalidExtentMemberCount
  let usedSlotsEnd := 0x018 + memberCount * 2
  rejectIf (¬ isZero (slice bytes usedSlotsEnd (0x020 - usedSlotsEnd)) ∨
    ¬ isZero (slice bytes extentReservedOffset (extentChecksumOffset - extentReservedOffset)))
    .nonZeroReserved
  let run : ExtentRun :=
    { logicalStart := getInt 8 bytes 0x000
      physicalStart := getInt 8 bytes 0x008
      extentCount := getInt 4 bytes 0x010
      state := state
      memberSlots := (range memberCount).map fun index => getInt 2 bytes (0x018 + index * 2)
      flags := getInt 4 bytes 0x020 }
  validateExtentRun run
  .ok run

def shareMemberSlot (left right : ExtentRun) : Bool :=
  left.memberSlots.any fun slot => right.memberSlots.contains slot

/-- The loop state of `validateExtentRuns`. -/
structure ExtentTally where
  allocated : Nat
  reserved : Nat
  logicalFrontier : Nat
  deriving DecidableEq, Repr

/-- One run in the loop of `validateExtentRuns`; `previous` are the runs before it. -/
def tallyExtentRun (previous : List ExtentRun) (run : ExtentRun)
    (tally : ExtentTally) : Except CatalogError ExtentTally := do
  validateExtentRun run
  let logicalEnd ← addU64 run.logicalStart run.extentCount .overflow
  rejectIf (logicalEnd > descriptor.logicalExtentCount) .extentOutsideVolume
  rejectIf (previous ≠ [] ∧ run.logicalStart < tally.logicalFrontier) .overlappingLogicalExtents
  rejectIf (∃ last ∈ previous.getLast?, last.canMerge run) .nonCanonicalExtentRuns
  rejectIf (∃ other ∈ previous, run.physicalStart < other.physicalStart + other.extentCount ∧
      other.physicalStart < run.physicalStart + run.extentCount ∧ shareMemberSlot other run)
    .overlappingPhysicalExtents
  let counted ← match run.state with
    | .mapped => do
        let allocated ← addU64 tally.allocated run.extentCount .overflow
        .ok { tally with allocated := allocated }
    | .reservedZero => do
        rejectIf (descriptor.provisioning = .thin) .thinReservedZeroExtent
        let reserved ← addU64 tally.reserved run.extentCount .overflow
        .ok { tally with reserved := reserved }
  rejectIf (descriptor.provisioning = .thick ∧ run.logicalStart ≠ tally.logicalFrontier)
    .incompleteThickExtentMap
  .ok { counted with logicalFrontier := logicalEnd }

def tallyExtentRuns (descriptor : VolumeDescriptor) (previous : List ExtentRun) :
    List ExtentRun → ExtentTally → Except CatalogError ExtentTally
  | [], tally => .ok tally
  | run :: rest, tally => do
      let tally ← tallyExtentRun descriptor previous run tally
      tallyExtentRuns descriptor (previous ++ [run]) rest tally

def validateExtentRuns (runs : List ExtentRun) :
    Except CatalogError Unit := do
  validateVolume descriptor
  let tally ← tallyExtentRuns descriptor [] runs ⟨0, 0, 0⟩
  rejectIf (tally.allocated ≠ descriptor.allocatedExtentCount) .allocatedExtentCountMismatch
  rejectIf (descriptor.provisioning = .thick ∧ (tally.reserved ≠ descriptor.reservedExtentCount ∨
    tally.logicalFrontier ≠ descriptor.logicalExtentCount))
    .reservedExtentCountMismatch

/-! ## Placement -/

structure MemberDataGeometry where
  slot : Nat
  dataLength : Nat
  deriving DecidableEq, Repr

/-- The data regions are made of whole extents and belong to different slots. -/
def validateDataGeometry (extentSize : Nat) (previous : List MemberDataGeometry)
    (geometry : MemberDataGeometry) : Except CatalogError Unit := do
  rejectIf (geometry.dataLength % extentSize ≠ 0) .invalidMemberDataGeometry
  rejectIf (∃ other ∈ previous, other.slot = geometry.slot) .duplicateMemberGeometry

/-- One replica of a run lies on a member that may hold it, inside its data region. -/
def validateReplica (topology : Topology) (members : List MemberDataGeometry)
    (physicalEndBytes : Nat) (slot : Nat) : Except CatalogError Unit := do
  let member ← orElseFail (topology.members.find? fun member => member.slot = slot)
    .extentPlacementMismatch
  rejectIf (member.state = .joining) .extentPlacementMismatch
  let geometry ← orElseFail (members.find? fun geometry => geometry.slot = slot)
    .missingMemberGeometry
  rejectIf (physicalEndBytes > geometry.dataLength) .extentOutsideMemberData

def validateRunPlacement (extentSize requiredMemberCount : Nat) (topology : Topology)
    (members : List MemberDataGeometry) (run : ExtentRun) : Except CatalogError Unit := do
  rejectIf (run.memberSlots.length ≠ requiredMemberCount) .extentPlacementMismatch
  let physicalEnd ← addU64 run.physicalStart run.extentCount .overflow
  let physicalEndBytes ← mulU64 physicalEnd extentSize .physicalExtentOverflow
  forAll (validateReplica topology members physicalEndBytes) run.memberSlots

/-- The number of members that hold an extent. -/
def requiredMemberCount (layout : Layout) : Except CatalogError Nat :=
  match layout.kind with
  | .unprotected => .ok 1
  | .replicated => .ok 3
  | .erasureCoded => .error .erasureCodingNotImplemented

def validateVolumeForPool (root : Root) (descriptor : VolumeDescriptor) (runs : List ExtentRun)
    (layout : Layout) (topology : Topology) (members : List MemberDataGeometry) :
    Except CatalogError Unit := do
  validateRoot root
  validateVolume descriptor
  validateExtentRuns descriptor runs
  ofControl (PoolLayout.validate layout)
  ofControl (PoolTopology.validate topology)
  let _ ← ofControl (PoolLayout.dataAccess layout topology)
  rejectIf (root.setId ≠ topology.setId) .catalogSetMismatch
  rejectIf (root.extentSize ≠ descriptor.extentSize ∨ root.extentSize ≠ layout.chunkSize)
    .extentSizeMismatch
  let required ← requiredMemberCount layout
  forAllWithPrevious (validateDataGeometry root.extentSize) [] members
  forAll (validateRunPlacement root.extentSize required topology members) runs

end PoolCatalog

end Zettide
