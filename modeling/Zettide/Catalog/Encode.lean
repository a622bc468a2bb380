import Zettide.Catalog.Graph

/-! # Encoders of the catalog pages

Translation of the encoders of `pool_catalog.zig`, `pool_catalog_page.zig` and
`catalog_volume_header.zig`. The source puts every field at its offset into a zeroed array. Here
the used bytes are written one field after the other, with the gaps of the format spelled out, and
`fit` fills the array up with zeros. -/

namespace Zettide

open Bytes List

/-- A signed 64-bit integer in two's complement. -/
def putI64 (n : Int) : List UInt8 := ofNat 8 (n % 2 ^ 64).toNat

@[simp] theorem length_putId (id : Id) : (putId id).length = 16 := by
  simp only [putId, length_reverse, length_ofNat]

@[simp] theorem length_putDigest (digest : Digest) : (putDigest digest).length = 32 := by
  simp only [putDigest, length_ofNat]

namespace PoolCatalog

/-! ## Root -/

@[simp] theorem length_putPageReference (reference : PageReference) :
    (putPageReference reference).length = 40 := by
  simp only [putPageReference, length_append, length_ofNat, length_putDigest]

theorem length_rootContent (root : Root) : (rootContent root).length = rootChecksumOffset := by
  unfold rootContent
  repeat rw [length_append]
  simp only [length_putPageReference, length_putId, length_putDigest, length_ofNat, length_zeros]
  decide

variable [Codec]

/-- The block of a root. -/
def rootBlock (root : Root) : Block where
  bytes := rootContent root ++ ofNat 4 (Codec.crc32c (rootContent root))
  length_bytes := by
    rw [length_append, length_rootContent, length_ofNat]
    rfl

/-! ## Volumes and extent runs -/

def VolumeState.toInt : VolumeState → Nat
  | .creating => 1
  | .ready => 2
  | .deleting => 3

def Provisioning.toInt : Provisioning → Nat
  | .thin => 1
  | .thick => 2

def ExtentState.toInt : ExtentState → Nat
  | .reservedZero => 1
  | .mapped => 2

/-- The bytes of a volume descriptor up to its checksum. -/
def volumeContent (descriptor : VolumeDescriptor) : List UInt8 :=
  fit volumeChecksumOffset (volumeMagic ++ ofNat 2 volumeFormatVersion ++
    ofNat 2 descriptor.state.toInt ++ ofNat 2 descriptor.provisioning.toInt ++
    ofNat 2 volumeNameOffset ++ putId descriptor.volumeId ++ putI64 descriptor.createdNs ++
    ofNat 8 descriptor.logicalSize ++ putPageReference descriptor.headerPage ++
    putPageReference descriptor.extentMapRoot ++ ofNat 8 descriptor.allocatedExtentCount ++
    ofNat 8 descriptor.reservedExtentCount ++ ofNat 2 descriptor.name.length ++ ofNat 2 0 ++
    ofNat 4 descriptor.flags ++ ofNat 4 descriptor.extentSize ++ zeros 4 ++ descriptor.name)

def encodeVolume (descriptor : VolumeDescriptor) : Except CatalogError (List UInt8) := do
  validateVolume descriptor
  .ok (volumeContent descriptor ++ ofNat 4 (Codec.crc32c (volumeContent descriptor)))

/-- The bytes of an extent run up to its checksum. There is room for four member slots, of which a
run uses one or three. -/
def extentRunContent (run : ExtentRun) : List UInt8 :=
  fit extentChecksumOffset (ofNat 8 run.logicalStart ++ ofNat 8 run.physicalStart ++
    ofNat 4 run.extentCount ++ ofNat 2 run.state.toInt ++ ofNat 2 run.memberSlots.length ++
    fit 8 (run.memberSlots.flatMap (ofNat 2)) ++ ofNat 4 run.flags)

def encodeExtentRun (run : ExtentRun) : Except CatalogError (List UInt8) := do
  validateExtentRun run
  .ok (extentRunContent run ++ ofNat 4 (Codec.crc32c (extentRunContent run)))

end PoolCatalog

/-! ## Volume headers -/

namespace CatalogVolumeHeader

def State.toInt : State → Nat
  | .creating => 1
  | .ready => 2

/-- The bytes of a volume header up to its checksum. -/
def headerContent (header : Header) : List UInt8 :=
  fit checksumOffset (magic ++ ofNat 2 2 ++ ofNat 2 0 ++ ofNat 4 encodedSize ++
    ofNat 8 header.sequence ++ ofNat 1 header.state.toInt ++ zeros 3 ++ ofNat 4 1 ++
    putId header.uuid ++ putI64 header.createdNs ++ ofNat 8 header.logicalSize ++
    ofNat 8 header.payloadStart ++ ofNat 4 header.blockSize ++ ofNat 4 header.blockCount ++
    ofNat 4 header.readSize ++ ofNat 4 header.programSize ++ ofNat 4 header.nameMax ++
    ofNat 4 header.fileMax ++ ofNat 4 header.attrMax ++ ofNat 1 header.label.length ++ zeros 3 ++
    fit 128 header.label ++ ofNat 8 header.userFileMax ++ ofNat 4 header.objectVersion ++
    ofNat 4 header.extentSize)

def encode [Codec] (header : Header) : Block where
  bytes := headerContent header ++ ofNat 4 (Codec.crc32c (headerContent header))
  length_bytes := by
    rw [length_append, length_ofNat, headerContent, length_fit]
    rfl

end CatalogVolumeHeader

/-! ## Pages -/

namespace PoolCatalogPage

open PoolCatalog

def Kind.toInt : Kind → Nat
  | .volumeIndex => 1
  | .nameIndex => 2
  | .extentMap => 3
  | .physicalAllocator => 4
  | .retiredExtents => 5
  | .metadataAllocator => 6

def MetadataIntervalState.toInt : MetadataIntervalState → Nat
  | .free => 1
  | .retired => 2

/-- The header of a page; the entries follow it. -/
def headerBytes (header : Header) : List UInt8 :=
  magic ++ ofNat 2 formatVersion ++ ofNat 2 header.kind.toInt ++ ofNat 2 0 ++
    ofNat 2 header.entryCount ++ ofNat 2 header.entrySize ++ ofNat 2 headerSize ++ ofNat 4 0 ++
    ofNat 8 header.generation ++ putId header.ownerId ++ zeros (headerSize - 0x030)

def beginPage (kind : Kind) (generation : Nat) (ownerId : Id) (entryCount : Nat) :
    Except CatalogError (List UInt8) := do
  rejectIf (generation = 0) .invalidPageGeneration
  rejectIf (¬ (kind = .extentMap ↔ ownerId ≠ 0)) .invalidPageOwner
  rejectIf (entryCount > 65535) .tooManyPageEntries
  let _ ← usedEnd (entrySize kind) entryCount
  .ok (headerBytes ⟨kind, entryCount, entrySize kind, generation, ownerId⟩)

section

variable [Codec]

/-- The block of a page from its header and entries. -/
def finishPage (used : List UInt8) : Block where
  bytes := fit checksumOffset used ++ ofNat 4 (Codec.crc32c (fit checksumOffset used))
  length_bytes := by
    rw [length_append, length_ofNat, length_fit]
    rfl

end

/-- The bytes of the entries, each checked by itself and compared with the one before it. -/
def encodeEntries {α : Type} (check : α → Except CatalogError Unit)
    (order : α → α → Except CatalogError Unit) (encode : α → Except CatalogError (List UInt8))
    (previous : Option α) : List α → Except CatalogError (List UInt8)
  | [] => .ok []
  | entry :: rest => do
      check entry
      withPrevious order previous entry
      let bytes ← encode entry
      let others ← encodeEntries check order encode (some entry) rest
      .ok (bytes ++ others)

def encodeNameEntry (entry : NameEntry) : List UInt8 :=
  fit nameEntrySize (putId entry.volumeId ++ ofNat 2 entry.name.length ++ zeros 14 ++ entry.name)

def encodePhysicalInterval (interval : PhysicalInterval) : List UInt8 :=
  ofNat 2 interval.memberSlot ++ zeros 6 ++ ofNat 8 interval.physicalStart ++
    ofNat 8 interval.extentCount ++ ofNat 8 interval.retiredGeneration

def encodeMetadataInterval (interval : MetadataInterval) : List UInt8 :=
  ofNat 8 interval.pageStart ++ ofNat 4 interval.pageCount ++ ofNat 2 interval.state.toInt ++
    zeros 2 ++ ofNat 8 interval.retiredGeneration ++ zeros 8

variable [Codec]

/-- What the five page encoders have in common. -/
def encodePage {α : Type} (kind : Kind) (ownerId : Id) (check : α → Except CatalogError Unit)
    (order : α → α → Except CatalogError Unit) (encode : α → Except CatalogError (List UInt8))
    (generation : Nat) (entries : List α) : Except CatalogError Block := do
  let header ← beginPage kind generation ownerId entries.length
  let body ← encodeEntries check order encode none entries
  .ok (finishPage (header ++ body))

variable (generation : Nat)

def encodeVolumeIndex (descriptors : List VolumeDescriptor) :
    Except CatalogError Block :=
  encodePage .volumeIndex 0 (fun _ => .ok ()) validateVolumeOrder encodeVolume generation
    descriptors

def encodeNameIndex (entries : List NameEntry) : Except CatalogError Block :=
  encodePage .nameIndex 0 validateNameEntry validateNameOrder
    (fun entry => .ok (encodeNameEntry entry)) generation entries

def encodeExtentMap (volumeId : Id) (runs : List ExtentRun) :
    Except CatalogError Block := do
  rejectIf (volumeId = 0) .invalidPageOwner
  encodePage .extentMap volumeId validateExtentRun validateRunOrder encodeExtentRun generation runs

def encodePhysicalIntervals (kind : IntervalKind) (generation : Nat)
    (intervals : List PhysicalInterval) : Except CatalogError Block :=
  encodePage kind.page 0 (validatePhysicalInterval kind generation) (validatePhysicalOrder kind)
    (fun interval => .ok (encodePhysicalInterval interval)) generation intervals

def encodeMetadataAllocator (intervals : List MetadataInterval) :
    Except CatalogError Block :=
  encodePage .metadataAllocator 0 (validateMetadataInterval generation) validateMetadataOrder
    (fun interval => .ok (encodeMetadataInterval interval)) generation intervals

/-- The reference to a block at an offset. -/
def pageReference (offset : Nat) (block : Block) : Except CatalogError PageReference := do
  PageReference.validate ⟨offset, Codec.blake3 block.bytes⟩
  .ok ⟨offset, Codec.blake3 block.bytes⟩

end PoolCatalogPage

/-! ## A small catalog

The first catalog of a pool with one member of twelve metadata pages and four extents, and one thin
volume without data. The checksum and the digest are stand-ins that tell its blocks apart. -/

namespace Sample

open PoolCatalog PoolCatalogPage PoolCatalogGraph

/-- A number for a byte string: 31 bytes behind the magic, and whether it is a whole block. -/
def hash (bytes : List UInt8) : Nat :=
  2 * toNat (slice bytes 8 31) + if bytes.drop rootChecksumOffset = [] then 0 else 1

theorem hash_lt (bytes : List UInt8) : hash bytes < 256 ^ 32 := by
  have hlength : (slice bytes 8 31).length ≤ 31 := by simp [slice]
  have hslice : toNat (slice bytes 8 31) < 256 ^ 31 :=
    (toNat_lt _).trans_le (Nat.pow_le_pow_right (by decide) hlength)
  have hflag : (if bytes.drop rootChecksumOffset = [] then 0 else 1) ≤ 1 := by split <;> decide
  unfold hash
  omega

instance codec : Codec where
  crc32c _ := 1
  blake3 := hash
  crc32c_lt _ := by decide
  blake3_lt := hash_lt

def topology : Topology := ⟨1, 1, 0, 1, [⟨2, 1, 1, .active, 3⟩], 0⟩

def layout : Layout := ⟨.unprotected, 1, 1, 1048576, 1, 0, 1, 1, 0, none⟩

def members : List MemberGeometry := [⟨2, 1, 12 * pageSize, 4 * 1048576⟩]

/-- The block that an encoder makes. -/
def encoded (block : Except CatalogError Block) : Block :=
  (value block).getD ⟨zeros blockSize, length_zeros _⟩

/-- The reference to a block on the given page. -/
def reference (page : Nat) (block : Block) : PageReference :=
  ⟨page * pageSize, Codec.blake3 block.bytes⟩

def volumeHeader : CatalogVolumeHeader.Header where
  sequence := 1
  state := .ready
  uuid := 9
  createdNs := 123
  logicalSize := 4 * 1048576
  payloadStart := CatalogVolumeHeader.payloadOffset
  blockSize := 4096
  blockCount := 1024
  readSize := 4096
  programSize := 4096
  nameMax := 255
  fileMax := 2147483647
  attrMax := 1022
  userFileMax := 9223372036854775807
  objectVersion := 1
  extentSize := 1048576
  label := [0x61]

def headerBlock : Block := CatalogVolumeHeader.encode volumeHeader

def descriptor : VolumeDescriptor where
  volumeId := 9
  state := .ready
  provisioning := .thin
  createdNs := 123
  logicalSize := 4 * 1048576
  headerPage := reference 6 headerBlock
  extentMapRoot := .null
  allocatedExtentCount := 0
  reservedExtentCount := 0
  extentSize := 1048576
  name := [0x61]
  flags := 0

def volumeBlock : Block := encoded (encodeVolumeIndex 1 [descriptor])

def nameBlock : Block := encoded (encodeNameIndex 1 [⟨9, [0x61]⟩])

def allocatorBlock : Block := encoded (encodePhysicalIntervals .free 1 [⟨1, 0, 4, 0⟩])

def metadataBlock : Block := encoded (encodeMetadataAllocator 1 [⟨7, 5, .free, 0⟩])

def root : Root where
  setId := 1
  generation := 1
  sequence := 1
  previousRootDigest := 0
  volumeTreeRoot := reference 2 volumeBlock
  nameIndexRoot := reference 3 nameBlock
  allocatorRoot := reference 4 allocatorBlock
  retiredExtentRoot := .null
  metadataAllocatorRoot := reference 5 metadataBlock
  volumeCount := 1
  extentSize := 1048576
  extentFormatVersion := 1
  extentEntrySize := extentRunEncodedSize
  flags := 0

/-- The pages of the catalog, from the third page of the region on. -/
def pages : List Block := [volumeBlock, nameBlock, allocatorBlock, metadataBlock, headerBlock]

def graph : Graph where
  rootBytes := rootBlock root
  pages := pages.mapIdx fun index block => ⟨(index + 2) * pageSize, block⟩

def binding : AuthorityBinding := ⟨1, Codec.blake3 (rootContent root), topology, layout⟩

def catalog : ValidatedCatalog where
  root := root
  descriptors := [descriptor]
  names := [⟨9, [0x61]⟩]
  extentRuns := [[]]
  free := [⟨1, 0, 4, 0⟩]
  retired := []
  metadata := [⟨7, 5, .free, 0⟩]
  currentPages := [reference 2 volumeBlock, reference 3 nameBlock, reference 4 allocatorBlock,
    reference 5 metadataBlock, reference 6 headerBlock]
  members := members
  metadataPageCount := 12

theorem accepted : validateGraph binding graph members = .ok catalog := by decide +kernel

end Sample

end Zettide
