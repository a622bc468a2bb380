import Zettide.Catalog.Graph
import Zettide.Pool.Authority

/-! # The catalog store

Translation of `pool_catalog_store.zig`: how the catalog of an authority is found in the metadata
region of a member, and how the catalog of the next authority is put there. The region begins with
two copies of the root; a catalog is staged by writing its new pages and then its root over a copy
that the current authority does not need.

The operations that write are given by the writes they make, in order: `stageTransition`,
`stageInitialization`, `repairRootMirror` and `installWrites` return that list, or the error with
which they refuse before the first write. `settle` says what a region holds after some of the
writes: each may be durable, lost, or torn. The claim that guards the region, the mutex and the
freezing of a member after a failed write are not part of this model; every attempt is made on a
member that was opened again. -/

namespace Zettide.PoolCatalogStore

open Bytes PoolCatalog PoolCatalogPage PoolCatalogGraph

/-! ## The metadata region -/

/-- The metadata region of a member. -/
structure MetadataRegion where
  bytes : List UInt8
  deriving DecidableEq, Repr

variable (region : MetadataRegion)

/-- A block of the region. -/
def MetadataRegion.read (offset : Nat) : Except CatalogError Block :=
  if h : offset + blockSize ≤ region.bytes.length then
    .ok ⟨slice region.bytes offset blockSize, slice_length h⟩
  else .error .regionOutOfBounds

structure RegionWrite where
  offset : Nat
  block : Block
  deriving DecidableEq, Repr

/-- The position check that every write makes. -/
def MetadataRegion.position (write : RegionWrite) :
    Except CatalogError Unit :=
  rejectIf (write.offset + blockSize > region.bytes.length) .regionOutOfBounds

/-- What becomes of a write: it is durable, it is lost, or it was interrupted and leaves the given
bytes. -/
inductive Fate where
  | durable | lost
  | torn (left : Block)
  deriving DecidableEq, Repr

/-- The region with a block in place. A write out of bounds is refused and leaves it alone. -/
def MetadataRegion.put (offset : Nat) (block : Block) :
    MetadataRegion :=
  if offset + blockSize ≤ region.bytes.length then ⟨patch region.bytes offset block.bytes⟩
  else region

def MetadataRegion.after (write : RegionWrite) : Fate → MetadataRegion
  | .durable => region.put write.offset write.block
  | .lost => region
  | .torn left => region.put write.offset left

/-- The region after a list of writes. A write without a fate was not reached. -/
def settle (region : MetadataRegion) : List RegionWrite → List Fate → MetadataRegion
  | write :: writes, fate :: fates => settle (region.after write fate) writes fates
  | _, _ => region

/-- The region after writes that are all durable. -/
def complete (writes : List RegionWrite) : MetadataRegion :=
  settle region writes (writes.map fun _ => Fate.durable)

/-! ## Root copies -/

inductive RootSlot where
  | a | b
  deriving DecidableEq, Repr

def rootOffset : RootSlot → Nat
  | .a => 0
  | .b => pageSize

structure ValidRoot where
  root : Root
  bytes : Block
  digest : Digest
  deriving DecidableEq, Repr

inductive RootCandidate where
  | zero
  | unreadable (reason : CatalogError)
  | invalid (bytes : Block) (reason : CatalogError)
  | valid (root : ValidRoot)
  deriving DecidableEq, Repr

structure RootCopies where
  a : RootCandidate
  b : RootCandidate
  deriving DecidableEq, Repr

structure RootSelection where
  authoritative : ValidRoot
  target : RootSlot
  mirrorDegraded : Bool
  deriving DecidableEq, Repr

section

variable [Codec]

def decodeRootCandidate (block : Block) : RootCandidate :=
  if isZero block.bytes then .zero
  else
    match decodeRoot block with
    | .error reason => .invalid block reason
    | .ok root =>
      match rootDigest root with
      | .error reason => .invalid block reason
      | .ok digest => .valid ⟨root, block, digest⟩

def readRootCandidate (region : MetadataRegion) (slot : RootSlot) : RootCandidate :=
  match region.read (rootOffset slot) with
  | .error reason => .unreadable reason
  | .ok block => decodeRootCandidate block

def readRootCopies (region : MetadataRegion) : RootCopies :=
  ⟨readRootCandidate region .a, readRootCandidate region .b⟩

end

def candidateMatches (candidate : RootCandidate) (authority : PoolAuthority.Authority) : Bool :=
  match candidate with
  | .valid valid =>
    valid.root.generation = authority.generation &&
      valid.root.setId = authority.topology.setId && valid.digest = authority.dataRootDigest
  | _ => false

/-- The root of a copy that is known to match. -/
def RootCandidate.validRoot : RootCandidate → Option ValidRoot
  | .valid root => some root
  | _ => none

/-- The copy that holds the root of the authority, and the one to write over: the other copy, or
the first one when both hold it. -/
def selectAuthorityRoot (copies : RootCopies) (authority : PoolAuthority.Authority) :
    Except CatalogError RootSelection := do
  rejectIf (authority.generation = 0 ∨ authority.dataRootDigest = 0) .genesisHasNoCatalogRoot
  let aMatches := candidateMatches copies.a authority
  let bMatches := candidateMatches copies.b authority
  rejectIf (aMatches = false ∧ bMatches = false) .authorityRootUnavailable
  let authoritative ← orElseFail (if aMatches then copies.a.validRoot else copies.b.validRoot)
    .authorityRootUnavailable
  .ok { authoritative := authoritative
        target := if aMatches ∧ ¬ bMatches then .b else .a
        mirrorDegraded := aMatches != bMatches }

/-! ## Loading -/

/-- The result of a load, with the graph it leaves in the scratch of its caller. -/
structure LoadedCatalog where
  selection : RootSelection
  validated : ValidatedCatalog
  graph : Graph
  deriving DecidableEq, Repr

/-- What the authority says about its catalog. -/
def bindingOf (authority : PoolAuthority.Authority) : AuthorityBinding where
  generation := authority.generation
  dataRootDigest := authority.dataRootDigest
  topology := authority.topology
  layout := authority.layout

section

variable [Codec]

variable (region : MetadataRegion)

def loadPage (images : List PageImage) (reference : PageReference) :
    Except CatalogError (List PageImage) :=
  if reference.isNull then .ok images
  else do
    reference.validate
    match images.find? fun image => image.offset = reference.offset with
    | some image => do
        rejectIf (Codec.blake3 image.block.bytes ≠ reference.digest) .conflictingPageReference
        .ok images
    | none => do
        rejectIf (images.length = maxCurrentPageCount) .tooManyCatalogPages
        let block ← region.read reference.offset
        rejectIf (Codec.blake3 block.bytes ≠ reference.digest) .pageDigestMismatch
        .ok (images ++ [⟨reference.offset, block⟩])

def loadPages (region : MetadataRegion) :
    List PageReference → List PageImage → Except CatalogError (List PageImage)
  | [], images => .ok images
  | reference :: rest, images => do
      let images ← loadPage region images reference
      loadPages region rest images

/-- The pages of one volume. -/
def volumeReferences (descriptor : VolumeDescriptor) : List PageReference :=
  [descriptor.headerPage, descriptor.extentMapRoot]

/-- The pages of the volumes, found through the volume index. -/
def loadVolumePages (root : Root) (images : List PageImage) :
    Except CatalogError (List PageImage) :=
  if root.volumeTreeRoot.isNull then .ok images
  else do
    let image ← orElseFail
      (images.find? fun image => image.offset = root.volumeTreeRoot.offset)
      .missingVolumeIndexPage
    let descriptors ← decodeVolumeIndex image.block maxVolumeCount
    loadPages region (descriptors.flatMap volumeReferences) images

def loadAuthorityCatalog (authority : PoolAuthority.Authority)
    (geometry : List MemberGeometry) : Except CatalogError LoadedCatalog := do
  let selection ← selectAuthorityRoot (readRootCopies region) authority
  let root := selection.authoritative.root
  let images ← loadPages region root.references []
  let images ← loadVolumePages region root images
  let graph : Graph := ⟨selection.authoritative.bytes, images⟩
  let validated ← validateGraph (bindingOf authority) graph geometry
  .ok ⟨selection, validated, graph⟩

/-! ## Staging -/

/-- The writes of a staging operation: its pages, then its root. -/
structure Staging where
  pages : List RegionWrite
  target : RootSlot
  root : Block
  deriving DecidableEq, Repr

def Staging.writes (staging : Staging) : List RegionWrite :=
  staging.pages ++ [⟨rootOffset staging.target, staging.root⟩]

/-- The staging without an interruption, refused when a write is out of bounds. -/
def Staging.run (staging : Staging) (region : MetadataRegion) :
    Except CatalogError MetadataRegion := do
  forAll region.position staging.writes
  .ok (complete region staging.writes)

def validateGraphRoot (current : ValidatedCatalog) (graph : Graph) : Except CatalogError Unit := do
  let root ← decodeRoot graph.rootBytes
  rejectIf (root ≠ current.root) .stagedRootMismatch

/-- The image of a page; the first image at its offset has to have the digest. -/
def findImage (images : List PageImage) (reference : PageReference) : Option PageImage :=
  match images.find? fun image => image.offset = reference.offset with
  | none => none
  | some image => if Codec.blake3 image.block.bytes ≠ reference.digest then none else some image

/-- The write for one page of the new catalog. A page that the previous catalog has at the same
place is not written; its bytes are checked instead. -/
def stagePage (previousPages : List PageReference) (graph : Graph)
    (reference : PageReference) : Except CatalogError (Option RegionWrite) :=
  match previousPages.find? fun previous => previous.offset = reference.offset with
  | some previous => do
      rejectIf (previous.digest ≠ reference.digest) .metadataPageModifiedInPlace
      let block ← region.read reference.offset
      rejectIf (Codec.blake3 block.bytes ≠ reference.digest) .sharedPageDigestMismatch
      .ok none
  | none => do
      let image ← orElseFail (findImage graph.pages reference) .missingPageImage
      .ok (some ⟨reference.offset, image.block⟩)

def stageEach (region : MetadataRegion) (previousPages : List PageReference) (graph : Graph) :
    List PageReference → Except CatalogError (List RegionWrite)
  | [] => .ok []
  | reference :: rest => do
      let write ← stagePage region previousPages graph reference
      let writes ← stageEach region previousPages graph rest
      .ok (write.toList ++ writes)

def stagePages (previousPages : List PageReference)
    (current : ValidatedCatalog) (graph : Graph) : Except CatalogError (List RegionWrite) := do
  let writes ← stageEach region previousPages graph current.currentPages
  forAll region.position writes
  .ok writes

def stageTransition (authority : PoolAuthority.Authority)
    (previous current : ValidatedCatalog) (graph : Graph) : Except CatalogError Staging := do
  let selection ← selectAuthorityRoot (readRootCopies region) authority
  rejectIf (selection.authoritative.root ≠ previous.root) .memberAuthorityRootMismatch
  validateGraphRoot current graph
  let pages ← stagePages region previous.currentPages current graph
  .ok ⟨pages, selection.target, graph.rootBytes⟩

/-- The write that makes both root copies equal again. -/
def repairRootMirror (authority : PoolAuthority.Authority)
    (rootBytes : Block) : Except CatalogError Staging := do
  let selection ← selectAuthorityRoot (readRootCopies region) authority
  let root ← decodeRoot rootBytes
  let digest ← rootDigest root
  rejectIf (digest ≠ authority.dataRootDigest) .catalogAuthorityDigestMismatch
  .ok ⟨[], selection.target, rootBytes⟩

end

/-! ## Initialization and installation -/

/-- The number of equal leading bytes. -/
def commonPrefix : List UInt8 → List UInt8 → Nat
  | x :: xs, y :: ys => if x = y then commonPrefix xs ys + 1 else 0
  | _, _ => 0

/-- The bytes are a proper, non-empty part of the expected ones, with zeros behind it. -/
def isExpectedPrefix (actual expected : List UInt8) : Bool :=
  if actual.length ≠ expected.length then false
  else
    let split := commonPrefix actual expected
    split ≠ 0 && split ≠ actual.length && isZero (actual.drop split)

inductive InitializationCandidate where
  | zero | found | conflict
  deriving DecidableEq, Repr

def initializationCandidate (candidate : RootCandidate) (expectedRoot : Block) :
    Except CatalogError InitializationCandidate :=
  match candidate with
  | .zero => .ok .zero
  | .valid valid => .ok (if valid.bytes = expectedRoot then .found else .conflict)
  | .invalid bytes _ =>
    .ok (if isExpectedPrefix bytes.bytes expectedRoot.bytes then .found else .conflict)
  | .unreadable _ => .error .metadataRootSlotUnreadable

def selectInitializationTarget (copies : RootCopies) (authority : PoolAuthority.Authority)
    (expectedRoot : Block) : Except CatalogError RootSlot := do
  rejectIf (authority.generation ≠ 0 ∨ authority.dataRootDigest ≠ 0) .notGenesisAuthority
  let a ← orElseFail (value (initializationCandidate copies.a expectedRoot))
    .metadataRootSlotConflict
  let b ← orElseFail (value (initializationCandidate copies.b expectedRoot))
    .metadataRootSlotConflict
  rejectIf (a = .conflict ∨ b = .conflict) .metadataRootSlotConflict
  .ok (if a = .found then .a else if b = .found then .b else .a)

variable [Codec]

variable (region : MetadataRegion)

def stageInitialization (authority : PoolAuthority.Authority)
    (current : ValidatedCatalog) (graph : Graph) : Except CatalogError Staging := do
  let target ← selectInitializationTarget (readRootCopies region) authority graph.rootBytes
  validateGraphRoot current graph
  let pages ← stagePages region [] current graph
  .ok ⟨pages, target, graph.rootBytes⟩

/-- Whether a root copy of the target has to be written. -/
def installRootNeedsWrite (candidate : RootCandidate) (expected : Block) :
    Except CatalogError Bool :=
  match candidate with
  | .zero => .ok true
  | .valid valid =>
    if valid.bytes = expected then .ok false else .error .metadataRootSlotConflict
  | .invalid bytes _ =>
    if isExpectedPrefix bytes.bytes expected.bytes then .ok true
    else .error .metadataRootSlotConflict
  | .unreadable _ => .error .metadataRootSlotUnreadable

/-- The write for one page of the source, if the target does not hold it yet. -/
def installPage (image : PageImage) :
    Except CatalogError (Option RegionWrite) := do
  let actual ← region.read image.offset
  if actual = image.block then .ok none
  else do
    rejectIf (¬ isZero actual.bytes ∧ ¬ isExpectedPrefix actual.bytes image.block.bytes)
      .metadataPageConflict
    .ok (some ⟨image.offset, image.block⟩)

def installPages (region : MetadataRegion) : List PageImage → Except CatalogError (List RegionWrite)
  | [] => .ok []
  | image :: rest => do
      let write ← installPage region image
      let writes ← installPages region rest
      .ok (write.toList ++ writes)

/-- The writes of an installation: the missing pages, then the missing root copies. -/
def installWrites (authority : PoolAuthority.Authority)
    (geometry : List MemberGeometry) (source : Graph) : Except CatalogError (List RegionWrite) := do
  let sourceRoot ← decodeRoot source.rootBytes
  let sourceDigest ← rootDigest sourceRoot
  rejectIf (sourceRoot.generation ≠ authority.generation ∨
      sourceRoot.setId ≠ authority.topology.setId ∨ sourceDigest ≠ authority.dataRootDigest)
    .catalogAuthorityRootMismatch
  let _ ← validateGraph (bindingOf authority) source geometry
  let copies := readRootCopies region
  let writeA ← installRootNeedsWrite copies.a source.rootBytes
  let writeB ← installRootNeedsWrite copies.b source.rootBytes
  let pages ← installPages region source.pages
  forAll region.position pages
  .ok (pages ++ (if writeA then [⟨rootOffset .a, source.rootBytes⟩] else []) ++
    if writeB then [⟨rootOffset .b, source.rootBytes⟩] else [])

/-- The installation without an interruption: its writes, then the load that verifies them. -/
def installAuthorityCatalog (authority : PoolAuthority.Authority)
    (geometry : List MemberGeometry) (source : Graph) :
    Except CatalogError (MetadataRegion × LoadedCatalog) := do
  let writes ← installWrites region authority geometry source
  forAll region.position writes
  let loaded ← loadAuthorityCatalog (complete region writes) authority geometry
  rejectIf (loaded.selection.mirrorDegraded = true) .catalogInstallIncomplete
  .ok (complete region writes, loaded)

end Zettide.PoolCatalogStore
