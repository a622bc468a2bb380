import Zettide.Catalog.Volume
import Zettide.Pool.MemberSet

/-! # The data plane of a member set

Translation of the data-plane part of `pool_member_set.zig` and of the data claims of
`member.zig`. The storage of a member is divided by its header: the control region is the journal
of `Member`, the metadata region holds the catalog and the data region the extents. `DataPlane`
has the last two of every member, with the claim on the data region.

`durable` is what is known to be on the medium: the data region at the last sync of the member. -/

namespace Zettide

open PoolCatalog PoolCatalogGraph PoolCatalogStore

inductive DataError where
  | set (error : OpenError)
  | catalog (error : CatalogError)
  | volume (error : VolumeError)
  | storageFailed
  -- members
  | regionOutOfBounds | readOnlyMember | writeFrozen | dataClaimSequenceExhausted
  | dataAlreadyClaimed | invalidDataClaim
  -- the member set
  | dataReadUnavailable | dataWriteUnavailable | dataMemberNotInTopology | dataMemberStillJoining
  | dataMemberUnavailable | memberGeometryIdentityMismatch | poolDataRequiresCatalogMode
  | genesisHasNoCatalogRoot | catalogReadQuorumUnavailable
  -- volumes and leases
  | poolAuthorityChanged | tooManyDataMembers | outOfBounds | extentNotMapped
  | invalidExtentMemberCount | replicaQuorumUnavailable | dataLeaseReleased | dataLeaseMismatch
  | dataClaimUnavailable
  -- publication
  | dataInitializationMismatch
  deriving DecidableEq, Repr

/-- The claim on the data region of a member, 0 if there is none, and the next identifier of one. -/
structure ClaimState where
  current : Nat
  sequence : Nat
  deriving DecidableEq, Repr

structure DataPlane where
  metadata : Id → MetadataRegion
  data : Id → List UInt8
  durable : Id → List UInt8
  claims : Id → ClaimState

/-- How a write to the data region of a member ends. A failed write leaves any bytes in the place
it was made to. -/
inductive DataOutcome where
  | done
  | failed (left : List UInt8)
  deriving DecidableEq, Repr

/-- How a sync of a member ends. After a failed one any bytes can be on the medium. -/
inductive SyncOutcome where
  | done
  | failed (left : List UInt8)
  deriving DecidableEq, Repr

namespace DataPlane

/-! ## Claims -/

variable (plane : DataPlane)

def setClaim (memberId : Id) (claim : ClaimState) : DataPlane :=
  { plane with claims := Function.update plane.claims memberId claim }

/-- A new claim. Its identifier is used up even if the region is already claimed. -/
def claimData (member : Member) : DataPlane × Except DataError Nat :=
  let memberId := member.header.memberId
  let id := (plane.claims memberId).sequence
  if member.mode ≠ .writable then (plane, .error .readOnlyMember)
  else if member.frozen then (plane, .error .writeFrozen)
  else if id = 0 ∨ id = maxU64 then (plane, .error .dataClaimSequenceExhausted)
  else if (plane.claims memberId).current ≠ 0 then
    (plane.setClaim memberId ⟨(plane.claims memberId).current, id + 1⟩, .error .dataAlreadyClaimed)
  else (plane.setClaim memberId ⟨id, id + 1⟩, .ok id)

def releaseDataClaim (memberId : Id) (claimId : Nat) : DataPlane :=
  if (plane.claims memberId).current = claimId then
    plane.setClaim memberId ⟨0, (plane.claims memberId).sequence⟩
  else plane

def validateDataClaim (memberId : Id) (claimId : Nat) : Except DataError Unit :=
  rejectIf (claimId = 0 ∨ (plane.claims memberId).current ≠ claimId) .invalidDataClaim

/-! ## The data region -/

/-- The piece is inside the data region. -/
def position (member : Member) (offset length : Nat) : Except DataError Unit :=
  rejectIf (offset > member.header.data.length ∨ length > member.header.data.length - offset)
    .regionOutOfBounds

/-- A read of the data region; it fails for the members that cannot be read. -/
def readData (member : Member) (unreadable : Bool) (offset length : Nat) :
    Except DataError (List UInt8) := do
  position member offset length
  rejectIf (unreadable = true) .storageFailed
  .ok (Bytes.slice (plane.data member.header.memberId) offset length)

/-- The checks of a write to a claimed data region. -/
def checkWrite (member : Member) (claimId offset length : Nat) :
    Except DataError Unit := do
  plane.validateDataClaim member.header.memberId claimId
  rejectIf (member.mode ≠ .writable) .readOnlyMember
  rejectIf (member.frozen = true) .writeFrozen
  position member offset length

def putData (memberId : Id) (offset : Nat) (bytes : List UInt8) : DataPlane :=
  { plane with
    data := Function.update plane.data memberId (Bytes.patch (plane.data memberId) offset bytes) }

def writeDataClaimed (member : Member) (claimId offset : Nat)
    (bytes : List UInt8) (outcome : DataOutcome) : DataPlane × Except DataError Unit :=
  match plane.checkWrite member claimId offset bytes.length with
  | .error e => (plane, .error e)
  | .ok () =>
    match outcome with
    | .done => (plane.putData member.header.memberId offset bytes, .ok ())
    | .failed left =>
      (plane.putData member.header.memberId offset (left.take bytes.length), .error .storageFailed)

/-- The checks of a sync of a claimed data region. -/
def checkSync (member : Member) (claimId : Nat) : Except DataError Unit := do
  plane.validateDataClaim member.header.memberId claimId
  rejectIf (member.mode ≠ .writable) .readOnlyMember
  rejectIf (member.frozen = true) .writeFrozen

def syncDataClaimed (member : Member) (claimId : Nat) (outcome : SyncOutcome) :
    DataPlane × Except DataError Unit :=
  let memberId := member.header.memberId
  match plane.checkSync member claimId with
  | .error e => (plane, .error e)
  | .ok () =>
    match outcome with
    | .done =>
      ({ plane with durable := Function.update plane.durable memberId (plane.data memberId) },
        .ok ())
    | .failed left =>
      ({ plane with durable := Function.update plane.durable memberId left }, .error .storageFailed)

end DataPlane

namespace PoolMemberSet

open PoolTopology

/-! ## Members of the data plane -/

/-- The first member of a topology with the slot. -/
def findSlot (topology : Topology) (slot : Nat) : Option TopologyMember :=
  topology.members.find? fun member => member.slot = slot

/-- The member has the data of its extents, although its catalog may have failed. -/
def holdsData (supplied : Supplied) : Bool :=
  hasAuthority supplied || decide (supplied.status = .catalogFailed)

variable (set : PoolMemberSet)

/-- What the lookups for reading and for writing share. -/
def dataMember (slot : Nat) : Except DataError Supplied := do
  let descriptor ← orElseFail (findSlot set.authority.topology slot) .dataMemberNotInTopology
  rejectIf (descriptor.state = .joining) .dataMemberStillJoining
  let member ← orElseFail (findSuppliedMember set.supplied descriptor.memberId)
    .dataMemberUnavailable
  rejectIf (holdsData member = false) .dataMemberUnavailable
  rejectIf (member.member.header.memberSlot ≠ slot) .memberGeometryIdentityMismatch
  .ok member

def dataMemberForRead (slot : Nat) : Except DataError Supplied := do
  rejectIf (set.dataAccess = .unavailable) .dataReadUnavailable
  dataMember set slot

def dataMemberForWrite (slot : Nat) : Except DataError Supplied := do
  rejectIf (set.dataAccess ≠ .readWrite) .dataWriteUnavailable
  let member ← dataMember set slot
  rejectIf (member.member.mode ≠ .writable ∨ member.member.frozen = true) .dataMemberUnavailable
  .ok member

/-- The set after a write to the storage of a member, or a sync of it: a storage that fails freezes
the member. -/
def afterStorage (memberId : Id) : Except DataError Unit → PoolMemberSet
  | .error .storageFailed =>
    { set with
      supplied := updateMember set.supplied memberId fun supplied =>
        { supplied with member := { supplied.member with frozen := true } } }
  | _ => set

/-- An access to the storage of a member of the set. -/
def access (plane : DataPlane) (memberId : Id) (run : Member → DataPlane × Except DataError Unit) :
    PoolMemberSet × DataPlane × Except DataError Unit :=
  match findSuppliedMember set.supplied memberId with
  | none => (set, plane, .error .dataMemberUnavailable)
  | some supplied =>
    match run supplied.member with
    | (plane, result) => (set.afterStorage memberId result, plane, result)

/-! ## The catalog -/

/-- The geometry of the supplied members of the topology. -/
def catalogGeometry : Except OpenError (List MemberGeometry) := do
  collectCatalogGeometry set
  .ok (set.authority.topology.members.filterMap fun descriptor =>
    (findSuppliedMember set.supplied descriptor.memberId).map fun supplied =>
      let header := supplied.member.header
      ⟨header.memberId, header.memberSlot, header.metadata.length, header.data.length⟩)

variable [Codec]

/-- The first catalog that loads, or the first error. -/
def firstLoaded (set : PoolMemberSet) (plane : DataPlane) (unreadable : Id → Bool)
    (geometry : List MemberGeometry) : List Id → Option DataError → Except DataError LoadedCatalog
  | [], none => .error .catalogReadQuorumUnavailable
  | [], some e => .error e
  | memberId :: rest, first =>
    if unreadable memberId then
      firstLoaded set plane unreadable geometry rest (first.or (some .storageFailed))
    else
      match loadAuthorityCatalog (plane.metadata memberId) set.authority geometry with
      | .ok loaded => .ok loaded
      | .error e =>
        firstLoaded set plane unreadable geometry rest (first.or (some (.catalog e)))

/-- The catalog of the authority, from the first voter that has it. -/
def loadCatalog (set : PoolMemberSet) (plane : DataPlane) (unreadable : Id → Bool) :
    Except DataError LoadedCatalog := do
  let mode ← withError .set (dataMode set)
  rejectIf (mode ≠ .catalog) .poolDataRequiresCatalogMode
  rejectIf (set.authority.generation = 0) .genesisHasNoCatalogRoot
  rejectIf (set.dataAccess = .unavailable) .dataReadUnavailable
  let geometry ← withError .set (catalogGeometry set)
  firstLoaded set plane unreadable geometry (catalogReaders set) none

end PoolMemberSet

end Zettide
