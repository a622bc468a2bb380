import Zettide.Pool.Authority
import Zettide.Journal.Create

/-! # Sets of open members

Translation of the control-plane part of `pool_member_set.zig`: opening the members of a pool,
selecting the authority, and classifying the members by it.

A supplied storage that is not a member of a pool is left out of the set. The journal of a
coordinator participant is kept with the member it writes to. What the catalog layer finds when a
set is opened is an input, one `CatalogLoad` for each member. -/

namespace Zettide

open PoolAuthority List

inductive OpenIntent where
  | diagnostic | readOnly | writable
  deriving DecidableEq, Repr

inductive MemberStatus where
  | removed | stale | catalogFailed | authority | activeVoter
  deriving DecidableEq, Repr

/-- A participant of the coordinator. -/
structure Seat where
  journal : Journal
  active : Bool
  deriving DecidableEq, Repr

/-- A member of the set. -/
structure Supplied where
  member : Member
  history : Option HistoryScan
  status : MemberStatus
  seat : Option Seat
  deriving DecidableEq, Repr

/-- Why a supplied storage is not a member of the set. -/
inductive ScanFailure where
  | openFailed | legacy | scanFailed
  deriving DecidableEq, Repr

/-- A storage as it is supplied, with the identity of the device. -/
structure Device where
  identity : Id
  storage : Storage
  deriving DecidableEq, Repr

/-- The identifier of a member. -/
def Supplied.id (supplied : Supplied) : Id := supplied.member.header.memberId

structure ControlWriteReady where
  tailHistoryDigest : Digest
  activeMembers : List Id
  reclaimRequired : Bool
  deriving DecidableEq, Repr

structure PoolMemberSet where
  supplied : List Supplied
  suppliedCount : Nat
  authority : Authority
  controlWrite : Option ControlWriteReady
  dataAccess : PoolPolicy.DataAccess
  recoveryOnly : Bool
  deriving DecidableEq, Repr

/-- What loading the catalog of a voter gives: it fails, both root copies are good, or the root has
to be repaired. -/
inductive CatalogLoad where
  | failed | loaded
  | degraded (repaired : Bool)
  deriving DecidableEq, Repr

inductive OpenError where
  | invalidMemberCount | duplicateStorage | legacyMemberUnsupported | noReadableMember
  | select (error : SelectError)
  | format (error : Error)
  | inconsistentMemberGeometry | poolDataRequiresCatalogMode | memberUnavailable
  | memberGeometryUnavailable | memberGeometryIdentityMismatch | catalogReadQuorumUnavailable
  | writeQuorumUnavailable | trustedMemberUnavailable | trustedMemberMismatch | journalNeedsRecovery
  | insufficientJournalCapacity | tooManyPoolMembers
  deriving DecidableEq, Repr

namespace PoolMemberSet

open PoolTopology MemberFormat

def samePoolGeometry (a b : Header) : Prop :=
  poolDataMode a = poolDataMode b ∧ a.logicalCapacity = b.logicalCapacity ∧
    a.control.offset = b.control.offset ∧ a.control.length = b.control.length ∧
    a.metadata.offset = b.metadata.offset ∧ a.metadata.length = b.metadata.length ∧
    a.data.offset = b.data.offset ∧ a.metadataBlockSize = b.metadataBlockSize ∧
    a.metadataReadSize = b.metadataReadSize ∧ a.metadataProgramSize = b.metadataProgramSize ∧
    a.chunkSize = b.chunkSize

instance (a b : Header) : Decidable (samePoolGeometry a b) :=
  inferInstanceAs (Decidable (_ ∧ _ ∧ _ ∧ _ ∧ _ ∧ _ ∧ _ ∧ _ ∧ _ ∧ _ ∧ _))

variable (supplied : List Supplied) {list : List Supplied} {memberId : Id}

/-- The member with the given identifier. -/
def findSuppliedMember (memberId : Id) : Option Supplied :=
  supplied.find? fun member => member.id = memberId

theorem findSuppliedMember_id {supplied : Supplied}
    (h : findSuppliedMember list memberId = some supplied) : supplied.id = memberId := by
  simpa using find?_some h

theorem findSuppliedMember_unique {found member : Supplied}
    (distinct : (list.map Supplied.id).Nodup) (h : findSuppliedMember list memberId = some found)
    (hmember : member ∈ list) (hid : member.id = memberId) : found = member :=
  inj_on_of_nodup_map distinct (mem_of_find?_eq_some h) hmember
    ((findSuppliedMember_id h).trans hid.symm)

/-- The histories of the set. -/
def histories : List HistoryScan :=
  supplied.filterMap Supplied.history

/-- The member has the event in its scanned history. -/
def hasEvent (supplied : Supplied) (historyDigest : Digest) : Bool :=
  match supplied.history with
  | none => false
  | some history => (history.findHistoryDigest historyDigest).isSome

/-! ## Scanning -/

section

variable [Blake3]

/-- A storage that opens as a member of a pool and has a record. -/
def scanMember (mode : OpenMode) (device : Device) : Except ScanFailure Supplied := do
  let member ← withError (fun _ => ScanFailure.openFailed) (Member.openStorage device.storage mode)
  rejectIf (¬ member.header.dynamicPool) ScanFailure.legacy
  let history ← withError (fun _ => ScanFailure.scanFailed)
    (Journal.scanHistory member.header member.storage.slots)
  rejectIf (history.entries = []) ScanFailure.scanFailed
  .ok ⟨member, some history, .stale, none⟩

/-- What each of the supplied storages is. -/
def scanStorages (devices : List Device) (mode : OpenMode) :
    Except OpenError (List (Except ScanFailure Supplied)) := do
  rejectIf (devices.length = 0 ∨ devices.length > PoolTopology.maxMemberCount) .invalidMemberCount
  rejectIf (¬ (devices.map Device.identity).Nodup) .duplicateStorage
  .ok (devices.map (scanMember mode))

end

/-! ## Classification -/

/-- Members that have the authority have the geometry of the first one of them. -/
def validateAuthorityGeometry (selected : Authority) :
    Except OpenError Unit :=
  let holders := supplied.filter fun member => hasEvent member selected.historyDigest
  rejectIf (∃ first ∈ holders.head?, ∃ member ∈ holders,
      ¬ samePoolGeometry first.member.header member.member.header)
    .inconsistentMemberGeometry

variable (selected : Authority)

/-- The journal has to be reclaimed before it can be written. -/
def needsReclaim (state : ScanResult) (tail : Record) : Bool :=
  state.anchored ||
    (state.journalFull && decide (selected.kind = .checkpoint) && decide (tail.kind = .checkpoint))

/-- The member can take part in writing after the authority. -/
def canWrite (intent : OpenIntent) (descriptor : TopologyMember)
    (member : Member) (state : ScanResult) (tail : Record) : Bool :=
  decide (intent = .writable) && decide (descriptor.controlRole = voterRole) &&
    decide (member.mode = .writable) && !member.frozen &&
    !(state.unresolvedTailDamage && !state.anchored) &&
    !(state.journalFull && !needsReclaim selected state tail) &&
    decide (tail.historyDigest = selected.historyDigest)

/-- The status of one member under the authority. -/
def classifyMember (intent : OpenIntent) (supplied : Supplied) :
    MemberStatus :=
  match findMember selected.topology supplied.id, supplied.history with
  | none, _ => .removed
  | some _, none => .stale
  | some descriptor, some history =>
    if (history.findHistoryDigest selected.historyDigest).isNone then .stale
    else
      match history.scanResult.tail with
      | none => .authority
      | some tail =>
        if canWrite selected intent descriptor supplied.member history.scanResult tail then
          .activeVoter
        else .authority

/-- An active voter whose journal has to be reclaimed. -/
def reclaims (supplied : Supplied) : Bool :=
  match supplied.history with
  | none => false
  | some history =>
    match history.scanResult.tail with
    | none => false
    | some tail => needsReclaim selected history.scanResult tail

/-- The members that hold data under a topology: those with one of the given statuses that are not
joining. -/
def availableDataMembers (topology : Topology) (supplied : List Supplied) : Nat :=
  supplied.countP fun member =>
    match findMember topology member.id with
    | none => false
    | some descriptor =>
      decide (descriptor.state ≠ .joining) &&
        (decide (member.status = .authority) || decide (member.status = .activeVoter) ||
          decide (member.status = .catalogFailed))

/-- The data access that the members allow. -/
def dataAccessOf (authority : Authority) (topology : Topology) (supplied : List Supplied) :
    PoolPolicy.DataAccess :=
  (value (PoolLayout.dataAccessForMemberCount authority.layout
    (availableDataMembers topology supplied))).getD .unavailable

def classifyMembers (suppliedCount : Nat) (scanned : List Supplied) (selected : Authority)
    (intent : OpenIntent) : PoolMemberSet :=
  let supplied := scanned.map fun member =>
    { member with status := classifyMember selected intent member }
  let active := supplied.filter fun member => member.status = .activeVoter
  { supplied := supplied
    suppliedCount := suppliedCount
    authority := selected
    controlWrite :=
      if intent = .writable ∧ selected.topology.quorum ≤ active.length then
        some ⟨selected.historyDigest, active.map Supplied.id, active.any (reclaims selected)⟩
      else none
    dataAccess := dataAccessOf selected selected.topology supplied
    recoveryOnly := false }

/-! ## The catalog of an opened set -/

/-- The member changed by `f`. -/
def updateMember (memberId : Id) (f : Supplied → Supplied) :
    List Supplied :=
  supplied.map fun member => if member.id = memberId then f member else member

def setStatus (memberId : Id) (status : MemberStatus) : List Supplied :=
  updateMember supplied memberId fun member => { member with status := status }

/-- The member has the authority: its catalog may be read. -/
def hasAuthority (supplied : Supplied) : Bool :=
  decide (supplied.status = .authority) || decide (supplied.status = .activeVoter)

variable (set : PoolMemberSet)

/-- A voter whose catalog failed does not take part in writing. -/
def invalidateCatalogVoter (memberId : Id) : PoolMemberSet :=
  { set with
    supplied := setStatus set.supplied memberId .catalogFailed
    controlWrite := set.controlWrite.bind fun ready =>
      let active := ready.activeMembers.filter fun other => other ≠ memberId
      if active.length < set.authority.topology.quorum then none
      else some { ready with activeMembers := active } }

def dataMode : Except OpenError PoolDataMode := do
  let holders := set.supplied.filter fun member =>
    hasAuthority member || decide (member.status = .catalogFailed)
  let first ← orElseFail holders.head? .memberUnavailable
  let mode := poolDataMode first.member.header
  rejectIf (∃ member ∈ holders, poolDataMode member.member.header ≠ mode)
    .inconsistentMemberGeometry
  .ok mode

/-- The geometry of one member of the topology can be collected. -/
def checkGeometry (descriptor : TopologyMember) : Except OpenError Unit :=
  match findSuppliedMember set.supplied descriptor.memberId with
  | none => rejectIf (descriptor.state ≠ .joining) .memberGeometryUnavailable
  | some member =>
    rejectIf (member.member.header.memberSlot ≠ descriptor.slot) .memberGeometryIdentityMismatch

/-- The checks of collecting the geometry; the geometry itself is read by the catalog loader. -/
def collectCatalogGeometry : Except OpenError Unit := do
  let mode ← dataMode set
  rejectIf (mode ≠ .catalog) .poolDataRequiresCatalogMode
  set.authority.topology.members.forM (checkGeometry set)

/-- The voters whose catalog is read, in the order of the topology. -/
def catalogReaders : List Id :=
  (set.authority.topology.members.filter fun descriptor =>
    decide (descriptor.controlRole = voterRole) &&
      (findSuppliedMember set.supplied descriptor.memberId).any hasAuthority).map
    TopologyMember.memberId

/-- Repairs the root copy of one voter, unless the write quorum is already lost. -/
def repairCatalogVoter (load : Id → CatalogLoad) (set : PoolMemberSet) (member : Supplied) :
    PoolMemberSet :=
  if set.controlWrite.isSome ∧ member.status = .activeVoter ∧
      load member.id = .degraded false then
    invalidateCatalogVoter set member.id
  else set

def reopenCatalog (intent : OpenIntent) (load : Id → CatalogLoad) :
    Except OpenError PoolMemberSet := do
  if set.authority.generation = 0 then .ok set
  else do
    collectCatalogGeometry set
    let readers := catalogReaders set
    let failed := readers.filter fun memberId => load memberId = .failed
    let loaded := failed.foldl invalidateCatalogVoter set
    withError .format (PoolLayout.validate set.authority.layout)
    let threshold ← withError .format (PoolLayout.readWidth set.authority.layout)
    rejectIf (readers.length - failed.length < threshold) .catalogReadQuorumUnavailable
    if intent ≠ .writable then .ok loaded
    else .ok (loaded.supplied.foldl (repairCatalogVoter load) loaded)

/-! ## Opening -/

section

variable [Blake3]

def finishOpen (scanned : List (Except ScanFailure Supplied)) (intent : OpenIntent)
    (load : Id → CatalogLoad) : Except OpenError PoolMemberSet := do
  let supplied := scanned.filterMap value
  rejectIf (supplied = [] ∧ .error .legacy ∈ scanned) .legacyMemberUnsupported
  rejectIf (supplied = []) .noReadableMember
  let selected ← withError .select (select (histories supplied))
  validateAuthorityGeometry supplied selected
  let set ← reopenCatalog (classifyMembers scanned.length supplied selected intent) intent load
  rejectIf (intent = .writable ∧ set.controlWrite = none) .writeQuorumUnavailable
  .ok set

def openStorages (devices : List Device) (intent : OpenIntent) (load : Id → CatalogLoad) :
    Except OpenError PoolMemberSet := do
  let scanned ← scanStorages devices (if intent = .writable then .writable else .readOnly)
  finishOpen scanned intent load

/-- The tail is a checkpoint that fills the journal and can be published again. -/
def resumableFullCheckpoint (state : ScanResult) : Bool :=
  state.journalFull &&
    state.tail.any fun tail =>
      PoolAuthorityCheckpoint.isSnapshotRecord tail &&
        (value (PoolAuthorityCheckpoint.validateCompactedRootRecord tail)).isSome

/-- Opening one trusted member for administrative recovery. -/
def openAdministrativeRecovery (device : Device) (trustedMemberId : Id) :
    Except OpenError PoolMemberSet := do
  let supplied ← withError (fun _ => .trustedMemberUnavailable) (scanMember .writable device)
  rejectIf (supplied.id ≠ trustedMemberId) .trustedMemberMismatch
  let history ← orElseFail supplied.history .trustedMemberUnavailable
  let state := history.scanResult
  rejectIf (state.unresolvedTailDamage ∧ ¬ state.anchored) .journalNeedsRecovery
  rejectIf (¬ state.anchored ∧ ¬ resumableFullCheckpoint state ∧
      Journal.availableSlotCount state < 3) .insufficientJournalCapacity
  let replayed ← withError .format (selectAdministrativeRecovery history)
  let selected := { replayed with administrativeRecovery := true }
  let set := classifyMembers 1 [supplied] selected .readOnly
  .ok { set with
        supplied := setStatus set.supplied trustedMemberId .activeVoter
        controlWrite := some ⟨selected.historyDigest, [trustedMemberId],
          state.anchored || resumableFullCheckpoint state⟩
        dataAccess := if selected.generation = 0 then set.dataAccess else .unavailable
        recoveryOnly := true }

end

/-! ## What the coordinator reports to the set -/

/-- Nothing scanned before a mutation is used after it. -/
def beginControlMutation : PoolMemberSet :=
  { set with
    supplied := set.supplied.map fun member => { member with history := none }
    controlWrite := none }

def noteControlFailure (memberId : Id) : PoolMemberSet :=
  { set with supplied := setStatus set.supplied memberId .stale }

/-- The status of a member once the active voters are known. -/
def updateVoterStatus (authority : Authority) (activeMembers : List Id) (supplied : Supplied) :
    MemberStatus :=
  if supplied.id ∈ activeMembers then .activeVoter
  else
    match findMember authority.topology supplied.id with
    | none => supplied.status
    | some descriptor =>
      if hasEvent supplied authority.historyDigest then .authority
      else if descriptor.controlRole = voterRole ∨ descriptor.state ≠ .joining then .stale
      else supplied.status

/-- The set under a new authority that the active members are at the tail of. -/
def noteAuthority (authority : Authority) (activeMembers : List Id) :
    PoolMemberSet :=
  let supplied := set.supplied.map fun member =>
    { member with status := updateVoterStatus authority activeMembers member }
  { set with
    supplied := supplied
    authority := authority
    controlWrite := some ⟨authority.historyDigest, activeMembers, false⟩
    dataAccess := dataAccessOf authority authority.topology supplied }

def noteCommittedGeneration (record : Record) (activeMembers : List Id) :
    PoolMemberSet :=
  noteAuthority set (authorityFromRecord .generationCommit set.authority record
    activeMembers.length) activeMembers

def noteCommittedCheckpoint (record : Record) (activeMembers : List Id) :
    PoolMemberSet :=
  noteAuthority set (authorityFromCheckpoint set.authority record
    activeMembers.length) activeMembers

def noteControlReclaimed (activeMembers : List Id) : PoolMemberSet :=
  noteAuthority set set.authority activeMembers

/-- The set with the member that a bootstrap brought in. -/
def noteCommittedBootstrap (record : Record) (target : Member)
    (history : HistoryScan) (activeMembers : List Id) : Except OpenError PoolMemberSet := do
  rejectIf (set.suppliedCount = PoolTopology.maxMemberCount) .tooManyPoolMembers
  .ok (noteAuthority
    { set with
      supplied := set.supplied ++ [⟨target, some history, .authority, none⟩]
      suppliedCount := set.suppliedCount + 1 }
    (authorityFromRecord .memberBootstrap set.authority record
      activeMembers.length) activeMembers)

/-- The status of a member under a new topology. -/
def membershipStatus (topology : Topology) (committedMembers activeMembers : List Id)
    (supplied : Supplied) : MemberStatus :=
  if (findMember topology supplied.id).isNone then .removed
  else if supplied.id ∈ activeMembers then .activeVoter
  else if supplied.id ∈ committedMembers then .authority
  else .stale

def noteCommittedMembership (record : Record) (proposal : Proposal)
    (committedMembers activeMembers : List Id) : PoolMemberSet :=
  let authority := authorityFromMembership set.authority record proposal
    activeMembers.length
  let supplied := set.supplied.map fun member =>
    { member with
      status := membershipStatus authority.topology committedMembers activeMembers member }
  { set with
    supplied := supplied
    authority := authority
    controlWrite := some ⟨authority.historyDigest, activeMembers, false⟩
    dataAccess := dataAccessOf authority authority.topology supplied }

end PoolMemberSet

end Zettide
