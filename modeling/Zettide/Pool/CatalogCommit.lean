import Zettide.Catalog.Initialization
import Zettide.Pool.Coordinator
import Zettide.Pool.Lease

/-! # Commits of a catalog generation

Translation of `commitCatalogGenerationLocked` of `pool_replicated_journal.zig` with everything
that it does to the storages before and behind the generation commit of the journals:

* the request is checked against the authority, the catalogs against each other, and the
  initializations against the new mappings;
* the data regions of all members that either catalog uses are claimed;
* the members are activated for catalog data, the initial data are written and synced, and the
  catalog is staged on every voter;
* the generation is committed in the journals, and the second root copies are written.

`ReplicatedJournal.commitCatalogGeneration` is the same operation for the control plane alone, where
the outcome of the staging is an input. Here the inputs are the outcomes of the single accesses to
the storages, in `PublicationFaults`. -/

namespace Zettide

open PoolCatalog PoolCatalogGraph PoolCatalogStore PoolCatalogVolume PoolMemberSet

inductive PublicationError where
  | coordinator (error : CoordinatorError)
  | set (error : OpenError)
  | catalog (error : CatalogError)
  | catalogClaimUnavailable | unexpectedPreviousCatalog | missingPreviousCatalog
  | dataClaimUnavailable | catalogDataActivationFailed | dataStagingFailed | catalogStagingFailed
  | unstagedPrepareWitness
  deriving DecidableEq, Repr

structure CatalogGenerationRequest where
  prepareProposal : Record
  previousGraph : Option Graph
  currentGraph : Graph
  dataInitializations : List DataInitialization
  deriving DecidableEq, Repr

structure CatalogCommitResult where
  generation : CommitResult
  stagedMembers : List Id
  repairedMembers : List Id
  repairFailedMembers : List Id
  deriving DecidableEq, Repr

/-- How the accesses of a commit to the storages end. -/
structure PublicationFaults where
  /-- Someone else has claimed the metadata region of the member. -/
  catalogClaimed : Id → Bool
  /-- The two header writes of an activation. -/
  activate : Id → WriteOutcome × WriteOutcome
  /-- The writes of an initialization to a member, by their offset in its data. -/
  write : DataInitialization → Id → Nat → DataOutcome
  sync : Id → SyncOutcome
  /-- A staging that fails, with what becomes of its writes. -/
  stage : Id → Option (List Fate)
  prepare : Id → WriteOutcome
  commit : Id → WriteOutcome
  repair : Id → Option (List Fate)

/-- A coordinator with the data plane of its set. -/
structure CatalogPool where
  coordinator : ReplicatedJournal
  plane : DataPlane

namespace PoolMemberSet

/-! ## Initial data -/

/-- The run that an initialization is for. -/
def findInitializationRun (catalog : ValidatedCatalog) (initialization : DataInitialization) :
    Option ExtentRun :=
  if initialization.logicalEnd > maxU64 then none
  else
    ((catalog.descriptors.zip catalog.extentRuns).find? fun entry =>
      entry.1.volumeId = initialization.volumeId).bind fun entry =>
        entry.2.find? fun run => run.state = .mapped ∧
          run.logicalStart ≤ initialization.logicalStart ∧
          initialization.logicalEnd ≤ run.logicalStart + run.extentCount

def stagingChunk : Nat := 64 * 1024

/-- The loop that writes the data of an initialization to one member. -/
def writeChunks (claim : ClaimedMember) (offset : Nat) (outcome : Nat → DataOutcome) :
    Nat → Nat → List UInt8 → PoolMemberSet → DataPlane →
      PoolMemberSet × DataPlane × Except DataError Unit
  | 0, _, bytes, set, plane =>
    (set, plane, rejectIf (bytes ≠ []) (.catalog .unfinished))
  | fuel + 1, done, bytes, set, plane =>
    if bytes = [] then (set, plane, .ok ())
    else
      match set.access plane claim.memberId fun member =>
          plane.writeDataClaimed member claim.claimId (offset + done)
            (bytes.take stagingChunk) (outcome done) with
      | (set, plane, .error e) => (set, plane, .error e)
      | (set, plane, .ok ()) =>
        writeChunks claim offset outcome fuel (done + stagingChunk)
          (bytes.drop stagingChunk) set plane

/-- An initialization on the member with a slot. -/
def stageReplica (claims : List ClaimedMember) (offset : Nat) (bytes : List UInt8)
    (outcome : Id → Nat → DataOutcome) (set : PoolMemberSet) (plane : DataPlane) (slot : Nat) :
    PoolMemberSet × DataPlane × Except DataError Unit :=
  match dataMemberForWrite set slot with
  | .error e => (set, plane, .error e)
  | .ok supplied =>
    match claims.find? fun claim => claim.memberId = supplied.id with
    | none => (set, plane, .error .dataClaimUnavailable)
    | some claim =>
      writeChunks claim offset (outcome supplied.id) (bytes.length / stagingChunk + 1) 0 bytes
        set plane

/-- The steps are taken until one fails. -/
def untilError {α : Type}
    (step : PoolMemberSet → DataPlane → α → PoolMemberSet × DataPlane × Except DataError Unit) :
    PoolMemberSet → DataPlane → List α → PoolMemberSet × DataPlane × Except DataError Unit
  | set, plane, [] => (set, plane, .ok ())
  | set, plane, a :: rest =>
    match step set plane a with
    | (set, plane, .error e) => (set, plane, .error e)
    | (set, plane, .ok ()) => untilError step set plane rest

/-- Where the data of an initialization begin in the data regions of the members of its run. -/
def initializationOffset (extentSize : Nat) (run : ExtentRun)
    (initialization : DataInitialization) : Except CatalogError Nat := do
  let extent ← addU64 run.physicalStart (initialization.logicalStart - run.logicalStart) .overflow
  let offset ← mulU64 extent extentSize .overflow
  let _ ← mulU64 initialization.extentCount extentSize .overflow
  .ok offset

def stageDataInitialization (claims : List ClaimedMember) (current : ValidatedCatalog)
    (outcome : DataInitialization → Id → Nat → DataOutcome) (set : PoolMemberSet)
    (plane : DataPlane) (initialization : DataInitialization) :
    PoolMemberSet × DataPlane × Except DataError Unit :=
  match findInitializationRun current initialization with
  | none => (set, plane, .error .dataInitializationMismatch)
  | some run =>
    match initializationOffset current.root.extentSize run initialization with
    | .error e => (set, plane, .error (.catalog e))
    | .ok offset =>
      untilError (stageReplica claims offset (initialization.image current.root.extentSize)
        (outcome initialization)) set plane run.memberSlots

/-- The claims of the members that the initializations are written to, in the order of the set. -/
def writtenClaims (set : PoolMemberSet) (claims : List ClaimedMember) (current : ValidatedCatalog)
    (initializations : List DataInitialization) : List ClaimedMember :=
  let slots := initializations.flatMap fun initialization =>
    (findInitializationRun current initialization).elim [] ExtentRun.memberSlots
  set.supplied.filterMap fun supplied =>
    claims.find? fun claim => claim.memberId = supplied.id ∧ claim.slot ∈ slots

def syncClaim (outcome : Id → SyncOutcome) (set : PoolMemberSet) (plane : DataPlane)
    (claim : ClaimedMember) : PoolMemberSet × DataPlane × Except DataError Unit :=
  set.access plane claim.memberId fun member =>
    plane.syncDataClaimed member claim.claimId (outcome claim.memberId)

def stageDataInitializations (set : PoolMemberSet) (plane : DataPlane)
    (claims : List ClaimedMember) (current : ValidatedCatalog)
    (initializations : List DataInitialization) (faults : PublicationFaults) :
    PoolMemberSet × DataPlane × Except DataError Unit :=
  match untilError (stageDataInitialization claims current faults.write) set plane
      initializations with
  | (set, plane, .error e) => (set, plane, .error e)
  | (set, plane, .ok ()) =>
    untilError (syncClaim faults.sync) set plane (writtenClaims set claims current initializations)

/-! ## Claims -/

/-- The slots of all runs of the two catalogs, reserved ones included. -/
def requiredSlots (previous : Option ValidatedCatalog) (current : ValidatedCatalog) : List Nat :=
  (previous.toList ++ [current]).flatMap fun catalog =>
    catalog.runs.flatMap fun entry => entry.2.memberSlots

def claimDataMembers (set : PoolMemberSet) (plane : DataPlane)
    (previous : Option ValidatedCatalog) (current : ValidatedCatalog) :
    DataPlane × List ClaimedMember × Except DataError Unit :=
  let required := requiredSlots previous current
  if ∃ slot ∈ required, findSlot set.authority.topology slot = none then
    (plane, [], .error .dataMemberNotInTopology)
  else
    claimSlots set plane
      ((set.authority.topology.members.map TopologyMember.slot).filter fun slot =>
        slot ∈ required)

end PoolMemberSet

namespace ReplicatedJournal

open PoolTopology

/-- The voters of the topology. -/
def catalogVoters (coordinator : ReplicatedJournal) : List Id :=
  (coordinator.set.authority.topology.members.filter fun member =>
    member.controlRole = voterRole).map TopologyMember.memberId

/-- The coordinator after the activation of a member. -/
def activateMember (coordinator : ReplicatedJournal) (memberId : Id)
    (outcome : WriteOutcome × WriteOutcome) : ReplicatedJournal :=
  { coordinator with
    set := { coordinator.set with
             supplied := updateMember coordinator.set.supplied memberId fun supplied =>
               { supplied with
                 member := (supplied.member.activateCatalogData outcome.1 outcome.2).1 } } }

/-- The activation of members one after the other. -/
def activateCatalogData (activate : Id → WriteOutcome × WriteOutcome) :
    ReplicatedJournal → List Id → ReplicatedJournal × Except CoordinatorError Unit
  | coordinator, [] => (coordinator, .ok ())
  | coordinator, memberId :: rest =>
    let outcome := activate memberId
    match findSuppliedMember coordinator.set.supplied memberId with
    | none => (coordinator, .error .catalogVoterUnavailable)
    | some supplied =>
      match (supplied.member.activateCatalogData outcome.1 outcome.2).2 with
      | .error e => (coordinator.activateMember memberId outcome, .error (.journal e))
      | .ok () =>
        activateCatalogData activate (coordinator.activateMember memberId outcome) rest

/-- The checks of a proposal, and of the voters. -/
def validateGenerationProposal [Blake3] (coordinator : ReplicatedJournal) (proposal : Record) :
    Except CoordinatorError Unit := do
  rejectIf coordinator.reclaimRequired .reclaimBarrierRequired
  rejectIf coordinator.recoveryOnly .recoveryOnlyCoordinator
  rejectIf (proposal.kind ≠ .generationPrepare) .notGenerationPrepare
  checkGenerationProposal coordinator.set.authority proposal
  coordinator.collectCatalogVoters
  rejectIf (coordinator.catalogVoters = []) .catalogVoterUnavailable

/-- The catalogs of a request, checked with its initializations. -/
def validateRequest [Codec] [Blake3] (set : PoolMemberSet) (request : CatalogGenerationRequest) :
    Except PublicationError (Option ValidatedCatalog × ValidatedCatalog) := do
  let geometry ← withError .set (catalogGeometry set)
  let binding : AuthorityBinding :=
    { generation := request.prepareProposal.generation
      dataRootDigest := request.prepareProposal.dataRootDigest
      topology := set.authority.topology
      layout := set.authority.layout }
  if set.authority.generation = 0 then do
    rejectIf request.previousGraph.isSome .unexpectedPreviousCatalog
    let current ← withError .catalog (validateGraph binding request.currentGraph geometry)
    withError .catalog (validateDataInitializations none current request.dataInitializations)
    .ok (none, current)
  else do
    let previousGraph ← orElseFail request.previousGraph .missingPreviousCatalog
    let previous ← withError .catalog
      (validateGraph (bindingOf set.authority) previousGraph geometry)
    let current ← withError .catalog
      (validateTransition (bindingOf set.authority) previousGraph geometry binding
        request.currentGraph geometry)
    withError .catalog
      (validateDataInitializations (some previous) current request.dataInitializations)
    .ok (some previous, current)

end ReplicatedJournal

namespace CatalogPool

/-! ## The catalog of the voters -/

def putMetadata (pool : CatalogPool) (memberId : Id) (region : MetadataRegion) : CatalogPool :=
  { pool with
    plane := { pool.plane with
               metadata := Function.update pool.plane.metadata memberId region } }

/-- The metadata region after a staging, which is refused, interrupted or completed. -/
def attemptStaging (region : MetadataRegion) (staging : Except CatalogError Staging)
    (interruption : Option (List Fate)) : MetadataRegion × Except DataError Unit :=
  match staging, interruption with
  | .error e, _ => (region, .error (.catalog e))
  | .ok staging, some fates => (settle region staging.writes fates, .error .storageFailed)
  | .ok staging, none =>
    match staging.run region with
    | .error e => (region, .error (.catalog e))
    | .ok after => (after, .ok ())

/-- A voter whose catalog cannot be written. -/
def failVoter (pool : CatalogPool) (voter : Id) (error : DataError) : CatalogPool :=
  let coordinator := { pool.coordinator with
                       set := pool.coordinator.set.afterStorage voter (.error error) }
  { pool with coordinator := coordinator.failCatalogMember voter }

variable [Codec]

/-- The staging of a new catalog in a metadata region. -/
def stageCatalog (region : MetadataRegion) (authority : PoolAuthority.Authority)
    (previous : Option ValidatedCatalog) (current : ValidatedCatalog) (graph : Graph) :
    Except CatalogError Staging :=
  match previous with
  | none => stageInitialization region authority current graph
  | some previous => stageTransition region authority previous current graph

/-- The catalog is staged on one voter after the other. -/
def stageVoters (stage : MetadataRegion → Except CatalogError Staging)
    (interruption : Id → Option (List Fate)) :
    CatalogPool → List Id → CatalogPool × Except PublicationError Unit
  | pool, [] => (pool, .ok ())
  | pool, voter :: rest =>
    let region := pool.plane.metadata voter
    match attemptStaging region (stage region) (interruption voter) with
    | (region, .ok ()) => stageVoters stage interruption (pool.putMetadata voter region) rest
    | (region, .error e) =>
      ((pool.putMetadata voter region).failVoter voter e, .error .catalogStagingFailed)

/-- The second root copies of the voters; a voter whose copy cannot be written is passed over. -/
def repairVoters (rootBytes : Block) (interruption : Id → Option (List Fate)) :
    CatalogPool → List Id → CatalogPool × List Id
  | pool, [] => (pool, [])
  | pool, voter :: rest =>
    let region := pool.plane.metadata voter
    match attemptStaging region
        (repairRootMirror region pool.coordinator.set.authority rootBytes)
        (interruption voter) with
    | (region, .ok ()) => repairVoters rootBytes interruption (pool.putMetadata voter region) rest
    | (region, .error e) =>
      match repairVoters rootBytes interruption
          ((pool.putMetadata voter region).failVoter voter e) rest with
      | (pool, others) => (pool, voter :: others)

/-! ## The commit -/

variable [Blake3]

/-- Everything between the claims and the generation commit: no journal is written. -/
def stage (pool : CatalogPool) (request : CatalogGenerationRequest) (faults : PublicationFaults)
    (claims : List ClaimedMember) (previous : Option ValidatedCatalog)
    (current : ValidatedCatalog) : CatalogPool × Except PublicationError Unit :=
  let voters := pool.coordinator.catalogVoters
  let claimed := (pool.coordinator.set.supplied.map Supplied.id).filter fun memberId =>
    memberId ∈ claims.map ClaimedMember.memberId
  match pool.coordinator.activateCatalogData faults.activate (voters ++ claimed) with
  | (coordinator, .error _) =>
    ({ pool with coordinator := coordinator.failDataPublication },
      .error .catalogDataActivationFailed)
  | (coordinator, .ok ()) =>
    match stageDataInitializations coordinator.set pool.plane claims current
        request.dataInitializations faults with
    | (set, plane, .error _) =>
      (⟨({ coordinator with set := set }).failDataPublication, plane⟩, .error .dataStagingFailed)
    | (set, plane, .ok ()) =>
      stageVoters (fun region =>
          stageCatalog region set.authority previous current request.currentGraph)
        faults.stage ⟨{ coordinator with set := set }, plane⟩ voters

variable (pool : CatalogPool)

/-- The generation commit of a staged catalog. -/
def commitStaged (request : CatalogGenerationRequest)
    (faults : PublicationFaults) (voters : List Id) :
    CatalogPool × Except PublicationError CatalogCommitResult :=
  match pool.coordinator.commitGenerationLocked request.prepareProposal faults.prepare
      faults.commit with
  | (after, .error e) =>
    ({ pool with coordinator := after.failDataPublication }, .error (.coordinator e))
  | (after, .ok result) =>
    if ∃ memberId ∈ result.prepareWitnessMembers, memberId ∉ voters then
      ({ pool with coordinator := after.failDataPublication }, .error .unstagedPrepareWitness)
    else
      match repairVoters request.currentGraph.rootBytes faults.repair
          { pool with coordinator := after } voters with
      | (pool, failed) =>
        (pool, .ok { generation := result
                     stagedMembers := voters
                     repairedMembers := voters.filter fun voter => voter ∉ failed
                     repairFailedMembers := failed })

def release (claims : List ClaimedMember) : CatalogPool :=
  { pool with plane := releaseClaims pool.plane claims }

/-- The commit up to the generation commit of the journals: the checks, the claims and the staging.
The claims are kept until the commit ends. -/
def publish (request : CatalogGenerationRequest)
    (faults : PublicationFaults) : CatalogPool × Except PublicationError (List ClaimedMember) :=
  let coordinator := pool.coordinator
  if coordinator.frozen then (pool, .error (.coordinator .coordinatorFrozen))
  else if ¬ coordinator.requireSetWriteReady then
    ({ pool with coordinator := coordinator.freeze }, .error (.coordinator .coordinatorFrozen))
  else
    match coordinator.validateGenerationProposal request.prepareProposal with
    | .error e => (pool, .error (.coordinator e))
    | .ok () =>
      if coordinator.catalogVoters.any faults.catalogClaimed then
        ({ pool with
           coordinator := { coordinator with
                            frozen := true
                            set := { coordinator.set with controlWrite := none } } },
          .error .catalogClaimUnavailable)
      else
        match ReplicatedJournal.validateRequest coordinator.set request with
        | .error e => (pool, .error e)
        | .ok (previous, current) =>
          match claimDataMembers coordinator.set pool.plane previous current with
          | (plane, claims, .error _) =>
            ({ pool with plane := releaseClaims plane claims }, .error .dataClaimUnavailable)
          | (plane, claims, .ok ()) =>
            match stage { pool with plane := plane } request faults claims previous current with
            | (staged, .error e) => (staged.release claims, .error e)
            | (staged, .ok ()) => (staged, .ok claims)

def commitCatalogGenerationLocked (request : CatalogGenerationRequest)
    (faults : PublicationFaults) : CatalogPool × Except PublicationError CatalogCommitResult :=
  match pool.publish request faults with
  | (staged, .error e) => (staged, .error e)
  | (staged, .ok claims) =>
    match staged.commitStaged request faults pool.coordinator.catalogVoters with
    | (after, result) => (after.release claims, result)

end CatalogPool

end Zettide
