import Zettide.Pool.MemberSet

/-! # The replicated journal

Translation of the control-plane part of `pool_replicated_journal.zig`. An operation takes the
coordinator to the coordinator after it, with what its caller is told. How each durable write ends
is an input, one `WriteOutcome` for each member and write; a crash is a run in which the writes
from some point on fail and leave the old content.

The catalog layer below a generation commit or a promotion is an input as well. -/

namespace Zettide

open Journal

inductive CoordinatorError where
  | journal (error : JournalError)
  | format (error : Error)
  | set (error : OpenError)
  | writeQuorumUnavailable | tooManyControlVoters | tooManyControlParticipants | coordinatorFrozen
  | reclaimBarrierRequired | recoveryOnlyCoordinator | notGenerationPrepare | notMembershipPrepare
  | notCheckpointRecord | membershipEpochMismatch | unexpectedGeneration | topologyDigestMismatch
  | layoutDigestMismatch | writerTermRegression | insufficientJournalCapacity
  | prepareHistoryDiverged | prepareQuorumFailed | commitPreparationFailed | commitHistoryDiverged
  | commitOutcomeUnknown | catalogVoterUnavailable | catalogStagingFailed | dataStagingFailed
  | administrativeRecoveryRequired | membershipChangedAuthorityData | catalogDrainRequired
  | catalogCatchupRequired | activeNonVoterCatchupNotSupported | memberBootstrapRequired
  | memberNotCaughtUp | newVoterHistoryUnavailable | newVoterNotCaughtUp | newVoterUnavailable
  | rolloverRequiredBeforeMembership | anchorQuorumUnavailable | checkpointHistoryDiverged
  | checkpointOutcomeUnknown | unsupportedRolloverTopology | fullVoterSetRequired
  | rolloverCheckpointIncomplete | rolloverNotRequired | anchorPublicationFailed
  | reclaimQuorumFailed | bootstrapAuthorityMismatch | memberAlreadyPresent
  | bootstrapHistoryDiverged | bootstrapQuorumFailed
  deriving DecidableEq, Repr

/-- The coordinator. `order` are its participants; their journals are kept in the set. -/
structure ReplicatedJournal where
  set : PoolMemberSet
  order : List Id
  quorum : Nat
  recoveryOnly : Bool
  reclaimRequired : Bool
  pendingAnchor : Option Digest
  frozen : Bool
  deriving DecidableEq, Repr

structure Participant where
  memberId : Id
  claimed : Claimed
  active : Bool
  deriving DecidableEq, Repr

/-- A record made ready for one participant. -/
structure Item where
  memberId : Id
  prepared : PreparedAppend
  deriving DecidableEq, Repr

structure CommitResult where
  record : Record
  committedMembers : List Id
  degraded : Bool
  prepareWitnessMembers : List Id
  deriving DecidableEq, Repr

def Supplied.participant (supplied : Supplied) : Option Participant :=
  supplied.seat.map fun seat => ⟨supplied.id, ⟨supplied.member, seat.journal⟩, seat.active⟩

namespace ReplicatedJournal

open PoolMemberSet

def maxControlParticipantCount : Nat := 6

variable (coordinator : ReplicatedJournal)

def participants : List Participant :=
  coordinator.order.filterMap fun memberId =>
    (findSuppliedMember coordinator.set.supplied memberId).bind Supplied.participant

def activeParticipants : List Participant :=
  coordinator.participants.filter Participant.active

def freeze : ReplicatedJournal :=
  { coordinator with frozen := true }

/-! ## Opening -/

variable [Blake3]

/-- A journal opened for a participant. -/
structure OpenSeat where
  memberId : Id
  journal : Journal
  deriving DecidableEq, Repr

/-- Opens the journals of the active members, in the order of the set. -/
def openSeats (count : Nat) : List Supplied → Except CoordinatorError (List OpenSeat)
  | [] => .ok []
  | supplied :: rest => do
      rejectIf (count = maxControlParticipantCount) .tooManyControlVoters
      let journal ← withError .journal (openMember supplied.member)
      let seats ← openSeats (count + 1) rest
      .ok (⟨supplied.id, journal⟩ :: seats)

/-- The member with the seat opened for it. -/
def takeSeat (seats : List OpenSeat) (supplied : Supplied) : Supplied := { supplied with
    seat := (seats.find? fun seat => seat.memberId = supplied.id).map fun seat =>
      ⟨seat.journal, true⟩ }

/-- Opening a coordinator on a set. -/
def openSet (set : PoolMemberSet) : Except CoordinatorError ReplicatedJournal := do
  let ready ← orElseFail set.controlWrite .writeQuorumUnavailable
  let seats ← openSeats 0 (set.supplied.filter fun member => member.id ∈ ready.activeMembers)
  rejectIf (seats.length < if set.recoveryOnly then 1 else set.authority.topology.quorum)
    .writeQuorumUnavailable
  .ok { set := { set with supplied := set.supplied.map (takeSeat seats) }
        order := seats.map OpenSeat.memberId
        quorum := set.authority.topology.quorum
        recoveryOnly := set.recoveryOnly
        reclaimRequired := ready.reclaimRequired
        pendingAnchor := none
        frozen := false }

/-! ## Preparing and appending on all targets -/

/-- A prepared record of a participant, at the tail of its journal. -/
def prepareItem (proposal : Record) (participant : Participant) : Except CoordinatorError Item := do
  let claimed := participant.claimed
  let token ← withError .journal (tailToken claimed.journal)
  let prepared ← withError .journal
    (prepareExact claimed.journal claimed.member token proposal)
  .ok ⟨participant.memberId, prepared⟩

/-- Prepares a record for every target. All of them have to be the same event, which is `shared`
once one is known. -/
def prepareAll (prepareOne : Participant → Except CoordinatorError Item)
    (diverged : CoordinatorError) :
    Option Digest → List Participant → Except CoordinatorError (List Item)
  | _, [] => .ok []
  | shared, participant :: rest => do
      let item ← prepareOne participant
      let historyDigest := item.prepared.record.historyDigest
      rejectIf (∃ expected ∈ shared, expected ≠ historyDigest) diverged
      let items ← prepareAll prepareOne diverged (some historyDigest) rest
      .ok (item :: items)

/-- A participant's report of a durable append. -/
structure Ack where
  memberId : Id
  result : AppendResult
  deriving DecidableEq, Repr

/-- How a prepared record is appended. -/
abbrev Append :=
  Claimed → PreparedAppend → WriteOutcome → Claimed × Except JournalError AppendResult

/-- One member after the append phase. A failed append makes the member stale and, if `deactivate`
is set, takes its participant out. -/
def appendTo (append : Append) (deactivate : Bool) (items : List Item)
    (outcome : Id → WriteOutcome) (supplied : Supplied) : Supplied :=
  match supplied.seat, items.find? fun item => item.memberId = supplied.id with
  | some seat, some item =>
    match append ⟨supplied.member, seat.journal⟩ item.prepared (outcome supplied.id) with
    | (claimed, .ok _) =>
      { supplied with
        member := claimed.member, seat := some ⟨claimed.journal, seat.active⟩ }
    | (claimed, .error _) =>
      { supplied with
        member := claimed.member, status := .stale
        seat := some ⟨claimed.journal, seat.active && !deactivate⟩ }
  | _, _ => supplied

/-- The coordinator after the append phase. -/
def appendAll (append : Append) (deactivate : Bool) (items : List Item)
    (outcome : Id → WriteOutcome) (coordinator : ReplicatedJournal) : ReplicatedJournal :=
  { coordinator with
    set := { coordinator.set with
             supplied := coordinator.set.supplied.map (appendTo append deactivate items outcome) } }

/-- The reports of the append phase, in the order of the participants. -/
def acks (append : Append) (items : List Item) (outcome : Id → WriteOutcome)
    (coordinator : ReplicatedJournal) : List Ack :=
  coordinator.participants.filterMap fun participant =>
    (items.find? fun item => item.memberId = participant.memberId).bind fun item =>
      (value (append participant.claimed item.prepared (outcome participant.memberId)).2).map
        fun result => ⟨participant.memberId, result⟩

def attestationFromResult (ack : Ack) : Attestation where
  memberId := ack.result.record.memberId
  prepareRecordDigest := ack.result.recordDigest
  prepareHistoryDigest := ack.result.record.historyDigest

variable (coordinator : ReplicatedJournal)

/-- The participants that acknowledged. -/
def acknowledged (reports : List Ack) : List Participant :=
  coordinator.participants.filter fun participant =>
    participant.memberId ∈ reports.map Ack.memberId

/-- The commit record of a participant; a participant that cannot prepare it stops the
coordinator. -/
def commitItem (proposal : Record) (participant : Participant) : Except CoordinatorError Item := do
  let claimed := participant.claimed
  let token ← withError .journal (tailToken claimed.journal)
  let prepared ← withError (fun _ => .commitPreparationFailed)
    (prepareExact claimed.journal claimed.member token proposal)
  .ok ⟨participant.memberId, prepared⟩

/-- The errors of the commit preparation after which the coordinator is frozen. -/
def freezes (error : CoordinatorError) : Bool :=
  decide (error = .commitPreparationFailed) || decide (error = .commitHistoryDiverged)

def afterError (error : CoordinatorError) : ReplicatedJournal :=
  if freezes error then coordinator.freeze else coordinator

def beginControlMutation (coordinator : ReplicatedJournal) : ReplicatedJournal :=
  { coordinator with set := coordinator.set.beginControlMutation }

/-! ## Generation commits -/

/-- The part of the checks that a generation proposal has to pass against the authority. -/
def checkGenerationProposal (authority : PoolAuthority.Authority) (proposal : Record) :
    Except CoordinatorError Unit := do
  rejectIf (proposal.membershipEpoch ≠ authority.membershipEpoch) .membershipEpochMismatch
  rejectIf (authority.generation = maxU64 ∨ proposal.generation ≠ authority.generation + 1)
    .unexpectedGeneration
  let topologyDigest ← withError .format (PoolTopology.digest authority.topology)
  rejectIf (proposal.topologyDigest ≠ topologyDigest) .topologyDigestMismatch
  let layoutDigest ← withError .format (PoolLayout.digest authority.layout)
  rejectIf (proposal.layoutDigest ≠ layoutDigest) .layoutDigestMismatch
  rejectIf (proposal.writerTerm < authority.writerTerm) .writerTermRegression

def targets (required : Nat) : List Participant :=
  coordinator.activeParticipants.filter fun participant =>
    participant.claimed.journal.hasAppendCapacity required

/-- Everything of a generation commit before its first write. -/
def prepareGeneration (proposal : Record) :
    Except CoordinatorError (List Item) := do
  rejectIf coordinator.frozen .coordinatorFrozen
  rejectIf coordinator.reclaimRequired .reclaimBarrierRequired
  rejectIf coordinator.recoveryOnly .recoveryOnlyCoordinator
  rejectIf (proposal.kind ≠ .generationPrepare) .notGenerationPrepare
  checkGenerationProposal coordinator.set.authority proposal
  rejectIf ((coordinator.targets 3).length < coordinator.quorum) .insufficientJournalCapacity
  prepareAll (prepareItem proposal) .prepareHistoryDiverged none (coordinator.targets 3)

/-- The certificate names the first participants that acknowledged the prepare. -/
def makeCertificate (reports : List Ack) (quorum : Nat) : PoolCertificate where
  attestations := (reports.take quorum).map attestationFromResult

/-- The commit records of a generation. -/
def prepareGenerationCommit (reports : List Ack) :
    Except CoordinatorError (List Item) := do
  let first ← orElseFail reports.head? .prepareQuorumFailed
  let certificate ← withError .format
    (PoolCertificate.encode (makeCertificate reports coordinator.quorum))
  let proposal := { first.result.record with
                    kind := .generationCommit, payload := .certificate certificate }
  prepareAll (commitItem proposal) .commitHistoryDiverged none (coordinator.acknowledged reports)

/-- The commit phase of a generation. -/
def finishGeneration (targetCount : Nat) (witnesses : List Id)
    (items : List Item) (outcome : Id → WriteOutcome) :
    ReplicatedJournal × Except CoordinatorError CommitResult :=
  let reports := coordinator.acks appendPrepared items outcome
  let committed := coordinator.appendAll appendPrepared true items outcome
  let members := reports.map Ack.memberId
  match reports.head? with
  | none => (committed.freeze, .error .commitOutcomeUnknown)
  | some first =>
    if reports.length < coordinator.quorum then (committed.freeze, .error .commitOutcomeUnknown)
    else
      ({ committed with
         set := committed.set.noteCommittedGeneration first.result.record members },
        .ok ⟨first.result.record, members, decide (reports.length < targetCount), witnesses⟩)

def commitGenerationLocked (proposal : Record) (prepareOutcome commitOutcome : Id → WriteOutcome) :
    ReplicatedJournal × Except CoordinatorError CommitResult :=
  match coordinator.prepareGeneration proposal with
  | .error e => (coordinator, .error e)
  | .ok items =>
    let begun := coordinator.beginControlMutation
    let reports := begun.acks appendPrepared items prepareOutcome
    let prepared := begun.appendAll appendPrepared true items prepareOutcome
    if reports.length < coordinator.quorum then
      (prepared.freeze, .error .prepareQuorumFailed)
    else
      match prepared.prepareGenerationCommit reports with
      | .error e => (prepared.afterError e, .error e)
      | .ok commitItems =>
        prepared.finishGeneration items.length
          ((reports.take coordinator.quorum).map Ack.memberId) commitItems commitOutcome

/-- The set has lost its write quorum: the coordinator is frozen as well. -/
def requireSetWriteReady (coordinator : ReplicatedJournal) : Prop :=
  coordinator.set.controlWrite.isSome

instance (coordinator : ReplicatedJournal) : Decidable coordinator.requireSetWriteReady :=
  inferInstanceAs (Decidable (_ = true))

/-- Every voter of the topology is active in the set, and can be written. -/
def collectCatalogVoters : Except CoordinatorError Unit := do
  let set := coordinator.set
  let mode ← withError .set set.dataMode
  rejectIf (mode ≠ .catalog) (.set .poolDataRequiresCatalogMode)
  let ready ← orElseFail set.controlWrite .writeQuorumUnavailable
  rejectIf (∃ descriptor ∈ set.authority.topology.members,
      descriptor.controlRole = PoolTopology.voterRole ∧
        ¬ ((findSuppliedMember set.supplied descriptor.memberId).any fun member =>
          decide (member.status = .activeVoter) && decide (member.id ∈ ready.activeMembers) &&
            decide (member.member.mode = .writable) && !member.member.frozen))
    .catalogVoterUnavailable

/-- What the catalog layer makes of a generation: it refuses it, publishing its data fails, staging
it on a voter fails, or it is staged and the root copies of some voters cannot be repaired
afterwards. -/
inductive CatalogStage where
  | refused (error : CoordinatorError)
  | dataFailed
  | voterFailed (voter : Id)
  | staged (repairFailed : List Id)
  deriving DecidableEq, Repr

/-- The coordinator after a failed publication of data. -/
def failDataPublication : ReplicatedJournal := { coordinator with
    frozen := true
    set := { coordinator.set with controlWrite := none, dataAccess := .unavailable } }

/-- A member whose catalog fails during a commit. -/
def failCatalogMember (memberId : Id) : ReplicatedJournal :=
  let set := coordinator.set.noteControlFailure memberId
  { coordinator with
    frozen := true, set := { set with controlWrite := none, dataAccess := .unavailable } }

/-- The checks of a generation request before the catalog layer sees it. -/
def checkCatalogGeneration (proposal : Record) :
    Except CoordinatorError Unit := do
  rejectIf coordinator.reclaimRequired .reclaimBarrierRequired
  rejectIf coordinator.recoveryOnly .recoveryOnlyCoordinator
  rejectIf (proposal.kind ≠ .generationPrepare) .notGenerationPrepare
  checkGenerationProposal coordinator.set.authority proposal
  coordinator.collectCatalogVoters
  withError .set coordinator.set.collectCatalogGeometry

/-- A generation commit with its catalog. -/
def commitCatalogGeneration (proposal : Record)
    (stage : CatalogStage) (prepareOutcome commitOutcome : Id → WriteOutcome) :
    ReplicatedJournal × Except CoordinatorError CommitResult :=
  if coordinator.frozen then (coordinator, .error .coordinatorFrozen)
  else if ¬ coordinator.requireSetWriteReady then
    (coordinator.freeze, .error .coordinatorFrozen)
  else
    match coordinator.checkCatalogGeneration proposal, stage with
    | .error e, _ => (coordinator, .error e)
    | .ok (), .refused e => (coordinator, .error e)
    | .ok (), .dataFailed => (coordinator.failDataPublication, .error .dataStagingFailed)
    | .ok (), .voterFailed voter =>
      (coordinator.failCatalogMember voter, .error .catalogStagingFailed)
    | .ok (), .staged repairFailed =>
      match coordinator.commitGenerationLocked proposal prepareOutcome commitOutcome with
      | (after, .error e) => (after.failDataPublication, .error e)
      | (after, .ok result) => (repairFailed.foldl failCatalogMember after, .ok result)

/-! ## Membership commits -/

section

open PoolTopology

variable (coordinator : ReplicatedJournal)

/-- The anchors of the active participants. -/
def activeAnchors : List (Id × AnchorState) :=
  coordinator.activeParticipants.filterMap fun participant =>
    participant.claimed.journal.scanState.activeAnchor.map fun anchor =>
      (participant.memberId, anchor)

/-- The members that have the anchor of `candidate` and are voters of `topology`. -/
def anchorHolders (anchors : List (Id × AnchorState)) (candidate : AnchorState)
    (topology : Topology) : List Id :=
  (anchors.filter fun held =>
    decide (held.2.record.historyDigest = candidate.record.historyDigest) &&
      isVoter topology held.1).map Prod.fst

/-- Every anchor with a quorum keeps one under the next topology; the result is whether one was
found. -/
def retainsAnchors (anchors : List (Id × AnchorState)) (next : Topology) :
    List (Id × AnchorState) → Except CoordinatorError Bool
  | [] => .ok false
  | held :: rest => do
      let snapshot ← withError .format
        (PoolAuthorityCheckpoint.validateCompactedRootRecord held.2.record)
      let current := anchorHolders anchors held.2 snapshot.topology
      let retained := current.filter (isVoter next)
      rejectIf (snapshot.topology.quorum ≤ current.length ∧
          retained.length < snapshot.topology.quorum)
        .rolloverRequiredBeforeMembership
      let found ← retainsAnchors anchors next rest
      .ok (found || decide (snapshot.topology.quorum ≤ current.length))

def validateAnchorRetention (next : Topology) :
    Except CoordinatorError Unit := do
  let anchors := coordinator.activeAnchors
  let found ← retainsAnchors anchors next anchors
  rejectIf (anchors ≠ [] ∧ found = false) .anchorQuorumUnavailable

def activatesAsNonVoter (old new : TopologyMember) : Prop :=
  old.state = .joining ∧ new.state = .active ∧ new.controlRole ≠ voterRole

instance (old new : TopologyMember) : Decidable (activatesAsNonVoter old new) :=
  inferInstanceAs (Decidable (_ ∧ _ ∧ _))

def removesMember (current next : Topology) : Prop :=
  ∃ member ∈ current.members, findMember next member.memberId = none

instance (current next : Topology) : Decidable (removesMember current next) :=
  inferInstanceAs (Decidable (∃ member ∈ current.members, _))

/-- A joining member that becomes active has been bootstrapped and has caught up. -/
def checkActivation (next : Topology)
    (authorityDigest : Digest) (old : TopologyMember) : Except CoordinatorError Unit :=
  match findMember next old.memberId with
  | none => .ok ()
  | some new =>
    if old.state ≠ .joining ∨ new.state ≠ .active then .ok ()
    else do
      rejectIf (activatesAsNonVoter old new) .activeNonVoterCatchupNotSupported
      let history ← orElseFail
        ((PoolMemberSet.histories coordinator.set.supplied).find? fun history =>
          history.memberId = old.memberId) .memberBootstrapRequired
      let first ← orElseFail history.entries.head? .memberBootstrapRequired
      rejectIf (first.record.kind ≠ .memberBootstrap) .memberBootstrapRequired
      let evidence ← withError .format (MemberBootstrap.validateRecord first.record)
      rejectIf (evidence.targetMemberId ≠ old.memberId) .memberBootstrapRequired
      let tail ← orElseFail history.scanResult.tail .memberNotCaughtUp
      rejectIf (tail.historyDigest ≠ authorityDigest ∨
          (history.findHistoryDigest authorityDigest).isNone) .memberNotCaughtUp

def validateCatalogMembershipGates (current next : Topology)
    (authorityDigest : Digest) : Except CoordinatorError Unit := do
  rejectIf (coordinator.set.authority.dataRootDigest ≠ 0 ∧ removesMember current next)
    .catalogDrainRequired
  current.members.forM (coordinator.checkActivation next authorityDigest)

/-- A new voter can join the participants. -/
def checkNewVoter (supplied : Supplied) (authorityDigest : Digest) :
    Except CoordinatorError Journal := do
  let history ← orElseFail supplied.history .newVoterHistoryUnavailable
  let tail ← orElseFail history.scanResult.tail .newVoterHistoryUnavailable
  rejectIf (tail.historyDigest ≠ authorityDigest ∨ history.scanResult.unresolvedTailDamage ∨
      history.scanResult.journalFull ∨ supplied.member.mode ≠ .writable ∨
      supplied.member.frozen)
    .newVoterNotCaughtUp
  withError .journal (openMember supplied.member)

/-- The coordinator with the member among its participants. -/
def ensureParticipant (memberId : Id)
    (authorityDigest : Digest) : Except CoordinatorError ReplicatedJournal :=
  if memberId ∈ coordinator.order then .ok coordinator
  else do
    rejectIf (coordinator.order.length = maxControlParticipantCount) .tooManyControlParticipants
    let supplied ← orElseFail (findSuppliedMember coordinator.set.supplied memberId)
      .newVoterUnavailable
    let journal ← checkNewVoter supplied authorityDigest
    .ok { coordinator with
          set := { coordinator.set with
                   supplied := PoolMemberSet.updateMember coordinator.set.supplied memberId
                     fun member => { member with seat := some ⟨journal, false⟩ } }
          order := coordinator.order ++ [memberId] }

/-- Adds the new voters one by one. Those added before an error stay. -/
def ensureParticipants (authorityDigest : Digest) :
    List Id → ReplicatedJournal → ReplicatedJournal × Except CoordinatorError Unit
  | [], coordinator => (coordinator, .ok ())
  | memberId :: rest, coordinator =>
    match coordinator.ensureParticipant memberId authorityDigest with
    | .error e => (coordinator, .error e)
    | .ok after => ensureParticipants authorityDigest rest after

/-- The members have the quorums that a membership change needs. -/
def hasMembershipQuorums (members : List Id) (current : Topology) (proposal : Proposal) : Prop :=
  proposal.topology.quorum ≤ members.countP (isVoter proposal.topology) ∧
    (proposal.mode = .administrativeRecovery ∨ current.quorum ≤ members.countP (isVoter current))

instance (members : List Id) (current : Topology) (proposal : Proposal) :
    Decidable (hasMembershipQuorums members current proposal) :=
  inferInstanceAs (Decidable (_ ∧ (_ ∨ _)))

/-- The certificate names the first old voters and the first new voters that acknowledged. -/
def makeMembershipCertificate (reports : List Ack) (current : Topology) (proposal : Proposal) :
    MembershipCertificate where
  oldGroup := ((reports.filter fun report => isVoter current report.result.record.memberId).take
    (if proposal.mode = .normal then current.quorum else 0)).map attestationFromResult
  newGroup := ((reports.filter fun report =>
    isVoter proposal.topology report.result.record.memberId).take
      proposal.topology.quorum).map attestationFromResult

/-- The checks of a membership change before new voters are added. `promotes` is what the catalog
layer finds about the promoted members. -/
def checkMembership (record : Record)
    (promotes : Except CoordinatorError Unit) : Except CoordinatorError Proposal := do
  let authority := coordinator.set.authority
  rejectIf coordinator.reclaimRequired .reclaimBarrierRequired
  rejectIf (record.kind ≠ .membershipPrepare) .notMembershipPrepare
  let proposal ← withError .format (Membership.validateRecordProposal record)
  rejectIf (coordinator.recoveryOnly ∧ proposal.mode ≠ .administrativeRecovery)
    .administrativeRecoveryRequired
  withError .format (Membership.validateTransition authority.topology proposal)
  if proposal.mode = .normal then coordinator.validateAnchorRetention proposal.topology
  else .ok ()
  coordinator.validateCatalogMembershipGates authority.topology proposal.topology
    authority.historyDigest
  if authority.dataRootDigest = 0 then .ok () else promotes
  rejectIf (record.generation ≠ authority.generation ∨
      record.dataRootDigest ≠ authority.dataRootDigest)
    .membershipChangedAuthorityData
  let layoutDigest ← withError .format (PoolLayout.digest authority.layout)
  rejectIf (record.layoutDigest ≠ layoutDigest) .layoutDigestMismatch
  rejectIf (record.writerTerm < authority.writerTerm) .writerTermRegression
  .ok proposal

/-- The participants that a membership change is written to: the voters of either topology, whether
they are active or not. -/
def membershipTargets (proposal : Proposal) : List Participant :=
  coordinator.participants.filter fun participant =>
    (isVoter coordinator.set.authority.topology participant.memberId ||
        isVoter proposal.topology participant.memberId) &&
      participant.claimed.journal.hasAppendCapacity 3

def prepareMembership (record : Record) (proposal : Proposal) :
    Except CoordinatorError (List Item) := do
  let written := coordinator.membershipTargets proposal
  rejectIf (¬ hasMembershipQuorums (written.map Participant.memberId)
      coordinator.set.authority.topology proposal) .insufficientJournalCapacity
  prepareAll (prepareItem record) .prepareHistoryDiverged none written

def prepareMembershipCommit (proposal : Proposal)
    (reports : List Ack) : Except CoordinatorError (List Item) := do
  let current := coordinator.set.authority.topology
  let first ← orElseFail reports.head? .prepareQuorumFailed
  let payload ← withError .format (Membership.makeCommitPayload current proposal
    (makeMembershipCertificate reports current proposal))
  let record := { first.result.record with kind := .membershipCommit, payload := payload }
  prepareAll (commitItem record) .commitHistoryDiverged none (coordinator.acknowledged reports)

/-- The seat of a member once the change is committed: only the active voters keep one. -/
def keepSeat (activeMembers : List Id) (supplied : Supplied) : Supplied := { supplied with
    seat := if supplied.id ∈ activeMembers then
        supplied.seat.map fun seat => { seat with active := true }
      else none }

def finishMembership (proposal : Proposal) (items : List Item)
    (outcome : Id → WriteOutcome) : ReplicatedJournal × Except CoordinatorError CommitResult :=
  let reports := coordinator.acks appendPrepared items outcome
  let committed := coordinator.appendAll appendPrepared false items outcome
  let members := reports.map Ack.memberId
  let activeMembers := members.filter (isVoter proposal.topology)
  match reports.head? with
  | none => (committed.freeze, .error .commitOutcomeUnknown)
  | some first =>
    if ¬ hasMembershipQuorums members coordinator.set.authority.topology proposal then
      (committed.freeze, .error .commitOutcomeUnknown)
    else
      let set := committed.set.noteCommittedMembership first.result.record proposal members
        activeMembers
      ({ committed with
         set := { set with supplied := set.supplied.map (keepSeat activeMembers) }
         order := committed.order.filter fun memberId => memberId ∈ activeMembers
         quorum := proposal.topology.quorum },
        .ok ⟨first.result.record, members,
          decide (activeMembers.length < PoolTopology.voterCount proposal.topology), []⟩)

def commitMembership (record : Record)
    (promotes : Except CoordinatorError Unit) (prepareOutcome commitOutcome : Id → WriteOutcome) :
    ReplicatedJournal × Except CoordinatorError CommitResult :=
  if coordinator.frozen then (coordinator, .error .coordinatorFrozen)
  else if ¬ coordinator.requireSetWriteReady then
    (coordinator.freeze, .error .coordinatorFrozen)
  else
    match coordinator.checkMembership record promotes with
    | .error e => (coordinator, .error e)
    | .ok proposal =>
      let voters := (proposal.topology.members.filter fun member =>
        member.controlRole = voterRole).map TopologyMember.memberId
      match ensureParticipants coordinator.set.authority.historyDigest voters coordinator with
      | (joined, .error e) => (joined, .error e)
      | (joined, .ok ()) =>
        match joined.prepareMembership record proposal with
        | .error e => (joined, .error e)
        | .ok items =>
          let begun := joined.beginControlMutation
          let reports := begun.acks appendPrepared items prepareOutcome
          let prepared := begun.appendAll appendPrepared false items prepareOutcome
          if ¬ hasMembershipQuorums (reports.map Ack.memberId)
              coordinator.set.authority.topology proposal then
            (prepared.freeze, .error .prepareQuorumFailed)
          else
            match prepared.prepareMembershipCommit proposal reports with
            | .error e => (prepared.afterError e, .error e)
            | .ok commitItems => prepared.finishMembership proposal commitItems commitOutcome

end

end ReplicatedJournal

end Zettide
