import Zettide.Pool.Coordinator

/-! # Checkpoints and rollover

Translation of the checkpoint part of `pool_replicated_journal.zig`: a checkpoint is appended by
every voter, named by both header copies of each of them, and only then are the slots before it
cleared. -/

namespace Zettide.ReplicatedJournal

open PoolTopology

variable [Blake3]

/-! ## Appending a checkpoint -/

/-- A checkpoint record of a participant, checked against the authority. -/
def checkpointItem (context : PoolAuthorityCheckpoint.AuthorityContext) (proposal : Record)
    (participant : Participant) : Except CoordinatorError Item := do
  let claimed := participant.claimed
  let token ← withError .journal (Journal.tailToken claimed.journal)
  let prepared ← withError .journal
    (Journal.prepareCheckpointExact claimed.journal claimed.member token proposal)
  let _ ← withError .format (PoolAuthorityCheckpoint.validateRecord prepared.record context)
  .ok ⟨participant.memberId, prepared⟩

variable (coordinator : ReplicatedJournal)

def prepareCheckpoint (proposal : Record)
    (requiredSlots : Nat) : Except CoordinatorError (List Item) := do
  rejectIf coordinator.reclaimRequired .reclaimBarrierRequired
  rejectIf coordinator.recoveryOnly .recoveryOnlyCoordinator
  rejectIf (proposal.kind ≠ .checkpoint) .notCheckpointRecord
  let written := coordinator.targets requiredSlots
  let items ← prepareAll
    (checkpointItem (PoolAuthority.checkpointContext coordinator.set.authority) proposal)
    .checkpointHistoryDiverged none written
  rejectIf (written.length < coordinator.quorum) .insufficientJournalCapacity
  .ok items

/-- The checkpoint once it is prepared on every target. -/
def finishCheckpoint (items : List Item)
    (outcome : Id → WriteOutcome) : ReplicatedJournal × Except CoordinatorError CommitResult :=
  let begun := coordinator.beginControlMutation
  let reports := begun.acks Journal.appendPreparedCheckpoint items outcome
  let committed := begun.appendAll Journal.appendPreparedCheckpoint true items outcome
  let members := reports.map Ack.memberId
  match reports.head? with
  | none => (committed.freeze, .error .checkpointOutcomeUnknown)
  | some first =>
    if reports.length < coordinator.quorum then
      (committed.freeze, .error .checkpointOutcomeUnknown)
    else
      ({ committed with
         set := committed.set.noteCommittedCheckpoint first.result.record members },
        .ok ⟨first.result.record, members, decide (reports.length < items.length), []⟩)

def commitAuthorityCheckpointLocked (proposal : Record)
    (requiredSlots : Nat) (outcome : Id → WriteOutcome) :
    ReplicatedJournal × Except CoordinatorError CommitResult :=
  match coordinator.prepareCheckpoint proposal requiredSlots with
  | .error e => (coordinator, .error e)
  | .ok items => coordinator.finishCheckpoint items outcome

/-- Every voter is active and has room. -/
def requireFullVoterSet (requiredSlots : Nat)
    (validateRolloverTopology : Bool) : Except CoordinatorError Unit := do
  let voters := voterCount coordinator.set.authority.topology
  rejectIf (validateRolloverTopology ∧ voters ≠ 1 ∧ voters ≠ 3) .unsupportedRolloverTopology
  rejectIf (coordinator.activeParticipants.length ≠ voters) .fullVoterSetRequired
  rejectIf (∃ participant ∈ coordinator.activeParticipants,
      participant.claimed.journal.hasAppendCapacity requiredSlots = false)
    .insufficientJournalCapacity

/-- The coordinator stops after a checkpoint that not every voter has. -/
def abandon : ReplicatedJournal :=
  coordinator.beginControlMutation.freeze

def commitAuthorityCheckpoint (proposal : Record)
    (outcome : Id → WriteOutcome) : ReplicatedJournal × Except CoordinatorError CommitResult :=
  if coordinator.frozen then (coordinator, .error .coordinatorFrozen)
  else if ¬ coordinator.requireSetWriteReady then
    (coordinator.freeze, .error .coordinatorFrozen)
  else
    match coordinator.requireFullVoterSet 2 false with
    | .error e => (coordinator, .error e)
    | .ok () =>
      match coordinator.commitAuthorityCheckpointLocked proposal 2 outcome with
      | (after, .error e) => (after, .error e)
      | (after, .ok result) =>
        if result.committedMembers.length ≠ voterCount after.set.authority.topology then
          (after.abandon, .error .checkpointOutcomeUnknown)
        else (after, .ok result)

/-! ## Publishing and reclaiming -/

inductive InferredAnchorTransition where
  | none | firstAnchor | replacement
  deriving DecidableEq, Repr

/-- The journal is full and its tail is the checkpoint that is the authority. -/
def fullAt (authority : PoolAuthority.Authority) (state : ScanResult) : Bool :=
  state.journalFull && state.tail.any fun tail =>
    decide (tail.kind = .checkpoint) && decide (tail.historyDigest = authority.historyDigest)

def inferAnchorTransition : InferredAnchorTransition :=
  let authority := coordinator.set.authority
  let voters := voterCount authority.topology
  let states := coordinator.activeParticipants.map fun participant =>
    participant.claimed.journal.scanState
  if voters ≠ 1 ∧ voters ≠ 3 then .none
  else if authority.kind ≠ .checkpoint then .none
  else if ¬ states.all (fullAt authority) then .none
  else if states.all fun state => state.activeAnchor.isNone then .firstAnchor
  else if states.length = voters then .replacement
  else .none

/-- The checkpoint that the journals are to be cut at, if it is known. -/
def targetAnchorDigest : Option Digest :=
  match coordinator.pendingAnchor with
  | some pending => some pending
  | none =>
    if coordinator.inferAnchorTransition = .none then none
    else some coordinator.set.authority.historyDigest

/-- An anchor that exists is replaced: every voter has to take part. -/
def superseding : Bool :=
  match coordinator.pendingAnchor with
  | some _ => true
  | none => decide (coordinator.inferAnchorTransition = .replacement)

def requiredParticipants : Nat :=
  if coordinator.recoveryOnly then 1
  else if coordinator.superseding then voterCount coordinator.set.authority.topology
  else coordinator.set.authority.topology.quorum

/-- The tail of a journal as an anchor. -/
def tailAnchor (state : ScanResult) (tail : Record) (historyDigest : Digest) : Option AnchorState :=
  if tail.kind = .checkpoint ∧ tail.historyDigest = historyDigest then
    some ⟨tail, state.tailRawRecordDigest, state.tailPhysicalSlot.getD 0⟩
  else none

/-- The anchor that a participant publishes. -/
def publicationAnchor (state : ScanResult) (tail : Record) :
    Option AnchorState :=
  match coordinator.targetAnchorDigest with
  | some pending => tailAnchor state tail pending
  | none =>
    match state.activeAnchor with
    | some anchor => some anchor
    | none =>
      if coordinator.recoveryOnly then
        tailAnchor state tail coordinator.set.authority.historyDigest
      else none

/-- What the publication did for one participant. -/
inductive PublishReport where
  | failed | nothing
  | anchor (anchor : AnchorState)
  deriving DecidableEq, Repr

/-- The outcomes of the writes of a rollover. -/
structure RolloverOutcome where
  first : Id → WriteOutcome
  second : Id → WriteOutcome
  clear : Id → Nat → WriteOutcome

/-- The publication of one participant. -/
def publishOne (outcome : RolloverOutcome) (memberId : Id)
    (claimed : Journal.Claimed) : Member × PublishReport :=
  let state := claimed.journal.scanState
  match state.tail with
  | none => (claimed.member, .failed)
  | some tail =>
    match coordinator.publicationAnchor state tail with
    | none => (claimed.member, .nothing)
    | some anchor =>
      let offset := claimed.member.header.control.offset + anchor.physicalSlot * 4096
      if offset > maxU64 then (claimed.member, .failed)
      else
        match claimed.member.publishCheckpointRedundant offset anchor.record.localSequence
            anchor.rawRecordDigest (outcome.first memberId) (outcome.second memberId) with
        | (member, .error _) => (member, .failed)
        | (member, .ok ()) => (member, .anchor anchor)

/-- A member after the publication. -/
def publishTo (outcome : RolloverOutcome) (supplied : Supplied) : Supplied :=
  match supplied.seat with
  | some ⟨journal, true⟩ =>
    match coordinator.publishOne outcome supplied.id ⟨supplied.member, journal⟩ with
    | (member, .failed) =>
      { supplied with member := member, status := .stale, seat := some ⟨journal, false⟩ }
    | (member, _) => { supplied with member := member }
  | _ => supplied

/-- The participants that published, with their anchors. -/
structure Publication where
  memberId : Id
  anchor : Option AnchorState
  deriving DecidableEq, Repr

def publications (outcome : RolloverOutcome) : List Publication :=
  coordinator.activeParticipants.filterMap fun participant =>
    match (coordinator.publishOne outcome participant.memberId participant.claimed).2 with
    | .failed => none
    | .nothing => some ⟨participant.memberId, none⟩
    | .anchor anchor => some ⟨participant.memberId, some anchor⟩

/-- One of the candidates has a quorum of the voters of its snapshot among `successes`. -/
def anchorQuorumAmong (all : List Publication) (successes : List Id) :
    List Publication → Except CoordinatorError Bool
  | [] => .ok false
  | candidate :: rest =>
    match candidate.anchor with
    | none => anchorQuorumAmong all successes rest
    | some anchor => do
        let snapshot ← withError .format
          (PoolAuthorityCheckpoint.validateCompactedRootRecord anchor.record)
        let witnesses := all.countP fun other =>
          decide (other.memberId ∈ successes) && (other.anchor.any fun held =>
              decide (held.record.historyDigest = anchor.record.historyDigest)) &&
            isVoter snapshot.topology other.memberId
        if snapshot.topology.quorum ≤ witnesses then .ok true
        else anchorQuorumAmong all successes rest

def hasAnchorQuorum (published : List Publication) (successes : List Id) :
    Except CoordinatorError Bool :=
  anchorQuorumAmong published successes published

/-- The phase has enough participants and, outside recovery, an anchor quorum. -/
def checkAnchorQuorum (recoveryOnly : Bool) (required : Nat) (published : List Publication)
    (successes : List Id) : Except CoordinatorError Bool :=
  if successes.length < required then .ok false
  else if recoveryOnly then .ok true
  else hasAnchorQuorum published successes

/-- The reclaim of one published participant. -/
def reclaimOne (outcome : RolloverOutcome) (publication : Publication)
    (claimed : Journal.Claimed) : Journal.Claimed × Bool :=
  match publication.anchor with
  | none => (claimed, true)
  | some _ =>
    match Journal.reclaimPublishedAnchor claimed (outcome.clear publication.memberId) with
    | (after, .error _) => (after, false)
    | (after, .ok ()) => (after, true)

/-- A member after the reclaim. -/
def reclaimTo (published : List Publication) (outcome : RolloverOutcome) (supplied : Supplied) :
    Supplied :=
  match supplied.seat, published.find? fun publication => publication.memberId = supplied.id with
  | some seat, some publication =>
    match reclaimOne outcome publication ⟨supplied.member, seat.journal⟩ with
    | (after, true) =>
      { supplied with member := after.member, seat := some ⟨after.journal, seat.active⟩ }
    | (after, false) =>
      { supplied with
        member := after.member, status := .stale, seat := some ⟨after.journal, false⟩ }
  | _, _ => supplied

/-- The members that reclaimed, in the order of the participants. -/
def reclaimedMembers (published : List Publication) (outcome : RolloverOutcome) : List Id :=
  coordinator.participants.filterMap fun participant =>
    (published.find? fun publication => publication.memberId = participant.memberId).bind
      fun publication =>
        if (reclaimOne outcome publication participant.claimed).2 then some participant.memberId
        else none

structure RolloverResult where
  activeMembers : List Id
  degraded : Bool
  deriving DecidableEq, Repr

/-- The coordinator with every member changed by `f`. -/
def mapMembers (f : Supplied → Supplied) (coordinator : ReplicatedJournal) : ReplicatedJournal :=
  { coordinator with
    set := { coordinator.set with supplied := coordinator.set.supplied.map f } }

/-- The reclaim phase, once the anchors are published. -/
def finishRollover (required : Nat) (published : List Publication) (outcome : RolloverOutcome) :
    ReplicatedJournal × Except CoordinatorError RolloverResult :=
  let reclaimed := coordinator.reclaimedMembers published outcome
  let after := coordinator.mapMembers (reclaimTo published outcome)
  match checkAnchorQuorum coordinator.recoveryOnly
      (if coordinator.recoveryOnly then 1 else coordinator.set.authority.topology.quorum)
      published reclaimed with
  | .error e => (after, .error e)
  | .ok false => (after.freeze, .error .reclaimQuorumFailed)
  | .ok true =>
    ({ after with
       set := after.set.noteControlReclaimed reclaimed
       reclaimRequired := false
       pendingAnchor := none },
      .ok ⟨reclaimed, decide (reclaimed.length ≠ required)⟩)

def resumeRolloverLocked (outcome : RolloverOutcome) :
    ReplicatedJournal × Except CoordinatorError RolloverResult :=
  let required := coordinator.requiredParticipants
  if ¬ coordinator.reclaimRequired then (coordinator, .error .rolloverNotRequired)
  else if coordinator.activeParticipants.length < required then
    (coordinator, .error .writeQuorumUnavailable)
  else
    let published := coordinator.publications outcome
    let after := coordinator.beginControlMutation.mapMembers (coordinator.publishTo outcome)
    match checkAnchorQuorum coordinator.recoveryOnly required published
        (published.map Publication.memberId) with
    | .error e => (after, .error e)
    | .ok false => (after.freeze, .error .anchorPublicationFailed)
    | .ok true => after.finishRollover required published outcome

def resumeRollover (outcome : RolloverOutcome) :
    ReplicatedJournal × Except CoordinatorError RolloverResult :=
  if coordinator.frozen then (coordinator, .error .coordinatorFrozen)
  else if ¬ coordinator.requireSetWriteReady then
    (coordinator.freeze, .error .coordinatorFrozen)
  else coordinator.resumeRolloverLocked outcome

/-- A checkpoint of all voters, followed by its publication and the reclaim. -/
def rolloverAuthorityCheckpoint (proposal : Record)
    (append : Id → WriteOutcome) (outcome : RolloverOutcome) :
    ReplicatedJournal × Except CoordinatorError CommitResult :=
  if coordinator.frozen then (coordinator, .error .coordinatorFrozen)
  else if ¬ coordinator.requireSetWriteReady then
    (coordinator.freeze, .error .coordinatorFrozen)
  else
    match coordinator.requireFullVoterSet 1 true with
    | .error e => (coordinator, .error e)
    | .ok () =>
      match coordinator.commitAuthorityCheckpointLocked proposal 1 append with
      | (after, .error e) => (after, .error e)
      | (after, .ok result) =>
        if result.committedMembers.length ≠ voterCount after.set.authority.topology then
          (after.abandon, .error .rolloverCheckpointIncomplete)
        else
          let pending := { after with
              reclaimRequired := true, pendingAnchor := some result.record.historyDigest }
          match pending.resumeRolloverLocked outcome with
          | (finished, .error e) => (finished.abandon, .error e)
          | (finished, .ok _) => (finished, .ok result)

end Zettide.ReplicatedJournal
