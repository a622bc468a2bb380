import Zettide.Pool.Coordinator

/-! # Catching up a member

Translation of `catchUpControlForMember`: the records that a non-voter of the genesis lacks are
copied to it from the journal of an active participant. -/

namespace Zettide.ReplicatedJournal

open PoolTopology

inductive CatchupError where
  | coordinator (error : CoordinatorError)
  | journal (error : JournalError)
  | format (error : Error)
  | targetNotInTopology | targetMustBeActiveNonVoter | targetUnavailable | targetIsNotGenesisMember
  | targetDamaged | missingGenesis | crossesVoterRole | crossesCheckpoint | historyUnavailable
  | insufficientJournalCapacity | recordSequenceOverflow | historyDiverged | outcomeUnknown
  | memberNotCaughtUp
  deriving DecidableEq, Repr

variable [Blake3]

/-! ## The source of the missing records -/

/-- What looking for the missing records in one journal gives. -/
inductive CatchupSource where
  | useless | crossedVoterRole | crossedCheckpoint
  | found (records : List Record)
  deriving DecidableEq, Repr

/-- The topology after the membership commits among the records. -/
def replayTopology : List Record → Topology → Option Topology
  | [], topology => some topology
  | record :: rest, topology =>
    if record.kind ≠ .membershipCommit then replayTopology rest topology
    else
      match Membership.validateRecordProposal record with
      | .error _ => none
      | .ok proposal => replayTopology rest proposal.topology

/-- The records after the tail of the target lead to the authority, without a checkpoint and without
making the target a voter. -/
def followRecords (targetId : Id) (authorityDigest : Digest) :
    List Record → Topology → Digest → CatchupSource
  | [], _, expected => if expected = authorityDigest then .found [] else .useless
  | record :: rest, topology, expected =>
    if record.previousHistoryDigest ≠ expected then .useless
    else if record.kind = .checkpoint then .crossedCheckpoint
    else if record.kind ≠ .membershipCommit then
      match followRecords targetId authorityDigest rest topology record.historyDigest with
      | .found records => .found (record :: records)
      | other => other
    else
      match Membership.validateRecordProposal record with
      | .error _ => .useless
      | .ok proposal =>
        if isVoter topology targetId ∨ isVoter proposal.topology targetId then
          .crossedVoterRole
        else
          match followRecords targetId authorityDigest rest proposal.topology
              record.historyDigest with
          | .found records => .found (record :: records)
          | other => other

/-- The topology that the first record of a journal gives. -/
def firstTopology (record : Record) : Option Topology :=
  match record.kind with
  | .genesis => (value (PoolGenesis.validateRecord record)).map GenesisPayload.topology
  | .memberBootstrap =>
    (value (MemberBootstrap.validateRecord record)).map BootstrapEvidence.topology
  | _ => none

/-- The missing records in the history of one participant. -/
def sourceIn (targetId : Id) (targetTail authorityDigest : Digest) (history : HistoryScan) :
    CatchupSource :=
  let records := history.entries.map HistoryEntry.record
  match history.scanResult.tail, records with
  | some tail, first :: rest =>
    if tail.historyDigest ≠ authorityDigest then .useless
    else
      let position := records.findIdx fun record => record.historyDigest = targetTail
      if position = records.length then .useless
      else
        match (firstTopology first).bind (replayTopology (rest.take position)) with
        | none => .useless
        | some topology =>
          if isVoter topology targetId then .crossedVoterRole
          else followRecords targetId authorityDigest (rest.drop position) topology targetTail
  | _, _ => .useless

/-- The first participant with the missing records. What the others crossed is kept for the
error. -/
def findSource (targetId : Id) (targetTail authorityDigest : Digest) :
    List Participant → Bool → Bool → Except CatchupError (List Record)
  | [], voterRole, checkpoint =>
    if voterRole then .error .crossesVoterRole
    else if checkpoint then .error .crossesCheckpoint
    else .error .historyUnavailable
  | participant :: rest, voterRole, checkpoint =>
    let member := participant.claimed.member
    match Journal.scanHistory member.header member.storage.slots with
    | .error _ => findSource targetId targetTail authorityDigest rest voterRole checkpoint
    | .ok history =>
      match sourceIn targetId targetTail authorityDigest history with
      | .useless => findSource targetId targetTail authorityDigest rest voterRole checkpoint
      | .crossedVoterRole =>
        findSource targetId targetTail authorityDigest rest true checkpoint
      | .crossedCheckpoint =>
        findSource targetId targetTail authorityDigest rest voterRole true
      | .found records => .ok records

/-! ## Copying the records -/

/-- Appends the records one by one; `outcome` gives the outcome of each write. The error says
whether the failure is noted in the set. -/
def replayRecords (outcome : Nat → WriteOutcome) :
    Nat → List Record → Journal.Claimed → Journal.Claimed × Except (Bool × CatchupError) Unit
  | _, [], claimed => (claimed, .ok ())
  | step, record :: rest, claimed =>
    match Journal.tailToken claimed.journal with
    | .error e => (claimed, .error (false, .journal e))
    | .ok token =>
      match Journal.prepareExact claimed.journal claimed.member token record with
      | .error e => (claimed, .error (true, .journal e))
      | .ok prepared =>
        if prepared.record.historyDigest ≠ record.historyDigest then
          (claimed, .error (false, .historyDiverged))
        else
          match Journal.appendPrepared claimed prepared (outcome step) with
          | (after, .error _) => (after, .error (true, .outcomeUnknown))
          | (after, .ok _) => replayRecords outcome (step + 1) rest after

/-- The scan of the target shows that it has caught up. -/
def checkCaughtUp (authority : PoolAuthority.Authority) (member : Member)
    (history : HistoryScan) : Except CatchupError Unit := do
  let tail ← orElseFail history.scanResult.tail .missingGenesis
  rejectIf (history.memberId ≠ member.header.memberId) .memberNotCaughtUp
  rejectIf (tail.historyDigest ≠ authority.historyDigest ∨ history.scanResult.unresolvedTailDamage ∨
      Journal.availableSlotCount history.scanResult < 3) .memberNotCaughtUp

variable (coordinator : ReplicatedJournal)

/-- The target, as far as it has to be checked before it is scanned. -/
def catchupTarget (targetId : Id) :
    Except CatchupError Supplied := do
  let authority := coordinator.set.authority
  rejectIf coordinator.recoveryOnly (.coordinator .recoveryOnlyCoordinator)
  let descriptor ← orElseFail (findMember authority.topology targetId) .targetNotInTopology
  rejectIf (descriptor.state ≠ .active ∨ descriptor.controlRole = voterRole)
    .targetMustBeActiveNonVoter
  let supplied ← orElseFail (PoolMemberSet.findSuppliedMember coordinator.set.supplied targetId)
    .targetUnavailable
  rejectIf (supplied.member.mode ≠ .writable ∨ supplied.member.frozen) .targetUnavailable
  .ok supplied

/-- The records between the tail of the target and the authority. -/
def recordsAfter (targetId : Id) (tail : Record) :
    Except CatchupError (List Record) :=
  let authorityDigest := coordinator.set.authority.historyDigest
  if tail.historyDigest = authorityDigest then .ok []
  else
    findSource targetId tail.historyDigest authorityDigest coordinator.activeParticipants false
      false

/-- The records to copy, once the target is scanned. -/
def missingRecords (targetId : Id) (history : HistoryScan) :
    Except CatchupError (List Record) := do
  let first ← orElseFail history.entries.head? .targetIsNotGenesisMember
  rejectIf (first.record.kind ≠ .genesis) .targetIsNotGenesisMember
  let genesis ← withError .format (PoolGenesis.validateRecord first.record)
  rejectIf ((findMember genesis.topology targetId).isNone) .targetIsNotGenesisMember
  rejectIf (history.scanResult.unresolvedTailDamage ∨ history.scanResult.anchored) .targetDamaged
  let tail ← orElseFail history.scanResult.tail .missingGenesis
  let records ← coordinator.recordsAfter targetId tail
  rejectIf (Journal.availableSlotCount history.scanResult < records.length + 3)
    .insufficientJournalCapacity
  rejectIf (tail.localSequence + records.length > maxU64) .recordSequenceOverflow
  .ok records

/-- A failed catch-up makes the target stale. -/
def noteCatchupFailure (targetId : Id) : ReplicatedJournal :=
  let supplied := PoolMemberSet.setStatus coordinator.set.supplied targetId .stale
  { coordinator with
    set := { coordinator.set with
             supplied := supplied
             dataAccess := PoolMemberSet.dataAccessOf coordinator.set.authority
               coordinator.set.authority.topology supplied } }

/-- The coordinator with the target as the copying has left it. -/
def putMember (targetId : Id) (member : Member) :
    ReplicatedJournal :=
  { coordinator with
    set := { coordinator.set with
             supplied := PoolMemberSet.updateMember coordinator.set.supplied targetId
               fun supplied => { supplied with member := member } } }

/-- The target is scanned again and takes part with what the scan shows. -/
def finishCatchup (targetId : Id) (member : Member) :
    ReplicatedJournal × Except CatchupError Unit :=
  match Journal.scanHistory member.header member.storage.slots with
  | .error e => (coordinator.noteCatchupFailure targetId, .error (.format e))
  | .ok history =>
    match checkCaughtUp coordinator.set.authority member history with
    | .error e => (coordinator.noteCatchupFailure targetId, .error e)
    | .ok () =>
      let supplied := PoolMemberSet.updateMember coordinator.set.supplied targetId
        fun supplied => { supplied with history := some history, status := .authority }
      ({ coordinator with
         set := { coordinator.set with
                  supplied := supplied
                  dataAccess := PoolMemberSet.dataAccessOf coordinator.set.authority
                    coordinator.set.authority.topology supplied } }, .ok ())

/-- The copying of the missing records; a target that is a participant is already claimed. -/
def copyRecords (targetId : Id) (supplied : Supplied)
    (records : List Record) (outcome : Nat → WriteOutcome) :
    ReplicatedJournal × Except CatchupError Unit :=
  if records = [] then coordinator.finishCatchup targetId supplied.member
  else
    match Journal.openMember supplied.member, supplied.seat with
    | .ok journal, none =>
      match replayRecords outcome 0 records ⟨supplied.member, journal⟩ with
      | (after, .error (noted, e)) =>
        let put := coordinator.putMember targetId after.member
        (if noted then put.noteCatchupFailure targetId else put, .error e)
      | (after, .ok ()) =>
        (coordinator.putMember targetId after.member).finishCatchup targetId after.member
    | _, _ => (coordinator.noteCatchupFailure targetId, .error .targetUnavailable)

def catchUpControlForMember (targetId : Id)
    (outcome : Nat → WriteOutcome) : ReplicatedJournal × Except CatchupError Unit :=
  if coordinator.frozen then (coordinator, .error (.coordinator .coordinatorFrozen))
  else if ¬ coordinator.requireSetWriteReady then
    (coordinator.freeze, .error (.coordinator .coordinatorFrozen))
  else
    match coordinator.catchupTarget targetId with
    | .error e => (coordinator, .error e)
    | .ok supplied =>
      match Journal.scanHistory supplied.member.header supplied.member.storage.slots with
      | .error e => (coordinator.noteCatchupFailure targetId, .error (.format e))
      | .ok history =>
        match coordinator.missingRecords targetId history with
        | .error e => (coordinator, .error e)
        | .ok records => coordinator.copyRecords targetId supplied records outcome

end Zettide.ReplicatedJournal
