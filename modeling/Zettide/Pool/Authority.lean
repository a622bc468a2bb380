import Zettide.Pool.Evidence

/-! # Authority selection

Translation of `pool_authority.zig`. The authority of a pool is the last event of its shared
history that enough members witness. `select` computes it from the scanned histories of a
collection of members: it finds a root (a compacted checkpoint, the genesis, or the replay of one
member's journal after an administrative recovery) and advances it from event to event. -/

namespace Zettide.PoolAuthority

open PoolTopology PoolAuthorityCheckpoint

/-- The event an authority comes from. -/
inductive Kind where
  | genesis | generationCommit | membershipCommit | memberBootstrap | checkpoint
  deriving DecidableEq, Repr

structure Authority where
  kind : Kind
  historyDigest : Digest
  dataRootDigest : Digest
  topology : Topology
  layout : Layout
  membershipEpoch : Nat
  writerTerm : Nat
  generation : Nat
  witnessCount : Nat
  administrativeRecovery : Bool
  deriving DecidableEq, Repr

structure CompactedRoot where
  authority : Authority
  parentHistoryDigest : Digest
  deriving DecidableEq, Repr

/-- The errors of authority selection. `evidence` is an error raised below it; `unfinished` stands
for a replay that did not end within the steps the model grants it. -/
inductive SelectError where
  | conflictingAuthority | ambiguousGenesisAuthority | noGenesisQuorum
  | conflictingCompactedAuthority | noCompactedRootQuorum | conflictingRecoveryAuthority
  | duplicateMemberHistory | unfinished
  | evidence (error : Error)
  deriving DecidableEq, Repr

/-- An error raised below authority selection. -/
def raise {α : Type} (x : Except Error α) : Except SelectError α :=
  match x with
  | .ok a => .ok a
  | .error e => .error (.evidence e)

@[simp] theorem raise_eq_ok {α : Type} (x : Except Error α) (a : α) :
    raise x = .ok a ↔ x = .ok a := by
  cases x <;> simp [raise]

def authorityRecordKind : Kind → RecordKind
  | .genesis => .genesis
  | .generationCommit => .generationCommit
  | .membershipCommit => .membershipCommit
  | .memberBootstrap => .memberBootstrap
  | .checkpoint => .checkpoint

def checkpointContext (authority : Authority) : AuthorityContext where
  historyDigest := authority.historyDigest
  dataRootDigest := authority.dataRootDigest
  topology := authority.topology
  layout := authority.layout
  membershipEpoch := authority.membershipEpoch
  writerTerm := authority.writerTerm
  generation := authority.generation
  administrativeRecovery := authority.administrativeRecovery

def authorityFromSnapshot (record : Record) (snapshot : Snapshot) (witnesses : Nat) :
    Authority where
  kind := .checkpoint
  historyDigest := record.historyDigest
  dataRootDigest := snapshot.dataRootDigest
  topology := snapshot.topology
  layout := snapshot.layout
  membershipEpoch := snapshot.topology.epoch
  writerTerm := snapshot.writerTerm
  generation := snapshot.generation
  witnessCount := witnesses
  administrativeRecovery := snapshot.administrativeRecovery

/-- The authority that a genesis record gives. -/
def authorityFromGenesis (record : Record) (payload : GenesisPayload) (witnesses : Nat) :
    Authority where
  kind := .genesis
  historyDigest := record.historyDigest
  dataRootDigest := record.dataRootDigest
  topology := payload.topology
  layout := payload.layout
  membershipEpoch := record.membershipEpoch
  writerTerm := record.writerTerm
  generation := record.generation
  witnessCount := witnesses
  administrativeRecovery := false

/-- The authority after a record that keeps topology, layout and recovery flag. -/
def authorityFromRecord (kind : Kind) (current : Authority) (record : Record) (witnesses : Nat) :
    Authority where
  kind := kind
  historyDigest := record.historyDigest
  dataRootDigest := record.dataRootDigest
  topology := current.topology
  layout := current.layout
  membershipEpoch := record.membershipEpoch
  writerTerm := record.writerTerm
  generation := record.generation
  witnessCount := witnesses
  administrativeRecovery := current.administrativeRecovery

/-- The authority after a membership commit. -/
def authorityFromMembership (current : Authority) (record : Record) (proposal : Proposal)
    (witnesses : Nat) : Authority where
  kind := .membershipCommit
  historyDigest := record.historyDigest
  dataRootDigest := record.dataRootDigest
  topology := proposal.topology
  layout := current.layout
  membershipEpoch := record.membershipEpoch
  writerTerm := record.writerTerm
  generation := record.generation
  witnessCount := witnesses
  administrativeRecovery :=
    current.administrativeRecovery || decide (proposal.mode = .administrativeRecovery)

/-- The authority after a checkpoint. -/
def authorityFromCheckpoint (current : Authority) (record : Record) (witnesses : Nat) :
    Authority :=
  { current with
    kind := .checkpoint, historyDigest := record.historyDigest, witnessCount := witnesses }

variable [Blake3]

def evidenceOf (authority : Authority) : Except Error PoolEvidence.Authority := do
  let topologyDigest ← digest authority.topology
  let layoutDigest ← PoolLayout.digest authority.layout
  .ok { historyDigest := authority.historyDigest
        dataRootDigest := authority.dataRootDigest
        topologyDigest := topologyDigest
        layoutDigest := layoutDigest
        membershipEpoch := authority.membershipEpoch
        writerTerm := authority.writerTerm
        generation := authority.generation }

/-! ## Witnesses -/

variable (history : HistoryScan)

def verifiedWitness (entry : HistoryEntry) : Except Error Record := do
  let record ← PoolEvidence.verifiedRecord entry
  rejectIf (record.memberId ≠ history.memberId) .witnessMemberMismatch
  .ok record

/-- Whether a history counts as witness of an event: `1` or `0`. -/
def voterWitness (historyDigest : Digest) (kind : RecordKind) (topology : Topology)
    (history : HistoryScan) : Except Error Nat :=
  if isVoter topology history.memberId then
    match history.findHistoryDigest historyDigest with
    | none => .ok 0
    | some entry => do
        let record ← verifiedWitness history entry
        .ok (if record.kind = kind then 1 else 0)
  else .ok 0

def countVoterWitnesses (historyDigest : Digest) (kind : RecordKind) (topology : Topology) :
    List HistoryScan → Except Error Nat
  | [] => .ok 0
  | history :: rest => do
      let here ← voterWitness historyDigest kind topology history
      let others ← countVoterWitnesses historyDigest kind topology rest
      .ok (here + others)

/-- The entry that the anchor of a history names. -/
def anchorEntry : Option HistoryEntry :=
  match history.scanResult.activeAnchor with
  | none => none
  | some anchor =>
    match history.findRawRecordDigest anchor.rawRecordDigest with
    | none => none
    | some entry => if entry.physicalSlot = anchor.physicalSlot then some entry else none

/-- Whether a history is anchored at the given event: `1` or `0`. -/
def anchorWitness (historyDigest : Digest) (topology : Topology) (history : HistoryScan) :
    Except Error Nat :=
  if isVoter topology history.memberId ∧
      ∃ anchor ∈ history.scanResult.activeAnchor, anchor.record.historyDigest = historyDigest then
    match anchorEntry history with
    | none => .ok 0
    | some entry => do
        let record ← verifiedWitness history entry
        let _ ← validateCompactedRootRecord record
        .ok 1
  else .ok 0

def countAnchorWitnesses (historyDigest : Digest) (topology : Topology) :
    List HistoryScan → Except Error Nat
  | [] => .ok 0
  | history :: rest => do
      let here ← anchorWitness historyDigest topology history
      let others ← countAnchorWitnesses historyDigest topology rest
      .ok (here + others)

variable (histories : List HistoryScan)

/-- Some history holds a prepare record with the given digest that extends the authority. -/
def prepareExtends (prepareHistoryDigest authorityHistoryDigest : Digest) : Bool :=
  histories.any fun history =>
    match history.findHistoryDigest prepareHistoryDigest with
    | none => false
    | some entry =>
      (entry.record.kind = .generationPrepare || entry.record.kind = .membershipPrepare) &&
        entry.record.previousHistoryDigest = authorityHistoryDigest

/-! ## Candidates for the next authority -/

def validateGenerationCandidate (current : Authority)
    (history : HistoryScan) (entry : HistoryEntry) : Except Error (Option Authority) :=
  if prepareExtends histories entry.record.previousHistoryDigest current.historyDigest then do
    let authority ← evidenceOf current
    let _ ← PoolEvidence.validateGenerationCommitEvidence history.memberId entry.rawRecordDigest
      histories current.topology authority
    let witnesses ← countVoterWitnesses entry.record.historyDigest .generationCommit
      current.topology histories
    if witnesses < current.topology.quorum then .ok none
    else .ok (some (authorityFromRecord .generationCommit current entry.record witnesses))
  else .ok none

def validateMembershipCandidate (current : Authority)
    (history : HistoryScan) (entry : HistoryEntry) : Except Error (Option Authority) :=
  if prepareExtends histories entry.record.previousHistoryDigest current.historyDigest then do
    let authority ← evidenceOf current
    let validated ← PoolEvidence.validateMembershipCommitEvidence history.memberId
      entry.rawRecordDigest histories current.topology authority
    let oldWitnesses ← countVoterWitnesses entry.record.historyDigest .membershipCommit
      current.topology histories
    let newWitnesses ← countVoterWitnesses entry.record.historyDigest .membershipCommit
      validated.proposal.topology histories
    if (validated.proposal.mode = .normal ∧ oldWitnesses < current.topology.quorum) ∨
        newWitnesses < validated.proposal.topology.quorum then .ok none
    else .ok (some (authorityFromMembership current entry.record validated.proposal newWitnesses))
  else .ok none

def validateBootstrapCandidate (current : Authority)
    (entry : HistoryEntry) : Except Error (Option Authority) :=
  if entry.record.previousHistoryDigest = current.historyDigest then do
    let authority ← evidenceOf current
    let validated ← PoolEvidence.validateMemberBootstrapEvidence entry.record.historyDigest
      histories current.topology current.layout authority
    .ok (some (authorityFromRecord .memberBootstrap current entry.record
      validated.voterWitnessCount))
  else .ok none

def validateCheckpointCandidate (current : Authority)
    (history : HistoryScan) (entry : HistoryEntry) : Except Error (Option Authority) :=
  if entry.record.previousHistoryDigest = current.historyDigest then do
    let witnesses ← countVoterWitnesses entry.record.historyDigest .checkpoint
      current.topology histories
    if witnesses < current.topology.quorum then .ok none
    else do
      let record ← verifiedWitness history entry
      let _ ← validateRecord record (checkpointContext current)
      .ok (some (authorityFromCheckpoint current record witnesses))
  else .ok none

/-- A membership commit counts in the history of an old voter, or of a voter of the topology it
proposes. -/
def membershipHolder (current : Authority) (history : HistoryScan) (entry : HistoryEntry) : Bool :=
  isVoter current.topology history.memberId ||
    match value (Membership.validateRecordProposal entry.record) with
    | none => false
    | some proposal => isVoter proposal.topology history.memberId

def validateCandidate (current : Authority)
    (history : HistoryScan) (entry : HistoryEntry) : Except Error (Option Authority) :=
  match entry.record.kind with
  | .generationCommit =>
    if isVoter current.topology history.memberId then
      validateGenerationCandidate histories current history entry
    else .ok none
  | .membershipCommit =>
    if membershipHolder current history entry then
      validateMembershipCandidate histories current history entry
    else .ok none
  | .memberBootstrap => validateBootstrapCandidate histories current entry
  | .checkpoint =>
    if isSnapshotRecord entry.record then
      validateCheckpointCandidate histories current history entry
    else .ok none
  | _ => .ok none

/-! ## Advancing an authority -/

/-- One entry in the search for the next authority; `next` is what the search found so far. -/
def considerEntry (authority : Authority) (history : HistoryScan)
    (entry : HistoryEntry) (next : Option Authority) : Except SelectError (Option Authority) :=
  if entry.record.historyDigest = authority.historyDigest then .ok next
  else do
    let candidate ← raise (validateCandidate histories authority history entry)
    match candidate, next with
    | none, next => .ok next
    | some candidate, none => .ok (some candidate)
    | some candidate, some selected => do
        rejectIf (selected.historyDigest ≠ candidate.historyDigest) .conflictingAuthority
        .ok (some selected)

def considerEntries (histories : List HistoryScan) (authority : Authority) (history : HistoryScan) :
    List HistoryEntry → Option Authority → Except SelectError (Option Authority)
  | [], next => .ok next
  | entry :: rest, next => do
      let next ← considerEntry histories authority history entry next
      considerEntries histories authority history rest next

/-- The search through the given histories, with the evidence of all of `histories`. -/
def considerHistories (histories : List HistoryScan) (authority : Authority) :
    List HistoryScan → Option Authority → Except SelectError (Option Authority)
  | [], next => .ok next
  | history :: rest, next => do
      let next ← considerEntries histories authority history history.entries next
      considerHistories histories authority rest next

/-- The authority that follows, if there is one. -/
def nextAuthority (authority : Authority) :
    Except SelectError (Option Authority) :=
  considerHistories histories authority histories none

/-- The loop of the replay; the first argument bounds its steps. -/
def advanceFrom (histories : List HistoryScan) : Nat → Authority → Except SelectError Authority
  | 0, _ => .error .unfinished
  | fuel + 1, authority => do
      let next ← nextAuthority histories authority
      match next with
      | none => .ok authority
      | some next => advanceFrom histories fuel next

/-- The number of entries of a collection of histories. -/
def entryCount : Nat :=
  (histories.flatMap HistoryScan.entries).length

/-- The replay: every step consumes an entry, so `entryCount + 1` steps are enough. -/
def advanceAuthority (root : Authority) :
    Except SelectError Authority :=
  advanceFrom histories (entryCount histories + 1) root

/-! ## Replay of one journal -/

def validateLocalPrepareCommit (prepare commit : Record) : Except Error Unit :=
  rejectIf (PoolEvidence.preparedFieldsDiffer prepare commit) .prepareCommitMismatch

def replayLocalGeneration (current : Authority) (commit : Record) :
    Except Error Authority := do
  let prepareEntry ← orElseFail (history.findHistoryDigest commit.previousHistoryDigest)
    .missingLocalPrepare
  let prepare ← verifiedWitness history prepareEntry
  rejectIf (prepare.kind ≠ .generationPrepare) .attestedRecordIsNotPrepare
  rejectIf (prepare.previousHistoryDigest ≠ current.historyDigest ∨
    prepare.historyDigest ≠ commit.previousHistoryDigest) .detachedLocalCommit
  validateLocalPrepareCommit prepare commit
  let topologyDigest ← digest current.topology
  let layoutDigest ← PoolLayout.digest current.layout
  rejectIf (commit.membershipEpoch ≠ current.membershipEpoch ∨
      commit.topologyDigest ≠ topologyDigest ∨ commit.layoutDigest ≠ layoutDigest)
    .generationChangedConfiguration
  rejectIf (current.generation = maxU64 ∨ commit.generation ≠ current.generation + 1)
    .unexpectedGeneration
  rejectIf (commit.writerTerm < current.writerTerm) .writerTermRegression
  let certificate ← PoolCertificate.decode commit.payload
  PoolCertificate.validateAgainstTopology certificate current.topology
  .ok (authorityFromRecord .generationCommit current commit 1)

def replayLocalMembership (current : Authority) (commit : Record) :
    Except Error Authority := do
  let prepareEntry ← orElseFail (history.findHistoryDigest commit.previousHistoryDigest)
    .missingLocalPrepare
  let prepare ← verifiedWitness history prepareEntry
  rejectIf (prepare.kind ≠ .membershipPrepare) .attestedRecordIsNotMembershipPrepare
  rejectIf (prepare.previousHistoryDigest ≠ current.historyDigest ∨
    prepare.historyDigest ≠ commit.previousHistoryDigest) .detachedLocalCommit
  validateLocalPrepareCommit prepare commit
  let proposal ← Membership.validateRecordProposal commit
  let _ ← Membership.validateRecordProposal prepare
  Membership.validateTransition current.topology proposal
  rejectIf (¬ PoolEvidence.sameProposalBytes prepare commit) .membershipProposalMismatch
  let _ ← Membership.decodeCertificate current.topology proposal.topology proposal.mode
    (Membership.commitCertificatePart commit)
  let layoutDigest ← PoolLayout.digest current.layout
  rejectIf (commit.generation ≠ current.generation ∨
      commit.dataRootDigest ≠ current.dataRootDigest ∨ commit.layoutDigest ≠ layoutDigest)
    .membershipChangedAuthorityData
  rejectIf (commit.writerTerm < current.writerTerm) .writerTermRegression
  .ok (authorityFromMembership current commit proposal 1)

def replayLocalBootstrap (current : Authority) (record : Record) : Except Error Authority := do
  rejectIf (record.previousHistoryDigest ≠ current.historyDigest) .bootstrapDoesNotExtendAuthority
  let evidence ← MemberBootstrap.validateRecord record
  rejectIf (evidence.topology ≠ current.topology ∨ evidence.layout ≠ current.layout ∨
      record.membershipEpoch ≠ current.membershipEpoch ∨
      record.writerTerm ≠ current.writerTerm ∨ record.generation ≠ current.generation ∨
      record.dataRootDigest ≠ current.dataRootDigest) .bootstrapChangedAuthority
  .ok (authorityFromRecord .memberBootstrap current record 1)

def replayLocalCheckpoint (current : Authority) (record : Record) : Except Error Authority := do
  let _ ← validateRecord record (checkpointContext current)
  .ok (authorityFromCheckpoint current record 1)

/-- One entry in the replay of a journal. -/
def replayLocalEntry (current : Authority) (entry : HistoryEntry) :
    Except Error Authority := do
  let record ← verifiedWitness history entry
  match record.kind with
  | .generationCommit => replayLocalGeneration history current record
  | .membershipCommit => replayLocalMembership history current record
  | .memberBootstrap => replayLocalBootstrap current record
  | .checkpoint =>
    if isSnapshotRecord record then replayLocalCheckpoint current record
    else .ok current
  | _ => .ok current

/-- The replay loop. An entry that does not extend the authority ends the replay, with its error
if the whole journal has to be committed. -/
def replayLocal (history : HistoryScan) (requireCommittedTail : Bool) :
    List HistoryEntry → Authority → Except Error Authority
  | [], authority => .ok authority
  | entry :: rest, authority =>
    match replayLocalEntry history authority entry with
    | .ok next => replayLocal history requireCommittedTail rest next
    | .error e => if requireCommittedTail then .error e else .ok authority

/-- The checks after the replay loop. -/
def finishLocalReplay (requireCommittedTail : Bool) (missing : Error)
    (authority : Authority) : Except Error Authority := do
  if requireCommittedTail then do
    let tail ← orElseFail history.scanResult.tail missing
    rejectIf (tail.historyDigest ≠ authority.historyDigest) .recoveryTailIsNotCommitted
  else .ok ()
  rejectIf (¬ isVoter authority.topology history.memberId) .trustedMemberIsNotCurrentVoter
  .ok authority

/-- The entries after the first one with the given raw digest. -/
def entriesAfter (rawRecordDigest : Digest) : List HistoryEntry :=
  (history.entries.dropWhile fun entry => entry.rawRecordDigest ≠ rawRecordDigest).drop 1

def selectAnchoredAdministrativeRecovery (requireCommittedTail : Bool) :
    Except Error Authority := do
  let entry ← orElseFail (anchorEntry history) .missingAuthorityAnchor
  let record ← verifiedWitness history entry
  let snapshot ← validateCompactedRootRecord record
  rejectIf (¬ isVoter snapshot.topology history.memberId) .trustedMemberIsNotVoter
  let authority ← replayLocal history requireCommittedTail
    (entriesAfter history entry.rawRecordDigest) (authorityFromSnapshot record snapshot 1)
  finishLocalReplay history requireCommittedTail .missingAuthorityAnchor authority

def selectLocalRecoveryAuthority (requireCommittedTail : Bool) :
    Except Error Authority := do
  rejectIf (history.scanResult.unresolvedTailDamage ∧ ¬ history.scanResult.anchored)
    .journalNeedsRecovery
  if history.scanResult.anchored then
    selectAnchoredAdministrativeRecovery history requireCommittedTail
  else
    match history.entries with
    | [] => .error .missingGenesis
    | first :: rest => do
        let genesis ← verifiedWitness history first
        rejectIf (genesis.kind ≠ .genesis) .missingGenesis
        let payload ← PoolGenesis.validateRecord genesis
        rejectIf (¬ isVoter payload.topology history.memberId) .trustedMemberIsNotVoter
        let authority ← replayLocal history requireCommittedTail rest
          (authorityFromGenesis genesis payload 1)
        finishLocalReplay history requireCommittedTail .missingGenesis authority

def selectAdministrativeRecovery : Except Error Authority :=
  selectLocalRecoveryAuthority history true

/-! ## Roots -/

/-- The genesis that a history supports, with its witnesses. -/
def genesisCandidate (history : HistoryScan) :
    Except Error (Option Authority) :=
  match history.entries with
  | [] => .ok none
  | first :: _ => do
      let record ← verifiedWitness history first
      if record.kind ≠ .genesis then .ok none
      else
        match PoolGenesis.validateRecord record with
        | .error _ => .ok none
        | .ok payload => do
            let witnesses ← countVoterWitnesses record.historyDigest .genesis payload.topology
              histories
            if witnesses < payload.topology.quorum then .ok none
            else .ok (some (authorityFromGenesis record payload witnesses))

/-- The search for a root: the first candidate is selected, and every later one has to agree with
it. -/
def searchRoot {α : Type} (candidateOf : HistoryScan → Except SelectError (Option α))
    (digestOf : α → Digest) (conflict : SelectError) :
    List HistoryScan → Option α → Except SelectError (Option α)
  | [], selected => .ok selected
  | history :: rest, selected => do
      let candidate ← candidateOf history
      match candidate, selected with
      | none, selected => searchRoot candidateOf digestOf conflict rest selected
      | some candidate, none => searchRoot candidateOf digestOf conflict rest (some candidate)
      | some candidate, some current => do
          rejectIf (digestOf current ≠ digestOf candidate) conflict
          searchRoot candidateOf digestOf conflict rest (some current)

def selectGenesis : Except SelectError Authority := do
  let selected ← searchRoot (fun history => raise (genesisCandidate histories history))
    Authority.historyDigest .ambiguousGenesisAuthority histories none
  orElseFail selected .noGenesisQuorum

/-- The compacted root that a history supports, with its witnesses. -/
def compactedCandidate (history : HistoryScan) :
    Except Error (Option CompactedRoot) :=
  match anchorEntry history with
  | none => .ok none
  | some entry => do
      let record ← verifiedWitness history entry
      let snapshot ← validateCompactedRootRecord record
      let witnesses ← countAnchorWitnesses record.historyDigest snapshot.topology histories
      if witnesses < snapshot.topology.quorum then .ok none
      else .ok (some ⟨authorityFromSnapshot record snapshot witnesses,
        snapshot.previousAuthorityHistoryDigest⟩)

def selectCompactedRoot : Except SelectError CompactedRoot := do
  let selected ← searchRoot (fun history => raise (compactedCandidate histories history))
    (fun root => root.authority.historyDigest) .conflictingCompactedAuthority histories none
  orElseFail selected .noCompactedRootQuorum

/-- The authority that the journal of one member leads to after an administrative recovery, when
enough members witness it. -/
def recoveryCandidate (history : HistoryScan) :
    Except SelectError (Option Authority) :=
  match selectLocalRecoveryAuthority history false with
  | .error _ => .ok none
  | .ok start =>
    if ¬ start.administrativeRecovery then .ok none
    else do
      let candidate ← advanceAuthority histories start
      let witnesses ← raise (countVoterWitnesses candidate.historyDigest
        (authorityRecordKind candidate.kind) candidate.topology histories)
      if witnesses < candidate.topology.quorum then .ok none
      else .ok (some { candidate with witnessCount := witnesses })

def selectRecoveryRoot : Except SelectError Authority := do
  let selected ← searchRoot (recoveryCandidate histories) Authority.historyDigest
    .conflictingRecoveryAuthority histories none
  orElseFail selected .noGenesisQuorum

/-! ## Selection -/

/-- The error `expected` is no result; any other error is passed on. -/
def catchError {α : Type} (expected : SelectError) (x : Except SelectError α) :
    Except SelectError (Option α) :=
  match x with
  | .ok a => .ok (some a)
  | .error e => if e = expected then .ok none else .error e

def reconcileCompactedRoot (root : CompactedRoot) (selected candidate : Authority) :
    Except SelectError Unit :=
  if candidate.historyDigest = selected.historyDigest ∨
      candidate.historyDigest = root.authority.historyDigest ∨
      candidate.historyDigest = root.parentHistoryDigest then .ok ()
  else if candidate.kind = .genesis ∧
      candidate.topology.setId = root.authority.topology.setId then .ok ()
  else .error .conflictingAuthority

/-- No two histories are of the same member. -/
def validateUniqueHistories : Except SelectError Unit :=
  rejectIf (¬ (histories.map HistoryScan.memberId).Nodup) .duplicateMemberHistory

def select : Except SelectError Authority := do
  validateUniqueHistories histories
  let compacted ← catchError .noCompactedRootQuorum (selectCompactedRoot histories)
  let genesis ← catchError .noGenesisQuorum (selectGenesis histories)
  match compacted, genesis with
  | some root, some genesisRoot => do
      let selected ← advanceAuthority histories root.authority
      let legacy ← advanceAuthority histories genesisRoot
      reconcileCompactedRoot root selected legacy
      let recovery ← catchError .noGenesisQuorum (selectRecoveryRoot histories)
      match recovery with
      | none => .ok selected
      | some candidate => do
          reconcileCompactedRoot root selected candidate
          .ok selected
  | some root, none => do
      let selected ← advanceAuthority histories root.authority
      let recovery ← catchError .noGenesisQuorum (selectRecoveryRoot histories)
      match recovery with
      | none => .ok selected
      | some candidate => do
          reconcileCompactedRoot root selected candidate
          .ok selected
  | none, some root => advanceAuthority histories root
  | none, none => selectRecoveryRoot histories

end Zettide.PoolAuthority
