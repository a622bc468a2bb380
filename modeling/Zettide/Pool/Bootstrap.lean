import Zettide.Pool.Coordinator

/-! # Bootstrapping a member

Translation of `bootstrapMember`: the file of a joining member is created with the bootstrap record
as its first record, and then the voters append the same event. -/

namespace Zettide.ReplicatedJournal

variable [Blake3]

/-- The outcomes of the writes of a bootstrap. -/
structure BootstrapOutcome where
  create : Member.CreateOutcome
  append : Id → WriteOutcome

structure BootstrapResult where
  record : Record
  voterAckCount : Nat
  deriving DecidableEq, Repr

/-- The active members have the geometry of the target. -/
def validateBootstrapTargetGeometry (set : PoolMemberSet) (header : Header) :
    Except CoordinatorError Unit := do
  let ready ← orElseFail set.controlWrite .writeQuorumUnavailable
  let sources := set.supplied.filter fun member => member.id ∈ ready.activeMembers
  rejectIf (∃ source ∈ sources, ¬ PoolMemberSet.samePoolGeometry source.member.header header)
    (.set .inconsistentMemberGeometry)
  rejectIf (sources = []) (.set .memberUnavailable)

/-- The bootstrap record extends the authority and keeps what it says. -/
def checkBootstrapRecord (authority : PoolAuthority.Authority) (evidence : BootstrapEvidence)
    (record : Record) : Except CoordinatorError Unit := do
  rejectIf (evidence.topology ≠ authority.topology ∨ evidence.layout ≠ authority.layout)
    .bootstrapAuthorityMismatch
  rejectIf (record.previousHistoryDigest ≠ authority.historyDigest ∨
      record.membershipEpoch ≠ authority.membershipEpoch ∨
      record.writerTerm ≠ authority.writerTerm ∨ record.generation ≠ authority.generation ∨
      record.dataRootDigest ≠ authority.dataRootDigest)
    .bootstrapAuthorityMismatch

variable (coordinator : ReplicatedJournal)

/-- Everything of a bootstrap before the file of the target is created. -/
def prepareBootstrap (header : Header) (record : Record) :
    Except CoordinatorError (List Item) := do
  let set := coordinator.set
  rejectIf coordinator.reclaimRequired .reclaimBarrierRequired
  rejectIf coordinator.recoveryOnly .recoveryOnlyCoordinator
  rejectIf (set.suppliedCount = PoolTopology.maxMemberCount) (.set .tooManyPoolMembers)
  let evidence ← withError .format (MemberBootstrap.validateTargetFirstRecord header record)
  checkBootstrapRecord set.authority evidence record
  rejectIf (∃ member ∈ set.supplied, member.id = evidence.targetMemberId) .memberAlreadyPresent
  validateBootstrapTargetGeometry set header
  let items ← prepareAll (prepareItem record) .bootstrapHistoryDiverged
    (some record.historyDigest) (coordinator.targets 2)
  rejectIf ((coordinator.targets 2).length < set.authority.topology.quorum)
    .insufficientJournalCapacity
  .ok items

/-- The appends of the voters, once the target exists. -/
def finishBootstrap (items : List Item) (target : Member)
    (history : HistoryScan) (outcome : Id → WriteOutcome) :
    ReplicatedJournal × Except CoordinatorError BootstrapResult :=
  let begun := coordinator.beginControlMutation
  let reports := begun.acks Journal.appendPrepared items outcome
  let committed := begun.appendAll Journal.appendPrepared true items outcome
  match reports.head? with
  | none => (committed.freeze, .error .bootstrapQuorumFailed)
  | some first =>
    if reports.length < coordinator.set.authority.topology.quorum then
      (committed.freeze, .error .bootstrapQuorumFailed)
    else
      match committed.set.noteCommittedBootstrap first.result.record target history
          (reports.map Ack.memberId) with
      | .error e => (committed, .error (.set e))
      | .ok set => ({ committed with set := set }, .ok ⟨first.result.record, reports.length⟩)

/-- The coordinator and the file of the target after a bootstrap; there is no file when the checks
before its creation fail. -/
structure Bootstrapped where
  coordinator : ReplicatedJournal
  file : Option Storage
  result : Except CoordinatorError BootstrapResult

def bootstrapMember (header : Header) (record : Record)
    (outcome : BootstrapOutcome) : Bootstrapped :=
  if coordinator.frozen then ⟨coordinator, none, .error .coordinatorFrozen⟩
  else if ¬ coordinator.requireSetWriteReady then
    ⟨coordinator.freeze, none, .error .coordinatorFrozen⟩
  else
    match coordinator.prepareBootstrap header record with
    | .error e => ⟨coordinator, none, .error e⟩
    | .ok items =>
      match Member.createJoiningStorage header record outcome.create with
      | .error e => ⟨coordinator, none, .error (.journal e)⟩
      | .ok (file, .error e) => ⟨coordinator, some file, .error (.journal e)⟩
      | .ok (file, .ok target) =>
        match Journal.scanHistory target.header target.storage.slots with
        | .error e => ⟨coordinator, some file, .error (.format e)⟩
        | .ok history =>
          let finished := coordinator.finishBootstrap items target history outcome.append
          ⟨finished.1, some file, finished.2⟩

end Zettide.ReplicatedJournal
