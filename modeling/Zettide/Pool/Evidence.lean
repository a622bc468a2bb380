import Zettide.Journal.Scan

/-! # Evidence for commits and bootstraps

Translation of `pool_evidence.zig`: what the histories of several members have to contain for a
generation commit, a membership commit or a member bootstrap to count. -/

namespace Zettide.PoolEvidence

open PoolTopology

/-- The authority that a piece of evidence has to extend. -/
structure Authority where
  historyDigest : Digest
  dataRootDigest : Digest
  topologyDigest : Digest
  layoutDigest : Digest
  membershipEpoch : Nat
  writerTerm : Nat
  generation : Nat
  deriving DecidableEq, Repr

structure ValidatedBootstrap where
  evidence : BootstrapEvidence
  voterWitnessCount : Nat
  deriving DecidableEq, Repr

structure ValidatedMembership where
  proposal : Proposal
  certificate : MembershipCertificate
  deriving DecidableEq, Repr

variable [Blake3]

/-- The entry of a history with its bytes checked again. -/
def verifiedRecord (entry : HistoryEntry) : Except Error Record := do
  rejectIf (entry.rawRecordDigest ≠ ControlRecord.recordDigest entry.rawRecord)
    .evidenceRecordDigestMismatch
  let record ← ControlRecord.decode entry.rawRecord
  ControlRecord.validateDynamicPoolPolicy record
  rejectIf (record ≠ entry.record) .evidenceRecordMismatch
  .ok record

variable (histories : List HistoryScan)

/-- The entry with the given raw digest in the only history of the given member. -/
def findEvidenceRecord (memberId : Id) (rawRecordDigest : Digest)
    (missingMember missingRecord : Error) : Except Error HistoryEntry :=
  match histories.filter fun history => history.memberId = memberId with
  | [] => .error missingMember
  | [history] => orElseFail (history.findRawRecordDigest rawRecordDigest) missingRecord
  | _ => .error .duplicateMemberHistory

/-- The fields of a prepare record that its commit repeats. -/
def preparedFieldsDiffer (prepare commit : Record) : Prop :=
  prepare.setId ≠ commit.setId ∨ prepare.membershipEpoch ≠ commit.membershipEpoch ∨
    prepare.writerTerm ≠ commit.writerTerm ∨ prepare.generation ≠ commit.generation ∨
    prepare.mountSessionId ≠ commit.mountSessionId ∨
    prepare.transactionId ≠ commit.transactionId ∨
    prepare.dataRootDigest ≠ commit.dataRootDigest ∨
    prepare.topologyDigest ≠ commit.topologyDigest ∨
    prepare.layoutDigest ≠ commit.layoutDigest

instance (prepare commit : Record) : Decidable (preparedFieldsDiffer prepare commit) :=
  inferInstanceAs (Decidable (_ ∨ _ ∨ _ ∨ _ ∨ _ ∨ _ ∨ _ ∨ _ ∨ _))

/-- The binding of a prepare record to its commit and to the authority. The source has this check
once for generations and once for memberships, with the same body. -/
def validatePrepareCommitBinding (prepare commit : Record) (authorityHistoryDigest : Digest) :
    Except Error Unit := do
  rejectIf (prepare.previousHistoryDigest ≠ authorityHistoryDigest) .prepareDoesNotExtendAuthority
  rejectIf (prepare.historyDigest ≠ commit.previousHistoryDigest) .commitDoesNotExtendPrepare
  rejectIf (preparedFieldsDiffer prepare commit) .prepareCommitMismatch

/-! ## Generation commits -/

/-- One attested prepare record of a generation commit. -/
def validateGenerationPrepare (commit : Record)
    (authorityHistoryDigest : Digest) (attestation : Attestation) : Except Error Unit := do
  let prepareEntry ← findEvidenceRecord histories attestation.memberId
    attestation.prepareRecordDigest .missingPrepareMember .missingPrepareRecord
  let prepare ← verifiedRecord prepareEntry
  rejectIf (prepare.kind ≠ .generationPrepare) .attestedRecordIsNotPrepare
  rejectIf (prepare.memberId ≠ attestation.memberId) .prepareMemberMismatch
  rejectIf (prepare.historyDigest ≠ attestation.prepareHistoryDigest) .prepareHistoryDigestMismatch
  validatePrepareCommitBinding prepare commit authorityHistoryDigest

/-- The same check for every element of a list, in order. -/
def checkAll (check : Attestation → Except Error Unit) : List Attestation → Except Error Unit
  | [] => .ok ()
  | attestation :: rest => do
      check attestation
      checkAll check rest

/-- The shared prepare digest of a certificate. -/
def sharedPrepareDigest (attestations : List Attestation) : Digest :=
  match attestations with
  | [] => 0
  | attestation :: _ => attestation.prepareHistoryDigest

def validateGenerationCommitEvidence (commitMemberId : Id) (commitRawRecordDigest : Digest)
    (histories : List HistoryScan) (topology : Topology) (authority : Authority) :
    Except Error PoolCertificate := do
  validate topology
  let topologyDigest ← digest topology
  rejectIf (authority.membershipEpoch ≠ topology.epoch ∨
    authority.topologyDigest ≠ topologyDigest) .authorityTopologyMismatch
  let commitEntry ← findEvidenceRecord histories commitMemberId commitRawRecordDigest
    .missingCommitMember .missingCommitRecord
  let commit ← verifiedRecord commitEntry
  rejectIf (commit.kind ≠ .generationCommit) .notGenerationCommit
  rejectIf (commit.memberId ≠ commitMemberId) .commitMemberMismatch
  rejectIf (¬ isVoter topology commit.memberId) .commitMemberIsNotVoter
  rejectIf (commit.membershipEpoch ≠ topology.epoch) .membershipEpochMismatch
  rejectIf (commit.topologyDigest ≠ authority.topologyDigest) .topologyDigestMismatch
  rejectIf (commit.layoutDigest ≠ authority.layoutDigest) .layoutDigestMismatch
  rejectIf (authority.generation = maxU64 ∨ commit.generation ≠ authority.generation + 1)
    .unexpectedGeneration
  rejectIf (commit.writerTerm < authority.writerTerm) .writerTermRegression
  let certificate ← PoolCertificate.decode commit.payload
  PoolCertificate.validateAgainstTopology certificate topology
  rejectIf (commit.previousHistoryDigest ≠ sharedPrepareDigest certificate.attestations)
    .commitDoesNotExtendPrepare
  checkAll (validateGenerationPrepare histories commit authority.historyDigest)
    certificate.attestations
  .ok certificate

/-! ## Membership commits -/

def validateAuthorityBinding (record : Record) (authority : Authority) : Except Error Unit := do
  rejectIf (record.writerTerm < authority.writerTerm) .writerTermRegression
  rejectIf (record.generation ≠ authority.generation ∨
      record.dataRootDigest ≠ authority.dataRootDigest ∨
      record.layoutDigest ≠ authority.layoutDigest) .membershipChangedAuthorityData

/-- The prepare payload carries the proposal bytes of the commit payload. -/
def sameProposalBytes (prepare commit : Record) : Bool :=
  match prepare.payload, commit.payload with
  | .proposal p, .membershipCommit q _ => p = q
  | _, _ => false

/-- One attested prepare record of a membership commit. -/
def validateMembershipPrepare (commit : Record)
    (authorityHistoryDigest : Digest) (attestation : Attestation) : Except Error Unit := do
  let prepareEntry ← findEvidenceRecord histories attestation.memberId
    attestation.prepareRecordDigest .missingPrepareMember .missingPrepareRecord
  let prepare ← verifiedRecord prepareEntry
  rejectIf (prepare.kind ≠ .membershipPrepare) .attestedRecordIsNotMembershipPrepare
  rejectIf (prepare.memberId ≠ attestation.memberId) .prepareMemberMismatch
  rejectIf (prepare.historyDigest ≠ attestation.prepareHistoryDigest) .prepareHistoryDigestMismatch
  rejectIf (¬ sameProposalBytes prepare commit) .membershipProposalMismatch
  let _ ← Membership.validateRecordProposal prepare
  validatePrepareCommitBinding prepare commit authorityHistoryDigest

def validateMembershipCommitEvidence (commitMemberId : Id) (commitRawRecordDigest : Digest)
    (histories : List HistoryScan) (currentTopology : Topology) (authority : Authority) :
    Except Error ValidatedMembership := do
  validate currentTopology
  rejectIf (authority.membershipEpoch ≠ currentTopology.epoch) .authorityTopologyMismatch
  let topologyDigest ← digest currentTopology
  rejectIf (authority.topologyDigest ≠ topologyDigest) .authorityTopologyMismatch
  let commitEntry ← findEvidenceRecord histories commitMemberId commitRawRecordDigest
    .missingCommitMember .missingCommitRecord
  let commit ← verifiedRecord commitEntry
  rejectIf (commit.kind ≠ .membershipCommit) .notMembershipCommit
  rejectIf (commit.memberId ≠ commitMemberId) .commitMemberMismatch
  let proposal ← Membership.validateRecordProposal commit
  Membership.validateTransition currentTopology proposal
  rejectIf (¬ isVoter currentTopology commit.memberId ∧ ¬ isVoter proposal.topology commit.memberId)
    .commitMemberIsNotVoter
  validateAuthorityBinding commit authority
  let certificate ← Membership.decodeCertificate currentTopology proposal.topology proposal.mode
    (Membership.commitCertificatePart commit)
  let attestations := certificate.oldGroup ++ certificate.newGroup
  rejectIf (commit.previousHistoryDigest ≠ sharedPrepareDigest attestations)
    .commitDoesNotExtendPrepare
  checkAll (validateMembershipPrepare histories commit authority.historyDigest) attestations
  .ok ⟨proposal, certificate⟩

/-! ## Member bootstraps -/

def validateBootstrapAuthorityBinding (record : Record) (topology : Topology) (layout : Layout)
    (authority : Authority) : Except Error Unit := do
  rejectIf (record.previousHistoryDigest ≠ authority.historyDigest) .bootstrapDoesNotExtendAuthority
  let topologyDigest ← digest topology
  let layoutDigest ← PoolLayout.digest layout
  rejectIf (record.membershipEpoch ≠ topology.epoch ∨ record.writerTerm ≠ authority.writerTerm ∨
      record.generation ≠ authority.generation ∨
      record.dataRootDigest ≠ authority.dataRootDigest ∨
      record.topologyDigest ≠ topologyDigest ∨ record.layoutDigest ≠ layoutDigest)
    .bootstrapChangedAuthority

/-- The loop state of the bootstrap check. -/
structure BootstrapTally where
  selected : Option BootstrapEvidence
  targetCopyFound : Bool
  voterWitnessCount : Nat
  deriving DecidableEq, Repr

/-- One history in the loop of the bootstrap check. -/
def tallyBootstrap (digest : Digest) (topology : Topology) (layout : Layout)
    (authority : Authority) (history : HistoryScan) (tally : BootstrapTally) :
    Except Error BootstrapTally :=
  match history.findHistoryDigest digest with
  | none => .ok tally
  | some entry => do
      let record ← verifiedRecord entry
      rejectIf (record.kind ≠ .memberBootstrap) .notMemberBootstrapRecord
      rejectIf (record.memberId ≠ history.memberId) .bootstrapMemberMismatch
      let evidence ← MemberBootstrap.validateRecord record
      validateBootstrapAuthorityBinding record topology layout authority
      rejectIf (∃ selected ∈ tally.selected, selected ≠ evidence) .conflictingBootstrapEvidence
      let tally := { tally with selected := some evidence }
      if history.memberId = evidence.targetMemberId then do
        rejectIf (history.entries.findIdx? (fun e => e.record.historyDigest = digest) ≠ some 0)
          .bootstrapIsNotTargetFirstRecord
        rejectIf (record.localSequence ≠ 1 ∨ record.previousRecordDigest ≠ 0)
          .invalidBootstrapFirstRecord
        .ok { tally with targetCopyFound := true }
      else if isVoter topology history.memberId then
        .ok { tally with voterWitnessCount := tally.voterWitnessCount + 1 }
      else .ok tally

/-- The loop of the bootstrap check; `previous` are the histories already seen. -/
def tallyBootstraps (digest : Digest) (topology : Topology) (layout : Layout)
    (authority : Authority) (previous : List HistoryScan) :
    List HistoryScan → BootstrapTally → Except Error BootstrapTally
  | [], tally => .ok tally
  | history :: rest, tally => do
      rejectIf (∃ p ∈ previous, history.memberId = p.memberId) .duplicateMemberHistory
      let tally ← tallyBootstrap digest topology layout authority history tally
      tallyBootstraps digest topology layout authority (previous ++ [history]) rest tally

def validateMemberBootstrapEvidence (bootstrapHistoryDigest : Digest)
    (histories : List HistoryScan) (topology : Topology) (layout : Layout)
    (authority : Authority) : Except Error ValidatedBootstrap := do
  validate topology
  PoolLayout.validate layout
  let topologyDigest ← digest topology
  rejectIf (authority.membershipEpoch ≠ topology.epoch ∨
    authority.topologyDigest ≠ topologyDigest) .authorityTopologyMismatch
  let layoutDigest ← PoolLayout.digest layout
  rejectIf (authority.layoutDigest ≠ layoutDigest) .authorityLayoutMismatch
  let tally ← tallyBootstraps bootstrapHistoryDigest topology layout authority [] histories
    ⟨none, false, 0⟩
  let evidence ← orElseFail tally.selected .missingBootstrapEvidence
  rejectIf (tally.targetCopyFound = false) .missingBootstrapTargetCopy
  rejectIf (tally.voterWitnessCount < topology.quorum) .noBootstrapQuorum
  .ok ⟨evidence, tally.voterWitnessCount⟩

end Zettide.PoolEvidence
