import Zettide.Format.ControlRecord

/-! # Commit certificates and membership proposals

Translation of `pool_certificate.zig` and `membership.zig`. -/

namespace Zettide

namespace PoolCertificate

def maxAttestationCount : Nat := 2

/-- The checks on one attestation; `previous` are the attestations before it. -/
def validateAttestation (previous : List Attestation) (attestation : Attestation) :
    Except Error Unit := do
  rejectIf (attestation.memberId = 0) .invalidCertificateMemberId
  rejectIf (attestation.prepareRecordDigest = 0) .invalidPrepareRecordDigest
  rejectIf (attestation.prepareHistoryDigest = 0) .invalidPrepareHistoryDigest
  rejectIf (∃ p ∈ previous, attestation.memberId = p.memberId) .duplicateCertificateMember
  rejectIf (∃ first ∈ previous.head?, attestation.prepareHistoryDigest ≠ first.prepareHistoryDigest)
    .prepareHistoryDigestMismatch

def validateAttestations (previous : List Attestation) : List Attestation → Except Error Unit
  | [] => .ok ()
  | attestation :: rest => do
      validateAttestation previous attestation
      validateAttestations (previous ++ [attestation]) rest

variable (certificate : PoolCertificate)

def validate : Except Error Unit := do
  rejectIf (certificate.attestations.length = 0 ∨
    certificate.attestations.length > maxAttestationCount) .invalidAttestationCount
  validateAttestations [] certificate.attestations

/-- The order in which attestations are encoded. -/
abbrev MemberOrdered (attestations : List Attestation) : Prop :=
  KeyOrdered Attestation.memberId attestations

/-- The encoder exchanges two attestations that are out of order. -/
def encode : Except Error PoolCertificate := do
  validate certificate
  match certificate.attestations with
  | [a, b] => if a.memberId > b.memberId then .ok ⟨[b, a]⟩ else .ok ⟨[a, b]⟩
  | _ => .ok certificate

def decode (payload : Payload) : Except Error PoolCertificate :=
  match payload with
  | .certificate certificate => do
      validate certificate
      rejectIf (¬ MemberOrdered certificate.attestations) .nonCanonicalAttestationOrder
      .ok certificate
  | .unframed _ _ fault _ => .error (.framing fault)
  | _ => .error .invalidMagic

def validateVoters (topology : Topology) : List Attestation → Except Error Unit
  | [] => .ok ()
  | attestation :: rest => do
      let member ← orElseFail (PoolTopology.findMember topology attestation.memberId)
        .certificateMemberNotInTopology
      rejectIf (member.controlRole ≠ PoolTopology.voterRole) .certificateMemberIsNotVoter
      validateVoters topology rest

def validateAgainstTopology (topology : Topology) :
    Except Error Unit := do
  validate certificate
  PoolTopology.validate topology
  rejectIf (certificate.attestations.length ≠ topology.quorum) .certificateDoesNotMeetQuorum
  validateVoters topology certificate.attestations

end PoolCertificate

namespace Membership

open PoolTopology

def maxAttestationCount : Nat := 6

def encodeProposal (proposal : Proposal) : Except Error Proposal := do
  let topology ← PoolTopology.encode proposal.topology
  .ok { proposal with topology := topology }

def decodeProposal (proposal : Proposal) : Except Error Proposal := do
  let topology ← PoolTopology.decode proposal.topology
  .ok { proposal with topology := topology }

/-! ## Transitions between topologies -/

def validStateTransition (old new : MemberState) : Bool :=
  match old with
  | .joining => new = .joining ∨ new = .active
  | .active => new = .active ∨ new = .draining
  | .draining => new = .draining ∨ new = .active

/-- The check of one member of the current topology; the result says whether it changed. -/
def validateRetained (mode : MembershipMode) (next : Topology) (oldMember : TopologyMember) :
    Except Error Bool :=
  match findMember next oldMember.memberId with
  | none => do
      rejectIf (mode = .normal ∧ oldMember.state = .active) .memberMustDrainBeforeRemoval
      .ok true
  | some newMember => do
      rejectIf (newMember.slot ≠ oldMember.slot) .memberSlotChanged
      rejectIf (¬ validStateTransition oldMember.state newMember.state)
        .invalidMemberStateTransition
      .ok (newMember.state ≠ oldMember.state ∨ newMember.controlRole ≠ oldMember.controlRole ∨
        newMember.roleFlags ≠ oldMember.roleFlags)

def validateRetainedMembers (mode : MembershipMode) (next : Topology) :
    List TopologyMember → Except Error Bool
  | [] => .ok false
  | oldMember :: rest => do
      let changed ← validateRetained mode next oldMember
      let others ← validateRetainedMembers mode next rest
      .ok (changed || others)

/-- The check of the members of the next topology that the current one does not have. -/
def validateAddedMembers (current : Topology) : List TopologyMember → Except Error Bool
  | [] => .ok false
  | newMember :: rest =>
    if (findMember current newMember.memberId).isSome then
      validateAddedMembers current rest
    else do
      rejectIf (newMember.state ≠ .joining ∨ newMember.controlRole ≠ nonVoterRole)
        .newMemberMustJoinAsNonVoter
      let _ ← validateAddedMembers current rest
      .ok true

def validateTransition [Blake3] (current : Topology) (proposal : Proposal) : Except Error Unit := do
  PoolTopology.validate current
  PoolTopology.validate proposal.topology
  rejectIf (current.setId ≠ proposal.topology.setId) .foreignSet
  rejectIf (current.epoch = maxU64 ∨ proposal.topology.epoch ≠ current.epoch + 1)
    .invalidMembershipEpoch
  let parent ← PoolTopology.digest current
  rejectIf (proposal.topology.parentDigest ≠ parent) .parentTopologyDigestMismatch
  let changed ← validateRetainedMembers proposal.mode proposal.topology current.members
  let added ← validateAddedMembers current proposal.topology.members
  rejectIf (changed = false ∧ added = false) .emptyMembershipTransition

/-! ## Membership certificates -/

def validateWitnessGroup (topology : Topology) (previous : List Attestation) :
    List Attestation → Except Error Unit
  | [] => .ok ()
  | attestation :: rest => do
      rejectIf (attestation.memberId = 0 ∨ attestation.prepareRecordDigest = 0 ∨
        attestation.prepareHistoryDigest = 0) .invalidAttestation
      let member ← orElseFail (findMember topology attestation.memberId) .attestationMemberNotFound
      rejectIf (member.controlRole ≠ voterRole) .attestationMemberIsNotVoter
      rejectIf (∃ p ∈ previous, attestation.memberId = p.memberId) .duplicateAttestationMember
      validateWitnessGroup topology (previous ++ [attestation]) rest

/-- How many voters of the old topology a commit in this mode attests. -/
def oldAttestationCount (current : Topology) (mode : MembershipMode) : Nat :=
  match mode with
  | .normal => current.quorum
  | .administrativeRecovery => 0

def validateCertificate (current next : Topology) (mode : MembershipMode)
    (certificate : MembershipCertificate) : Except Error Unit := do
  PoolTopology.validate current
  PoolTopology.validate next
  rejectIf (certificate.oldGroup.length ≠ oldAttestationCount current mode ∨
    certificate.newGroup.length ≠ next.quorum) .invalidAttestationCount
  let attestations := certificate.oldGroup ++ certificate.newGroup
  rejectIf (attestations.length = 0 ∨ attestations.length > maxAttestationCount)
    .invalidAttestationCount
  validateWitnessGroup current [] certificate.oldGroup
  validateWitnessGroup next [] certificate.newGroup
  rejectIf (∃ first ∈ attestations.head?, ∃ a ∈ attestations,
      a.prepareHistoryDigest ≠ first.prepareHistoryDigest) .prepareHistoryDigestMismatch
  rejectIf (∃ o ∈ certificate.oldGroup, ∃ n ∈ certificate.newGroup,
      o.memberId = n.memberId ∧ o.prepareRecordDigest ≠ n.prepareRecordDigest)
    .conflictingJointAttestation

def sortAttestations (attestations : List Attestation) : List Attestation :=
  exchangeSort Attestation.memberId attestations

def encodeCertificate (current next : Topology) (mode : MembershipMode)
    (certificate : MembershipCertificate) : Except Error MembershipCertificate := do
  validateCertificate current next mode certificate
  .ok ⟨sortAttestations certificate.oldGroup, sortAttestations certificate.newGroup⟩

def decodeCertificate (current next : Topology) (mode : MembershipMode) (part : CertificatePart) :
    Except Error MembershipCertificate :=
  match part with
  | .unframed fault _ => .error (.framing fault)
  | .framed certificate => do
      validateCertificate current next mode certificate
      rejectIf (¬ PoolCertificate.MemberOrdered certificate.oldGroup) .nonCanonicalAttestationOrder
      rejectIf (¬ PoolCertificate.MemberOrdered certificate.newGroup) .nonCanonicalAttestationOrder
      .ok certificate

/-! ## Membership records -/

def makePreparePayload (proposal : Proposal) : Except Error Payload := do
  let bytes ← encodeProposal proposal
  .ok (.proposal bytes)

def makeCommitPayload [Blake3] (current : Topology) (proposal : Proposal)
    (certificate : MembershipCertificate) : Except Error Payload := do
  validateTransition current proposal
  let proposalBytes ← encodeProposal proposal
  let certificateBytes ← encodeCertificate current proposal.topology proposal.mode certificate
  .ok (.membershipCommit proposalBytes (.framed certificateBytes))

/-- The proposal bytes of a membership prepare or commit record. -/
def recordProposal (record : Record) : Except Error Proposal :=
  match record.kind with
  | .membershipPrepare => do
      rejectIf (record.payload.len ≠ 3220) .invalidMembershipPreparePayloadLength
      match record.payload with
      | .proposal proposal => decodeProposal proposal
      | .unframed _ _ fault _ => .error (.framing fault)
      | _ => .error .invalidMagic
  | .membershipCommit => do
      rejectIf (record.payload.len ≠ 3720) .invalidMembershipCommitPayloadLength
      match record.payload with
      | .membershipCommit proposal _ => decodeProposal proposal
      | .unframed _ _ fault _ => .error (.framing fault)
      | _ => .error .invalidMagic
  | _ => .error .notMembershipRecord

def validateRecordProposal [Blake3] (record : Record) : Except Error Proposal := do
  ControlRecord.validateDynamicPoolPolicy record
  let proposal ← recordProposal record
  rejectIf (record.writerTerm = 0 ∨ record.mountSessionId = 0 ∨ record.transactionId = 0)
    .invalidMembershipRecord
  rejectIf (record.setId ≠ proposal.topology.setId) .foreignSet
  rejectIf (record.membershipEpoch ≠ proposal.topology.epoch) .membershipEpochMismatch
  let topologyDigest ← PoolTopology.digest proposal.topology
  rejectIf (record.topologyDigest ≠ topologyDigest) .topologyDigestMismatch
  .ok proposal

/-- The certificate bytes of a membership commit record, whose length has been checked. -/
def commitCertificatePart (record : Record) : CertificatePart :=
  match record.payload with
  | .membershipCommit _ part => part
  | _ => .unframed .checksumMismatch 0

end Membership

end Zettide
