import Zettide.Format.Certificate

/-! # Genesis, bootstrap and checkpoint payloads

Translation of the payload parts of `pool_genesis_payload.zig`, `member_bootstrap.zig` and
`pool_authority_checkpoint.zig`. The checks of a payload against a member header stand with the
header. -/

namespace Zettide

open ControlRecord

namespace PoolGenesis

def validate (payload : GenesisPayload) : Except Error Unit := do
  PoolTopology.validate payload.topology
  PoolLayout.validate payload.layout
  rejectIf (payload.topology.epoch ≠ 1 ∨ payload.topology.parentDigest ≠ 0) .invalidGenesisTopology
  rejectIf (payload.layout.layoutEpoch ≠ 1 ∨ payload.layout.topologyEpoch ≠ 1) .invalidGenesisLayout
  rejectIf (∃ scheduled ∈ payload.layout.scheduledBlob,
    scheduled.memberCount ≠ payload.topology.members.length) .scheduledMemberCountMismatch
  rejectIf (∃ member ∈ payload.topology.members, member.state ≠ .active) .invalidGenesisMemberState

def encode (payload : GenesisPayload) : Except Error GenesisPayload := do
  validate payload
  let topology ← PoolTopology.encode payload.topology
  .ok { payload with topology := topology }

def decode (payload : Payload) : Except Error GenesisPayload := do
  rejectIf (payload.len ≠ 3520) .invalidGenesisPayloadLength
  match payload with
  | .genesis payload => do
      let topology ← PoolTopology.decode payload.topology
      let layout ← PoolLayout.decode payload.layout
      validate ⟨topology, layout⟩
      .ok ⟨topology, layout⟩
  | .unframed _ _ fault _ => .error (.framing fault)
  | _ => .error .invalidMagic

def findGenesisMember (payload : GenesisPayload) (memberId : Id) :
    Except Error TopologyMember := do
  validate payload
  orElseFail (PoolTopology.findMember payload.topology memberId) .genesisMemberNotFound

variable [Blake3]

def makeRecord (memberId : Id) (payload : GenesisPayload) : Except Error Record := do
  let _ ← findGenesisMember payload memberId
  let payloadBytes ← encode payload
  let topologyDigest ← PoolTopology.digest payload.topology
  let layoutDigest ← PoolLayout.digest payload.layout
  let record : Record :=
    { kind := .genesis, localSequence := 1, membershipEpoch := 1, writerTerm := 0,
      generation := 0, setId := payload.topology.setId, memberId := memberId,
      mountSessionId := 0, transactionId := 0, previousRecordDigest := 0,
      previousHistoryDigest := 0, historyDigest := 0, dataRootDigest := 0,
      topologyDigest := topologyDigest, layoutDigest := layoutDigest,
      payload := .genesis payloadBytes }
  let record := { record with historyDigest := historyDigest record }
  validatePolicy record
  .ok record

def validateRecord (record : Record) : Except Error GenesisPayload := do
  validatePolicy record
  rejectIf (record.kind ≠ .genesis) .notGenesisRecord
  let payload ← decode record.payload
  let _ ← findGenesisMember payload record.memberId
  rejectIf (record.setId ≠ payload.topology.setId) .genesisSetIdMismatch
  let topologyDigest ← PoolTopology.digest payload.topology
  rejectIf (record.topologyDigest ≠ topologyDigest) .genesisTopologyDigestMismatch
  let layoutDigest ← PoolLayout.digest payload.layout
  rejectIf (record.layoutDigest ≠ layoutDigest) .genesisLayoutDigestMismatch
  .ok payload

end PoolGenesis

namespace MemberBootstrap

def validate (evidence : BootstrapEvidence) : Except Error Unit := do
  PoolTopology.validate evidence.topology
  PoolLayout.validate evidence.layout
  rejectIf (evidence.layout.topologyEpoch > evidence.topology.epoch) .futureTopologyEpoch
  let target ← orElseFail (PoolTopology.findMember evidence.topology evidence.targetMemberId)
    .bootstrapTargetNotFound
  rejectIf (target.slot ≠ evidence.targetSlot) .bootstrapTargetMismatch
  rejectIf (target.state ≠ .joining ∨ target.controlRole ≠ PoolTopology.nonVoterRole)
    .invalidBootstrapTargetState

def decode (payload : Payload) : Except Error BootstrapEvidence := do
  rejectIf (payload.len ≠ 3584) .invalidBootstrapPayloadLength
  match payload with
  | .bootstrap evidence => do
      let topology ← PoolTopology.decode evidence.topology
      let layout ← PoolLayout.decode evidence.layout
      let evidence := { evidence with topology := topology, layout := layout }
      validate evidence
      .ok evidence
  | .unframed _ _ fault _ => .error (.framing fault)
  | _ => .error .invalidMagic

def validateRecord [Blake3] (record : Record) : Except Error BootstrapEvidence := do
  validateDynamicPoolPolicy record
  rejectIf (record.kind ≠ .memberBootstrap) .notMemberBootstrapRecord
  rejectIf (record.historyDigest ≠ historyDigest record) .historyDigestMismatch
  let evidence ← decode record.payload
  rejectIf (record.setId ≠ evidence.topology.setId) .foreignSet
  rejectIf (record.membershipEpoch ≠ evidence.topology.epoch) .membershipEpochMismatch
  let topologyDigest ← PoolTopology.digest evidence.topology
  rejectIf (record.topologyDigest ≠ topologyDigest) .topologyDigestMismatch
  let layoutDigest ← PoolLayout.digest evidence.layout
  rejectIf (record.layoutDigest ≠ layoutDigest) .layoutDigestMismatch
  .ok evidence

end MemberBootstrap

namespace PoolAuthorityCheckpoint

/-- The authority a checkpoint has to repeat. -/
structure AuthorityContext where
  historyDigest : Digest
  dataRootDigest : Digest
  topology : Topology
  layout : Layout
  membershipEpoch : Nat
  writerTerm : Nat
  generation : Nat
  administrativeRecovery : Bool
  deriving DecidableEq, Repr

def validate (snapshot : Snapshot) : Except Error Unit := do
  rejectIf (snapshot.previousAuthorityHistoryDigest = 0) .invalidPreviousAuthorityDigest
  PoolTopology.validate snapshot.topology
  let _ ← PoolLayout.dataAccess snapshot.layout snapshot.topology
  rejectIf (∃ member ∈ snapshot.topology.members, member.state = .joining)
    .unsettledCheckpointTopology

def encode (snapshot : Snapshot) : Except Error Snapshot := do
  validate snapshot
  let topology ← PoolTopology.encode snapshot.topology
  .ok { snapshot with topology := topology }

def decode (payload : Payload) : Except Error Snapshot :=
  match payload with
  | .snapshot snapshot => do
      let topology ← PoolTopology.decode snapshot.topology
      let layout ← PoolLayout.decode snapshot.layout
      let snapshot := { snapshot with topology := topology, layout := layout }
      validate snapshot
      .ok snapshot
  | .unframed _ _ fault _ => .error (.framing fault)
  | _ => .error .invalidMagic

def makePayload (snapshot : Snapshot) : Except Error Payload := do
  let bytes ← encode snapshot
  .ok (.snapshot bytes)

/-- A checkpoint record whose payload has the length and the magic of a snapshot. -/
def isSnapshotRecord (record : Record) : Bool :=
  decide (record.kind = .checkpoint) &&
    match record.payload with
    | .snapshot _ => true
    | .unframed len snapshotMagic _ _ => len = 3584 && snapshotMagic
    | _ => false

variable [Blake3]

def validateCompactedRootRecord (record : Record) : Except Error Snapshot := do
  rejectIf (record.kind ≠ .checkpoint) .notCheckpointRecord
  validateDynamicPoolPolicy record
  rejectIf (record.historyDigest ≠ historyDigest record) .historyDigestMismatch
  rejectIf (record.transactionId = 0) .invalidCheckpointTransaction
  rejectIf (record.payload.len ≠ 3584) .invalidCheckpointPayloadLength
  let snapshot ← decode record.payload
  rejectIf (snapshot.previousAuthorityHistoryDigest ≠ record.previousHistoryDigest)
    .previousAuthorityDigestMismatch
  rejectIf (record.setId ≠ snapshot.topology.setId) .checkpointSetMismatch
  rejectIf (record.membershipEpoch ≠ snapshot.topology.epoch) .membershipEpochMismatch
  rejectIf (record.dataRootDigest ≠ snapshot.dataRootDigest ∨
      record.writerTerm ≠ snapshot.writerTerm ∨ record.generation ≠ snapshot.generation)
    .checkpointAuthorityMismatch
  let topologyDigest ← PoolTopology.digest snapshot.topology
  rejectIf (record.topologyDigest ≠ topologyDigest) .topologyDigestMismatch
  let layoutDigest ← PoolLayout.digest snapshot.layout
  rejectIf (record.layoutDigest ≠ layoutDigest) .layoutDigestMismatch
  let publisher ← orElseFail (PoolTopology.findMember snapshot.topology record.memberId)
    .checkpointPublisherNotInTopology
  rejectIf (publisher.controlRole ≠ PoolTopology.voterRole) .checkpointPublisherIsNotVoter
  .ok snapshot

def validateContext (context : AuthorityContext) : Except Error Unit := do
  validate
    { previousAuthorityHistoryDigest := context.historyDigest
      dataRootDigest := context.dataRootDigest
      writerTerm := context.writerTerm
      generation := context.generation
      topology := context.topology
      layout := context.layout
      administrativeRecovery := context.administrativeRecovery }
  rejectIf (context.membershipEpoch ≠ context.topology.epoch) .membershipEpochMismatch

def validateRecord (record : Record) (expected : AuthorityContext) : Except Error Snapshot := do
  let snapshot ← validateCompactedRootRecord record
  validateContext expected
  rejectIf (snapshot.previousAuthorityHistoryDigest ≠ expected.historyDigest)
    .previousAuthorityDigestMismatch
  rejectIf (snapshot.topology ≠ expected.topology ∨ snapshot.layout ≠ expected.layout ∨
      snapshot.dataRootDigest ≠ expected.dataRootDigest ∨
      snapshot.writerTerm ≠ expected.writerTerm ∨ snapshot.generation ≠ expected.generation ∨
      snapshot.administrativeRecovery ≠ expected.administrativeRecovery)
    .checkpointAuthorityMismatch
  .ok snapshot

end PoolAuthorityCheckpoint

end Zettide
