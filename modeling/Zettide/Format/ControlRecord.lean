import Zettide.Format.Layout

/-! # Control records

Translation of `control_record.zig`: the length of a payload, the history digest and the raw digest
of a record, and the checks a record has to pass. The bytes of an encoded record are represented
by the record they encode; a byte string that does not decode to any record is a damaged slot of
the journal. -/

namespace Zettide

/-- The number of payload bytes. -/
def Payload.len : Payload → Nat
  | .unframed len _ _ _ => len
  | .genesis _ => 3520
  | .certificate _ => 192
  | .proposal _ => 3220
  | .membershipCommit _ _ => 3720
  | .bootstrap _ => 3584
  | .snapshot _ => 3584

namespace ControlRecord

def payloadCapacity : Nat := 3752
def certificateSize : Nat := 192

section

variable [Blake3]

/-- The digest of the part of the record that all members share. -/
def historyDigest (record : Record) : Digest := blake3 (.history record.historyPreimage)

/-- The digest of the bytes of a record. -/
def recordDigest (bytes : Record) : Digest := blake3 (.record bytes)

end

def validateStructural (record : Record) : Except Error Unit := do
  rejectIf (record.payload.len > payloadCapacity) .payloadTooLarge
  rejectIf (record.localSequence = 0) .invalidLocalSequence
  rejectIf (record.membershipEpoch = 0) .invalidMembershipEpoch
  rejectIf (record.setId = 0 ∨ record.memberId = 0 ∨ record.setId = record.memberId)
    .invalidIdentity
  rejectIf (record.topologyDigest = 0) .invalidTopologyDigest
  rejectIf (record.layoutDigest = 0) .invalidLayoutDigest
  rejectIf (¬ (record.localSequence = 1 ↔ record.previousRecordDigest = 0))
    .invalidPreviousRecordDigest

def checkKindPolicy (record : Record) : Except Error Unit :=
  match record.kind with
  | .memberBootstrap => .error .unsupportedRecordKind
  | .other _ => .error .unsupportedRecordKind
  | _ => .ok ()

/-- The decoder of a two-attestation certificate of the older format. A pool record never carries
one: `validateDynamicPoolPolicy` handles generation commits itself. -/
def rejectLegacyCertificate (payload : Payload) : Except Error Unit := do
  rejectIf (payload.len ≠ certificateSize) .invalidCertificatePayloadLength
  match payload with
  | .unframed _ _ fault _ => .error (.framing fault)
  | _ => .error .invalidMagic

def validatePolicy (record : Record) : Except Error Unit := do
  checkKindPolicy record
  validateStructural record
  rejectIf (record.kind = .genesis ∧
      (record.membershipEpoch ≠ 1 ∨ record.localSequence ≠ 1 ∨ record.writerTerm ≠ 0 ∨
        record.generation ≠ 0 ∨ record.mountSessionId ≠ 0 ∨ record.transactionId ≠ 0 ∨
        record.previousHistoryDigest ≠ 0 ∨ record.dataRootDigest ≠ 0))
    .invalidGenesisRecord
  rejectIf (record.kind ≠ .genesis ∧ record.previousHistoryDigest = 0) .invalidPreviousHistoryDigest
  rejectIf ((record.kind = .generationPrepare ∨ record.kind = .generationCommit) ∧
      (record.writerTerm = 0 ∨ record.generation = 0 ∨ record.mountSessionId = 0 ∨
        record.transactionId = 0 ∨ record.dataRootDigest = 0))
    .invalidGenerationRecord
  if record.kind = .generationCommit then rejectLegacyCertificate record.payload else .ok ()

def validateDynamicPoolPolicy (record : Record) : Except Error Unit :=
  if record.kind = .memberBootstrap then do
    validateStructural record
    rejectIf (record.previousHistoryDigest = 0 ∨ record.transactionId = 0 ∨
      record.mountSessionId ≠ 0 ∨ record.payload.len = 0) .invalidMemberBootstrapRecord
  else if record.kind = .generationCommit then do
    validateStructural record
    rejectIf (record.previousHistoryDigest = 0 ∨ record.writerTerm = 0 ∨ record.generation = 0 ∨
      record.mountSessionId = 0 ∨ record.transactionId = 0 ∨ record.dataRootDigest = 0)
      .invalidGenerationRecord
    rejectIf (record.payload.len ≠ certificateSize) .invalidCertificatePayloadLength
  else validatePolicy record

/-- Encoding for a pool: the checks made before the bytes are written. -/
def encodeDynamicPool [Blake3] (record : Record) : Except Error Record := do
  validateDynamicPoolPolicy record
  rejectIf (record.historyDigest ≠ historyDigest record) .historyDigestMismatch
  .ok record

/-- Decoding the bytes of a record whose framing is intact. -/
def decode [Blake3] (bytes : Record) : Except Error Record := do
  validateStructural bytes
  rejectIf (bytes.historyDigest ≠ historyDigest bytes) .historyDigestMismatch
  .ok bytes

theorem decode_eq_ok [Blake3] {bytes record : Record} : decode bytes = .ok record ↔
      validateStructural bytes = .ok () ∧ bytes.historyDigest = historyDigest bytes ∧
        bytes = record := by
  simp [decode]

end ControlRecord

end Zettide
