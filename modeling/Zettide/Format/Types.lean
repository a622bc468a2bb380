import Mathlib.Data.Countable.Basic
import Mathlib.Logic.Equiv.List
import Mathlib.Tactic.DeriveCountable

/-! # On-disk values of a pool

The values that the control plane of a pool reads and writes: topologies, layouts, the payloads of
control records, and the records themselves.

A digest (32 bytes) and an identifier (16 bytes) are natural numbers; `0` is the value whose bytes
are all zero, and the order of identifiers is the order of their bytes. Fixed-width counters are
natural numbers too, and the code's overflow checks are written out where it makes them. -/

namespace Zettide

/-- A 256-bit digest; `0` is the all-zero digest, which the format uses for "none". -/
abbrev Digest := Nat

/-- A 128-bit identifier; `0` is the all-zero identifier. -/
abbrev Id := Nat

/-- The largest value of a 64-bit counter. -/
def maxU64 : Nat := 18446744073709551615

/-- The largest value of a 16-bit counter. -/
def maxU16 : Nat := 65535

/-! ## Topology and layout -/

/-- Life-cycle state of a pool member. -/
inductive MemberState where
  | joining | active | draining
  deriving DecidableEq, Repr, Countable

/-- One member descriptor of a topology. -/
structure TopologyMember where
  memberId : Id
  slot : Nat
  controlRole : Nat
  state : MemberState
  roleFlags : Nat
  deriving DecidableEq, Repr, Countable

/-- The membership of a pool at one epoch. The source keeps the members in a fixed array with a
count; here `members` is the used part of that array. -/
structure Topology where
  setId : Id
  epoch : Nat
  parentDigest : Digest
  quorum : Nat
  members : List TopologyMember
  flags : Nat
  deriving DecidableEq, Repr, Countable

/-- Protection scheme of a layout. -/
inductive LayoutKind where
  | unprotected | replicated | erasureCoded
  deriving DecidableEq, Repr, Countable

/-- Placement parameters of a layout that stores a scheduled blob. -/
structure ScheduledBlob where
  memberCount : Nat
  logicalCapacity : Nat
  placementDigest : Digest
  deriving DecidableEq, Repr, Countable

/-- How the data of a pool is spread over its members. -/
structure Layout where
  kind : LayoutKind
  layoutEpoch : Nat
  topologyEpoch : Nat
  chunkSize : Nat
  dataFragments : Nat
  parityFragments : Nat
  durableWriteThreshold : Nat
  readThreshold : Nat
  flags : Nat
  scheduledBlob : Option ScheduledBlob
  deriving DecidableEq, Repr, Countable

/-! ## Payloads of control records -/

/-- A voter's statement that it holds a prepare record. -/
structure Attestation where
  memberId : Id
  prepareRecordDigest : Digest
  prepareHistoryDigest : Digest
  deriving DecidableEq, Repr, Countable

/-- The certificate of a generation commit: its used attestations, in order. -/
structure PoolCertificate where
  attestations : List Attestation
  deriving DecidableEq, Repr, Countable

/-- Whether a membership change needs a quorum of the voters it replaces. -/
inductive MembershipMode where
  | normal | administrativeRecovery
  deriving DecidableEq, Repr, Countable

/-- A proposed topology and the mode in which it is to be committed. -/
structure Proposal where
  mode : MembershipMode
  topology : Topology
  deriving DecidableEq, Repr, Countable

/-- The certificate of a membership commit: attestations by voters of the old topology, then by
voters of the new one. -/
structure MembershipCertificate where
  oldGroup : List Attestation
  newGroup : List Attestation
  deriving DecidableEq, Repr, Countable

/-- Payload of a genesis record. -/
structure GenesisPayload where
  topology : Topology
  layout : Layout
  deriving DecidableEq, Repr, Countable

/-- Payload of a bootstrap record: the member that joins and the authority it joins under. -/
structure BootstrapEvidence where
  targetMemberId : Id
  targetSlot : Nat
  topology : Topology
  layout : Layout
  deriving DecidableEq, Repr, Countable

/-- Payload of an authority checkpoint: the whole authority state at that point. -/
structure Snapshot where
  previousAuthorityHistoryDigest : Digest
  dataRootDigest : Digest
  writerTerm : Nat
  generation : Nat
  topology : Topology
  layout : Layout
  administrativeRecovery : Bool
  deriving DecidableEq, Repr, Countable

/-- The faults a payload decoder finds before it looks at any decoded value. -/
inductive FramingFault where
  | checksumMismatch | invalidMagic | unsupportedFormatVersion | invalidFraming | invalidFlags
  | nonZeroReserved | invalidEnumeration
  deriving DecidableEq, Repr, Countable

/-- The certificate part of a membership commit payload, which is decoded apart from the
proposal. -/
inductive CertificatePart where
  | framed (certificate : MembershipCertificate)
  | unframed (fault : FramingFault) (content : Nat)
  deriving DecidableEq, Repr, Countable

/-- The bytes of a payload, by the format whose framing (length, magic, version, checksum, reserved
bytes) they satisfy. Framing determines the bytes from the fields and back, so two payloads are
equal here exactly when their bytes are. `unframed` is any other byte string: its length, whether
it starts with the magic of a snapshot, the fault a decoder reports and an index that tells
different strings apart. -/
inductive Payload where
  | unframed (len : Nat) (snapshotMagic : Bool) (fault : FramingFault) (content : Nat)
  | genesis (payload : GenesisPayload)
  | certificate (certificate : PoolCertificate)
  | proposal (proposal : Proposal)
  | membershipCommit (proposal : Proposal) (certificate : CertificatePart)
  | bootstrap (evidence : BootstrapEvidence)
  | snapshot (snapshot : Snapshot)
  deriving DecidableEq, Repr, Countable

/-! ## Control records -/

/-- The kind of a control record. `other` is a kind number that no version of the format uses. -/
inductive RecordKind where
  | genesis | writerFence | generationPrepare | generationCommit | membershipPrepare
  | membershipCommit | mountDirty | cleanShutdown | checkpoint | memberBootstrap
  | other (number : Nat)
  deriving DecidableEq, Repr, Countable

/-- A control record. `historyDigest` covers the part all members share; `previousRecordDigest`
links the record to its predecessor in the journal of one member. -/
structure Record where
  kind : RecordKind
  localSequence : Nat
  membershipEpoch : Nat
  writerTerm : Nat
  generation : Nat
  setId : Id
  memberId : Id
  mountSessionId : Id
  transactionId : Id
  previousRecordDigest : Digest
  previousHistoryDigest : Digest
  historyDigest : Digest
  dataRootDigest : Digest
  topologyDigest : Digest
  layoutDigest : Digest
  payload : Payload
  deriving DecidableEq, Repr, Countable

/-- The part of a record that its history digest covers: everything but the member, its local
sequence, the local link and the digest itself. -/
structure HistoryPreimage where
  kind : RecordKind
  setId : Id
  membershipEpoch : Nat
  writerTerm : Nat
  generation : Nat
  mountSessionId : Id
  transactionId : Id
  previousHistoryDigest : Digest
  dataRootDigest : Digest
  topologyDigest : Digest
  layoutDigest : Digest
  payload : Payload
  deriving DecidableEq, Repr, Countable

/-- The record of a member with the given shared part. -/
def Record.ofPreimage (shared : HistoryPreimage) (memberId : Id) (localSequence : Nat)
    (previousRecordDigest historyDigest : Digest) : Record where
  kind := shared.kind
  localSequence := localSequence
  membershipEpoch := shared.membershipEpoch
  writerTerm := shared.writerTerm
  generation := shared.generation
  setId := shared.setId
  memberId := memberId
  mountSessionId := shared.mountSessionId
  transactionId := shared.transactionId
  previousRecordDigest := previousRecordDigest
  previousHistoryDigest := shared.previousHistoryDigest
  historyDigest := historyDigest
  dataRootDigest := shared.dataRootDigest
  topologyDigest := shared.topologyDigest
  layoutDigest := shared.layoutDigest
  payload := shared.payload

/-- The history preimage of a record. -/
def Record.historyPreimage (record : Record) : HistoryPreimage where
  kind := record.kind
  setId := record.setId
  membershipEpoch := record.membershipEpoch
  writerTerm := record.writerTerm
  generation := record.generation
  mountSessionId := record.mountSessionId
  transactionId := record.transactionId
  previousHistoryDigest := record.previousHistoryDigest
  dataRootDigest := record.dataRootDigest
  topologyDigest := record.topologyDigest
  layoutDigest := record.layoutDigest
  payload := record.payload

end Zettide
