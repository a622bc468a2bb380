import Zettide.Journal.Append

/-! # Creating members

Translation of the creation of pool members in `member.zig`: the first record is written before the
two header copies, so that a member can be opened only when its first record is in place. A file
starts with zero bytes, and each of the three writes comes with its outcome. -/

namespace Zettide

namespace Member

open MemberFormat

/-- The outcomes of the writes that create a member. -/
structure CreateOutcome where
  record : WriteOutcome
  headerB : WriteOutcome
  headerA : WriteOutcome
  deriving DecidableEq, Repr

/-- Every write succeeds. -/
def CreateOutcome.done : CreateOutcome := ⟨.done, .done, .done⟩

/-- A new file: no header and an empty control region. -/
def blankStorage (header : Header) : Storage where
  copyA := .damaged .checksumMismatch
  copyB := .damaged .checksumMismatch
  slots := List.replicate (header.control.length / 4096) .zero

def validateInitialCreate (header : Header) : Except JournalError Unit := do
  withError .format (MemberFormat.validate header)
  rejectIf (header.headerSequence ≠ 1) .invalidInitialHeaderSequence
  rejectIf (header.checkpointOffset ≠ 0 ∨ header.checkpointRecordSequence ≠ 0 ∨
    header.checkpointRecordDigest ≠ 0) .invalidInitialCheckpoint

/-- The writes of a creation; the first one that fails ends it. -/
def createWithFirstRecord (header : Header) (record : Record) (outcome : CreateOutcome) :
    Storage × Except JournalError Member :=
  let blank := blankStorage header
  let recorded := { blank with slots := blank.slots.set 0 (outcome.record.leaves Slot.damaged .zero
        (.bytes record)) }
  if ¬ outcome.record.succeeds then (recorded, .error .writeFailed)
  else
    let once := { recorded with
        copyB := outcome.headerB.leaves .damaged blank.copyB (.bytes header) }
    if ¬ outcome.headerB.succeeds then (once, .error .writeFailed)
    else
      let twice := { once with
          copyA := outcome.headerA.leaves .damaged blank.copyA (.bytes header) }
      if ¬ outcome.headerA.succeeds then (twice, .error .writeFailed)
      else
        (twice, .ok { storage := twice, header := header, source := .a, degraded := false,
                      checkpointReclaimReady := false, mode := .writable, frozen := false })

variable [Blake3]

def validateCreatePoolStorage (header : Header) (payload : GenesisPayload) :
    Except JournalError Record := do
  validateInitialCreate header
  rejectIf (¬ header.blobFilesystem ∧ ¬ header.catalogIntent ∧ ¬ header.catalogData)
    .legacyPoolDataModeUnsupported
  withError .format (PoolGenesis.validateMemberHeader payload header)
  let record ← withError .format (PoolGenesis.makeRecord header.memberId payload)
  let _ ← withError .format (PoolGenesis.validateRecord record)
  withError .format (ControlRecord.encodeDynamicPool record)

/-- The creation of a member of a new pool. -/
def createPoolStorage (header : Header) (payload : GenesisPayload) (outcome : CreateOutcome) :
    Except JournalError (Storage × Except JournalError Member) := do
  let record ← validateCreatePoolStorage header payload
  .ok (createWithFirstRecord header record outcome)

def validateCreateJoiningStorage (header : Header) (record : Record) :
    Except JournalError Record := do
  validateInitialCreate header
  let _ ← withError .format (MemberBootstrap.validateTargetFirstRecord header record)
  withError .format (ControlRecord.encodeDynamicPool record)

/-- The creation of a member that joins a pool. -/
def createJoiningStorage (header : Header) (record : Record) (outcome : CreateOutcome) :
    Except JournalError (Storage × Except JournalError Member) := do
  let record ← validateCreateJoiningStorage header record
  .ok (createWithFirstRecord header record outcome)

end Member

/-! ## A pool of three voters

The smallest replicated pool, as witnesses use it: the members `1`, `2` and `3` of the set `9`, and
a first generation whose commit attests the prepare records of the members `1` and `2`. The digests
are positions in `table`. -/

namespace Trio

def topology : Topology where
  setId := 9
  epoch := 1
  parentDigest := 0
  quorum := 2
  members := [⟨1, 0, 1, .active, 3⟩, ⟨2, 1, 1, .active, 3⟩, ⟨3, 2, 1, .active, 3⟩]
  flags := 0

def layout : Layout where
  kind := .replicated
  layoutEpoch := 1
  topologyEpoch := 1
  chunkSize := 4096
  dataFragments := 3
  parityFragments := 0
  durableWriteThreshold := 2
  readThreshold := 1
  flags := 0
  scheduledBlob := none

def header (memberId slotCount : Nat) : Header where
  headerSequence := 1
  dynamicPool := true
  catalogData := false
  blobFilesystem := false
  scheduledBlobData := false
  catalogIntent := true
  setId := 9
  memberId := memberId
  memberSlot := memberId - 1
  memberCount := 3
  roleFlags := 3
  memberBytes := 2101248
  logicalCapacity := 4096
  control := ⟨65536, 4096 * slotCount⟩
  metadata := ⟨1048576, 262144⟩
  data := ⟨2097152, 4096⟩
  metadataBlockSize := 4096
  metadataReadSize := 4096
  metadataProgramSize := 4096
  chunkSize := 4096
  layoutFormatVersion := 2
  genesisTopologyDigest := 1
  checkpointOffset := 0
  checkpointRecordSequence := 0
  checkpointRecordDigest := 0

def genesis : HistoryPreimage where
  kind := .genesis
  setId := 9
  membershipEpoch := 1
  writerTerm := 0
  generation := 0
  mountSessionId := 0
  transactionId := 0
  previousHistoryDigest := 0
  dataRootDigest := 0
  topologyDigest := 1
  layoutDigest := 2
  payload := .genesis ⟨topology, layout⟩

def prepare : HistoryPreimage := { genesis with
    kind := .generationPrepare, writerTerm := 1, generation := 1, mountSessionId := 5,
    transactionId := 6, previousHistoryDigest := 3, dataRootDigest := 7,
    payload := .unframed 0 false .invalidMagic 0 }

def commit : HistoryPreimage := { prepare with
    kind := .generationCommit, previousHistoryDigest := 7,
    payload := .certificate ⟨[⟨1, 8, 7⟩, ⟨2, 9, 7⟩]⟩ }

def genesisOf (memberId : Id) : Record := .ofPreimage genesis memberId 1 0 3

def prepareOf (memberId : Id) : Record := .ofPreimage prepare memberId 2 (memberId + 3) 7

def commitOf (memberId : Id) : Record := .ofPreimage commit memberId 3 (memberId + 7) 11

/-- The messages in the order in which they are hashed. -/
def table : List Message := [.topology topology, .layout layout,
   .history genesis, .record (genesisOf 1), .record (genesisOf 2), .record (genesisOf 3),
   .history prepare, .record (prepareOf 1), .record (prepareOf 2), .record (prepareOf 3),
   .history commit, .record (commitOf 1), .record (commitOf 2), .record (commitOf 3)]

theorem table_ordered : OrderedTable table := by decide +kernel

end Trio

end Zettide
