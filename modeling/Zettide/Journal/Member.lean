import Zettide.Journal.Scan

/-! # Open members

Translation of the part of `member.zig` that the control plane uses: opening a member, durable
writes of control slots, and the redundant publication of a checkpoint in both header copies.

Every durable write comes with its `WriteOutcome`: it succeeds, or it fails and leaves the old
bytes, the new bytes or bytes that do not decode. A crash is a point from which on every write
fails and leaves the old bytes. Reads do not fail. -/

namespace Zettide

/-- How a durable write ends. -/
inductive WriteOutcome where
  | done | failedOld | failedNew
  | failedTorn (fault : FramingFault)
  deriving DecidableEq, Repr

namespace WriteOutcome

def succeeds (outcome : WriteOutcome) : Bool :=
  match outcome with
  | .done => true
  | _ => false

/-- What the write leaves of the old and the new content; `torn` is content that does not decode. -/
def leaves {α : Type} (outcome : WriteOutcome) (torn : FramingFault → α) (old new : α) : α :=
  match outcome with
  | .done => new
  | .failedOld => old
  | .failedNew => new
  | .failedTorn fault => torn fault

end WriteOutcome

inductive OpenMode where
  | readOnly | writable
  deriving DecidableEq, Repr

/-- The errors of the journal and of the member below it. -/
inductive JournalError where
  | format (error : Error)
  | readOnlyMember | writeFrozen | regionOutOfBounds | writeFailed | headerSequenceOverflow
  | journalNeedsRecovery | missingGenesis | reclaimBarrierRequired | missingAuthorityAnchor
  | authorityAnchorHeaderMismatch | unresolvedTailDamage | journalFull | staleTailToken
  | secondGenesisRecord | recordSequenceOverflow | useCheckpointApi | notCheckpointRecord
  | anchoredCheckpointRequiresRollover | controlOffsetOverflow | preparedAppendMismatch
  | slotNotReclaimed | invalidInitialHeaderSequence | invalidInitialCheckpoint
  | legacyPoolDataModeUnsupported | poolDataRequiresCatalogMode
  deriving DecidableEq, Repr

/-- The durable content of a member: its header copies and its control region. -/
structure Storage where
  copyA : MemberFormat.HeaderCopy
  copyB : MemberFormat.HeaderCopy
  slots : List Slot
  deriving DecidableEq, Repr

/-- An open member. -/
structure Member where
  storage : Storage
  header : Header
  source : MemberFormat.SourceSlot
  degraded : Bool
  checkpointReclaimReady : Bool
  mode : OpenMode
  frozen : Bool
  deriving DecidableEq, Repr

namespace Member

open MemberFormat

def openStorage (storage : Storage) (mode : OpenMode) : Except Error Member := do
  let selection ← MemberFormat.select storage.copyA storage.copyB
  .ok { storage := storage
        header := selection.header
        source := selection.source
        degraded := selection.redundancyDegraded
        checkpointReclaimReady := false
        mode := mode
        frozen := false }

variable (member : Member)

/-- The member refuses to write. -/
def checkWritable : Except JournalError Unit := do
  rejectIf (member.mode ≠ .writable) .readOnlyMember
  rejectIf (member.frozen = true) .writeFrozen

/-- The member after a write: a write that fails freezes it. -/
def afterWrite (outcome : WriteOutcome) : Member :=
  if outcome.succeeds then member else { member with frozen := true }

/-- What the caller of a write is told. -/
def writeResult (outcome : WriteOutcome) : Except JournalError Unit :=
  if outcome.succeeds then .ok () else .error .writeFailed

/-- The slots with one of them overwritten. -/
def setSlot (slot : Nat) (content : Slot) : Member :=
  { member with
    storage := { member.storage with slots := member.storage.slots.set slot content } }

def checkSlotWrite (slot : Nat) : Except JournalError Unit := do
  checkWritable member
  rejectIf (member.storage.slots.length ≤ slot) .regionOutOfBounds

/-- A durable write of one control slot. -/
def writeDurable (slot : Nat) (content : Slot) (outcome : WriteOutcome) :
    Member × Except JournalError Unit :=
  match checkSlotWrite member slot with
  | .error e => (member, .error e)
  | .ok () =>
    let left := outcome.leaves Slot.damaged (Journal.readSlot member.storage.slots slot) content
    ((member.setSlot slot left).afterWrite outcome, writeResult outcome)

variable {member} in
theorem writeDurable_eq {slot : Nat} (writable : member.mode = .writable)
    (live : member.frozen = false) (hslot : slot < member.storage.slots.length) (content : Slot)
    (outcome : WriteOutcome) : member.writeDurable slot content outcome =
      ((member.setSlot slot (outcome.leaves .damaged
        (Journal.readSlot member.storage.slots slot) content)).afterWrite outcome,
        writeResult outcome) := by
  have hcheck : checkSlotWrite member slot = .ok () := by
    simp [checkSlotWrite, checkWritable, rejectIf, writable, live, hslot, bind, Except.bind]
  rw [writeDurable, hcheck]

/-- The header that publishes a checkpoint. -/
def checkpointHeader (header : Header) (absoluteOffset recordSequence : Nat)
    (recordDigest : Digest) : Header :=
  { header with
    headerSequence := header.headerSequence + 1
    checkpointOffset := absoluteOffset
    checkpointRecordSequence := recordSequence
    checkpointRecordDigest := recordDigest }

/-- The checks before a publication; the result is the encoded header. -/
def preparePublication (absoluteOffset recordSequence : Nat)
    (recordDigest : Digest) : Except JournalError Header := do
  checkWritable member
  rejectIf (member.header.headerSequence = maxU64) .headerSequenceOverflow
  let header := checkpointHeader member.header absoluteOffset recordSequence recordDigest
  withError .format (MemberFormat.validate header)
  .ok header

/-- A write of one header copy. -/
def writeHeader (copy : SourceSlot) (header : Header) (outcome : WriteOutcome) : Member :=
  let storage :=
    match copy with
    | .a => { member.storage with
              copyA := outcome.leaves .damaged member.storage.copyA (.bytes header) }
    | .b => { member.storage with
              copyB := outcome.leaves .damaged member.storage.copyB (.bytes header) }
  { member with storage := storage }.afterWrite outcome

/-- The copy that is not the given one. -/
def otherCopy (copy : SourceSlot) : SourceSlot :=
  match copy with
  | .a => .b
  | .b => .a

/-- The publication of a checkpoint in the header copy that is not selected. -/
def publishCheckpoint (absoluteOffset recordSequence : Nat)
    (recordDigest : Digest) (outcome : WriteOutcome) : Member × Except JournalError Unit :=
  match preparePublication member absoluteOffset recordSequence recordDigest with
  | .error e => (member, .error e)
  | .ok header =>
    let started := { member with checkpointReclaimReady := false }
    let once := started.writeHeader (otherCopy member.source) header outcome
    if outcome.succeeds then
      ({ once with header := header, source := otherCopy member.source, degraded := false }, .ok ())
    else (once, .error .writeFailed)

/-- The publication of a checkpoint in both header copies, first in the one that is not selected. -/
def publishCheckpointRedundant (absoluteOffset recordSequence : Nat)
    (recordDigest : Digest) (first second : WriteOutcome) : Member × Except JournalError Unit :=
  match preparePublication member absoluteOffset recordSequence recordDigest with
  | .error e => (member, .error e)
  | .ok header =>
    let started := { member with checkpointReclaimReady := false }
    let once := started.writeHeader (otherCopy member.source) header first
    if first.succeeds then
      let twice := once.writeHeader member.source header second
      if second.succeeds then
        ({ twice with
           header := header, source := .a, degraded := false, checkpointReclaimReady := true },
          .ok ())
      else (twice, .error .writeFailed)
    else (once, .error .writeFailed)

/-- The header with the catalog-data bit. -/
def catalogHeader (header : Header) : Header :=
  { header with headerSequence := header.headerSequence + 1, catalogData := true }

/-- The checks before the catalog-data bit is written; the result is the header to write, which is
the selected one when it has the bit. -/
def prepareActivation : Except JournalError Header := do
  checkWritable member
  rejectIf (member.header.dynamicPool ∧ MemberFormat.poolDataMode member.header ≠ .catalog)
    .poolDataRequiresCatalogMode
  if member.header.catalogData then do
    withError .format (if member.degraded then MemberFormat.validate member.header else .ok ())
    .ok member.header
  else do
    rejectIf (member.header.headerSequence = maxU64) .headerSequenceOverflow
    withError .format (MemberFormat.validate (catalogHeader member.header))
    .ok (catalogHeader member.header)

/-- Sets the catalog-data bit in both header copies. When the selected header has it already, only
a degraded mirror is repaired. -/
def activateCatalogData (first second : WriteOutcome) :
    Member × Except JournalError Unit :=
  match prepareActivation member with
  | .error e => (member, .error e)
  | .ok header =>
    if member.header.catalogData then
      if ¬ member.degraded then (member, .ok ())
      else
        let mirrored := member.writeHeader (otherCopy member.source) header first
        if first.succeeds then ({ mirrored with degraded := false }, .ok ())
        else (mirrored, .error .writeFailed)
    else
      let once := member.writeHeader (otherCopy member.source) header first
      if first.succeeds then
        let twice := once.writeHeader member.source header second
        if second.succeeds then
          ({ twice with header := header, source := .a, degraded := false }, .ok ())
        else (twice, .error .writeFailed)
      else (once, .error .writeFailed)

end Member

end Zettide
