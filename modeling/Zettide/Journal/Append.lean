import Zettide.Journal.Member

/-! # Appending to a member journal

Translation of the stateful part of `journal.zig`: an open journal keeps the result of its last
scan up to date while records are appended and while the slots before an anchor are reclaimed.
The claim and close flags of a journal are left out. -/

namespace Zettide

/-- An open journal. -/
structure Journal where
  scanState : ScanResult
  ringWriteReady : Bool
  deriving DecidableEq, Repr

structure TailToken where
  localSequence : Nat
  rawRecordDigest : Digest
  historyDigest : Digest
  physicalFrontier : Nat
  nextPhysicalSlot : Nat
  deriving DecidableEq, Repr

/-- A record made ready for the current tail of a journal, with the block that holds it. -/
structure PreparedAppend where
  expectedTail : TailToken
  record : Record
  encoded : Slot
  recordDigest : Digest
  physicalSlot : Nat
  deriving DecidableEq, Repr

structure AppendResult where
  record : Record
  recordDigest : Digest
  physicalSlot : Nat
  deriving DecidableEq, Repr

namespace Journal

def tailToken (journal : Journal) : Except JournalError TailToken := do
  let tail ← orElseFail journal.scanState.tail .missingGenesis
  .ok { localSequence := tail.localSequence
        rawRecordDigest := journal.scanState.tailRawRecordDigest
        historyDigest := tail.historyDigest
        physicalFrontier := journal.scanState.physicalFrontier
        nextPhysicalSlot := journal.scanState.nextPhysicalSlot }

def hasAppendCapacity (journal : Journal) (required : Nat) : Bool :=
  required ≤ availableSlotCount journal.scanState

variable [Blake3]

/-- Opening the journal of a member. -/
def openMember (member : Member) : Except JournalError Journal := do
  let scanned ← withError .format (scanInto member.header member.storage.slots)
  let state := scanned.1
  rejectIf (state.tail = none ∧ state.unresolvedTailDamage = true) .journalNeedsRecovery
  rejectIf (state.tail = none) .missingGenesis
  rejectIf (member.mode = .writable ∧ state.unresolvedTailDamage = true ∧ state.anchored = false)
    .journalNeedsRecovery
  .ok ⟨state, !state.anchored⟩

/-- The proposal with the fields that the journal of a member determines. -/
def chainRecord (header : Header) (tail : Record) (tailRawRecordDigest : Digest)
    (proposal : Record) : Record :=
  { proposal with
    setId := header.setId
    memberId := header.memberId
    localSequence := tail.localSequence + 1
    previousRecordDigest := tailRawRecordDigest
    previousHistoryDigest := tail.historyDigest }

/-- The record with its history digest. -/
def sealRecord (record : Record) : Record :=
  { record with historyDigest := ControlRecord.historyDigest record }

variable (journal : Journal)

/-- The journal refuses to append. -/
def checkAppend (member : Member) : Except JournalError Unit := do
  member.checkWritable
  rejectIf (journal.scanState.anchored = true ∧ journal.ringWriteReady = false)
    .reclaimBarrierRequired
  rejectIf (journal.scanState.unresolvedTailDamage = true) .unresolvedTailDamage
  rejectIf (journal.scanState.journalFull = true) .journalFull

def prepareLocked (member : Member) (expectedTail : TailToken)
    (proposal : Record) : Except JournalError PreparedAppend := do
  checkAppend journal member
  let token ← tailToken journal
  rejectIf (expectedTail ≠ token) .staleTailToken
  let tail ← orElseFail journal.scanState.tail .missingGenesis
  rejectIf (proposal.kind = .genesis) .secondGenesisRecord
  rejectIf (tail.localSequence = maxU64) .recordSequenceOverflow
  let record := sealRecord
    (chainRecord member.header tail journal.scanState.tailRawRecordDigest proposal)
  withError .format (validateRecordForHeader record)
  let encoded ← withError .format (ControlRecord.encodeDynamicPool record)
  .ok ⟨expectedTail, record, .bytes encoded, ControlRecord.recordDigest encoded,
    journal.scanState.nextPhysicalSlot⟩

def prepareExact (member : Member) (expectedTail : TailToken)
    (proposal : Record) : Except JournalError PreparedAppend := do
  rejectIf (proposal.kind = .checkpoint) .useCheckpointApi
  prepareLocked journal member expectedTail proposal

def prepareCheckpointExact (member : Member) (expectedTail : TailToken)
    (proposal : Record) : Except JournalError PreparedAppend := do
  rejectIf (proposal.kind ≠ .checkpoint) .notCheckpointRecord
  prepareLocked journal member expectedTail proposal

/-- The state of the journal after a record has been written. -/
def advance (prepared : PreparedAppend) : Journal :=
  let state := journal.scanState
  let status := if state.checkpointStatus = .valid then .stale else state.checkpointStatus
  let written :=
    { state with
      tail := some prepared.record
      tailRawRecordDigest := prepared.recordDigest
      tailPhysicalSlot := some prepared.physicalSlot
      checkpointStatus := status }
  match state.anchored, state.activeAnchor with
  | true, some anchor =>
    let next := nextRingSlot prepared.physicalSlot state.slotCount
    { journal with
      scanState := { written with
                     nextPhysicalSlot := next
                     journalFull := decide (next = anchor.physicalSlot) } }
  | _, _ =>
    { journal with
      scanState := { written with
                     physicalFrontier := prepared.physicalSlot + 1
                     nextPhysicalSlot := prepared.physicalSlot + 1
                     journalFull := decide (prepared.physicalSlot + 1 = state.slotCount) } }

/-- Open journal and open member while the coordinator uses them. -/
structure Claimed where
  member : Member
  journal : Journal
  deriving DecidableEq, Repr

variable (claimed : Claimed)

/-- The write of a prepared record. -/
def commitPreparedLocked (prepared : PreparedAppend)
    (outcome : WriteOutcome) : Claimed × Except JournalError AppendResult :=
  if claimed.journal.scanState.anchored = true ∧
      readSlot claimed.member.storage.slots prepared.physicalSlot ≠ .zero then
    (claimed, .error .slotNotReclaimed)
  else
    match claimed.member.writeDurable prepared.physicalSlot prepared.encoded outcome with
    | (member, .error e) => ({ claimed with member := member }, .error e)
    | (member, .ok ()) =>
      (⟨member, claimed.journal.advance prepared⟩,
        .ok ⟨prepared.record, prepared.recordDigest, prepared.physicalSlot⟩)

/-- The checks of `appendPrepared` before its write. -/
def checkPrepared (prepared : PreparedAppend) : Except JournalError Unit := do
  let canonical ← prepareLocked claimed.journal claimed.member prepared.expectedTail prepared.record
  rejectIf (canonical ≠ prepared) .preparedAppendMismatch

def appendPrepared (prepared : PreparedAppend) (outcome : WriteOutcome) :
    Claimed × Except JournalError AppendResult :=
  if prepared.record.kind = .checkpoint then (claimed, .error .useCheckpointApi)
  else
    match checkPrepared claimed prepared with
    | .error e => (claimed, .error e)
    | .ok () => commitPreparedLocked claimed prepared outcome

def appendPreparedCheckpoint (prepared : PreparedAppend)
    (outcome : WriteOutcome) : Claimed × Except JournalError AppendResult :=
  if prepared.record.kind ≠ .checkpoint then (claimed, .error .notCheckpointRecord)
  else
    match checkPrepared claimed prepared with
    | .error e => (claimed, .error e)
    | .ok () => commitPreparedLocked claimed prepared outcome

/-- A record prepared for the present tail, which an open journal has, and written. -/
def appendLocked (proposal : Record) (outcome : WriteOutcome) :
    Claimed × Except JournalError AppendResult :=
  match (do
      let token ← tailToken claimed.journal
      prepareLocked claimed.journal claimed.member token proposal) with
  | .error e => (claimed, .error e)
  | .ok prepared => commitPreparedLocked claimed prepared outcome

def append (proposal : Record) (outcome : WriteOutcome) : Claimed × Except JournalError AppendResult :=
  if proposal.kind = .checkpoint then (claimed, .error .useCheckpointApi)
  else appendLocked claimed proposal outcome

def checkpoint (proposal : Record) (outcome published : WriteOutcome) :
    Claimed × Except JournalError AppendResult :=
  if proposal.kind ≠ .checkpoint then (claimed, .error .notCheckpointRecord)
  else if claimed.journal.scanState.anchored then
    (claimed, .error .anchoredCheckpointRequiresRollover)
  else
    match appendLocked claimed proposal outcome with
    | (after, .error e) => (after, .error e)
    | (after, .ok appended) =>
      let offset := after.member.header.control.offset + appended.physicalSlot * 4096
      if offset > maxU64 then (after, .error .controlOffsetOverflow)
      else
        match after.member.publishCheckpoint offset appended.record.localSequence
            appended.recordDigest published with
        | (member, .error e) => ({ after with member := member }, .error e)
        | (member, .ok ()) =>
          let state := { after.journal.scanState with checkpointStatus := .valid }
          (⟨member, { after.journal with scanState := state }⟩, .ok appended)

/-! ## Reclaiming the slots before an anchor -/

/-- The slot that a header names as checkpoint. -/
def headerSlot (header : Header) : Nat :=
  (header.checkpointOffset - header.control.offset) / 4096

/-- The record at `slot` is the checkpoint that the header names. -/
def namedByHeader (header : Header) (record : Record) (digest : Digest) (slot : Nat) : Prop :=
  slot = headerSlot header ∧ record.localSequence = header.checkpointRecordSequence ∧
    digest = header.checkpointRecordDigest

instance (header : Header) (record : Record) (digest : Digest) (slot : Nat) :
    Decidable (namedByHeader header record digest slot) :=
  inferInstanceAs (Decidable (_ ∧ _ ∧ _))

/-- The anchor that the journal is cut at: its tail, when the header names it, or the anchor of the
last scan. -/
def reclaimAnchor (member : Member) :
    Except JournalError (Nat × AnchorState) := do
  member.checkWritable
  rejectIf (member.checkpointReclaimReady = false) .reclaimBarrierRequired
  let state := journal.scanState
  let tail ← orElseFail state.tail .missingGenesis
  let tailSlot ← orElseFail state.tailPhysicalSlot .missingGenesis
  let anchor ←
    if namedByHeader member.header tail state.tailRawRecordDigest tailSlot then
      .ok (⟨tail, state.tailRawRecordDigest, tailSlot⟩ : AnchorState)
    else orElseFail state.activeAnchor .missingAuthorityAnchor
  rejectIf (¬ namedByHeader member.header anchor.record anchor.rawRecordDigest
    anchor.physicalSlot) .authorityAnchorHeaderMismatch
  let _ ← withError .format (PoolAuthorityCheckpoint.validateCompactedRootRecord anchor.record)
  .ok (tailSlot, anchor)

/-- The loop that clears slots; `clear` gives the outcome of each write. -/
def clearSlots (clear : Nat → WriteOutcome) : List Nat → Member → Member × Except JournalError Unit
  | [], member => (member, .ok ())
  | slot :: rest, member =>
    if readSlot member.storage.slots slot = .zero then clearSlots clear rest member
    else
      match member.writeDurable slot .zero (clear slot) with
      | (member, .error e) => (member, .error e)
      | (member, .ok ()) => clearSlots clear rest member

/-- The state of the journal after its slots have been cleared. -/
def reclaimed (tailSlot : Nat) (anchor : AnchorState) : Journal where
  scanState :=
    { journal.scanState with
      activeAnchor := some anchor
      anchored := true
      unresolvedTailDamage := false
      physicalFrontier := journal.scanState.slotCount
      nextPhysicalSlot := nextRingSlot tailSlot journal.scanState.slotCount
      journalFull :=
        decide (nextRingSlot tailSlot journal.scanState.slotCount = anchor.physicalSlot)
      checkpointStatus := .valid }
  ringWriteReady := true

def reclaimPublishedAnchor (clear : Nat → WriteOutcome) :
    Claimed × Except JournalError Unit :=
  match reclaimAnchor claimed.journal claimed.member with
  | .error e => (claimed, .error e)
  | .ok (tailSlot, anchor) =>
    let slotCount := claimed.journal.scanState.slotCount
    let arc := ringWalk slotCount anchor.physicalSlot slotCount (nextRingSlot tailSlot slotCount)
    match clearSlots clear arc claimed.member with
    | (member, .error e) => ({ claimed with member := member }, .error e)
    | (member, .ok ()) => (⟨member, claimed.journal.reclaimed tailSlot anchor⟩, .ok ())

/-! ## Prepared appends are exact -/

/-- What else happens to an open journal: appends, reclaims, and changes of the member below it. -/
inductive Used (claimed : Claimed) : Claimed → Prop where
  | append (proposal : Record) (outcome : WriteOutcome) :
      Used claimed (append claimed proposal outcome).1
  | checkpoint (proposal : Record) (outcome published : WriteOutcome) :
      Used claimed (checkpoint claimed proposal outcome published).1
  | prepared (prepared : PreparedAppend) (outcome : WriteOutcome) :
      Used claimed (appendPrepared claimed prepared outcome).1
  | preparedCheckpoint (prepared : PreparedAppend) (outcome : WriteOutcome) :
      Used claimed (appendPreparedCheckpoint claimed prepared outcome).1
  | reclaim (clear : Nat → WriteOutcome) : Used claimed (reclaimPublishedAnchor claimed clear).1
  | member (member : Member) : Used claimed { claimed with member := member }

/-- The tail of the journal comes after a sequence number. -/
def Past (sequence : Nat) (journal : Journal) : Prop :=
  ∃ tail, journal.scanState.tail = some tail ∧ sequence < tail.localSequence

variable {claimed} {prepared : PreparedAppend} {proposal : Record} {outcome : WriteOutcome}
  {sequence : Nat} {token : TailToken}

/-- A record is prepared for the present tail only, and comes right after it. -/
theorem prepareLocked_next
    (h : prepareLocked claimed.journal claimed.member token proposal = .ok prepared) :
    tailToken claimed.journal = .ok token ∧ ∃ tail, claimed.journal.scanState.tail = some tail ∧
      token.localSequence = tail.localSequence ∧
      prepared.record.localSequence = tail.localSequence + 1 := by
  simp only [prepareLocked, tailToken, ok_iff, not_not] at h ⊢
  obtain ⟨-, _, ⟨tail, htail, hcurrent⟩, rfl, other, hother, -, -, -, _, -, rfl⟩ := h
  obtain rfl : tail = other := Option.some.inj (htail.symm.trans hother)
  exact ⟨⟨tail, htail, hcurrent⟩, tail, htail, by rw [← hcurrent], rfl⟩

theorem checkPrepared_eq_ok (h : checkPrepared claimed prepared = .ok ()) :
    prepareLocked claimed.journal claimed.member prepared.expectedTail prepared.record =
      .ok prepared := by
  simp only [checkPrepared, ok_iff, not_not] at h
  obtain ⟨_, hprepare, rfl⟩ := h
  exact hprepare

omit [Blake3] in
/-- After a write that succeeds the record is the tail; otherwise the journal is as it was. -/
theorem commitPreparedLocked_tail (claimed : Claimed) (prepared : PreparedAppend)
    (outcome : WriteOutcome) :
    (∃ e, (commitPreparedLocked claimed prepared outcome).2 = .error e ∧
        (commitPreparedLocked claimed prepared outcome).1.journal = claimed.journal) ∨
      (commitPreparedLocked claimed prepared outcome).1.journal.scanState.tail =
        some prepared.record := by
  unfold commitPreparedLocked
  split
  · exact .inl ⟨_, rfl, rfl⟩
  split
  · exact .inl ⟨_, rfl, rfl⟩
  refine .inr ?_
  simp only [advance]
  split <;> rfl

section

variable (h : Past sequence claimed.journal)
include h

theorem Past.commit
    (hprepare : prepareLocked claimed.journal claimed.member token proposal = .ok prepared) :
    Past sequence (commitPreparedLocked claimed prepared outcome).1.journal := by
  obtain ⟨-, tail, htail, -, hnext⟩ := prepareLocked_next hprepare
  obtain ⟨other, hother, hlt⟩ := h
  obtain rfl : tail = other := Option.some.inj (htail.symm.trans hother)
  rcases commitPreparedLocked_tail claimed prepared outcome with ⟨_, -, hsame⟩ | hwritten
  · rw [hsame]
    exact ⟨tail, htail, hlt⟩
  · exact ⟨_, hwritten, by omega⟩

theorem Past.appendLocked (proposal : Record) (outcome : WriteOutcome) :
    Past sequence (appendLocked claimed proposal outcome).1.journal := by
  unfold Journal.appendLocked
  split
  · exact h
  · rename_i hprepare
    simp only [ok_iff] at hprepare
    obtain ⟨_, -, hprepare⟩ := hprepare
    exact h.commit hprepare

theorem Past.used {after : Claimed} (hused : Used claimed after) : Past sequence after.journal := by
  cases hused with
  | append proposal outcome =>
    unfold append
    split
    · exact h
    · exact h.appendLocked proposal outcome
  | checkpoint proposal outcome published =>
    have happended := h.appendLocked proposal outcome
    unfold checkpoint
    split
    · exact h
    split
    · exact h
    split
    · rename_i hresult
      rw [hresult] at happended
      exact happended
    rename_i hresult
    rw [hresult] at happended
    dsimp only
    split
    · exact happended
    split <;> exact happended
  | prepared prepared outcome =>
    unfold appendPrepared
    split
    · exact h
    split
    · exact h
    · exact h.commit (checkPrepared_eq_ok ‹_›)
  | preparedCheckpoint prepared outcome =>
    unfold appendPreparedCheckpoint
    split
    · exact h
    split
    · exact h
    · exact h.commit (checkPrepared_eq_ok ‹_›)
  | reclaim clear =>
    unfold reclaimPublishedAnchor
    split
    · exact h
    dsimp only
    split <;> exact h
  | member member => exact h

end

theorem appendPrepared_cases (claimed : Claimed) (prepared : PreparedAppend)
    (outcome : WriteOutcome) :
    (∃ e, appendPrepared claimed prepared outcome = (claimed, .error e)) ∨
      prepared.record.kind ≠ .checkpoint ∧ prepareLocked claimed.journal claimed.member
          prepared.expectedTail prepared.record = .ok prepared ∧
        appendPrepared claimed prepared outcome =
          commitPreparedLocked claimed prepared outcome := by
  unfold appendPrepared
  split
  · exact .inl ⟨_, rfl⟩
  split
  · exact .inl ⟨_, rfl⟩
  · exact .inr ⟨‹_›, checkPrepared_eq_ok ‹_›, rfl⟩

/-- **An append of a prepared record is exact.**  It writes only what the journal prepares for the
record at its present tail; otherwise it fails and changes nothing. Once it succeeded it fails
for ever, whatever else happens to the journal. -/
theorem appendPrepared_exact (claimed : Claimed) (prepared : PreparedAppend)
    (outcome : WriteOutcome) :
    ((∃ e, appendPrepared claimed prepared outcome = (claimed, .error e)) ∨
      ∃ token, tailToken claimed.journal = .ok token ∧
        prepareExact claimed.journal claimed.member token prepared.record = .ok prepared) ∧
    ∀ result, (appendPrepared claimed prepared outcome).2 = .ok result →
      ∀ later, Relation.ReflTransGen Used (appendPrepared claimed prepared outcome).1 later →
        ∀ again, ∃ e, appendPrepared later prepared again = (later, .error e) := by
  rcases appendPrepared_cases claimed prepared outcome with ⟨e, hfails⟩ | ⟨hkind, hprepare, hcommit⟩
  · refine ⟨.inl ⟨e, hfails⟩, fun result hresult => ?_⟩
    rw [hfails] at hresult
    cases hresult
  obtain ⟨htoken, tail, -, hexpected, hnext⟩ := prepareLocked_next hprepare
  refine ⟨.inr ⟨_, htoken, ?_⟩, fun result hresult later hsteps again => ?_⟩
  · simp [prepareExact, hkind, hprepare]
  rw [hcommit] at hresult hsteps
  have hpast : Past prepared.expectedTail.localSequence later.journal := by
    induction hsteps with
    | refl =>
      rcases commitPreparedLocked_tail claimed prepared outcome with ⟨_, hfails, -⟩ | hwritten
      · rw [hfails] at hresult
        cases hresult
      · exact ⟨_, hwritten, by omega⟩
    | tail _ hused ih => exact ih.used hused
  -- the tail that the record was prepared for is not the present one any more
  rcases appendPrepared_cases later prepared again with hfails | ⟨-, hagain, -⟩
  · exact hfails
  obtain ⟨-, present, hpresent, hsame, -⟩ := prepareLocked_next hagain
  obtain ⟨_, hlast, hlt⟩ := hpast
  rw [hpresent] at hlast
  cases hlast
  omega

end Journal

end Zettide
