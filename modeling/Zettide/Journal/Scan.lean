import Zettide.Journal.Header

/-! # Scanning a member journal

Translation of the scan of `journal.zig`. The control region of a member is an array of slots of
one record each. A journal starts as a linear log; once an authority checkpoint is named by the
header (the anchor), slots before it may be reclaimed and the log continues as a ring in slots
`1 .. slotCount - 1`, while slot `0` keeps the birth record. The scan first reads the region as a
linear log and, if that fails, as birth record, anchor and what follows the anchor. -/

namespace Zettide

open ControlRecord PoolAuthorityCheckpoint

/-- The content of one slot of the control region. -/
inductive Slot where
  | zero
  | damaged (fault : FramingFault)
  | bytes (record : Record)
  deriving DecidableEq, Repr

inductive CheckpointStatus where
  | none | valid | stale | invalid
  deriving DecidableEq, Repr

/-- The checkpoint record that the header of a member names. -/
structure AnchorState where
  record : Record
  rawRecordDigest : Digest
  physicalSlot : Nat
  deriving DecidableEq, Repr

/-- What a scan finds. -/
structure ScanResult where
  tail : Option Record
  tailRawRecordDigest : Digest
  tailPhysicalSlot : Option Nat
  physicalFrontier : Nat
  slotCount : Nat
  zeroHoleCount : Nat
  invalidSlotCount : Nat
  interiorInvalidSlotCount : Nat
  unresolvedTailDamage : Bool
  journalFull : Bool
  checkpointStatus : CheckpointStatus
  activeAnchor : Option AnchorState
  anchored : Bool
  nextPhysicalSlot : Nat
  deriving DecidableEq, Repr

/-- A record found by a scan, with the bytes it was decoded from. -/
structure HistoryEntry where
  record : Record
  rawRecord : Record
  rawRecordDigest : Digest
  physicalSlot : Nat
  deriving DecidableEq, Repr

/-- The scan of a member together with the records it found. -/
structure HistoryScan where
  scanResult : ScanResult
  memberId : Id
  entries : List HistoryEntry
  deriving DecidableEq, Repr

namespace HistoryScan

def findHistoryDigest (history : HistoryScan) (digest : Digest) : Option HistoryEntry :=
  history.entries.find? fun entry => entry.record.historyDigest = digest

def findRawRecordDigest (history : HistoryScan) (digest : Digest) : Option HistoryEntry :=
  history.entries.find? fun entry => entry.rawRecordDigest = digest

end HistoryScan

namespace Journal

/-- The slot that follows in the ring. -/
def nextRingSlot (slot slotCount : Nat) : Nat :=
  if slot + 1 = slotCount then 1 else slot + 1

/-- The slots that a walk around the ring visits from `slot` until it comes to `stop`; the first
argument bounds the number of steps. -/
def ringWalk (slotCount stop : Nat) : Nat → Nat → List Nat
  | 0, _ => []
  | fuel + 1, slot =>
    if slot = stop then []
    else slot :: ringWalk slotCount stop fuel (nextRingSlot slot slotCount)

def availableSlotCount (state : ScanResult) : Nat :=
  match state.anchored, state.activeAnchor with
  | true, some anchor =>
    if state.nextPhysicalSlot ≤ anchor.physicalSlot then
      anchor.physicalSlot - state.nextPhysicalSlot
    else (state.slotCount - state.nextPhysicalSlot) + (anchor.physicalSlot - 1)
  | _, _ => state.slotCount - state.nextPhysicalSlot

variable [Blake3]

/-- Decoding the bytes of a slot. -/
def decodeSlot (slot : Slot) : Except Error Record :=
  match slot with
  | .zero => .error .checksumMismatch
  | .damaged fault => .error (.framing fault)
  | .bytes record => decode record

variable (header : Header)

def validateFirstRecord (record : Record) : Except Error Unit :=
  match record.kind with
  | .genesis => do
      let payload ← PoolGenesis.validateRecord record
      PoolGenesis.validateMemberHeader payload header
  | .memberBootstrap => do
      let _ ← MemberBootstrap.validateTargetFirstRecord header record
      .ok ()
  | _ => .error .invalidDynamicPoolFirstRecord

/-- The checks on a record after the first one. -/
def validateRecordForHeader (record : Record) : Except Error Unit := do
  validateDynamicPoolPolicy record
  match record.kind with
  | .memberBootstrap => do
      let _ ← MemberBootstrap.validateRecord record
      .ok ()
  | .generationCommit => do
      let _ ← PoolCertificate.decode record.payload
      .ok ()
  | .membershipPrepare => do
      let _ ← Membership.validateRecordProposal record
      .ok ()
  | .membershipCommit => do
      let _ ← Membership.validateRecordProposal record
      .ok ()
  | _ => .ok ()

/-- The record belongs to the set and to the member of the header. -/
def checkOwner (record : Record) : Except Error Unit := do
  rejectIf (record.setId ≠ header.setId) .foreignSet
  rejectIf (record.memberId ≠ header.memberId) .foreignMember

/-- The record continues a log that ends with `tail`. -/
def checkSuccessor (tail : Record) (tailRawRecordDigest : Digest) (record : Record) :
    Except Error Unit := do
  rejectIf (tail.localSequence = maxU64 ∨ record.localSequence ≠ tail.localSequence + 1)
    .recordSequenceGap
  rejectIf (record.previousRecordDigest ≠ tailRawRecordDigest) .previousRecordDigestMismatch
  rejectIf (record.previousHistoryDigest ≠ tail.historyDigest) .previousHistoryDigestMismatch

/-! ## Linear scan -/

/-- The loop state of the linear scan. -/
structure LinearState where
  result : ScanResult
  entries : List HistoryEntry
  matchedHint : Bool
  pendingZeroSlots : Nat
  pendingInvalidSlots : Nat
  deriving DecidableEq, Repr

def hintSlot : Option Nat :=
  if header.checkpointOffset = 0 then none
  else some ((header.checkpointOffset - header.control.offset) / 4096)

/-- The checks on a decoded record in the linear scan. -/
def checkLinear (state : ScanResult) (record : Record) : Except Error Unit := do
  checkOwner header record
  match state.tail with
  | none => validateFirstRecord header record
  | some tail => do
      rejectIf (record.kind = .genesis) .secondGenesisRecord
      validateRecordForHeader record
      rejectIf (record.localSequence = tail.localSequence) .duplicateRecordSequence
      rejectIf (record.localSequence < tail.localSequence) .recordSequenceRegression
      checkSuccessor tail state.tailRawRecordDigest record

/-- The record at `slot` is the one that the header names as checkpoint. -/
def matchesHint (header : Header) (slot : Nat) (record : Record) : Prop :=
  hintSlot header = some slot ∧ record.kind = .checkpoint ∧
    record.localSequence = header.checkpointRecordSequence ∧
    recordDigest record = header.checkpointRecordDigest

instance (header : Header) (slot : Nat) (record : Record) :
    Decidable (matchesHint header slot record) :=
  inferInstanceAs (Decidable (_ ∧ _ ∧ _ ∧ _))

/-- The anchor that a matched checkpoint gives, if it is a valid snapshot. -/
def anchorOf (slot : Nat) (record : Record) : Option AnchorState :=
  if isSnapshotRecord record then
    (value (validateCompactedRootRecord record)).map fun _ =>
      ⟨record, recordDigest record, slot⟩
  else none

/-- Taking a decoded and checked record into the linear scan. -/
def acceptLinear (slot : Nat) (record : Record) (state : LinearState) :
    LinearState :=
  let digest := recordDigest record
  let hit := matchesHint header slot record
  { result :=
      { state.result with
        interiorInvalidSlotCount :=
          state.result.interiorInvalidSlotCount + state.pendingInvalidSlots
        tail := some record
        tailRawRecordDigest := digest
        tailPhysicalSlot := some slot
        checkpointStatus :=
          if hit then .valid
          else if state.matchedHint then .stale
          else state.result.checkpointStatus
        activeAnchor :=
          if hit then (anchorOf slot record).or state.result.activeAnchor
          else state.result.activeAnchor }
    entries := state.entries ++ [⟨record, record, digest, slot⟩]
    matchedHint := state.matchedHint || hit
    pendingZeroSlots := 0
    pendingInvalidSlots := 0 }

/-- One step of the linear scan. -/
def scanLinearSlot (slot : Nat) (raw : Slot) (state : LinearState) :
    Except Error LinearState :=
  if raw = .zero then
    .ok { state with pendingZeroSlots := state.pendingZeroSlots + 1 }
  else
    let result :=
      { state.result with
        physicalFrontier := slot + 1
        zeroHoleCount := state.result.zeroHoleCount + state.pendingZeroSlots }
    match decodeSlot raw with
    | .error _ =>
      .ok { state with
            result := { result with invalidSlotCount := result.invalidSlotCount + 1 }
            pendingZeroSlots := 0
            pendingInvalidSlots := state.pendingInvalidSlots + 1 }
    | .ok record => do
        checkLinear header result record
        .ok (acceptLinear header slot record { state with result := result })

/-- The loop over the slots from position `slot` on. -/
def scanLinearFrom (header : Header) : Nat → List Slot → LinearState → Except Error LinearState
  | _, [], state => .ok state
  | slot, raw :: rest, state => do
      let state ← scanLinearSlot header slot raw state
      scanLinearFrom header (slot + 1) rest state

def linearStart (slotCount : Nat) : LinearState where
  result :=
    { tail := none, tailRawRecordDigest := 0, tailPhysicalSlot := none, physicalFrontier := 0,
      slotCount := slotCount, zeroHoleCount := 0, invalidSlotCount := 0,
      interiorInvalidSlotCount := 0, unresolvedTailDamage := false, journalFull := false,
      checkpointStatus := if hintSlot header = none then .none else .invalid,
      activeAnchor := none, anchored := false, nextPhysicalSlot := 0 }
  entries := []
  matchedHint := false
  pendingZeroSlots := 0
  pendingInvalidSlots := 0

/-- The fields of the result that are set after the loop. -/
def finishLinear (state : LinearState) : ScanResult :=
  let result :=
    { state.result with unresolvedTailDamage := decide (state.pendingInvalidSlots ≠ 0) }
  match result.activeAnchor with
  | some anchor =>
    let next := if result.physicalFrontier = result.slotCount then 1 else result.physicalFrontier
    { result with
      anchored := true, nextPhysicalSlot := next,
      journalFull := decide (next = anchor.physicalSlot) }
  | none =>
    { result with
      journalFull := decide (result.physicalFrontier = result.slotCount)
      nextPhysicalSlot := result.physicalFrontier }

def scanLinear (slots : List Slot) :
    Except Error (ScanResult × List HistoryEntry) := do
  let state ← scanLinearFrom header 0 slots (linearStart header slots.length)
  .ok (finishLinear state, state.entries)

/-! ## Anchored scan -/

/-- The loop state of the anchored scan. -/
structure AnchoredState where
  result : ScanResult
  entries : List HistoryEntry
  pendingInvalidSlots : Nat
  deriving DecidableEq, Repr

/-- The content of a slot. -/
def readSlot (slots : List Slot) (slot : Nat) : Slot := slots.getD slot .zero

/-- The record that the anchored scan has as its tail. -/
def tailOr (anchor : Record) (state : ScanResult) : Record := state.tail.getD anchor

/-- One step of the anchored scan. -/
def scanAnchoredSlot (anchor : Record) (slots : List Slot) (slot : Nat)
    (state : AnchoredState) : Except Error AnchoredState :=
  let raw := readSlot slots slot
  if raw = .zero then
    .ok { state with
          result := { state.result with zeroHoleCount := state.result.zeroHoleCount + 1 } }
  else
    match decodeSlot raw with
    | .error _ =>
      .ok { state with
            result := { state.result with
                        invalidSlotCount := state.result.invalidSlotCount + 1 }
            pendingInvalidSlots := state.pendingInvalidSlots + 1 }
    | .ok record =>
      if record.localSequence ≤ anchor.localSequence then .ok state
      else do
        checkOwner header record
        validateRecordForHeader record
        checkSuccessor (tailOr anchor state.result) state.result.tailRawRecordDigest record
        let digest := recordDigest record
        .ok { result :=
                { state.result with
                  interiorInvalidSlotCount :=
                    state.result.interiorInvalidSlotCount + state.pendingInvalidSlots
                  tail := some record
                  tailRawRecordDigest := digest
                  tailPhysicalSlot := some slot
                  nextPhysicalSlot := nextRingSlot slot state.result.slotCount }
              entries := state.entries ++ [⟨record, record, digest, slot⟩]
              pendingInvalidSlots := 0 }

/-- The loop of the anchored scan over the given slots. -/
def scanAnchoredFrom (header : Header) (anchor : Record) (slots : List Slot) :
    List Nat → AnchoredState → Except Error AnchoredState
  | [], state => .ok state
  | slot :: rest, state => do
      let state ← scanAnchoredSlot header anchor slots slot state
      scanAnchoredFrom header anchor slots rest state

/-- The checks that relate birth record, anchor and header. -/
def checkAnchor (birth anchor : Record) : Except Error Unit := do
  checkOwner header anchor
  rejectIf (anchor.localSequence ≠ header.checkpointRecordSequence ∨
    recordDigest anchor ≠ header.checkpointRecordDigest)
    .authorityAnchorHeaderMismatch
  rejectIf (¬ isSnapshotRecord anchor) .invalidAuthorityAnchor
  let _ ← validateCompactedRootRecord anchor
  rejectIf (anchor.localSequence ≤ birth.localSequence) .invalidAuthorityAnchor
  rejectIf (birth.localSequence = maxU64) .invalidAuthorityAnchor
  rejectIf (anchor.localSequence = birth.localSequence + 1 ∧
      (anchor.previousRecordDigest ≠ recordDigest birth ∨
        anchor.previousHistoryDigest ≠ birth.historyDigest)) .invalidAuthorityAnchor

def anchoredStart (birth anchor : Record) (anchorSlot slotCount : Nat) : AnchoredState where
  result :=
    { tail := some anchor, tailRawRecordDigest := recordDigest anchor,
      tailPhysicalSlot := some anchorSlot, physicalFrontier := slotCount, slotCount := slotCount,
      zeroHoleCount := 0, invalidSlotCount := 0, interiorInvalidSlotCount := 0,
      unresolvedTailDamage := false, journalFull := false, checkpointStatus := .valid,
      activeAnchor := some ⟨anchor, recordDigest anchor, anchorSlot⟩,
      anchored := true, nextPhysicalSlot := nextRingSlot anchorSlot slotCount }
  entries :=
    [⟨birth, birth, recordDigest birth, 0⟩, ⟨anchor, anchor, recordDigest anchor, anchorSlot⟩]
  pendingInvalidSlots := 0

/-- The fields of the result that are set after the loop. -/
def finishAnchored (anchorSlot : Nat) (state : AnchoredState) : ScanResult :=
  { state.result with
    unresolvedTailDamage := decide (state.pendingInvalidSlots ≠ 0)
    journalFull := decide (state.result.nextPhysicalSlot = anchorSlot) }

def scanAnchored (slots : List Slot) :
    Except Error (ScanResult × List HistoryEntry) := do
  let anchorSlot ← orElseFail (hintSlot header) .missingAuthorityAnchor
  rejectIf (anchorSlot = 0 ∨ anchorSlot ≥ slots.length) .invalidAuthorityAnchor
  let birth ← decodeSlot (readSlot slots 0)
  checkOwner header birth
  validateFirstRecord header birth
  let anchor ← decodeSlot (readSlot slots anchorSlot)
  checkAnchor header birth anchor
  let state ← scanAnchoredFrom header anchor slots
    (ringWalk slots.length anchorSlot slots.length (nextRingSlot anchorSlot slots.length))
    (anchoredStart birth anchor anchorSlot slots.length)
  .ok (finishAnchored anchorSlot state, state.entries)

/-- The scan: linear, or anchored when the linear scan fails; the error is that of the linear
scan. -/
def scanInto (slots : List Slot) :
    Except Error (ScanResult × List HistoryEntry) :=
  match scanLinear header slots with
  | .ok result => .ok result
  | .error linearError =>
    match scanAnchored header slots with
    | .ok result => .ok result
    | .error _ => .error linearError

/-- The scan of the control region of a pool member. -/
def scanHistory (slots : List Slot) : Except Error HistoryScan := do
  rejectIf (¬ header.dynamicPool) .dynamicPoolFeatureRequired
  let scanned ← scanInto header slots
  .ok ⟨scanned.1, header.memberId, scanned.2⟩

end Journal

end Zettide
