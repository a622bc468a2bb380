import Zettide.Journal.Append
import Zettide.Journal.Reclaimed

/-! # Members whose journal is a log

The durable content of a member stands for a log, and the open journal above it describes that log.
This module says so as invariants of storage, open member and open journal, and shows what opening
a member and appending a record do to the log. A write that fails freezes the member, so after it
only the storage counts. -/

namespace Zettide

open Journal Option MemberFormat Claimed WriteOutcome List Storage Member ControlRecord

/-- One of the two header copies. -/
def Storage.copyAt (storage : Storage) (source : SourceSlot) : HeaderCopy :=
  match source with
  | .a => storage.copyA
  | .b => storage.copyB

/-- The log can be read although the records before `first` are gone: nothing is gone, or the
anchor is not before `first`. -/
def Kept (first : Nat) (anchor : Option Nat) : Prop :=
  first = 1 ∨ ∃ index, anchor = some index ∧ first ≤ index

variable [Blake3]

/-- The header fits the log, and the log can be read with it. -/
structure HeaderNames (header : Header) (slotCount : Nat) (log : List Record) (first : Nat)
    (anchor : Option Nat) : Prop where
  fitting : HeaderFor header slotCount log
  named : Named header slotCount log anchor
  kept : Kept first anchor

/-- The storage of a member stands for a log whose records before `first` are reclaimed. -/
structure Journaled (storage : Storage) (log : List Record) (first : Nat) : Prop where
  holds : Holds storage.slots log first
  copies : ∀ source header, storage.copyAt source = .bytes header →
    ∃ anchor, HeaderNames header storage.slots.length log first anchor
  agree : ∀ a b, storage.copyA = .bytes a → storage.copyB = .bytes b →
    staticPart a = staticPart b ∧ a.catalogData = b.catalogData ∧
      (a.headerSequence = b.headerSequence → a = b)
  readable : ∃ source header, storage.copyAt source = .bytes header

/-- An open member over the storage of a log. Its header is the newest copy. -/
structure Opened (member : Member) (log : List Record) (first : Nat) : Prop where
  journaled : Journaled member.storage log first
  current : member.frozen = false → member.storage.copyAt member.source = .bytes member.header
  newest : member.frozen = false → ∀ header,
    member.storage.copyAt (otherCopy member.source) = .bytes header →
      header.headerSequence ≤ member.header.headerSequence
  published : member.frozen = false → member.checkpointReclaimReady = true →
    ∀ source, member.storage.copyAt source = .bytes member.header
  linked : WellLinked member.header.setId member.header.memberId log

/-- The record at an index of the log is a checkpoint that can be a root. -/
def RootAt (log : List Record) (index : Nat) : Prop :=
  0 < index ∧ ∃ record snapshot, log[index]? = some record ∧
    PoolAuthorityCheckpoint.validateCompactedRootRecord record = .ok snapshot

/-- An open journal that describes the log of its member. -/
structure Tracked (claimed : Claimed) (log : List Record) (first : Nat) (anchor : Option Nat) :
    Prop where
  opened : Opened claimed.member log first
  view : claimed.member.frozen = false →
    View claimed.member.storage.slots.length log anchor claimed.journal.scanState
  kept : claimed.member.frozen = false → Kept first anchor
  root : claimed.member.frozen = false → ∀ index, anchor = some index → RootAt log index
  damage : claimed.member.frozen = false →
    (claimed.journal.scanState.unresolvedTailDamage = true ↔ Damaged claimed.member.storage.slots)
  ready : claimed.member.frozen = false → claimed.journal.ringWriteReady = true →
    ∀ index, anchor = some index → first = index ∧ ¬ Damaged claimed.member.storage.slots

variable {log : List Record} {first slotCount slot : Nat} {anchor : Option Nat}
  {slots : List Slot} {claimed : Claimed} {proposal record : Record} {token : TailToken}
  {storage : Storage} {header : Header} {member : Member} {journal : Journal} {memberId setId : Id}

/-- A frozen member is not written any more, so only its storage counts. -/
theorem Opened.of_frozen (h : Journaled member.storage log first) (frozen : member.frozen = true)
    (linked : WellLinked member.header.setId member.header.memberId log) :
    Opened member log first := by
  refine ⟨h, ?_, ?_, ?_, linked⟩ <;> simp [frozen]

theorem Tracked.of_frozen (h : Opened claimed.member log first)
    (frozen : claimed.member.frozen = true) : Tracked claimed log first anchor := by
  refine ⟨h, ?_, ?_, ?_, ?_, ?_⟩ <;> simp [frozen]

theorem HeaderNames.root (h : HeaderNames header slotCount log first anchor) (index : Nat)
    (hanchor : anchor = some index) : RootAt log index := by
  have named := h.named
  rw [hanchor] at named
  obtain ⟨record, names⟩ := named
  obtain ⟨snapshot, hroot⟩ := names.root
  exact ⟨names.pos, record, snapshot, names.get, hroot⟩

/-! ## Reading and writing slots -/

section

omit [Blake3]

theorem readSlot_set (slots : List Slot) (slot other : Nat) (content : Slot)
    (hlt : slot < slots.length) :
    readSlot (slots.set slot content) other =
      if other = slot then content else readSlot slots other := by
  unfold readSlot
  by_cases h : slot = other
  · subst h
    simp [hlt]
  · simp [h, Ne.symm h]

theorem damaged_iff_readSlot :
    Damaged slots ↔ ∃ slot fault, readSlot slots slot = .damaged fault := by
  constructor
  · rintro ⟨content, hmem, fault, rfl⟩
    obtain ⟨slot, hslot⟩ := mem_iff_getElem?.mp hmem
    exact ⟨slot, fault, readSlot_of_getElem? hslot⟩
  · rintro ⟨slot, fault, hread⟩
    unfold readSlot at hread
    rw [getD_eq_getElem?_getD] at hread
    cases hget : slots[slot]? with
    | none => simp [hget] at hread
    | some content =>
      simp only [hget, getD_some] at hread
      exact ⟨content, mem_of_getElem? hget, fault, hread⟩

/-- A slot that holds no record can be overwritten by the next record. -/
theorem Holds.snoc (h : Holds slots log first)
    (hlt : ringSlot slots.length log.length < slots.length)
    (free : ∀ record, readSlot slots (ringSlot slots.length log.length) ≠ .bytes record)
    (record : Record) :
    Holds (slots.set (ringSlot slots.length log.length) (.bytes record)) (log ++ [record])
      first := by
  have hpos := h.length_pos
  have hfirstPos := h.first_pos
  have hfirst := h.first_le
  have hfits := h.fits
  have hslotPos := ringSlot_pos (n := slots.length) hpos
  -- one turn after `first` the slot would hold the record at `first`
  have hroom : log.length < first + (slots.length - 1) := by
    rcases Nat.lt_or_ge log.length (first + (slots.length - 1)) with h' | h'
    · exact h'
    have hlen : log.length = first + (slots.length - 1) := by omega
    have hheld : first < log.length := by omega
    refine absurd (h.record first _ (Nat.le_refl _) (getElem?_eq_getElem hheld)) ?_
    have := free log[first]
    rwa [hlen, ringSlot_add hfirstPos] at this
  refine ⟨hfirstPos, by simp; omega, by simp; omega, ?_, ?_, ?_⟩
  · intro r hget
    rw [readSlot_set _ _ _ _ hlt, if_neg (by omega)]
    rw [getElem?_append_left hpos] at hget
    exact h.birth r hget
  · intro index r hge hget
    rw [length_set, readSlot_set _ _ _ _ hlt]
    rcases Nat.lt_or_ge index log.length with hin | hout
    · have hne : ringSlot slots.length index ≠ ringSlot slots.length log.length := by
        intro heq
        have := ringSlot_inj (n := slots.length) (i := index) (j := log.length) (by omega)
          (by omega) (by omega) heq
        omega
      rw [if_neg hne]
      rw [List.getElem?_append_left hin] at hget
      exact h.record index r hge hget
    · obtain rfl : index = log.length := by
        have := (List.getElem?_eq_some_iff.mp hget).1
        simp at this
        omega
      simpa using hget
  · intro slot r hslot hread
    rw [readSlot_set _ _ _ _ hlt] at hread
    rw [length_set]
    split at hread
    case isTrue heq =>
      refine ⟨log.length, hfirst, ?_, heq⟩
      simpa using Slot.bytes.inj hread
    case isFalse =>
      obtain ⟨index, hge, hget, heq⟩ := h.only slot r hslot hread
      have hin := (List.getElem?_eq_some_iff.mp hget).1
      exact ⟨index, hge, by rw [List.getElem?_append_left hin]; exact hget, heq⟩

/-- A slot that holds no record can be overwritten by bytes that are none. -/
theorem Holds.overwrite (h : Holds slots log first) (hlt : slot < slots.length)
    (free : ∀ record, readSlot slots slot ≠ .bytes record) {content : Slot}
    (blank : ∀ record, content ≠ .bytes record) : Holds (slots.set slot content) log first := by
  have hother : ∀ other record, readSlot slots other = .bytes record →
      readSlot (slots.set slot content) other = .bytes record := by
    intro other record hread
    rw [readSlot_set _ _ _ _ hlt, if_neg]
    · exact hread
    · rintro rfl
      exact free record hread
  refine ⟨h.first_pos, h.first_le, by rw [length_set]; exact h.fits, ?_, ?_, ?_⟩
  · exact fun record hget => hother 0 record (h.birth record hget)
  · intro index record hge hget
    rw [length_set]
    exact hother _ record (h.record index record hge hget)
  · intro other record hpos hread
    rw [readSlot_set _ _ _ _ hlt] at hread
    rw [length_set]
    split at hread
    case isTrue => exact absurd hread (blank record)
    case isFalse => exact h.only other record hpos hread

end

/-! ## Opening a member -/

section

variable (h : Journaled storage log first)
include h

theorem Journaled.decodes (source : SourceSlot) (hcopy : storage.copyAt source = .bytes header) :
    decodeCandidate (.bytes header) = some header := by
  obtain ⟨anchor, names⟩ := h.copies source header hcopy
  simp [decodeCandidate, names.fitting.valid, value]

/-- A log belongs to the member that each readable header copy names. -/
theorem Journaled.linked (source : SourceSlot) (hcopy : storage.copyAt source = .bytes header) :
    WellLinked header.setId header.memberId log := by
  obtain ⟨anchor, names⟩ := h.copies source header hcopy
  exact names.fitting.linked

/-- A member with a readable header copy opens with the newest one. -/
theorem openStorage_of_journaled (mode : OpenMode) :
    ∃ member, openStorage storage mode = .ok member ∧ member.storage = storage ∧
      member.mode = mode ∧ member.frozen = false ∧ member.checkpointReclaimReady = false ∧
      Opened member log first := by
  have hdecodeA : ∀ header, storage.copyA = .bytes header →
      decodeCandidate (.bytes header) = some header :=
    fun header hcopy => h.decodes .a hcopy
  have hdecodeB : ∀ header, storage.copyB = .bytes header →
      decodeCandidate (.bytes header) = some header :=
    fun header hcopy => h.decodes .b hcopy
  have hopened : ∀ source header degraded, storage.copyAt source = .bytes header →
      (∀ other, storage.copyAt (otherCopy source) = .bytes other →
        other.headerSequence ≤ header.headerSequence) →
      Opened ⟨storage, header, source, degraded, false, mode, false⟩ log first :=
    fun source _ _ hcopy hnewest =>
      ⟨h, fun _ => hcopy, fun _ => hnewest, by simp, h.linked source hcopy⟩
  unfold openStorage select
  cases hA : storage.copyA with
  | damaged faultA =>
    cases hB : storage.copyB with
    | damaged faultB =>
      obtain ⟨source, header, hcopy⟩ := h.readable
      cases source <;> simp [copyAt, hA, hB] at hcopy
    | bytes b =>
      rw [hdecodeB b hB]
      exact ⟨_, rfl, rfl, rfl, rfl, rfl, hopened .b b _ hB (by simp [copyAt, otherCopy, hA])⟩
  | bytes a =>
    cases hB : storage.copyB with
    | damaged faultB =>
      rw [hdecodeA a hA]
      exact ⟨_, rfl, rfl, rfl, rfl, rfl, hopened .a a _ hA (by simp [copyAt, otherCopy, hB])⟩
    | bytes b =>
      obtain ⟨hstatic, hcatalog, hsame⟩ := h.agree a b hA hB
      have hopenedA (hle : b.headerSequence ≤ a.headerSequence) (degraded : Bool) :=
        hopened .a a degraded hA (by simp [copyAt, otherCopy, hB, hle])
      simp only [hdecodeA a hA, hdecodeB b hB, selectValid, rejectIf, hstatic,
        hcatalog, ne_eq, not_true_eq_false, if_false, bind, Except.bind]
      rcases Nat.lt_trichotomy a.headerSequence b.headerSequence with hlt | heq | hgt
      · rw [if_neg (by omega), if_pos hlt]
        exact ⟨_, rfl, rfl, rfl, rfl, rfl, hopened .b b _ hB
          (by simp [copyAt, otherCopy, hA, hlt.le])⟩
      · obtain rfl := hsame heq
        simp only [gt_iff_lt, Nat.lt_irrefl, if_false, mutableEqual, and_self, not_true_eq_false]
        exact ⟨_, rfl, rfl, rfl, rfl, rfl, hopenedA heq.ge _⟩
      · rw [if_pos hgt]
        exact ⟨_, rfl, rfl, rfl, rfl, rfl, hopenedA hgt.le _⟩

end

/-- The header of an open member names an anchor of its log. -/
theorem Opened.names (h : Opened member log first) (live : member.frozen = false) :
    ∃ anchor, HeaderNames member.header member.storage.slots.length log first anchor :=
  h.journaled.copies _ _ (h.current live)

section

variable (h : Opened member log first)
  (names : HeaderNames member.header member.storage.slots.length log first anchor)
include h names

/-- **Scanning an open member returns its log.** -/
theorem Opened.scan :
    ∃ state, scanHistory member.header member.storage.slots = .ok ⟨state, member.header.memberId,
          visibleEntries member.storage.slots.length log (shownFrom first anchor)⟩ ∧
      View member.storage.slots.length log anchor state ∧
      (state.unresolvedTailDamage = true ↔ Damaged member.storage.slots) :=
  scanHistory_of_holds h.journaled.holds names.fitting names.named names.kept

/-- An open journal of an open member describes its log. -/
theorem Opened.openMember (hopen : openMember member = .ok journal) :
    Tracked ⟨member, journal⟩ log first anchor := by
  obtain ⟨state, hscan, view, hdamage⟩ := h.scan names
  simp only [scanHistory, ok_iff, HistoryScan.mk.injEq] at hscan
  obtain ⟨_, scanned, hscanned, hstate, _⟩ := hscan
  simp only [Journal.openMember, hscanned, ok_iff] at hopen
  obtain ⟨_, rfl, _, _, _, rfl⟩ := hopen
  refine ⟨h, fun _ => hstate ▸ view, fun _ => names.kept, fun _ => names.root,
    fun _ => hstate ▸ hdamage, ?_⟩
  intro _ hready index hanchor
  rw [hstate, view.anchored, hanchor] at hready
  simp at hready

end

/-! ## Preparing a record -/

/-- A record made ready for the end of the log. -/
structure PreparedFor (claimed : Claimed) (log : List Record) (proposal : Record)
    (prepared : PreparedAppend) : Prop where
  live : claimed.member.frozen = false
  writable : claimed.member.mode = .writable
  record : ∃ last ∈ log.getLast?, prepared.record = sealRecord
    (chainRecord claimed.member.header last (recordDigest last) proposal)
  encoded : prepared.encoded = .bytes prepared.record
  digest : prepared.recordDigest = recordDigest prepared.record
  slot : prepared.physicalSlot =
    ringSlot claimed.member.storage.slots.length log.length
  inside : prepared.physicalSlot < claimed.member.storage.slots.length
  free : readSlot claimed.member.storage.slots prepared.physicalSlot = .zero
  linked : WellLinked claimed.member.header.setId claimed.member.header.memberId
    (log ++ [prepared.record])
  clean : ¬ Damaged claimed.member.storage.slots

/-- The slot for the next record, of a journal that is not full. -/
theorem View.next_slot {state : ScanResult} (view : View slotCount log anchor state)
    (hcount : slots.length = slotCount) (holds : Holds slots log first)
    (kept : Kept first anchor) (root : ∀ index, anchor = some index → RootAt log index)
    (reclaimed : ∀ index, anchor = some index → first = index)
    (clean : state.unresolvedTailDamage = false) (room : state.journalFull = false) :
    state.nextPhysicalSlot = ringSlot slotCount log.length ∧
      ringSlot slotCount log.length < slotCount ∧
      ∀ record, readSlot slots (ringSlot slotCount log.length) ≠ .bytes record := by
  subst hcount
  have hpos := holds.length_pos
  have hfirst := holds.first_pos
  have hfits := holds.fits
  have hfull : ¬ IsFull slots.length log anchor := by
    simpa [view.full clean] using room
  -- the ring has room: one turn after `first` would be the anchor itself
  have hturn : log.length ≠ first + (slots.length - 1) ∧
      state.nextPhysicalSlot = ringSlot slots.length log.length ∧
      ringSlot slots.length log.length < slots.length := by
    cases anchor with
    | none =>
      obtain rfl : first = 1 := by simpa [Kept] using kept
      have hslots := holds.slots_pos
      have hne : log.length ≠ slots.length := hfull
      rw [view.next clean, nextSlotOf, ringSlot_of_lt (by omega)]
      omega
    | some index =>
      obtain rfl := reclaimed index rfl
      obtain ⟨_, _, _, hget, _⟩ := root first rfl
      have htwo := holds.two_le (Nat.le_refl _) (List.getElem?_eq_some_iff.mp hget).1
      refine ⟨fun heq => hfull ?_, view.next clean, ringSlot_lt htwo⟩
      show ringSlot slots.length log.length = ringSlot slots.length first
      rw [heq, ringSlot_add hfirst]
  refine ⟨hturn.2.1, hturn.2.2, fun record hread => ?_⟩
  obtain ⟨index, hge, hget, heq⟩ := holds.only _ record (ringSlot_pos hpos) hread
  have hin := (List.getElem?_eq_some_iff.mp hget).1
  have := ringSlot_inj (n := slots.length) (i := index) (j := log.length) (by omega) (by omega)
    (by omega) heq.symm
  omega

omit [Blake3] in
theorem readSlot_zero_of_clean (clean : ¬ Damaged slots)
    (free : ∀ record, readSlot slots slot ≠ .bytes record) : readSlot slots slot = .zero := by
  cases hread : readSlot slots slot with
  | zero => rfl
  | damaged fault => exact absurd (damaged_iff_readSlot.mpr ⟨slot, fault, hread⟩) clean
  | bytes record => exact absurd hread (free record)

theorem decode_of_encodeDynamicPool {encoded : Record}
    (h : encodeDynamicPool record = .ok encoded) :
    record = encoded ∧ decode record = .ok record := by
  simp only [encodeDynamicPool, ok_iff, not_not] at h
  obtain ⟨hpolicy, hdigest, hsame⟩ := h
  refine ⟨hsame, decode_eq_ok.mpr ⟨?_, hdigest, rfl⟩⟩
  unfold validateDynamicPoolPolicy at hpolicy
  split at hpolicy
  · simp only [ok_iff] at hpolicy
    exact hpolicy.1
  split at hpolicy
  · simp only [ok_iff] at hpolicy
    exact hpolicy.1
  · simp only [validatePolicy, ok_iff] at hpolicy
    exact hpolicy.2.1

/-- **What a journal prepares continues its log.** -/
theorem Tracked.prepared (h : Tracked claimed log first anchor) {prepared : PreparedAppend}
    (hprepare : prepareLocked claimed.journal claimed.member token proposal = .ok prepared) :
    PreparedFor claimed log proposal prepared := by
  simp only [prepareLocked, checkAppend, checkWritable, ok_iff, not_and, not_not,
    Bool.not_eq_true] at hprepare
  obtain ⟨⟨⟨hmode, hlive⟩, hbarrier, hclean, hroom⟩, _, _, _, last, hlast, hkind, hoverflow,
    hvalid, encoded, hencoded, rfl⟩ := hprepare
  have view := h.view hlive
  have holds := h.opened.journaled.holds
  obtain ⟨names, hnames⟩ := h.opened.names hlive
  have hready : ∀ index, anchor = some index → first = index ∧
      ¬ Damaged claimed.member.storage.slots := by
    intro index hanchor
    refine h.ready hlive ?_ index hanchor
    have hanchored : claimed.journal.scanState.anchored = true := by
      rw [view.anchored, hanchor]
      rfl
    simpa using hbarrier hanchored
  have hundamaged : ¬ Damaged claimed.member.storage.slots := by
    rw [← h.damage hlive, hclean]
    simp
  obtain ⟨hslot, hinside, hfree⟩ := view.next_slot rfl holds (h.kept hlive) (h.root hlive)
    (fun index hanchor => (hready index hanchor).1) hclean hroom
  rw [view.tail] at hlast
  have hdigest := view.tailDigest last hlast
  obtain rfl : sealRecord (chainRecord claimed.member.header last
      claimed.journal.scanState.tailRawRecordDigest proposal) = encoded := by
    have := hencoded
    simp only [encodeDynamicPool, ok_iff] at this
    exact this.2.2
  refine ⟨hlive, hmode, ⟨last, hlast, by rw [hdigest]⟩, rfl, rfl, hslot, hslot ▸ hinside,
    hslot ▸ readSlot_zero_of_clean hundamaged hfree, ?_, hundamaged⟩
  refine hnames.fitting.linked.snoc hlast ((decode_of_encodeDynamicPool hencoded).2) ⟨rfl, rfl⟩
    ⟨hkind, hvalid⟩ ?_
  rw [← hdigest]
  simp only [checkSuccessor, sealRecord, chainRecord, ok_iff]
  exact ⟨by simp [hoverflow], by simp, by simp⟩

/-! ## Appending a record -/

omit [Blake3] in
theorem WriteOutcome.eq_done_of_succeeds {outcome : WriteOutcome}
    (h : outcome.succeeds = true) : outcome = .done := by
  cases outcome <;> simp [succeeds] at h ⊢

omit [Blake3] in
/-- The new content is durable, whether or not the write says so. -/
def WriteOutcome.durable (outcome : WriteOutcome) : Bool :=
  match outcome with
  | .done => true
  | .failedOld => false
  | .failedNew => true
  | .failedTorn _ => false

/-- The log after the write of a record. -/
def WriteOutcome.grow (outcome : WriteOutcome) (log : List Record) (record : Record) :
    List Record :=
  if outcome.durable then log ++ [record] else log

theorem HeaderNames.snoc (h : HeaderNames header slotCount log first anchor) (hne : log ≠ [])
    (linked : WellLinked setId memberId (log ++ [record])) :
    HeaderNames header slotCount (log ++ [record]) first anchor := by
  -- both headers own the first record of the log
  obtain ⟨birth, rest, rfl⟩ := exists_cons_of_ne_nil hne
  obtain ⟨hset, hmember⟩ := linked.owner birth (by simp)
  obtain ⟨hset', hmember'⟩ := h.fitting.linked.owner birth (by simp)
  rw [hset] at hset'
  rw [hmember] at hmember'
  refine ⟨⟨h.fitting.valid, h.fitting.pool, h.fitting.slots, ?_, ?_⟩, ?_, h.kept⟩
  · simpa using h.fitting.birth
  · rwa [← hset', ← hmember']
  · have named := h.named
    cases anchor with
    | none => exact named
    | some index =>
      obtain ⟨record', names⟩ := named
      have hlt := (List.getElem?_eq_some_iff.mp names.get).1
      exact ⟨record', names.pos, by rw [List.getElem?_append_left hlt]; exact names.get,
        names.root, names.sequence, names.digest, names.hint⟩

/-- The storage of a log after a write to the slot of the next record. -/
theorem Journaled.write (h : Journaled storage log first)
    (hlt : ringSlot storage.slots.length log.length < storage.slots.length)
    (free : readSlot storage.slots (ringSlot storage.slots.length log.length) = .zero)
    (linked : WellLinked setId memberId (log ++ [record])) (outcome : WriteOutcome) :
    Journaled { storage with
      slots := storage.slots.set (ringSlot storage.slots.length log.length)
        (outcome.leaves Slot.damaged .zero (.bytes record)) } (outcome.grow log record) first := by
  have hfree : ∀ record, readSlot storage.slots (ringSlot storage.slots.length log.length) ≠
      .bytes record := by
    simp [free]
  have hne : log ≠ [] := by
    rintro rfl
    exact absurd h.holds.length_pos (by simp)
  refine ⟨?_, fun source header hcopy => ?_, h.agree, h.readable⟩
  · cases outcome with
    | done | failedNew => exact h.holds.snoc hlt hfree record
    | failedOld | failedTorn fault => exact h.holds.overwrite hlt hfree (by simp [leaves])
  · obtain ⟨anchor, names⟩ := h.copies source header hcopy
    refine ⟨anchor, ?_⟩
    rw [length_set]
    unfold grow
    split
    · exact names.snoc hne linked
    · exact names

omit [Blake3] in
theorem damaged_set (clean : ¬ Damaged slots) (hlt : slot < slots.length) (content : Slot) :
    Damaged (slots.set slot content) ↔ ∃ fault, content = .damaged fault := by
  simp only [damaged_iff_readSlot, readSlot_set _ _ _ _ hlt] at clean ⊢
  constructor
  · rintro ⟨other, fault, hread⟩
    split at hread
    · exact ⟨fault, hread⟩
    · exact absurd ⟨other, fault, hread⟩ clean
  · rintro ⟨fault, rfl⟩
    exact ⟨slot, fault, by rw [if_pos rfl]⟩

/-- The journal describes the log after a record has been written. -/
theorem View.advance (view : View slotCount log anchor journal.scanState)
    (root : ∀ index, anchor = some index → RootAt log index)
    (unwrapped : anchor = none → log.length < slotCount) {prepared : PreparedAppend}
    (hdigest : prepared.recordDigest = recordDigest prepared.record)
    (hslot : prepared.physicalSlot = ringSlot slotCount log.length)
    (htwo : anchor ≠ none → 2 ≤ slotCount) :
    View slotCount (log ++ [prepared.record]) anchor (journal.advance prepared).scanState := by
  have hanchored := view.anchored
  have hactive := view.activeAnchor
  cases anchor with
  | none =>
    have hlt := unwrapped rfl
    have hslot' : prepared.physicalSlot = log.length := by rw [hslot, ringSlot_of_lt hlt]
    refine ⟨?_, ?_, ?_, ?_, ?_, ?_, ?_, ?_⟩ <;> simp only [advance, hanchored, hactive]
    · exact view.count
    · simp
    · simp [hdigest]
    · simp [hslot]
    · rfl
    · rfl
    · simp [hslot', nextSlotOf]
    · simp [hslot', IsFull, view.count]
  | some index =>
    obtain ⟨_, record, _, hget, _⟩ := root index rfl
    have hlt := (List.getElem?_eq_some_iff.mp hget).1
    have hnext : nextRingSlot prepared.physicalSlot slotCount =
        ringSlot slotCount (log.length + 1) := by
      rw [hslot, nextRingSlot_ringSlot (htwo (by simp))]
    simp only [isSome_some] at hanchored
    have hat : anchorAt slotCount log index =
        some ⟨record, recordDigest record, ringSlot slotCount index⟩ := by
      simp [anchorAt, hget]
    rw [bind_some, hat] at hactive
    refine ⟨?_, ?_, ?_, ?_, ?_, ?_, ?_, ?_⟩ <;> simp only [advance, hanchored, hactive]
    · exact view.count
    · simp
    · simp [hdigest]
    · simp [hslot]
    · rfl
    · rw [bind_some, anchorAt_snoc, if_neg (by omega), hat]
    · simp [view.count, hnext, nextSlotOf]
    · simp [view.count, hnext, IsFull]

/-- Open journal and member after the write of a prepared record. -/
def Journal.Claimed.written (claimed : Claimed) (prepared : PreparedAppend)
    (outcome : WriteOutcome) : Claimed where
  member := (claimed.member.setSlot prepared.physicalSlot
    (outcome.leaves Slot.damaged .zero (.bytes prepared.record))).afterWrite outcome
  journal := if outcome.succeeds then claimed.journal.advance prepared else claimed.journal

section

variable (claimed : Claimed) (prepared : PreparedAppend) (outcome : WriteOutcome)

omit [Blake3]

@[simp] theorem written_header :
    (claimed.written prepared outcome).member.header = claimed.member.header := by
  simp only [written, afterWrite, setSlot]
  split <;> rfl

@[simp] theorem written_storage :
    (claimed.written prepared outcome).member.storage = { claimed.member.storage with
        slots := claimed.member.storage.slots.set prepared.physicalSlot
          (outcome.leaves Slot.damaged .zero (.bytes prepared.record)) } := by
  simp only [written, afterWrite, setSlot]
  split <;> rfl

@[simp] theorem written_other :
    (claimed.written prepared outcome).member.mode = claimed.member.mode ∧
      (claimed.written prepared outcome).member.source = claimed.member.source ∧
      (claimed.written prepared outcome).member.checkpointReclaimReady =
        claimed.member.checkpointReclaimReady := by
  simp only [written, afterWrite, setSlot]
  split <;> simp

theorem written_frozen (live : claimed.member.frozen = false) :
    (claimed.written prepared outcome).member.frozen = !outcome.succeeds := by
  simp only [written, afterWrite, setSlot]
  cases outcome <;> simp [WriteOutcome.succeeds, live]

end

/-- **A written record continues the log, if it is durable.** -/
theorem Tracked.written (h : Tracked claimed log first anchor) {prepared : PreparedAppend}
    (p : PreparedFor claimed log proposal prepared) (outcome : WriteOutcome) :
    Tracked (claimed.written prepared outcome) (outcome.grow log prepared.record) first anchor := by
  have view := h.view p.live
  have journaled := h.opened.journaled.write (p.slot ▸ p.inside) (p.slot ▸ p.free) p.linked outcome
  rw [← p.slot] at journaled
  have hdone : (claimed.written prepared outcome).member.frozen = false → outcome = .done := by
    rw [written_frozen claimed prepared outcome p.live]
    cases outcome <;> simp [WriteOutcome.succeeds]
  have linked : WellLinked claimed.member.header.setId claimed.member.header.memberId
      (outcome.grow log prepared.record) := by
    unfold grow
    split
    · exact p.linked
    · exact h.opened.linked
  refine ⟨⟨by rw [written_storage]; exact journaled, fun hlive => ?_, fun hlive => ?_,
    fun hlive hready => ?_, by rw [written_header]; exact linked⟩, fun hlive => ?_,
      fun hlive => h.kept p.live, fun hlive => ?_,
    fun hlive => ?_, fun hlive hready => ?_⟩
  · simpa [copyAt] using h.opened.current p.live
  · simpa [copyAt] using h.opened.newest p.live
  · rw [(written_other claimed prepared outcome).2.2] at hready
    simpa [copyAt] using h.opened.published p.live hready
  all_goals obtain rfl := hdone hlive
  · rw [written_storage, length_set]
    refine view.advance (h.root p.live) ?_ p.digest p.slot ?_
    · rintro rfl
      have hlt := p.inside
      have hone : first = 1 := by simpa [Kept] using h.kept p.live
      have hfits := h.opened.journaled.holds.fits
      -- a full linear journal would put the record on the slot of the first one
      rcases Nat.lt_or_ge log.length claimed.member.storage.slots.length with hin | hout
      · exact hin
      have hlen : log.length = 1 + (claimed.member.storage.slots.length - 1) := by omega
      have hslot := p.slot
      rw [hlen, ringSlot_add (by omega)] at hslot
      rw [hslot] at hlt
      have hfree := p.free
      have htwo : 1 < claimed.member.storage.slots.length :=
        Nat.lt_of_le_of_lt (ringSlot_pos (by omega)) hlt
      rw [hslot, h.opened.journaled.holds.record 1 _ (by omega)
        (getElem?_eq_getElem (by omega))] at hfree
      cases hfree
    · intro hsome
      have hlt := p.inside
      have hpos := ringSlot_pos (n := claimed.member.storage.slots.length)
        h.opened.journaled.holds.length_pos
      rw [p.slot] at hlt
      omega
  · intro index hanchor
    obtain ⟨hpos, record, snapshot, hget, hroot⟩ := h.root p.live index hanchor
    have hlt := (List.getElem?_eq_some_iff.mp hget).1
    exact ⟨hpos, record, snapshot, by
      simp only [grow, durable, if_true]
      rw [getElem?_append_left hlt]; exact hget, hroot⟩
  · have hflag : (claimed.written prepared .done).journal.scanState.unresolvedTailDamage =
        claimed.journal.scanState.unresolvedTailDamage := by
      simp only [Claimed.written, WriteOutcome.succeeds, if_true, advance]
      split <;> rfl
    rw [hflag, h.damage p.live, written_storage, damaged_set p.clean p.inside]
    simp [leaves, p.clean]
  · have hflag : (claimed.written prepared .done).journal.ringWriteReady =
        claimed.journal.ringWriteReady := by
      simp only [Claimed.written, WriteOutcome.succeeds, if_true, advance]
      split <;> rfl
    rw [hflag] at hready
    intro index hanchor
    refine ⟨(h.ready p.live hready index hanchor).1, ?_⟩
    rw [written_storage, damaged_set p.clean p.inside]
    simp [leaves]

/-! ## From a proposal to its append -/

/-- What a successful or failed append tells its caller. -/
def appendReport (prepared : PreparedAppend) (outcome : WriteOutcome) :
    Except JournalError AppendResult :=
  if outcome.succeeds then .ok ⟨prepared.record, prepared.recordDigest, prepared.physicalSlot⟩
  else .error .writeFailed

/-- A prepared record is what the unchanged journal would prepare again. -/
theorem checkPrepared_of_prepared {prepared : PreparedAppend}
    (h : prepareLocked claimed.journal claimed.member token proposal = .ok prepared) :
    checkPrepared claimed prepared = .ok () := by
  have hrepeat : prepareLocked claimed.journal claimed.member prepared.expectedTail
      prepared.record = .ok prepared := by
    simp only [prepareLocked, ok_iff] at h ⊢
    obtain ⟨hcheck, current, htoken, hsame, tail, htail, hkind, hoverflow, hvalid, encoded,
      hencoded, rfl⟩ := h
    -- sealing the record for the journal again changes nothing
    exact ⟨hcheck, current, htoken, hsame, tail, htail, hkind, hoverflow, hvalid, encoded,
      hencoded, rfl⟩
  simp [checkPrepared, hrepeat, rejectIf, bind, Except.bind]

theorem commitPreparedLocked_eq {prepared : PreparedAppend}
    (p : PreparedFor claimed log proposal prepared) (outcome : WriteOutcome) :
    commitPreparedLocked claimed prepared outcome =
      (claimed.written prepared outcome, appendReport prepared outcome) := by
  rw [commitPreparedLocked, writeDurable_eq p.writable p.live p.inside, p.free, p.encoded]
  cases outcome <;> simp [writeResult, WriteOutcome.succeeds, appendReport, written]

/-- **Appending a record that was prepared in the same state writes it.** -/
theorem appendPrepared_eq (h : Tracked claimed log first anchor) {prepared : PreparedAppend}
    (hprepare : prepareExact claimed.journal claimed.member token proposal = .ok prepared)
    (outcome : WriteOutcome) :
    PreparedFor claimed log proposal prepared ∧ appendPrepared claimed prepared outcome =
        (claimed.written prepared outcome, appendReport prepared outcome) := by
  simp only [prepareExact, ok_iff] at hprepare
  obtain ⟨hkind, hprepare⟩ := hprepare
  have p := h.prepared hprepare
  have hrecord : prepared.record.kind = proposal.kind := by
    obtain ⟨last, _, heq⟩ := p.record
    rw [heq]
    rfl
  refine ⟨p, ?_⟩
  unfold appendPrepared
  rw [if_neg (by rw [hrecord]; exact hkind), checkPrepared_of_prepared hprepare]
  exact commitPreparedLocked_eq p outcome

theorem appendPreparedCheckpoint_eq (h : Tracked claimed log first anchor)
    {prepared : PreparedAppend}
    (hprepare : prepareCheckpointExact claimed.journal claimed.member token proposal =
      .ok prepared) (outcome : WriteOutcome) :
    PreparedFor claimed log proposal prepared ∧ appendPreparedCheckpoint claimed prepared outcome =
        (claimed.written prepared outcome, appendReport prepared outcome) := by
  simp only [prepareCheckpointExact, ok_iff, not_not] at hprepare
  obtain ⟨hkind, hprepare⟩ := hprepare
  have p := h.prepared hprepare
  have hrecord : prepared.record.kind = proposal.kind := by
    obtain ⟨last, _, heq⟩ := p.record
    rw [heq]
    rfl
  refine ⟨p, ?_⟩
  unfold appendPreparedCheckpoint
  rw [if_neg (by rw [hrecord, hkind]; simp), checkPrepared_of_prepared hprepare]
  exact commitPreparedLocked_eq p outcome

end Zettide
