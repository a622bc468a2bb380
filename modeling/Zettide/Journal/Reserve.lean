import Zettide.Journal.Publication
import Zettide.Journal.Born

/-! # The free slots of a journal

How many slots a log leaves free, in terms of the log: what a scan counts around the ring is the
length of the region less what lies between the anchor and the tail. An append takes one of them,
and a journal that is cut at a later anchor has at least as many as before. -/

namespace Zettide

open Journal Option MemberFormat List HeaderCopy Except Member ControlRecord

variable [Blake3]

omit [Blake3] in
/-- The slots that a log leaves free. -/
def spareSlots (slotCount : Nat) (log : List Record) (anchor : Option Nat) : Nat :=
  match anchor with
  | none => slotCount - log.length
  | some index => slotCount - 1 - (log.length - index)

variable {log : List Record} {anchor : Option Nat} {header : Header} {storage : Storage}
  {slotCount index : Nat} {claimed : Claimed} {member : Member} {clear : Nat → WriteOutcome}
  {record : Record}

/-- **The count of free slots that a scan makes is that of the log.** -/
theorem View.available {state : ScanResult} (view : View slotCount log anchor state)
    (clean : state.unresolvedTailDamage = false) (two : 2 ≤ slotCount)
    (root : ∀ index, anchor = some index →
      0 < index ∧ index < log.length ∧ log.length ≤ index + (slotCount - 1)) :
    availableSlotCount state = spareSlots slotCount log anchor := by
  unfold availableSlotCount
  rw [view.anchored, view.activeAnchor, view.next clean, view.count]
  cases anchor with
  | none => rfl
  | some index =>
    obtain ⟨hpos, hlt, hfits⟩ := root index rfl
    simp only [isSome_some, bind_some, anchorAt, getElem?_eq_getElem hlt,
      map_some, nextSlotOf, spareSlots]
    exact ringSlot_gap two hpos hlt hfits

omit [Blake3] in
theorem spareSlots_snoc
    (held : ∀ index, anchor = some index → index < log.length) (record : Record) :
    spareSlots slotCount log anchor ≤ spareSlots slotCount (log ++ [record]) anchor + 1 := by
  cases anchor with
  | none => simp only [spareSlots, length_append, length_singleton]; omega
  | some index =>
    simp only [spareSlots, length_append, length_singleton]
    omega

omit [Blake3] in
/-- Cutting the log at a later anchor takes no free slot. -/
theorem spareSlots_cut (later : anchor.getD 1 ≤ index) (held : index < log.length) :
    spareSlots slotCount log anchor ≤ spareSlots slotCount log (some index) := by
  cases anchor with
  | none => simp only [spareSlots, Option.getD_none] at later ⊢; omega
  | some before => simp only [spareSlots, Option.getD_some] at later ⊢; omega

/-! ## Regions on which every write succeeded -/

omit [Blake3] in
/-- A log that leaves a slot free does not fill the journal. -/
theorem not_full_of_spare (held : ∀ index, anchor = some index → 0 < index ∧ index < log.length)
    (spare : 0 < spareSlots slotCount log anchor) : ¬ IsFull slotCount log anchor := by
  cases anchor with
  | none =>
    simp only [spareSlots] at spare
    simp only [IsFull]
    omega
  | some index =>
    obtain ⟨hpos, hlt⟩ := held index rfl
    simp only [spareSlots] at spare
    intro hfull
    have := ringSlot_inj hpos hlt.le (by omega) hfull.symm
    omega

/-- A region on which every write has succeeded: both copies of the header are the same and name an
anchor of the log, the records before the anchor are gone, and no slot is damaged. -/
structure Settled (storage : Storage) (header : Header) (log : List Record)
    (anchor : Option Nat) : Prop where
  copies : ∀ source, storage.copyAt source = .bytes header
  names : HeaderNames header storage.slots.length log (anchor.getD 1) anchor
  holds : Holds storage.slots log (anchor.getD 1)
  clean : ¬ Damaged storage.slots

theorem Settled.root (h : Settled storage header log anchor) (index : Nat)
    (hanchor : anchor = some index) :
    0 < index ∧ index < log.length ∧ log.length ≤ index + (storage.slots.length - 1) := by
  obtain ⟨hpos, record, _, hget, _⟩ := h.names.root index hanchor
  have hfits := h.holds.fits
  rw [hanchor] at hfits
  exact ⟨hpos, (List.getElem?_eq_some_iff.mp hget).1, hfits⟩

theorem Settled.journaled (h : Settled storage header log anchor) :
    Journaled storage log (anchor.getD 1) := by
  refine ⟨h.holds, fun source found hfound => ?_, fun a b hA hB => ?_, ⟨.a, header, h.copies .a⟩⟩
  · rw [h.copies source] at hfound
    rw [← bytes.inj hfound]
    exact ⟨anchor, h.names⟩
  · have hA' := bytes.inj ((h.copies .a).symm.trans hA)
    have hB' := bytes.inj ((h.copies .b).symm.trans hB)
    rw [← hA', ← hB']
    exact ⟨rfl, rfl, fun _ => rfl⟩

theorem Settled.opened (h : Settled member.storage member.header log anchor) :
    Opened member log (anchor.getD 1) := by
  refine ⟨h.journaled, fun _ => h.copies _, fun _ found hfound => ?_, fun _ _ => h.copies,
    h.names.fitting.linked⟩
  rw [h.copies] at hfound
  rw [← bytes.inj hfound]

theorem Settled.openStorage (h : Settled storage header log anchor) {mode : OpenMode}
    (hopen : openStorage storage mode = .ok member) :
    member.storage = storage ∧ member.header = header ∧ member.frozen = false := by
  obtain ⟨found, hfound, hstorage, _, hlive, _, opened⟩ := openStorage_of_journaled h.journaled mode
  obtain rfl := ok.inj (hfound.symm.trans hopen)
  have hcurrent := opened.current hlive
  rw [hstorage, h.copies] at hcurrent
  exact ⟨hstorage, (bytes.inj hcurrent).symm, hlive⟩

theorem Settled.scan (h : Settled storage header log anchor) (two : 2 ≤ storage.slots.length) :
    ∃ history, scanHistory header storage.slots = .ok history ∧
      availableSlotCount history.scanResult = spareSlots storage.slots.length log anchor ∧
      history.scanResult.tail = log.getLast? ∧ history.scanResult.anchored = anchor.isSome := by
  have opened : Opened ⟨storage, header, .a, false, false, .writable, false⟩ log
      (anchor.getD 1) := Settled.opened h
  obtain ⟨state, hscan, view, damage⟩ := opened.scan h.names
  refine ⟨_, hscan, view.available ?_ two h.root, view.tail, view.anchored⟩
  exact Bool.eq_false_iff.mpr fun hdamaged => h.clean (damage.mp hdamaged)

/-- The free slots of a journal that is open on such a region. -/
theorem Settled.available (h : Settled claimed.member.storage claimed.member.header log anchor)
    (two : 2 ≤ claimed.member.storage.slots.length) (live : claimed.member.frozen = false)
    (tracked : Tracked claimed log (anchor.getD 1) anchor) :
    availableSlotCount claimed.journal.scanState =
      spareSlots claimed.member.storage.slots.length log anchor := by
  refine (tracked.view live).available ?_ two h.root
  exact Bool.eq_false_iff.mpr fun hdamaged => h.clean ((tracked.damage live).mp hdamaged)

theorem Settled.born (birth : Birth header record) {result : Except JournalError Member}
    (hcreate : createWithFirstRecord header record .done = (storage, result)) :
    Settled storage header [record] none ∧ storage.slots.length = header.control.length / 4096 := by
  obtain rfl : _ = storage := congrArg Prod.fst hcreate
  have hslots : (createWithFirstRecord header record .done).1.slots = bornSlots header record := rfl
  refine ⟨⟨fun source => ?_, hslots ▸ birth.names, hslots ▸ birth.holds, ?_⟩,
    by rw [hslots, length_bornSlots]⟩
  · cases source <;> rfl
  · rw [hslots, damaged_iff_readSlot]
    rintro ⟨slot, fault, hread⟩
    rw [birth.read] at hread
    split at hread <;> cases hread

/-- **An append that succeeds.** -/
theorem Settled.written (h : Settled claimed.member.storage claimed.member.header log anchor)
    (tracked : Tracked claimed log (anchor.getD 1) anchor) {proposal : Record}
    {prepared : PreparedAppend} (p : PreparedFor claimed log proposal prepared) :
    Settled (claimed.written prepared .done).member.storage
        (claimed.written prepared .done).member.header (log ++ [prepared.record]) anchor ∧
      Tracked (claimed.written prepared .done) (log ++ [prepared.record]) (anchor.getD 1)
        anchor := by
  have hwritten := tracked.written p .done
  have hslots : (claimed.written prepared .done).member.storage.slots =
      claimed.member.storage.slots.set prepared.physicalSlot (.bytes prepared.record) := by
    rfl
  have hcount : (claimed.written prepared .done).member.storage.slots.length =
      claimed.member.storage.slots.length := by rw [hslots, length_set]
  refine ⟨⟨fun source => ?_, ?_, hwritten.opened.journaled.holds, ?_⟩, hwritten⟩
  · have := h.copies source
    cases source <;> exact this
  · rw [hcount, written_header]
    exact h.names.snoc (ne_nil_of_length_pos h.holds.length_pos) p.linked
  · rw [hslots, damaged_set p.clean p.inside]
    simp

/-! ## Cutting a journal whose writes succeed -/

/-- A header can name any record of the log as its checkpoint. -/
theorem HeaderFor.validate_publish [CollisionFree] (h : HeaderFor header slotCount log)
    (two : 2 ≤ slotCount)
    (hget : log[index]? = some record) :
    header.control.offset + ringSlot slotCount index * 4096 ≤ maxU64 ∧
      validate (publishedHeader header slotCount index record) = .ok () := by
  have hvalid := h.valid
  simp only [validate, ok_iff] at hvalid
  obtain ⟨_, hids, hfeatures, htopology, hgeometry, hcheckpoint⟩ := hvalid
  have hoffset : header.control.offset = 64 * 1024 := by
    have hregions := hgeometry
    simp only [validateGeometry, ok_iff, not_or] at hregions
    exact not_not.mp hregions.2.2.2.2.1.1
  simp only [validateCheckpoint, ok_iff] at hcheckpoint
  obtain ⟨controlEnd, hend, _, _⟩ := hcheckpoint
  have hlimit : header.control.offset + header.control.length ≤ maxU64 ∧
      controlEnd = header.control.offset + header.control.length := by
    simp only [Region.finish, ok_iff] at hend
    exact ⟨by omega, hend.2.symm⟩
  have hslot : ringSlot slotCount index < slotCount := ringSlot_lt two
  have hsequence := h.linked.sequence hget
  have hdigest : recordDigest record ≠ 0 := CollisionFree.ne_zero _
  have hlength := h.slots
  refine ⟨by omega, ?_⟩
  simp only [validate, ok_iff]
  refine ⟨Nat.succ_ne_zero _, hids, hfeatures, htopology, hgeometry, ?_⟩
  simp only [validateCheckpoint, ok_iff]
  refine ⟨controlEnd, hend, ?_, ?_⟩
  · simp only [publishedHeader, checkpointHeader, hdigest, iff_false, not_or, not_not]
    omega
  · simp only [publishedHeader, checkpointHeader]
    omega

omit [Blake3] in
/-- A publication succeeds when its writes do and the header can be written. -/
theorem publish_done (live : member.frozen = false) (writable : member.mode = .writable)
    (numbers : member.header.headerSequence ≠ maxU64) {offset sequence : Nat} {digest : Digest}
    (valid : MemberFormat.validate (Member.checkpointHeader member.header offset sequence digest) =
      .ok ()) :
    (member.publishCheckpointRedundant offset sequence digest .done .done).2 = .ok () := by
  have hprepare : member.preparePublication offset sequence digest =
      .ok (Member.checkpointHeader member.header offset sequence digest) := by
    simp [Member.preparePublication, Member.checkWritable, live, writable, numbers, valid]
  unfold Member.publishCheckpointRedundant
  rw [hprepare]
  rfl

omit [Blake3] in
/-- The loop that clears slots ends when its writes succeed. -/
theorem clearSlots_done (done : ∀ slot, clear slot = .done) (walk : List Nat) :
    ∀ {member : Member}, member.frozen = false → member.mode = .writable →
      (∀ slot ∈ walk, slot < member.storage.slots.length) →
      ∃ after, clearSlots clear walk member = (after, .ok ()) := by
  induction walk with
  | nil => exact fun _ _ _ => ⟨_, rfl⟩
  | cons slot rest ih =>
    intro member live writable inside
    obtain ⟨hslot, hrest⟩ := List.forall_mem_cons.mp inside
    unfold clearSlots
    split
    · exact ih live writable hrest
    · simp only [Member.writeDurable_eq writable live hslot, done, Member.writeResult,
        WriteOutcome.succeeds, if_true, Member.afterWrite, WriteOutcome.leaves]
      exact ih live writable (by simpa [Member.setSlot] using hrest)

variable {first : Nat} (h : Tracked claimed log first anchor)
  (names : HeaderNames claimed.member.header claimed.member.storage.slots.length log first (some index))
include h names

/-- The anchor that the header names is found: it is the tail, or the anchor that the journal has
kept. -/
theorem Tracked.reclaimAnchor_found (live : claimed.member.frozen = false)
    (writable : claimed.member.mode = .writable)
    (ready : claimed.member.checkpointReclaimReady = true)
    (known : index = log.length - 1 ∨ claimed.journal.scanState.activeAnchor =
      anchorAt claimed.member.storage.slots.length log index) :
    ∃ tailSlot found,
      Journal.reclaimAnchor claimed.journal claimed.member = .ok (tailSlot, found) := by
  have view := h.view live
  obtain ⟨record, hnames⟩ := names.named
  have hlt := (List.getElem?_eq_some_iff.mp hnames.get).1
  obtain ⟨tail, htail⟩ : ∃ tail, log.getLast? = some tail :=
    ⟨_, List.getLast?_eq_some_getLast (List.ne_nil_of_length_pos (by omega))⟩
  have hlast : log[log.length - 1]? = some tail := by rw [← getLast?_eq_getElem?]; exact htail
  obtain ⟨snapshot, hroot⟩ := hnames.root
  have hnamed : namedByHeader claimed.member.header record (recordDigest record)
      (ringSlot claimed.member.storage.slots.length index) := by
    refine ⟨?_, hnames.sequence.symm, hnames.digest.symm⟩
    have hhint := hnames.hint
    unfold hintSlot at hhint
    split at hhint
    · cases hhint
    · exact (some.inj hhint).symm
  have hwritable : claimed.member.checkWritable = .ok () := by
    simp [checkWritable, rejectIf, writable, live, bind, Except.bind]
  by_cases hend : index = log.length - 1
  · -- the tail itself
    obtain rfl : tail = record := by
      rw [hend] at hnames
      exact some.inj (hlast.symm.trans hnames.get)
    rw [hend] at hnamed
    refine ⟨ringSlot claimed.member.storage.slots.length (log.length - 1), ⟨tail, recordDigest tail,
        ringSlot claimed.member.storage.slots.length (log.length - 1)⟩, ?_⟩
    simp [Journal.reclaimAnchor, hwritable, ready, rejectIf, view.tail, htail, view.tailSlot,
      view.tailDigest tail htail, orElseFail, hnamed, hroot, withError, bind, Except.bind]
  · -- a checkpoint before the tail
    have hactive : claimed.journal.scanState.activeAnchor = some ⟨record, recordDigest record,
        ringSlot claimed.member.storage.slots.length index⟩ := by
      rw [known.resolve_left hend, anchorAt, hnames.get]
      rfl
    have hother : ¬ namedByHeader claimed.member.header tail
        claimed.journal.scanState.tailRawRecordDigest
        (ringSlot claimed.member.storage.slots.length (log.length - 1)) := by
      rintro ⟨_, hsequence, _⟩
      rw [hnames.sequence, names.fitting.linked.sequence hlast,
        names.fitting.linked.sequence hnames.get] at hsequence
      omega
    refine ⟨ringSlot claimed.member.storage.slots.length (log.length - 1),
      ⟨record, recordDigest record, ringSlot claimed.member.storage.slots.length index⟩, ?_⟩
    simp [Journal.reclaimAnchor, hwritable, ready, rejectIf, view.tail, htail, view.tailSlot,
      orElseFail, hother, hactive, hnamed, hroot, withError, bind, Except.bind]

/-- **A journal is cut at the anchor that its header names when the writes succeed.** -/
theorem Tracked.reclaim_done (hfirst : first ≤ index) (live : claimed.member.frozen = false)
    (writable : claimed.member.mode = .writable)
    (ready : claimed.member.checkpointReclaimReady = true)
    (known : index = log.length - 1 ∨ claimed.journal.scanState.activeAnchor =
      anchorAt claimed.member.storage.slots.length log index) (done : ∀ slot, clear slot = .done) :
    ∃ after, reclaimPublishedAnchor claimed clear = (after, .ok ()) ∧ after.member.frozen = false ∧
      after.member.storage.slots.length = claimed.member.storage.slots.length ∧
      Settled after.member.storage after.member.header log (some index) ∧
      Tracked after log index (some index) := by
  obtain ⟨tailSlot, found, hanchor⟩ := h.reclaimAnchor_found names live writable ready known
  obtain ⟨_, _, _, rfl, hat⟩ := h.reclaimAnchor names hanchor
  have hinside : ∀ slot ∈ ringWalk claimed.journal.scanState.slotCount found.physicalSlot
      claimed.journal.scanState.slotCount (nextRingSlot
        (ringSlot claimed.member.storage.slots.length (log.length - 1))
        claimed.journal.scanState.slotCount), slot < claimed.member.storage.slots.length := by
    rw [h.reclaimArc live names hfirst hat]
    intro slot hslot
    obtain ⟨other, _, rfl⟩ := mem_map.mp hslot
    obtain ⟨record, hnames⟩ := names.named
    exact ringSlot_lt (h.opened.journaled.holds.two_le hfirst
      (List.getElem?_eq_some_iff.mp hnames.get).1)
  obtain ⟨cleared, hclear⟩ := clearSlots_done done _ live writable hinside
  have hreclaim : reclaimPublishedAnchor claimed clear = (⟨cleared, claimed.journal.reclaimed
        (ringSlot claimed.member.storage.slots.length (log.length - 1)) found⟩, .ok ()) := by
    simp only [reclaimPublishedAnchor, hanchor, hclear]
  obtain ⟨next, _, reclaimed⟩ := h.reclaim names hfirst clear hreclaim
  obtain ⟨hlive, rfl, htracked⟩ := reclaimed.succeeded rfl
  refine ⟨_, hreclaim, hlive, reclaimed.count, ⟨fun source => ?_, ?_, ?_, ?_⟩, htracked⟩
  · rw [reclaimed.header, ← h.opened.published live ready source]
    cases source
    · exact reclaimed.copyA
    · exact reclaimed.copyB
  · rw [reclaimed.header, reclaimed.count]
    exact ⟨names.fitting, names.named, .inr ⟨next, rfl, Nat.le_refl _⟩⟩
  · exact htracked.opened.journaled.holds
  · exact (htracked.ready hlive rfl next rfl).2

end Zettide
