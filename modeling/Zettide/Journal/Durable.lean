import Zettide.Journal.Publication
import Zettide.Journal.Born

/-! # Runs of one member journal

A journal is opened, appended to, has anchors published and its slots reclaimed, and is cut off by a
crash at any write. What the caller has been told is kept beside the storage: the tail that the last
open or append reported, the records whose succeeded, and record of an write
failed.

The storage stands for a log in every state of every run. Two things are read off from that: a fresh
scan finds what was acknowledged, and an open journal knows what a fresh scan would find. -/

namespace Zettide

open Relation Journal Trio List Member Option ControlRecord Except MemberFormat

/-- A member and its journal, with what the caller of the journal knows. -/
structure Site where
  storage : Storage
  claimed : Option Claimed
  reported : Record
  acknowledged : List Record
  inFlight : Option Record

variable {twice once : WriteOutcome} {digest : Digest} {slotCount sequence offset : Nat}

namespace Site

/-- The site after a call that left the journal as it is given. -/
def left (site : Site) (claimed : Claimed) : Site :=
  { site with storage := claimed.member.storage, claimed := some claimed }

/-- The site after an append; only a write that failed leaves a record in flight. -/
def appended (site : Site) (prepared : PreparedAppend)
    (result : Claimed × Except JournalError AppendResult) : Site :=
  match result.2 with
  | .ok done =>
    { site.left result.1 with
      reported := done.record
      acknowledged := site.acknowledged ++ [done.record]
      inFlight := none }
  | .error .writeFailed => { site.left result.1 with inFlight := some prepared.record }
  | .error _ => site.left result.1

variable [Blake3]

/-- One call, or the end of a session by a close or a crash. An anchor is a record of the journal
whose snapshot can be a root. -/
inductive Step : Site → Site → Prop where
  | start (site : Site) (mode : OpenMode) (member : Member) (journal : Journal) (tail : Record) :
      site.claimed = none →
      openStorage site.storage mode = .ok member →
      openMember member = .ok journal → journal.scanState.tail = some tail →
      Step site { site with claimed := some ⟨member, journal⟩, reported := tail, inFlight := none }
  | stop (site : Site) : Step site { site with claimed := none }
  | append (site : Site) (claimed : Claimed) (prepared : PreparedAppend)
      (outcome : WriteOutcome) :
      site.claimed = some claimed →
      Step site (site.appended prepared (appendPrepared claimed prepared outcome))
  | checkpoint (site : Site) (claimed : Claimed) (prepared : PreparedAppend)
      (outcome : WriteOutcome) :
      site.claimed = some claimed →
      Step site (site.appended prepared (appendPreparedCheckpoint claimed prepared outcome))
  | publish (site : Site) (claimed : Claimed) (slot : Nat) (record : Record)
      (snapshot : Snapshot) (first second : WriteOutcome) :
      site.claimed = some claimed → 0 < slot →
      readSlot claimed.member.storage.slots slot = .bytes record →
      PoolAuthorityCheckpoint.validateCompactedRootRecord record = .ok snapshot →
      Step site (site.left ⟨(claimed.member.publishCheckpointRedundant
        (claimed.member.header.control.offset + slot * 4096) record.localSequence
        (recordDigest record) first second).1, claimed.journal⟩)
  | reclaim (site : Site) (claimed : Claimed) (clear : Nat → WriteOutcome) :
      site.claimed = some claimed →
      Step site (site.left (reclaimPublishedAnchor claimed clear).1)

/-- A member that has just been created, for a new pool or to join one. -/
inductive Created : Site → Prop where
  | genesis (header : Header) (payload : GenesisPayload) (record : Record)
      (outcome : CreateOutcome) (storage : Storage) (member : Member) :
      validateCreatePoolStorage header payload = .ok record →
      createPoolStorage header payload outcome = .ok (storage, .ok member) →
      Created ⟨storage, none, record, [record], none⟩
  | joining (header : Header) (record : Record) (outcome : CreateOutcome)
      (storage : Storage) (member : Member) :
      createJoiningStorage header record outcome = .ok (storage, .ok member) →
      Created ⟨storage, none, record, [record], none⟩

/-- The states that the journal of a member can get to. -/
def Reachable (site : Site) : Prop := ∃ start, Created start ∧ ReflTransGen Step start site

/-! ## Appending -/

/-- What an append did: it was refused and nothing was written, or the record was written with the
given outcome. -/
inductive Appends (claimed : Claimed) (log : List Record) (prepared : PreparedAppend)
    (outcome : WriteOutcome) : Claimed × Except JournalError AppendResult → Prop where
  | refused (e : JournalError) : e ≠ .writeFailed →
      Appends claimed log prepared outcome (claimed, .error e)
  | written : PreparedFor claimed log prepared.record prepared →
      Appends claimed log prepared outcome
        (claimed.written prepared outcome, appendReport prepared outcome)

variable {log : List Record} {first : Nat} {claimed : Claimed} {anchor : Option Nat} {site : Site}
  {record : Record}

section

variable (h : Tracked claimed log first anchor) (prepared : PreparedAppend) (outcome : WriteOutcome)
include h

theorem checkPrepared_appends : Appends claimed log prepared outcome
      (match checkPrepared claimed prepared with
        | .error e => (claimed, .error e)
        | .ok () => commitPreparedLocked claimed prepared outcome) := by
  cases hcheck : checkPrepared claimed prepared with
  | error e =>
    refine .refused e fun hfailed => ?_
    subst hfailed
    simp only [checkPrepared, bind_eq_error, rejectIf_eq_error] at hcheck
    rcases hcheck with hprepare | ⟨_, _, _, hne⟩
    · -- preparing a record writes nothing
      simp [prepareLocked, checkAppend, checkWritable, tailToken] at hprepare
    · cases hne
  | ok done =>
    simp only [checkPrepared, ok_iff, not_not] at hcheck
    obtain ⟨_, hprepare, rfl⟩ := hcheck
    have p := h.prepared hprepare
    rw [commitPreparedLocked_eq p outcome]
    exact .written p

theorem appendPrepared_appends :
    Appends claimed log prepared outcome (appendPrepared claimed prepared outcome) := by
  unfold appendPrepared
  split
  · exact .refused _ (by simp)
  · exact checkPrepared_appends h prepared outcome

theorem appendPreparedCheckpoint_appends : Appends claimed log prepared outcome
      (appendPreparedCheckpoint claimed prepared outcome) := by
  unfold appendPreparedCheckpoint
  split
  · exact .refused _ (by simp)
  · exact checkPrepared_appends h prepared outcome

end

/-! ## The log of a site -/

/-- The open journal of a site describes the log; while it can be written, its tail is the one that
the caller knows. -/
structure Follows (site : Site) (log : List Record) (first : Nat) (claimed : Claimed) : Prop where
  storage : claimed.member.storage = site.storage
  tracked : ∃ anchor, Tracked claimed log first anchor
  current : claimed.member.frozen = false → log.getLast? = some site.reported

/-- The storage of a site stands for a log that ends with the tail the caller knows or with the
record in flight, and has every acknowledged record. -/
structure Records (site : Site) (log : List Record) (first : Nat) : Prop where
  journaled : Journaled site.storage log first
  follows : ∀ claimed, site.claimed = some claimed → site.Follows log first claimed
  tail : ∃ tail, log.getLast? = some tail ∧ (tail = site.reported ∨ site.inFlight = some tail)
  kept : ∀ record ∈ site.acknowledged, record ∈ log

theorem Records.left {next : Nat}
    (h : site.Records log first) {after : Claimed} (hclaimed : site.claimed = some claimed)
    (tracked : Tracked after log next anchor)
    (frozen : after.member.frozen = false → claimed.member.frozen = false) :
    (site.left after).Records log next where
  journaled := tracked.opened.journaled
  follows := by
    intro found hfound
    cases hfound
    exact ⟨rfl, ⟨anchor, tracked⟩, fun hlive => (h.follows claimed hclaimed).current (frozen hlive)⟩
  tail := h.tail
  kept := h.kept

/-- **An append extends the log by the record, or leaves it and the record in flight.** -/
theorem Records.appended (h : site.Records log first) (hclaimed : site.claimed = some claimed)
    {prepared : PreparedAppend} {outcome : WriteOutcome}
    {result : Claimed × Except JournalError AppendResult}
    (appends : Appends claimed log prepared outcome result) :
    ∃ log', (site.appended prepared result).Records log' first := by
  obtain ⟨anchor, tracked⟩ := (h.follows claimed hclaimed).tracked
  cases appends with
  | refused e hne =>
    have hleft := h.left hclaimed tracked id
    refine ⟨log, ?_⟩
    unfold Site.appended
    split
    · rename_i hok
      cases hok
    · rename_i hfailed
      exact absurd (error.inj hfailed) hne
    · exact hleft
  | written p =>
    have hwritten := tracked.written p outcome
    have hkept : ∀ record ∈ site.acknowledged, record ∈ outcome.grow log prepared.record := by
      intro record hrecord
      unfold WriteOutcome.grow
      split
      · exact mem_append_left _ (h.kept record hrecord)
      · exact h.kept record hrecord
    have hlast : outcome.durable = true →
        (outcome.grow log prepared.record).getLast? = some prepared.record := by
      intro hdurable
      simp [WriteOutcome.grow, hdurable]
    refine ⟨outcome.grow log prepared.record, ?_⟩
    by_cases hsucceeds : outcome.succeeds = true
    · obtain rfl := WriteOutcome.eq_done_of_succeeds hsucceeds
      refine ⟨hwritten.opened.journaled, fun found hfound => ?_, ⟨_, hlast rfl, .inl rfl⟩,
        fun record hrecord => ?_⟩
      · cases hfound
        exact ⟨rfl, ⟨anchor, hwritten⟩, fun _ => hlast rfl⟩
      · rcases mem_append.mp hrecord with hold | hnew
        · exact hkept record hold
        · obtain rfl := mem_singleton.mp hnew
          exact mem_append_right _ (by simp)
    · -- the write failed: the member is frozen, and the record is in flight
      have hfrozen : (claimed.written prepared outcome).member.frozen = true := by
        rw [written_frozen claimed prepared outcome p.live]
        simpa using hsucceeds
      simp only [Site.appended, appendReport, hsucceeds]
      refine ⟨hwritten.opened.journaled, fun found hfound => ?_, ?_, hkept⟩
      · cases hfound
        refine ⟨rfl, ⟨anchor, hwritten⟩, fun hlive => ?_⟩
        rw [hfrozen] at hlive
        cases hlive
      · by_cases hdurable : outcome.durable = true
        · exact ⟨_, hlast hdurable, .inr rfl⟩
        · refine ⟨site.reported, ?_, .inl rfl⟩
          simp only [WriteOutcome.grow, hdurable]
          exact (h.follows claimed hclaimed).current p.live

/-! ## Publishing and reclaiming -/

/-- **The publication of a record that is held keeps the log, wherever it stops.** -/
theorem publish_tracked (h : Tracked claimed log first anchor) {slot : Nat} {snapshot : Snapshot}
    (hpos : 0 < slot) (held : readSlot claimed.member.storage.slots slot = .bytes record)
    (root : PoolAuthorityCheckpoint.validateCompactedRootRecord record = .ok snapshot)
    (once twice : WriteOutcome) :
    Tracked ⟨(claimed.member.publishCheckpointRedundant
      (claimed.member.header.control.offset + slot * 4096) record.localSequence
      (recordDigest record) once twice).1, claimed.journal⟩ log first anchor := by
  cases hpublish : claimed.member.publishCheckpointRedundant
      (claimed.member.header.control.offset + slot * 4096) record.localSequence
      (recordDigest record) once twice with
  | mk after result =>
    cases hfrozen : claimed.member.frozen with
    | true =>
      obtain ⟨rfl, _⟩ := publish_frozen hfrozen hpublish
      exact h
    | false =>
      obtain ⟨index, hfirst, hget, rfl⟩ := h.opened.journaled.holds.only slot record hpos held
      have hindex : 0 < index := Nat.lt_of_lt_of_le h.opened.journaled.holds.first_pos hfirst
      obtain ⟨opened, published⟩ :=
        h.opened.publish hfrozen hindex hget root hfirst once twice hpublish
      exact h.republished hfrozen opened published.slots

omit [Blake3] in
theorem publish_live {member : Member}
    (live : (member.publishCheckpointRedundant offset sequence digest once twice).1.frozen =
      false) : member.frozen = false := by
  cases hpublish : member.publishCheckpointRedundant offset sequence digest once twice with
  | mk after result =>
    rw [hpublish] at live
    obtain ⟨rfl, _⟩ | ⟨_, hlive, _⟩ := publish_cases hpublish
    · exact live
    · exact hlive

/-- A journal whose header names no anchor is not cut. -/
theorem reclaimAnchor_unnamed (h : Tracked claimed log first anchor)
    (names : HeaderNames claimed.member.header claimed.member.storage.slots.length log first none)
    (found : Nat × AnchorState) :
    reclaimAnchor claimed.journal claimed.member ≠ .ok found := by
  intro hreclaim
  obtain ⟨_, found⟩ := found
  obtain ⟨_, hlive, _⟩ := reclaimAnchor_ready hreclaim
  obtain ⟨_, ⟨_, hsequence, _⟩, _, index, hat, _⟩ := (h.view hlive).reclaimAnchor hreclaim
  obtain ⟨_, hget, rfl⟩ := map_eq_some_iff.mp hat
  -- the header names sequence number zero, and no record has it
  have hzero : claimed.member.header.checkpointRecordSequence = 0 := by
    have hhint : hintSlot claimed.member.header = none := names.named
    have hoffset : claimed.member.header.checkpointOffset = 0 := by
      by_contra hne
      simp [hintSlot, hne] at hhint
    have hvalid := names.fitting.valid
    simp only [validate, validateCheckpoint, ok_iff, not_or, not_not] at hvalid
    obtain ⟨_, _, _, _, _, _, _, ⟨hsequence, _⟩, _⟩ := hvalid
    exact hsequence.mp hoffset
  rw [hzero, names.fitting.linked.sequence hget] at hsequence
  omega

/-- **Reclaiming keeps the log, wherever it stops.** -/
theorem reclaim_tracked (h : Tracked claimed log first anchor) (clear : Nat → WriteOutcome) :
    ∃ next found, Tracked (reclaimPublishedAnchor claimed clear).1 log next found ∧
      ((reclaimPublishedAnchor claimed clear).1.member.frozen = false →
        claimed.member.frozen = false) := by
  have hrefused : ∀ e, reclaimAnchor claimed.journal claimed.member = .error e →
      (reclaimPublishedAnchor claimed clear).1 = claimed := by
    intro e herror
    simp [reclaimPublishedAnchor, herror]
  rcases hanchor : reclaimAnchor claimed.journal claimed.member with e | cut
  · rw [hrefused e hanchor]
    exact ⟨first, anchor, h, id⟩
  have hlive := (reclaimAnchor_ready hanchor).2.1
  obtain ⟨named, names⟩ := h.opened.names hlive
  rcases named with _ | index
  · exact absurd hanchor (reclaimAnchor_unnamed h names cut)
  have hfirst : first ≤ index := by
    obtain ⟨record, hnames⟩ := names.named
    have hpos := hnames.pos
    rcases names.kept with rfl | ⟨other, hother, hle⟩
    · omega
    · rwa [some.inj hother]
  cases hreclaim : reclaimPublishedAnchor claimed clear with
  | mk after result =>
    obtain ⟨next, htracked, _⟩ := h.reclaim names hfirst clear hreclaim
    exact ⟨next, _, htracked, fun _ => hlive⟩

/-! ## Whole runs -/

/-- **A step keeps a log under the storage.** -/
theorem Records.step {next : Site} (h : site.Records log first) (step : Step site next) :
    ∃ log' first', next.Records log' first' := by
  cases step with
  | start mode member journal tail _ hopen hjournal htail =>
    obtain ⟨found, hfound, hstorage, _, hlive, _, opened⟩ :=
      openStorage_of_journaled h.journaled mode
    obtain rfl := ok.inj (hfound.symm.trans hopen)
    obtain ⟨anchor, names⟩ := opened.names hlive
    have tracked := opened.openMember names hjournal
    have hlast : log.getLast? = some tail := by rw [← htail, (tracked.view hlive).tail]
    refine ⟨log, first, h.journaled, fun claimed hclaimed => ?_, ⟨tail, hlast, .inl rfl⟩, h.kept⟩
    cases hclaimed
    exact ⟨hstorage, ⟨anchor, tracked⟩, fun _ => hlast⟩
  | stop => exact ⟨log, first, h.journaled, by simp, h.tail, h.kept⟩
  | append claimed prepared outcome hclaimed =>
    obtain ⟨anchor, tracked⟩ := (h.follows claimed hclaimed).tracked
    obtain ⟨log', hlog⟩ := h.appended hclaimed (appendPrepared_appends tracked prepared outcome)
    exact ⟨log', first, hlog⟩
  | checkpoint claimed prepared outcome hclaimed =>
    obtain ⟨anchor, tracked⟩ := (h.follows claimed hclaimed).tracked
    obtain ⟨log', hlog⟩ := h.appended hclaimed
      (appendPreparedCheckpoint_appends tracked prepared outcome)
    exact ⟨log', first, hlog⟩
  | publish claimed slot record snapshot once twice hclaimed hpos held root =>
    obtain ⟨anchor, tracked⟩ := (h.follows claimed hclaimed).tracked
    exact ⟨log, first, h.left hclaimed (publish_tracked tracked hpos held root once twice)
      publish_live⟩
  | reclaim claimed clear hclaimed =>
    obtain ⟨anchor, tracked⟩ := (h.follows claimed hclaimed).tracked
    obtain ⟨next, found, htracked, hlive⟩ := reclaim_tracked tracked clear
    exact ⟨log, next, h.left hclaimed htracked hlive⟩

/-- The storage of a new member stands for the log of its first record. -/
theorem Created.records (h : site.Created) : ∃ log first, site.Records log first := by
  have hnew : ∀ {header : Header} {record : Record} {outcome : CreateOutcome}
      {storage : Storage} {member : Member}, Birth header record →
      createWithFirstRecord header record outcome = (storage, .ok member) →
      Records ⟨storage, none, record, [record], none⟩ [record] 1 := by
    intro header record outcome storage member birth hcreate
    obtain ⟨rfl, _, opened⟩ := createWithFirstRecord_opened birth hcreate
    exact ⟨opened.journaled, by simp, ⟨record, rfl, .inl rfl⟩, by simp⟩
  cases h with
  | genesis header payload record outcome storage member hvalid hcreate =>
    simp only [createPoolStorage, hvalid, ok_iff] at hcreate
    obtain ⟨_, rfl, hmade⟩ := hcreate
    exact ⟨_, _, hnew (birth_of_genesis hvalid) hmade⟩
  | joining header record outcome storage member hcreate =>
    simp only [createJoiningStorage, ok_iff] at hcreate
    obtain ⟨_, hvalid, hmade⟩ := hcreate
    obtain ⟨rfl, birth⟩ := birth_of_joining hvalid
    exact ⟨_, _, hnew birth hmade⟩

theorem Reachable.records (h : site.Reachable) : ∃ log first, site.Records log first := by
  obtain ⟨start, created, run⟩ := h
  induction run with
  | refl => exact created.records
  | tail _ step ih =>
    obtain ⟨log, first, records⟩ := ih
    exact records.step step

omit [Blake3] in
/-- A record of the log is seen by a scan that starts at or before it. -/
theorem mem_visibleEntries [Blake3] {start index : Nat}
    (hget : log[index]? = some record) (hle : start ≤ index) :
    ∃ entry ∈ visibleEntries slotCount log start, entry.record = record := by
  refine ⟨entryAt slotCount (record, index), List.mem_append_right _ ?_, rfl⟩
  rw [List.mem_iff_getElem?]
  refine ⟨index - start, ?_⟩
  rw [List.getElem?_drop, Nat.add_sub_cancel' hle]
  simp [logEntries, hget]

/-- **Wherever a run of a journal stops, a fresh scan succeeds; its tail is the tail that the caller
knows or the record in flight, and it has every acknowledged record from the published anchor on.** -/
theorem reachable_durable {site : Site} (h : site.Reachable) (mode : OpenMode) :
    ∃ member history tail, Member.openStorage site.storage mode = .ok member ∧
      scanHistory member.header member.storage.slots = .ok history ∧
      history.scanResult.tail = some tail ∧
      (tail = site.reported ∨ site.inFlight = some tail) ∧
      ∀ record ∈ site.acknowledged,
        (∀ anchor ∈ history.scanResult.activeAnchor,
          anchor.record.localSequence ≤ record.localSequence) →
        ∃ entry ∈ history.entries, entry.record = record := by
  obtain ⟨log, first, records⟩ := h.records
  obtain ⟨member, hopen, _, _, hlive, _, opened⟩ := openStorage_of_journaled records.journaled mode
  obtain ⟨anchor, names⟩ := opened.names hlive
  obtain ⟨state, hscan, view, _⟩ := opened.scan names
  obtain ⟨tail, htail, hknown⟩ := records.tail
  refine ⟨member, _, tail, hopen, hscan, by rw [← htail]; exact view.tail, hknown, ?_⟩
  intro record hrecord hanchor
  obtain ⟨index, hget⟩ := mem_iff_getElem?.mp (records.kept record hrecord)
  have hsequence := names.fitting.linked.sequence hget
  by_cases hzero : index = 0
  · -- the first record is always seen
    subst hzero
    refine ⟨entryAt member.storage.slots.length (record, 0), mem_append_left _ ?_, rfl⟩
    rw [mem_iff_getElem?]
    exact ⟨0, by simp [logEntries, hget]⟩
  · refine mem_visibleEntries hget ?_
    unfold shownFrom
    split
    · omega
    rename_i hfirst
    rcases names.kept with hone | ⟨named, rfl, _⟩
    · exact absurd hone hfirst
    obtain ⟨root, hnames⟩ := names.named
    have hactive : state.activeAnchor = some ⟨root, recordDigest root,
        ringSlot member.storage.slots.length named⟩ := by
      rw [view.activeAnchor]
      simp [anchorAt, hnames.get]
    have hle := hanchor _ hactive
    rw [names.fitting.linked.sequence hnames.get, hsequence] at hle
    simp only [getD_some]
    omega

end Site

/-! ## A member of the pool of three voters -/

namespace Trio

/-- The storage of a member with the given records, in a control region of eight slots. -/
def storageOf (memberId : Id) (records : List Record) : Storage where
  copyA := .bytes (header memberId 8)
  copyB := .bytes (header memberId 8)
  slots := records.map Slot.bytes ++ replicate (8 - records.length) .zero

/-- The member opened for writing. -/
def memberOf (memberId : Id) (records : List Record) : Member where
  storage := storageOf memberId records
  header := header memberId 8
  source := .a
  degraded := false
  checkpointReclaimReady := false
  mode := .writable
  frozen := false

/-- The journal of a member opened after its genesis record. -/
def journalOf (memberId : Id) : Journal where
  scanState :=
    { tail := some (genesisOf memberId), tailRawRecordDigest := memberId + 3
      tailPhysicalSlot := some 0, physicalFrontier := 1, slotCount := 8, zeroHoleCount := 0
      invalidSlotCount := 0, interiorInvalidSlotCount := 0, unresolvedTailDamage := false
      journalFull := false, checkpointStatus := .none, activeAnchor := none, anchored := false
      nextPhysicalSlot := 1 }
  ringWriteReady := true

/-- The prepare record, ready for the journal. -/
def preparedOf (memberId : Id) : PreparedAppend :=
  ⟨⟨1, memberId + 3, 3, 1, 1⟩, prepareOf memberId, .bytes (prepareOf memberId), memberId + 7, 1⟩

def createdSite : Site := ⟨storageOf 1 [genesisOf 1], none, genesisOf 1, [genesisOf 1], none⟩

theorem createdSite_created : @Site.Created (tableBlake3 table) createdSite :=
  @Site.Created.genesis (tableBlake3 table) (header 1 8) ⟨topology, layout⟩ (genesisOf 1)
    CreateOutcome.done (storageOf 1 [genesisOf 1]) (memberOf 1 [genesisOf 1])
    (by decide +kernel) (by decide +kernel)

/-- The write of the prepare record reached its slot, but the caller was not told. -/
def interruptedSite : Site :=
  ⟨storageOf 1 [genesisOf 1, prepareOf 1],
    some ⟨{ memberOf 1 [genesisOf 1, prepareOf 1] with frozen := true }, journalOf 1⟩,
    genesisOf 1, [genesisOf 1], some (prepareOf 1)⟩

theorem interruptedSite_reachable : @Site.Reachable (tableBlake3 table) interruptedSite := by
  let _ := tableBlake3 table
  have hstart := Site.Step.start createdSite .writable (memberOf 1 [genesisOf 1]) (journalOf 1)
    (genesisOf 1) rfl (by decide +kernel) (by decide +kernel) rfl
  have hwrite : appendPrepared ⟨memberOf 1 [genesisOf 1], journalOf 1⟩ (preparedOf 1)
      .failedNew = (⟨{ memberOf 1 [genesisOf 1, prepareOf 1] with frozen := true }, journalOf 1⟩,
        .error .writeFailed) := by
    decide +kernel
  have happend := Site.Step.append
    { createdSite with claimed := some ⟨memberOf 1 [genesisOf 1], journalOf 1⟩ } ⟨memberOf 1
    [genesisOf 1], journalOf 1⟩ (preparedOf 1)
    .failedNew rfl
  exact ⟨createdSite, createdSite_created, .tail (.tail .refl hstart) happend⟩

/-- After this crash a scan finds the prepare record, which was in flight. -/
theorem interruptedSite_durable :
    let _ := tableBlake3 table
    ∃ member history tail, Member.openStorage interruptedSite.storage .writable = .ok member ∧
      scanHistory member.header member.storage.slots = .ok history ∧
      history.scanResult.tail = some tail ∧
      (tail = genesisOf 1 ∨ some (prepareOf 1) = some tail) ∧
      ∀ record ∈ [genesisOf 1], (∀ anchor ∈ history.scanResult.activeAnchor,
          anchor.record.localSequence ≤ record.localSequence) →
        ∃ entry ∈ history.entries, entry.record = record := by
  intro _
  exact Site.reachable_durable interruptedSite_reachable .writable

end Trio

/-! ## What an open journal knows -/

section

variable [Blake3]

/-- One successful step of an open journal: an append, a checkpoint append, or the publication of a
checkpoint followed by the reclaim. -/
inductive Extends : Claimed → Claimed → Prop where
  | append (claimed after : Claimed) (prepared : PreparedAppend) (outcome : WriteOutcome)
      (result : AppendResult) :
      appendPrepared claimed prepared outcome = (after, .ok result) →
      Extends claimed after
  | checkpoint (claimed after : Claimed) (prepared : PreparedAppend) (outcome : WriteOutcome)
      (result : AppendResult) :
      appendPreparedCheckpoint claimed prepared outcome = (after, .ok result) →
      Extends claimed after
  | rollover (claimed after : Claimed) (member : Member) (offset sequence : Nat)
      (digest : Digest) (first second : WriteOutcome) (clear : Nat → WriteOutcome) :
      claimed.member.publishCheckpointRedundant offset sequence digest first second =
        (member, .ok ()) →
      reclaimPublishedAnchor ⟨member, claimed.journal⟩ clear = (after, .ok ()) →
      Extends claimed after

/-- The retained state agrees with the state of a scan. -/
structure Agrees (kept scanned : ScanResult) : Prop where
  tail : kept.tail = scanned.tail
  tailDigest : kept.tailRawRecordDigest = scanned.tailRawRecordDigest
  tailSlot : kept.tailPhysicalSlot = scanned.tailPhysicalSlot
  next : kept.nextPhysicalSlot = scanned.nextPhysicalSlot
  full : kept.journalFull = scanned.journalFull
  activeAnchor : kept.activeAnchor = scanned.activeAnchor
  anchored : kept.anchored = scanned.anchored
  available : availableSlotCount kept = availableSlotCount scanned

variable {log : List Record} {anchor : Option Nat} {claimed after : Claimed} {first : Nat}
  {member : Member} {outcome : WriteOutcome} {prepared : PreparedAppend} {result : AppendResult}

theorem View.agrees {kept scanned : ScanResult} (h : View slotCount log anchor kept)
    (h' : View slotCount log anchor scanned) (hne : log ≠ [])
    (clean : kept.unresolvedTailDamage = false) (clean' : scanned.unresolvedTailDamage = false) :
    Agrees kept scanned := by
  obtain ⟨last, hlast⟩ : ∃ last, log.getLast? = some last :=
    ⟨log.getLast hne, getLast?_eq_some_getLast hne⟩
  have hnext := (h.next clean).trans (h'.next clean').symm
  have hactive := h.activeAnchor.trans h'.activeAnchor.symm
  have hanchored := h.anchored.trans h'.anchored.symm
  refine ⟨h.tail.trans h'.tail.symm, ?_, h.tailSlot.trans h'.tailSlot.symm, hnext,
    (h.full clean).trans (h'.full clean').symm, hactive, hanchored, ?_⟩
  · rw [h.tailDigest last hlast, h'.tailDigest last hlast]
  · unfold availableSlotCount
    rw [hanchored, hactive, hnext, h.count, h'.count]

/-- An open journal that can be written and describes its log with the anchor that the header
names. -/
structure Knows (claimed : Claimed) (log : List Record) (first : Nat) (anchor : Option Nat) :
    Prop where
  live : claimed.member.frozen = false
  tracked : Tracked claimed log first anchor
  names : HeaderNames claimed.member.header claimed.member.storage.slots.length log first anchor

omit [Blake3] in
/-- A valid header that names a checkpoint names a whole slot. -/
theorem checkpointOffset_slot {header : Header} (h : MemberFormat.validate header = .ok ())
    (named : header.checkpointRecordSequence ≠ 0) :
    header.checkpointOffset = header.control.offset + Journal.headerSlot header * 4096 := by
  simp only [MemberFormat.validate, MemberFormat.validateGeometry, MemberFormat.validateCheckpoint,
    ok_iff, not_or, not_and, not_not] at h
  obtain ⟨_, _, _, _, ⟨_, _, _, _, ⟨hcontrol, _⟩, _⟩, _, _, ⟨hsequence, _⟩, hslot⟩ := h
  have hoffset : header.checkpointOffset ≠ 0 := fun hzero => named (hsequence.mp hzero)
  obtain ⟨haligned, hbelow, _⟩ := hslot hoffset
  unfold Journal.headerSlot
  omega

/-- The anchor that a journal is cut at is a root of its log, at the slot that the header names. -/
theorem Tracked.cut
    (h : Tracked claimed log first anchor) (live : claimed.member.frozen = false) {tailSlot : Nat}
    {found : AnchorState}
    (hcut : Journal.reclaimAnchor claimed.journal member = .ok (tailSlot, found)) :
    ∃ index, anchorAt claimed.member.storage.slots.length log index = some found ∧
      RootAt log index ∧ first ≤ index ∧ Journal.namedByHeader member.header found.record
        found.rawRecordDigest found.physicalSlot := by
  obtain ⟨_, hnamed, ⟨snapshot, hroot⟩, index, hat, hwhere⟩ := (h.view live).reclaimAnchor hcut
  obtain ⟨_, hget, rfl⟩ := map_eq_some_iff.mp hat
  rcases hwhere with rfl | hanchor
  · obtain ⟨hpos, hfirst⟩ := h.root_tail live hget (compactedRoot_isSnapshot hroot).1
    exact ⟨_, hat, ⟨hpos, _, snapshot, hget, hroot⟩, hfirst, hnamed⟩
  have hrootAt := h.root live index hanchor
  refine ⟨index, hat, hrootAt, ?_, hnamed⟩
  rcases h.kept live with rfl | ⟨other, hother, hle⟩
  · exact hrootAt.1
  · rwa [some.inj (hanchor.symm.trans hother)]

/-- **Publication and reclaim leave a journal that knows its log with the new anchor.** -/
theorem Knows.rollover (h : Knows claimed log first anchor)
    (hpublish : claimed.member.publishCheckpointRedundant offset sequence digest once twice =
      (member, .ok ())) {clear : Nat → WriteOutcome}
    (hreclaim : reclaimPublishedAnchor ⟨member, claimed.journal⟩ clear = (after, .ok ())) :
    ∃ next index, Knows after log next (some index) ∧
      after.journal.scanState.unresolvedTailDamage = false := by
  obtain ⟨_, _, hrefused⟩ | ⟨_, _, _, _, ⟨hfailed, _⟩ | ⟨_, hlive, _, hheader, hvalid⟩⟩ :=
    publish_cases hpublish
  · cases hrefused
  · cases hfailed
  -- the reclaim went through, so the header names a root of the log
  rcases hcut : Journal.reclaimAnchor claimed.journal member with _ | cut
  · simp [reclaimPublishedAnchor, hcut] at hreclaim
  obtain ⟨index, hat, hrootAt, hfirst, hslot, hsequence, hdigest⟩ := h.tracked.cut h.live hcut
  obtain ⟨record, hget, hfound⟩ := map_eq_some_iff.mp hat
  obtain ⟨hpos, _, snapshot, hget', hroot⟩ := hrootAt
  obtain rfl := some.inj (hget.symm.trans hget')
  rw [← hfound] at hslot hsequence hdigest
  simp only [hheader, checkpointHeader] at hsequence hdigest
  have hpositive : sequence ≠ 0 := by
    rw [← hsequence, h.names.fitting.linked.sequence hget]
    omega
  have hoffset : offset = claimed.member.header.control.offset +
      ringSlot claimed.member.storage.slots.length index * 4096 := by
    have hnamed := checkpointOffset_slot hvalid (by rw [hheader]; exact hpositive)
    rw [← hslot, hheader] at hnamed
    exact hnamed
  subst hoffset hsequence hdigest
  obtain ⟨opened, published⟩ :=
    h.tracked.opened.publish h.live hpos hget hroot hfirst once twice hpublish
  have tracked := h.tracked.republished h.live opened published.slots
  have names : HeaderNames member.header member.storage.slots.length log first (some index) := by
    rw [(published.succeeded rfl).2.2, published.slots]
    rw [(published.succeeded rfl).2.2] at hvalid
    exact h.names.publish hpos hget hroot hfirst hvalid
  obtain ⟨next, htracked, hreclaimed⟩ := tracked.reclaim names hfirst clear hreclaim
  obtain ⟨hlive', rfl, _⟩ := hreclaimed.succeeded rfl
  refine ⟨next, next, ⟨hlive', by simpa using htracked, ?_⟩, ?_⟩
  · rw [hreclaimed.header, hreclaimed.count]
    exact ⟨names.fitting, names.named, .inr ⟨next, rfl, Nat.le_refl _⟩⟩
  · unfold reclaimPublishedAnchor at hreclaim
    simp only [hcut] at hreclaim
    split at hreclaim
    · simp at hreclaim
    · cases hreclaim
      rfl

/-- An append that succeeds has written its record. -/
theorem Site.Appends.succeeded (h : Appends claimed log prepared outcome (after, .ok result)) :
    PreparedFor claimed log prepared.record prepared ∧ after = claimed.written prepared .done := by
  generalize hpair : (after, ok result) = pair at h
  cases h with
  | refused e _ =>
    cases hpair
  | written p =>
    obtain ⟨rfl, hresult⟩ := Prod.mk.inj hpair
    unfold appendReport at hresult
    split at hresult
    case isTrue hsucceeds => exact ⟨p, by rw [WriteOutcome.eq_done_of_succeeds hsucceeds]⟩
    case isFalse => cases hresult

/-- An append that succeeds leaves a journal that knows the longer log. -/
theorem Knows.appended (h : Knows claimed log first anchor)
    (appends : Site.Appends claimed log prepared outcome (after, .ok result)) :
    Knows after (log ++ [prepared.record]) first anchor ∧
      after.journal.scanState.unresolvedTailDamage = false := by
  obtain ⟨p, rfl⟩ := appends.succeeded
  have hlive : (claimed.written prepared .done).member.frozen = false := by
    rw [written_frozen claimed prepared .done p.live]
    rfl
  have tracked : Tracked (claimed.written prepared .done) (log ++ [prepared.record]) first
      anchor := h.tracked.written p .done
  have hne : log ≠ [] := ne_nil_of_length_pos h.tracked.opened.journaled.holds.length_pos
  refine ⟨⟨hlive, tracked, ?_⟩, ?_⟩
  · rw [written_header, written_storage, length_set]
    exact h.names.snoc hne p.linked
  · cases hdamage : (claimed.written prepared .done).journal.scanState.unresolvedTailDamage with
    | false => rfl
    | true =>
      have hdamaged := (tracked.damage hlive).mp hdamage
      rw [written_storage, damaged_set p.clean p.inside] at hdamaged
      simp [WriteOutcome.leaves] at hdamaged

/-- **After every successful step, the journal knows its log and no slot is damaged.** -/
theorem Knows.run {start : Claimed} (run : ReflTransGen Extends start claimed)
    (h : Knows start log first anchor) :
    claimed = start ∨ ∃ log' first' anchor', Knows claimed log' first' anchor' ∧
      claimed.journal.scanState.unresolvedTailDamage = false := by
  induction run with
  | refl => exact .inl rfl
  | @tail middle after _ step ih =>
    right
    obtain ⟨log, first, anchor, h⟩ : ∃ log' first' anchor', Knows middle log' first' anchor' := by
      rcases ih with rfl | ⟨log', first', anchor', knows, _⟩
      · exact ⟨log, first, anchor, h⟩
      · exact ⟨log', first', anchor', knows⟩
    cases step with
    | append prepared outcome result happend =>
      have appends := Site.appendPrepared_appends h.tracked prepared outcome
      rw [happend] at appends
      exact ⟨_, _, _, h.appended appends⟩
    | checkpoint prepared outcome result happend =>
      have appends := Site.appendPreparedCheckpoint_appends h.tracked prepared outcome
      rw [happend] at appends
      exact ⟨_, _, _, h.appended appends⟩
    | rollover member offset sequence digest once twice clear hpublish hreclaim =>
      obtain ⟨next, index, knows, hclean⟩ := h.rollover hpublish hreclaim
      exact ⟨_, _, _, knows, hclean⟩

/-- **The state that an open journal keeps is the state that a fresh scan finds.** -/
theorem retained_agrees {site : Site} (h : site.Reachable) {mode : OpenMode} {member : Member}
    {journal : Journal} {claimed : Claimed}
    (hopen : Member.openStorage site.storage mode = .ok member)
    (hjournal : openMember member = .ok journal)
    (run : ReflTransGen Extends ⟨member, journal⟩ claimed) :
    ∃ state entries, Journal.scanInto claimed.member.header claimed.member.storage.slots =
        .ok (state, entries) ∧ Agrees claimed.journal.scanState state := by
  obtain ⟨log, first, records⟩ := h.records
  obtain ⟨found, hfound, _, _, hlive, _, opened⟩ := openStorage_of_journaled records.journaled mode
  obtain rfl := ok.inj (hfound.symm.trans hopen)
  obtain ⟨anchor, names⟩ := opened.names hlive
  have knows : Knows ⟨found, journal⟩ log first anchor :=
    ⟨hlive, opened.openMember names hjournal, names⟩
  rcases knows.run run with rfl | ⟨log', first', anchor', knows', hclean⟩
  · -- nothing has been done since the journal was opened with a scan
    simp only [openMember, ok_iff] at hjournal
    obtain ⟨scanned, hscanned, _, _, _, rfl⟩ := hjournal
    exact ⟨scanned.1, scanned.2, hscanned, ⟨rfl, rfl, rfl, rfl, rfl, rfl, rfl, rfl⟩⟩
  · obtain ⟨state, hscan, view, hdamage⟩ := knows'.tracked.opened.scan knows'.names
    simp only [scanHistory, ok_iff, HistoryScan.mk.injEq] at hscan
    obtain ⟨_, scanned, hscanned, rfl, _⟩ := hscan
    refine ⟨scanned.1, scanned.2, hscanned, ?_⟩
    refine (knows'.tracked.view knows'.live).agrees view ?_ hclean ?_
    · exact ne_nil_of_length_pos knows'.tracked.opened.journaled.holds.length_pos
    · cases hstate : scanned.1.unresolvedTailDamage with
      | false => rfl
      | true =>
        have := (knows'.tracked.damage knows'.live).mpr (hdamage.mp hstate)
        rw [hclean] at this
        cases this

end

/-- The member `1` after its genesis record, and one successful append. -/
theorem Trio.prepared_agrees :
    let _ := tableBlake3 Trio.table
    ∃ claimed, ReflTransGen Extends ⟨Trio.memberOf 1 [Trio.genesisOf 1], Trio.journalOf 1⟩
        claimed ∧ claimed.journal.scanState.tail = some (Trio.prepareOf 1) ∧
      ∃ state entries, Journal.scanInto claimed.member.header claimed.member.storage.slots =
        .ok (state, entries) ∧ Agrees claimed.journal.scanState state := by
  intro _
  let journal := (journalOf 1).advance (preparedOf 1)
  have hwrite : appendPrepared
      ⟨memberOf 1 [genesisOf 1], journalOf 1⟩ (preparedOf 1) .done =
        (⟨memberOf 1 [genesisOf 1, prepareOf 1], journal⟩,
          .ok ⟨prepareOf 1, 8, 1⟩) := by
    decide +kernel
  have run : ReflTransGen Extends ⟨memberOf 1 [genesisOf 1], journalOf 1⟩
      ⟨memberOf 1 [genesisOf 1, prepareOf 1], journal⟩ :=
    .single (.append _ _ _ _ _ hwrite)
  have hreachable : createdSite.Reachable :=
    ⟨createdSite, createdSite_created, .refl⟩
  have hopen : openStorage createdSite.storage .writable =
      .ok (memberOf 1 [genesisOf 1]) := by
    decide +kernel
  exact ⟨_, run, rfl, retained_agrees hreachable hopen (by decide +kernel) run⟩

end Zettide
