import Zettide.Pool.Rollover
import Zettide.Pool.Bootstrap
import Zettide.Journal.Publication

/-! # What the coordinator does to one member

Each phase of the coordinator changes the members of its set one by one. A member of the set stands
for a log; here is what the append phase, the publication and the reclaim do to that log. -/

namespace Zettide

open List Journal Option

variable [Blake3]

/-- A member of the set stands for a log, and so does its open journal. -/
structure Supplied.Tracks (supplied : Supplied) (log : List Record) (first : Nat) : Prop where
  opened : Opened supplied.member log first
  seated : ∀ seat, supplied.seat = some seat →
    ∃ anchor, Tracked ⟨supplied.member, seat.journal⟩ log first anchor

namespace ReplicatedJournal

/-! ## The prepare loop -/

variable {log : List Record} {first : Nat} {anchor : Option Nat} {claimed : Claimed}
  {c : ReplicatedJournal} {outcome : RolloverOutcome}
  {prepareOne : Participant → Except CoordinatorError Item} {diverged : CoordinatorError}
  {participants : List Participant} {report : PublishReport} {member : Member} {memberId : Id}

omit [Blake3] in
/-- Every prepared record is that of one of the targets. -/
theorem prepareAll_mem : ∀ {shared : Option Digest} {items : List Item},
      prepareAll prepareOne diverged shared participants = .ok items →
      ∀ item ∈ items, ∃ participant ∈ participants, prepareOne participant = .ok item := by
  induction participants with
  | nil =>
    intro shared items h item hitem
    simp only [prepareAll, Except.ok.injEq] at h
    subst h
    cases hitem
  | cons participant rest ih =>
    intro shared items h item hitem
    simp only [prepareAll, ok_iff] at h
    obtain ⟨made, hmade, _, others, hothers, rfl⟩ := h
    rcases List.mem_cons.mp hitem with rfl | hitem
    · exact ⟨participant, List.mem_cons_self, hmade⟩
    · obtain ⟨other, hmem, hother⟩ := ih hothers item hitem
      exact ⟨other, List.mem_cons_of_mem _ hmem, hother⟩

omit [Blake3] in
theorem prepareAll_shared : ∀ {shared : Option Digest} {items : List Item},
      prepareAll prepareOne diverged shared participants = .ok items →
      (∀ item ∈ items, ∀ expected ∈ shared, item.prepared.record.historyDigest = expected) ∧
        ∀ a ∈ items, ∀ b ∈ items,
          a.prepared.record.historyDigest = b.prepared.record.historyDigest := by
  induction participants with
  | nil =>
    intro shared items h
    simp only [prepareAll, Except.ok.injEq] at h
    subst h
    simp
  | cons participant rest ih =>
    intro shared items h
    simp only [prepareAll, ok_iff] at h
    obtain ⟨made, _, hshared, others, hothers, rfl⟩ := h
    obtain ⟨hsame, _⟩ := ih hothers
    -- every later record has the digest of the first one
    have hfirst : ∀ item ∈ made :: others,
        item.prepared.record.historyDigest = made.prepared.record.historyDigest := by
      intro item hitem
      rcases mem_cons.mp hitem with rfl | hitem
      · rfl
      · exact hsame item hitem _ rfl
    constructor
    · intro item hitem expected hexpected
      rw [hfirst item hitem]
      by_contra hne
      exact hshared ⟨expected, hexpected, fun heq => hne heq.symm⟩
    · intro a ha b hb
      rw [hfirst a ha, hfirst b hb]

/-! ## The append phase -/

/-- An append writes what was prepared in the same state. -/
structure WritesPrepared (append : Append) (supplied : Supplied) (items : List Item) : Prop where
  written : ∀ seat item log first anchor, supplied.seat = some seat →
    items.find? (fun item => item.memberId = supplied.id) = some item →
    Tracked ⟨supplied.member, seat.journal⟩ log first anchor →
    ∃ proposal, PreparedFor ⟨supplied.member, seat.journal⟩ log proposal item.prepared ∧
      ∀ outcome, append ⟨supplied.member, seat.journal⟩ item.prepared outcome =
        (Claimed.written ⟨supplied.member, seat.journal⟩ item.prepared outcome,
          appendReport item.prepared outcome)

/-- **The append phase grows the log of a member by at most the prepared record.** -/
theorem appendTo_tracks {append : Append} {deactivate : Bool} {items : List Item}
    {outcome : Id → WriteOutcome} {supplied : Supplied}
    (h : supplied.Tracks log first) (writes : WritesPrepared append supplied items) :
    ∃ log', (appendTo append deactivate items outcome supplied).Tracks log' first ∧
      (log' = log ∨ ∃ item ∈ items, item.memberId = supplied.id ∧
        log' = (outcome supplied.id).grow log item.prepared.record) := by
  rcases hseat : supplied.seat with _ | seat
  · exact ⟨log, by simpa [appendTo, hseat] using h, .inl rfl⟩
  rcases hitem : items.find? (fun item => item.memberId = supplied.id) with _ | item
  · exact ⟨log, by simpa [appendTo, hseat, hitem] using h, .inl rfl⟩
  obtain ⟨anchor, tracked⟩ := h.seated seat hseat
  obtain ⟨proposal, prepared, happend⟩ :=
    writes.written seat item log first anchor hseat hitem tracked
  have hwritten := tracked.written prepared (outcome supplied.id)
  have hmem := mem_of_find?_eq_some hitem
  have hid : item.memberId = supplied.id := by
    simpa using find?_some hitem
  refine ⟨_, ?_, .inr ⟨item, hmem, hid, rfl⟩⟩
  cases hreport : appendReport item.prepared (outcome supplied.id) with
  | ok result | error e =>
    simp only [appendTo, hseat, hitem, happend, hreport]
    exact ⟨hwritten.opened, fun other hother => by
      cases hother
      exact ⟨anchor, hwritten⟩⟩

/-! ## The publication -/

/-- The anchor that a participant publishes is a root of its log that is still held. -/
def PublishesRoot (coordinator : ReplicatedJournal) (claimed : Claimed) (log : List Record)
    (first : Nat) : Prop :=
  ∀ tail anchor, claimed.journal.scanState.tail = some tail →
    coordinator.publicationAnchor claimed.journal.scanState tail = some anchor →
    ∃ index, anchorAt claimed.member.storage.slots.length log index = some anchor ∧
      RootAt log index ∧ first ≤ index

omit [Blake3] in
/-- What the publication of a participant can do: keep the member, or write its chosen anchor. -/
theorem publishOne_cases (h : c.publishOne outcome memberId claimed = (member, report)) :
    (member = claimed.member ∧ ∀ found, report ≠ .anchor found) ∨
      ∃ tail found result, claimed.journal.scanState.tail = some tail ∧
        c.publicationAnchor claimed.journal.scanState tail = some found ∧
        claimed.member.publishCheckpointRedundant
            (claimed.member.header.control.offset + found.physicalSlot * 4096)
            found.record.localSequence found.rawRecordDigest (outcome.first memberId)
            (outcome.second memberId) = (member, result) ∧
        ((∃ e, result = .error e) ∧ report = .failed ∨ result = .ok () ∧ report = .anchor found) := by
  unfold publishOne at h
  simp only at h
  split at h
  · cases h
    exact .inl ⟨rfl, by simp⟩
  split at h
  · cases h
    exact .inl ⟨rfl, by simp⟩
  split at h
  · cases h
    exact .inl ⟨rfl, by simp⟩
  · split at h <;> cases h
    · exact .inr ⟨_, _, _, ‹_›, ‹_›, ‹_›, .inl ⟨⟨_, rfl⟩, rfl⟩⟩
    · exact .inr ⟨_, _, _, ‹_›, ‹_›, ‹_›, .inr ⟨rfl, rfl⟩⟩

/-- **The publication of one participant keeps its log; a participant that published an anchor names
it in its header and in both copies.** -/
theorem publishOne_tracked (h : Tracked claimed log first anchor)
    (live : claimed.member.frozen = false) (roots : PublishesRoot c claimed log first)
    (hpublish : c.publishOne outcome memberId claimed = (member, report)) :
    Tracked ⟨member, claimed.journal⟩ log first anchor ∧ ∀ found, report = .anchor found →
      ∃ index, anchorAt member.storage.slots.length log index = some found ∧ first ≤ index ∧
        HeaderNames member.header member.storage.slots.length log first (some index) ∧
        ∀ source, member.storage.copyAt source = .bytes member.header := by
  rcases publishOne_cases hpublish with
    ⟨rfl, hsilent⟩ | ⟨tail, found, result, htail, hanchor, hwrite, hreport⟩
  · exact ⟨h, fun found hfound => absurd hfound (hsilent found)⟩
  obtain ⟨index, hat, ⟨hpos, record, snapshot, hget, hroot⟩, hfirst⟩ :=
    roots tail found htail hanchor
  -- the anchor is the record at its index, in the slot of the ring
  obtain rfl : (⟨record, ControlRecord.recordDigest record,
      ringSlot claimed.member.storage.slots.length index⟩ : AnchorState) = found := by
    simpa [anchorAt, hget] using hat
  obtain ⟨opened, published⟩ := h.opened.publish live hpos hget hroot hfirst _ _ hwrite
  refine ⟨h.republished live opened published.slots, fun other hother => ?_⟩
  rcases hreport with ⟨_, rfl⟩ | ⟨rfl, rfl⟩
  · cases hother
  obtain rfl := PublishReport.anchor.inj hother
  obtain ⟨hlive, hready, hheader⟩ := published.succeeded rfl
  obtain ⟨named, names⟩ := opened.names hlive
  obtain ⟨old, hold⟩ := h.opened.names live
  refine ⟨index, by rw [published.slots]; exact hat, hfirst, ?_, opened.published hlive hready⟩
  rw [hheader, published.slots]
  exact hold.publish hpos hget hroot hfirst (hheader ▸ names.fitting.valid)

/-! ## The reclaim -/

/-- **The reclaim of one participant keeps its log from an index up to the named anchor on.** -/
theorem reclaimOne_tracked {publication : Publication} {index : Nat}
    (h : Tracked claimed log first anchor)
    (names : publication.anchor.isSome → first ≤ index ∧
      HeaderNames claimed.member.header claimed.member.storage.slots.length log first
        (some index)) {after : Claimed} {done : Bool}
    (hreclaim : reclaimOne outcome publication claimed = (after, done)) :
    ∃ next kept, Tracked after log next kept ∧
      (next = first ∨ publication.anchor.isSome ∧ next ≤ index) := by
  unfold reclaimOne at hreclaim
  rcases hanchor : publication.anchor with _ | found
  · simp only [hanchor] at hreclaim
    cases hreclaim
    exact ⟨first, anchor, h, .inl rfl⟩
  obtain ⟨hfirst, hnames⟩ := names (by simp [hanchor])
  simp only [hanchor] at hreclaim
  cases hcut : reclaimPublishedAnchor claimed (outcome.clear publication.memberId) with
  | mk cut result =>
    obtain ⟨next, tracked, reclaimed⟩ := h.reclaim hnames hfirst _ hcut
    rw [hcut] at hreclaim
    have hafter : cut = after := by
      cases result <;> exact (Prod.mk.inj hreclaim).1
    subst hafter
    exact ⟨next, _, tracked, .inr ⟨by simp, reclaimed.bounded⟩⟩

/-! ## Checkpoints are roots -/

/-- Every checkpoint of the log can be a root. -/
def RootLog (log : List Record) : Prop := ∀ record ∈ log, record.kind = .checkpoint →
    ∃ snapshot, PoolAuthorityCheckpoint.validateCompactedRootRecord record = .ok snapshot

theorem RootLog.grow (h : RootLog log) {record : Record} (hrecord : record.kind = .checkpoint →
      ∃ snapshot, PoolAuthorityCheckpoint.validateCompactedRootRecord record = .ok snapshot)
    (outcome : WriteOutcome) : RootLog (outcome.grow log record) := by
  unfold WriteOutcome.grow
  split
  · intro other hother hkind
    rcases mem_append.mp hother with hother | hother
    · exact h other hother hkind
    · obtain rfl := mem_singleton.mp hother
      exact hrecord hkind
  · exact h

/-- The tail of a journal, taken as an anchor, is a root that is still held. -/
theorem tailAnchor_root (h : Tracked claimed log first anchor)
    (live : claimed.member.frozen = false) (roots : RootLog log) {tail : Record}
    (htail : claimed.journal.scanState.tail = some tail) {historyDigest : Digest}
    {found : AnchorState}
    (hfound : tailAnchor claimed.journal.scanState tail historyDigest = some found) :
    ∃ index, anchorAt claimed.member.storage.slots.length log index = some found ∧
      RootAt log index ∧ first ≤ index := by
  have view := h.view live
  unfold tailAnchor at hfound
  split at hfound
  case isFalse => cases hfound
  case isTrue hkind =>
    cases hfound
    rw [view.tail] at htail
    have hget : log[log.length - 1]? = some tail := by
      rw [← getLast?_eq_getElem?]
      exact htail
    obtain ⟨snapshot, hroot⟩ := roots tail (mem_of_getLast? htail) hkind.1
    obtain ⟨hpos, hfirst⟩ := h.root_tail live hget hkind.1
    refine ⟨log.length - 1, ?_, ⟨hpos, tail, snapshot, hget, hroot⟩, hfirst⟩
    simp [anchorAt, hget, view.tailSlot, view.tailDigest tail htail]

/-- **What a participant publishes is a root of its log.** -/
theorem publishesRoot_of_tracked
    (h : Tracked claimed log first anchor) (live : claimed.member.frozen = false)
    (roots : RootLog log) : PublishesRoot c claimed log first := by
  intro tail found htail hfound
  have view := h.view live
  unfold publicationAnchor at hfound
  split at hfound
  · exact tailAnchor_root h live roots htail hfound
  split at hfound
  case h_1 active hactive =>
    -- the anchor of the last scan
    cases hfound
    rw [view.activeAnchor, bind_eq_some_iff] at hactive
    obtain ⟨index, hanchor, hat⟩ := hactive
    refine ⟨index, hat, h.root live index hanchor, ?_⟩
    obtain ⟨hpos, _⟩ := h.root live index hanchor
    rcases h.kept live with hone | ⟨other, hother, hle⟩
    · omega
    · obtain rfl : other = index := some.inj (hother.symm.trans hanchor)
      exact hle
  case h_2 =>
    split at hfound
    · exact tailAnchor_root h live roots htail hfound
    · cases hfound

end ReplicatedJournal

end Zettide
