import Zettide.Pool.Phases

/-! # Where the participants stand

Every operation that succeeds leaves the active participants at the new authority, as long as each
of them has room for it. -/

namespace Zettide

open List Option Journal PoolMemberSet PoolTopology Except

variable [Blake3]

/-! ## Members at an event -/

/-- An active seat of the member can be written, and its journal ends with the event. -/
def Supplied.At (supplied : Supplied) (event : Digest) : Prop :=
  ∀ journal, supplied.seat = some ⟨journal, true⟩ →
    supplied.member.frozen = false ∧ supplied.member.mode = .writable ∧
      ∃ tail, journal.scanState.tail = some tail ∧ tail.historyDigest = event

/-- The storage opens, and a scan of it ends with the event. -/
def Storage.EndsWith (storage : Storage) (event : Digest) : Prop :=
  ∃ member history tail, Member.openStorage storage .readOnly = .ok member ∧
    scanHistory member.header member.storage.slots = .ok history ∧
    history.scanResult.tail = some tail ∧ tail.historyDigest = event

/-- The event that the storage ends with. -/
def Storage.lastEvent (storage : Storage) : Option Digest := do
  let member ← value (Member.openStorage storage .readOnly)
  let history ← value (scanHistory member.header member.storage.slots)
  history.scanResult.tail.map Record.historyDigest

variable {event : Digest} {storage : Storage} {journal : Journal} {supplied : Supplied}
  {log : List Record} {first : Nat}

theorem Storage.endsWith_iff_lastEvent :
    storage.EndsWith event ↔ storage.lastEvent = some event := by
  simp only [EndsWith, lastEvent, bind_eq_bind, bind_eq_some_iff, value_eq_some, map_eq_some_iff]
  constructor
  · rintro ⟨member, history, tail, hopen, hscan, htail, hevent⟩
    exact ⟨member, hopen, history, hscan, tail, htail, hevent⟩
  · rintro ⟨member, hopen, history, hscan, tail, htail, hevent⟩
    exact ⟨member, history, tail, hopen, hscan, htail, hevent⟩

instance (storage : Storage) (event : Digest) : Decidable (storage.EndsWith event) :=
  decidable_of_iff _ Storage.endsWith_iff_lastEvent.symm

theorem Journaled.endsWith
    (h : Journaled storage log first) {tail : Record} (htail : log.getLast? = some tail) :
    storage.EndsWith tail.historyDigest := by
  obtain ⟨member, hopen, _, _, hlive, _, opened⟩ := openStorage_of_journaled h .readOnly
  obtain ⟨anchor, names⟩ := opened.names hlive
  obtain ⟨state, hscan, view, _⟩ := opened.scan names
  exact ⟨member, _, tail, hopen, hscan, view.tail.trans htail, rfl⟩

theorem Journaled.endsWith_iff (h : Journaled storage log first) :
    storage.EndsWith event ↔ ∃ tail, log.getLast? = some tail ∧ tail.historyDigest = event := by
  constructor
  · rintro ⟨member, history, tail, hopen, hscan, htail, hevent⟩
    obtain ⟨found, hfound, _, _, hlive, _, opened⟩ := openStorage_of_journaled h .readOnly
    obtain rfl := ok.inj (hfound.symm.trans hopen)
    obtain ⟨anchor, names⟩ := opened.names hlive
    obtain ⟨state, hstate, view, _⟩ := opened.scan names
    obtain rfl := ok.inj (hstate.symm.trans hscan)
    exact ⟨tail, view.tail.symm.trans htail, hevent⟩
  · rintro ⟨tail, htail, rfl⟩
    exact h.endsWith htail

/-- An active seat at the event is a disk that ends with it. -/
theorem Supplied.At.endsWith (h : supplied.At event)
    (sound : supplied.Sound) (hseat : supplied.seat = some ⟨journal, true⟩) :
    supplied.member.storage.EndsWith event := by
  obtain ⟨hlive, _, tail, htail, rfl⟩ := h journal hseat
  obtain ⟨log, first, tracks, _⟩ := sound
  obtain ⟨anchor, tracked⟩ := tracks.seated _ hseat
  refine tracks.opened.journaled.endsWith ?_
  rw [← htail]
  exact (tracked.view hlive).tail.symm

/-- A journal that is opened on the member would end with the event. -/
structure Supplied.Ends (supplied : Supplied) (event : Digest) : Prop where
  live : supplied.member.frozen = false
  writable : supplied.member.mode = .writable
  tail : ∀ journal, openMember supplied.member = .ok journal →
    ∃ tail, journal.scanState.tail = some tail ∧ tail.historyDigest = event

theorem Supplied.At.ends (h : supplied.At event)
    (sound : supplied.Sound) (hseat : supplied.seat = some ⟨journal, true⟩) :
    supplied.Ends event := by
  obtain ⟨hlive, hmode, tail, htail, hevent⟩ := h journal hseat
  refine ⟨hlive, hmode, fun opened hopen => ⟨tail, ?_, hevent⟩⟩
  obtain ⟨log, first, tracks, _⟩ := sound
  obtain ⟨anchor, tracked⟩ := tracks.seated _ hseat
  obtain ⟨named, names⟩ := tracks.opened.names hlive
  have hview := (tracks.opened.openMember names hopen).view hlive
  rw [hview.tail, ← htail]
  exact (tracked.view hlive).tail.symm

omit [Blake3] in
@[simp] theorem advance_tail (journal : Journal) (prepared : PreparedAppend) :
    (journal.advance prepared).scanState.tail = some prepared.record := by
  unfold advance
  simp only
  split <;> rfl

namespace ReplicatedJournal

variable {items : List Item} {c : ReplicatedJournal} {outcome : Id → WriteOutcome}
  {after before : Supplied} {append : Append} {deactivate : Bool} {shared : Option Digest}
  {prepareOne : Participant → Except CoordinatorError Item} {diverged : CoordinatorError}
  {member : Supplied}

omit [Blake3] in
/-- **A member with a prepared record is at its event after the phase.** -/
theorem Appended.at (h : Appended true items outcome before after) {event : Digest}
    (covered : ∀ journal, before.seat = some ⟨journal, true⟩ →
      ∃ item ∈ items, item.memberId = before.id)
    (events : ∀ item ∈ items, item.prepared.record.historyDigest = event) : after.At event := by
  intro journal hactive
  cases h with
  | idle hidle hsame =>
    subst hsame
    obtain ⟨item, hitem, hid⟩ := covered journal hactive
    rcases hidle with hnone | hnone
    · rw [hnone] at hactive
      cases hactive
    · exact absurd hid (hnone item hitem)
  | written seat item hseat hitem hid hdone hlive hmode hafter =>
    subst hafter
    simp only [Option.some.injEq, Seat.mk.injEq] at hactive
    obtain ⟨rfl, _⟩ := hactive
    refine ⟨?_, by simpa using hmode, item.prepared.record, by simp, events item hitem⟩
    rw [written_frozen ⟨before.member, seat.journal⟩ item.prepared .done hlive]
    rfl
  | failed seat item hseat hitem hid hdone hfrozen hheader hafter =>
    rw [hafter] at hactive
    simp at hactive

/-! ## Standing coordinators -/

/-- A coordinator whose set can be written: its active participants are voters at the authority, and
the members that the set names are active. -/
structure Standing (coordinator : ReplicatedJournal) : Prop where
  sound : SoundMembers coordinator.set.supplied
  ordered : coordinator.Ordered
  stands : coordinator.set.controlWrite.isSome → ∀ member ∈ coordinator.set.supplied,
    member.At coordinator.set.authority.historyDigest
  voters : coordinator.set.controlWrite.isSome → ∀ member ∈ coordinator.set.supplied,
    ∀ journal, member.seat = some ⟨journal, true⟩ →
      isVoter coordinator.set.authority.topology member.id = true
  listed : ∀ ready, coordinator.set.controlWrite = some ready →
    ∀ memberId ∈ ready.activeMembers, ∃ member ∈ coordinator.set.supplied,
      member.id = memberId ∧ ∃ journal, member.seat = some ⟨journal, true⟩

theorem Standing.unready (sound : SoundMembers c.set.supplied) (ordered : c.Ordered)
    (unready : c.set.controlWrite = none) : c.Standing where
  sound := sound
  ordered := ordered
  stands := by simp [unready]
  voters := by simp [unready]
  listed := by simp [unready]

/-- Standing is about the set and the order of the participants only. -/
theorem Standing.congr {after : ReplicatedJournal} (h : c.Standing)
    (set : after.set = c.set) (order : after.order = c.order) :
    after.Standing where
  sound := by rw [set]; exact h.sound
  ordered := ⟨by rw [order]; exact h.ordered.distinct, by
    rw [order, set]; exact h.ordered.seated⟩
  stands := by rw [set]; exact h.stands
  voters := by rw [set]; exact h.voters
  listed := by rw [set]; exact h.listed

/-! ## Participants through a phase -/

omit [Blake3] in
theorem beginControlMutation_ordered (ordered : c.Ordered) : c.beginControlMutation.Ordered :=
  ordered.map rfl rfl (fun _ _ => rfl) fun _ _ => rfl

section

variable (h : Appended deactivate items outcome before after)
include h

omit [Blake3] in
theorem Appended.seat_isSome : after.seat.isSome = before.seat.isSome := by
  cases h with
  | idle _ hsame => rw [hsame]
  | written seat item hseat _ _ _ _ _ hafter | failed seat item hseat _ _ _ _ _ hafter =>
    simp [hafter, hseat]

omit [Blake3] in
theorem Appended.id : after.id = before.id := by
  cases h with
  | idle _ hsame => rw [hsame]
  | written seat item _ _ _ _ _ _ hafter => simp [hafter, Supplied.id]
  | failed seat item _ _ _ _ _ hheader _ => rw [Supplied.id, hheader]; rfl

end

theorem appendAll_ordered
    (sound : SoundMembers c.set.supplied) (ordered : c.Ordered) (deactivate : Bool)
    (outcome : Id → WriteOutcome)
    (writes : ∀ member ∈ c.set.supplied, WritesPrepared append member items) :
    (c.appendAll append deactivate items outcome).Ordered := by
  have happended := fun member hmember =>
    appendTo_appended deactivate outcome (sound.sound member hmember) (writes member hmember)
  exact ordered.map rfl rfl (fun member hmember => (happended member hmember).id)
    fun member hmember => (happended member hmember).seat_isSome

section

variable (sound : SoundMembers c.set.supplied) (ordered : c.Ordered)
  (writes : ∀ member ∈ c.set.supplied, WritesPrepared append member items)
include sound ordered writes

/-- A member that wrote its record is among the reports. -/
theorem acked_of_written (hmember : member ∈ c.set.supplied) (hseat : member.seat.isSome)
    {item : Item} (hitem : item ∈ items) (hid : item.memberId = member.id)
    (hdone : outcome member.id = .done) :
    member.id ∈ (c.acks append items outcome).map Ack.memberId := by
  cases hfind : items.find? (fun item => item.memberId = member.id) with
  | none => exact (find?_eq_none.mp hfind item hitem (by simpa using hid)).elim
  | some found =>
    exact mem_map.mpr ⟨_, (mem_acks sound ordered writes).mpr
      ⟨member, hmember, hseat, found, hfind, hdone, rfl⟩, rfl⟩

/-- **After a phase in which every active participant had a record, the active participants are
those that reported.** -/
theorem reported_of_active (covered : ∀ member ∈ c.set.supplied, ∀ journal,
      member.seat = some ⟨journal, true⟩ → ∃ item ∈ items, item.memberId = member.id)
    (hafter : after ∈ (c.appendAll append true items outcome).set.supplied)
    (hactive : after.seat = some ⟨journal, true⟩) :
    after.id ∈ (c.acks append items outcome).map Ack.memberId := by
  obtain ⟨before, hbefore, rfl⟩ := mem_map.mp hafter
  have happended := appendTo_appended true outcome (sound.sound before hbefore)
    (writes before hbefore)
  rw [happended.id]
  cases happended with
  | idle hidle hsame =>
    rw [hsame] at hactive
    obtain ⟨item, hitem, hid⟩ := covered before hbefore journal hactive
    rcases hidle with hnone | hnone
    · rw [hnone] at hactive
      cases hactive
    · exact absurd hid (hnone item hitem)
  | written seat item hseat hitem hid hdone _ _ _ =>
    exact acked_of_written sound ordered writes hbefore (by simp [hseat]) hitem hid hdone
  | failed seat item _ _ _ _ _ _ hseat =>
    rw [hseat] at hactive
    simp at hactive

end

omit [Blake3] in
theorem Appended.active (h : Appended deactivate items outcome before after)
    (hactive : after.seat = some ⟨journal, true⟩) : before.Active := by
  cases h with
  | idle _ hsame => exact ⟨journal, hsame ▸ hactive⟩
  | written seat item hseat _ _ _ _ _ hafter =>
    subst hafter
    simp only [some.injEq, Seat.mk.injEq] at hactive
    obtain ⟨opened, active⟩ := seat
    obtain rfl : active = true := hactive.2
    exact ⟨opened, hseat⟩
  | failed seat item hseat _ _ _ _ _ hafter =>
    rw [hafter] at hactive
    simp only [some.injEq, Seat.mk.injEq, Bool.and_eq_true] at hactive
    obtain ⟨opened, active⟩ := seat
    obtain rfl : active = true := hactive.2.1
    exact ⟨opened, hseat⟩

/-- An append phase for one event, in which exactly the active participants have a record. -/
structure Phase (coordinator : ReplicatedJournal) (append : Append) (items : List Item)
    (event : Digest) : Prop where
  sound : SoundMembers coordinator.set.supplied
  ordered : coordinator.Ordered
  writes : ∀ member ∈ coordinator.set.supplied, WritesPrepared append member items
  kept : ∀ outcome,
    SoundMembers (coordinator.appendAll append true items outcome).set.supplied
  active : ∀ member ∈ coordinator.set.supplied, ∀ item ∈ items, item.memberId = member.id →
    ∃ journal, member.seat = some ⟨journal, true⟩
  covered : ∀ member ∈ coordinator.set.supplied, ∀ journal,
    member.seat = some ⟨journal, true⟩ → ∃ item ∈ items, item.memberId = member.id
  events : ∀ item ∈ items, item.prepared.record.historyDigest = event

namespace Phase

variable {c : ReplicatedJournal} {append : Append} {items : List Item} {event : Digest}

variable {after : Supplied}

variable (h : Phase c append items event)
include h

theorem appended (outcome : Id → WriteOutcome) (hmember : member ∈ c.set.supplied) :
    Appended true items outcome member (appendTo append true items outcome member) :=
  appendTo_appended true outcome (h.sound.sound member hmember) (h.writes member hmember)

section

variable (outcome : Id → WriteOutcome)
  (hafter : after ∈ (c.appendAll append true items outcome).set.supplied)
include hafter

/-- The active participants are at the event after the phase. -/
theorem stands : after.At event := by
  obtain ⟨before, hbefore, rfl⟩ := mem_map.mp hafter
  exact (h.appended outcome hbefore).at (h.covered before hbefore) h.events

theorem active_before (hactive : after.seat = some ⟨journal, true⟩) :
    ∃ before ∈ c.set.supplied, before.id = after.id ∧ before.Active := by
  obtain ⟨before, hbefore, rfl⟩ := mem_map.mp hafter
  have happended := h.appended outcome hbefore
  exact ⟨before, hbefore, happended.id.symm, happended.active hactive⟩

end

/-- A member whose write succeeds has its record and stays active. -/
theorem stays_active (hmember : member ∈ c.set.supplied) (active : member.Active)
    (done : outcome member.id = .done) : ∃ item ∈ items, ∃ journal,
      appendTo append true items outcome member = { member with
        member := (Claimed.written ⟨member.member, journal⟩ item.prepared .done).member
        seat := some ⟨journal.advance item.prepared, true⟩ } ∧
      member.member.mode = .writable := by
  obtain ⟨journal, hseat⟩ := active
  obtain ⟨item, hitem, hid⟩ := h.covered member hmember journal hseat
  cases h.appended outcome hmember with
  | idle hidle _ =>
    rcases hidle with hnone | hnone
    · rw [hnone] at hseat
      cases hseat
    · exact absurd hid (hnone item hitem)
  | written seat found hfound hmem _ _ _ hmode hafter =>
    obtain rfl := some.inj (hseat.symm.trans hfound)
    exact ⟨found, hmem, journal, hafter, hmode⟩
  | failed _ _ _ _ _ hfailed _ _ _ => exact absurd done hfailed

theorem reported_active (outcome : Id → WriteOutcome) {memberId : Id}
    (hreport : memberId ∈ (c.acks append items outcome).map Ack.memberId) :
    ∃ after ∈ (c.appendAll append true items outcome).set.supplied,
      after.id = memberId ∧ after.Active := by
  obtain ⟨report, hmem, rfl⟩ := mem_map.mp hreport
  obtain ⟨member, hmember, _, item, hfind, hdone, rfl⟩ :=
    (mem_acks h.sound h.ordered h.writes).mp hmem
  have hactive := h.active member hmember item (mem_of_find?_eq_some hfind)
    (by simpa using find?_some hfind)
  obtain ⟨_, _, journal, hafter, _⟩ := h.stays_active hmember hactive hdone
  exact ⟨_, mem_map_of_mem hmember, (h.appended outcome hmember).id, _, by rw [hafter]⟩

theorem report_event {report : Ack} (hreport : report ∈ c.acks append items outcome) :
    report.result.record.historyDigest = event := by
  obtain ⟨_, _, _, item, hfind, _, rfl⟩ := (mem_acks h.sound h.ordered h.writes).mp hreport
  exact h.events item (mem_of_find?_eq_some hfind)

/-- The coordinator after the phase has the same participants. -/
theorem ordered_after (outcome : Id → WriteOutcome) :
    (c.appendAll append true items outcome).Ordered :=
  appendAll_ordered h.sound h.ordered true outcome h.writes

/-- **A set that notes the event of a phase as its authority stands there.** -/
theorem noted (outcome : Id → WriteOutcome)
    {authority : PoolAuthority.Authority} (hevent : authority.historyDigest = event)
    (hvoters : ∀ member ∈ c.set.supplied, ∀ journal,
      member.seat = some ⟨journal, true⟩ → isVoter authority.topology member.id = true) :
    Standing { c.appendAll append true items outcome with
      set := (c.appendAll append true items outcome).set.noteAuthority authority
        ((c.acks append items outcome).map Ack.memberId) } := by
  have hordered := h.ordered_after outcome
  refine ⟨noteAuthority_sound (h.kept outcome) _ _, ?_, ?_, ?_, ?_⟩
  · exact hordered.map rfl rfl (fun _ _ => rfl) fun _ _ => rfl
  · intro _ member hmember
    obtain ⟨before, hbefore, rfl⟩ := mem_map.mp hmember
    have hstands := h.stands outcome hbefore
    rw [← hevent] at hstands
    exact hstands
  · intro _ member hmember journal hactive
    obtain ⟨noted, hnoted, rfl⟩ := mem_map.mp hmember
    obtain ⟨before, hbefore, hid, seat, hseat⟩ := h.active_before outcome hnoted hactive
    have hvoter := hvoters before hbefore seat hseat
    rw [hid] at hvoter
    exact hvoter
  · intro ready hready memberId hlisted
    cases hready
    obtain ⟨after, hafter, hid, journal, hseat⟩ := h.reported_active outcome hlisted
    exact ⟨_, mem_map_of_mem hafter, hid, journal, hseat⟩

end Phase

omit [Blake3] in
theorem exists_event {participants : List Participant}
    (h : prepareAll prepareOne diverged shared participants = .ok items) :
    ∃ event, ∀ item ∈ items, item.prepared.record.historyDigest = event := by
  obtain ⟨_, hsame⟩ := prepareAll_shared h
  cases items with
  | nil => exact ⟨0, by simp⟩
  | cons first rest => exact ⟨_, fun item hitem => hsame item hitem first mem_cons_self⟩

/-- **The append phase of records prepared for targets that are the active participants.** -/
theorem phase_of_prepared (sound : SoundMembers c.set.supplied) (ordered : c.Ordered)
    (hid : ∀ participant item, prepareOne participant = .ok item →
      item.memberId = participant.memberId) {targets : List Participant}
        (hitems : prepareAll prepareOne diverged shared targets = .ok items)
    (writes : ∀ member ∈ c.set.supplied, WritesPrepared append member items)
    (kept : ∀ outcome, SoundMembers (c.appendAll append true items outcome).set.supplied)
    (active : ∀ participant ∈ targets, participant ∈ c.activeParticipants)
    (covered : ∀ participant ∈ c.activeParticipants, participant ∈ targets) :
    ∃ event, Phase c append items event := by
  obtain ⟨event, events⟩ := exists_event hitems
  refine ⟨event, sound, ordered, writes, kept, fun member hmember item hitem hsame => ?_,
    fun member hmember journal hseat => ?_, events⟩
  · obtain ⟨participant, hparticipant, hprepare⟩ := prepareAll_mem hitems item hitem
    obtain ⟨other, hother, journal, hseat, rfl⟩ := active_mem (active participant hparticipant)
    obtain rfl : other = member := inj_on_of_nodup_map sound.distinct hother hmember
      ((hid _ _ hprepare).symm.trans hsame)
    exact ⟨journal, hseat⟩
  · have hparticipant : ⟨member.id, ⟨member.member, journal⟩, true⟩ ∈ c.activeParticipants :=
      mem_filter.mpr ⟨(mem_participants sound ordered).mpr ⟨member, hmember, _, hseat, rfl⟩, rfl⟩
    obtain ⟨item, hitem, hprepare⟩ := prepareAll_complete hitems _ (covered _ hparticipant)
    exact ⟨item, hitem, hid _ _ hprepare⟩

end ReplicatedJournal

end Zettide
