import Zettide.Journal.Reserve
import Zettide.Pool.Seated
import Zettide.Pool.Calls

/-! # The reserve of free slots

As long as every write succeeds, a rollover finds the slot that it needs. Every operation asks for
one slot more than it writes: a generation or a membership commit writes two records and asks for
three slots, a bootstrap or a checkpoint writes one and asks for two, a catch-up leaves three. Only
a rollover takes the last slot, and it gives back all that it cuts. -/

namespace Zettide

open Supplied List Member Journal TopologyMember PoolAuthorityCheckpoint PoolMemberSet
open PoolTopology Except Claimed Settled Option

variable [Blake3] {header : Header} {record : Record}

/-! ## Members -/

/-- A member on which every write succeeded, with at least `room` free slots. -/
structure Supplied.Spare (supplied : Supplied) (room : Nat) (log : List Record)
    (anchor : Option Nat) : Prop where
  live : supplied.member.frozen = false
  settled : Settled supplied.member.storage supplied.member.header log anchor
  seated : ∀ seat, supplied.seat = some seat →
    Tracked ⟨supplied.member, seat.journal⟩ log (anchor.getD 1) anchor
  roots : ReplicatedJournal.RootLog log
  size : 5 ≤ supplied.member.storage.slots.length
  room_le : room ≤ spareSlots supplied.member.storage.slots.length log anchor

/-- An open journal counts the free slots of the member. -/
theorem Supplied.Spare.count {supplied : Supplied} {room : Nat} {log : List Record}
    {anchor : Option Nat} (h : supplied.Spare room log anchor) {seat : Seat}
    (hseat : supplied.seat = some seat) :
    availableSlotCount seat.journal.scanState =
      spareSlots supplied.member.storage.slots.length log anchor := by
  have htwo : 2 ≤ supplied.member.storage.slots.length := Nat.le_trans (by decide) h.size
  exact (h.settled : Settled (⟨supplied.member, seat.journal⟩ : Claimed).member.storage _ log
    anchor).available htwo h.live (h.seated seat hseat)

def Supplied.Reserve (room : Nat) (supplied : Supplied) : Prop :=
  ∃ log anchor, supplied.Spare room log anchor

namespace Supplied.Reserve

variable {supplied after : Supplied} {room : Nat}

variable (h : supplied.Reserve room)
include h

theorem mono {less : Nat} (hless : less ≤ room) : supplied.Reserve less := by
  obtain ⟨log, anchor, spare⟩ := h
  exact ⟨log, anchor, { spare with room_le := hless.trans spare.room_le }⟩

theorem sound : supplied.Sound := by
  obtain ⟨log, anchor, spare⟩ := h
  exact ⟨log, anchor.getD 1, ⟨spare.settled.opened, fun seat hseat =>
    ⟨anchor, spare.seated seat hseat⟩⟩, spare.roots⟩

/-- The reserve is about the member and its journal only. -/
theorem relabel (member : after.member = supplied.member) (seat : ∀ found, after.seat = some found →
      ∃ before, supplied.seat = some before ∧ found.journal = before.journal) :
    after.Reserve room := by
  obtain ⟨log, anchor, spare⟩ := h
  refine ⟨log, anchor, ?_, ?_, fun found hfound => ?_, spare.roots, ?_, ?_⟩
  · rw [member]; exact spare.live
  · rw [member]; exact spare.settled
  · obtain ⟨before, hbefore, hjournal⟩ := seat found hfound
    rw [member, hjournal]
    exact spare.seated before hbefore
  · rw [member]; exact spare.size
  · rw [member]; exact spare.room_le

theorem seat {journal : Journal}
    (hopen : openMember supplied.member = .ok journal) (active : Bool) :
    Reserve room { supplied with seat := some ⟨journal, active⟩ } := by
  obtain ⟨log, anchor, spare⟩ := h
  refine ⟨log, anchor, { spare with seated := fun seat hseat => ?_ }⟩
  cases hseat
  exact spare.settled.opened.openMember spare.settled.names hopen

theorem unseat (member : after.member = supplied.member)
    (seat : after.seat = none) : after.Reserve room :=
  h.relabel member (by simp [seat])

theorem available {seat : Seat} (hseat : supplied.seat = some seat)
    (required : Nat) (hroom : seat.journal.hasAppendCapacity required = true) :
    supplied.Reserve required := by
  obtain ⟨log, anchor, spare⟩ := h
  refine ⟨log, anchor, { spare with room_le := ?_ }⟩
  rw [← spare.count hseat]
  simpa [hasAppendCapacity] using hroom

theorem hasAppendCapacity {seat : Seat}
    (hseat : supplied.seat = some seat) : seat.journal.hasAppendCapacity room = true := by
  obtain ⟨log, anchor, spare⟩ := h
  simp only [Journal.hasAppendCapacity, decide_eq_true_eq, spare.count hseat]
  exact spare.room_le

end Supplied.Reserve

namespace ReplicatedJournal

/-! ## One append -/

variable {c : ReplicatedJournal} {items : List Item}
  {outcome commitOutcome prepareOutcome : Id → WriteOutcome} {diverged : CoordinatorError}
  {targets : List Participant} {shared : Option Digest} {room : Nat} {proposal : Record}
  {prepareOne : Participant → Except CoordinatorError Item} {supplied : List Supplied}
  {append : Append} {memberId : Id}

/-- **An append that succeeds takes one slot.** -/
theorem appendTo_reserve {deactivate : Bool} (done : ∀ memberId, outcome memberId = .done)
    {supplied : Supplied} (h : supplied.Reserve (room + 1))
    (writes : WritesPrepared append supplied items)
    (roots : ∀ item ∈ items, item.prepared.record.kind = .checkpoint → ∃ snapshot,
      validateCompactedRootRecord item.prepared.record = .ok snapshot) :
    (appendTo append deactivate items outcome supplied).Reserve room := by
  rcases hitem : items.find? (fun item => item.memberId = supplied.id) with _ | item
  · rw [appendTo_idle fun item hmem hid =>
      find?_eq_none.mp hitem item hmem (by simpa using hid)]
    exact h.mono (Nat.le_succ room)
  cases hseat : supplied.seat with
  | none =>
    have hsame : appendTo append deactivate items outcome supplied = supplied := by
      unfold appendTo
      rw [hseat]
    rw [hsame]
    exact h.mono (Nat.le_succ room)
  | some seat =>
    obtain ⟨log, anchor, spare⟩ := h
    have tracked := spare.seated seat hseat
    obtain ⟨proposal, prepared, happend⟩ :=
      writes.written seat item log _ anchor hseat hitem tracked
    obtain ⟨settled, hwritten⟩ := spare.settled.written tracked prepared
    have happended : appendTo append deactivate items outcome supplied = { supplied with
          member := (written ⟨supplied.member, seat.journal⟩ item.prepared .done).member
          seat := some ⟨(written ⟨supplied.member, seat.journal⟩ item.prepared
            .done).journal, seat.active⟩ } := by
      simp only [appendTo, hseat, hitem, happend, done, appendReport,
        WriteOutcome.succeeds, if_true]
    have hcount : (written ⟨supplied.member, seat.journal⟩ item.prepared
        .done).member.storage.slots.length = supplied.member.storage.slots.length := by
      simp
    rw [happended]
    refine ⟨log ++ [item.prepared.record], anchor, ?_, settled, ?_, ?_, ?_, ?_⟩
    · exact written_frozen ⟨supplied.member, seat.journal⟩ item.prepared .done spare.live
    · intro found hfound
      cases hfound
      exact hwritten
    · exact spare.roots.grow (roots item (mem_of_find?_eq_some hitem)) .done
    · exact hcount.symm ▸ spare.size
    · have hheld : ∀ index, anchor = some index → index < log.length :=
        fun index hanchor => (spare.settled.root index hanchor).2.1
      have htaken := @spareSlots_snoc log anchor supplied.member.storage.slots.length hheld
        item.prepared.record
      have hroom := spare.room_le
      show room ≤ spareSlots (written ⟨supplied.member, seat.journal⟩ item.prepared
        .done).member.storage.slots.length _ anchor
      rw [hcount]
      omega

/-! ## An append phase -/

/-- Every member has a free slot. -/
def Reserved (supplied : List Supplied) : Prop := ∀ member ∈ supplied, member.Reserve 1

theorem Reserved.sound (h : Reserved supplied)
    (distinct : (supplied.map Supplied.id).Nodup) : SoundMembers supplied :=
  ⟨distinct, fun member hmember => (h member hmember).sound⟩

theorem Reserved.of_contents {after : List Supplied} (h : Reserved supplied)
    (same : contents after = contents supplied) : Reserved after := by
  intro member hmember
  obtain ⟨before, hbefore, hsame, hseat⟩ := mem_of_contents same hmember
  refine (h before hbefore).relabel hsame.symm fun found hfound => ⟨found, ?_, rfl⟩
  rw [hseat]
  exact hfound

omit [Blake3] in
theorem beginControlMutation_contents (c : ReplicatedJournal) :
    contents c.beginControlMutation.set.supplied = contents c.set.supplied :=
  contents_map (fun _ => rfl) fun _ => rfl

omit [Blake3] in
theorem begun_distinct (distinct : (c.set.supplied.map Supplied.id).Nodup) :
    (c.beginControlMutation.set.supplied.map Supplied.id).Nodup := by
  rwa [show c.beginControlMutation.set.supplied.map Supplied.id =
    c.set.supplied.map Supplied.id from map_ids fun _ _ => rfl]

theorem appended_distinct (distinct : (c.set.supplied.map Supplied.id).Nodup) (deactivate : Bool)
    (items : List Item) (outcome : Id → WriteOutcome) :
    ((c.beginControlMutation.appendAll appendPrepared deactivate items
      outcome).set.supplied.map Supplied.id).Nodup := by
  rw [appendAll_ids _ _ _ _ appendPrepared_header]
  exact begun_distinct distinct

/-- **A phase in which the members that write have room for one more record than they write.** -/
theorem appendAll_reserved (deactivate : Bool) (room : Nat)
    (done : ∀ memberId, outcome memberId = .done)
    (headers : ∀ claimed prepared result,
      (append claimed prepared result).1.member.header = claimed.member.header)
    (writes : ∀ member ∈ c.set.supplied, WritesPrepared append member items)
    (roots : ∀ item ∈ items, item.prepared.record.kind = .checkpoint → ∃ snapshot,
      validateCompactedRootRecord item.prepared.record = .ok snapshot)
    {rest : Nat} (h : ∀ member ∈ c.set.supplied, member.Reserve rest)
    (roomy : ∀ member ∈ c.set.supplied,
      (∃ item ∈ items, item.memberId = member.id) → member.Reserve (room + 1)) :
    ∀ member ∈ (c.appendAll append deactivate items outcome).set.supplied,
      ((∃ item ∈ items, item.memberId = member.id) → member.Reserve room) ∧
        member.Reserve (min room rest) ∧
        ((∀ item ∈ items, item.memberId ≠ member.id) → member.Reserve rest) := by
  intro member hmember
  obtain ⟨before, hbefore, rfl⟩ := mem_map.mp hmember
  rw [appendTo_id headers]
  have hwritten : (∃ item ∈ items, item.memberId = before.id) →
      (appendTo append deactivate items outcome before).Reserve room := fun hitem =>
    appendTo_reserve done (roomy before hbefore hitem) (writes before hbefore) roots
  have hidle : (∀ item ∈ items, item.memberId ≠ before.id) →
      (appendTo append deactivate items outcome before).Reserve rest := fun hnone =>
    (appendTo_idle hnone).symm ▸ h before hbefore
  refine ⟨hwritten, ?_, hidle⟩
  by_cases hitem : ∃ item ∈ items, item.memberId = before.id
  · exact (hwritten hitem).mono (Nat.min_le_left _ _)
  · exact (hidle fun item hmem hid => hitem ⟨item, hmem, hid⟩).mono (Nat.min_le_right _ _)

omit [Blake3] in
/-- The members with prepared records are targets. -/
theorem item_target (hid : ∀ participant item, prepareOne participant = .ok item →
      item.memberId = participant.memberId)
    (hitems : prepareAll prepareOne diverged shared targets = .ok items)
    (h : ∃ item ∈ items, item.memberId = memberId) :
    ∃ participant ∈ targets, participant.memberId = memberId := by
  obtain ⟨item, hitem, rfl⟩ := h
  obtain ⟨participant, hparticipant, hone⟩ := prepareAll_mem hitems item hitem
  exact ⟨participant, hparticipant, (hid participant item hone).symm⟩

/-! ## Generation commits -/

/-- The records of a phase that are no checkpoints. -/
theorem exact_roots (exact' : PreparesExact prepareOne)
    (hitems : prepareAll prepareOne diverged shared targets = .ok items) :
    ∀ item ∈ items, item.prepared.record.kind = .checkpoint → ∃ snapshot,
      validateCompactedRootRecord item.prepared.record = .ok snapshot := by
  intro item hitem hkind
  obtain ⟨participant, _, hone⟩ := prepareAll_mem hitems item hitem
  obtain ⟨_, _, _, hprepared⟩ := exact'.prepared participant item hone
  exact absurd hkind (prepareExact_kind hprepared)

/-- **The second phase: a member that reported in the first one keeps one of its two slots.** -/
theorem committed_reserved {prepared : ReplicatedJournal}
    (distinct : (prepared.set.supplied.map Supplied.id).Nodup)
    (h : ∀ member ∈ prepared.set.supplied, member.Reserve 1 ∧
      ((∃ item ∈ items, item.memberId = member.id) → member.Reserve 2)) {commitItems : List Item}
    (hcommit : prepareAll (commitItem proposal) diverged none (prepared.acknowledged
      (c.acks appendPrepared items outcome)) = .ok commitItems) (deactivate : Bool)
    (done : ∀ memberId, commitOutcome memberId = .done) :
    Reserved (prepared.appendAll appendPrepared deactivate commitItems
      commitOutcome).set.supplied := by
  have hreserved : Reserved prepared.set.supplied := fun member hmember => (h member hmember).1
  have hphase := appendAll_reserved deactivate 1 done appendPrepared_header
    (exact_writes (hreserved.sound distinct) (fun p hp => (mem_filter.mp hp).1)
      (commitItem_exact proposal) hcommit)
    (exact_roots (commitItem_exact proposal) hcommit) hreserved fun member hmember hitem => by
      obtain ⟨participant, hparticipant, hid⟩ := item_target
        (fun p i hi => ((commitItem_exact proposal).prepared p i hi).1) hcommit hitem
      have hreported := acks_item (of_decide_eq_true (mem_filter.mp hparticipant).2)
      rw [hid] at hreported
      exact (h member hmember).2 hreported
  exact fun member hmember => (hphase member hmember).2.1

omit [Blake3] in
theorem noteAuthority_contents (set : PoolMemberSet) (authority : PoolAuthority.Authority)
    (activeMembers : List Id) :
    contents (set.noteAuthority authority activeMembers).supplied = contents set.supplied :=
  contents_map (fun _ => rfl) fun _ => rfl

theorem failCatalogMembers_reserved {memberIds : List Id} (h : Reserved c.set.supplied) :
    Reserved (memberIds.foldl failCatalogMember c).set.supplied :=
  h.of_contents (failCatalogMembers_same memberIds c).2

section

variable (distinct : (c.set.supplied.map Supplied.id).Nodup)
  (h : Reserved c.set.supplied)
include distinct h

/-- A participant with room for `required` records. -/
theorem participant_reserve {participant : Participant}
    (hparticipant : participant ∈ c.participants) {required : Nat}
    (hroom : participant.claimed.journal.hasAppendCapacity required = true) {member : Supplied}
    (hmember : member ∈ c.set.supplied) (hid : participant.memberId = member.id) :
    member.Reserve required := by
  obtain ⟨found, hfound, seat, hseat, rfl⟩ := participants_mem hparticipant
  obtain rfl : found = member := inj_on_of_nodup_map distinct hfound hmember hid
  exact (h found hfound).available hseat required hroom

/-- **The first phase of a commit: a target keeps two of its three slots.** -/
theorem prepared_reserved (room : Nat)
    (hsub : ∀ participant ∈ targets, participant ∈ c.participants)
    (hroom : ∀ participant ∈ targets,
      participant.claimed.journal.hasAppendCapacity (room + 2) = true)
    (hitems : prepareAll (prepareItem proposal) diverged shared targets = .ok items)
    (deactivate : Bool)
    (done : ∀ memberId, outcome memberId = .done) :
    ∀ member ∈ (c.beginControlMutation.appendAll appendPrepared deactivate items
        outcome).set.supplied,
      member.Reserve 1 ∧ ((∃ item ∈ items, item.memberId = member.id) →
        member.Reserve (room + 1)) := by
  have hbegun : Reserved c.beginControlMutation.set.supplied :=
    h.of_contents (beginControlMutation_contents c)
  have hdistinct := begun_distinct distinct
  have hsub : ∀ participant ∈ targets, participant ∈ c.beginControlMutation.participants := by
    rw [beginControlMutation_participants]
    exact hsub
  have hphase := appendAll_reserved deactivate (room + 1) done appendPrepared_header
    (exact_writes (hbegun.sound hdistinct) hsub (prepareItem_exact proposal) hitems)
    (exact_roots (prepareItem_exact proposal) hitems) hbegun fun member hmember hitem => by
      obtain ⟨participant, hparticipant, hid⟩ := item_target
        (fun p i hi => ((prepareItem_exact proposal).prepared p i hi).1) hitems hitem
      exact participant_reserve hdistinct hbegun (hsub participant hparticipant)
        (hroom participant hparticipant) hmember hid
  intro member hmember
  obtain ⟨hwritten, hkept, _⟩ := hphase member hmember
  exact ⟨hkept.mono (by omega), hwritten⟩

theorem commitGenerationLocked_reserved (proposal : Record)
    (prepareDone : ∀ memberId, prepareOutcome memberId = .done)
    (commitDone : ∀ memberId, commitOutcome memberId = .done) :
    Reserved (c.commitGenerationLocked proposal prepareOutcome commitOutcome).1.set.supplied := by
  unfold commitGenerationLocked
  split
  · exact h
  rename_i items hitems
  simp only [prepareGeneration, ok_iff] at hitems
  obtain ⟨_, _, _, _, _, _, hprepare⟩ := hitems
  have hprepared := prepared_reserved distinct h 1 (fun _ => targets_mem)
    (fun p hp => (mem_filter.mp hp).2) hprepare true prepareDone
  have hreserved := fun member hmember => (hprepared member hmember).1
  simp only
  split
  · exact hreserved
  split
  · rw [afterError_set]
    exact hreserved
  rename_i commitItems hcommit
  simp only [prepareGenerationCommit, ok_iff] at hcommit
  obtain ⟨_, _, _, _, hcommit⟩ := hcommit
  have hcommitted := committed_reserved (appended_distinct distinct true items prepareOutcome)
    hprepared hcommit true commitDone
  unfold finishGeneration
  simp only
  split
  · exact hcommitted
  · split
    · exact hcommitted
    · exact hcommitted.of_contents (noteAuthority_contents _ _ _)

theorem commitCatalogGeneration_reserved (proposal : Record) (stage : CatalogStage)
    (prepareDone : ∀ memberId, prepareOutcome memberId = .done)
    (commitDone : ∀ memberId, commitOutcome memberId = .done) :
    Reserved (c.commitCatalogGeneration proposal stage prepareOutcome
      commitOutcome).1.set.supplied := by
  have hcommit := commitGenerationLocked_reserved distinct h proposal prepareDone commitDone
  unfold commitCatalogGeneration
  split
  · exact h
  split
  · exact h
  split
  · exact h
  · exact h
  · exact h
  · exact h.of_contents (setStatus_contents _ _ .stale)
  split
  · rename_i after e hresult
    rw [hresult] at hcommit
    exact hcommit
  · rename_i after result hresult
    rw [hresult] at hcommit
    exact failCatalogMembers_reserved hcommit

theorem ensureParticipant_reserved {after : ReplicatedJournal} {authorityDigest : Digest}
    (hensure : c.ensureParticipant memberId authorityDigest = .ok after) :
    Reserved after.set.supplied := by
  obtain rfl | ⟨_, supplied, journal, hfind, hopen, rfl⟩ := ensureParticipant_cases hensure
  · exact h
  intro member hmember
  obtain ⟨before, hbefore, ⟨hid, rfl⟩ | ⟨_, rfl⟩⟩ := updateMember_mem hmember
  · obtain rfl := findSuppliedMember_unique distinct hfind hbefore hid
    exact (h supplied hbefore).seat hopen false
  · exact h _ hbefore

/-! ## Checkpoints -/

/-- **A phase of one record: a target keeps one of its two slots.** -/
theorem checkpointed_reserve (hitems : c.prepareCheckpoint proposal (room + 1) = .ok items)
    (done : ∀ memberId, outcome memberId = .done) :
    ∀ member ∈ (c.beginControlMutation.appendAll appendPreparedCheckpoint true
        items outcome).set.supplied,
      ((∃ item ∈ items, item.memberId = member.id) → member.Reserve room) ∧
        member.Reserve (min room 1) ∧
        ((∀ item ∈ items, item.memberId ≠ member.id) → member.Reserve 1) := by
  simp only [prepareCheckpoint, ok_iff] at hitems
  obtain ⟨_, _, _, prepared, hprepare, _, rfl⟩ := hitems
  have hbegun : Reserved c.beginControlMutation.set.supplied :=
    h.of_contents (beginControlMutation_contents c)
  have hdistinct := begun_distinct distinct
  refine appendAll_reserved true room done appendPreparedCheckpoint_header
    (checkpoint_writes (hbegun.sound hdistinct) (fun _ => begun_participants) hprepare)
    (fun item hitem _ => checkpoint_roots hprepare item hitem) hbegun
    fun member hmember hitem => ?_
  obtain ⟨participant, hparticipant, hid⟩ := item_target
    (fun p i hi => (checkpointItem_checked hi).1) hprepare hitem
  exact participant_reserve hdistinct hbegun (begun_participants hparticipant)
    (mem_filter.mp hparticipant).2 hmember hid

theorem commitAuthorityCheckpoint_reserved (proposal : Record)
    (done : ∀ memberId, outcome memberId = .done) :
    Reserved (c.commitAuthorityCheckpoint proposal outcome).1.set.supplied := by
  unfold commitAuthorityCheckpoint
  split
  · exact h
  split
  · exact h
  split
  · exact h
  have hcommit : Reserved (c.commitAuthorityCheckpointLocked proposal 2
      outcome).1.set.supplied := by
    unfold commitAuthorityCheckpointLocked
    split
    · exact h
    rename_i items hitems
    have hphase := checkpointed_reserve distinct h hitems done
    have hcommitted : Reserved (c.beginControlMutation.appendAll
        appendPreparedCheckpoint true items outcome).set.supplied :=
      fun member hmember => (hphase member hmember).2.1
    unfold finishCheckpoint
    simp only
    split
    · exact hcommitted
    · split
      · exact hcommitted
      · exact hcommitted.of_contents (noteAuthority_contents _ _ _)
  split
  · rename_i after e hresult
    rw [hresult] at hcommit
    exact hcommit
  rename_i after result hresult
  rw [hresult] at hcommit
  split
  · exact hcommit.of_contents (beginControlMutation_contents after)
  · exact hcommit

end

/-! ## Membership commits -/

theorem ensureParticipants_reserved (authorityDigest : Digest) (memberIds : List Id) :
    ∀ {c : ReplicatedJournal}, SoundMembers c.set.supplied → Reserved c.set.supplied →
      Reserved (ensureParticipants authorityDigest memberIds c).1.set.supplied := by
  induction memberIds with
  | nil => exact fun _ h => h
  | cons memberId rest ih =>
    intro c sound h
    unfold ensureParticipants
    cases hensure : c.ensureParticipant memberId authorityDigest with
    | error e => exact h
    | ok after =>
      exact ih (ensureParticipant_sound sound hensure)
        (ensureParticipant_reserved sound.distinct h hensure)

theorem keepSeat_reserve {supplied : Supplied} (h : supplied.Reserve room)
    (activeMembers : List Id) : (keepSeat activeMembers supplied).Reserve room := by
  refine h.relabel rfl fun found hfound => ?_
  unfold keepSeat at hfound
  split at hfound
  · obtain ⟨before, hbefore, rfl⟩ := map_eq_some_iff.mp hfound
    exact ⟨before, hbefore, rfl⟩
  · cases hfound

theorem finishMembership_reserved {proposal : Proposal}
    (h : Reserved (c.appendAll appendPrepared false items outcome).set.supplied) :
    Reserved (c.finishMembership proposal items outcome).1.set.supplied := by
  unfold finishMembership
  simp only
  split
  · exact h
  split
  · exact h
  intro member hmember
  obtain ⟨noted, hnoted, rfl⟩ := mem_map.mp hmember
  obtain ⟨before, hbefore, rfl⟩ := mem_map.mp hnoted
  refine keepSeat_reserve ?_ _
  exact (h before hbefore).relabel rfl fun found hfound => ⟨found, hfound, rfl⟩

theorem commitMembership_reserved (sound : SoundMembers c.set.supplied)
    (h : Reserved c.set.supplied) (record : Record) (promotes : Except CoordinatorError Unit)
    (prepareDone : ∀ memberId, prepareOutcome memberId = .done)
    (commitDone : ∀ memberId, commitOutcome memberId = .done) :
    Reserved (c.commitMembership record promotes prepareOutcome commitOutcome).1.set.supplied := by
  unfold commitMembership
  split
  · exact h
  split
  · exact h
  split
  · exact h
  rename_i proposal hproposal
  have hjoined := ensureParticipants_reserved c.set.authority.historyDigest
    ((proposal.topology.members.filter fun member =>
      member.controlRole = voterRole).map memberId) sound h
  have hsound := Turns.sound (ensureParticipants_turns True
    c.set.authority.historyDigest ((proposal.topology.members.filter fun member =>
      member.controlRole = voterRole).map memberId)
    c) sound
  simp only
  split
  · rename_i joined e hensure
    rw [hensure] at hjoined
    exact hjoined
  rename_i joined hensure
  rw [hensure] at hjoined hsound
  split
  · exact hjoined
  rename_i items hitems
  simp only [prepareMembership, ok_iff] at hitems
  have hprepared := prepared_reserved hsound.distinct hjoined 1 (fun p hp => (mem_filter.mp hp).1)
    (fun p hp => (Bool.and_eq_true_iff.mp (mem_filter.mp hp).2).2) hitems.2 false
    prepareDone
  have hreserved := fun member hmember => (hprepared member hmember).1
  split
  · exact hreserved
  split
  · rw [afterError_set]
    exact hreserved
  rename_i commitItems hcommit
  simp only [prepareMembershipCommit, ok_iff] at hcommit
  obtain ⟨_, _, _, _, hcommit⟩ := hcommit
  refine finishMembership_reserved ?_
  refine committed_reserved ?_ hprepared hcommit false commitDone
  exact appended_distinct hsound.distinct _ _ _

end ReplicatedJournal

/-- A disk on which every write succeeded, with a free slot. -/
def Storage.Spared (storage : Storage) : Prop :=
  ∃ header log anchor, Settled storage header log anchor ∧ ReplicatedJournal.RootLog log ∧
    5 ≤ storage.slots.length ∧ 1 ≤ spareSlots storage.slots.length log anchor

theorem Supplied.Reserve.spared {supplied : Supplied} (h : supplied.Reserve 1) :
    supplied.member.storage.Spared := by
  obtain ⟨log, anchor, spare⟩ := h
  exact ⟨_, log, anchor, spare.settled, spare.roots, spare.size, spare.room_le⟩

/-- A new member whose control region has five slots. -/
theorem Birth.spared (birth : Birth header record) (size : 5 ≤ header.control.length / 4096)
    {storage : Storage} {result : Except JournalError Member}
    (hcreate : createWithFirstRecord header record .done = (storage, result)) :
    storage.Spared := by
  obtain ⟨settled, hcount⟩ := born birth hcreate
  refine ⟨header, [record], none, settled, birth.rootLog, hcount ▸ size, ?_⟩
  simp only [spareSlots, length_singleton]
  omega

namespace ReplicatedJournal

variable {c : ReplicatedJournal} {outcome : Nat → WriteOutcome} {history : HistoryScan}
  {items : List Item} {targetId : Id}

/-! ## Bootstraps -/

/-- The target of a bootstrap has a control region of the length that the active members have. -/
theorem prepareBootstrap_size (h : Reserved c.set.supplied)
    (hitems : c.prepareBootstrap header record = .ok items) :
    5 ≤ header.control.length / 4096 := by
  simp only [prepareBootstrap, validateBootstrapTargetGeometry, ok_iff] at hitems
  obtain ⟨_, _, _, _, _, _, _, ⟨ready, _, hsame, hsources⟩, _⟩ := hitems
  obtain ⟨source, hsource⟩ := exists_mem_of_ne_nil _ hsources
  have hgeometry : samePoolGeometry source.member.header header :=
    by_contra fun hdiffers => hsame ⟨source, hsource, hdiffers⟩
  obtain ⟨log, anchor, spare⟩ := h source (mem_filter.mp hsource).1
  rw [← hgeometry.2.2.2.1, spare.settled.names.fitting.slots, Nat.mul_div_cancel_left _ (by decide)]
  exact spare.size

section

variable (distinct : (c.set.supplied.map Supplied.id).Nodup)
  (h : Reserved c.set.supplied)
include distinct h

theorem finishBootstrap_reserved (hitems : c.prepareBootstrap header record = .ok items)
    {target : Member} (hnew : Reserve 1 ⟨target, some history, .authority, none⟩)
    {outcome : Id → WriteOutcome} (done : ∀ memberId, outcome memberId = .done) :
    Reserved (c.finishBootstrap items target history outcome).1.set.supplied := by
  simp only [prepareBootstrap, ok_iff] at hitems
  obtain ⟨_, _, _, _, _, _, _, _, prepared, hprepare, _, rfl⟩ := hitems
  have hphase := prepared_reserved distinct h 0 (fun _ => targets_mem)
    (fun p hp => (mem_filter.mp hp).2) hprepare true done
  have hcommitted := fun member hmember => (hphase member hmember).1
  unfold finishBootstrap
  simp only
  split
  · exact hcommitted
  split
  · exact hcommitted
  split
  · exact hcommitted
  rename_i set hset
  simp only [noteCommittedBootstrap, ok_iff] at hset
  obtain ⟨_, rfl⟩ := hset
  refine Reserved.of_contents ?_ (noteAuthority_contents _ _ _)
  intro member hmember
  rcases mem_append.mp hmember with hold | hjoined
  · exact hcommitted member hold
  · rw [mem_singleton.mp hjoined]
    exact hnew

/-- **A bootstrap takes one slot of each voter, and makes a disk with free slots.** -/
theorem bootstrapMember_reserved (header : Header) (record : Record) {outcome : BootstrapOutcome}
    (created : outcome.create = .done) (done : ∀ memberId, outcome.append memberId = .done) :
    Reserved (c.bootstrapMember header record outcome).coordinator.set.supplied ∧
      ∀ file, (c.bootstrapMember header record outcome).file = some file → file.Spared := by
  unfold bootstrapMember
  split
  · exact ⟨h, by simp⟩
  split
  · exact ⟨h, by simp⟩
  split
  · exact ⟨h, by simp⟩
  rename_i items hitems
  have hsize := prepareBootstrap_size h hitems
  rcases hcreate : createJoiningStorage header record outcome.create with _ | made
  · exact ⟨h, by simp⟩
  rw [created] at hcreate
  simp only [createJoiningStorage, ok_iff] at hcreate
  obtain ⟨first, hvalid, rfl⟩ := hcreate
  obtain ⟨rfl, birth⟩ := birth_of_joining hvalid
  cases hwrite : createWithFirstRecord header record .done with
  | mk file result =>
    have hspared := birth.spared hsize hwrite
    have hfile : ∀ found, some file = some found → found.Spared :=
      fun found hfound => some.inj hfound ▸ hspared
    rcases result with _ | target
    · exact ⟨h, hfile⟩
    obtain ⟨rfl, hheader, _⟩ := createWithFirstRecord_opened birth hwrite
    simp only
    split
    · exact ⟨h, hfile⟩
    rename_i history _
    refine ⟨?_, hfile⟩
    have hnew : Reserve 1 ⟨target, some history, .authority, none⟩ := by
      obtain ⟨settled, hcount⟩ := born birth hwrite
      refine ⟨[record], none, ?_, hheader ▸ settled, by simp, birth.rootLog, hcount ▸ hsize, ?_⟩
      · obtain ⟨_, hmember⟩ := Prod.mk.inj hwrite
        rw [← ok.inj hmember]
      · show 1 ≤ spareSlots target.storage.slots.length [record] none
        simp only [spareSlots, length_singleton]
        omega
    exact finishBootstrap_reserved distinct h hitems hnew done

end

/-! ## Catch-ups -/

/-- A member to which records are copied, with what stays as it was. -/
structure Copying (room : Nat) (header : Header) (count : Nat) (anchor : Option Nat)
    (log : List Record) (member : Member) : Prop where
  live : member.frozen = false
  settled : Settled member.storage header log anchor
  roots : RootLog log
  header_eq : member.header = header
  slots : member.storage.slots.length = count
  room_le : room ≤ spareSlots count log anchor

/-- **Copying records takes one slot for each.** -/
theorem replayRecords_spare (done : ∀ step, outcome step = .done)
    (records : List Record) (room : Nat) :
    ∀ (step : Nat) {claimed : Claimed} {log : List Record} {anchor : Option Nat},
      claimed.member.frozen = false →
      Settled claimed.member.storage claimed.member.header log anchor →
      Tracked claimed log (anchor.getD 1) anchor → RootLog log →
      room + records.length ≤ spareSlots claimed.member.storage.slots.length log anchor →
      ∃ log', Copying room claimed.member.header claimed.member.storage.slots.length anchor log'
        (replayRecords outcome step records claimed).1.member := by
  induction records with
  | nil =>
    intro step claimed log anchor live settled _ roots hroom
    exact ⟨log, live, settled, roots, rfl, rfl, hroom⟩
  | cons record rest ih =>
    intro step claimed log anchor live settled tracked roots hroom
    rw [length_cons] at hroom
    have hstop : ∃ log', Copying room claimed.member.header claimed.member.storage.slots.length
        anchor log' claimed.member := ⟨log, live, settled, roots, rfl, rfl, by omega⟩
    unfold replayRecords
    split
    · exact hstop
    split
    · exact hstop
    rename_i prepared hprepare
    split
    · exact hstop
    obtain ⟨hprepared, happend⟩ := appendPrepared_eq tracked hprepare (outcome step)
    rw [done step] at happend
    rw [done step, happend]
    obtain ⟨hsettled, htracked⟩ := settled.written tracked hprepared
    have hheld : ∀ index, anchor = some index → index < log.length :=
      fun index hanchor => (settled.root index hanchor).2.1
    have htaken := @spareSlots_snoc log anchor claimed.member.storage.slots.length hheld
      prepared.record
    have hcount : (claimed.written prepared .done).member.storage.slots.length =
        claimed.member.storage.slots.length := by simp
    have hgrown : RootLog (log ++ [prepared.record]) :=
      roots.grow (fun hkind => absurd hkind (prepareExact_kind hprepare)) .done
    obtain ⟨log', hcopied⟩ := ih (step + 1) (written_frozen claimed prepared .done live) hsettled
      htracked hgrown (by rw [hcount]; omega)
    rw [written_header, hcount] at hcopied
    exact ⟨log', hcopied⟩

omit [Blake3] in
theorem noteCatchupFailure_contents (c : ReplicatedJournal) (targetId : Id) :
    contents (c.noteCatchupFailure targetId).set.supplied = contents c.set.supplied :=
  setStatus_contents c.set.supplied targetId .stale

theorem finishCatchup_contents (c : ReplicatedJournal) (targetId : Id) (member : Member) :
    contents (c.finishCatchup targetId member).1.set.supplied = contents c.set.supplied := by
  unfold finishCatchup
  split
  · exact noteCatchupFailure_contents c targetId
  · split
    · exact noteCatchupFailure_contents c targetId
    · refine contents_map (fun before => ?_) fun before => ?_ <;> split <;> rfl

theorem missingRecords_room {records : List Record}
    (h : c.missingRecords targetId history = .ok records) :
    records.length + 3 ≤ availableSlotCount history.scanResult := by
  simp only [missingRecords, ok_iff, Nat.not_lt] at h
  obtain ⟨_, _, _, _, _, _, _, _, _, _, _, hroom, _, rfl⟩ := h
  exact hroom

variable (distinct : (c.set.supplied.map Supplied.id).Nodup)
  (h : Reserved c.set.supplied)
include distinct h

theorem putMember_reserved {supplied : Supplied}
    (hfind : findSuppliedMember c.set.supplied targetId = some supplied)
    {member : Member} (hput : Reserve 1 { supplied with member := member }) :
    Reserved (c.putMember targetId member).set.supplied := by
  intro other hother
  obtain ⟨before, hbefore, ⟨hid, rfl⟩ | ⟨_, rfl⟩⟩ := updateMember_mem hother
  · obtain rfl := findSuppliedMember_unique distinct hfind hbefore hid
    exact hput
  · exact h _ hbefore

theorem catchUpControlForMember_reserved (targetId : Id) (done : ∀ step, outcome step = .done) :
    Reserved (c.catchUpControlForMember targetId outcome).1.set.supplied := by
  unfold catchUpControlForMember
  split
  · exact h
  split
  · exact h
  split
  · exact h
  rename_i supplied htarget
  simp only [catchupTarget, ok_iff] at htarget
  obtain ⟨_, _, _, _, found, hfind, _, rfl⟩ := htarget
  split
  · exact h.of_contents (noteCatchupFailure_contents c targetId)
  rename_i history hscan
  split
  · exact h
  rename_i records hrecords
  have hroom := missingRecords_room hrecords
  obtain ⟨log, anchor, spare⟩ := h found (mem_of_find?_eq_some hfind)
  obtain ⟨scanned, hscanned, hcount, _⟩ :=
    spare.settled.scan (Nat.le_trans (by decide) spare.size)
  obtain rfl := ok.inj (hscanned.symm.trans hscan)
  unfold copyRecords
  split
  · exact h.of_contents (finishCatchup_contents _ _ _)
  split
  · rename_i journal hopen hseat
    have hopened := spare.settled.opened.openMember spare.settled.names hopen
    obtain ⟨log', hcopied⟩ := replayRecords_spare done records 1 0 spare.live spare.settled hopened
      spare.roots (by simp only; omega)
    have hput : Reserve 1 { found with
        member := (replayRecords outcome 0 records ⟨found.member, journal⟩).1.member } :=
      ⟨log', anchor, hcopied.live, hcopied.header_eq.symm ▸ hcopied.settled, by simp [hseat],
        hcopied.roots, hcopied.slots.symm ▸ spare.size, hcopied.slots.symm ▸ hcopied.room_le⟩
    have hput := putMember_reserved distinct h hfind hput
    split
    · rename_i after noted e hreplay
      rw [hreplay] at hput
      cases noted with
      | true => exact hput.of_contents (noteCatchupFailure_contents _ targetId)
      | false => exact hput
    · rename_i after hreplay
      rw [hreplay] at hput
      exact hput.of_contents (finishCatchup_contents _ _ _)
  · exact h.of_contents (noteCatchupFailure_contents c targetId)

end ReplicatedJournal

end Zettide
