import Zettide.Pool.Rolled

/-! # Rollovers that finish

A rollover takes the last free slot of every active member for its checkpoint. When its writes
succeed it is either refused before the first of them, or every voter has the checkpoint, publishes
it and is cut there. -/

namespace Zettide.ReplicatedJournal

open CoordinatorError
open List Journal PoolTopology PoolAuthorityCheckpoint Publication Prod

variable [Blake3] {successes : List Id} {journal : Journal}

/-- Every voter has three free slots. -/
def Compacted (coordinator : ReplicatedJournal) : Prop :=
  ∀ memberId, isVoter coordinator.set.authority.topology memberId = true →
    ∃ member ∈ coordinator.set.supplied, member.id = memberId ∧ member.Reserve 3

/-! ## After the checkpoint -/

/-- The rollover has written its checkpoint: every active member ends with it. -/
structure Checkpointed (coordinator : ReplicatedJournal) (event : Digest) : Prop where
  sound : SoundMembers coordinator.set.supplied
  seated : coordinator.Seated
  normal : coordinator.recoveryOnly = false
  pending : coordinator.pendingAnchor = some event
  required : coordinator.reclaimRequired = true
  full : coordinator.activeParticipants.length =
    voterCount coordinator.set.authority.topology
  nonempty : 0 < coordinator.activeParticipants.length
  idle : ∀ member ∈ coordinator.set.supplied, ¬ member.Active → member.Reserve 1
  kept : ∀ member ∈ coordinator.set.supplied, member.Reserve 0
  ends : ∀ member ∈ coordinator.set.supplied, ∀ journal, member.seat = some ⟨journal, true⟩ →
    member.member.mode = .writable ∧ member.member.header.headerSequence ≠ maxU64 ∧
      ∃ tail snapshot, journal.scanState.tail = some tail ∧ tail.kind = .checkpoint ∧
        tail.historyDigest = event ∧
        validateCompactedRootRecord tail = .ok snapshot ∧
        snapshot.topology = coordinator.set.authority.topology

namespace Checkpointed

variable {c : ReplicatedJournal} {event : Digest}

variable {outcome : RolloverOutcome}

section

variable [CollisionFree] (h : c.Checkpointed event) (done : outcome.Done)
include h done

/-- **Every active member publishes the checkpoint.** -/
theorem publishes {member : Supplied} (hmember : member ∈ c.set.supplied)
    (hseat : member.seat = some ⟨journal, true⟩) :
    ∃ found, (c.publishOne outcome member.id ⟨member.member, journal⟩).2 =
        .anchor found ∧ journal.scanState.tail = some found.record ∧
      found.record.historyDigest = event ∧
      ∃ snapshot, validateCompactedRootRecord found.record = .ok snapshot ∧
        snapshot.topology = c.set.authority.topology := by
  obtain ⟨hmode, hnumbers, tail, snapshot, htail, hkind, hevent, hroot, htopology⟩ :=
    h.ends member hmember journal hseat
  obtain ⟨log, anchor, spare⟩ := h.kept member hmember
  have tracked := spare.seated _ hseat
  have view := tracked.view spare.live
  have htwo : 2 ≤ member.member.storage.slots.length := Nat.le_trans (by decide) spare.size
  have hlast : log.getLast? = some tail := view.tail.symm.trans htail
  have hget : log[log.length - 1]? = some tail := by
    rw [← getLast?_eq_getElem?]
    exact hlast
  obtain ⟨hoffset, hvalid⟩ := spare.settled.names.fitting.validate_publish htwo hget
  have hslot : journal.scanState.tailPhysicalSlot.getD 0 =
      ringSlot member.member.storage.slots.length (log.length - 1) := by
    rw [view.tailSlot]
    rfl
  have hdigest := view.tailDigest tail hlast
  refine ⟨⟨tail, journal.scanState.tailRawRecordDigest,
    journal.scanState.tailPhysicalSlot.getD 0⟩, ?_, htail, hevent, snapshot, hroot, htopology⟩
  have hanchor : c.publicationAnchor journal.scanState tail =
      some ⟨tail, journal.scanState.tailRawRecordDigest,
        journal.scanState.tailPhysicalSlot.getD 0⟩ := by
    simp [publicationAnchor, targetAnchorDigest, h.pending, tailAnchor, hkind, hevent]
  have hpublish := publish_done spare.live hmode hnumbers hvalid
  unfold publishOne
  simp only [htail, hanchor]
  rw [if_neg (by omega), done.first, done.second, hslot, hdigest]
  revert hpublish
  cases hresult : member.member.publishCheckpointRedundant (member.member.header.control.offset +
        ringSlot member.member.storage.slots.length (log.length - 1) * 4096)
      tail.localSequence (ControlRecord.recordDigest tail) .done .done with
  | mk after result =>
    rintro ⟨⟩
    rfl

theorem publication {publication : Publication}
    (hpublication : publication ∈ c.publications outcome) :
    isVoter c.set.authority.topology publication.memberId = true ∧
      ∃ found, publication.anchor = some found ∧ found.record.historyDigest = event ∧ ∃ snapshot,
          validateCompactedRootRecord found.record = .ok snapshot ∧
          snapshot.topology = c.set.authority.topology := by
  refine ⟨h.seated.publication hpublication, ?_⟩
  obtain ⟨member, hmember, journal, hseat, hreport⟩ :=
    (mem_publications h.sound h.seated.ordered).mp hpublication
  obtain ⟨found, hfound, _, hevent, hsnapshot⟩ := h.publishes done hmember hseat
  rw [hfound] at hreport
  cases hreport
  exact ⟨found, rfl, hevent, hsnapshot⟩

theorem publications_length :
    (c.publications outcome).length = voterCount c.set.authority.topology := by
  rw [← h.full]
  refine filterMap_length_eq_length.mpr fun participant hparticipant => ?_
  obtain ⟨member, hmember, journal, hseat, rfl⟩ := active_mem hparticipant
  obtain ⟨found, hfound, _⟩ := h.publishes done hmember hseat
  simp [hfound]

/-- **The published checkpoint has a quorum, among all and among any list that has all of them.** -/
theorem anchorQuorum
    (hall : ∀ publication ∈ c.publications outcome, publication.memberId ∈ successes) :
    hasAnchorQuorum (c.publications outcome) successes = .ok true := by
  have hlength := h.publications_length done
  have hquorum : c.set.authority.topology.quorum ≤ (c.publications outcome).length := by
    rw [hlength, ← h.seated.quorum]
    exact h.seated.fits h.normal
  have hpos : 0 < (c.publications outcome).length := by
    rw [hlength, ← h.full]
    exact h.nonempty
  obtain ⟨first, rest, hcons⟩ := exists_cons_of_length_pos hpos
  obtain ⟨_, found, hanchor, hevent, snapshot, hroot, htopology⟩ :=
    h.publication done (hcons ▸ mem_cons_self : first ∈ c.publications outcome)
  rw [← htopology] at hquorum
  unfold hasAnchorQuorum
  conv_lhs => arg 3; rw [hcons]
  simp only [anchorQuorumAmong, hanchor, hroot, withError]
  -- every publication is a witness of the first one
  refine if_pos (hquorum.trans (countP_eq_length.mpr fun other hother => ?_).ge)
  obtain ⟨hvoter, held, hheld, hsame, _⟩ := h.publication done hother
  simp [hall other hother, hheld, hsame, hevent, htopology, hvoter]

theorem reclaims {publication : Publication} (hpublication : publication ∈ c.publications outcome) :
    publication.memberId ∈ c.cutMembers outcome := by
  obtain ⟨member, hmember, journal, hseat, hreport⟩ :=
    (mem_publications h.sound h.seated.ordered).mp hpublication
  obtain ⟨found, hfound, _⟩ := h.publishes done hmember hseat
  obtain ⟨hpublished, active, hkept⟩ :=
    publishTo_seated c outcome member.forgot hseat
  have hid := publishTo_id c outcome member.forgot
  obtain ⟨after, hreclaim, _⟩ := published_cut done (h.kept member hmember) hseat hfound
  have hparticipant : (⟨(c.publishTo outcome member.forgot).id,
      ⟨(c.publishTo outcome member.forgot).member, journal⟩,
      active⟩ : Participant) ∈ (c.published outcome).participants :=
    (mem_participants (publishPhase_sound h.sound outcome)
      (published_ordered outcome h.seated.ordered)).mpr
      ⟨_, mem_map_of_mem (mem_map_of_mem hmember), _, hkept, rfl⟩
  refine mem_filterMap.mpr ⟨_, hparticipant, Option.bind_eq_some_iff.mpr ⟨publication, ?_, ?_⟩⟩
  · rw [hid]
    exact (find_publication h.sound h.seated.ordered hmember hseat).trans hreport
  · have hname : publication.memberId = member.id := publicationOf_memberId hreport
    have hcut : (reclaimOne outcome publication
        ⟨(c.publishTo outcome member.forgot).member, journal⟩).2 =
        true := by
      rw [hfound] at hreport
      cases hreport
      rw [hpublished]
      exact congrArg snd (reclaimOne_done hreclaim)
    simp only [hcut, if_true]
    rw [hid, hname]
    rfl

end

theorem voter_active (h : c.Checkpointed event) {memberId : Id}
    (hvoter : isVoter c.set.authority.topology memberId = true) :
    ∃ member ∈ c.set.supplied, member.id = memberId ∧ member.Active := by
  refine (mem_active h.sound h.seated.ordered).mp ?_
  refine mem_of_card_le (active_distinct h.seated.ordered) (fun other hother => ?_) ?_
    (mem_voterIds_of_isVoter hvoter)
  · obtain ⟨member, hmember, rfl, hactive⟩ := (mem_active h.sound h.seated.ordered).mp hother
    exact mem_voterIds_of_isVoter (h.seated.active member hmember hactive)
  · rw [length_map, h.full]
    exact card_voterIds_le _

/-- **The rollover finishes, and leaves every voter three free slots.** -/
theorem resumes [CollisionFree] (h : c.Checkpointed event) (done : outcome.Done) :
    (∃ result, (c.resumeRolloverLocked outcome).2 = .ok result) ∧
      (c.resumeRolloverLocked outcome).1.pendingAnchor = none ∧
      Reserved (c.resumeRolloverLocked outcome).1.set.supplied ∧
      (c.resumeRolloverLocked outcome).1.Compacted := by
  have hlength := h.publications_length done
  have hrequired : c.requiredParticipants = voterCount c.set.authority.topology := by
    simp [requiredParticipants, h.normal, superseding, h.pending]
  have hpublished : checkAnchorQuorum c.recoveryOnly c.requiredParticipants (c.publications outcome)
      ((c.publications outcome).map memberId) = .ok true := by
    unfold checkAnchorQuorum
    rw [if_neg (by rw [length_map, hlength, hrequired]; omega), h.normal]
    exact h.anchorQuorum done fun publication hmem => mem_map_of_mem hmem
  have hreclaimed : checkAnchorQuorum false c.set.authority.topology.quorum
      (c.publications outcome) (c.cutMembers outcome) = .ok true := by
    unfold checkAnchorQuorum
    have hmany : (c.publications outcome).length ≤ (c.cutMembers outcome).length := by
      have hsub : (c.publications outcome).map memberId ⊆ c.cutMembers outcome := by
        intro memberId hmemberId
        obtain ⟨publication, hpublication, rfl⟩ := mem_map.mp hmemberId
        exact h.reclaims done hpublication
      simpa using (subperm_of_subset (publications_distinct h.seated.ordered outcome)
        hsub).length_le
    have hquorum := h.seated.fits h.normal
    rw [h.seated.quorum] at hquorum
    rw [if_neg (by omega)]
    exact h.anchorQuorum done fun publication hmem => h.reclaims done hmem
  have hrolled : ∀ member ∈ c.set.supplied, (c.rolls outcome member).Reserve 1 ∧
      (member.Active → (c.rolls outcome member).Reserve 3) := by
    intro member hmember
    have hthree : member.Active → (c.rolls outcome member).Reserve 3 := by
      rintro ⟨journal, hseat⟩
      obtain ⟨found, hfound, htail, _⟩ := h.publishes done hmember hseat
      exact (rolledOver_reserve h.sound h.seated.ordered done hmember (h.kept member hmember)).2
        journal found hseat htail hfound
    refine ⟨?_, hthree⟩
    by_cases hactive : member.Active
    · exact (hthree hactive).mono (by decide)
    · exact (rolledOver_reserve h.sound h.seated.ordered done hmember
        (h.idle member hmember hactive)).1
  have hfinished : c.resumeRolloverLocked outcome = ({ c.rolledOver outcome with
         set := (c.rolledOver outcome).set.noteControlReclaimed (c.cutMembers outcome)
         reclaimRequired := false
         pendingAnchor := none },
        .ok ⟨c.cutMembers outcome, decide ((c.cutMembers outcome).length ≠ c.requiredParticipants)⟩)
          := by
    unfold resumeRolloverLocked
    simp only [h.required, not_true_eq_false, if_false]
    rw [if_neg (by rw [hrequired, h.full]; omega), hpublished]
    unfold finishRollover
    have hnormal : (c.published outcome).recoveryOnly = false := h.normal
    have hkept : checkAnchorQuorum (c.published outcome).recoveryOnly
        (if (c.published outcome).recoveryOnly then 1
          else (c.published outcome).set.authority.topology.quorum)
        (c.publications outcome) (c.cutMembers outcome) = .ok true := by
      rw [hnormal]
      exact hreclaimed
    unfold cutMembers published at hkept
    simp only [hkept]
    rfl
  rw [hfinished]
  refine ⟨⟨_, rfl⟩, rfl, ?_, fun memberId hvoter => ?_⟩
  · intro member hmember
    obtain ⟨noted, hnoted, rfl⟩ := mem_map.mp hmember
    obtain ⟨middle, hmiddle, rfl⟩ := mem_map.mp hnoted
    obtain ⟨forgot, hforgot, rfl⟩ := mem_map.mp hmiddle
    obtain ⟨before, hbefore, rfl⟩ := mem_map.mp hforgot
    exact (hrolled before hbefore).1.relabel rfl fun seat hseat => ⟨seat, hseat, rfl⟩
  · obtain ⟨member, hmember, rfl, hactive⟩ := h.voter_active hvoter
    refine ⟨_, mem_map_of_mem (mem_map_of_mem (mem_map_of_mem (mem_map_of_mem hmember))), ?_, ?_⟩
    · exact (reclaimTo_id _ _ _).trans (publishTo_id _ _ _)
    · exact ((hrolled member hmember).2 hactive).relabel rfl fun seat hseat => ⟨seat, hseat, rfl⟩

end Checkpointed

variable {c after : ReplicatedJournal} {error diverged : CoordinatorError}
  {required : Nat} {proposal : Record} {append outcome : Id → WriteOutcome} {items : List Item}
  {prepareOne : Participant → Except CoordinatorError Item} {result : CommitResult}

theorem acks_length (sound : SoundMembers c.set.supplied) (ordered : c.Ordered) {append : Append}
    (hid : ∀ participant item, prepareOne participant = .ok item →
      item.memberId = participant.memberId) {shared : Option Digest} {targets : List Participant}
        (hitems : prepareAll prepareOne diverged shared targets = .ok items)
    (writes : ∀ member ∈ c.set.supplied, WritesPrepared append member items)
    (hsub : targets.Sublist c.participants)
    (done : ∀ memberId, outcome memberId = .done) :
    (c.acks append items outcome).length = targets.length := by
  have hperm : ((c.acks append items outcome).map Ack.memberId).Perm
      (targets.map Participant.memberId) := by
    refine (perm_ext_iff_of_nodup (acks_distinct ordered _ _ _)
      ((participants_distinct ordered).sublist (hsub.map _))).mpr fun memberId => ?_
    constructor
    · intro hreport
      obtain ⟨item, hitem, rfl⟩ := acks_item hreport
      obtain ⟨participant, hparticipant, hone⟩ := prepareAll_mem hitems item hitem
      exact mem_map.mpr ⟨participant, hparticipant, (hid _ _ hone).symm⟩
    · intro htarget
      obtain ⟨participant, hparticipant, rfl⟩ := mem_map.mp htarget
      obtain ⟨item, hitem, hone⟩ := prepareAll_complete hitems participant hparticipant
      obtain ⟨member, hmember, seat, hseat, rfl⟩ := participants_mem (hsub.subset hparticipant)
      cases hfind : items.find? (fun item => item.memberId = member.id) with
      | none => exact absurd (hid _ _ hone) (by simpa using find?_eq_none.mp hfind item hitem)
      | some found =>
        exact mem_map.mpr ⟨_, (mem_acks sound ordered writes).mpr
          ⟨member, hmember, by simp [hseat], found, hfind, done _, rfl⟩, rfl⟩
  simpa using hperm.length_eq

/-! ## The whole rollover -/

section

variable {append : Append} {event : Digest} (h : Phase c append items event)
  (done : ∀ memberId, outcome memberId = .done)
include h done

/-- A phase whose writes succeed leaves the same members active. -/
theorem Phase.active_length (sound : SoundMembers after.set.supplied) (ordered : after.Ordered)
    (same : contents after.set.supplied =
      contents (c.appendAll append true items outcome).set.supplied) :
    after.activeParticipants.length = c.activeParticipants.length := by
  refine ReplicatedJournal.active_length h.sound h.ordered sound ordered fun memberId => ?_
  constructor
  · rintro ⟨member, hmember, rfl, journal, hseat⟩
    obtain ⟨noted, hnoted, hmem, hsame⟩ := mem_of_contents same hmember
    obtain ⟨before, hbefore, hid, hactive⟩ := h.active_before outcome hnoted (hsame.trans hseat)
    exact ⟨before, hbefore, hid.trans (congrArg (fun found => found.header.memberId) hmem), hactive⟩
  · rintro ⟨before, hbefore, rfl, hactive⟩
    obtain ⟨item, _, journal, hafter, _⟩ := h.stays_active hbefore hactive (done _)
    obtain ⟨member, hmember, hmem, hsame⟩ := mem_of_contents same.symm (mem_map_of_mem hbefore)
    refine ⟨member, hmember, ?_, journal.advance item.prepared, hsame.trans ?_⟩
    · exact (congrArg (fun found => found.header.memberId) hmem).trans
        (h.appended outcome hbefore).id
    · rw [hafter]

end

omit [Blake3] in
/-- A full set of voters has voters, and all of them are targets. -/
theorem requireFullVoterSet_targets (h : c.requireFullVoterSet required true = .ok ()) :
    0 < voterCount c.set.authority.topology ∧
      c.activeParticipants.length = voterCount c.set.authority.topology ∧
      (c.targets required).length = voterCount c.set.authority.topology := by
  have hroom := requireFullVoterSet_room h
  simp only [requireFullVoterSet, ok_iff] at h
  obtain ⟨hvoters, hfull, _⟩ := h
  refine ⟨?_, not_not.mp hfull, ?_⟩
  · by_contra hzero
    exact hvoters ⟨trivial, by omega, by omega⟩
  · rw [← not_not.mp hfull, targets, List.filter_eq_self.mpr hroom]

/-- What a checkpoint that was committed has done. -/
theorem commitAuthorityCheckpointLocked_ok
    (h : c.commitAuthorityCheckpointLocked proposal required outcome = (after, .ok result)) :
    ∃ items, c.prepareCheckpoint proposal required = .ok items ∧
      (∃ first ∈ c.beginControlMutation.acks appendPreparedCheckpoint items
        outcome, result.record = first.result.record) ∧
      contents after.set.supplied = contents (c.beginControlMutation.appendAll
        appendPreparedCheckpoint true items outcome).set.supplied ∧
      after.set.authority.topology = c.set.authority.topology ∧
      after.recoveryOnly = c.recoveryOnly := by
  unfold commitAuthorityCheckpointLocked at h
  split at h
  · simp at h
  rename_i items hitems
  unfold finishCheckpoint at h
  simp only at h
  split at h
  · simp at h
  rename_i first hfirst
  split at h
  · simp at h
  cases h
  exact ⟨items, hitems, ⟨first, mem_of_head? hfirst, rfl⟩, noteAuthority_contents _ _ _, rfl, rfl⟩

section

variable (sound : SoundMembers c.set.supplied)
include sound

/-- **A rollover that wrote its checkpoint is ready to publish it.** -/
theorem commitCheckpoint_checkpointed (seated : c.Seated) (h : Reserved c.set.supplied)
    (numbers : ∀ member ∈ c.set.supplied, member.member.header.headerSequence ≠ maxU64)
    (full : c.requireFullVoterSet 1 true = .ok ()) (done : ∀ memberId, append memberId = .done)
    (hcommit : c.commitAuthorityCheckpointLocked proposal 1 append = (after, .ok result)) :
    Checkpointed { after with
      reclaimRequired := true, pendingAnchor := some result.record.historyDigest }
      result.record.historyDigest := by
  have hturns := commitAuthorityCheckpointLocked_turns True c proposal 1 append
  have hsound := Turns.sound hturns sound
  have hseated := Turns.seated hturns seated
  rw [hcommit] at hsound hseated
  obtain ⟨items, hitems, ⟨first, hfirst, hrecord⟩, hcontents, htopology, hmode⟩ :=
    commitAuthorityCheckpointLocked_ok hcommit
  obtain ⟨event, phase⟩ := prepareCheckpoint_phase sound seated.ordered
    (requireFullVoterSet_room full) hitems
  have hevent : event = result.record.historyDigest := by
    rw [hrecord]
    exact (phase.report_event hfirst).symm
  have hreserve := checkpointed_reserve sound.distinct h hitems done
  simp only [prepareCheckpoint, ok_iff] at hitems
  obtain ⟨_, hnormal, _, prepared, hprepare, _, rfl⟩ := hitems
  obtain ⟨hpos, hfull, _⟩ := requireFullVoterSet_targets full
  have hlength : after.activeParticipants.length = voterCount c.set.authority.topology := by
    rw [phase.active_length done hsound hseated.ordered hcontents, beginControlMutation_active]
    exact hfull
  refine ⟨hsound, hseated.narrow_same (.of_contents rfl rfl rfl rfl rfl) rfl, ?_, rfl, rfl, ?_, ?_,
    ?_, ?_, ?_⟩
  · exact hmode.trans (by simpa using hnormal)
  · exact hlength.trans (congrArg voterCount htopology).symm
  · exact hlength.symm ▸ hpos
  · intro member hmember hidle
    obtain ⟨noted, hnoted, hsame, hseat⟩ := mem_of_contents hcontents hmember
    refine ((hreserve noted hnoted).2.2 fun item hitem hid => hidle ?_).relabel hsame.symm
      fun seat hfound => ⟨seat, hseat.trans hfound, rfl⟩
    -- a member with a record is active
    obtain ⟨before, hbefore, rfl⟩ := mem_map.mp hnoted
    obtain ⟨_, _, journal, hafter, _⟩ := phase.stays_active hbefore (phase.active before hbefore
      item hitem (hid.trans (phase.appended append hbefore).id)) (done _)
    exact ⟨journal.advance _, by rw [← hseat, hafter]⟩
  · intro member hmember
    obtain ⟨noted, hnoted, hsame, hseat⟩ := mem_of_contents hcontents hmember
    exact (hreserve noted hnoted).2.1.relabel hsame.symm fun seat hfound =>
      ⟨seat, hseat.trans hfound, rfl⟩
  · intro member hmember journal hactive
    obtain ⟨noted, hnoted, hsame, hseat⟩ := mem_of_contents hcontents hmember
    obtain ⟨before, hbefore, rfl⟩ := mem_map.mp hnoted
    obtain ⟨item, hitem, opened, hafter, hwritable⟩ := phase.stays_active hbefore
      ((phase.appended append hbefore).active (hseat.trans hactive)) (done _)
    obtain ⟨participant, _, hone⟩ := prepareAll_mem hprepare item hitem
    obtain ⟨_, _, _, snapshot, hsnapshot⟩ := checkpointItem_checked hone
    simp only [validateRecord, ok_iff, not_or, not_not] at hsnapshot
    obtain ⟨root, hroot, _, _, ⟨hsame', _⟩, rfl⟩ := hsnapshot
    rw [← hsame]
    obtain rfl : opened.advance item.prepared = journal := by
      rw [hafter] at hseat
      simpa using hseat.trans hactive
    refine ⟨?_, ?_, item.prepared.record, root, by simp, ?_, ?_, hroot, ?_⟩
    · rw [hafter]
      simpa using hwritable
    · obtain ⟨forgot, hforgot, rfl⟩ := mem_map.mp hbefore
      rw [hafter]
      simpa using numbers forgot hforgot
    · simp only [validateCompactedRootRecord, ok_iff] at hroot
      exact not_not.mp hroot.1
    · exact (phase.events item hitem).trans hevent
    · exact hsame'.trans htopology.symm

/-- A checkpoint that was prepared on all voters is committed on all of them when the writes
succeed. -/
theorem commitAuthorityCheckpointLocked_done
    (ordered : c.Ordered) (full : c.requireFullVoterSet required true = .ok ())
    (proposal : Record) (done : ∀ memberId, append memberId = .done) :
    (∃ e, c.commitAuthorityCheckpointLocked proposal required append =
        (c, .error e) ∧ c.prepareCheckpoint proposal required = .error e) ∨
      ∃ after result, c.commitAuthorityCheckpointLocked proposal required append =
          (after, .ok result) ∧
        result.committedMembers.length = voterCount after.set.authority.topology := by
  obtain ⟨hpos, _, htargets⟩ := requireFullVoterSet_targets full
  unfold commitAuthorityCheckpointLocked
  rcases hitems : c.prepareCheckpoint proposal required with e | items
  · exact .inl ⟨e, rfl, rfl⟩
  refine .inr ?_
  have hlength : (c.beginControlMutation.acks appendPreparedCheckpoint items
      append).length = (c.targets required).length ∧
      c.quorum ≤ (c.targets required).length := by
    simp only [prepareCheckpoint, ok_iff] at hitems
    obtain ⟨_, _, _, prepared, hprepare, hquorum, rfl⟩ := hitems
    have hsound := beginControlMutation_sound sound
    refine ⟨acks_length hsound (beginControlMutation_ordered ordered)
      (fun _ _ hok => (checkpointItem_checked hok).1) hprepare
      (checkpoint_writes hsound (fun _ hp => begun_participants hp) hprepare) ?_ done,
      by omega⟩
    rw [beginControlMutation_participants]
    exact filter_sublist.trans filter_sublist
  obtain ⟨hall, hquorum⟩ := hlength
  unfold finishCheckpoint
  simp only
  split
  · rename_i hnone
    rw [head?_eq_none_iff.mp hnone] at hall
    simp only [length_nil] at hall
    omega
  · rw [if_neg (by omega)]
    refine ⟨_, _, rfl, ?_⟩
    rw [length_map, hall, htargets]
    rfl

/-- **A rollover whose writes succeed is refused before it writes, or it finishes and leaves every
voter three free slots.** -/
theorem rolloverAuthorityCheckpoint_reserved [CollisionFree]
    (seated : c.Seated) (h : Reserved c.set.supplied) (nothing : c.pendingAnchor = none)
    (numbers : ∀ member ∈ c.set.supplied, member.member.header.headerSequence ≠ maxU64)
    (proposal : Record) (appended : ∀ memberId, append memberId = .done) {outcome : RolloverOutcome}
    (done : outcome.Done) :
    (c.rolloverAuthorityCheckpoint proposal append outcome).1.pendingAnchor = none ∧
      Reserved (c.rolloverAuthorityCheckpoint proposal append outcome).1.set.supplied ∧
      ∀ result, (c.rolloverAuthorityCheckpoint proposal append outcome).2 = .ok result →
        (c.rolloverAuthorityCheckpoint proposal append outcome).1.Compacted := by
  unfold rolloverAuthorityCheckpoint
  split
  · exact ⟨nothing, h, by simp⟩
  split
  · exact ⟨nothing, h, by simp⟩
  split
  · exact ⟨nothing, h, by simp⟩
  rename_i hfull
  rcases commitAuthorityCheckpointLocked_done sound seated.ordered hfull proposal appended with
    ⟨e, hcommit, _⟩ | ⟨after, result, hcommit, hall⟩
  · simp only [hcommit]
    exact ⟨nothing, h, by simp⟩
  · have hpending := commitCheckpoint_checkpointed sound seated h numbers hfull appended hcommit
    obtain ⟨⟨resumed, hresumed⟩, hnothing, hreserved, hthree⟩ := hpending.resumes done
    simp only [hcommit, hall, ne_eq, not_true_eq_false, if_false]
    revert hresumed hnothing hreserved hthree
    cases hresult : resumeRolloverLocked { after with
        reclaimRequired := true,
        pendingAnchor := some result.record.historyDigest } outcome with
    | mk finished answer =>
      rintro rfl hnothing hreserved hthree
      exact ⟨hnothing, hreserved, fun _ _ => hthree⟩

end

/-! ## Refused rollovers -/

/-- A journal that is not full does not refuse a record as full. -/
theorem prepareLocked_not_full (free : journal.scanState.journalFull = false)
    (member : Member) (token : TailToken) (proposal : Record) :
    prepareLocked journal member token proposal ≠ .error .journalFull := by
  intro h
  simp only [prepareLocked, checkAppend, Member.checkWritable, tailToken,
    bind_eq_error, ok_iff, rejectIf_eq_error, withError_eq_error, free] at h
  simp at h

omit [Blake3] in
/-- The prepare loop fails with the error of a target, or because the targets diverge. -/
theorem prepareAll_error {participants : List Participant} :
    ∀ {shared : Option Digest}, prepareAll prepareOne diverged shared participants = .error error →
      error = diverged ∨ ∃ participant ∈ participants, prepareOne participant = .error error := by
  induction participants with
  | nil => intro shared h; simp [prepareAll] at h
  | cons first rest ih =>
    intro shared h
    simp only [prepareAll, bind_eq_error, rejectIf_eq_error, rejectIf_eq_ok] at h
    rcases h with hone | ⟨made, hmade, ⟨_, rfl⟩ | ⟨_, _, hrest | ⟨_, _, hnone⟩⟩⟩
    · exact .inr ⟨first, List.mem_cons_self, hone⟩
    · exact .inl rfl
    · rcases ih hrest with rfl | ⟨participant, hparticipant, hone⟩
      · exact .inl rfl
      · exact .inr ⟨participant, List.mem_cons_of_mem _ hparticipant, hone⟩
    · cases hnone

/-- The operation was refused because a journal has no room for it. -/
def LacksRoom (error : CoordinatorError) : Prop :=
  error = .insufficientJournalCapacity ∨ error = .journal .journalFull

/-- A checkpoint of one participant that has a free slot is not refused for lack of room. -/
theorem checkpointItem_room {context : AuthorityContext} {participant : Participant}
    (free : participant.claimed.journal.scanState.journalFull = false)
    (h : checkpointItem context proposal participant = .error error) : ¬ LacksRoom error := by
  simp only [checkpointItem, bind_eq_error, withError_eq_error] at h
  rintro (rfl | rfl)
  · simp at h
  · rcases h with ⟨e, htoken, hfull⟩ | ⟨token, _, ⟨e, hprepare, hfull⟩ | ⟨_, _, hformat⟩⟩
    · obtain rfl := journal.inj hfull
      simp [tailToken] at htoken
    · obtain rfl := journal.inj hfull
      simp only [prepareCheckpointExact, bind_eq_error, rejectIf_eq_error] at hprepare
      rcases hprepare with ⟨_, hother⟩ | ⟨_, _, hlocked⟩
      · cases hother
      · exact prepareLocked_not_full free _ _ _ hlocked
    · simp at hformat

theorem prepareCheckpoint_room (seated : c.Seated) (h : Reserved c.set.supplied)
    (full : c.requireFullVoterSet required true = .ok ())
    (hrefused : c.prepareCheckpoint proposal required = .error error) :
    ¬ LacksRoom error := by
  simp only [prepareCheckpoint, bind_eq_error, rejectIf_eq_error, rejectIf_eq_ok] at hrefused
  rcases hrefused with ⟨_, rfl⟩ | ⟨_, _, ⟨_, rfl⟩ | ⟨_, hnormal, ⟨_, rfl⟩ | ⟨_, _, hrest⟩⟩⟩
  · simp [LacksRoom]
  · simp [LacksRoom]
  · simp [LacksRoom]
  rcases hrest with hprepare | ⟨items, _, ⟨hfew, _⟩ | ⟨_, _, hnone⟩⟩
  · rcases prepareAll_error hprepare with rfl | ⟨participant, hparticipant, hone⟩
    · simp [LacksRoom]
    · refine checkpointItem_room ?_ hone
      obtain ⟨member, hmember, seat, hseat, rfl⟩ := participants_mem (targets_mem hparticipant)
      obtain ⟨log, anchor, spare⟩ := h member hmember
      exact spare_not_full spare hseat
  · -- all voters are targets, and they are a quorum
    have hall := (requireFullVoterSet_targets full).2.2
    have hfits := seated.fits (by simpa using hnormal)
    omega
  · cases hnone

theorem commitAuthorityCheckpointLocked_room (seated : c.Seated) (h : Reserved c.set.supplied)
    (full : c.requireFullVoterSet required true = .ok ())
    (hrefused : (c.commitAuthorityCheckpointLocked proposal required append).2 = .error error) :
    ¬ LacksRoom error := by
  unfold commitAuthorityCheckpointLocked at hrefused
  split at hrefused
  · rename_i e hprepare
    cases hrefused
    exact prepareCheckpoint_room seated h full hprepare
  unfold finishCheckpoint at hrefused
  simp only at hrefused
  split at hrefused
  · cases hrefused
    simp [LacksRoom]
  split at hrefused
  · cases hrefused
    simp [LacksRoom]
  · cases hrefused

theorem checkAnchorQuorum_error {recoveryOnly : Bool} {published : List Publication}
    (h : checkAnchorQuorum recoveryOnly required published successes = .error error) :
    ∃ e, error = .format e := by
  have hamong : ∀ candidates, anchorQuorumAmong published successes candidates = .error error →
      ∃ e, error = .format e := by
    intro candidates
    induction candidates with
    | nil => intro hnone; cases hnone
    | cons first rest ih =>
      intro hcandidates
      simp only [anchorQuorumAmong] at hcandidates
      split at hcandidates
      · exact ih hcandidates
      simp only [bind_eq_error, withError_eq_error] at hcandidates
      rcases hcandidates with ⟨e, _, rfl⟩ | ⟨snapshot, _, hrest⟩
      · exact ⟨e, rfl⟩
      · split at hrest
        · cases hrest
        · exact ih hrest
  unfold checkAnchorQuorum at h
  split at h
  · cases h
  · split at h
    · cases h
    · exact hamong published h

theorem resumeRolloverLocked_room {outcome : RolloverOutcome}
    (h : (c.resumeRolloverLocked outcome).2 = .error error) : ¬ LacksRoom error := by
  unfold resumeRolloverLocked at h
  simp only at h
  split at h
  · cases h
    simp [LacksRoom]
  split at h
  · cases h
    simp [LacksRoom]
  split at h
  · rename_i e hcheck
    cases h
    obtain ⟨_, rfl⟩ := checkAnchorQuorum_error hcheck
    simp [LacksRoom]
  · cases h
    simp [LacksRoom]
  · unfold finishRollover at h
    simp only at h
    split at h
    · rename_i e hcheck
      cases h
      obtain ⟨_, rfl⟩ := checkAnchorQuorum_error hcheck
      simp [LacksRoom]
    · cases h
      simp [LacksRoom]
    · cases h

/-- **While every member has a free slot no rollover is refused for lack of room.** -/
theorem rolloverAuthorityCheckpoint_room (seated : c.Seated) (h : Reserved c.set.supplied)
    {outcome : RolloverOutcome}
    (hrefused : (c.rolloverAuthorityCheckpoint proposal append outcome).2 = .error error) :
    ¬ LacksRoom error := by
  unfold rolloverAuthorityCheckpoint at hrefused
  split at hrefused
  · cases hrefused
    simp [LacksRoom]
  split at hrefused
  · cases hrefused
    simp [LacksRoom]
  split at hrefused
  · rename_i e hfull
    cases hrefused
    simp only [requireFullVoterSet, bind_eq_error, rejectIf_eq_error] at hfull
    rcases hfull with ⟨_, rfl⟩ | ⟨_, _, ⟨_, rfl⟩ | ⟨_, _, ⟨participant, hparticipant, hfew⟩, _⟩⟩
    · simp [LacksRoom]
    · simp [LacksRoom]
    obtain ⟨member, hmember, seat, hseat, rfl⟩ :=
      participants_mem (mem_filter.mp hparticipant).1
    rw [(h member hmember).hasAppendCapacity hseat] at hfew
    cases hfew
  · rename_i hfull
    split at hrefused
    · rename_i after e hresult
      cases hrefused
      exact commitAuthorityCheckpointLocked_room seated h hfull (congrArg snd hresult)
    split at hrefused
    · cases hrefused
      simp [LacksRoom]
    simp only at hrefused
    split at hrefused
    · rename_i finished e hresumed
      cases hrefused
      exact resumeRolloverLocked_room (congrArg snd hresumed)
    · cases hrefused

end Zettide.ReplicatedJournal
