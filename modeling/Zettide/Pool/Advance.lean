import Zettide.Pool.Standing

/-! # Operations keep a coordinator standing

One lemma for each operation: a coordinator that stands at its authority stands at the new one
afterwards, whether the operation succeeds or not, as long as every active participant has room for
what the operation writes. -/

namespace Zettide.ReplicatedJournal

open PoolTopology List Option PoolMemberSet Journal Member

variable [Blake3]

/-- Every active participant has the given number of free slots. -/
def HasRoom (coordinator : ReplicatedJournal) (required : Nat) : Prop :=
  ∀ participant ∈ coordinator.activeParticipants,
    participant.claimed.journal.hasAppendCapacity required = true

instance (coordinator : ReplicatedJournal) (required : Nat) :
    Decidable (coordinator.HasRoom required) :=
  inferInstanceAs (Decidable (∀ participant ∈ _, _ = true))

/-- What an operation leaves. -/
structure Leaves (after : ReplicatedJournal) (succeeded : Prop) : Prop where
  standing : after.Standing
  stands : succeeded → ∀ member ∈ after.set.supplied,
    member.At after.set.authority.historyDigest

/-- The event is the last one on the disk of every voter. -/
def HeldByVoters (coordinator : ReplicatedJournal) (event : Digest) : Prop :=
  ∀ memberId, isVoter coordinator.set.authority.topology memberId = true →
    ∃ member ∈ coordinator.set.supplied, member.id = memberId ∧ member.member.storage.EndsWith event

/-- What a commit leaves: when it says that it is not degraded, every voter has the record. -/
structure Commits (after : ReplicatedJournal) (result : Except CoordinatorError CommitResult) :
    Prop extends Leaves after (∃ committed, result = .ok committed) where
  held : ∀ committed, result = .ok committed → committed.degraded = false →
    after.HeldByVoters committed.record.historyDigest

variable {c after : ReplicatedJournal} {required : Nat} {items commitItems : List Item}
  {event : Digest} {proposal : Record} {outcome : RolloverOutcome} {append : Append}
  {prepareOutcome commitOutcome : Id → WriteOutcome} {participant : Participant} {memberId : Id}
  {claimed : Claimed} {published : List Publication} {diverged : CoordinatorError}
  {shared : Option Digest} {result : CommitResult}

section

variable (h : c.Standing)
include h

/-- An operation that failed in a standing coordinator. -/
theorem Standing.fails (error : CoordinatorError) : Commits c (.error error) where
  standing := h
  stands := by simp
  held := by simp

theorem Standing.freeze : c.freeze.Standing := h.congr rfl rfl

theorem Standing.afterError (error : CoordinatorError) : (c.afterError error).Standing := by
  unfold ReplicatedJournal.afterError
  split
  · exact h.freeze
  · exact h

/-- Forgetting what was scanned makes a coordinator unready. -/
theorem Standing.begin : c.beginControlMutation.Standing :=
  .unready (beginControlMutation_sound h.sound) (beginControlMutation_ordered h.ordered) rfl

theorem Standing.begunVoters (ready : c.set.controlWrite.isSome) :
    ∀ member ∈ c.beginControlMutation.set.supplied, ∀ journal, member.seat = some ⟨journal, true⟩ →
        isVoter c.set.authority.topology member.id = true := by
  intro member hmember journal hactive
  obtain ⟨forgot, hforgot, rfl⟩ := mem_map.mp hmember
  exact h.voters ready forgot hforgot journal hactive

end

/-! ## Targets -/

omit [Blake3] in
theorem beginControlMutation_active (c : ReplicatedJournal) :
    c.beginControlMutation.activeParticipants = c.activeParticipants := by
  unfold activeParticipants
  rw [beginControlMutation_participants]

/-- The first phase of an operation whose targets are the active participants. -/
theorem targets_phase
    (sound : SoundMembers c.set.supplied) (ordered : c.Ordered) (room : c.HasRoom required)
    {prepareOne : Participant → Except CoordinatorError Item}
    (hid : ∀ participant item, prepareOne participant = .ok item →
      item.memberId = participant.memberId)
    (hitems : prepareAll prepareOne diverged shared (c.targets required) = .ok items)
    (writes : ∀ member ∈ c.beginControlMutation.set.supplied, WritesPrepared append member items)
    (kept : ∀ outcome, SoundMembers (c.beginControlMutation.appendAll append true items
      outcome).set.supplied) :
    ∃ event, Phase c.beginControlMutation append items event := by
  refine phase_of_prepared (beginControlMutation_sound sound)
    (beginControlMutation_ordered ordered) hid hitems writes kept ?_ ?_
  · rw [beginControlMutation_active]
    exact fun participant hparticipant => targets_active hparticipant
  · rw [beginControlMutation_active]
    exact fun participant h => mem_filter.mpr ⟨h, room participant h⟩

/-! ## Generation commits -/

/-- What a generation commit that succeeded did. -/
structure GenerationCommit (coordinator : ReplicatedJournal) (proposal : Record)
    (prepareOutcome commitOutcome : Id → WriteOutcome) (items commitItems : List Item)
    (first : Ack) (after : ReplicatedJournal) (result : CommitResult) : Prop where
  prepared : coordinator.prepareGeneration proposal = .ok items
  commit : (coordinator.beginControlMutation.appendAll appendPrepared true items
    prepareOutcome).prepareGenerationCommit (coordinator.beginControlMutation.acks
      appendPrepared items prepareOutcome) = .ok commitItems
  head : ((coordinator.beginControlMutation.appendAll appendPrepared true items
    prepareOutcome).acks appendPrepared commitItems commitOutcome).head? = some first
  after_eq : after =
    let prepared := coordinator.beginControlMutation.appendAll appendPrepared true items
      prepareOutcome
    let committed := prepared.appendAll appendPrepared true commitItems commitOutcome
    { committed with
      set := committed.set.noteCommittedGeneration first.result.record
        ((prepared.acks appendPrepared commitItems commitOutcome).map Ack.memberId) }
  record : result.record = first.result.record
  witnesses : result.prepareWitnessMembers = ((coordinator.beginControlMutation.acks
    appendPrepared items prepareOutcome).take coordinator.quorum).map Ack.memberId
  degraded : result.degraded = decide (((coordinator.beginControlMutation.appendAll
    appendPrepared true items prepareOutcome).acks appendPrepared commitItems
      commitOutcome).length < items.length)

theorem commitGenerationLocked_ok
    (h : c.commitGenerationLocked proposal prepareOutcome commitOutcome = (after, .ok result)) :
    ∃ items commitItems first, GenerationCommit c proposal prepareOutcome commitOutcome
      items commitItems first after result := by
  unfold commitGenerationLocked at h
  rcases hprepare : c.prepareGeneration proposal with _ | items
  · simp [hprepare] at h
  simp only [hprepare] at h
  split at h
  · simp at h
  split at h
  · simp at h
  rename_i commitItems hcommit
  unfold finishGeneration at h
  simp only at h
  split at h
  · simp at h
  rename_i first hfirst
  split at h
  · simp at h
  · cases h
    exact ⟨items, commitItems, first, hprepare, hcommit, hfirst, rfl, rfl, rfl, rfl⟩

/-- The same for records that are written as they were prepared. -/
theorem exact_phase (h : c.Standing) (room : c.HasRoom required) {record : Record}
    (hitems : prepareAll (prepareItem record) diverged shared (c.targets required) = .ok items) :
    ∃ event, Phase c.beginControlMutation appendPrepared items event := by
  have hsound := beginControlMutation_sound h.sound
  refine targets_phase h.sound h.ordered room
    (fun _ _ hok => ((prepareItem_exact record).prepared _ _ hok).1) hitems
    (exact_writes hsound (fun _ hp => begun_participants hp) (prepareItem_exact record) hitems)
    fun outcome => ?_
  exact appendExact_sound hsound (fun _ hp => begun_participants hp) (prepareItem_exact record)
    hitems true outcome

theorem prepareGeneration_phase (h : c.Standing) (room : c.HasRoom 3)
    (hprepare : c.prepareGeneration proposal = .ok items) :
    ∃ event, Phase c.beginControlMutation appendPrepared items event := by
  simp only [prepareGeneration, ok_iff] at hprepare
  obtain ⟨_, _, _, _, _, _, hitems⟩ := hprepare
  exact exact_phase h room hitems

/-- The second phase of a generation commit is one for those who reported the first. -/
theorem Phase.commit (h : Phase c appendPrepared items event) {outcome : Id → WriteOutcome}
    (hcommit : (c.appendAll appendPrepared true items
      outcome).prepareGenerationCommit (c.acks appendPrepared items outcome) = .ok commitItems) :
    ∃ event, Phase (c.appendAll appendPrepared true items outcome)
      appendPrepared commitItems event := by
  have sound := h.kept outcome
  simp only [prepareGenerationCommit, ok_iff] at hcommit
  obtain ⟨first, _, certificate, _, hprepare⟩ := hcommit
  have hid := fun participant item hok =>
    ((commitItem_exact { first.result.record with
      kind := .generationCommit, payload := .certificate certificate }).prepared
        participant item hok).1
  refine phase_of_prepared sound (h.ordered_after outcome) hid hprepare
    (exact_writes sound (fun _ hp => (mem_filter.mp hp).1) (commitItem_exact _) hprepare)
    (appendExact_sound sound (fun _ hp => (mem_filter.mp hp).1) (commitItem_exact _) hprepare true)
    (fun participant hparticipant => ?_) fun participant hparticipant => ?_
  · obtain ⟨hmem, hreported⟩ := mem_filter.mp hparticipant
    refine mem_filter.mpr ⟨hmem, ?_⟩
    obtain ⟨after, hafter, hsame, journal, hseat⟩ :=
      h.reported_active outcome (by simpa using hreported)
    obtain ⟨member, hmember, seat, hfound, rfl⟩ := participants_mem hmem
    obtain rfl : after = member := inj_on_of_nodup_map sound.distinct hafter hmember hsame
    obtain rfl := some.inj (hseat.symm.trans hfound)
    rfl
  · obtain ⟨member, hmember, journal, hseat, rfl⟩ := active_mem hparticipant
    refine mem_filter.mpr ⟨(mem_filter.mp hparticipant).1, ?_⟩
    simpa using reported_of_active h.sound h.ordered h.writes h.covered hmember hseat

/-- The coordinator after a phase that is not noted. -/
theorem Phase.unready (h : Phase c append items event)
    (unready : c.set.controlWrite = none) (outcome : Id → WriteOutcome) :
    (c.appendAll append true items outcome).Standing :=
  .unready (h.kept outcome) (h.ordered_after outcome) unready

/-- A generation commit that fails leaves the coordinator as it was, or unready. -/
theorem commitGenerationLocked_failed
    (h : c.Standing) (room : c.HasRoom 3) {error : CoordinatorError}
    (hresult : c.commitGenerationLocked proposal prepareOutcome commitOutcome =
      (after, .error error)) : after.Standing := by
  unfold commitGenerationLocked at hresult
  rcases hprepare : c.prepareGeneration proposal with _ | items
  · simp only [hprepare] at hresult
    cases hresult
    exact h
  obtain ⟨event, phase⟩ := prepareGeneration_phase h room hprepare
  have hprepared := phase.unready rfl prepareOutcome
  simp only [hprepare] at hresult
  split at hresult
  · cases hresult
    exact hprepared.freeze
  split at hresult
  · cases hresult
    exact hprepared.afterError _
  rename_i commitItems hcommit
  obtain ⟨_, second⟩ := phase.commit hcommit
  have hcommitted := second.unready rfl commitOutcome
  unfold finishGeneration at hresult
  simp only at hresult
  split at hresult
  · cases hresult
    exact hcommitted.freeze
  split at hresult
  · cases hresult
    exact hcommitted.freeze
  · simp at hresult

/-- **A generation commit that succeeds leaves the active participants at its commit; if it is not
degraded, every participant that was active has it.** -/
theorem GenerationCommit.stands {first : Ack}
    (gc : GenerationCommit c proposal prepareOutcome commitOutcome items commitItems
      first after result) (h : c.Standing)
    (ready : c.set.controlWrite.isSome) (room : c.HasRoom 3) :
    after.Standing ∧ after.set.authority.topology = c.set.authority.topology ∧
      after.set.authority.historyDigest = result.record.historyDigest ∧
      (result.degraded = false → ∀ member ∈ c.set.supplied, ∀ journal,
        member.seat = some ⟨journal, true⟩ → ∃ other ∈ after.set.supplied,
          other.id = member.id ∧ other.Active) := by
  obtain ⟨event, phase⟩ := prepareGeneration_phase h room gc.prepared
  obtain ⟨_, second⟩ := phase.commit gc.commit
  have hfirst := second.report_event (mem_of_head? gc.head)
  have hvoters : ∀ member ∈ (c.beginControlMutation.appendAll appendPrepared
      true items prepareOutcome).set.supplied, ∀ journal, member.seat = some ⟨journal, true⟩ →
      isVoter c.set.authority.topology member.id = true := by
    intro member hmember journal hactive
    obtain ⟨before, hbefore, hid, seat, hseat⟩ := phase.active_before prepareOutcome hmember hactive
    obtain ⟨forgot, hforgot, rfl⟩ := mem_map.mp hbefore
    rw [← hid]
    exact h.voters ready forgot hforgot seat hseat
  obtain rfl := gc.after_eq
  refine ⟨second.noted commitOutcome hfirst hvoters, rfl, by rw [gc.record]; rfl, ?_⟩
  intro hdegraded member hmember journal hseat
  rw [gc.degraded, decide_eq_false_iff_not, Nat.not_lt] at hdegraded
  -- as many participants reported as were asked
  have hreported : member.id ∈ ((c.beginControlMutation.appendAll
      appendPrepared true items prepareOutcome).acks appendPrepared commitItems
        commitOutcome).map Ack.memberId := by
    have hasked : member.id ∈ (items.map Item.memberId).toFinset := by
      obtain ⟨item, hitem, hid⟩ := phase.covered member.forgot
        (mem_map_of_mem hmember) journal hseat
      simpa using ⟨item, hitem, hid⟩
    refine mem_of_card_le (acks_distinct second.ordered _ _ _) (fun memberId hmem => ?_) ?_ hasked
    · obtain ⟨after, hafter, rfl, opened, hopened⟩ := second.reported_active commitOutcome hmem
      obtain ⟨middle, hmiddle, hmiddleId, _, hactive⟩ :=
        second.active_before commitOutcome hafter hopened
      obtain ⟨before, hbefore, hbeforeId, seat, hfound⟩ :=
        phase.active_before prepareOutcome hmiddle hactive
      obtain ⟨item, hitem, hid⟩ := phase.covered before hbefore seat hfound
      rw [← hmiddleId, ← hbeforeId, ← hid]
      simpa using ⟨item, hitem, rfl⟩
    · exact (toFinset_card_le _).trans (by simpa using hdegraded)
  obtain ⟨after, hafter, hid, opened, hopened⟩ := second.reported_active commitOutcome hreported
  exact ⟨_, mem_map_of_mem hafter, hid, opened, hopened⟩

/-! ## Catalog generations -/

/-- A catalog failure makes the coordinator unready. -/
theorem failCatalogMember_standing (h : c.Standing)
    (memberId : Id) : (c.failCatalogMember memberId).Standing := by
  refine .unready (setStatus_sound h.sound memberId .stale) ?_ rfl
  exact h.ordered.map rfl rfl (fun _ _ => by split <;> rfl) fun _ _ => by split <;> rfl

theorem failCatalogMembers_standing {memberIds : List Id} : ∀ {c : ReplicatedJournal}, c.Standing →
      (memberIds.foldl failCatalogMember c).Standing := by
  induction memberIds with
  | nil => exact fun h => h
  | cons memberId rest ih => exact fun h => ih (failCatalogMember_standing h memberId)

omit [Blake3] in
/-- A catalog failure changes no seat, no member and no authority. -/
theorem failCatalogMembers_same (memberIds : List Id) : ∀ c : ReplicatedJournal,
      (memberIds.foldl failCatalogMember c).set.authority = c.set.authority ∧
      contents (memberIds.foldl failCatalogMember c).set.supplied = contents c.set.supplied := by
  induction memberIds with
  | nil => exact fun _ => ⟨rfl, rfl⟩
  | cons memberId rest ih =>
    intro c
    obtain ⟨hauthority, hcontents⟩ := ih (c.failCatalogMember memberId)
    exact ⟨hauthority, hcontents.trans (setStatus_contents c.set.supplied memberId .stale)⟩

theorem failDataPublication_standing (h : c.Standing) : c.failDataPublication.Standing :=
  .unready h.sound ⟨h.ordered.distinct, h.ordered.seated⟩ rfl

/-- The voters of a set that takes catalog generations are active participants. -/
theorem Standing.catalogVoters (h : c.Standing) (hvoters : c.collectCatalogVoters = .ok ())
    (hvoter : isVoter c.set.authority.topology memberId = true) :
    ∃ member ∈ c.set.supplied, member.id = memberId ∧ member.Active := by
  simp only [collectCatalogVoters, ok_iff, not_exists, not_and, not_not] at hvoters
  obtain ⟨_, _, _, ready, hready, hactive⟩ := hvoters
  obtain ⟨descriptor, hfind, hrole⟩ := isVoter_iff.mp hvoter
  obtain ⟨hmem, rfl⟩ := findMember_eq_some hfind
  have hany := hactive descriptor hmem hrole
  obtain ⟨found, hfound, hstatus⟩ := (any_eq_true _ _).mp hany
  simp only [Bool.and_eq_true, decide_eq_true_eq] at hstatus
  have hlisted := hstatus.1.1.2
  rw [show found.id = descriptor.memberId by simpa using find?_some hfound] at hlisted
  exact h.listed ready hready _ hlisted

omit [Blake3] in
/-- Where the members stand is about members and seats only. -/
theorem at_of_contents {supplied after : List Supplied} (same : contents after = contents supplied)
    (h : ∀ member ∈ supplied, member.At event) : ∀ member ∈ after, member.At event := by
  intro member hmember
  obtain ⟨before, hbefore, hsame, hseat⟩ := mem_of_contents same hmember
  intro journal hactive
  rw [← hsame]
  exact h before hbefore journal (hseat.trans hactive)

/-- **A catalog generation keeps the coordinator standing.** -/
theorem commitCatalogGeneration_commits (h : c.Standing) (room : c.HasRoom 3) (proposal : Record)
    (stage : CatalogStage) (prepareOutcome commitOutcome : Id → WriteOutcome) :
    Commits (c.commitCatalogGeneration proposal stage prepareOutcome commitOutcome).1
      (c.commitCatalogGeneration proposal stage prepareOutcome commitOutcome).2 := by
  unfold commitCatalogGeneration
  split
  · exact h.fails _
  split
  · exact h.freeze.fails _
  rename_i hready
  have hready : c.set.controlWrite.isSome := not_not.mp hready
  split
  · exact h.fails _
  · exact h.fails _
  · exact (failDataPublication_standing h).fails _
  · exact (failCatalogMember_standing h _).fails _
  rename_i repairFailed hcheck
  split
  · rename_i after e hresult
    exact (failDataPublication_standing (commitGenerationLocked_failed h room hresult)).fails _
  rename_i after result hresult
  obtain ⟨items, commitItems, first, gc⟩ := commitGenerationLocked_ok hresult
  obtain ⟨hstanding, htopology, hevent, hall⟩ := gc.stands h hready room
  obtain ⟨hauthority, hcontents⟩ := failCatalogMembers_same repairFailed after
  have hnoted : after.set.controlWrite.isSome := by rw [gc.after_eq]; rfl
  refine ⟨⟨failCatalogMembers_standing hstanding, fun _ => ?_⟩, ?_⟩
  · rw [hauthority]
    exact at_of_contents hcontents (hstanding.stands hnoted)
  · intro committed hcommitted hdegraded memberId hvoter
    cases hcommitted
    simp only [checkCatalogGeneration, ok_iff] at hcheck
    obtain ⟨_, _, _, _, hvoters, _⟩ := hcheck
    rw [hauthority, htopology] at hvoter
    obtain ⟨member, hmember, rfl, journal, hseat⟩ := h.catalogVoters hvoters hvoter
    obtain ⟨other, hother, hid, opened, hopened⟩ :=
      hall hdegraded member hmember journal hseat
    have hends := (hstanding.stands hnoted other hother).endsWith
      (hstanding.sound.sound other hother) hopened
    obtain ⟨same, hsame, hmem, _⟩ := mem_of_contents hcontents.symm hother
    refine ⟨same, hsame, ?_, ?_⟩
    · rw [← hid, Supplied.id, Supplied.id, hmem]
    · rw [hmem, ← hevent]
      exact hends

/-! ## Checkpoints -/

theorem prepareCheckpoint_phase
    (sound : SoundMembers c.set.supplied) (ordered : c.Ordered) (room : c.HasRoom required)
    (hprepare : c.prepareCheckpoint proposal required = .ok items) :
    ∃ event, Phase c.beginControlMutation appendPreparedCheckpoint items event := by
  simp only [prepareCheckpoint, ok_iff] at hprepare
  obtain ⟨_, _, _, prepared, hitems, _, rfl⟩ := hprepare
  have hsound := beginControlMutation_sound sound
  exact targets_phase sound ordered room (fun _ _ hok => (checkpointItem_checked hok).1) hitems
    (checkpoint_writes hsound (fun _ hp => begun_participants hp) hitems)
    ((Prepared.checkpoint (fun _ => begun_participants) hitems).sound hsound true)

/-- What a checkpoint leaves: on success the participants that it names are active, and different
from each other. -/
structure Checkpoints (after : ReplicatedJournal) (topology : Topology)
    (result : Except CoordinatorError CommitResult) : Prop where
  standing : after.Standing
  ready : ∀ committed, result = .ok committed → after.set.controlWrite.isSome
  topology_eq : ∀ committed, result = .ok committed → after.set.authority.topology = topology
  event : ∀ committed, result = .ok committed →
    after.set.authority.historyDigest = committed.record.historyDigest
  distinct : ∀ committed, result = .ok committed → committed.committedMembers.Nodup
  active : ∀ committed, result = .ok committed → ∀ memberId ∈ committed.committedMembers,
    ∃ member ∈ after.set.supplied, member.id = memberId ∧
      ∃ journal, member.seat = some ⟨journal, true⟩

theorem Standing.checkpointFails (h : c.Standing) (topology : Topology) (error : CoordinatorError) :
    Checkpoints c topology (.error error) where
  standing := h
  ready := by simp
  topology_eq := by simp
  event := by simp
  distinct := by simp
  active := by simp

/-- **A checkpoint keeps the coordinator standing.** -/
theorem commitAuthorityCheckpointLocked_checkpoints
    (h : c.Standing) (ready : c.set.controlWrite.isSome)
    (room : c.HasRoom required) (proposal : Record) (outcome : Id → WriteOutcome) :
    Checkpoints (c.commitAuthorityCheckpointLocked proposal required outcome).1
      c.set.authority.topology
      (c.commitAuthorityCheckpointLocked proposal required outcome).2 := by
  unfold commitAuthorityCheckpointLocked
  split
  · exact h.checkpointFails _ _
  rename_i items hprepare
  obtain ⟨event, phase⟩ := prepareCheckpoint_phase h.sound h.ordered room hprepare
  have hcommitted := phase.unready rfl outcome
  unfold finishCheckpoint
  simp only
  split
  · exact hcommitted.freeze.checkpointFails _ _
  rename_i first hfirst
  split
  · exact hcommitted.freeze.checkpointFails _ _
  have hevent := phase.report_event (mem_of_head? hfirst)
  refine ⟨phase.noted outcome hevent (h.begunVoters ready), fun _ _ => rfl, fun _ _ => rfl, ?_, ?_, ?_⟩
  · rintro committed hok
    cases hok
    rfl
  · rintro committed hok
    cases hok
    exact acks_distinct phase.ordered _ _ _
  · rintro committed hok memberId hmem
    cases hok
    obtain ⟨after, hafter, hid, journal, hseat⟩ := phase.reported_active outcome hmem
    exact ⟨_, mem_map_of_mem hafter, hid, journal, hseat⟩

/-- A checkpoint that as many members have as there are voters is held by every voter. -/
theorem Checkpoints.held {topology : Topology}
    {committed : CommitResult} (h : Checkpoints after topology (.ok committed))
    (hall : committed.committedMembers.length = voterCount after.set.authority.topology) :
    after.HeldByVoters committed.record.historyDigest := by
  have hready := h.ready committed rfl
  intro memberId hvoter
  have hmem : memberId ∈ committed.committedMembers := by
    refine mem_of_card_le (h.distinct committed rfl) (fun other hother => ?_) ?_
      (mem_voterIds_of_isVoter hvoter)
    · obtain ⟨member, hmember, rfl, journal, hseat⟩ := h.active committed rfl other hother
      exact mem_voterIds_of_isVoter (h.standing.voters hready member hmember journal hseat)
    · rw [hall]
      exact card_voterIds_le _
  obtain ⟨member, hmember, hid, journal, hseat⟩ := h.active committed rfl memberId hmem
  refine ⟨member, hmember, hid, ?_⟩
  rw [← h.event committed rfl]
  exact (h.standing.stands hready member hmember).endsWith (h.standing.sound.sound member hmember)
    hseat

omit [Blake3] in
theorem requireFullVoterSet_room
    {rollover : Bool} (h : c.requireFullVoterSet required rollover = .ok ()) :
    c.HasRoom required := by
  simp only [requireFullVoterSet, ok_iff, not_exists, not_and, Bool.not_eq_false] at h
  exact fun participant hparticipant => h.2.2 participant hparticipant

theorem Standing.abandon (h : c.Standing) : c.abandon.Standing := h.begin.freeze

theorem commitAuthorityCheckpoint_commits
    (h : c.Standing) (proposal : Record) (outcome : Id → WriteOutcome) :
    Commits (c.commitAuthorityCheckpoint proposal outcome).1
      (c.commitAuthorityCheckpoint proposal outcome).2 := by
  unfold commitAuthorityCheckpoint
  split
  · exact h.fails _
  split
  · exact h.freeze.fails _
  rename_i hready
  have hready : c.set.controlWrite.isSome := not_not.mp hready
  split
  · exact h.fails _
  rename_i hfull
  have hcheckpoint := commitAuthorityCheckpointLocked_checkpoints h hready
    (requireFullVoterSet_room hfull) proposal outcome
  split
  · rename_i after e hresult
    rw [hresult] at hcheckpoint
    exact hcheckpoint.standing.fails _
  rename_i after result hresult
  rw [hresult] at hcheckpoint
  split
  · exact hcheckpoint.standing.abandon.fails _
  rename_i hall
  refine ⟨⟨hcheckpoint.standing, fun _ =>
    hcheckpoint.standing.stands (hcheckpoint.ready result rfl)⟩, ?_⟩
  intro committed hok _
  cases hok
  exact hcheckpoint.held (not_not.mp hall)

/-! ## Publication and reclaim -/

section

omit [Blake3]

/-- A participant whose publication does not fail stays as it is. -/
theorem publishOne_live {member : Member} {report : PublishReport}
    (h : c.publishOne outcome memberId claimed = (member, report)) (hreport : report ≠ .failed) :
    member.frozen = claimed.member.frozen ∧ member.mode = claimed.member.mode := by
  obtain ⟨rfl, _⟩ | ⟨_, _, _, _, _, hpublish, ⟨_, rfl⟩ | ⟨rfl, _⟩⟩ := publishOne_cases h
  · exact ⟨rfl, rfl⟩
  · exact absurd rfl hreport
  obtain ⟨_, _, hrefused⟩ | ⟨hmode, hlive, hafter, _, ⟨hfailed, _⟩ | ⟨_, hfrozen, _⟩⟩ :=
    publish_cases hpublish
  · cases hrefused
  · cases hfailed
  · exact ⟨hfrozen.trans hlive.symm, hafter.trans hmode.symm⟩

/-- The publication leaves an active seat as it is, or takes it out. -/
theorem publishTo_at {supplied : Supplied} (h : supplied.At event) :
    (c.publishTo outcome supplied).At event := by
  unfold publishTo
  split
  · rename_i journal hseat
    obtain ⟨hlive, hmode, htail⟩ := h journal hseat
    split
    · intro other hother
      simp at hother
    rename_i member report hreport hpublish
    obtain ⟨hfrozen, hsame⟩ := publishOne_live hpublish (by simpa using hreport)
    intro other hother
    obtain rfl : journal = other := by
      have := hseat.symm.trans hother
      simpa using this
    exact ⟨hfrozen.trans hlive, hsame.trans hmode, htail⟩
  · exact h

theorem publishTo_seat_isSome (c : ReplicatedJournal) (outcome : RolloverOutcome)
    (supplied : Supplied) :
    (c.publishTo outcome supplied).seat.isSome = supplied.seat.isSome := by
  unfold publishTo
  split
  · rename_i journal hseat
    split <;> simp [hseat]
  · rfl

/-- Clearing slots without a failed write leaves the member live. -/
theorem clearSlots_live {clear : Nat → WriteOutcome} {walk : List Nat} :
    ∀ {member after : Member}, clearSlots clear walk member = (after, .ok ()) →
      after.frozen = member.frozen ∧ after.mode = member.mode := by
  induction walk with
  | nil =>
    intro member after h
    cases h
    exact ⟨rfl, rfl⟩
  | cons slot rest ih =>
    intro member after h
    unfold clearSlots at h
    split at h
    · exact ih h
    unfold writeDurable at h
    rcases hcheck : checkSlotWrite member slot with _ | checked
    · simp [hcheck] at h
    cases hclear : clear slot <;>
      simp only [hcheck, hclear, writeResult, WriteOutcome.succeeds, if_true,
        Bool.false_eq_true, if_false] at h
    · obtain ⟨hfrozen, hmode⟩ := ih h
      exact ⟨hfrozen, hmode⟩
    all_goals simp at h

end

/-- A participant that reclaimed is as live as before, with the same tail. -/
theorem reclaimOne_live {publication : Publication}
    {after : Claimed} (h : reclaimOne outcome publication claimed = (after, true)) :
    after.member.frozen = claimed.member.frozen ∧ after.member.mode = claimed.member.mode ∧
      after.journal.scanState.tail = claimed.journal.scanState.tail := by
  unfold reclaimOne at h
  split at h
  · cases h
    exact ⟨rfl, rfl, rfl⟩
  split at h
  · simp at h
  rename_i cut hcut
  cases h
  unfold reclaimPublishedAnchor at hcut
  split at hcut
  · simp at hcut
  simp only at hcut
  split at hcut
  · simp at hcut
  rename_i member hcleared
  cases hcut
  obtain ⟨hfrozen, hmode⟩ := clearSlots_live hcleared
  exact ⟨hfrozen, hmode, rfl⟩

theorem reclaimTo_at {supplied : Supplied} (h : supplied.At event) :
    (reclaimTo published outcome supplied).At event := by
  unfold reclaimTo
  split
  · rename_i seat publication hseat _
    split
    · rename_i after hreclaim
      obtain ⟨hfrozen, hmode, htail⟩ := reclaimOne_live hreclaim
      intro other hother
      simp only [some.injEq, Seat.mk.injEq] at hother
      obtain ⟨rfl, hactive⟩ := hother
      obtain ⟨journal, active⟩ := seat
      obtain rfl : active = true := hactive
      obtain ⟨hlive, hwritable, htailEvent⟩ := h journal hseat
      exact ⟨hfrozen.trans hlive, hmode.trans hwritable, htail ▸ htailEvent⟩
    · intro other hother
      simp at hother
  · exact h

theorem reclaimTo_seat_isSome (published : List Publication) (outcome : RolloverOutcome)
    (supplied : Supplied) :
    (reclaimTo published outcome supplied).seat.isSome = supplied.seat.isSome := by
  unfold reclaimTo
  split
  · rename_i seat publication hseat _
    split <;> simp [hseat]
  · rfl

/-! ## Rollover -/

section

variable {c : ReplicatedJournal} (outcome : RolloverOutcome)

omit [Blake3] in
theorem published_ordered (h : c.Ordered) : (c.published outcome).Ordered :=
  (beginControlMutation_ordered h).map rfl rfl (fun member _ => publishTo_id _ _ member)
    fun member _ => publishTo_seat_isSome _ _ member

theorem rolledOver_ordered (h : c.Ordered) : (c.rolledOver outcome).Ordered :=
  (published_ordered outcome h).map rfl rfl (fun member _ => reclaimTo_id _ _ member)
    fun member _ => reclaimTo_seat_isSome _ _ member

theorem published_standing (h : c.Standing) : (c.published outcome).Standing :=
  .unready (publishPhase_sound h.sound outcome) (published_ordered outcome h.ordered) rfl

theorem rolledOver_standing (h : c.Standing) : (c.rolledOver outcome).Standing :=
  .unready (reclaimPhase_sound h.sound outcome) (rolledOver_ordered outcome h.ordered) rfl

variable {supplied : Supplied} {event : Digest} {journal : Journal}

theorem rolledOver_at (h : ∀ member ∈ c.set.supplied, member.At event) :
    ∀ member ∈ (c.rolledOver outcome).set.supplied, member.At event := by
  intro member hmember
  obtain ⟨middle, hmiddle, rfl⟩ := mem_map.mp hmember
  obtain ⟨forgot, hforgot, rfl⟩ := mem_map.mp hmiddle
  obtain ⟨before, hbefore, rfl⟩ := mem_map.mp hforgot
  have hat : before.forgot.At event := h before hbefore
  exact reclaimTo_at (publishTo_at hat)

omit [Blake3] in
theorem publishTo_active (h : (c.publishTo outcome supplied).seat = some ⟨journal, true⟩) :
    supplied.seat = some ⟨journal, true⟩ := by
  unfold publishTo at h
  split at h
  · split at h
    · simp at h
    · exact h
  · exact h

theorem reclaimTo_active (h : (reclaimTo published outcome supplied).seat = some ⟨journal, true⟩) :
    supplied.Active := by
  unfold reclaimTo at h
  split at h
  · rename_i seat publication hseat _
    split at h
    · simp only [some.injEq, Seat.mk.injEq] at h
      obtain ⟨opened, active⟩ := seat
      obtain rfl : active = true := h.2
      exact ⟨opened, hseat⟩
    · simp at h
  · exact ⟨journal, h⟩

/-- **Resuming a rollover keeps the coordinator standing at its authority.** -/
theorem resumeRolloverLocked_leaves (h : c.Standing) (ready : c.set.controlWrite.isSome) :
    Leaves (c.resumeRolloverLocked outcome).1
      (∃ result, (c.resumeRolloverLocked outcome).2 = .ok result) := by
  have hpublished := published_standing outcome h
  have hrolled := rolledOver_standing outcome h
  have hat := rolledOver_at outcome (h.stands ready)
  unfold resumeRolloverLocked
  simp only
  split
  · exact ⟨h, by simp⟩
  split
  · exact ⟨h, by simp⟩
  split
  · exact ⟨hpublished, by simp⟩
  · exact ⟨hpublished.freeze, by simp⟩
  unfold finishRollover
  simp only
  split
  · exact ⟨hrolled, by simp⟩
  · exact ⟨hrolled.freeze, by simp⟩
  refine ⟨⟨noteAuthority_sound hrolled.sound _ _, ?_, ?_, ?_, ?_⟩, fun _ => ?_⟩
  · exact hrolled.ordered.map rfl rfl (fun _ _ => rfl) fun _ _ => rfl
  · intro _ member hmember
    obtain ⟨before, hbefore, rfl⟩ := mem_map.mp hmember
    exact hat before hbefore
  · intro _ member hmember journal hfound
    obtain ⟨noted, hnoted, rfl⟩ := mem_map.mp hmember
    obtain ⟨middle, hmiddle, rfl⟩ := mem_map.mp hnoted
    obtain ⟨seat, hseat⟩ := reclaimTo_active outcome hfound
    obtain ⟨forgot, hforgot, rfl⟩ := mem_map.mp hmiddle
    obtain ⟨before, hbefore, rfl⟩ := mem_map.mp hforgot
    have hactive : before.forgot.seat = some ⟨seat, true⟩ := publishTo_active outcome hseat
    have hvoter := h.voters ready before hbefore seat hactive
    rw [show before.id = (c.rolls outcome before).id by
        rw [reclaimTo_id, publishTo_id]; rfl] at hvoter
    exact hvoter
  · intro noted hnoted memberId hlisted
    cases hnoted
    obtain ⟨member, hmember, hid, journal, hseat⟩ := (reclaimedMembers_active hlisted).mem
    exact ⟨_, mem_map_of_mem hmember, hid, journal, hseat⟩
  · intro member hmember
    obtain ⟨before, hbefore, rfl⟩ := mem_map.mp hmember
    exact hat before hbefore

/-- A disk ends with the same event after the rollover phases. -/
theorem rolledOver_endsWith (sound : SoundMembers c.set.supplied)
    (hsupplied : supplied ∈ c.set.supplied) (h : supplied.member.storage.EndsWith event) :
    (c.rolls outcome supplied).member.storage.EndsWith event := by
  obtain ⟨log, first, tracks, roots⟩ := sound.sound supplied hsupplied
  obtain ⟨next, reclaims⟩ := rolloverPhase_reclaims sound outcome hsupplied tracks roots
  rw [tracks.opened.journaled.endsWith_iff] at h
  rw [reclaims.tracks.opened.journaled.endsWith_iff]
  exact h

/-- **A rollover that succeeds leaves every voter with the event that it had.** -/
theorem resumeRolloverLocked_held (h : c.Standing) (held : c.HeldByVoters event)
    {result : RolloverResult} (hresult : (c.resumeRolloverLocked outcome).2 = .ok result) :
    (c.resumeRolloverLocked outcome).1.HeldByVoters event := by
  unfold resumeRolloverLocked at hresult ⊢
  simp only at hresult ⊢
  split at hresult
  · simp at hresult
  rename_i hrequired
  rw [if_neg hrequired]
  split at hresult
  · simp at hresult
  rename_i henough
  rw [if_neg henough]
  split at hresult
  · simp at hresult
  · simp at hresult
  unfold finishRollover at hresult ⊢
  simp only at hresult ⊢
  split at hresult
  · simp at hresult
  · simp at hresult
  intro memberId hvoter
  obtain ⟨member, hmember, rfl, hends⟩ := held memberId hvoter
  refine ⟨_, mem_map_of_mem (mem_map_of_mem (mem_map_of_mem
    (mem_map_of_mem hmember))), ?_, rolledOver_endsWith outcome h.sound hmember hends⟩
  have hid := reclaimTo_id (c.publications outcome) outcome (c.publishTo outcome member.forgot)
  rw [publishTo_id] at hid
  exact hid

end

theorem resumeRollover_leaves (h : c.Standing) (outcome : RolloverOutcome) :
    Leaves (c.resumeRollover outcome).1 (∃ result, (c.resumeRollover outcome).2 = .ok result) := by
  unfold resumeRollover
  split
  · exact ⟨h, by simp⟩
  split
  · exact ⟨h.freeze, by simp⟩
  · rename_i hready
    exact resumeRolloverLocked_leaves outcome h (not_not.mp hready)

/-- **A rollover keeps the coordinator standing.** -/
theorem rolloverAuthorityCheckpoint_commits (h : c.Standing) (proposal : Record)
    (append : Id → WriteOutcome) (outcome : RolloverOutcome) :
    Commits (c.rolloverAuthorityCheckpoint proposal append outcome).1
      (c.rolloverAuthorityCheckpoint proposal append outcome).2 := by
  unfold rolloverAuthorityCheckpoint
  split
  · exact h.fails _
  split
  · exact h.freeze.fails _
  rename_i hready
  have hready : c.set.controlWrite.isSome := not_not.mp hready
  split
  · exact h.fails _
  rename_i hfull
  have hcheckpoint := commitAuthorityCheckpointLocked_checkpoints h hready
    (requireFullVoterSet_room hfull) proposal append
  split
  · rename_i after e hresult
    rw [hresult] at hcheckpoint
    exact hcheckpoint.standing.fails _
  rename_i after result hresult
  rw [hresult] at hcheckpoint
  split
  · exact hcheckpoint.standing.abandon.fails _
  rename_i hall
  have hpending : Standing { after with
      reclaimRequired := true, pendingAnchor := some result.record.historyDigest } :=
    hcheckpoint.standing.congr rfl rfl
  have hleaves := resumeRolloverLocked_leaves outcome hpending (hcheckpoint.ready result rfl)
  have hheld : HeldByVoters { after with
      reclaimRequired := true, pendingAnchor := some result.record.historyDigest }
      result.record.historyDigest := hcheckpoint.held (not_not.mp hall)
  simp only
  split
  · rename_i finished e hfinished
    rw [hfinished] at hleaves
    exact hleaves.standing.abandon.fails _
  rename_i finished done hfinished
  have hkept := resumeRolloverLocked_held outcome hpending hheld (congrArg Prod.snd hfinished)
  rw [hfinished] at hleaves hkept
  refine ⟨⟨hleaves.standing, fun _ => hleaves.stands ⟨done, rfl⟩⟩, ?_⟩
  intro committed hok _
  cases hok
  exact hkept

end Zettide.ReplicatedJournal
