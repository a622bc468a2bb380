import Zettide.Pool.Arrivals

/-! # What the operations of a coordinator consist of

Every operation is a sequence of turns: a phase of appends, the publication or the reclaim of a
rollover, a note about the new authority, a new participant, and the like. What every turn keeps,
every operation keeps. -/

namespace Zettide

open Member Journal List Supplied Option Relation PoolMemberSet PoolTopology ReflTransGen

/-- The members and journals of a set, without what it says about them. -/
def contents (supplied : List Supplied) : List (Member × Option Seat) :=
  supplied.map fun member => (member.member, member.seat)

variable {f : Supplied → Supplied}

section

variable {supplied after : List Supplied}

theorem contents_map (member : ∀ before, (f before).member = before.member)
    (seat : ∀ before, (f before).seat = before.seat) :
    contents (supplied.map f) = contents supplied := by
  unfold contents
  rw [List.map_map]
  exact List.map_congr_left fun before _ => by simp [member, seat]

theorem mem_of_contents (same : contents after = contents supplied) {member : Supplied}
    (hmember : member ∈ after) :
    ∃ before ∈ supplied, before.member = member.member ∧ before.seat = member.seat := by
  have hcontent : (member.member, member.seat) ∈ contents supplied := by
    rw [← same]
    exact mem_map_of_mem hmember
  obtain ⟨before, hbefore, hsame⟩ := mem_map.mp hcontent
  exact ⟨before, hbefore, Prod.mk.inj hsame⟩

theorem contents_ids (same : contents after = contents supplied) :
    after.map Supplied.id = supplied.map Supplied.id := by
  have hids : ∀ members : List Supplied, members.map Supplied.id =
      (contents members).map fun content => content.1.header.memberId := by
    intro members
    rw [contents, List.map_map]
    rfl
  rw [hids, same, ← hids]

theorem SoundMembers.of_contents [Blake3] (h : SoundMembers supplied)
    (same : contents after = contents supplied) : SoundMembers after := by
  constructor
  · rw [contents_ids same]
    exact h.distinct
  · intro member hmember
    obtain ⟨before, hbefore, hsame, hseat⟩ := mem_of_contents same hmember
    exact (h.sound before hbefore).relabel hsame.symm hseat.symm

theorem setStatus_contents (supplied : List Supplied) (memberId : Id) (status : MemberStatus) :
    contents (setStatus supplied memberId status) = contents supplied := by
  refine contents_map (fun before => ?_) fun before => ?_ <;> split <;> rfl

end

/-- Items that keep the key of what they come from have the keys of a part of it. -/
theorem map_filterMap_sublist {α β γ : Type} {f : α → Option β} {key : α → γ} {key' : β → γ}
    {items : List α} (h : ∀ item ∈ items, ∀ found, f item = some found → key' found = key item) :
    ((items.filterMap f).map key').Sublist (items.map key) := by
  induction items with
  | nil => simp
  | cons item rest ih =>
    have ih := ih fun other hother => h other (mem_cons_of_mem _ hother)
    cases hitem : f item with
    | none => simpa [hitem] using ih.cons (key item)
    | some found =>
      simpa [hitem, h item mem_cons_self found hitem] using ih

namespace ReplicatedJournal

/-! ## Active participants -/

/-- The member is an active participant. -/
def IsActive (coordinator : ReplicatedJournal) (memberId : Id) : Prop :=
  ∃ member, findSuppliedMember coordinator.set.supplied memberId = some member ∧ member.Active

variable {c : ReplicatedJournal} {items : List Item} {append : Append}
  {outcome : Id → WriteOutcome} {memberId : Id} {participant : Participant} {required : Nat}
  {supplied : List Supplied}

theorem find_map (ids : ∀ member, (f member).id = member.id) (memberId : Id) :
    findSuppliedMember (supplied.map f) memberId =
      (findSuppliedMember supplied memberId).map f := by
  unfold findSuppliedMember
  rw [find?_map]
  congr 2
  funext member
  simp [ids]

theorem isActive_of_mem (h : participant ∈ c.activeParticipants) :
    c.IsActive participant.memberId := by
  obtain ⟨hmem, hactive⟩ := mem_filter.mp h
  obtain ⟨member, ⟨journal, active⟩, hfind, hseat, rfl⟩ := participants_find hmem
  obtain rfl : active = true := hactive
  exact ⟨member, hfind, journal, hseat⟩

theorem targets_active (h : participant ∈ c.targets required) :
    participant ∈ c.activeParticipants :=
  (mem_filter.mp h).1

theorem participants_sublist (c : ReplicatedJournal) :
    (c.participants.map Participant.memberId).Sublist c.order := by
  have hsub : ((c.order.filterMap fun memberId =>
      (findSuppliedMember c.set.supplied memberId).bind participant).map
        Participant.memberId).Sublist (c.order.map fun memberId => memberId) :=
    map_filterMap_sublist ?_
  · simpa [participants] using hsub
  · intro memberId _ participant hfound
    obtain ⟨member, hfind, hseat⟩ := bind_eq_some_iff.mp hfound
    obtain ⟨seat, _, rfl⟩ := map_eq_some_iff.mp hseat
    simpa using find?_some hfind

theorem acks_sublist (c : ReplicatedJournal) (append : Append) (items : List Item)
    (outcome : Id → WriteOutcome) :
    ((c.acks append items outcome).map Ack.memberId).Sublist c.order := by
  refine (map_filterMap_sublist fun participant _ report hreport => ?_).trans c.participants_sublist
  obtain ⟨item, _, hresult⟩ := bind_eq_some_iff.mp hreport
  obtain ⟨result, _, rfl⟩ := map_eq_some_iff.mp hresult
  rfl

/-- A participant that reports a phase was active, if its record was that of an active one, and
still is. -/
theorem acks_active (deactivate : Bool) (headers : ∀ claimed prepared result,
      (append claimed prepared result).1.member.header = claimed.member.header)
    (active : ∀ item ∈ items, c.IsActive item.memberId)
    (h : memberId ∈ (c.acks append items outcome).map Ack.memberId) :
    (c.appendAll append deactivate items outcome).IsActive memberId := by
  obtain ⟨report, hreport, rfl⟩ := mem_map.mp h
  obtain ⟨participant, hparticipant, hbind⟩ := mem_filterMap.mp hreport
  obtain ⟨item, hitem, hresult⟩ := bind_eq_some_iff.mp hbind
  obtain ⟨result, hvalue, rfl⟩ := map_eq_some_iff.mp hresult
  have hid : item.memberId = participant.memberId := by simpa using find?_some hitem
  obtain ⟨other, hother, journal, hactive⟩ := active item (mem_of_find?_eq_some hitem)
  obtain ⟨member, seat, hfind, hseat, rfl⟩ := participants_find hparticipant
  rw [hid] at hother
  obtain rfl := some.inj (hfind.symm.trans hother)
  obtain rfl := some.inj (hseat.symm.trans hactive)
  refine ⟨appendTo append deactivate items outcome member,
    (find_map (fun _ => appendTo_id headers) _).trans (congrArg _ hfind), ?_⟩
  have hdone := (value_eq_some _ _).mp hvalue
  unfold appendTo
  rw [hseat, hitem]
  simp only
  split
  · exact ⟨_, rfl⟩
  · rename_i hfailed
    rw [hfailed] at hdone
    cases hdone

theorem begin_isActive (h : c.IsActive memberId) : c.beginControlMutation.IsActive memberId := by
  obtain ⟨member, hfind, hactive⟩ := h
  exact ⟨member.forgot, (find_map (f := forgot) (fun _ => rfl) _).trans (congrArg _ hfind), hactive⟩

theorem IsActive.mem (h : c.IsActive memberId) :
    ∃ member ∈ c.set.supplied, member.id = memberId ∧ member.Active := by
  obtain ⟨member, hfind, hactive⟩ := h
  exact ⟨member, mem_of_find?_eq_some hfind, findSuppliedMember_id hfind, hactive⟩

/-! ## Rollover -/

/-- The coordinator after the publication. -/
def published (coordinator : ReplicatedJournal) (outcome : RolloverOutcome) : ReplicatedJournal :=
  coordinator.beginControlMutation.mapMembers (coordinator.publishTo outcome)

section

variable [Blake3]

/-- The coordinator after publication and reclaim. -/
def rolledOver (coordinator : ReplicatedJournal) (outcome : RolloverOutcome) : ReplicatedJournal :=
  (coordinator.published outcome).mapMembers (reclaimTo (coordinator.publications outcome) outcome)

/-- The members that a rollover cuts. -/
abbrev cutMembers (c : ReplicatedJournal) (outcome : RolloverOutcome) : List Id :=
  (c.published outcome).reclaimedMembers (c.publications outcome) outcome

omit [Blake3] in
/-- A member whose publication does not fail stays active. -/
theorem publishTo_stays {outcome : RolloverOutcome} {supplied : Supplied} {journal : Journal}
    (hseat : supplied.seat = some ⟨journal, true⟩)
    (h : (c.publishOne outcome supplied.id ⟨supplied.member, journal⟩).2 ≠ .failed) :
    (c.publishTo outcome supplied).seat = some ⟨journal, true⟩ := by
  unfold publishTo
  split
  · rename_i opened hopened
    obtain ⟨rfl⟩ : journal = opened := by simpa using hseat.symm.trans hopened
    split
    · rename_i member hpublish
      exact absurd (congrArg Prod.snd hpublish) h
    · exact hseat
  · rename_i hidle
    exact absurd hseat (hidle journal)

omit [Blake3] in
/-- Who reports a publication is active, and did not fail. -/
theorem publications_find {outcome : RolloverOutcome} {publication : Publication}
    (h : publication ∈ c.publications outcome) :
    ∃ member journal, findSuppliedMember c.set.supplied publication.memberId = some member ∧
        member.seat = some ⟨journal, true⟩ ∧
        (c.publishOne outcome member.id ⟨member.member, journal⟩).2 ≠ .failed := by
  obtain ⟨participant, hparticipant, hreport⟩ := List.mem_filterMap.mp h
  obtain ⟨hmem, hactive⟩ := List.mem_filter.mp hparticipant
  obtain ⟨member, ⟨journal, active⟩, hfind, hseat, rfl⟩ := participants_find hmem
  obtain rfl : active = true := hactive
  refine ⟨member, journal, ?_, hseat, fun hfailed => by simp [hfailed] at hreport⟩
  split at hreport
  · cases hreport
  · cases hreport
    exact hfind
  · cases hreport
    exact hfind

theorem reclaimedMembers_active {outcome : RolloverOutcome} (h : memberId ∈ c.cutMembers outcome) :
    (c.rolledOver outcome).IsActive memberId := by
  obtain ⟨participant, hparticipant, hbind⟩ := mem_filterMap.mp h
  obtain ⟨publication, hfind, hdone⟩ := bind_eq_some_iff.mp hbind
  have hid : publication.memberId = participant.memberId := by simpa using find?_some hfind
  obtain ⟨before, journal, hbefore, hactive, hreport⟩ :=
    publications_find (mem_of_find?_eq_some hfind)
  obtain ⟨middle, seat, hmiddle, hseat, rfl⟩ := participants_find hparticipant
  -- the member published, so its seat is still active
  obtain rfl : c.publishTo outcome before.forgot = middle := by
    have hforgot : findSuppliedMember c.beginControlMutation.set.supplied middle.id =
        some before.forgot :=
      (find_map (f := forgot) (fun _ => rfl) _).trans (congrArg _ (hid ▸ hbefore))
    exact some.inj (((find_map (publishTo_id c outcome) _).trans
      (congrArg _ hforgot)).symm.trans hmiddle)
  have hactive : before.forgot.seat = some ⟨journal, true⟩ := hactive
  obtain rfl := some.inj ((publishTo_stays hactive hreport).symm.trans hseat)
  split at hdone
  case isFalse => cases hdone
  case isTrue hreclaim =>
    cases hdone
    refine ⟨_, (find_map (reclaimTo_id _ outcome) _).trans (congrArg _ hmiddle), ?_⟩
    unfold reclaimTo
    rw [hseat]
    simp only [hfind]
    split
    · exact ⟨_, rfl⟩
    · rename_i hcut
      rw [hcut] at hreclaim
      cases hreclaim

theorem reclaimedMembers_sublist (c : ReplicatedJournal) (published : List Publication)
    (outcome : RolloverOutcome) :
    (c.reclaimedMembers published outcome).Sublist c.order := by
  have hsub : ((c.reclaimedMembers published outcome).map fun memberId =>
      memberId).Sublist (c.participants.map Participant.memberId) :=
    map_filterMap_sublist fun participant _ memberId hbind => by
      obtain ⟨publication, _, hdone⟩ := bind_eq_some_iff.mp hbind
      split at hdone
      · exact (some.inj hdone).symm
      · cases hdone
  rw [List.map_id'] at hsub
  exact hsub.trans c.participants_sublist

end

/-! ## Turns -/

/-- The coordinator after a membership commit that the given members have. -/
def settled (committed : ReplicatedJournal) (record : Record) (proposal : Proposal)
    (members activeMembers : List Id) : ReplicatedJournal :=
  let set := committed.set.noteCommittedMembership record proposal members activeMembers
  { committed with
    set := { set with supplied := set.supplied.map (keepSeat activeMembers) }
    order := committed.order.filter fun memberId => memberId ∈ activeMembers
    quorum := proposal.topology.quorum }

variable [Blake3]

/-- Records that participants have prepared, with the way to append them. -/
inductive Prepared (coordinator : ReplicatedJournal) : Append → List Item → Prop where
  | exact {prepareOne : Participant → Except CoordinatorError Item} {diverged : CoordinatorError}
      {shared : Option Digest} {targets : List Participant} {items : List Item} :
      PreparesExact prepareOne → (∀ participant ∈ targets, participant ∈ coordinator.participants) →
      prepareAll prepareOne diverged shared targets = .ok items →
      Prepared coordinator appendPrepared items
  | checkpoint {context : PoolAuthorityCheckpoint.AuthorityContext} {proposal : Record}
      {diverged : CoordinatorError} {shared : Option Digest} {targets : List Participant}
      {items : List Item} : (∀ participant ∈ targets, participant ∈ coordinator.participants) →
      prepareAll (checkpointItem context proposal) diverged shared targets = .ok items →
      Prepared coordinator appendPreparedCheckpoint items

/-- One turn of an operation. Only a rollover, which `rolling` says, lets a checkpoint wait for its
publication. -/
inductive Turn (rolling : Prop) (before : ReplicatedJournal) : ReplicatedJournal → Prop where
  | flag (frozen reclaimRequired : Bool) {anchor : Option Digest} :
      anchor = before.pendingAnchor ∨ anchor = none ∨ rolling →
      Turn rolling before { before with
        frozen := frozen, reclaimRequired := reclaimRequired, pendingAnchor := anchor }
  | unready {supplied : List Supplied} {access : PoolPolicy.DataAccess} {frozen : Bool} :
      contents supplied = contents before.set.supplied →
      Turn rolling before { before with
        frozen := frozen
        set := { before.set with
                 supplied := supplied, controlWrite := none, dataAccess := access } }
  | append {append : Append} {items : List Item} (deactivate : Bool)
      (outcome : Id → WriteOutcome) :
      before.set.controlWrite = none → Prepared before append items →
      Turn rolling before (before.appendAll append deactivate items outcome)
  | publish (outcome : RolloverOutcome) : Turn rolling before (before.published outcome)
  | roll (outcome : RolloverOutcome) : Turn rolling before (before.rolledOver outcome)
  | note {authority : PoolAuthority.Authority} {activeMembers : List Id} :
      authority.topology = before.set.authority.topology →
      activeMembers.Sublist before.order → (∀ memberId ∈ activeMembers, before.IsActive memberId) →
      (before.recoveryOnly = false →
        min before.quorum before.set.authority.topology.quorum ≤ activeMembers.length) →
      Turn rolling before { before with set := before.set.noteAuthority authority activeMembers }
  | change {record : Record} {proposal : Proposal} {members : List Id} :
      members.Sublist before.order →
      proposal.topology.quorum ≤ (members.filter (isVoter proposal.topology)).length →
      Turn rolling before (before.settled record proposal members
        (members.filter (isVoter proposal.topology)))
  | join (target : Member) (history : HistoryScan) :
      before.set.controlWrite = none →
      target.header.memberId ∉ before.set.supplied.map Supplied.id →
      Supplied.Sound ⟨target, some history, .authority, none⟩ →
      Turn rolling before { before with
        set := { before.set with
                 supplied := before.set.supplied ++ [⟨target, some history, .authority, none⟩]
                 suppliedCount := before.set.suppliedCount + 1 } }
  | seat {after : ReplicatedJournal} {memberId : Id} {authorityDigest : Digest} :
      before.ensureParticipant memberId authorityDigest = .ok after → Turn rolling before after
  | relabel {memberId : Id} {f : Supplied → Supplied} :
      isVoter before.set.authority.topology memberId = false →
      (∀ member, (f member).member = member.member) → (∀ member, (f member).seat = member.seat) →
      Turn rolling before { before with
        set := { before.set with
                 supplied := updateMember before.set.supplied memberId f
                 dataAccess := dataAccessOf before.set.authority
                   before.set.authority.topology
                   (updateMember before.set.supplied memberId f) } }
  | put {memberId : Id} {supplied : Supplied} {journal : Journal} {records : List Record}
      {outcome : Nat → WriteOutcome} :
      findSuppliedMember before.set.supplied memberId = some supplied →
      supplied.member.frozen = false → supplied.seat = none →
      openMember supplied.member = .ok journal →
      Turn rolling before (before.putMember memberId
        (replayRecords outcome 0 records ⟨supplied.member, journal⟩).1.member)

/-- Turn after turn. -/
abbrev Turns (rolling : Prop) : ReplicatedJournal → ReplicatedJournal → Prop :=
  ReflTransGen (Turn rolling)

variable {rolling : Prop} {before after : ReplicatedJournal}

theorem Turn.freeze (before : ReplicatedJournal) : Turn rolling before before.freeze :=
  .flag true before.reclaimRequired (.inl rfl)

theorem Turn.begun (before : ReplicatedJournal) : Turn rolling before before.beginControlMutation :=
  .unready (contents_map (fun _ => rfl) fun _ => rfl)

theorem Turn.fail (before : ReplicatedJournal) (memberId : Id) :
    Turn rolling before (before.failCatalogMember memberId) :=
  .unready (setStatus_contents _ memberId .stale)

theorem Turns.afterError (h : Turns rolling before after) (error : CoordinatorError) :
    Turns rolling before (after.afterError error) := by
  unfold ReplicatedJournal.afterError
  split
  · exact h.tail (.freeze after)
  · exact h

theorem Turns.abandon (h : Turns rolling before after) : Turns rolling before after.abandon :=
  (h.tail (.begun after)).tail (.freeze _)

omit [Blake3] in
/-- The targets of a mutation are participants of the coordinator that began it. -/
theorem begun_participants (h : participant ∈ c.targets required) :
    participant ∈ c.beginControlMutation.participants := by
  rw [beginControlMutation_participants]
  exact targets_mem h

theorem guard_turns {α : Type} {refused unready : α} {body : ReplicatedJournal × α}
    (h : Turns rolling c body.1) :
    Turns rolling c (if c.frozen then (c, refused)
      else if ¬ c.requireSetWriteReady then (c.freeze, unready)
      else body).1 := by
  split
  · exact .refl
  · split
    · exact .single (.freeze c)
    · exact h

/-! ## Generations -/

section

variable (rolling)

section

variable (c : ReplicatedJournal) (proposal : Record)

theorem commitGenerationLocked_turns (prepareOutcome commitOutcome : Id → WriteOutcome) :
    Turns rolling c (c.commitGenerationLocked proposal prepareOutcome commitOutcome).1 := by
  unfold commitGenerationLocked
  split
  · exact .refl
  rename_i items hitems
  simp only [prepareGeneration, ok_iff] at hitems
  obtain ⟨_, _, _, _, _, _, hprepare⟩ := hitems
  have hactive : ∀ item ∈ items, c.beginControlMutation.IsActive item.memberId := by
    intro item hitem
    obtain ⟨participant, hparticipant, hone⟩ := prepareAll_mem hprepare item hitem
    rw [((prepareItem_exact proposal).prepared _ _ hone).1]
    exact begin_isActive (isActive_of_mem (targets_active hparticipant))
  have hprepared : Turns rolling c (c.beginControlMutation.appendAll
      appendPrepared true items prepareOutcome) :=
    (single (.begun c)).tail (.append true prepareOutcome rfl
      (.exact (prepareItem_exact proposal) (fun _ => begun_participants) hprepare))
  simp only
  split
  · exact hprepared.tail (.freeze _)
  split
  · exact Turns.afterError hprepared _
  rename_i commitItems hcommit
  simp only [prepareGenerationCommit, ok_iff] at hcommit
  obtain ⟨_, _, _, _, hcommit⟩ := hcommit
  have hcommitted := hprepared.tail (.append true commitOutcome rfl
    (.exact (commitItem_exact _) (fun _ hp => (mem_filter.mp hp).1) hcommit))
  unfold finishGeneration
  simp only
  split
  · exact hcommitted.tail (.freeze _)
  split
  · exact hcommitted.tail (.freeze _)
  rename_i hquorum
  refine hcommitted.tail (.note rfl (acks_sublist _ _ _ _) ?_ fun _ => ?_)
  · refine fun memberId => acks_active true appendPrepared_header fun item hitem => ?_
    obtain ⟨participant, hparticipant, hone⟩ := prepareAll_mem hcommit item hitem
    rw [((commitItem_exact _).prepared _ _ hone).1]
    exact acks_active true appendPrepared_header hactive
      (of_decide_eq_true (mem_filter.mp hparticipant).2)
  · rw [length_map]
    exact (Nat.min_le_left _ _).trans (Nat.le_of_not_lt hquorum)

theorem commitCatalogGeneration_turns
    (stage : CatalogStage) (prepareOutcome commitOutcome : Id → WriteOutcome) :
    Turns rolling c (c.commitCatalogGeneration proposal stage prepareOutcome commitOutcome).1 := by
  have hcommit := commitGenerationLocked_turns rolling c proposal prepareOutcome commitOutcome
  refine guard_turns ?_
  split
  · exact .refl
  · exact .refl
  · exact .single (.unready rfl)
  · exact .single (.fail c _)
  split
  · rename_i hresult
    rw [hresult] at hcommit
    exact hcommit.tail (.unready rfl)
  rename_i repairFailed _ _ _ _ hresult
  rw [hresult] at hcommit
  exact foldlRecOn repairFailed _ hcommit fun after hafter memberId _ =>
    hafter.tail (.fail after memberId)

/-! ## Checkpoints and rollover -/

theorem commitAuthorityCheckpointLocked_turns (requiredSlots : Nat) (outcome : Id → WriteOutcome) :
    Turns rolling c (c.commitAuthorityCheckpointLocked proposal requiredSlots outcome).1 := by
  unfold commitAuthorityCheckpointLocked
  split
  · exact .refl
  rename_i items hitems
  simp only [prepareCheckpoint, ok_iff] at hitems
  obtain ⟨_, _, _, prepared, hprepare, _, rfl⟩ := hitems
  have happended : Turns rolling c (c.beginControlMutation.appendAll
      appendPreparedCheckpoint true prepared outcome) :=
    (single (.begun c)).tail (.append true outcome rfl
      (.checkpoint (fun _ => begun_participants) hprepare))
  unfold finishCheckpoint
  simp only
  split
  · exact happended.tail (.freeze _)
  split
  · exact happended.tail (.freeze _)
  rename_i hquorum
  refine happended.tail (.note rfl (acks_sublist _ _ _ _) ?_ fun _ => ?_)
  · refine fun memberId => acks_active true appendPreparedCheckpoint_header fun item hitem => ?_
    obtain ⟨participant, hparticipant, hone⟩ := prepareAll_mem hprepare item hitem
    rw [(checkpointItem_checked hone).1]
    exact begin_isActive (isActive_of_mem (targets_active hparticipant))
  · rw [length_map]
    exact (Nat.min_le_left _ _).trans (Nat.le_of_not_lt hquorum)

theorem commitAuthorityCheckpoint_turns (outcome : Id → WriteOutcome) :
    Turns rolling c (c.commitAuthorityCheckpoint proposal outcome).1 := by
  have hcommit := commitAuthorityCheckpointLocked_turns rolling c proposal 2 outcome
  refine guard_turns ?_
  split
  · exact .refl
  split
  · rename_i hresult
    rw [hresult] at hcommit
    exact hcommit
  rename_i hresult
  rw [hresult] at hcommit
  split
  · exact Turns.abandon hcommit
  · exact hcommit

end

theorem checkAnchorQuorum_length {recoveryOnly : Bool}
    {published : List Publication} {successes : List Id}
    (h : checkAnchorQuorum recoveryOnly required published successes = .ok true) :
    required ≤ successes.length := by
  unfold checkAnchorQuorum at h
  split at h
  · cases h
  · rename_i hlength
    exact Nat.le_of_not_lt hlength

theorem resumeRolloverLocked_turns (c : ReplicatedJournal) (outcome : RolloverOutcome) :
    Turns rolling c (c.resumeRolloverLocked outcome).1 := by
  have hpublished : Turns rolling c _ := .single (.publish outcome)
  have hrolled : Turns rolling c _ := .single (.roll outcome)
  unfold resumeRolloverLocked
  simp only
  split
  · exact .refl
  split
  · exact .refl
  split
  · exact hpublished
  · exact hpublished.tail (.freeze _)
  unfold finishRollover
  simp only
  split
  · exact hrolled
  · exact hrolled.tail (.freeze _)
  rename_i henough
  refine (hrolled.tail (.note rfl (reclaimedMembers_sublist (c.published outcome)
    _ outcome) (fun _ => reclaimedMembers_active) fun hnormal => ?_)).tail
    (.flag _ false (.inr (.inl rfl)))
  have hnormal : c.recoveryOnly = false := hnormal
  have hlength : (if c.recoveryOnly then 1 else
      c.set.authority.topology.quorum) ≤ _ := checkAnchorQuorum_length henough
  rw [if_neg (Bool.eq_false_iff.mp hnormal)] at hlength
  exact (Nat.min_le_right _ _).trans hlength

theorem resumeRollover_turns (c : ReplicatedJournal) (outcome : RolloverOutcome) :
    Turns rolling c (c.resumeRollover outcome).1 :=
  guard_turns (resumeRolloverLocked_turns rolling c outcome)

theorem rolloverAuthorityCheckpoint_turns (c : ReplicatedJournal) (proposal : Record)
    (append : Id → WriteOutcome) (outcome : RolloverOutcome) :
    Turns True c (c.rolloverAuthorityCheckpoint proposal append outcome).1 := by
  have hcommit := commitAuthorityCheckpointLocked_turns True c proposal 1 append
  refine guard_turns ?_
  split
  · exact .refl
  split
  · rename_i hresult
    rw [hresult] at hcommit
    exact hcommit
  rename_i after result hresult
  rw [hresult] at hcommit
  split
  · exact Turns.abandon hcommit
  have hpending : Turns True c { after with
      reclaimRequired := true, pendingAnchor := some result.record.historyDigest } :=
    hcommit.tail (.flag after.frozen true (.inr (.inr trivial)))
  have hresumed := hpending.trans (resumeRolloverLocked_turns True _ outcome)
  simp only
  split
  · rename_i hfinished
    rw [hfinished] at hresumed
    exact Turns.abandon hresumed
  · rename_i hfinished
    rw [hfinished] at hresumed
    exact hresumed

/-! ## Bootstraps -/

omit [Blake3] in
theorem snoc_isActive {supplied : Supplied} {count : Nat} (h : c.IsActive memberId) :
    IsActive { c with
      set := { c.set with
               supplied := c.set.supplied ++ [supplied], suppliedCount := count } }
      memberId := by
  obtain ⟨member, hfind, hactive⟩ := h
  refine ⟨member, ?_, hactive⟩
  unfold findSuppliedMember at hfind ⊢
  rw [find?_append, hfind]
  rfl

theorem bootstrapMember_turns (c : ReplicatedJournal) (header : Header)
    (record : Record) (outcome : BootstrapOutcome) :
    Turns rolling c (c.bootstrapMember header record outcome).coordinator := by
  unfold bootstrapMember
  split
  · exact .refl
  split
  · exact .single (.freeze c)
  split
  · exact .refl
  rename_i items hitems
  split
  · exact .refl
  · exact .refl
  rename_i file target hcreate
  split
  · exact .refl
  rename_i history _
  have hfresh := prepareBootstrap_fresh hitems
  simp only [createJoiningStorage, ok_iff] at hcreate
  obtain ⟨first, hvalid, hwrite⟩ := hcreate
  obtain ⟨rfl, birth⟩ := birth_of_joining hvalid
  obtain ⟨rfl, rfl, opened⟩ := createWithFirstRecord_opened birth hwrite
  simp only [prepareBootstrap, ok_iff] at hitems
  obtain ⟨_, _, _, _, _, _, _, _, prepared, hprepare, _, rfl⟩ := hitems
  have happended : Turns rolling c (c.beginControlMutation.appendAll
      appendPrepared true prepared outcome.append) :=
    (single (.begun c)).tail (.append true outcome.append rfl
      (.exact (prepareItem_exact record) (fun _ => begun_participants) hprepare))
  unfold finishBootstrap
  simp only
  split
  · exact happended.tail (.freeze _)
  split
  · exact happended.tail (.freeze _)
  rename_i hquorum
  split
  · exact happended
  rename_i set hset
  simp only [noteCommittedBootstrap, ok_iff] at hset
  obtain ⟨_, rfl⟩ := hset
  have hjoined := happended.tail (.join _ history rfl (by
    rw [appendAll_ids _ true prepared outcome.append appendPrepared_header]
    exact (map_ids fun _ _ => rfl : c.beginControlMutation.set.supplied.map
      Supplied.id = _) ▸ hfresh)
    ⟨_, 1, ⟨opened, by simp⟩, birth.rootLog⟩)
  refine hjoined.tail (.note rfl (acks_sublist _ _ _ _) ?_ fun _ => ?_)
  · refine fun memberId hreport => snoc_isActive (acks_active true
      appendPrepared_header (fun item hitem => ?_) hreport)
    obtain ⟨participant, hparticipant, hone⟩ := prepareAll_mem hprepare item hitem
    rw [((prepareItem_exact record).prepared _ _ hone).1]
    exact begin_isActive (isActive_of_mem (targets_active hparticipant))
  · rw [length_map]
    exact (Nat.min_le_right _ _).trans (Nat.le_of_not_lt hquorum)

/-! ## Membership commits -/

theorem ensureParticipants_turns (authorityDigest : Digest) (memberIds : List Id) :
    ∀ c : ReplicatedJournal,
      Turns rolling c (ensureParticipants authorityDigest memberIds c).1 := by
  induction memberIds with
  | nil => exact fun _ => .refl
  | cons memberId rest ih =>
    intro c
    unfold ensureParticipants
    split
    · exact .refl
    · rename_i after hensure
      exact .head (.seat hensure) (ih after)

theorem commitMembership_turns (c : ReplicatedJournal) (record : Record)
    (promotes : Except CoordinatorError Unit) (prepareOutcome commitOutcome : Id → WriteOutcome) :
    Turns rolling c (c.commitMembership record promotes prepareOutcome commitOutcome).1 := by
  refine guard_turns ?_
  split
  · exact .refl
  rename_i proposal _
  have hjoined := ensureParticipants_turns rolling c.set.authority.historyDigest
      ((proposal.topology.members.filter fun member =>
        member.controlRole = voterRole).map TopologyMember.memberId) c
  simp only
  split
  · rename_i hensure
    rw [hensure] at hjoined
    exact hjoined
  rename_i joined hensure
  rw [hensure] at hjoined
  split
  · exact hjoined
  rename_i items hitems
  simp only [prepareMembership, ok_iff] at hitems
  have hprepared : Turns rolling c (joined.beginControlMutation.appendAll
      appendPrepared false items prepareOutcome) :=
    (hjoined.tail (.begun joined)).tail (.append false prepareOutcome rfl
      (.exact (prepareItem_exact record) (fun participant hparticipant => by
        rw [beginControlMutation_participants]
        exact (mem_filter.mp hparticipant).1) hitems.2))
  split
  · exact hprepared.tail (.freeze _)
  split
  · exact Turns.afterError hprepared _
  rename_i commitItems hcommit
  simp only [prepareMembershipCommit, ok_iff] at hcommit
  obtain ⟨_, _, _, _, hcommit⟩ := hcommit
  have hcommitted := hprepared.tail (.append false commitOutcome rfl
    (.exact (commitItem_exact _) (fun _ hp => (mem_filter.mp hp).1) hcommit))
  unfold finishMembership
  simp only
  split
  · exact hcommitted.tail (.freeze _)
  split
  · exact hcommitted.tail (.freeze _)
  rename_i hquorums
  refine hcommitted.tail (.change (acks_sublist _ _ _ _) ?_)
  rw [← countP_eq_length_filter]
  exact (not_not.mp hquorums).1

/-! ## Catch-ups -/

theorem finishCatchup_turns (c : ReplicatedJournal) {targetId : Id}
    (joined : isVoter c.set.authority.topology targetId = false) (member : Member) :
    Turns rolling c (c.finishCatchup targetId member).1 := by
  have hfailed : Turns rolling c (c.noteCatchupFailure targetId) :=
    .single (.relabel joined (fun _ => rfl) fun _ => rfl)
  unfold finishCatchup
  split
  · exact hfailed
  · split
    · exact hfailed
    · exact .single (.relabel joined (fun _ => rfl) fun _ => rfl)

theorem catchUpControlForMember_turns (c : ReplicatedJournal) (targetId : Id)
    (outcome : Nat → WriteOutcome) :
    Turns rolling c (c.catchUpControlForMember targetId outcome).1 := by
  refine guard_turns ?_
  split
  · exact .refl
  rename_i supplied htarget
  simp only [catchupTarget, ok_iff, not_or, Bool.not_eq_true] at htarget
  obtain ⟨_, descriptor, hdescriptor, ⟨_, hrole⟩, found, hfind, ⟨_, hlive⟩, rfl⟩ := htarget
  have hvoter : isVoter c.set.authority.topology targetId = false := by
    rw [Bool.eq_false_iff]
    intro hvoter
    obtain ⟨other, hother, hsame⟩ := isVoter_iff.mp hvoter
    obtain rfl := some.inj (hdescriptor.symm.trans hother)
    exact hrole hsame
  have hfailed : ∀ after : ReplicatedJournal,
      isVoter after.set.authority.topology targetId = false →
        Turn rolling after (after.noteCatchupFailure targetId) :=
    fun _ hvoter => .relabel hvoter (fun _ => rfl) fun _ => rfl
  split
  · exact .single (hfailed c hvoter)
  split
  · exact .refl
  rename_i records _
  unfold copyRecords
  split
  · exact finishCatchup_turns rolling c hvoter _
  split
  · rename_i journal hopen hseat
    have hput : Turns rolling c (c.putMember targetId
        (replayRecords outcome 0 records ⟨found.member, journal⟩).1.member) :=
      .single (.put hfind hlive hseat hopen)
    split
    · rename_i after noted e hreplay
      rw [hreplay] at hput
      cases noted with
      | true => exact hput.tail (hfailed _ hvoter)
      | false => exact hput
    · rename_i after hreplay
      rw [hreplay] at hput
      exact hput.trans (finishCatchup_turns rolling (c.putMember targetId after.member) hvoter _)
  · exact .single (hfailed c hvoter)

end

/-! ## What every turn keeps -/

theorem Prepared.header (h : Prepared c append items) (claimed : Claimed)
    (prepared : PreparedAppend) (outcome : WriteOutcome) :
    (append claimed prepared outcome).1.member.header = claimed.member.header := by
  cases h with
  | exact => exact appendPrepared_header claimed prepared outcome
  | checkpoint => exact appendPreparedCheckpoint_header claimed prepared outcome

theorem Prepared.sound (h : Prepared c append items) (sound : SoundMembers c.set.supplied)
    (deactivate : Bool) (outcome : Id → WriteOutcome) :
    SoundMembers (c.appendAll append deactivate items outcome).set.supplied := by
  cases h with
  | exact exact' hsub hitems => exact appendExact_sound sound hsub exact' hitems deactivate outcome
  | checkpoint hsub hitems =>
    exact appendAll_sound sound appendPreparedCheckpoint_header (checkpoint_writes sound hsub hitems)
      fun item hitem _ => checkpoint_roots hitems item hitem

omit [Blake3] in
theorem updateMember_ids (ids : ∀ member, member.id = memberId → (f member).id = memberId) :
    (updateMember supplied memberId f).map Supplied.id = supplied.map Supplied.id :=
  map_ids fun member _ => by
    split
    case isTrue hid => exact (ids member hid).trans hid.symm
    case isFalse => rfl

/-- A turn changes no identifier, and at most brings in a new one. -/
theorem Turn.distinct (h : Turn rolling before after)
    (distinct : (before.set.supplied.map Supplied.id).Nodup) :
    (after.set.supplied.map Supplied.id).Nodup := by
  suffices hids : after.set.supplied.map Supplied.id = before.set.supplied.map Supplied.id ∨
      ∃ fresh, fresh ∉ before.set.supplied.map Supplied.id ∧
        after.set.supplied.map Supplied.id = before.set.supplied.map Supplied.id ++ [fresh] by
    obtain hsame | ⟨fresh, hfresh, hnew⟩ := hids
    · rw [hsame]
      exact distinct
    · rw [hnew]
      exact distinct.append (nodup_singleton fresh) (by simpa using hfresh)
  cases h with
  | flag => exact .inl rfl
  | unready hsame => exact .inl (contents_ids hsame)
  | append deactivate outcome _ prepared =>
    exact .inl (appendAll_ids before deactivate _ outcome prepared.header)
  | publish => exact .inl ((map_ids fun _ _ => publishTo_id _ _ _).trans (map_ids fun _ _ => rfl))
  | roll => exact .inl ((map_ids fun _ _ => reclaimTo_id _ _ _).trans
      ((map_ids fun _ _ => publishTo_id _ _ _).trans (map_ids fun _ _ => rfl)))
  | note => exact .inl (map_ids fun _ _ => rfl)
  | change =>
    exact .inl ((map_ids (f := keepSeat _) fun _ _ => rfl).trans (map_ids fun _ _ => rfl))
  | join target _ _ hfresh => exact .inr ⟨target.header.memberId, hfresh, map_append⟩
  | seat hensure =>
    obtain rfl | ⟨_, _, _, _, _, rfl⟩ := ensureParticipant_cases hensure
    · exact .inl rfl
    · exact .inl (updateMember_ids fun _ hid => hid)
  | relabel _ member _ =>
    exact .inl (updateMember_ids fun other hid => by rw [Supplied.id, member]; exact hid)
  | put hfind =>
    refine .inl (updateMember_ids fun _ _ => ?_)
    rw [Supplied.id, replayRecords_header]
    exact findSuppliedMember_id hfind

/-- **Every turn keeps the members sound.** -/
theorem Turn.sound (h : Turn rolling before after) (sound : SoundMembers before.set.supplied) :
    SoundMembers after.set.supplied := by
  refine ⟨h.distinct sound.distinct, ?_⟩
  cases h with
  | flag => exact sound.sound
  | unready hsame => exact (sound.of_contents hsame).sound
  | append deactivate outcome _ prepared => exact (prepared.sound sound deactivate outcome).sound
  | publish outcome => exact (publishPhase_sound sound outcome).sound
  | roll outcome => exact (reclaimPhase_sound sound outcome).sound
  | note => exact (noteAuthority_sound sound _ _).sound
  | change => exact (keepSeat_sound (noteCommittedMembership_sound sound _ _ _ _) _).sound
  | join target history _ hfresh hsound => exact (SoundMembers.snoc sound hsound hfresh).sound
  | seat hensure => exact (ensureParticipant_sound sound hensure).sound
  | relabel _ member seat =>
    refine (sound.of_contents (contents_map (fun other => ?_) fun other => ?_)).sound <;> split
    · exact member other
    · rfl
    · exact seat other
    · rfl
  | put hfind hlive hseat hopen =>
    obtain ⟨log, first, tracks, roots⟩ := sound.sound _ (mem_of_find?_eq_some hfind)
    obtain ⟨anchor, names⟩ := tracks.opened.names hlive
    obtain ⟨log', htracked, hroots⟩ := replayRecords_tracked _ _ 0
      (tracks.opened.openMember names hopen) roots
    exact (putMember_sound sound hfind hseat (replayRecords_header _ _ _ _) htracked.opened
      hroots).sound

theorem Turns.sound (h : Turns rolling before after) (sound : SoundMembers before.set.supplied) :
    SoundMembers after.set.supplied := by
  induction h with
  | refl => exact sound
  | tail _ turn ih => exact turn.sound ih

/-- **A bootstrap keeps the members sound, and leaves a formatted file.** -/
theorem bootstrapMember_arrives (h : SoundMembers c.set.supplied) (header : Header)
    (record : Record) (outcome : BootstrapOutcome) :
    Arrives c header (c.bootstrapMember header record outcome) := by
  have hstay : ∀ {file : Option Storage}, ∀ member ∈ c.set.supplied,
      member.id ∈ c.set.supplied.map Supplied.id ∨
        member.id = header.memberId ∧ file = some member.member.storage :=
    fun _ hmember => .inl (mem_map_of_mem hmember)
  have hsound := Turns.sound (bootstrapMember_turns True c header record outcome) h
  revert hsound
  unfold bootstrapMember
  split
  · exact fun hsound => ⟨hsound, by simp, hstay⟩
  split
  · exact fun hsound => ⟨hsound, by simp, hstay⟩
  split
  · exact fun hsound => ⟨hsound, by simp, hstay⟩
  rcases hcreate : createJoiningStorage header record outcome.create with _ | made
  · exact fun hsound => ⟨hsound, by simp, hstay⟩
  simp only [createJoiningStorage, ok_iff] at hcreate
  obtain ⟨first, hvalid, rfl⟩ := hcreate
  obtain ⟨rfl, birth⟩ := birth_of_joining hvalid
  have hformatted := birth.formatted outcome.create
  cases hwrite : createWithFirstRecord header record outcome.create with
  | mk file result =>
    rw [hwrite] at hformatted
    have hfile : ∀ found, some file = some found → Formatted header.memberId found :=
      fun found hfound => some.inj hfound ▸ hformatted
    rcases result with _ | target
    · exact fun hsound => ⟨hsound, hfile, hstay⟩
    obtain ⟨rfl, hheader, _⟩ := createWithFirstRecord_opened birth hwrite
    simp only
    split
    · exact fun hsound => ⟨hsound, hfile, hstay⟩
    refine fun hsound => ⟨hsound, hfile, fun member hmember => ?_⟩
    refine (finishBootstrap_arrival _ _ _ _ _ member hmember).imp_right ?_
    rintro rfl
    exact ⟨congrArg Header.memberId hheader, rfl⟩

end ReplicatedJournal

end Zettide
