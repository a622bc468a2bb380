import Zettide.Pool.Advance

/-! # Operations that change who takes part

Bootstrap, membership commits and catch-ups, and the opening of a coordinator: each of them leaves a
coordinator that stands at its authority. -/

namespace Zettide.ReplicatedJournal

open List PoolTopology Journal PoolMemberSet Standing Option Ack

variable [Blake3]

variable {c after : ReplicatedJournal} {memberId : Id} {f : Supplied → Supplied}
  {authorityDigest : Digest} {items : List Item} {activeMembers : List Id} {supplied : Supplied}
  {outcome : Id → WriteOutcome} {member : Supplied} {journal : Journal} {header : Header}

/-- An operation that leaves a standing coordinator ready. -/
theorem Standing.leaves (h : after.Standing)
    (ready : after.set.controlWrite.isSome) {succeeded : Prop} : Leaves after succeeded :=
  ⟨h, fun _ => h.stands ready⟩

/-- A change that keeps the active seats, and the members in them. -/
theorem Standing.carry (h : c.Standing) (sound : SoundMembers after.set.supplied)
    (ordered : after.Ordered) (authority : after.set.authority = c.set.authority)
    (ready : after.set.controlWrite = c.set.controlWrite)
    (came : ∀ member ∈ after.set.supplied, ∀ journal, member.seat = some ⟨journal, true⟩ →
      ∃ before ∈ c.set.supplied, before.seat = some ⟨journal, true⟩ ∧ member.member = before.member)
    (stays : ∀ before ∈ c.set.supplied, before.Active →
      ∃ member ∈ after.set.supplied, member.id = before.id ∧ member.Active) :
    after.Standing := by
  refine ⟨sound, ordered, ?_, ?_, ?_⟩
  · rw [ready, authority]
    intro hready member hmember journal hseat
    obtain ⟨before, hbefore, hbeforeSeat, hsame⟩ := came member hmember journal hseat
    rw [hsame]
    exact h.stands hready before hbefore journal hbeforeSeat
  · rw [ready, authority]
    intro hready member hmember journal hseat
    obtain ⟨before, hbefore, hbeforeSeat, hsame⟩ := came member hmember journal hseat
    rw [Supplied.id, hsame]
    exact h.voters hready before hbefore journal hbeforeSeat
  · rw [ready]
    intro found hfound memberId hlisted
    obtain ⟨member, hmember, rfl, hactive⟩ := h.listed found hfound memberId hlisted
    exact stays member hmember hactive

/-! ## Bootstrap -/

section

variable (h : c.Standing)
include h

theorem Standing.snoc {newcomer : Supplied} (order : after.order = c.order)
    (authority : after.set.authority = c.set.authority)
    (ready : after.set.controlWrite = c.set.controlWrite)
    (supplied : after.set.supplied = c.set.supplied ++ [newcomer])
    (unseated : newcomer.seat = none) (sound : SoundMembers after.set.supplied) :
    after.Standing := by
  have hmem : ∀ member ∈ after.set.supplied, ∀ seat, member.seat = some seat →
      member ∈ c.set.supplied := by
    intro member hmember seat hseat
    rw [supplied] at hmember
    rcases mem_append.mp hmember with hold | hnew
    · exact hold
    · obtain rfl := mem_singleton.mp hnew
      rw [unseated] at hseat
      cases hseat
  have hold : ∀ member ∈ c.set.supplied, member ∈ after.set.supplied := by
    rw [supplied]
    exact fun member hmember => mem_append_left _ hmember
  refine h.carry sound ⟨by rw [order]; exact h.ordered.distinct, fun memberId => ?_⟩ authority ready
    (fun member hmember journal hseat => ⟨member, hmem member hmember _ hseat, hseat, rfl⟩)
    fun member hmember hactive => ⟨member, hold member hmember, rfl, hactive⟩
  rw [order, h.ordered.seated]
  constructor
  · rintro ⟨member, hmember, hrest⟩
    exact ⟨member, hold member hmember, hrest⟩
  · rintro ⟨member, hmember, hid, hseated⟩
    obtain ⟨seat, hseat⟩ := isSome_iff_exists.mp hseated
    exact ⟨member, hmem member hmember seat hseat, hid, hseated⟩

theorem prepareBootstrap_phase (room : c.HasRoom 2) {record : Record}
    (hprepare : c.prepareBootstrap header record = .ok items) :
    ∃ event, Phase c.beginControlMutation appendPrepared items event := by
  simp only [prepareBootstrap, ok_iff] at hprepare
  obtain ⟨_, _, _, _, _, _, _, _, prepared, hitems, _, rfl⟩ := hprepare
  exact exact_phase h room hitems

/-- **The appends of a bootstrap keep the coordinator standing.** -/
theorem finishBootstrap_leaves (ready : c.set.controlWrite.isSome)
    (room : c.HasRoom 2) {record : Record} (hprepare : c.prepareBootstrap header record = .ok items)
    {target : Member} {history : HistoryScan}
    (sound : SoundMembers (c.finishBootstrap items target history outcome).1.set.supplied) :
    Leaves (c.finishBootstrap items target history outcome).1
      (∃ result, (c.finishBootstrap items target history outcome).2 = .ok result) := by
  obtain ⟨event, phase⟩ := prepareBootstrap_phase h room hprepare
  have hcommitted := phase.unready rfl outcome
  revert sound
  unfold finishBootstrap
  simp only
  split
  · exact fun _ => ⟨hcommitted.freeze, by simp⟩
  rename_i first hfirst
  split
  · exact fun _ => ⟨hcommitted.freeze, by simp⟩
  split
  · exact fun _ => ⟨hcommitted, by simp⟩
  rename_i set hset
  intro sound
  have hevent : (PoolAuthority.authorityFromRecord .memberBootstrap
      c.set.authority first.result.record
      ((c.beginControlMutation.acks appendPrepared items outcome).map
        memberId).length).historyDigest = event :=
    phase.report_event (mem_of_head? hfirst)
  simp only [noteCommittedBootstrap, ok_iff] at hset
  obtain ⟨_, rfl⟩ := hset
  refine leaves ?_ rfl
  exact (phase.noted outcome hevent (h.begunVoters ready)).snoc rfl rfl rfl map_append rfl sound

/-- **A bootstrap keeps the coordinator standing.** -/
theorem bootstrapMember_leaves (room : c.HasRoom 2) (header : Header)
    (record : Record) (outcome : BootstrapOutcome) :
    Leaves (c.bootstrapMember header record outcome).coordinator
      (∃ result, (c.bootstrapMember header record outcome).result = .ok result) := by
  have sound := (bootstrapMember_arrives h.sound header record outcome).sound
  revert sound
  unfold bootstrapMember
  split
  · exact fun _ => ⟨h, by simp⟩
  split
  · exact fun _ => ⟨h.freeze, by simp⟩
  rename_i hready
  split
  · exact fun _ => ⟨h, by simp⟩
  rename_i items hprepare
  split
  · exact fun _ => ⟨h, by simp⟩
  · exact fun _ => ⟨h, by simp⟩
  · split
    · exact fun _ => ⟨h, by simp⟩
    · exact fun sound => finishBootstrap_leaves h (not_not.mp hready) room hprepare sound

end

/-! ## Membership commits -/

omit [Blake3] in
/-- A change of the seat of one member that has none. -/
theorem updateMember_mem {supplied : List Supplied}
    {after : Supplied} (h : after ∈ PoolMemberSet.updateMember supplied memberId f) :
    ∃ member ∈ supplied, (member.id = memberId ∧ after = f member) ∨
      (member.id ≠ memberId ∧ after = member) := by
  obtain ⟨member, hmember, rfl⟩ := List.mem_map.mp h
  by_cases hid : member.id = memberId
  · exact ⟨member, hmember, .inl ⟨hid, if_pos hid⟩⟩
  · exact ⟨member, hmember, .inr ⟨hid, if_neg hid⟩⟩

omit [Blake3] in
theorem mem_updateMember {supplied : List Supplied}
    (h : member ∈ supplied) (hid : member.id ≠ memberId) :
    member ∈ updateMember supplied memberId f :=
  mem_map.mpr ⟨member, h, if_neg hid⟩

theorem ensureParticipant_ordered (h : c.Ordered)
    (hensure : c.ensureParticipant memberId authorityDigest = .ok after) :
    after.Ordered := by
  obtain rfl | ⟨habsent, supplied, _, hfind, _, rfl⟩ := ensureParticipant_cases hensure
  · exact h
  have hfound := mem_of_find?_eq_some hfind
  have hid : supplied.id = memberId := by simpa using find?_some hfind
  refine ⟨?_, fun other => ?_⟩
  · exact nodup_append.mpr ⟨h.distinct, nodup_singleton _, by
      intro a ha b hb
      obtain rfl := mem_singleton.mp hb
      exact fun hab => habsent (hab ▸ ha)⟩
  · rw [mem_append, mem_singleton, h.seated]
    constructor
    · rintro (⟨member, hmember, rfl, hseated⟩ | rfl)
      · refine ⟨member, mem_updateMember hmember fun hsame => ?_, rfl, hseated⟩
        exact habsent ((h.seated memberId).mpr ⟨member, hmember, hsame, hseated⟩)
      · exact ⟨_, mem_map.mpr ⟨supplied, hfound, if_pos hid⟩, hid, rfl⟩
    · rintro ⟨member, hmember, rfl, hseated⟩
      obtain ⟨before, hbefore, ⟨hsame, rfl⟩ | ⟨_, rfl⟩⟩ := updateMember_mem hmember
      · exact .inr hsame
      · exact .inl ⟨member, hbefore, rfl, hseated⟩

section

variable (hensure : c.ensureParticipant memberId authorityDigest = .ok after)
include hensure

/-- A new participant is not active, and the others are as they were. -/
theorem ensureParticipant_active (hmember : member ∈ after.set.supplied)
    (hseat : member.seat = some ⟨journal, true⟩) : member ∈ c.set.supplied := by
  obtain rfl | ⟨_, _, _, _, _, rfl⟩ := ensureParticipant_cases hensure
  · exact hmember
  obtain ⟨before, hbefore, ⟨_, rfl⟩ | ⟨_, rfl⟩⟩ := updateMember_mem hmember
  · simp at hseat
  · exact hbefore

theorem ensureParticipant_set :
    after.set.authority = c.set.authority ∧ after.set.controlWrite = c.set.controlWrite ∧
      after.quorum = c.quorum ∧ after.recoveryOnly = c.recoveryOnly ∧
      ∀ member ∈ c.set.supplied, member.id ∈ c.order → member ∈ after.set.supplied := by
  obtain rfl | ⟨habsent, _, _, _, _, rfl⟩ := ensureParticipant_cases hensure
  · exact ⟨rfl, rfl, rfl, rfl, fun _ hmember _ => hmember⟩
  refine ⟨rfl, rfl, rfl, rfl, fun member hmember hordered => ?_⟩
  exact mem_updateMember hmember fun hsame => habsent (hsame ▸ hordered)

end

theorem ensureParticipant_standing (h : c.Standing)
    (hensure : c.ensureParticipant memberId authorityDigest = .ok after) :
    after.Standing ∧ after.set.authority = c.set.authority := by
  obtain ⟨hauthority, hready, _, _, hkept⟩ := ensureParticipant_set hensure
  refine ⟨h.carry (ensureParticipant_sound h.sound hensure)
    (ensureParticipant_ordered h.ordered hensure) hauthority hready
    (fun member hmember journal hseat =>
      ⟨member, ensureParticipant_active hensure hmember hseat, hseat, rfl⟩) ?_, hauthority⟩
  rintro member hmember ⟨journal, hseat⟩
  refine ⟨member, hkept member hmember ?_, rfl, journal, hseat⟩
  exact (h.ordered.seated member.id).mpr ⟨member, hmember, rfl, by simp [hseat]⟩

theorem ensureParticipants_standing (authorityDigest : Digest) (memberIds : List Id) :
    ∀ {c : ReplicatedJournal}, c.Standing →
      (ensureParticipants authorityDigest memberIds c).1.Standing ∧
        (ensureParticipants authorityDigest memberIds c).1.set.authority = c.set.authority := by
  induction memberIds with
  | nil => exact fun h => ⟨h, rfl⟩
  | cons memberId rest ih =>
    intro c h
    unfold ensureParticipants
    cases hensure : c.ensureParticipant memberId authorityDigest with
    | error e => exact ⟨h, rfl⟩
    | ok after =>
      obtain ⟨hafter, hauthority⟩ := ensureParticipant_standing h hensure
      obtain ⟨hrest, hsame⟩ := ih hafter
      exact ⟨hrest, hsame.trans hauthority⟩

/-- A member that reported is live and has the event at the tail of its journal. -/
theorem reported_written (sound : SoundMembers c.set.supplied) (ordered : c.Ordered)
    {append : Append} (writes : ∀ member ∈ c.set.supplied, WritesPrepared append member items)
    {event : Digest} (events : ∀ item ∈ items, item.prepared.record.historyDigest = event)
    (deactivate : Bool) (h : memberId ∈ (c.acks append items outcome).map Ack.memberId) :
    ∃ after ∈ (c.appendAll append deactivate items outcome).set.supplied,
      after.id = memberId ∧ ∃ seat, after.seat = some seat ∧
        Supplied.At { after with seat := some { seat with active := true } } event := by
  obtain ⟨report, hreport, rfl⟩ := List.mem_map.mp h
  obtain ⟨member, hmember, hseated, found, hfind, hdone, rfl⟩ :=
    (mem_acks sound ordered writes).mp hreport
  have hfound := mem_of_find?_eq_some hfind
  have hsame : found.memberId = member.id := by simpa using find?_some hfind
  have happended := appendTo_appended deactivate outcome (sound.sound member hmember)
    (writes member hmember)
  refine ⟨_, mem_map_of_mem hmember, happended.id, ?_⟩
  cases happended with
  | idle hidle _ =>
    rcases hidle with hnone | hnone
    · rw [hnone] at hseated
      cases hseated
    · exact absurd hsame (hnone found hfound)
  | failed _ _ _ _ _ hfailed _ _ _ => exact absurd hdone hfailed
  | written seat item hseat hitem hid _ hlive hmode hafter =>
    rw [hafter]
    refine ⟨_, rfl, fun journal hjournal => ?_⟩
    simp only [some.injEq, Seat.mk.injEq, and_true] at hjournal
    subst hjournal
    refine ⟨?_, by simpa using hmode, item.prepared.record, by simp, events item hitem⟩
    rw [written_frozen ⟨member.member, seat.journal⟩ item.prepared .done hlive]
    rfl

omit [Blake3] in
theorem keepSeat_active (h : (keepSeat activeMembers supplied).seat = some ⟨journal, true⟩) :
    supplied.id ∈ activeMembers := by
  by_contra hnot
  simp [keepSeat, hnot] at h

omit [Blake3] in
theorem keepSeat_of_mem
    (h : supplied.id ∈ activeMembers) {seat : Seat} (hseat : supplied.seat = some seat) :
    (keepSeat activeMembers supplied).seat = some ⟨seat.journal, true⟩ := by
  simp [keepSeat, h, hseat]

omit [Blake3] in
/-- The participants after a membership change are the active ones. -/
theorem keepSeat_ordered (h : c.Ordered)
    (order : after.order = c.order.filter fun memberId => memberId ∈ activeMembers)
    (supplied : after.set.supplied = (c.set.supplied.map f).map (keepSeat activeMembers))
    (ids : ∀ member, (f member).id = member.id) (seats : ∀ member, (f member).seat = member.seat) :
    after.Ordered := by
  have hseat : ∀ member, (keepSeat activeMembers (f member)).seat.isSome ↔
      member.id ∈ activeMembers ∧ member.seat.isSome := by
    intro member
    by_cases hactive : member.id ∈ activeMembers <;> simp [keepSeat, ids, seats, hactive]
  refine ⟨by rw [order]; exact h.distinct.filter _, fun memberId => ?_⟩
  rw [order, List.mem_filter, h.seated, supplied]
  constructor
  · rintro ⟨⟨member, hmember, rfl, hseated⟩, hactive⟩
    refine ⟨_, List.mem_map_of_mem (List.mem_map_of_mem hmember), ids member, ?_⟩
    exact (hseat member).mpr ⟨by simpa using hactive, hseated⟩
  · rintro ⟨member, hmember, rfl, hseated⟩
    obtain ⟨middle, hmiddle, rfl⟩ := List.mem_map.mp hmember
    obtain ⟨before, hbefore, rfl⟩ := List.mem_map.mp hmiddle
    obtain ⟨hactive, hsome⟩ := (hseat before).mp hseated
    exact ⟨⟨before, hbefore, (ids before).symm, hsome⟩, by
      simpa using (ids before).symm ▸ hactive⟩

section

variable {committed : ReplicatedJournal} {record : Record} {proposal : Proposal}
  {members activeMembers : List Id}

omit [Blake3] in
theorem settled_mem {after : Supplied}
    (h : after ∈ (committed.settled record proposal members activeMembers).set.supplied) :
    ∃ member ∈ committed.set.supplied,
      after.member = member.member ∧ after.seat = (keepSeat activeMembers member).seat := by
  obtain ⟨noted, hnoted, rfl⟩ := mem_map.mp h
  obtain ⟨member, hmember, rfl⟩ := mem_map.mp hnoted
  exact ⟨member, hmember, rfl, rfl⟩

/-- **When the active members have written the commit, the coordinator stands at it.** -/
theorem settled_standing (record : Record) (proposal : Proposal) (members : List Id)
    (sound : SoundMembers committed.set.supplied) (ordered : committed.Ordered)
    (written : ∀ memberId ∈ activeMembers, ∃ member ∈ committed.set.supplied,
      member.id = memberId ∧ ∃ seat, member.seat = some seat ∧
        Supplied.At { member with seat := some { seat with active := true } } record.historyDigest)
    (voters : ∀ memberId ∈ activeMembers, isVoter proposal.topology memberId = true) :
    (committed.settled record proposal members activeMembers).Standing := by
  have hseat : ∀ after ∈ (committed.settled record proposal members activeMembers).set.supplied,
      ∀ journal, after.seat = some ⟨journal, true⟩ →
        after.id ∈ activeMembers ∧ after.At record.historyDigest := by
    intro after hafter journal hactive
    obtain ⟨member, hmember, hsame, hkept⟩ := settled_mem hafter
    rw [hkept] at hactive
    have hmem := keepSeat_active hactive
    obtain ⟨other, hother, hid, seat, hfound, hat⟩ := written _ hmem
    obtain rfl := inj_on_of_nodup_map sound.distinct hother hmember hid
    refine ⟨?_, fun opened hopened => ?_⟩
    · rw [Supplied.id, hsame]
      exact hmem
    · rw [hkept, keepSeat_of_mem hmem hfound] at hopened
      rw [hsame]
      exact hat opened hopened
  refine ⟨keepSeat_sound (noteCommittedMembership_sound sound _ _ _ _) _,
    keepSeat_ordered ordered rfl rfl (fun _ => rfl) fun _ => rfl, ?_, ?_, ?_⟩
  · intro _ after hafter journal hactive
    exact (hseat after hafter journal hactive).2 journal hactive
  · intro _ after hafter journal hactive
    exact voters _ (hseat after hafter journal hactive).1
  · intro ready hready memberId hlisted
    cases hready
    obtain ⟨member, hmember, rfl, seat, hfound, _⟩ := written memberId hlisted
    exact ⟨_, mem_map_of_mem (mem_map_of_mem hmember), rfl, seat.journal,
      keepSeat_of_mem hlisted hfound⟩

end

/-- **The commit phase of a membership change leaves the new voters that have it active.** -/
theorem finishMembership_commits (sound : SoundMembers c.set.supplied) (ordered : c.Ordered)
    (unready : c.set.controlWrite = none) {proposal : Proposal} {reports : List Ack}
    (hitems : c.prepareMembershipCommit proposal reports = .ok items)
    (outcome : Id → WriteOutcome) :
    Commits (c.finishMembership proposal items outcome).1
      (c.finishMembership proposal items outcome).2 := by
  simp only [prepareMembershipCommit, ok_iff] at hitems
  obtain ⟨leader, _, payload, _, hprepare⟩ := hitems
  have hwrites := exact_writes sound (fun _ hp => (mem_filter.mp hp).1) (commitItem_exact _)
    hprepare
  have hsound := appendExact_sound sound (fun _ hp => (mem_filter.mp hp).1)
    (commitItem_exact _) hprepare false outcome
  have hordered := appendAll_ordered sound ordered false outcome hwrites
  obtain ⟨event, events⟩ := exists_event hprepare
  have hcommitted : (c.appendAll appendPrepared false items outcome).Standing :=
    .unready hsound hordered unready
  unfold finishMembership
  simp only
  split
  · exact hcommitted.freeze.fails _
  rename_i first hfirst
  split
  · exact hcommitted.freeze.fails _
  have hevent : event = first.result.record.historyDigest := by
    obtain ⟨_, _, _, item, hfind, _, rfl⟩ :=
      (mem_acks sound ordered hwrites).mp (mem_of_head? hfirst)
    exact (events item (mem_of_find?_eq_some hfind)).symm
  subst hevent
  have hstanding := settled_standing first.result.record proposal
    ((c.acks appendPrepared items outcome).map Ack.memberId) hsound hordered
    (fun memberId hmem =>
      reported_written sound ordered hwrites events false (mem_filter.mp hmem).1)
    fun memberId hmem => (mem_filter.mp hmem).2
  refine ⟨⟨hstanding, fun _ => hstanding.stands rfl⟩, ?_⟩
  intro committed hok hdegraded memberId hvoter
  cases hok
  rw [decide_eq_false_iff_not, Nat.not_lt] at hdegraded
  -- as many of the new voters have it as there are
  have hmem : memberId ∈ ((c.acks appendPrepared items outcome).map
      Ack.memberId).filter (isVoter proposal.topology) := by
    refine mem_of_card_le ((acks_distinct ordered _ _ _).filter _) (fun other hother => ?_) ?_
      (mem_voterIds_of_isVoter hvoter)
    · exact mem_voterIds_of_isVoter (mem_filter.mp hother).2
    · exact (card_voterIds_le _).trans hdegraded
  obtain ⟨member, hmember, hid, journal, hseat⟩ := hstanding.listed _ rfl memberId hmem
  exact ⟨member, hmember, hid, (hstanding.stands rfl member hmember).endsWith
    (hstanding.sound.sound member hmember) hseat⟩

/-- **A membership commit keeps the coordinator standing.** -/
theorem commitMembership_commits (h : c.Standing) (record : Record)
    (promotes : Except CoordinatorError Unit) (prepareOutcome commitOutcome : Id → WriteOutcome) :
    Commits (c.commitMembership record promotes prepareOutcome commitOutcome).1
      (c.commitMembership record promotes prepareOutcome commitOutcome).2 := by
  unfold commitMembership
  split
  · exact h.fails _
  split
  · exact h.freeze.fails _
  split
  · exact h.fails _
  rename_i proposal _
  have hjoined := (ensureParticipants_standing c.set.authority.historyDigest
    ((proposal.topology.members.filter fun member =>
      member.controlRole = voterRole).map TopologyMember.memberId) h).1
  simp only
  split
  · rename_i joined e hensure
    rw [hensure] at hjoined
    exact hjoined.fails _
  rename_i joined hensure
  rw [hensure] at hjoined
  split
  · exact hjoined.fails _
  rename_i items hprepare
  simp only [prepareMembership, ok_iff] at hprepare
  have hbegun := beginControlMutation_sound hjoined.sound
  have hsub : ∀ participant ∈ joined.membershipTargets proposal,
      participant ∈ joined.beginControlMutation.participants := by
    rw [beginControlMutation_participants]
    exact fun participant hparticipant => (mem_filter.mp hparticipant).1
  have hsound := appendExact_sound hbegun hsub (prepareItem_exact record) hprepare.2 false
    prepareOutcome
  have hwrites := exact_writes hbegun hsub (prepareItem_exact record) hprepare.2
  have hordered := appendAll_ordered hbegun
    (beginControlMutation_ordered hjoined.ordered) false prepareOutcome hwrites
  have hprepared := unready hsound hordered rfl
  split
  · exact hprepared.freeze.fails _
  split
  · exact (hprepared.afterError _).fails _
  · rename_i commitItems hcommit
    exact finishMembership_commits hsound hordered rfl hcommit _

/-! ## Catching up -/

section

variable (h : c.Standing)
include h

/-- A change of members that keeps the seats, and the members that have one. -/
theorem Standing.map (order : after.order = c.order)
    (authority : after.set.authority = c.set.authority)
    (ready : after.set.controlWrite = c.set.controlWrite)
    (supplied : after.set.supplied = c.set.supplied.map f)
    (ids : ∀ member ∈ c.set.supplied, (f member).id = member.id)
    (seats : ∀ member ∈ c.set.supplied, (f member).seat = member.seat)
    (same : ∀ member ∈ c.set.supplied, member.seat.isSome → (f member).member = member.member)
    (sound : SoundMembers after.set.supplied) : after.Standing := by
  refine h.carry sound (h.ordered.map order supplied ids fun member hmember => by
    rw [seats member hmember]) authority ready ?_ ?_
  · intro member hmember journal hseat
    rw [supplied] at hmember
    obtain ⟨before, hbefore, rfl⟩ := mem_map.mp hmember
    rw [seats before hbefore] at hseat
    exact ⟨before, hbefore, hseat, same before hbefore (by simp [hseat])⟩
  · rintro member hmember ⟨journal, hseat⟩
    refine ⟨f member, ?_, ids member hmember, journal, (seats member hmember).trans hseat⟩
    rw [supplied]
    exact mem_map_of_mem hmember

theorem noteCatchupFailure_standing (targetId : Id) : (c.noteCatchupFailure targetId).Standing :=
  h.map rfl rfl rfl rfl (fun _ _ => by split <;> rfl) (fun _ _ => by split <;> rfl)
    (fun _ _ _ => by split <;> rfl) (noteCatchupFailure_sound h.sound targetId)

theorem finishCatchup_standing (targetId : Id) (member : Member) :
    (c.finishCatchup targetId member).1.Standing ∧
      (c.finishCatchup targetId member).1.set.controlWrite = c.set.controlWrite := by
  have hsound := finishCatchup_sound h.sound targetId member
  revert hsound
  unfold finishCatchup
  split
  · exact fun _ => ⟨noteCatchupFailure_standing h targetId, rfl⟩
  split
  · exact fun _ => ⟨noteCatchupFailure_standing h targetId, rfl⟩
  · intro hsound
    exact ⟨h.map rfl rfl rfl rfl (fun _ _ => by split <;> rfl) (fun _ _ => by split <;> rfl)
      (fun _ _ _ => by split <;> rfl) hsound, rfl⟩

theorem copyRecords_standing {targetId : Id}
    (hfind : findSuppliedMember c.set.supplied targetId = some supplied)
    (live : supplied.member.frozen = false) (records : List Record) (outcome : Nat → WriteOutcome) :
    (c.copyRecords targetId supplied records outcome).1.Standing ∧
      (c.copyRecords targetId supplied records outcome).1.set.controlWrite =
        c.set.controlWrite := by
  unfold copyRecords
  split
  · exact finishCatchup_standing h targetId _
  split
  · rename_i journal hopen hseat
    obtain ⟨log, first, tracks, roots⟩ := h.sound.sound supplied (mem_of_find?_eq_some hfind)
    obtain ⟨anchor, names⟩ := tracks.opened.names live
    obtain ⟨_, htracked, hroots⟩ := replayRecords_tracked outcome records 0
      (tracks.opened.openMember names hopen) roots
    have hheader := replayRecords_header outcome records 0 ⟨supplied.member, journal⟩
    have hput : ∀ {after : Claimed}, after.member.header = supplied.member.header →
        SoundMembers (c.putMember targetId after.member).set.supplied →
        (c.putMember targetId after.member).Standing := by
      intro after hkept hsound
      refine h.map rfl rfl rfl rfl (fun other hother => ?_) (fun other hother => ?_)
        (fun other hother hseated => ?_) hsound
      · split
        case isTrue hid =>
          obtain rfl := findSuppliedMember_unique h.sound.distinct hfind hother hid
          exact congrArg Header.memberId hkept
        case isFalse => rfl
      · split <;> rfl
      · split
        case isTrue hid =>
          obtain rfl := findSuppliedMember_unique h.sound.distinct hfind hother hid
          rw [hseat] at hseated
          cases hseated
        case isFalse => rfl
    split
    · rename_i after noted e hreplay
      rw [hreplay] at htracked hheader
      have hstanding := hput hheader
        (putMember_sound h.sound hfind hseat hheader htracked.opened hroots)
      cases noted with
      | true => exact ⟨noteCatchupFailure_standing hstanding targetId, rfl⟩
      | false => exact ⟨hstanding, rfl⟩
    · rename_i after hreplay
      rw [hreplay] at htracked hheader
      have hstanding := hput hheader
        (putMember_sound h.sound hfind hseat hheader htracked.opened hroots)
      exact finishCatchup_standing hstanding targetId _
  · exact ⟨noteCatchupFailure_standing h targetId, rfl⟩

/-- **A catch-up keeps the coordinator standing.** -/
theorem catchUpControlForMember_leaves (targetId : Id) (outcome : Nat → WriteOutcome) :
    Leaves (c.catchUpControlForMember targetId outcome).1
      (∃ result, (c.catchUpControlForMember targetId outcome).2 = .ok result) := by
  unfold catchUpControlForMember
  split
  · exact ⟨h, by simp⟩
  split
  · exact ⟨h.freeze, by simp⟩
  rename_i hready
  split
  · exact ⟨h, by simp⟩
  rename_i supplied htarget
  simp only [catchupTarget, ok_iff, not_or, Bool.not_eq_true] at htarget
  obtain ⟨_, _, _, _, found, hfind, ⟨_, hlive⟩, rfl⟩ := htarget
  split
  · exact ⟨noteCatchupFailure_standing h targetId, by simp⟩
  split
  · exact ⟨h, by simp⟩
  · rename_i records _
    obtain ⟨hstanding, hsame⟩ := copyRecords_standing h hfind hlive records outcome
    exact hstanding.leaves (by rw [hsame]; exact not_not.mp hready)

end

end Zettide.ReplicatedJournal
