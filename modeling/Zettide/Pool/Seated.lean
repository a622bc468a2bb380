import Zettide.Pool.Opening

/-! # The participants of a coordinator

In every run the participants of a coordinator are the members that have a seat, each of them once,
and the active ones are voters of the authority. Apart from a membership commit no operation gives
a seat or makes a member active, so it is enough to say of each operation that it does not. -/

namespace Zettide

open List Option PoolMemberSet PoolTopology

variable [Blake3]

namespace ReplicatedJournal

/-- The participants are in order, the active ones are voters, and so are the members that the set
lists as active. -/
structure Seated (coordinator : ReplicatedJournal) : Prop where
  ordered : coordinator.Ordered
  active : ∀ member ∈ coordinator.set.supplied, member.Active →
    isVoter coordinator.set.authority.topology member.id = true
  ready : ∀ ready, coordinator.set.controlWrite = some ready → ∀ memberId ∈ ready.activeMembers,
    isVoter coordinator.set.authority.topology memberId = true
  quorum : coordinator.quorum = coordinator.set.authority.topology.quorum
  fits : coordinator.recoveryOnly = false →
    coordinator.quorum ≤ voterCount coordinator.set.authority.topology

/-- No seat is taken or given up, and nobody becomes active. -/
structure Narrows (before after : ReplicatedJournal) : Prop where
  order : after.order = before.order
  topology : after.set.authority.topology = before.set.authority.topology
  quorum : after.quorum = before.quorum
  recoveryOnly : after.recoveryOnly = before.recoveryOnly
  came : ∀ member ∈ after.set.supplied, member.seat.isSome →
    ∃ old ∈ before.set.supplied, old.id = member.id ∧ old.seat.isSome
  stays : ∀ old ∈ before.set.supplied, old.seat.isSome →
    ∃ member ∈ after.set.supplied, member.id = old.id ∧ member.seat.isSome
  active : ∀ member ∈ after.set.supplied, member.Active →
    ∃ old ∈ before.set.supplied, old.id = member.id ∧ old.Active

namespace Narrows

variable {before middle after : ReplicatedJournal}

omit [Blake3]

theorem refl (c : ReplicatedJournal) : Narrows c c :=
  ⟨rfl, rfl, rfl, rfl, fun member hmember hseat => ⟨member, hmember, rfl, hseat⟩,
    fun member hmember hseat => ⟨member, hmember, rfl, hseat⟩,
    fun member hmember hactive => ⟨member, hmember, rfl, hactive⟩⟩

theorem trans (h : Narrows before middle) (h' : Narrows middle after) : Narrows before after := by
  refine ⟨h'.order.trans h.order, h'.topology.trans h.topology, h'.quorum.trans h.quorum,
    h'.recoveryOnly.trans h.recoveryOnly, fun member hmember hseat => ?_,
    fun old hold hseat => ?_, fun member hmember hactive => ?_⟩
  · obtain ⟨between, hbetween, hid, hseated⟩ := h'.came member hmember hseat
    obtain ⟨old, hold, hid', hseated'⟩ := h.came between hbetween hseated
    exact ⟨old, hold, hid'.trans hid, hseated'⟩
  · obtain ⟨between, hbetween, hid, hseated⟩ := h.stays old hold hseat
    obtain ⟨member, hmember, hid', hseated'⟩ := h'.stays between hbetween hseated
    exact ⟨member, hmember, hid'.trans hid, hseated'⟩
  · obtain ⟨between, hbetween, hid, hactive⟩ := h'.active member hmember hactive
    obtain ⟨old, hold, hid', hactive'⟩ := h.active between hbetween hactive
    exact ⟨old, hold, hid'.trans hid, hactive'⟩

theorem of_map {f : Supplied → Supplied} (supplied : after.set.supplied = before.set.supplied.map f)
    (order : after.order = before.order)
    (topology : after.set.authority.topology = before.set.authority.topology)
    (quorum : after.quorum = before.quorum)
    (recoveryOnly : after.recoveryOnly = before.recoveryOnly)
    (ids : ∀ member ∈ before.set.supplied, (f member).id = member.id)
    (seats : ∀ member ∈ before.set.supplied, (f member).seat.isSome = member.seat.isSome)
    (active : ∀ member ∈ before.set.supplied, (f member).Active → member.Active) :
    Narrows before after := by
  refine ⟨order, topology, quorum, recoveryOnly, fun member hmember hseat => ?_,
    fun old hold hseat => ?_, fun member hmember hactive => ?_⟩
  · rw [supplied] at hmember
    obtain ⟨old, hold, rfl⟩ := mem_map.mp hmember
    exact ⟨old, hold, (ids old hold).symm, seats old hold ▸ hseat⟩
  · rw [supplied]
    exact ⟨f old, mem_map_of_mem hold, ids old hold, (seats old hold).symm ▸ hseat⟩
  · rw [supplied] at hmember
    obtain ⟨old, hold, rfl⟩ := mem_map.mp hmember
    exact ⟨old, hold, (ids old hold).symm, active old hold hactive⟩

/-- A change that only says something else about the members. -/
theorem of_contents (contents : contents after.set.supplied = contents before.set.supplied)
    (order : after.order = before.order)
    (topology : after.set.authority.topology = before.set.authority.topology)
    (quorum : after.quorum = before.quorum)
    (recoveryOnly : after.recoveryOnly = before.recoveryOnly) : Narrows before after := by
  refine ⟨order, topology, quorum, recoveryOnly, fun member hmember hseat => ?_,
    fun old hold hseat => ?_, fun member hmember hactive => ?_⟩
  · obtain ⟨old, hold, hmember, hsame⟩ := mem_of_contents contents hmember
    exact ⟨old, hold, congrArg (fun found => found.header.memberId) hmember, hsame ▸ hseat⟩
  · obtain ⟨member, hmember, hold, hsame⟩ := mem_of_contents contents.symm hold
    exact ⟨member, hmember, congrArg (fun found => found.header.memberId) hold, hsame ▸ hseat⟩
  · obtain ⟨journal, hseat⟩ := hactive
    obtain ⟨old, hold, hmember, hsame⟩ := mem_of_contents contents hmember
    exact ⟨old, hold, congrArg (fun found => found.header.memberId) hmember, journal,
      hsame.trans hseat⟩

theorem snoc (c : ReplicatedJournal) (target : Member) (history : HistoryScan) : Narrows c { c with
      set := { c.set with
               supplied := c.set.supplied ++ [⟨target, some history, .authority, none⟩]
               suppliedCount := c.set.suppliedCount + 1 } } := by
  refine ⟨rfl, rfl, rfl, rfl, fun member hmember hseat => ?_, fun old hold hseat => ?_,
    fun member hmember hactive => ?_⟩
  · rcases mem_append.mp hmember with hold | hnew
    · exact ⟨member, hold, rfl, hseat⟩
    · obtain rfl := mem_singleton.mp hnew
      cases hseat
  · exact ⟨old, mem_append_left _ hold, rfl, hseat⟩
  · rcases mem_append.mp hmember with hold | hnew
    · exact ⟨member, hold, rfl, hactive⟩
    · obtain rfl := mem_singleton.mp hnew
      obtain ⟨_, hseat⟩ := hactive
      cases hseat

end Narrows

variable {c before after : ReplicatedJournal} {append : Append} {supplied : Supplied}
  {outcome : Id → WriteOutcome} {items : List Item} {memberId : Id}

omit [Blake3] in
/-- **A change that takes no seat keeps the participants.** -/
theorem Seated.narrow (h : before.Seated) (narrows : Narrows before after)
    (ready : ∀ ready, after.set.controlWrite = some ready → ∀ memberId ∈ ready.activeMembers,
      isVoter before.set.authority.topology memberId = true) : after.Seated := by
  refine ⟨⟨?_, fun memberId => ?_⟩, fun member hmember hactive => ?_, ?_, ?_, fun hrecovery => ?_⟩
  · rw [narrows.order]
    exact h.ordered.distinct
  · rw [narrows.order, h.ordered.seated]
    constructor
    · rintro ⟨old, hold, rfl, hseat⟩
      exact narrows.stays old hold hseat
    · rintro ⟨member, hmember, rfl, hseat⟩
      exact narrows.came member hmember hseat
  · obtain ⟨old, hold, hid, hold_active⟩ := narrows.active member hmember hactive
    rw [narrows.topology, ← hid]
    exact h.active old hold hold_active
  · rw [narrows.topology]
    exact ready
  · rw [narrows.quorum, narrows.topology]
    exact h.quorum
  · rw [narrows.quorum, narrows.topology]
    exact h.fits (narrows.recoveryOnly ▸ hrecovery)

omit [Blake3] in
theorem Seated.narrow_unready (h : before.Seated)
    (narrows : Narrows before after) (unready : after.set.controlWrite = none) : after.Seated :=
  h.narrow narrows (by simp [unready])

omit [Blake3] in
theorem Seated.narrow_same (h : before.Seated) (narrows : Narrows before after)
    (same : after.set.controlWrite = before.set.controlWrite) : after.Seated :=
  h.narrow narrows fun ready hready => h.ready ready (same ▸ hready)

/-! ## Turns -/

section

omit [Blake3]

theorem appendTo_seat_isSome (append : Append) (deactivate : Bool) (items : List Item)
    (outcome : Id → WriteOutcome) (supplied : Supplied) :
    (appendTo append deactivate items outcome supplied).seat.isSome = supplied.seat.isSome := by
  unfold appendTo
  split
  · rename_i seat item hseat _
    split <;> simp [hseat]
  · rfl

theorem appendTo_active {deactivate : Bool}
    (h : (appendTo append deactivate items outcome supplied).Active) : supplied.Active := by
  unfold appendTo at h
  split at h
  · rename_i seat item hseat _
    obtain ⟨journal, active⟩ := seat
    suffices hactive : active = true by
      subst hactive
      exact ⟨journal, hseat⟩
    obtain ⟨opened, hopened⟩ := h
    split at hopened
    · simpa using congrArg (Option.map Seat.active) hopened
    · have := congrArg (Option.map Seat.active) hopened
      simp only [Option.map_some, Option.some.injEq, Bool.and_eq_true] at this
      exact this.1
  · exact h

theorem appendAll_narrows (c : ReplicatedJournal) (deactivate : Bool)
    (items : List Item) (outcome : Id → WriteOutcome)
    (headers : ∀ claimed prepared result,
      (append claimed prepared result).1.member.header = claimed.member.header) :
    Narrows c (c.appendAll append deactivate items outcome) :=
  .of_map rfl rfl rfl rfl rfl (fun _ _ => appendTo_id headers)
    (fun member _ => appendTo_seat_isSome append deactivate items outcome member)
    fun _ _ hactive => appendTo_active hactive

theorem acks_item (h : memberId ∈ (c.acks append items outcome).map Ack.memberId) :
    ∃ item ∈ items, item.memberId = memberId := by
  obtain ⟨report, hreport, rfl⟩ := mem_map.mp h
  obtain ⟨participant, _, hbind⟩ := mem_filterMap.mp hreport
  obtain ⟨item, hitem, hresult⟩ := bind_eq_some_iff.mp hbind
  obtain ⟨result, _, rfl⟩ := map_eq_some_iff.mp hresult
  exact ⟨item, mem_of_find?_eq_some hitem, by simpa using find?_some hitem⟩

/-- **A change after which the set lists voters under an authority with the same topology.** -/
theorem Seated.noted (h : before.Seated)
    (narrows : Narrows before after) {authority : PoolAuthority.Authority}
    (topology : authority.topology = after.set.authority.topology) {activeMembers : List Id}
    (voters : ∀ memberId ∈ activeMembers, isVoter before.set.authority.topology memberId = true) :
    Seated { after with set := after.set.noteAuthority authority activeMembers } := by
  refine h.narrow (narrows.trans (.of_contents ?_ rfl topology rfl rfl)) ?_
  · exact contents_map (fun _ => rfl) fun _ => rfl
  · intro ready hready memberId hmemberId
    cases hready
    exact voters memberId hmemberId

theorem published_narrows (c : ReplicatedJournal) (outcome : RolloverOutcome) :
    Narrows c (c.published outcome) := by
  have hbegun : Narrows c c.beginControlMutation :=
    .of_contents (contents_map (fun _ => rfl) fun _ => rfl) rfl rfl rfl rfl
  exact hbegun.trans (.of_map rfl rfl rfl rfl rfl (fun _ _ => publishTo_id _ _ _)
    (fun _ _ => publishTo_seat_isSome _ _ _)
    fun _ _ ⟨journal, hseat⟩ => ⟨journal, publishTo_active outcome hseat⟩)

theorem Seated.publication (h : c.Seated) {outcome : RolloverOutcome} {publication : Publication}
    (hpublication : publication ∈ c.publications outcome) :
    isVoter c.set.authority.topology publication.memberId = true := by
  obtain ⟨member, hmember, journal, hseat, hid, _⟩ := publications_mem hpublication
  rw [hid]
  exact h.active member hmember ⟨journal, hseat⟩

end

theorem rolledOver_narrows (c : ReplicatedJournal) (outcome : RolloverOutcome) :
    Narrows c (c.rolledOver outcome) :=
  (published_narrows c outcome).trans (.of_map rfl rfl rfl rfl rfl (fun _ _ => reclaimTo_id _ _ _)
      (fun _ _ => reclaimTo_seat_isSome _ _ _)
      fun _ _ ⟨_, hseat⟩ => reclaimTo_active outcome hseat)

theorem ensureParticipant_seated (h : c.Seated) {authorityDigest : Digest}
    (hensure : c.ensureParticipant memberId authorityDigest = .ok after) :
    after.Seated ∧ after.set.authority = c.set.authority := by
  obtain ⟨hauthority, hready, hquorum, hrecovery, _⟩ := ensureParticipant_set hensure
  refine ⟨⟨ensureParticipant_ordered h.ordered hensure, fun member hmember hactive => ?_, ?_, ?_,
    fun hnormal => ?_⟩, hauthority⟩
  · obtain ⟨journal, hseat⟩ := hactive
    rw [hauthority]
    exact h.active member (ensureParticipant_active hensure hmember hseat) ⟨journal, hseat⟩
  · rw [hauthority, hready]
    exact h.ready
  · rw [hauthority, hquorum]
    exact h.quorum
  · rw [hauthority, hquorum]
    exact h.fits (hrecovery ▸ hnormal)

omit [Blake3] in
/-- After a membership commit the participants are the voters that have it. -/
theorem settled_seated (h : c.Seated) {record : Record} {proposal : Proposal}
    {members : List Id} (listed : members.Sublist c.order)
    (quorum : proposal.topology.quorum ≤ (members.filter (isVoter proposal.topology)).length) :
    (c.settled record proposal members (members.filter (isVoter proposal.topology))).Seated := by
  have hvoters : ∀ memberId ∈ members.filter (isVoter proposal.topology),
      isVoter proposal.topology memberId = true := fun memberId hmemberId =>
    (List.mem_filter.mp hmemberId).2
  refine ⟨keepSeat_ordered h.ordered rfl rfl (fun _ => rfl) fun _ => rfl, ?_, ?_, rfl, fun _ => ?_⟩
  · rintro member hmember ⟨journal, hseat⟩
    obtain ⟨before, _, rfl⟩ := List.mem_map.mp hmember
    exact hvoters before.id (keepSeat_active hseat)
  · intro ready hready
    cases hready
    exact hvoters
  · exact quorum.trans (PoolTopology.length_le_voterCount
      ((h.ordered.distinct.sublist listed).filter _) hvoters)

/-- **Every turn keeps the participants in order.** -/
theorem Turn.seated {rolling : Prop} (h : Turn rolling before after) (seated : before.Seated) :
    after.Seated := by
  cases h with
  | flag => exact seated.narrow_same (.of_contents rfl rfl rfl rfl rfl) rfl
  | unready hsame => exact seated.narrow_unready (.of_contents hsame rfl rfl rfl rfl) rfl
  | append deactivate outcome unready prepared =>
    exact seated.narrow_unready (before.appendAll_narrows deactivate _ outcome prepared.header)
      unready
  | publish outcome => exact seated.narrow_unready (published_narrows before outcome) rfl
  | roll outcome => exact seated.narrow_unready (rolledOver_narrows before outcome) rfl
  | note topology _ active _ =>
    refine seated.noted (.refl before) topology fun memberId hlisted => ?_
    obtain ⟨member, hmember, rfl, hactive⟩ := (active memberId hlisted).mem
    exact seated.active member hmember hactive
  | change listed quorum => exact settled_seated seated listed quorum
  | join target history _ _ _ => exact seated.narrow_same (.snoc before target history) rfl
  | seat hensure => exact (ensureParticipant_seated seated hensure).1
  | relabel _ member seat =>
    refine seated.narrow_same (.of_contents (contents_map (fun other => ?_) fun other => ?_)
      rfl rfl rfl rfl) rfl <;> split
    · exact member other
    · rfl
    · exact seat other
    · rfl
  | @put memberId supplied journal records outcome hfind =>
    refine seated.narrow_same (.of_map rfl rfl rfl rfl rfl (fun other _ => ?_)
      (fun other _ => by split <;> rfl) fun other _ hactive => by split at hactive <;> exact hactive)
      rfl
    split
    case isTrue hid =>
      rw [Supplied.id, replayRecords_header, hid]
      exact findSuppliedMember_id hfind
    case isFalse => rfl

theorem Turns.seated {rolling : Prop} (h : Turns rolling before after) (seated : before.Seated) :
    after.Seated := by
  induction h with
  | refl => exact seated
  | tail _ turn ih => exact turn.seated ih

/-! ## Opening -/

/-- **The participants of a new coordinator.** -/
theorem openSet_seated {set : PoolMemberSet} (distinct : (set.supplied.map Supplied.id).Nodup)
    (voters : ∀ ready, set.controlWrite = some ready → ∀ memberId ∈ ready.activeMembers,
      isVoter set.authority.topology memberId = true) (hopen : openSet set = .ok c) : c.Seated := by
  have hordered := openSet_ordered distinct hopen
  simp only [openSet, ok_iff] at hopen
  obtain ⟨ready, hready, seats, hseats, henough, rfl⟩ := hopen
  refine ⟨hordered, ?_, voters, rfl, fun hnormal => ?_⟩
  · rintro taken htaken ⟨journal, hseat⟩
    obtain ⟨member, hmember, rfl⟩ := mem_map.mp htaken
    exact voters ready hready member.id (takeSeat_some distinct hseats hmember hseat).1
  · have hnormal : set.recoveryOnly = false := hnormal
    rw [hnormal] at henough
    have hlength : (seats.map OpenSeat.memberId).length ≤ voterCount set.authority.topology := by
      refine length_le_voterCount hordered.distinct fun memberId hmemberId => ?_
      obtain ⟨seat, hseat, rfl⟩ := mem_map.mp hmemberId
      obtain ⟨member, hmember, hid, _⟩ := openSeats_mem hseats seat hseat
      rw [← hid]
      exact voters ready hready member.id (by simpa using (mem_filter.mp hmember).2)
    rw [length_map] at hlength
    simp only [Bool.false_eq_true, if_false, Nat.not_lt] at henough
    exact henough.trans hlength

end ReplicatedJournal

/-! ## Runs -/

namespace World

open ReplicatedJournal in
/-- In every world that a pool can get to the participants of an open session are in order. -/
theorem Reachable.seated {world : World} (h : world.Reachable) :
    ∀ c, world.session = some c → c.Seated := by
  obtain ⟨start, initial, run⟩ := h
  induction run with
  | refl => simp [initial.closed]
  | @tail before after run step ih =>
    have hformed : before.Formed := Reachable.formed ⟨start, initial, run⟩
    intro found hfound
    rcases step_iff.mp step with session | ⟨c, call, hsession, -, rfl⟩
    · cases session with
      | openPool devices load set c _ supplies hset hopen =>
        cases hfound
        have hready := PoolMemberSet.openStorages_ready
          (fun device hdevice => hformed.formatted _ _ (supplies device hdevice)) hset
        exact openSet_seated hready.sound.distinct hready.voters hopen
      | openRecovery device trusted set c _ supplies hset hopen =>
        cases hfound
        have hready := PoolMemberSet.openAdministrativeRecovery_ready
          (hformed.formatted _ _ (supplies device (by simp))) hset
        exact openSet_seated hready.sound.distinct hready.voters hopen
      | reopen c next hsession hopen =>
        cases hfound
        exact openSet_seated (hformed.sound c hsession).distinct (ih c hsession).ready hopen
      | close => cases hfound
    · rw [perform_session] at hfound
      cases hfound
      exact Turns.seated (call.turns c) (ih c hsession)

end World

end Zettide
