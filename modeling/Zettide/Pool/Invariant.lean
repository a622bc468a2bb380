import Zettide.Pool.World

/-! # What holds of a coordinator in every run

A coordinator is sound when its members have different identifiers and each of them stands for a
log whose checkpoints are roots. Every phase keeps this. -/

namespace Zettide

open Option Member Journal PoolMemberSet List Supplied PoolAuthorityCheckpoint

variable [Blake3]

/-- A member stands for some log. -/
def Supplied.Sound (supplied : Supplied) : Prop :=
  ∃ log first, supplied.Tracks log first ∧ ReplicatedJournal.RootLog log

/-- The members are sound and known by their identifiers. -/
structure SoundMembers (supplied : List Supplied) : Prop where
  distinct : (supplied.map Supplied.id).Nodup
  sound : ∀ member ∈ supplied, member.Sound

variable {supplied : List Supplied} {f : Supplied → Supplied}

omit [Blake3] in
/-- A change of every member that keeps its identifier. -/
theorem map_ids (ids : ∀ member ∈ supplied, (f member).id = member.id) :
    (supplied.map f).map Supplied.id = supplied.map Supplied.id := by
  rw [List.map_map]
  exact List.map_congr_left ids

/-- A change of every member that keeps identifiers and soundness. -/
theorem SoundMembers.map (h : SoundMembers supplied)
    (ids : ∀ member ∈ supplied, (f member).id = member.id)
    (sound : ∀ member ∈ supplied, member.Sound → (f member).Sound) :
    SoundMembers (supplied.map f) := by
  constructor
  · rw [map_ids ids]
    exact h.distinct
  · intro member hmember
    obtain ⟨before, hbefore, rfl⟩ := mem_map.mp hmember
    exact sound before hbefore (h.sound before hbefore)

theorem Supplied.Sound.relabel {supplied after : Supplied} (h : supplied.Sound)
    (member : after.member = supplied.member) (seat : after.seat = supplied.seat) :
    after.Sound := by
  obtain ⟨log, first, tracks, roots⟩ := h
  refine ⟨log, first, ⟨?_, ?_⟩, roots⟩
  · rw [member]
    exact tracks.opened
  · intro found hfound
    rw [seat] at hfound
    rw [member]
    exact tracks.seated found hfound

/-- The member takes part, and is active. -/
def Supplied.Active (supplied : Supplied) : Prop := ∃ journal, supplied.seat = some ⟨journal, true⟩

/-- A member without what was scanned of it. -/
abbrev Supplied.forgot (supplied : Supplied) : Supplied := { supplied with history := none }

namespace ReplicatedJournal

/-! ## Participants and members -/

variable {c : ReplicatedJournal} {items : List Item} {supplied : Supplied}
  {targets : List Participant} {shared : Option Digest} {diverged : CoordinatorError}
  {proposal : Record} {log : List Record} {first : Nat} {journal : Journal}
  {context : AuthorityContext} {outcome : RolloverOutcome}
  {append : Append} {deactivate : Bool} {prepareOne : Participant → Except CoordinatorError Item}
  {participant : Participant} {authorityDigest : Digest} {publication : Publication}
  {after : ReplicatedJournal} {set : PoolMemberSet} {claimed : Claimed} {memberId : Id}
  {item : Item}

omit [Blake3] in
/-- A participant is the member with its identifier. -/
theorem participants_find (h : participant ∈ c.participants) :
    ∃ member seat, PoolMemberSet.findSuppliedMember c.set.supplied participant.memberId =
        some member ∧ member.seat = some seat ∧
      participant = ⟨member.id, ⟨member.member, seat.journal⟩, seat.active⟩ := by
  obtain ⟨memberId, _, hfind⟩ := List.mem_filterMap.mp h
  obtain ⟨member, hmember, hparticipant⟩ := Option.bind_eq_some_iff.mp hfind
  obtain ⟨seat, hseat, rfl⟩ := Option.map_eq_some_iff.mp hparticipant
  obtain rfl := PoolMemberSet.findSuppliedMember_id hmember
  exact ⟨member, seat, hmember, hseat, rfl⟩

omit [Blake3] in
theorem participants_mem (h : participant ∈ c.participants) :
    ∃ member ∈ c.set.supplied, ∃ seat, member.seat = some seat ∧
      participant = ⟨member.id, ⟨member.member, seat.journal⟩, seat.active⟩ := by
  obtain ⟨member, seat, hfind, hparticipant⟩ := participants_find h
  exact ⟨member, mem_of_find?_eq_some hfind, seat, hparticipant⟩

omit [Blake3] in
theorem active_mem (h : participant ∈ c.activeParticipants) :
    ∃ member ∈ c.set.supplied, ∃ journal, member.seat = some ⟨journal, true⟩ ∧
      participant = ⟨member.id, ⟨member.member, journal⟩, true⟩ := by
  obtain ⟨hmem, hactive⟩ := mem_filter.mp h
  obtain ⟨member, hmember, ⟨journal, active⟩, hseat, rfl⟩ := participants_mem hmem
  obtain rfl : active = true := hactive
  exact ⟨member, hmember, journal, hseat, rfl⟩

/-- A prepared item of a member was prepared with the journal of that member. -/
theorem claimed_of_item (h : SoundMembers c.set.supplied)
    (hsub : ∀ participant ∈ targets, participant ∈ c.participants)
    (hid : ∀ participant item, prepareOne participant = .ok item →
      item.memberId = participant.memberId)
    (hitems : prepareAll prepareOne diverged shared targets = .ok items) {member : Supplied}
    (hmember : member ∈ c.set.supplied) {seat : Seat} (hseat : member.seat = some seat)
    (hitem : items.find? (fun item => item.memberId = member.id) = some item) :
    prepareOne ⟨member.id, ⟨member.member, seat.journal⟩, seat.active⟩ = .ok item := by
  obtain ⟨participant, hparticipant, hprepare⟩ :=
    prepareAll_mem hitems item (mem_of_find?_eq_some hitem)
  obtain ⟨other, hother, otherSeat, hotherSeat, rfl⟩ :=
    participants_mem (hsub participant hparticipant)
  have hsame : item.memberId = member.id := by simpa using find?_some hitem
  obtain rfl : other = member := inj_on_of_nodup_map h.distinct hother hmember
      ((hid _ _ hprepare).symm.trans hsame)
  obtain rfl : otherSeat = seat := some.inj (hotherSeat.symm.trans hseat)
  exact hprepare

/-! ## The append phase -/

omit [Blake3] in
theorem appendTo_idle {outcome : Id → WriteOutcome}
    (untouched : ∀ item ∈ items, item.memberId ≠ supplied.id) :
    appendTo append deactivate items outcome supplied = supplied := by
  have hfind : items.find? (fun item => item.memberId = supplied.id) = none :=
    find?_eq_none.mpr fun item hitem => by simpa using untouched item hitem
  unfold appendTo
  rw [hfind]
  cases supplied.seat <;> rfl

omit [Blake3] in
theorem appendTo_id {outcome : Id → WriteOutcome} (h : ∀ claimed prepared result,
      (append claimed prepared result).1.member.header = claimed.member.header) :
    (appendTo append deactivate items outcome supplied).id = supplied.id := by
  unfold appendTo
  split
  · rename_i seat item _ _
    have hheader := h ⟨supplied.member, seat.journal⟩ item.prepared (outcome supplied.id)
    split <;> rename_i hresult <;> rw [hresult] at hheader <;>
      simpa [Supplied.id] using congrArg Header.memberId hheader
  · rfl

/-- **An append phase keeps the members sound.** -/
theorem appendAll_sound (h : SoundMembers c.set.supplied) {outcome : Id → WriteOutcome}
    (headers : ∀ claimed prepared result,
      (append claimed prepared result).1.member.header = claimed.member.header)
    (writes : ∀ member ∈ c.set.supplied, WritesPrepared append member items)
    (roots : ∀ item ∈ items, item.prepared.record.kind = .checkpoint → ∃ snapshot,
      validateCompactedRootRecord item.prepared.record = .ok snapshot) :
    SoundMembers (c.appendAll append deactivate items outcome).set.supplied := by
  refine h.map (fun member _ => appendTo_id headers) ?_
  rintro member hmember ⟨log, first, tracks, hroots⟩
  obtain ⟨log', tracks', hlog⟩ := appendTo_tracks tracks (writes member hmember)
  refine ⟨log', first, tracks', ?_⟩
  rcases hlog with rfl | ⟨item, hitem, _, rfl⟩
  · exact hroots
  · exact hroots.grow (roots item hitem) _

/-! ## Appends of prepared records -/

section

variable (claimed : Claimed) (prepared : PreparedAppend) (outcome : WriteOutcome)

omit [Blake3] in
theorem commitPreparedLocked_header :
    (commitPreparedLocked claimed prepared outcome).1.member.header = claimed.member.header := by
  unfold commitPreparedLocked
  split
  · rfl
  unfold writeDurable
  cases hcheck : checkSlotWrite claimed.member prepared.physicalSlot with
  | error e => rfl
  | ok checked =>
    cases outcome <;> simp [writeResult, WriteOutcome.succeeds, afterWrite, setSlot]

theorem appendPrepared_header :
    (appendPrepared claimed prepared outcome).1.member.header = claimed.member.header := by
  unfold appendPrepared
  split
  · rfl
  · split
    · rfl
    · exact commitPreparedLocked_header claimed prepared outcome

theorem appendPreparedCheckpoint_header :
    (appendPreparedCheckpoint claimed prepared outcome).1.member.header =
      claimed.member.header := by
  unfold appendPreparedCheckpoint
  split
  · rfl
  · split
    · rfl
    · exact commitPreparedLocked_header claimed prepared outcome

end

/-- A function that prepares with `prepareExact`. -/
structure PreparesExact (prepareOne : Participant → Except CoordinatorError Item) : Prop where
  prepared : ∀ participant item, prepareOne participant = .ok item →
    item.memberId = participant.memberId ∧ ∃ token proposal,
      prepareExact participant.claimed.journal participant.claimed.member token proposal =
        .ok item.prepared

theorem prepareItem_exact (proposal : Record) : PreparesExact (prepareItem proposal) := by
  constructor
  intro participant item h
  simp only [prepareItem, ok_iff] at h
  obtain ⟨token, _, prepared, hprepared, rfl⟩ := h
  exact ⟨rfl, token, proposal, hprepared⟩

theorem commitItem_exact (proposal : Record) : PreparesExact (commitItem proposal) := by
  constructor
  intro participant item h
  simp only [commitItem, ok_iff] at h
  obtain ⟨token, _, prepared, hprepared, rfl⟩ := h
  exact ⟨rfl, token, proposal, hprepared⟩

/-- What `prepareExact` prepares is not a checkpoint. -/
theorem prepareExact_kind {member : Member} {token : TailToken} {prepared : PreparedAppend}
    (h : prepareExact journal member token proposal = .ok prepared) :
    prepared.record.kind ≠ .checkpoint := by
  simp only [prepareExact, prepareLocked, ok_iff] at h
  obtain ⟨hkind, _, _, _, _, _, _, _, _, _, _, _, rfl⟩ := h
  exact hkind

section

variable (h : SoundMembers c.set.supplied)
  (hsub : ∀ participant ∈ targets, participant ∈ c.participants) (exact' : PreparesExact prepareOne)
  (hitems : prepareAll prepareOne diverged shared targets = .ok items)
include h hsub exact' hitems

/-- What was prepared with `prepareExact` is written by `appendPrepared`. -/
theorem exact_writes : ∀ member ∈ c.set.supplied, WritesPrepared appendPrepared member items := by
  intro member hmember
  constructor
  intro seat item log first anchor hseat hitem tracked
  have hprepare := claimed_of_item h hsub (fun _ _ hok => (exact'.prepared _ _ hok).1) hitems
    hmember hseat hitem
  obtain ⟨_, token, proposal, hexact⟩ := exact'.prepared _ _ hprepare
  refine ⟨proposal, (appendPrepared_eq tracked hexact .done).1, fun outcome => ?_⟩
  exact (appendPrepared_eq tracked hexact outcome).2

/-- **The append phase of records prepared with `prepareExact` keeps the members sound.** -/
theorem appendExact_sound (deactivate : Bool) (outcome : Id → WriteOutcome) :
    SoundMembers (c.appendAll appendPrepared deactivate items outcome).set.supplied := by
  refine appendAll_sound h appendPrepared_header (exact_writes h hsub exact' hitems) ?_
  intro item hitem hkind
  obtain ⟨participant, _, hprepare⟩ := prepareAll_mem hitems item hitem
  obtain ⟨_, token, proposal, hexact⟩ := exact'.prepared _ _ hprepare
  exact absurd hkind (prepareExact_kind hexact)

end

/-- A checkpoint is prepared as such, and checked to be a root. -/
theorem checkpointItem_checked (h : checkpointItem context proposal participant = .ok item) :
    item.memberId = participant.memberId ∧ ∃ token,
      prepareCheckpointExact participant.claimed.journal participant.claimed.member
        token proposal = .ok item.prepared ∧
      ∃ snapshot, validateRecord item.prepared.record context = .ok snapshot := by
  simp only [checkpointItem, ok_iff] at h
  obtain ⟨token, _, prepared, hprepared, snapshot, hsnapshot, rfl⟩ := h
  exact ⟨rfl, token, hprepared, snapshot, hsnapshot⟩

/-- A prepared checkpoint is written by `appendPreparedCheckpoint`. -/
theorem checkpoint_writes (h : SoundMembers c.set.supplied)
    (hsub : ∀ participant ∈ targets, participant ∈ c.participants)
    (hitems : prepareAll (checkpointItem context proposal) diverged shared targets = .ok items) :
    ∀ member ∈ c.set.supplied, WritesPrepared appendPreparedCheckpoint member items := by
  intro member hmember
  constructor
  intro seat item log first anchor hseat hitem tracked
  have hprepare := claimed_of_item h hsub (fun _ _ hok => (checkpointItem_checked hok).1) hitems
    hmember hseat hitem
  obtain ⟨_, token, hexact, _⟩ := checkpointItem_checked hprepare
  refine ⟨proposal, (appendPreparedCheckpoint_eq tracked hexact .done).1, fun outcome => ?_⟩
  exact (appendPreparedCheckpoint_eq tracked hexact outcome).2

theorem checkpoint_roots
    (hitems : prepareAll (checkpointItem context proposal) diverged shared targets = .ok items) :
    ∀ item ∈ items, ∃ snapshot,
      validateCompactedRootRecord item.prepared.record = .ok snapshot := by
  intro item hitem
  obtain ⟨participant, _, hprepare⟩ := prepareAll_mem hitems item hitem
  obtain ⟨_, _, _, snapshot, hsnapshot⟩ := checkpointItem_checked hprepare
  simp only [validateRecord, bind_eq_ok] at hsnapshot
  obtain ⟨root, hroot, _⟩ := hsnapshot
  exact ⟨root, hroot⟩

/-! ## Changes of status and history -/

/-- A change of every member that leaves storage and journal alone. -/
theorem SoundMembers.relabel {supplied : List Supplied} (h : SoundMembers supplied)
    (member : ∀ before, (f before).member = before.member)
    (seat : ∀ before, (f before).seat = before.seat) : SoundMembers (supplied.map f) :=
  h.map (fun before _ => by rw [Supplied.id, Supplied.id, member])
    fun before _ sound => sound.relabel (member before) (seat before)

theorem beginControlMutation_sound (h : SoundMembers c.set.supplied) :
    SoundMembers c.beginControlMutation.set.supplied :=
  SoundMembers.relabel h (fun _ => rfl) fun _ => rfl

theorem noteAuthority_sound (h : SoundMembers set.supplied)
    (authority : PoolAuthority.Authority) (activeMembers : List Id) :
    SoundMembers (set.noteAuthority authority activeMembers).supplied :=
  SoundMembers.relabel h (fun _ => rfl) fun _ => rfl

theorem noteCommittedMembership_sound (h : SoundMembers set.supplied)
    (record : Record) (proposal : Proposal) (committedMembers activeMembers : List Id) :
    SoundMembers (set.noteCommittedMembership record proposal committedMembers
      activeMembers).supplied :=
  SoundMembers.relabel h (fun _ => rfl) fun _ => rfl

theorem setStatus_sound {supplied : List Supplied} (h : SoundMembers supplied) (memberId : Id)
    (status : MemberStatus) : SoundMembers (setStatus supplied memberId status) := by
  refine SoundMembers.relabel h (fun before => ?_) fun before => ?_ <;> split <;> rfl

omit [Blake3] in
theorem afterError_set (c : ReplicatedJournal) (error : CoordinatorError) :
    (c.afterError error).set = c.set := by
  unfold afterError
  split <;> rfl

omit [Blake3] in
theorem targets_mem {required : Nat} (h : participant ∈ c.targets required) :
    participant ∈ c.participants :=
  (mem_filter.mp (mem_filter.mp h).1).1

omit [Blake3] in
/-- Forgetting what was scanned does not change the participants. -/
theorem beginControlMutation_participants (c : ReplicatedJournal) :
    c.beginControlMutation.participants = c.participants := by
  unfold participants beginControlMutation PoolMemberSet.beginControlMutation findSuppliedMember
  congr 1
  funext memberId
  rw [List.find?_map]
  rw [Option.bind_map]
  rfl

/-! ## Membership commits -/

/-- A sound member keeps being sound when its journal is opened. Nothing is said about the journal
of a frozen member, which is not written any more. -/
theorem Supplied.Sound.seat (h : supplied.Sound)
    (hopen : openMember supplied.member = .ok journal) (active : Bool) :
    Sound { supplied with seat := some ⟨journal, active⟩ } := by
  obtain ⟨log, first, tracks, roots⟩ := h
  refine ⟨log, first, ⟨tracks.opened, ?_⟩, roots⟩
  intro seat hseat
  cases hseat
  cases hfrozen : supplied.member.frozen with
  | false =>
    obtain ⟨anchor, names⟩ := tracks.opened.names hfrozen
    exact ⟨anchor, tracks.opened.openMember names hopen⟩
  | true => exact ⟨none, .of_frozen tracks.opened hfrozen⟩

theorem Supplied.Sound.unseat (h : supplied.Sound) : Sound { supplied with seat := none } := by
  obtain ⟨log, first, tracks, roots⟩ := h
  exact ⟨log, first, ⟨tracks.opened, by simp⟩, roots⟩

/-- The coordinator stays as it was, or a new participant opens its journal. -/
theorem ensureParticipant_cases (h : c.ensureParticipant memberId authorityDigest = .ok after) :
    after = c ∨ memberId ∉ c.order ∧ ∃ supplied journal,
      findSuppliedMember c.set.supplied memberId = some supplied ∧
      openMember supplied.member = .ok journal ∧
      after = { c with
        set := { c.set with
                 supplied := updateMember c.set.supplied memberId
                   fun member => { member with seat := some ⟨journal, false⟩ } }
        order := c.order ++ [memberId] } := by
  unfold ensureParticipant at h
  split at h
  · exact .inl (Except.ok.inj h).symm
  rename_i habsent
  simp only [checkNewVoter, ok_iff] at h
  obtain ⟨_, supplied, hfind, journal, ⟨_, _, _, _, _, hopen⟩, rfl⟩ := h
  exact .inr ⟨habsent, supplied, journal, hfind, hopen, rfl⟩

theorem ensureParticipant_sound (h : SoundMembers c.set.supplied)
    (hensure : c.ensureParticipant memberId authorityDigest = .ok after) :
    SoundMembers after.set.supplied := by
  obtain rfl | ⟨_, supplied, journal, hfind, hopen, rfl⟩ := ensureParticipant_cases hensure
  · exact h
  refine h.map (fun member _ => ?_) fun member hmember sound => ?_
  · split <;> rfl
  · split
    case isTrue hid =>
      -- the member with this identifier is the one that was checked
      obtain rfl := findSuppliedMember_unique h.distinct hfind hmember hid
      exact Supplied.Sound.seat sound hopen false
    case isFalse => exact sound

theorem keepSeat_sound {supplied : List Supplied} (h : SoundMembers supplied)
    (activeMembers : List Id) : SoundMembers (supplied.map (keepSeat activeMembers)) := by
  refine h.map (fun _ _ => rfl) fun member _ sound => ?_
  unfold keepSeat
  by_cases hactive : member.id ∈ activeMembers
  · rw [if_pos hactive]
    obtain ⟨log, first, tracks, roots⟩ := sound
    refine ⟨log, first, ⟨tracks.opened, ?_⟩, roots⟩
    intro seat hseat
    obtain ⟨before, hbefore, rfl⟩ := map_eq_some_iff.mp hseat
    exact tracks.seated before hbefore
  · rw [if_neg hactive]
    exact Supplied.Sound.unseat sound

/-! ## The publication phase -/

omit [Blake3] in
theorem publishOne_frozen (c : ReplicatedJournal) (outcome : RolloverOutcome)
    (memberId : Id) (frozen : claimed.member.frozen = true) :
    (c.publishOne outcome memberId claimed).1 = claimed.member ∧
      ∀ anchor, (c.publishOne outcome memberId claimed).2 ≠ .anchor anchor := by
  cases hone : c.publishOne outcome memberId claimed with
  | mk member report =>
    rcases publishOne_cases hone with hkept | ⟨_, _, _, _, _, hpublish, hreport⟩
    · exact hkept
    · obtain ⟨rfl, e, rfl⟩ := publish_frozen frozen hpublish
      simp_all

/-- **Publishing keeps the log of a participant, frozen or not.** -/
theorem publishOne_sound (c : ReplicatedJournal) (outcome : RolloverOutcome) (memberId : Id)
    {anchor : Option Nat} (h : Tracked claimed log first anchor) (roots : RootLog log) :
    Tracked ⟨(c.publishOne outcome memberId claimed).1, claimed.journal⟩ log first anchor := by
  cases hfrozen : claimed.member.frozen with
  | true =>
    rw [(publishOne_frozen c outcome memberId hfrozen).1]
    exact h
  | false => exact (publishOne_tracked h hfrozen (publishesRoot_of_tracked h hfrozen roots) rfl).1

omit [Blake3] in
theorem publishOne_kept (c : ReplicatedJournal) (outcome : RolloverOutcome)
    (memberId : Id) (claimed : Claimed) :
    (c.publishOne outcome memberId claimed).1.header.memberId = claimed.member.header.memberId ∧
      (c.publishOne outcome memberId claimed).1.storage.slots = claimed.member.storage.slots := by
  cases hone : c.publishOne outcome memberId claimed with
  | mk member report =>
    obtain ⟨rfl, _⟩ | ⟨_, _, _, _, _, hpublish, _⟩ := publishOne_cases hone
    · exact ⟨rfl, rfl⟩
    obtain ⟨rfl, _⟩ | ⟨_, _, _, hslots, ⟨_, _, hheader, _⟩ | ⟨_, _, _, hheader, _⟩⟩ :=
      publish_cases hpublish
    · exact ⟨rfl, rfl⟩
    all_goals exact ⟨by simp [hheader, checkpointHeader], hslots⟩

omit [Blake3] in
/-- The publication changes the member, and the activity of its seat, but not its journal. -/
theorem publishTo_seated (c : ReplicatedJournal) (outcome : RolloverOutcome) (supplied : Supplied)
    (hseat : supplied.seat = some ⟨journal, true⟩) :
    (c.publishTo outcome supplied).member =
        (c.publishOne outcome supplied.id ⟨supplied.member, journal⟩).1 ∧
      ∃ active, (c.publishTo outcome supplied).seat = some ⟨journal, active⟩ := by
  unfold publishTo
  rw [hseat]
  simp only
  cases hpublish : c.publishOne outcome supplied.id ⟨supplied.member, journal⟩ with
  | mk member report => cases report <;> simp

omit [Blake3] in
theorem publishTo_idle (supplied : Supplied) (hidle : ¬ supplied.Active) :
    c.publishTo outcome supplied = supplied := by
  unfold publishTo
  split
  · rename_i journal hjournal
    exact absurd ⟨journal, hjournal⟩ hidle
  · rfl

/-- **The publication phase keeps the log of every member.** -/
theorem publishTo_tracks (h : supplied.Tracks log first)
    (roots : RootLog log) : (c.publishTo outcome supplied).Tracks log first := by
  by_cases hactive : supplied.Active
  · obtain ⟨journal, hseat⟩ := hactive
    obtain ⟨hmember, active, hafter⟩ := publishTo_seated c outcome _ hseat
    obtain ⟨anchor, tracked⟩ := h.seated _ hseat
    have hpublished := publishOne_sound c outcome supplied.id tracked roots
    refine ⟨hmember ▸ hpublished.opened, ?_⟩
    intro seat hfound
    obtain rfl := some.inj (hafter.symm.trans hfound)
    rw [hmember]
    exact ⟨anchor, hpublished⟩
  · rw [publishTo_idle _ hactive]
    exact h

omit [Blake3] in
/-- A publication is that of an active member, and reports what its publication did. -/
theorem publications_mem (h : publication ∈ c.publications outcome) :
    ∃ member ∈ c.set.supplied, ∃ journal, member.seat = some ⟨journal, true⟩ ∧
      publication.memberId = member.id ∧
      ∀ anchor, publication.anchor = some anchor →
        (c.publishOne outcome member.id ⟨member.member, journal⟩).2 = .anchor anchor := by
  obtain ⟨participant, hparticipant, hreport⟩ := List.mem_filterMap.mp h
  obtain ⟨member, hmember, journal, hseat, rfl⟩ := active_mem hparticipant
  refine ⟨member, hmember, journal, hseat, ?_⟩
  cases hpublish : (c.publishOne outcome member.id ⟨member.member, journal⟩).2 with
  | failed => simp [hpublish] at hreport
  | nothing | anchor found =>
    simp only [hpublish, Option.some.injEq] at hreport
    subst hreport
    exact ⟨rfl, by simp⟩

/-- The anchor that a member names in both header copies, as an index of its log. -/
structure NamesInBoth (member : Member) (log : List Record) (first index : Nat)
    (anchor : AnchorState) : Prop where
  entry : anchorAt member.storage.slots.length log index = some anchor
  held : first ≤ index
  names : HeaderNames member.header member.storage.slots.length log first (some index)
  both : ∀ source, member.storage.copyAt source = .bytes member.header

/-- **A member that published an anchor names it in both header copies.** -/
theorem publishTo_names
    (h : SoundMembers c.set.supplied) (outcome : RolloverOutcome)
    (hsupplied : supplied ∈ c.set.supplied) (tracks : supplied.Tracks log first)
    (roots : RootLog log) (hpublication : publication ∈ c.publications outcome)
    (hid : publication.memberId = supplied.id) {anchor : AnchorState}
    (hanchor : publication.anchor = some anchor) :
    ∃ index, NamesInBoth (c.publishTo outcome supplied).member log first index anchor := by
  obtain ⟨member, hmember, journal, hseat, hmemberId, hreport⟩ := publications_mem hpublication
  obtain rfl : member = supplied :=
    inj_on_of_nodup_map h.distinct hmember hsupplied (hmemberId.symm.trans hid)
  obtain ⟨named, tracked⟩ := tracks.seated _ hseat
  have hlive : member.member.frozen = false := by
    cases hfrozen : member.member.frozen with
    | false => rfl
    | true =>
      have hclaimed : (⟨member.member, journal⟩ : Claimed).member.frozen = true := hfrozen
      exact absurd (hreport anchor hanchor)
        ((publishOne_frozen c outcome member.id hclaimed).2 anchor)
  obtain ⟨index, hentry, hheld, hnames, hboth⟩ := (publishOne_tracked tracked hlive
    (publishesRoot_of_tracked tracked hlive roots) rfl).2 anchor (hreport anchor hanchor)
  obtain ⟨hafter, _⟩ := publishTo_seated c outcome _ hseat
  refine ⟨index, ?_, hheld, ?_, ?_⟩ <;> rw [hafter] <;> assumption

/-! ## The reclaim phase -/

/-- What the reclaim phase left of a member: its log from `next` on. Records go only before the
anchor that the member named. -/
structure Reclaims (before after : Supplied) (log : List Record) (first next : Nat)
    (published : List Publication) : Prop where
  tracks : after.Tracks log next
  bounded : next = first ∨ ∃ publication ∈ published, publication.memberId = before.id ∧
    ∃ anchor, publication.anchor = some anchor ∧ ∃ index,
      NamesInBoth before.member log first index anchor ∧ next ≤ index

/-- **The reclaim phase removes only records before the anchor that the member names in both
header copies.** -/
theorem reclaimTo_reclaims {published : List Publication} (h : supplied.Tracks log first)
    (named : ∀ publication ∈ published, publication.memberId = supplied.id →
      ∀ anchor, publication.anchor = some anchor →
        ∃ index, NamesInBoth supplied.member log first index anchor) :
    ∃ next, Reclaims supplied (reclaimTo published outcome supplied) log first next published := by
  cases hseat : supplied.seat with
  | none =>
    refine ⟨first, ?_, .inl rfl⟩
    unfold reclaimTo
    rw [hseat]
    exact h
  | some seat =>
    cases hfind : published.find? (fun publication => publication.memberId = supplied.id) with
    | none =>
      refine ⟨first, ?_, .inl rfl⟩
      unfold reclaimTo
      rw [hseat, hfind]
      exact h
    | some publication =>
      have hmem := mem_of_find?_eq_some hfind
      have hid : publication.memberId = supplied.id := by simpa using find?_some hfind
      obtain ⟨kept, tracked⟩ := h.seated seat hseat
      -- the index of the anchor, if there is one to cut at
      have hindex : ∃ index, ∀ anchor, publication.anchor = some anchor →
          NamesInBoth supplied.member log first index anchor := by
        cases hanchor : publication.anchor with
        | none => exact ⟨0, by simp⟩
        | some anchor =>
          obtain ⟨index, hnames⟩ := named publication hmem hid anchor hanchor
          refine ⟨index, fun other hother => ?_⟩
          cases hother
          exact hnames
      obtain ⟨index, hindex⟩ := hindex
      cases hreclaim : reclaimOne outcome publication ⟨supplied.member, seat.journal⟩ with
      | mk after done =>
        obtain ⟨next, anchor, htracked, hnext⟩ := reclaimOne_tracked tracked (fun hsome => by
            obtain ⟨found, hfound⟩ := isSome_iff_exists.mp hsome
            exact ⟨(hindex found hfound).held, (hindex found hfound).names⟩) hreclaim
        refine ⟨next, ?_, ?_⟩
        · unfold reclaimTo
          rw [hseat, hfind]
          simp only [hreclaim]
          cases done <;> exact ⟨htracked.opened, fun other hother => by
              cases hother
              exact ⟨anchor, htracked⟩⟩
        · rcases hnext with hsame | ⟨hsome, hle⟩
          · exact .inl hsame
          · obtain ⟨found, hfound⟩ := isSome_iff_exists.mp hsome
            exact .inr ⟨publication, hmem, hid, found, hfound, index, hindex found hfound, hle⟩

omit [Blake3] in
theorem clearSlots_header (clear : Nat → WriteOutcome) (walk : List Nat) :
    ∀ member : Member, (clearSlots clear walk member).1.header = member.header := by
  induction walk with
  | nil => exact fun _ => rfl
  | cons slot rest ih =>
    intro member
    unfold clearSlots
    split
    · exact ih member
    unfold writeDurable
    rcases hcheck : checkSlotWrite member slot with _ | checked
    · rfl
    cases hclear : clear slot with
    | done =>
      simp only [writeResult, WriteOutcome.succeeds, if_true]
      rw [ih]
      rfl
    | failedOld | failedNew | failedTorn fault => rfl

theorem reclaimOne_header (outcome : RolloverOutcome) (publication : Publication)
    (claimed : Claimed) :
    (reclaimOne outcome publication claimed).1.member.header = claimed.member.header := by
  unfold reclaimOne
  rcases publication.anchor with _ | found
  · rfl
  have hkept : (reclaimPublishedAnchor claimed
      (outcome.clear publication.memberId)).1.member.header = claimed.member.header := by
    unfold reclaimPublishedAnchor
    split
    · rfl
    rename_i tailSlot anchor _
    have hcleared := clearSlots_header (outcome.clear publication.memberId)
      (ringWalk claimed.journal.scanState.slotCount anchor.physicalSlot
        claimed.journal.scanState.slotCount
        (nextRingSlot tailSlot claimed.journal.scanState.slotCount)) claimed.member
    simp only
    split <;> rename_i hresult <;> rw [hresult] at hcleared <;> exact hcleared
  simp only
  split <;> rename_i hresult <;> rw [hresult] at hkept <;> exact hkept

theorem reclaimTo_id (published : List Publication) (outcome : RolloverOutcome)
    (supplied : Supplied) : (reclaimTo published outcome supplied).id = supplied.id := by
  unfold reclaimTo
  split
  · rename_i seat publication _ _
    have hkept := reclaimOne_header outcome publication ⟨supplied.member, seat.journal⟩
    split <;> rename_i hresult <;> rw [hresult] at hkept <;> exact congrArg Header.memberId hkept
  · rfl

omit [Blake3] in
theorem publishTo_id (c : ReplicatedJournal) (outcome : RolloverOutcome)
    (supplied : Supplied) : (c.publishTo outcome supplied).id = supplied.id := by
  by_cases hactive : supplied.Active
  · obtain ⟨journal, hseat⟩ := hactive
    rw [Supplied.id, (publishTo_seated c outcome _ hseat).1, (publishOne_kept c outcome _ _).1]
    rfl
  · rw [publishTo_idle _ hactive]

theorem publishPhase_sound (h : SoundMembers c.set.supplied) (outcome : RolloverOutcome) :
    SoundMembers (c.beginControlMutation.mapMembers (c.publishTo outcome)).set.supplied := by
  refine (beginControlMutation_sound h).map (fun member _ => publishTo_id _ _ member) ?_
  rintro member _ ⟨log, first, tracks, roots⟩
  exact ⟨log, first, publishTo_tracks tracks roots, roots⟩

/-- What publication and reclaim make of a member. -/
abbrev rolls (c : ReplicatedJournal) (outcome : RolloverOutcome) (supplied : Supplied) : Supplied :=
  reclaimTo (c.publications outcome) outcome (c.publishTo outcome supplied.forgot)

omit [Blake3] in
/-- What was scanned before has no part in the publication. -/
theorem publishTo_forget (c : ReplicatedJournal) (outcome : RolloverOutcome) (supplied : Supplied) :
    (c.publishTo outcome supplied.forgot).member = (c.publishTo outcome supplied).member := by
  by_cases hactive : supplied.Active
  · obtain ⟨journal, hseat⟩ := hactive
    rw [(publishTo_seated c outcome _ hseat).1,
      (publishTo_seated c outcome supplied.forgot hseat).1]
    rfl
  · rw [publishTo_idle _ hactive, publishTo_idle supplied.forgot hactive]

/-- **What a whole rollover phase did to one member of the set.** -/
theorem rolloverPhase_reclaims
    (h : SoundMembers c.set.supplied) (outcome : RolloverOutcome)
    (hsupplied : supplied ∈ c.set.supplied) (tracks : supplied.Tracks log first)
    (roots : RootLog log) :
    ∃ next, Reclaims (c.publishTo outcome supplied.forgot) (c.rolls outcome supplied)
      log first next (c.publications outcome) := by
  have hforgot : supplied.forgot.Tracks log first :=
    ⟨tracks.opened, tracks.seated⟩
  refine reclaimTo_reclaims (publishTo_tracks hforgot roots) ?_
  intro publication hpublication hid anchor hanchor
  rw [publishTo_id] at hid
  obtain ⟨index, hnames⟩ := publishTo_names h outcome hsupplied tracks roots hpublication hid
    hanchor
  refine ⟨index, ?_⟩
  rw [publishTo_forget]
  exact hnames

/-- The members after the publication and the reclaim. -/
theorem reclaimPhase_sound (h : SoundMembers c.set.supplied) (outcome : RolloverOutcome) :
    SoundMembers ((c.beginControlMutation.mapMembers (c.publishTo outcome)).mapMembers
        (reclaimTo (c.publications outcome) outcome)).set.supplied := by
  constructor
  · have hids := map_ids (f := reclaimTo (c.publications outcome) outcome)
      fun member (_ : member ∈ (c.beginControlMutation.mapMembers
        (c.publishTo outcome)).set.supplied) => reclaimTo_id _ _ member
    have hdistinct := (publishPhase_sound h outcome).distinct
    rw [← hids] at hdistinct
    exact hdistinct
  · intro member hmember
    obtain ⟨published, hpublished, rfl⟩ := mem_map.mp hmember
    obtain ⟨forgot, hforgot, rfl⟩ := mem_map.mp hpublished
    obtain ⟨before, hbefore, rfl⟩ := mem_map.mp hforgot
    obtain ⟨log, first, tracks, roots⟩ := h.sound before hbefore
    obtain ⟨next, hreclaims⟩ := rolloverPhase_reclaims h outcome hbefore tracks roots
    exact ⟨log, next, hreclaims.tracks, roots⟩

end ReplicatedJournal

end Zettide
