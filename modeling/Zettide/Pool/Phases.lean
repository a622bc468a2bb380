import Zettide.Pool.Runs

/-! # What the phases of an operation do

An operation of the coordinator appends records in phases. Here is what one phase does to each
member, which participants report it, and which journals are at the event that it wrote. -/

namespace Zettide.ReplicatedJournal

open List Option WriteOutcome Journal PoolMemberSet

variable [Blake3]

/-! ## Participants and their seats -/

/-- The participants are the members with a seat, each of them once. -/
structure Ordered (coordinator : ReplicatedJournal) : Prop where
  distinct : coordinator.order.Nodup
  seated : ∀ memberId, memberId ∈ coordinator.order ↔
    ∃ member ∈ coordinator.set.supplied, member.id = memberId ∧ member.seat.isSome

omit [Blake3] in
theorem find_of_mem {supplied : List Supplied} (distinct : (supplied.map Supplied.id).Nodup)
    {member : Supplied} (hmember : member ∈ supplied) :
    findSuppliedMember supplied member.id = some member := by
  unfold findSuppliedMember
  cases hfind : supplied.find? (fun other => decide (other.id = member.id)) with
  | none => exact (find?_eq_none.mp hfind member hmember (by simp)).elim
  | some found =>
    rw [findSuppliedMember_unique distinct hfind hmember rfl]

variable {c : ReplicatedJournal} {participants : List Participant}
  {prepareOne : Participant → Except CoordinatorError Item} {diverged : CoordinatorError}
  {items : List Item} {append : Append}

theorem mem_participants (sound : SoundMembers c.set.supplied) (ordered : c.Ordered)
    {participant : Participant} :
    participant ∈ c.participants ↔ ∃ member ∈ c.set.supplied, ∃ seat, member.seat = some seat ∧
        participant = ⟨member.id, ⟨member.member, seat.journal⟩, seat.active⟩ := by
  refine ⟨participants_mem, ?_⟩
  rintro ⟨member, hmember, seat, hseat, rfl⟩
  refine mem_filterMap.mpr ⟨member.id, ?_, ?_⟩
  · exact (ordered.seated member.id).mpr ⟨member, hmember, rfl, by simp [hseat]⟩
  · rw [find_of_mem sound.distinct hmember]
    simp [Supplied.participant, hseat]

omit [Blake3] in
theorem participants_distinct (ordered : c.Ordered) :
    (c.participants.map Participant.memberId).Nodup :=
  ordered.distinct.sublist c.participants_sublist

omit [Blake3] in
/-- A change of every member that keeps identifiers and seats keeps the participants in order. -/
theorem Ordered.map {after : ReplicatedJournal} (ordered : c.Ordered)
    (order : after.order = c.order) {f : Supplied → Supplied}
    (supplied : after.set.supplied = c.set.supplied.map f)
    (ids : ∀ member ∈ c.set.supplied, (f member).id = member.id)
    (seats : ∀ member ∈ c.set.supplied, (f member).seat.isSome = member.seat.isSome) :
    after.Ordered := by
  refine ⟨by rw [order]; exact ordered.distinct, fun memberId => ?_⟩
  rw [order, ordered.seated, supplied]
  constructor
  · rintro ⟨member, hmember, hid, hseat⟩
    exact ⟨f member, List.mem_map_of_mem hmember, (ids member hmember).trans hid,
      (seats member hmember).trans hseat⟩
  · rintro ⟨changed, hchanged, hid, hseat⟩
    obtain ⟨member, hmember, rfl⟩ := List.mem_map.mp hchanged
    exact ⟨member, hmember, (ids member hmember).symm.trans hid,
      (seats member hmember).symm.trans hseat⟩

/-! ## The prepare loop -/

omit [Blake3] in
theorem prepareAll_complete : ∀ {shared : Option Digest} {items : List Item},
      prepareAll prepareOne diverged shared participants = .ok items →
      ∀ participant ∈ participants, ∃ item ∈ items, prepareOne participant = .ok item := by
  induction participants with
  | nil => intro shared items _ participant hparticipant; cases hparticipant
  | cons first rest ih =>
    intro shared items h participant hparticipant
    simp only [prepareAll, ok_iff] at h
    obtain ⟨made, hmade, _, others, hothers, rfl⟩ := h
    rcases mem_cons.mp hparticipant with rfl | hparticipant
    · exact ⟨made, mem_cons_self, hmade⟩
    · obtain ⟨item, hitem, hprepare⟩ := ih hothers participant hparticipant
      exact ⟨item, mem_cons_of_mem _ hitem, hprepare⟩

/-! ## One append phase -/

/-- What an append phase did to a member: nothing, or its record was written, or the write failed
and froze the member. -/
inductive Appended (deactivate : Bool) (items : List Item) (outcome : Id → WriteOutcome)
    (before after : Supplied) : Prop where
  | idle : (before.seat = none ∨ ∀ item ∈ items, item.memberId ≠ before.id) → after = before →
      Appended deactivate items outcome before after
  | written (seat : Seat) (item : Item) : before.seat = some seat → item ∈ items →
      item.memberId = before.id → outcome before.id = .done →
      before.member.frozen = false → before.member.mode = .writable →
      after = { before with
        member := (Claimed.written ⟨before.member, seat.journal⟩ item.prepared .done).member
        seat := some ⟨seat.journal.advance item.prepared, seat.active⟩ } →
      Appended deactivate items outcome before after
  | failed (seat : Seat) (item : Item) : before.seat = some seat → item ∈ items →
      item.memberId = before.id → outcome before.id ≠ .done →
      after.member.frozen = true → after.member.header = before.member.header →
      after.seat = some ⟨seat.journal, seat.active && !deactivate⟩ →
      Appended deactivate items outcome before after

/-- **The append phase of one member.** -/
theorem appendTo_appended (deactivate : Bool) (outcome : Id → WriteOutcome) {supplied : Supplied}
    (sound : supplied.Sound) (writes : WritesPrepared append supplied items) :
    Appended deactivate items outcome supplied
      (appendTo append deactivate items outcome supplied) := by
  obtain ⟨log, first, tracks, _⟩ := sound
  rcases hseat : supplied.seat with _ | seat
  · exact .idle (.inl hseat) (by simp [appendTo, hseat])
  rcases hitem : items.find? (fun item => item.memberId = supplied.id) with _ | item
  · refine .idle (.inr fun item hmem hid => ?_) (by simp [appendTo, hseat, hitem])
    exact find?_eq_none.mp hitem item hmem (by simpa using hid)
  obtain ⟨anchor, tracked⟩ := tracks.seated seat hseat
  obtain ⟨proposal, prepared, happend⟩ :=
    writes.written seat item log first anchor hseat hitem tracked
  have hmem := mem_of_find?_eq_some hitem
  have hid : item.memberId = supplied.id := by simpa using find?_some hitem
  by_cases hdone : outcome supplied.id = .done
  · refine .written seat item hseat hmem hid hdone prepared.live prepared.writable ?_
    simp only [appendTo, hseat, hitem, happend, hdone, appendReport, WriteOutcome.succeeds, if_true]
    rfl
  · have hfails : (outcome supplied.id).succeeds = false := by
      cases h : (outcome supplied.id).succeeds with
      | false => rfl
      | true => exact absurd (eq_done_of_succeeds h) hdone
    have happended : appendTo append deactivate items outcome supplied = { supplied with
          member := (Claimed.written ⟨supplied.member, seat.journal⟩ item.prepared
            (outcome supplied.id)).member
          status := .stale
          seat := some ⟨seat.journal, seat.active && !deactivate⟩ } := by
      simp only [appendTo, hseat, hitem, happend, appendReport, hfails, Claimed.written]
      rfl
    rw [happended]
    refine .failed seat item hseat hmem hid hdone ?_ (by simp) rfl
    simp [written_frozen ⟨supplied.member, seat.journal⟩ item.prepared
      (outcome supplied.id) prepared.live, hfails]

/-- The members that an append phase reports are those whose write succeeded. -/
theorem mem_acks (sound : SoundMembers c.set.supplied) (ordered : c.Ordered)
    (writes : ∀ member ∈ c.set.supplied, WritesPrepared append member items)
    {outcome : Id → WriteOutcome} {report : Ack} :
    report ∈ c.acks append items outcome ↔ ∃ member ∈ c.set.supplied, member.seat.isSome ∧ ∃ item,
        items.find? (fun item => item.memberId = member.id) = some item ∧
        outcome member.id = .done ∧
        report = ⟨member.id, item.prepared.record, item.prepared.recordDigest,
          item.prepared.physicalSlot⟩ := by
  have hreport : ∀ member ∈ c.set.supplied, ∀ seat item, member.seat = some seat →
      items.find? (fun item => item.memberId = member.id) = some item → ∀ result,
      (append ⟨member.member, seat.journal⟩ item.prepared (outcome member.id)).2 = .ok result ↔
        outcome member.id = .done ∧ result =
          ⟨item.prepared.record, item.prepared.recordDigest, item.prepared.physicalSlot⟩ := by
    intro member hmember seat item hseat hitem result
    obtain ⟨log, first, tracks, _⟩ := sound.sound member hmember
    obtain ⟨anchor, tracked⟩ := tracks.seated seat hseat
    obtain ⟨proposal, _, happend⟩ :=
      (writes member hmember).written seat item log first anchor hseat hitem tracked
    rw [happend]
    cases outcome member.id <;> simp [appendReport, WriteOutcome.succeeds, eq_comm]
  unfold acks
  rw [List.mem_filterMap]
  constructor
  · rintro ⟨participant, hparticipant, hbind⟩
    obtain ⟨member, hmember, seat, hseat, rfl⟩ := participants_mem hparticipant
    obtain ⟨item, hitem, hresult⟩ := bind_eq_some_iff.mp hbind
    obtain ⟨result, hvalue, rfl⟩ := map_eq_some_iff.mp hresult
    obtain ⟨hdone, rfl⟩ :=
      (hreport member hmember seat item hseat hitem result).mp ((value_eq_some _ _).mp hvalue)
    exact ⟨member, hmember, by simp [hseat], item, hitem, hdone, rfl⟩
  · rintro ⟨member, hmember, hseated, item, hitem, hdone, rfl⟩
    obtain ⟨seat, hseat⟩ := isSome_iff_exists.mp hseated
    refine ⟨_, (mem_participants sound ordered).mpr ⟨member, hmember, seat, hseat, rfl⟩, ?_⟩
    refine bind_eq_some_iff.mpr ⟨item, hitem, ?_⟩
    refine map_eq_some_iff.mpr ⟨_, ?_, rfl⟩
    exact (value_eq_some _ _).mpr
      ((hreport member hmember seat item hseat hitem _).mpr ⟨hdone, rfl⟩)

omit [Blake3] in
theorem acks_distinct (ordered : c.Ordered)
    (append : Append) (items : List Item) (outcome : Id → WriteOutcome) :
    ((c.acks append items outcome).map Ack.memberId).Nodup :=
  ordered.distinct.sublist (c.acks_sublist append items outcome)

end Zettide.ReplicatedJournal
