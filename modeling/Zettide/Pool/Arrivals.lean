import Zettide.Pool.Invariant
import Zettide.Journal.Born

/-! # Members that come into a set

A set gets its members when it is opened, and one more when a bootstrap succeeds; the catch-up of a
member extends its log. All of them are sound. -/

namespace Zettide

open List PoolMemberSet Journal Member

variable [Blake3] {header : Header} {record : Record} {supplied : List Supplied}

/-! ## Disks -/

/-- The disk of a member has no readable header, or it stands for a log of the member. -/
def Formatted (memberId : Id) (storage : Storage) : Prop :=
  Unreadable storage ∨ ∃ log first, Journaled storage log first ∧
    ReplicatedJournal.RootLog log ∧ ∀ record ∈ log, record.memberId = memberId

theorem Supplied.Sound.formatted {supplied : Supplied} (h : supplied.Sound) :
    Formatted supplied.id supplied.member.storage := by
  obtain ⟨log, first, tracks, roots⟩ := h
  exact .inr ⟨log, first, tracks.opened.journaled, roots,
    fun record hrecord => (tracks.opened.linked.owner record hrecord).2⟩

/-! ## A created member -/

theorem Birth.rootLog (h : Birth header record) : ReplicatedJournal.RootLog [record] := by
  intro other hother hkind
  obtain rfl := mem_singleton.mp hother
  have hfirst := h.first
  simp [validateFirstRecord, hkind] at hfirst

/-- Wherever a creation stops, it leaves a formatted disk. -/
theorem Birth.formatted (h : Birth header record) (outcome : CreateOutcome) :
    Formatted header.memberId (createWithFirstRecord header record outcome).1 := by
  refine (createWithFirstRecord_born h outcome).imp_right fun journaled => ?_
  exact ⟨[record], 1, journaled, h.rootLog, fun other hother => (h.linked.owner other hother).2⟩

/-! ## Bootstrap -/

/-- One more sound member, with an identifier of its own. -/
theorem SoundMembers.snoc (h : SoundMembers supplied) {member : Supplied} (sound : member.Sound)
    (fresh : member.id ∉ supplied.map Supplied.id) : SoundMembers (supplied ++ [member]) := by
  constructor
  · rw [map_append, nodup_append]
    refine ⟨h.distinct, by simp, ?_⟩
    rintro a ha b hb rfl
    obtain rfl : a = member.id := by simpa using hb
    exact fresh ha
  · intro other hother
    rcases mem_append.mp hother with hother | hother
    · exact h.sound other hother
    · obtain rfl := mem_singleton.mp hother
      exact sound

namespace ReplicatedJournal

omit [Blake3] in
theorem appendAll_ids (c : ReplicatedJournal) {append : Append} (deactivate : Bool)
    (items : List Item) (outcome : Id → WriteOutcome)
    (headers : ∀ claimed prepared result,
      (append claimed prepared result).1.member.header = claimed.member.header) :
    (c.appendAll append deactivate items outcome).set.supplied.map Supplied.id =
      c.set.supplied.map Supplied.id :=
  map_ids fun _ _ => appendTo_id headers

variable {c : ReplicatedJournal}

/-- The target of a bootstrap that passed its checks is new to the set. -/
theorem prepareBootstrap_fresh {items : List Item}
    (h : c.prepareBootstrap header record = .ok items) :
    header.memberId ∉ c.set.supplied.map Supplied.id := by
  simp only [prepareBootstrap, MemberBootstrap.validateTargetFirstRecord,
    MemberBootstrap.validateTargetHeader, ok_iff, not_or, not_not] at h
  obtain ⟨_, _, _, evidence, ⟨_, _, _, _, ⟨_, _, _, _, _, ⟨hid, _⟩, _⟩, rfl⟩, _, hpresent, _⟩ := h
  intro hmem
  obtain ⟨member, hmember, hsame⟩ := mem_map.mp hmem
  exact hpresent ⟨member, hmember, hsame.trans hid⟩

/-- The members of a set after the appends of a bootstrap are its members before, and the
target. -/
theorem finishBootstrap_arrival (c : ReplicatedJournal) (items : List Item)
    (target : Member) (history : HistoryScan) (outcome : Id → WriteOutcome) :
    ∀ member ∈ (c.finishBootstrap items target history outcome).1.set.supplied,
      member.id ∈ c.set.supplied.map Supplied.id ∨ member.member = target := by
  have hforgot : c.beginControlMutation.set.supplied.map Supplied.id =
      c.set.supplied.map Supplied.id := map_ids fun _ _ => rfl
  have hids : ∀ member ∈ (c.beginControlMutation.appendAll appendPrepared true
      items outcome).set.supplied, member.id ∈ c.set.supplied.map Supplied.id := by
    intro member hmember
    rw [← hforgot, ← appendAll_ids c.beginControlMutation true items outcome appendPrepared_header]
    exact mem_map_of_mem hmember
  intro member hmember
  unfold finishBootstrap at hmember
  simp only at hmember
  split at hmember
  · exact .inl (hids member hmember)
  split at hmember
  · exact .inl (hids member hmember)
  split at hmember
  · exact .inl (hids member hmember)
  rename_i set hset
  simp only [noteCommittedBootstrap, ok_iff] at hset
  obtain ⟨_, rfl⟩ := hset
  obtain ⟨before, hbefore, rfl⟩ := mem_map.mp hmember
  rcases mem_append.mp hbefore with hbefore | hbefore
  · exact .inl (hids before hbefore)
  · obtain rfl := mem_singleton.mp hbefore
    exact .inr rfl

/-- What a bootstrap leaves: sound members, a formatted file, and no member but the target that was
not there before. -/
structure Arrives (coordinator : ReplicatedJournal) (header : Header) (made : Bootstrapped) :
    Prop where
  sound : SoundMembers made.coordinator.set.supplied
  formatted : ∀ file, made.file = some file → Formatted header.memberId file
  arrival : ∀ member ∈ made.coordinator.set.supplied,
    member.id ∈ coordinator.set.supplied.map Supplied.id ∨
      member.id = header.memberId ∧ made.file = some member.member.storage

/-! ## Catching up -/

theorem replayRecords_header (outcome : Nat → WriteOutcome) (records : List Record) :
    ∀ (step : Nat) (claimed : Claimed),
      (replayRecords outcome step records claimed).1.member.header = claimed.member.header := by
  induction records with
  | nil => exact fun _ _ => rfl
  | cons record rest ih =>
    intro step claimed
    unfold replayRecords
    split
    · rfl
    split
    · rfl
    rename_i prepared _
    have hheader := appendPrepared_header claimed prepared (outcome step)
    split
    · rfl
    · split <;> rename_i happend <;> rw [happend] at hheader
      · exact hheader
      · exact (ih _ _).trans hheader

/-- **Copying records extends the log of the target.** -/
theorem replayRecords_tracked (outcome : Nat → WriteOutcome) (records : List Record) :
    ∀ (step : Nat) {claimed : Claimed} {log : List Record} {first : Nat} {anchor : Option Nat},
      Tracked claimed log first anchor → RootLog log →
      ∃ log', Tracked (replayRecords outcome step records claimed).1 log' first anchor ∧
        RootLog log' := by
  induction records with
  | nil =>
    intro step claimed log first anchor h roots
    exact ⟨log, h, roots⟩
  | cons record rest ih =>
    intro step claimed log first anchor h roots
    unfold replayRecords
    split
    · exact ⟨log, h, roots⟩
    split
    · exact ⟨log, h, roots⟩
    rename_i prepared hprepare
    split
    · exact ⟨log, h, roots⟩
    obtain ⟨hprepared, happend⟩ := appendPrepared_eq h hprepare (outcome step)
    have hwritten := h.written hprepared (outcome step)
    have hgrown : RootLog ((outcome step).grow log prepared.record) :=
      roots.grow (fun hkind => absurd hkind (prepareExact_kind hprepare)) _
    rw [happend]
    cases hreport : appendReport prepared (outcome step) with
    | error e => exact ⟨_, hwritten, hgrown⟩
    | ok result => exact ih (step + 1) hwritten hgrown

section

variable (h : SoundMembers c.set.supplied)
include h

theorem noteCatchupFailure_sound (targetId : Id) :
    SoundMembers (c.noteCatchupFailure targetId).set.supplied :=
  setStatus_sound h targetId .stale

theorem finishCatchup_sound (targetId : Id) (member : Member) :
    SoundMembers (c.finishCatchup targetId member).1.set.supplied := by
  unfold finishCatchup
  split
  · exact noteCatchupFailure_sound h targetId
  · split
    · exact noteCatchupFailure_sound h targetId
    · refine SoundMembers.relabel h (fun before => ?_) fun before => ?_ <;> split <;> rfl

/-- The target with the member that the copying left, while no journal of it is open. -/
theorem putMember_sound {targetId : Id} {supplied : Supplied}
    (hfind : findSuppliedMember c.set.supplied targetId = some supplied)
    (unseated : supplied.seat = none) {member : Member}
    (hheader : member.header = supplied.member.header) {log : List Record} {first : Nat}
    (opened : Opened member log first) (roots : RootLog log) :
    SoundMembers (c.putMember targetId member).set.supplied := by
  refine h.map (fun other hother => ?_) fun other hother sound => ?_
  · split
    case isTrue hid =>
      obtain rfl := findSuppliedMember_unique h.distinct hfind hother hid
      exact congrArg Header.memberId hheader
    case isFalse => rfl
  · split
    case isTrue hid =>
      obtain rfl := findSuppliedMember_unique h.distinct hfind hother hid
      refine ⟨log, first, ⟨opened, fun seat hseat => ?_⟩, roots⟩
      rw [unseated] at hseat
      cases hseat
    case isFalse => exact sound

end

/-! ## Opening a coordinator -/

theorem openSeats_mem {count : Nat} {seats : List OpenSeat}
    (h : openSeats count supplied = .ok seats) :
    ∀ seat ∈ seats, ∃ member ∈ supplied, member.id = seat.memberId ∧
      openMember member.member = .ok seat.journal := by
  induction supplied generalizing count seats with
  | nil =>
    simp only [openSeats, Except.ok.injEq] at h
    subst h
    simp
  | cons member rest ih =>
    simp only [openSeats, ok_iff] at h
    obtain ⟨_, journal, hopen, others, hothers, rfl⟩ := h
    intro seat hseat
    rcases mem_cons.mp hseat with rfl | hseat
    · exact ⟨member, mem_cons_self, rfl, hopen⟩
    · obtain ⟨other, hother, hid, hjournal⟩ := ih hothers seat hseat
      exact ⟨other, mem_cons_of_mem _ hother, hid, hjournal⟩

/-- **Opening a coordinator on sound members keeps them sound, and writes nothing.** -/
theorem openSet_sound {set : PoolMemberSet} (h : SoundMembers set.supplied)
    (hopen : openSet set = .ok c) :
    SoundMembers c.set.supplied ∧ ∃ seats, c.set.supplied = set.supplied.map (takeSeat seats) := by
  simp only [openSet, ok_iff] at hopen
  obtain ⟨ready, _, seats, hseats, _, rfl⟩ := hopen
  refine ⟨h.map (fun _ _ => rfl) fun member hmember sound => ?_, seats, rfl⟩
  unfold takeSeat
  cases hfind : seats.find? (fun seat => seat.memberId = member.id) with
  | none => exact Supplied.Sound.unseat sound
  | some seat =>
    obtain ⟨other, hother, hid, hjournal⟩ :=
      openSeats_mem hseats seat (mem_of_find?_eq_some hfind)
    have hseat : seat.memberId = member.id := by simpa using find?_some hfind
    obtain rfl : other = member :=
      inj_on_of_nodup_map h.distinct (mem_filter.mp hother).1 hmember (hid.trans hseat)
    exact Supplied.Sound.seat sound hjournal true

end ReplicatedJournal

end Zettide
