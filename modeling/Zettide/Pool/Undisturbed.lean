import Zettide.Pool.Completed

/-! # Runs without a failed write

In a run whose writes all succeed every member keeps a free slot. An operation that writes records
asks for one slot more than it writes, so only a rollover takes the last one, and a rollover that
has written its checkpoint gives back all slots but two.

Whatever fails, the disks scan again, and an open session knows them. -/

namespace Zettide

open Relation List Option ReplicatedJournal PoolMemberSet PoolTopology Reserved World

section

variable [Blake3] {storage : Storage} {c : ReplicatedJournal} {supplied : Supplied}
  {device : Device}

/-! ## Free slots of a disk -/

/-- The free slots that opening and scanning a disk finds. -/
def Storage.freeSlots (storage : Storage) : Option Nat := do
  let member ← value (Member.openStorage storage .readOnly)
  let history ← value (Journal.scanHistory member.header member.storage.slots)
  some (Journal.availableSlotCount history.scanResult)

/-- A scan of a disk finds the slots that its log leaves free. -/
theorem Settled.freeSlots {header : Header} {log : List Record} {anchor : Option Nat}
    (h : Settled storage header log anchor) (two : 2 ≤ storage.slots.length) :
    storage.freeSlots = some (spareSlots storage.slots.length log anchor) := by
  obtain ⟨member, hopen, hstorage, _⟩ := openStorage_of_journaled h.journaled .readOnly
  obtain ⟨_, hheader, _⟩ := h.openStorage hopen
  obtain ⟨history, hscan, hfree, _⟩ := h.scan two
  simp only [Storage.freeSlots, bind_eq_bind, bind_eq_some_iff, value_eq_some]
  exact ⟨member, hopen, history, by rw [hheader, hstorage]; exact hscan, by rw [hfree]⟩

theorem Storage.Spared.free (h : storage.Spared) :
    ∃ free, storage.freeSlots = some free ∧ 1 ≤ free := by
  obtain ⟨header, log, anchor, settled, _, size, room⟩ := h
  exact ⟨_, settled.freeSlots (Nat.le_trans (by decide) size), room⟩

theorem Supplied.Reserve.free {room : Nat} (h : supplied.Reserve room) :
    ∃ free, supplied.member.storage.freeSlots = some free ∧ room ≤ free := by
  obtain ⟨log, anchor, spare⟩ := h
  exact ⟨_, spare.settled.freeSlots (Nat.le_trans (by decide) spare.size), spare.room_le⟩

/-! ## Opening -/

/-- A member that is opened on a disk with a free slot. -/
theorem Storage.Spared.scanned (h : device.storage.Spared) {mode : OpenMode}
    (hscan : scanMember mode device = .ok supplied) :
    supplied.Reserve 1 := by
  obtain ⟨header, log, anchor, settled, roots, size, room⟩ := h
  simp only [scanMember, ok_iff] at hscan
  obtain ⟨member, hopen, _, history, _, _, rfl⟩ := hscan
  obtain ⟨hstorage, hheader, hlive⟩ := settled.openStorage hopen
  refine ⟨log, anchor, hlive, ?_, by simp, roots, ?_, ?_⟩
  · simp only [hstorage, hheader]
    exact settled
  · simp only [hstorage]
    exact size
  · simp only [hstorage]
    exact room

namespace ReplicatedJournal

variable {set : PoolMemberSet} {coordinator : ReplicatedJournal}

theorem openStorages_reserved {devices : List Device} {intent : OpenIntent}
    {load : Id → CatalogLoad} (spared : ∀ device ∈ devices, device.storage.Spared)
    (h : openStorages devices intent load = .ok set) : Reserved set.supplied := by
  obtain ⟨_, hcontents⟩ := openStorages_contents h
  refine of_contents (fun member hmember => ?_) hcontents
  obtain ⟨scanned, hscanned, hvalue⟩ := mem_filterMap.mp hmember
  obtain ⟨device, hdevice, rfl⟩ := mem_map.mp hscanned
  exact (spared device hdevice).scanned ((value_eq_some _ _).mp hvalue)

theorem openAdministrativeRecovery_reserved {trusted : Id} (spared : device.storage.Spared)
    (h : openAdministrativeRecovery device trusted = .ok set) :
    Reserved set.supplied := by
  obtain ⟨scanned, hscan, hcontents⟩ := openAdministrativeRecovery_contents h
  refine of_contents (fun member hmember => ?_) hcontents
  obtain rfl := mem_singleton.mp hmember
  exact spared.scanned hscan

/-- A coordinator that is opened on members with free slots. -/
theorem openSet_reserved (sound : SoundMembers set.supplied) (h : Reserved set.supplied)
    (hopen : openSet set = .ok coordinator) :
    Reserved coordinator.set.supplied ∧ coordinator.pendingAnchor = none := by
  simp only [openSet, ok_iff] at hopen
  obtain ⟨ready, _, seats, hseats, _, rfl⟩ := hopen
  refine ⟨fun member hmember => ?_, rfl⟩
  obtain ⟨before, hbefore, rfl⟩ := mem_map.mp hmember
  cases hseat : (takeSeat seats before).seat with
  | none => exact (h before hbefore).unseat rfl hseat
  | some seat =>
    obtain ⟨_, hjournal⟩ := takeSeat_some sound.distinct hseats hbefore hseat
    refine ((h before hbefore).seat hjournal seat.active).relabel rfl fun found hfound => ?_
    exact ⟨_, rfl, by rw [← some.inj (hseat.symm.trans hfound)]⟩

/-- Only a rollover has a checkpoint that is waiting to be published. -/
theorem Turns.pending {before after : ReplicatedJournal} (turns : Turns False before after)
    (h : before.pendingAnchor = none) : after.pendingAnchor = none := by
  induction turns with
  | refl => exact h
  | tail _ turn ih =>
    cases turn with
    | flag _ _ hanchor => simpa [ih] using hanchor
    | seat hensure =>
      obtain rfl | ⟨_, _, _, _, _, rfl⟩ := ensureParticipant_cases hensure
      · exact ih
      · exact ih
    | unready | append | publish | roll | note | change | join | relabel | put => exact ih

end ReplicatedJournal

/-! ## Calls -/

/-- Every write of the call succeeds, and a rollover finds unused sequence numbers for the headers
that it writes. -/
def Call.Quiet (coordinator : ReplicatedJournal) : Call → Prop
  | .generation _ _ prepare commit =>
    (∀ memberId, prepare memberId = .done) ∧ ∀ memberId, commit memberId = .done
  | .membership _ _ prepare commit =>
    (∀ memberId, prepare memberId = .done) ∧ ∀ memberId, commit memberId = .done
  | .checkpoint _ outcome => ∀ memberId, outcome memberId = .done
  | .rollover _ append outcome =>
    (∀ memberId, append memberId = .done) ∧ outcome.Done ∧
      ∀ member ∈ coordinator.set.supplied, member.member.header.headerSequence ≠ maxU64
  | .resume outcome => outcome.Done
  | .catchUp _ outcome => ∀ step, outcome step = .done
  | .bootstrap _ _ outcome =>
    outcome.create = .done ∧ ∀ memberId, outcome.append memberId = .done

open ReplicatedJournal in
/-- **A call whose writes succeed leaves every member a free slot.** -/
theorem Call.reserved [CollisionFree] (sound : SoundMembers c.set.supplied) (seated : c.Seated)
    (h : Reserved c.set.supplied) (nothing : c.pendingAnchor = none)
    (call : Call) (quiet : call.Quiet c) :
    Reserved (call.run c).set.supplied ∧ (call.run c).pendingAnchor = none ∧
      ∀ made file, call.file c = some (made, some file) → file.Spared := by
  cases call with
  | generation proposal stage prepare commit =>
    exact ⟨commitCatalogGeneration_reserved sound.distinct h proposal stage
      quiet.1 quiet.2, Turns.pending (commitCatalogGeneration_turns ..) nothing,
      by simp [Call.file]⟩
  | membership proposal promotes prepare commit =>
    exact ⟨commitMembership_reserved sound h proposal promotes quiet.1 quiet.2,
      Turns.pending (commitMembership_turns ..) nothing, by simp [Call.file]⟩
  | checkpoint proposal outcome =>
    exact ⟨commitAuthorityCheckpoint_reserved sound.distinct h proposal quiet,
      Turns.pending (commitAuthorityCheckpoint_turns ..) nothing,
      by simp [Call.file]⟩
  | rollover proposal append outcome =>
    obtain ⟨hnothing, hreserved, _⟩ := rolloverAuthorityCheckpoint_reserved
      sound seated h nothing quiet.2.2 proposal quiet.1 quiet.2.1
    exact ⟨hreserved, hnothing, by simp [Call.file]⟩
  | resume outcome =>
    exact ⟨resumeRollover_reserved sound seated.ordered h nothing quiet,
      Turns.pending (resumeRollover_turns ..) nothing, by simp [Call.file]⟩
  | catchUp target outcome =>
    exact ⟨catchUpControlForMember_reserved sound.distinct h target quiet,
      Turns.pending (catchUpControlForMember_turns ..) nothing,
      by simp [Call.file]⟩
  | bootstrap header record outcome =>
    obtain ⟨hreserved, hfile⟩ := bootstrapMember_reserved sound.distinct h
      header record quiet.1 quiet.2
    refine ⟨hreserved, Turns.pending (bootstrapMember_turns ..) nothing, ?_⟩
    intro made file hmade
    exact hfile file (Prod.mk.inj (Option.some.inj hmade)).2

/-! ## Worlds -/

namespace World

/-- A step without a failed write. -/
inductive QuietStep : World → World → Prop where
  | session (world next : World) : SessionStep world next → QuietStep world next
  | call (world : World) (coordinator : ReplicatedJournal) (call : Call) :
      world.session = some coordinator → Call.Allowed world call → call.Quiet coordinator →
      QuietStep world (world.perform coordinator call)

variable {world next : World}

theorem QuietStep.step (h : QuietStep world next) : Step world next := by
  cases h with
  | session _ step => exact step_iff.mpr (.inl step)
  | call coordinator call hsession hallowed _ =>
    exact step_iff.mpr (.inr ⟨coordinator, call, hsession, hallowed, rfl⟩)

/-- A pool whose members were created without a failed write, with control regions of five slots or
more. -/
structure Founded (world : World) : Prop where
  closed : world.session = none
  created : ∀ memberId storage, world.disks memberId = some storage →
    ∃ header payload result, header.memberId = memberId ∧ 5 ≤ header.control.length / 4096 ∧
      Member.createPoolStorage header payload .done = .ok (storage, result)

theorem Founded.initial (h : world.Founded) : world.Initial := by
  refine ⟨h.closed, fun memberId storage hdisk => ?_⟩
  obtain ⟨header, payload, result, hid, _, hcreate⟩ := h.created memberId storage hdisk
  exact ⟨header, payload, .done, result, hid, hcreate⟩

/-- The worlds that such a pool gets to without a failed write. -/
def QuietReachable (world : World) : Prop :=
  ∃ start, Founded start ∧ ReflTransGen QuietStep start world

theorem QuietReachable.reachable (h : world.QuietReachable) : world.Reachable := by
  obtain ⟨start, founded, run⟩ := h
  exact ⟨start, founded.initial, ReflTransGen.mono (fun _ _ => QuietStep.step) _ _ run⟩

/-- Every disk has a free slot, and so have the members of an open session. -/
structure Spared (world : World) : Prop where
  disks : ∀ memberId storage, world.disks memberId = some storage → storage.Spared
  reserved : ∀ coordinator, world.session = some coordinator →
    Reserved coordinator.set.supplied
  nothing : ∀ coordinator, world.session = some coordinator → coordinator.pendingAnchor = none

theorem Founded.spared (h : world.Founded) : world.Spared := by
  refine ⟨fun memberId storage hdisk => ?_, by simp [h.closed], by simp [h.closed]⟩
  obtain ⟨header, payload, result, rfl, hsize, hcreate⟩ := h.created memberId storage hdisk
  simp only [Member.createPoolStorage, ok_iff] at hcreate
  obtain ⟨record, hvalid, hmade⟩ := hcreate
  exact (birth_of_genesis hvalid).spared hsize hmade

theorem Spared.opened (h : world.Spared) {set : PoolMemberSet} (sound : SoundMembers set.supplied)
    (reserved : Reserved set.supplied) (hopen : openSet set = .ok c) :
    Spared { world with session := some c } := by
  obtain ⟨hreserved, hnothing⟩ := openSet_reserved sound reserved hopen
  refine ⟨h.disks, fun found hfound => ?_, fun found hfound => ?_⟩
  · cases hfound
    exact hreserved
  · cases hfound
    exact hnothing

theorem flush_spared {disks : Id → Option Storage} {supplied : List Supplied}
    (spared : ∀ memberId storage, disks memberId = some storage → storage.Spared)
    (reserved : Reserved supplied) {memberId : Id}
    (h : flush disks supplied memberId = some storage) : storage.Spared := by
  unfold flush at h
  split at h
  case h_1 member hfind =>
    cases h
    exact (reserved member (mem_of_find?_eq_some hfind)).spared
  case h_2 => exact spared memberId storage h

/-- **A step without a failed write leaves every disk a free slot.** -/
theorem Spared.step [CollisionFree] (h : world.Spared) (formed : world.Formed)
    (seated : ∀ c, world.session = some c → c.Seated)
    (step : QuietStep world next) : next.Spared := by
  cases step with
  | session _ step =>
    cases step with
    | openPool devices load set c _ supplies hset hopen =>
      refine h.opened (openStorages_sound
        (fun device hdevice => formed.formatted _ _ (supplies device hdevice)) hset).1 ?_ hopen
      exact openStorages_reserved (fun device hdevice => h.disks _ _ (supplies device hdevice)) hset
    | openRecovery device trusted set c _ supplies hset hopen =>
      have hdisk := supplies device (by simp)
      exact h.opened (openAdministrativeRecovery_sound (formed.formatted _ _ hdisk) hset).1
        (openAdministrativeRecovery_reserved (h.disks _ _ hdisk) hset) hopen
    | reopen c next hsession hopen =>
      exact h.opened (formed.sound _ hsession) (h.reserved _ hsession) hopen
    | close => exact ⟨h.disks, by simp, by simp⟩
  | call c call hsession _ quiet =>
    obtain ⟨hreserved, hnothing, hfile⟩ := call.reserved (formed.sound _ hsession)
      (seated _ hsession) (h.reserved _ hsession) (h.nothing _ hsession) quiet
    refine ⟨fun memberId storage hdisk => ?_, fun found hfound => ?_, fun found hfound => ?_⟩
    · unfold perform at hdisk
      split at hdisk
      · exact flush_spared h.disks hreserved hdisk
      rename_i made file hmade
      simp only at hdisk
      split at hdisk
      · subst hdisk
        exact hfile made storage hmade
      · exact flush_spared h.disks hreserved hdisk
    · rw [perform_session] at hfound
      cases hfound
      exact hreserved
    · rw [perform_session] at hfound
      cases hfound
      exact hnothing

/-- In a run without a failed write every disk has a free slot. -/
theorem QuietReachable.spared [CollisionFree] (h : world.QuietReachable) : world.Spared := by
  obtain ⟨start, founded, run⟩ := h
  induction run with
  | refl => exact founded.spared
  | @tail middle last run step ih =>
    have hreachable : middle.Reachable := QuietReachable.reachable ⟨start, founded, run⟩
    exact ih.step hreachable.formed hreachable.seated step

/-- **The rollover reserve.**  In every run without a failed write each disk has a free slot, as a
scan of it counts them, and so has each open journal. No rollover is refused for lack of room, and
one that succeeds leaves three free slots on the disk of every voter. -/
theorem rollover_reserve [CollisionFree] {world : World} (h : world.QuietReachable) :
    (∀ memberId storage, world.disks memberId = some storage →
      ∃ free, storage.freeSlots = some free ∧ 1 ≤ free) ∧
    ∀ coordinator, world.session = some coordinator → (∀ participant ∈ coordinator.participants,
        participant.claimed.journal.hasAppendCapacity 1 = true) ∧
      (∀ proposal append outcome error,
        (coordinator.rolloverAuthorityCheckpoint proposal append outcome).2 = .error error →
          ¬ ReplicatedJournal.LacksRoom error) ∧
      ∀ proposal append outcome result, Call.Quiet coordinator (.rollover proposal append outcome) →
        (coordinator.rolloverAuthorityCheckpoint proposal append outcome).2 = .ok result →
        ∀ memberId, isVoter (coordinator.rolloverAuthorityCheckpoint proposal append
            outcome).1.set.authority.topology memberId = true →
          ∃ storage, (world.perform coordinator (.rollover proposal append outcome)).disks
              memberId = some storage ∧
            ∃ free, storage.freeSlots = some free ∧ 3 ≤ free := by
  have hspared := h.spared
  have hformed := h.reachable.formed
  refine ⟨fun memberId storage hdisk => (hspared.disks memberId storage hdisk).free,
    fun coordinator hsession => ?_⟩
  have hreserved := hspared.reserved coordinator hsession
  have hsound := hformed.sound coordinator hsession
  have hseated := h.reachable.seated coordinator hsession
  refine ⟨fun participant hparticipant => ?_, fun proposal append outcome error hrefused => ?_,
    fun proposal append outcome result quiet hok memberId hvoter => ?_⟩
  · obtain ⟨member, hmember, seat, hseat, rfl⟩ :=
      participants_mem hparticipant
    exact (hreserved member hmember).hasAppendCapacity hseat
  · exact rolloverAuthorityCheckpoint_room hseated hreserved hrefused
  · obtain ⟨_, _, hthree⟩ := rolloverAuthorityCheckpoint_reserved hsound hseated
      hreserved (hspared.nothing coordinator hsession) quiet.2.2 proposal quiet.1 quiet.2.1
    obtain ⟨member, hmember, rfl, hreserve⟩ := hthree result hok memberId hvoter
    have hafter : (world.perform coordinator (.rollover proposal append outcome)).Formed :=
      hformed.step (QuietStep.call world coordinator (.rollover proposal append outcome) hsession
        trivial quiet).step
    exact ⟨_, hafter.inStep _ (perform_session ..) member hmember, hreserve.free⟩

end World

end

namespace Trio

/-- A rollover of the new pool. -/
def firstRollover : Call := .rollover (proposalOf (checkpointAfter 3)) allDone rolloverDone

/-- A rollover of a new pool with five slots succeeds and leaves three of them free. -/
theorem firstRollover_reserve :
    let _ := tableBlake3 lateTable
    ∃ (world : World) (coordinator : ReplicatedJournal) (result : CommitResult),
      world.QuietReachable ∧ world.session = some coordinator ∧
      firstRollover.answer coordinator = .committed result ∧
      (∀ memberId storage, world.disks memberId = some storage →
        ∃ free, storage.freeSlots = some free ∧ 1 ≤ free) ∧
      ∀ memberId, isVoter (firstRollover.run coordinator).set.authority.topology memberId = true →
        ∃ storage, (world.perform coordinator firstRollover).disks memberId = some storage ∧
          ∃ free, storage.freeSlots = some free ∧ 3 ≤ free := by
  have hopens : let _ := tableBlake3 lateTable
      ∃ coordinator ∈ (pool 5).openWith [1, 2, 3] fun _ => .loaded,
        (∀ member ∈ coordinator.set.supplied, member.member.header.headerSequence ≠ maxU64) ∧
        (value (coordinator.rolloverAuthorityCheckpoint (proposalOf (checkpointAfter 3))
          allDone rolloverDone).2).isSome := by
    decide +kernel
  have hordered : OrderedTable lateTable := by decide +kernel
  have hcreated := @pool_created lateTable 5 (by decide +kernel)
  intro _
  have := tableBlake3_collisionFree lateTable hordered
  obtain ⟨coordinator, hopen, hnumbers, hsome⟩ := hopens
  obtain ⟨result, hvalue⟩ := isSome_iff_exists.mp hsome
  have hok := (value_eq_some _ _).mp hvalue
  have hfounded : (pool 5).Founded := by
    refine ⟨rfl, fun memberId storage hdisk => ?_⟩
    obtain ⟨made, hcreate⟩ := hcreated hdisk
    exact ⟨header memberId 5, ⟨topology, layout⟩, made, rfl, by simp [header], hcreate⟩
  have hreach : QuietReachable { pool 5 with session := some coordinator } :=
    ⟨pool 5, hfounded, .single (.session _ _ (openWith_session rfl hopen))⟩
  obtain ⟨hdisks, hsession⟩ := rollover_reserve hreach
  have hquiet : firstRollover.Quiet coordinator :=
    ⟨fun _ => rfl, ⟨fun _ => rfl, fun _ => rfl, fun _ _ => rfl⟩, hnumbers⟩
  exact ⟨_, coordinator, result, hreach, rfl, Answer.ofCommit_eq_committed.mpr hok, hdisks,
    (hsession coordinator rfl).2.2 _ _ _ result hquiet hok⟩

end Trio

/-! ## Runs with failed writes -/

/-- A scan of the disk finds what the journal of the participant remembers. -/
def Participant.OnDisk [Blake3] (p : Participant) (world : World) : Prop :=
  ∃ storage history, world.disks p.memberId = some storage ∧
    Journal.scanHistory p.claimed.member.header storage.slots = .ok history ∧
    history.scanResult.tail = p.claimed.journal.scanState.tail ∧
    history.scanResult.unresolvedTailDamage = p.claimed.journal.scanState.unresolvedTailDamage

/-- What a session goes by is so. It counts voters, each of them once, against the quorum of the
authority, and it knows the disks, but for members with a failed write. -/
structure ReplicatedJournal.Informed [Blake3] (c : ReplicatedJournal) (world : World) : Prop where
  distinct : (c.activeParticipants.map Participant.memberId).Nodup
  voters : ∀ p ∈ c.activeParticipants, isVoter c.set.authority.topology p.memberId = true
  quorum : c.quorum = c.set.authority.topology.quorum
  fits : c.recoveryOnly = false → c.quorum ≤ voterCount c.set.authority.topology
  onDisk : ∀ p ∈ c.participants, p.claimed.member.frozen = false → p.OnDisk world

/-- **A session is never misinformed**, whatever failed in the run before. -/
theorem World.session_informed [Blake3] {world : World} (h : world.Reachable)
    {c : ReplicatedJournal} (hsession : world.session = some c) : c.Informed world := by
  have seated := h.seated c hsession
  refine ⟨seated.ordered.distinct.sublist ((filter_sublist.map _).trans (participants_sublist c)),
    fun p hp => ?_, seated.quorum, seated.fits, fun p hp live => ?_⟩
  · obtain ⟨member, hmember, journal, hseat, rfl⟩ := active_mem hp
    exact seated.active member hmember ⟨journal, hseat⟩
  · -- the disk and the journal in memory stand for one log
    obtain ⟨member, hmember, seat, hseat, rfl⟩ := participants_mem hp
    obtain ⟨log, first, tracks, -⟩ := (h.formed.sound c hsession).sound member hmember
    obtain ⟨anchor, tracked⟩ := tracks.seated seat hseat
    obtain ⟨named, names⟩ := tracks.opened.names live
    obtain ⟨state, hscan, view, damage⟩ := tracks.opened.scan names
    exact ⟨_, _, h.formed.inStep c hsession member hmember, hscan,
      view.tail.trans (tracked.view live).tail.symm,
      Bool.eq_iff_iff.mpr (damage.trans (tracked.damage live).symm)⟩

theorem Trio.openTrio_informed :
    let _ := tableBlake3 lateTable
    ∃ world ∈ play [openTrio] (pool 5), ∃ c ∈ world.session,
      c.participants.length = 3 ∧ c.Informed world := by
  have hopens : let _ := tableBlake3 lateTable
      ∃ world ∈ play [openTrio] (pool 5), ∃ c ∈ world.session, c.participants.length = 3 := by
    decide +kernel
  have hinitial := pool_initial lateTable 5 (by decide +kernel)
  intro _
  obtain ⟨world, hplay, c, hsession, hlength⟩ := hopens
  have hreach := play_reachable hinitial hplay
  exact ⟨world, hplay, c, hsession, hlength, session_informed hreach hsession⟩

end Zettide
