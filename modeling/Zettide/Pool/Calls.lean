import Zettide.Pool.Opening

/-! # Calls of a coordinator

The steps of a pool as data: a call, what it does to the coordinator, and what its caller is told.
In a run in which every call finds the room that it needs, each call that succeeds leaves the active
participants at the authority. -/

namespace Zettide

open Relation ReplicatedJournal World Option PoolTopology PoolMemberSet Member

/-- What the caller is told. -/
inductive Answer where
  | failed | done
  | committed (result : CommitResult)
  deriving DecidableEq, Repr

namespace Answer

def ofCommit : Except CoordinatorError CommitResult → Answer
  | .error _ => .failed
  | .ok result => .committed result

def ofResult {ε α : Type} : Except ε α → Answer
  | .error _ => .failed
  | .ok _ => .done

variable {result : Except CoordinatorError CommitResult} {committed : CommitResult}

theorem ofCommit_ne_failed : ofCommit result ≠ .failed ↔ ∃ committed, result = .ok committed := by
  cases result <;> simp [ofCommit]

theorem ofCommit_eq_committed :
    ofCommit result = .committed committed ↔ result = .ok committed := by
  cases result <;> simp [ofCommit]

theorem ofResult_ne_failed {ε α : Type} {result : Except ε α} :
    ofResult result ≠ .failed ↔ ∃ value, result = .ok value := by
  cases result <;> simp [ofResult]

theorem ofResult_ne_committed {ε α : Type} {result : Except ε α} :
    ofResult result ≠ .committed committed := by
  cases result <;> simp [ofResult]

end Answer

section

variable [Blake3] {c : ReplicatedJournal}

namespace Call

def answer (coordinator : ReplicatedJournal) : Call → Answer
  | .generation proposal stage prepare commit =>
    .ofCommit (coordinator.commitCatalogGeneration proposal stage prepare commit).2
  | .membership proposal promotes prepare commit =>
    .ofCommit (coordinator.commitMembership proposal promotes prepare commit).2
  | .checkpoint proposal outcome =>
    .ofCommit (coordinator.commitAuthorityCheckpoint proposal outcome).2
  | .rollover proposal append outcome =>
    .ofCommit (coordinator.rolloverAuthorityCheckpoint proposal append outcome).2
  | .resume outcome => .ofResult (coordinator.resumeRollover outcome).2
  | .catchUp target outcome => .ofResult (coordinator.catchUpControlForMember target outcome).2
  | .bootstrap header record outcome =>
    .ofResult (coordinator.bootstrapMember header record outcome).result

omit [Blake3] in
/-- Every active participant has the room that the call asks of the participants it writes to. -/
def HasRoom (coordinator : ReplicatedJournal) : Call → Prop
  | .generation .. => coordinator.HasRoom 3
  | .bootstrap .. => coordinator.HasRoom 2
  | _ => True

omit [Blake3] in
instance (coordinator : ReplicatedJournal) (call : Call) : Decidable (call.HasRoom coordinator) :=
  match call with
  | .generation .. => inferInstanceAs (Decidable (coordinator.HasRoom 3))
  | .bootstrap .. => inferInstanceAs (Decidable (coordinator.HasRoom 2))
  | .membership .. | .checkpoint .. | .rollover .. | .resume .. | .catchUp .. =>
    inferInstanceAs (Decidable True)

end Call

namespace World

variable {world : World}

/-! ### Runs that are given by their moves -/

/-- What can be done with a pool whose members are known by their identifiers. -/
inductive Move where
  | openPool (memberIds : List Id) (load : Id → CatalogLoad)
  | reopen | close
  | call (call : Call)

/-- Opening the disks with the given identifiers. -/
def openWith (world : World) (memberIds : List Id) (load : Id → CatalogLoad) :
    Option ReplicatedJournal := do
  let devices := memberIds.filterMap fun memberId =>
    (world.disks memberId).map fun storage => ⟨memberId, storage⟩
  let set ← value (openStorages devices .writable load)
  value (openSet set)

/-- The world after one move, if it can be made. -/
def move (world : World) : Move → Option World
  | .openPool memberIds load =>
    if world.session.isSome then none
    else (world.openWith memberIds load).map fun coordinator =>
      { world with session := some coordinator }
  | .reopen => do
      let coordinator ← world.session
      let next ← value (openSet coordinator.set)
      some { world with session := some next }
  | .close => some { world with session := none }
  | .call call => do
      let coordinator ← world.session
      if call.Allowed world then some (world.perform coordinator call) else none

/-- The world after all moves. -/
def play : List Move → World → Option World
  | [], world => some world
  | first :: rest, world => (world.move first).bind (play rest)

theorem openWith_session {memberIds : List Id} {load : Id → CatalogLoad}
    (closed : world.session = none) (h : world.openWith memberIds load = some c) :
    SessionStep world { world with session := some c } := by
  simp only [openWith, bind_eq_bind, bind_eq_some_iff, value_eq_some] at h
  obtain ⟨set, hset, hopen⟩ := h
  refine .openPool world _ load set c closed (fun device hdevice => ?_) hset hopen
  obtain ⟨memberId, _, hfound⟩ := List.mem_filterMap.mp hdevice
  obtain ⟨storage, hdisk, rfl⟩ := map_eq_some_iff.mp hfound
  exact hdisk

theorem move_step {next : World} {what : Move} (h : world.move what = some next) :
    Step world next := by
  cases what with
  | openPool memberIds load =>
    simp only [move] at h
    split at h
    · cases h
    · rename_i hclosed
      obtain ⟨c, hopen, rfl⟩ := map_eq_some_iff.mp h
      exact step_iff.mpr (.inl (openWith_session (by simpa using hclosed) hopen))
  | reopen =>
    simp only [move, bind_eq_bind, bind_eq_some_iff, value_eq_some, some.injEq] at h
    obtain ⟨c, hsession, opened, hopen, rfl⟩ := h
    exact step_iff.mpr (.inl (.reopen world c opened hsession hopen))
  | close =>
    cases h
    exact .close world
  | call call =>
    simp only [move, bind_eq_bind, bind_eq_some_iff] at h
    obtain ⟨c, hsession, hperform⟩ := h
    split at hperform
    · rename_i hallowed
      cases hperform
      exact step_iff.mpr (.inr ⟨c, call, hsession, hallowed, rfl⟩)
    · cases hperform

theorem play_steps {moves : List Move} : ∀ {world last : World},
    play moves world = some last → ReflTransGen Step world last := by
  induction moves with
  | nil =>
    intro world last h
    cases h
    exact .refl
  | cons first rest ih =>
    intro world last h
    obtain ⟨middle, hmove, hplay⟩ := bind_eq_some_iff.mp h
    exact .head (move_step hmove) (ih hplay)

theorem play_reachable {moves : List Move} {start last : World} (initial : start.Initial)
    (h : play moves start = some last) : last.Reachable :=
  ⟨start, initial, play_steps h⟩

end World

/-! ## Runs in which every call has room -/

variable {after : ReplicatedJournal}

theorem ReplicatedJournal.Commits.called
    {result : Except CoordinatorError CommitResult} (h : Commits after result) :
    Leaves after (Answer.ofCommit result ≠ .failed) ∧
      ∀ committed, Answer.ofCommit result = .committed committed → committed.degraded = false →
        after.HeldByVoters committed.record.historyDigest :=
  ⟨⟨h.standing, fun hok => h.stands (Answer.ofCommit_ne_failed.mp hok)⟩,
    fun committed hok => h.held committed (Answer.ofCommit_eq_committed.mp hok)⟩

theorem ReplicatedJournal.Leaves.called {ε α : Type}
    {result : Except ε α} (h : Leaves after (∃ value, result = .ok value)) :
    Leaves after (Answer.ofResult result ≠ .failed) ∧
      ∀ committed, Answer.ofResult result = .committed committed → committed.degraded = false →
        after.HeldByVoters committed.record.historyDigest :=
  ⟨⟨h.standing, fun hok => h.stands (Answer.ofResult_ne_failed.mp hok)⟩,
    fun _ hok => absurd hok Answer.ofResult_ne_committed⟩

/-- **A call that has room keeps the coordinator standing.** -/
theorem Call.leaves (h : c.Standing) (call : Call) (room : call.HasRoom c) :
    Leaves (call.run c) (call.answer c ≠ .failed) ∧
      ∀ committed, call.answer c = .committed committed → committed.degraded = false →
        (call.run c).HeldByVoters committed.record.historyDigest := by
  cases call with
  | generation proposal stage prepare commit =>
    exact (commitCatalogGeneration_commits h room ..).called
  | membership proposal promotes prepare commit =>
    exact (commitMembership_commits h ..).called
  | checkpoint proposal outcome =>
    exact (commitAuthorityCheckpoint_commits h ..).called
  | rollover proposal append outcome =>
    exact (rolloverAuthorityCheckpoint_commits h ..).called
  | resume outcome => exact (resumeRollover_leaves h ..).called
  | catchUp target outcome =>
    exact (catchUpControlForMember_leaves h ..).called
  | bootstrap header record outcome =>
    exact (bootstrapMember_leaves h room ..).called

namespace World

/-- A step in which a call finds the room that it asks for. -/
inductive RoomyStep : World → World → Prop where
  | session (world next : World) : SessionStep world next → RoomyStep world next
  | call (world : World) (coordinator : ReplicatedJournal) (call : Call) :
      world.session = some coordinator → Call.Allowed world call → call.HasRoom coordinator →
      RoomyStep world (world.perform coordinator call)

variable {world next : World}

theorem RoomyStep.step (h : RoomyStep world next) : Step world next := by
  cases h with
  | session _ step => exact step_iff.mpr (.inl step)
  | call c call hsession hallowed _ =>
    exact step_iff.mpr (.inr ⟨c, call, hsession, hallowed, rfl⟩)

/-- The worlds that a pool gets to when every call finds the room that it asks for. -/
def RoomyReachable (world : World) : Prop :=
  ∃ start, Initial start ∧ ReflTransGen RoomyStep start world

/-- The disks are formatted, and an open session stands at its authority. -/
structure Stands (world : World) : Prop where
  formed : world.Formed
  standing : ∀ coordinator, world.session = some coordinator → coordinator.Standing

theorem Stands.session (h : world.Stands) (step : SessionStep world next) : next.Stands := by
  refine ⟨h.formed.step (step_iff.mpr (.inl step)), ?_⟩
  cases step with
  | openPool devices load set c _ supplies hset hopen =>
    intro found hfound
    cases hfound
    exact (openSet_standing (openStorages_ready
      (fun device hdevice => h.formed.formatted _ _ (supplies device hdevice)) hset) hopen).1
  | openRecovery device trusted set c _ supplies hset hopen =>
    intro found hfound
    cases hfound
    exact (openSet_standing (openAdministrativeRecovery_ready
      (h.formed.formatted _ _ (supplies device (by simp))) hset) hopen).1
  | reopen c next hsession hopen =>
    intro found hfound
    cases hfound
    exact (openSet_standing (h.standing c hsession).ready hopen).1
  | close => simp

/-- **A step in which a call has room keeps the pool standing.** -/
theorem Stands.step (h : world.Stands) (step : RoomyStep world next) : next.Stands := by
  cases step with
  | session _ step => exact h.session step
  | call c call hsession hallowed room =>
    refine ⟨h.formed.step (RoomyStep.call world c call hsession hallowed room).step, ?_⟩
    intro found hfound
    rw [perform_session] at hfound
    cases hfound
    exact (call.leaves (h.standing c hsession) room).1.standing

theorem RoomyReachable.stands (h : world.RoomyReachable) : world.Stands := by
  obtain ⟨start, initial, run⟩ := h
  induction run with
  | refl => exact ⟨initial.formed, by simp [initial.closed]⟩
  | tail _ step ih => exact ih.step step

/-- A disk of the pool ends with the event. -/
def DiskEndsWith (world : World) (memberId : Id) (event : Digest) : Prop :=
  ∃ storage ∈ world.disks memberId, storage.EndsWith event

instance (world : World) (memberId : Id) (event : Digest) :
    Decidable (world.DiskEndsWith memberId event) :=
  inferInstanceAs (Decidable (∃ storage ∈ _, _))

/-- **In a run in which every call finds room, a call that succeeds leaves every active participant
at the authority, and a commit that is not degraded is on the disk of every voter.** -/
theorem active_at_authority {world : World} (h : world.RoomyReachable)
    {coordinator : ReplicatedJournal} (hsession : world.session = some coordinator) {call : Call}
    (hallowed : call.Allowed world) (room : call.HasRoom coordinator)
    (succeeds : call.answer coordinator ≠ .failed) :
    (∀ participant ∈ (call.run coordinator).activeParticipants, ∃ tail,
      participant.claimed.journal.scanState.tail = some tail ∧
        tail.historyDigest = (call.run coordinator).set.authority.historyDigest) ∧
    (∀ committed, call.answer coordinator = .committed committed → committed.degraded = false →
      ∀ memberId, isVoter (call.run coordinator).set.authority.topology memberId →
        (world.perform coordinator call).DiskEndsWith memberId committed.record.historyDigest) := by
  have hstep := RoomyStep.call world coordinator call hsession hallowed room
  have hformed := (h.stands.step hstep).formed
  obtain ⟨leaves, held⟩ := call.leaves (h.stands.standing coordinator hsession) room
  refine ⟨fun participant hparticipant => ?_, fun committed hok hdegraded memberId hvoter => ?_⟩
  · obtain ⟨member, hmember, journal, hseat, rfl⟩ := active_mem hparticipant
    exact (leaves.stands succeeds member hmember journal hseat).2.2
  · obtain ⟨member, hmember, rfl, hends⟩ := held committed hok hdegraded memberId hvoter
    exact ⟨_, hformed.inStep _ (perform_session ..) member hmember, hends⟩

end World

end

/-! ### A call with room, and one without -/

namespace Trio

/-- The disk of a member that was just created. -/
def createdStorage (memberId slotCount : Nat) : Storage where
  copyA := .bytes (header memberId slotCount)
  copyB := .bytes (header memberId slotCount)
  slots := .bytes (genesisOf memberId) :: List.replicate (slotCount - 1) .zero

/-- The pool after the creation of its members. -/
def pool (slotCount : Nat) : World where
  disks := fun memberId =>
    if memberId = 1 ∨ memberId = 2 ∨ memberId = 3 then some (createdStorage memberId slotCount)
    else none
  session := none

/-- The event as it is proposed. -/
def proposalOf (event : HistoryPreimage) : Record := .ofPreimage event 0 0 0 0

def allDone : Id → WriteOutcome := fun _ => .done

def rolloverDone : RolloverOutcome := ⟨allDone, allDone, fun _ _ => .done⟩

def openTrio : Move := .openPool [1, 2, 3] fun _ => .loaded

/-- The first generation. -/
def generationCall : Call := .generation (proposalOf prepare) (.staged []) allDone allDone

/-- The disks of the pool are those of members that were created. -/
theorem pool_created (messages : List Message) (slotCount : Nat)
    (created : let _ := tableBlake3 messages
      ∀ memberId ∈ [1, 2, 3], (value (createPoolStorage (header memberId slotCount)
        ⟨topology, layout⟩ .done)).map Prod.fst = some (createdStorage memberId slotCount))
    {memberId : Id} {storage : Storage} (hdisk : (pool slotCount).disks memberId = some storage) :
    let _ := tableBlake3 messages
    ∃ result, createPoolStorage (header memberId slotCount) ⟨topology, layout⟩ .done =
      .ok (storage, result) := by
  intro _
  simp only [pool] at hdisk
  split at hdisk
  case isFalse => cases hdisk
  case isTrue hmember =>
    obtain ⟨⟨made, result⟩, hcreate, hmade⟩ :=
      map_eq_some_iff.mp (created memberId (by simpa using hmember))
    obtain rfl : made = storage := hmade.trans (some.inj hdisk)
    exact ⟨result, (value_eq_some _ _).mp hcreate⟩

theorem pool_initial (messages : List Message) (slotCount : Nat)
    (created : let _ := tableBlake3 messages
      ∀ memberId ∈ [1, 2, 3], (value (createPoolStorage (header memberId slotCount)
        ⟨topology, layout⟩ .done)).map Prod.fst = some (createdStorage memberId slotCount)) :
    @Initial (tableBlake3 messages) (pool slotCount) := by
  let _ := tableBlake3 messages
  refine ⟨rfl, fun memberId storage hdisk => ?_⟩
  obtain ⟨result, hcreate⟩ := pool_created messages slotCount created hdisk
  exact ⟨header memberId slotCount, ⟨topology, layout⟩, .done, result, rfl, hcreate⟩

/-- The first generation of a pool with eight slots leaves every voter at its commit. -/
theorem generationCall_at_authority :
    let _ := tableBlake3 table
    ∃ (world : World) (coordinator : ReplicatedJournal), world.RoomyReachable ∧
      world.session = some coordinator ∧
      generationCall.answer coordinator = .committed ⟨commitOf 1, [1, 2, 3], false, [1, 2]⟩ ∧
      (∀ participant ∈ (generationCall.run coordinator).activeParticipants, ∃ tail,
        participant.claimed.journal.scanState.tail = some tail ∧
          tail.historyDigest = (generationCall.run coordinator).set.authority.historyDigest) ∧
      ∀ memberId,
        isVoter (generationCall.run coordinator).set.authority.topology memberId →
          (world.perform coordinator generationCall).DiskEndsWith memberId 11 := by
  have hopens : let _ := tableBlake3 table
      ∃ coordinator ∈ (pool 8).openWith [1, 2, 3] fun _ => .loaded,
        generationCall.HasRoom coordinator ∧ generationCall.answer coordinator =
          .committed ⟨commitOf 1, [1, 2, 3], false, [1, 2]⟩ := by
    decide +kernel
  have hinitial := pool_initial table 8 (by decide +kernel)
  intro _
  obtain ⟨coordinator, hopen, room, hanswer⟩ := hopens
  have hreach : RoomyReachable { pool 8 with session := some coordinator } :=
    ⟨pool 8, hinitial, .single (.session _ _ (openWith_session rfl hopen))⟩
  have hallowed : generationCall.Allowed { pool 8 with session := some coordinator } := trivial
  obtain ⟨hactive, hheld⟩ := active_at_authority hreach rfl hallowed room (by simp [hanswer])
  exact ⟨_, coordinator, hreach, rfl, hanswer, hactive, hheld _ hanswer rfl⟩

/-- A checkpoint of the new pool after the event `previous`. -/
def checkpointAfter (previous : Digest) : HistoryPreimage := { genesis with
    kind := .checkpoint, mountSessionId := 5, transactionId := 6, previousHistoryDigest := previous,
    payload := .snapshot ⟨previous, 0, 0, 0, topology, layout, false⟩ }

/-- The generation after two checkpoints. -/
def latePrepare : HistoryPreimage := { prepare with previousHistoryDigest := 11 }

def lateCommit : HistoryPreimage := { latePrepare with
    kind := .generationCommit, previousHistoryDigest := 15,
    payload := .certificate ⟨[⟨1, 16, 15⟩, ⟨2, 17, 15⟩]⟩ }

def lateCommitOf (memberId : Id) : Record := .ofPreimage lateCommit memberId 5 (memberId + 15) 18

/-- Two checkpoints by all members, and a generation that the third member has no part in. -/
def lateTable : List Message := [.topology topology, .layout layout,
   .history genesis, .record (genesisOf 1), .record (genesisOf 2), .record (genesisOf 3),
   .history (checkpointAfter 3), .record (.ofPreimage (checkpointAfter 3) 1 2 4 7),
   .record (.ofPreimage (checkpointAfter 3) 2 2 5 7),
   .record (.ofPreimage (checkpointAfter 3) 3 2 6 7),
   .history (checkpointAfter 7), .record (.ofPreimage (checkpointAfter 7) 1 3 8 11),
   .record (.ofPreimage (checkpointAfter 7) 2 3 9 11),
   .record (.ofPreimage (checkpointAfter 7) 3 3 10 11),
   .history latePrepare, .record (.ofPreimage latePrepare 1 4 12 15),
   .record (.ofPreimage latePrepare 2 4 13 15),
   .history lateCommit, .record (lateCommitOf 1), .record (lateCommitOf 2)]

/-- The third member cannot publish its anchor. -/
def thirdFails : RolloverOutcome :=
  { rolloverDone with first := fun memberId => if memberId = 3 then .failedOld else .done }

/-- A rollover that the third member does not finish is resumed without it, so that its journal
stays two slots short of the others. -/
def lateMoves : List Move :=
  [openTrio, .call (.checkpoint (proposalOf (checkpointAfter 3)) allDone),
   .call (.rollover (proposalOf (checkpointAfter 7)) allDone thirdFails), .close, openTrio,
   .call (.resume rolloverDone)]

def lateCall : Call := .generation (proposalOf latePrepare) (.staged []) allDone allDone

/-- **A generation commit passes over an active voter without three free slots.**  The voter stays
active behind the authority, and the commit says that it is not degraded. -/
theorem lateCall_passes_over :
    let _ := tableBlake3 lateTable
    ∃ (world : World) (coordinator : ReplicatedJournal) (committed : CommitResult),
      world.Reachable ∧ world.session = some coordinator ∧
      lateCall.answer coordinator = .committed committed ∧ committed.degraded = false ∧
      (∃ participant ∈ (lateCall.run coordinator).activeParticipants,
        ∃ tail ∈ participant.claimed.journal.scanState.tail,
          tail.historyDigest ≠ (lateCall.run coordinator).set.authority.historyDigest) ∧
      isVoter (lateCall.run coordinator).set.authority.topology 3 ∧
      ¬ (world.perform coordinator lateCall).DiskEndsWith 3 committed.record.historyDigest := by
  have hplays : let _ := tableBlake3 lateTable
      ∃ world ∈ play lateMoves (pool 5), ∃ coordinator ∈ world.session,
      lateCall.answer coordinator = .committed ⟨lateCommitOf 1, [1, 2], false, [1, 2]⟩ ∧
      (∃ participant ∈ (lateCall.run coordinator).activeParticipants,
        ∃ tail ∈ participant.claimed.journal.scanState.tail,
          tail.historyDigest ≠ (lateCall.run coordinator).set.authority.historyDigest) ∧
      isVoter (lateCall.run coordinator).set.authority.topology 3 ∧
      ¬ (world.perform coordinator lateCall).DiskEndsWith 3 18 := by
    decide +kernel
  have hinitial := pool_initial lateTable 5 (by decide +kernel)
  intro _
  obtain ⟨world, hplay, coordinator, hsession, hanswer, hrest⟩ := hplays
  exact ⟨world, coordinator, _, play_reachable hinitial hplay, hsession, hanswer, rfl, hrest⟩

end Trio

end Zettide
