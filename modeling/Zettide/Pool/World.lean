import Zettide.Pool.CatchUp
import Zettide.Pool.Seats

/-! # Runs of a pool

The disks of a pool and at most one coordinator that has them open. A step is one call of the
coordinator, with any outcome of each of its writes, or the opening or the end of a session; a crash
in a call is a step whose later writes fail, followed by the end of the session.

Every disk is known by the identifier of the member on it. -/

namespace Zettide

open Relation

structure World where
  disks : Id → Option Storage
  session : Option ReplicatedJournal

namespace World

/-- The disks as the members of a set have left them. -/
def flush (disks : Id → Option Storage) (supplied : List Supplied) : Id → Option Storage :=
  fun memberId =>
    match PoolMemberSet.findSuppliedMember supplied memberId with
    | some member => some member.member.storage
    | none => disks memberId

/-- The world after a call of the coordinator. -/
def after (world : World) (coordinator : ReplicatedJournal) : World where
  disks := flush world.disks coordinator.set.supplied
  session := some coordinator

/-- The disk with the given identifier is supplied. -/
def Supplies (world : World) (devices : List Device) : Prop :=
  ∀ device ∈ devices, world.disks device.identity = some device.storage

variable [Blake3]

/-- One step of a pool. -/
inductive Step : World → World → Prop where
  | openPool (world : World) (devices : List Device) (load : Id → CatalogLoad)
      (set : PoolMemberSet) (coordinator : ReplicatedJournal) :
      world.session = none → world.Supplies devices →
      PoolMemberSet.openStorages devices .writable load = .ok set →
      ReplicatedJournal.openSet set = .ok coordinator →
      Step world { world with session := some coordinator }
  | openRecovery (world : World) (device : Device) (trusted : Id) (set : PoolMemberSet)
      (coordinator : ReplicatedJournal) :
      world.session = none → world.Supplies [device] →
      PoolMemberSet.openAdministrativeRecovery device trusted = .ok set →
      ReplicatedJournal.openSet set = .ok coordinator →
      Step world { world with session := some coordinator }
  | reopen (world : World) (coordinator next : ReplicatedJournal) :
      world.session = some coordinator →
      ReplicatedJournal.openSet coordinator.set = .ok next →
      Step world { world with session := some next }
  | close (world : World) : Step world { world with session := none }
  | generation (world : World) (coordinator : ReplicatedJournal) (proposal : Record)
      (stage : ReplicatedJournal.CatalogStage) (prepare commit : Id → WriteOutcome) :
      world.session = some coordinator →
      Step world (world.after (coordinator.commitCatalogGeneration proposal stage prepare commit).1)
  | membership (world : World) (coordinator : ReplicatedJournal) (proposal : Record)
      (promotes : Except CoordinatorError Unit) (prepare commit : Id → WriteOutcome) :
      world.session = some coordinator →
      Step world (world.after (coordinator.commitMembership proposal promotes prepare commit).1)
  | checkpoint (world : World) (coordinator : ReplicatedJournal) (proposal : Record)
      (outcome : Id → WriteOutcome) :
      world.session = some coordinator →
      Step world (world.after (coordinator.commitAuthorityCheckpoint proposal outcome).1)
  | rollover (world : World) (coordinator : ReplicatedJournal) (proposal : Record)
      (append : Id → WriteOutcome) (outcome : ReplicatedJournal.RolloverOutcome) :
      world.session = some coordinator →
      Step world (world.after (coordinator.rolloverAuthorityCheckpoint proposal append outcome).1)
  | resume (world : World) (coordinator : ReplicatedJournal)
      (outcome : ReplicatedJournal.RolloverOutcome) :
      world.session = some coordinator →
      Step world (world.after (coordinator.resumeRollover outcome).1)
  | catchUp (world : World) (coordinator : ReplicatedJournal) (target : Id)
      (outcome : Nat → WriteOutcome) :
      world.session = some coordinator →
      Step world (world.after (coordinator.catchUpControlForMember target outcome).1)
  | bootstrap (world : World) (coordinator : ReplicatedJournal) (header : Header)
      (record : Record) (outcome : ReplicatedJournal.BootstrapOutcome) :
      world.session = some coordinator → world.disks header.memberId = none →
      Step world (let made := coordinator.bootstrapMember header record outcome
         { (world.after made.coordinator) with
           disks := fun memberId =>
             if memberId = header.memberId then made.file
             else flush world.disks made.coordinator.set.supplied memberId })

/-- A pool whose members have just been created, each with any outcome of its writes. -/
structure Initial (world : World) : Prop where
  closed : world.session = none
  created : ∀ memberId storage, world.disks memberId = some storage →
    ∃ header payload outcome result, header.memberId = memberId ∧
      Member.createPoolStorage header payload outcome = .ok (storage, result)

/-- The worlds that a pool can get to. -/
def Reachable (world : World) : Prop := ∃ start, Initial start ∧ ReflTransGen Step start world

end World

/-! ## Calls -/

/-- A call of the coordinator, with how its writes end. -/
inductive Call where
  | generation (proposal : Record) (stage : ReplicatedJournal.CatalogStage)
      (prepare commit : Id → WriteOutcome)
  | membership (proposal : Record) (promotes : Except CoordinatorError Unit)
      (prepare commit : Id → WriteOutcome)
  | checkpoint (proposal : Record) (outcome : Id → WriteOutcome)
  | rollover (proposal : Record) (append : Id → WriteOutcome)
      (outcome : ReplicatedJournal.RolloverOutcome)
  | resume (outcome : ReplicatedJournal.RolloverOutcome)
  | catchUp (target : Id) (outcome : Nat → WriteOutcome)
  | bootstrap (header : Header) (record : Record) (outcome : ReplicatedJournal.BootstrapOutcome)

namespace Call

variable [Blake3]

/-- The coordinator after the call. -/
def run (coordinator : ReplicatedJournal) : Call → ReplicatedJournal
  | .generation proposal stage prepare commit =>
    (coordinator.commitCatalogGeneration proposal stage prepare commit).1
  | .membership proposal promotes prepare commit =>
    (coordinator.commitMembership proposal promotes prepare commit).1
  | .checkpoint proposal outcome => (coordinator.commitAuthorityCheckpoint proposal outcome).1
  | .rollover proposal append outcome =>
    (coordinator.rolloverAuthorityCheckpoint proposal append outcome).1
  | .resume outcome => (coordinator.resumeRollover outcome).1
  | .catchUp target outcome => (coordinator.catchUpControlForMember target outcome).1
  | .bootstrap header record outcome =>
    (coordinator.bootstrapMember header record outcome).coordinator

omit [Blake3] in
/-- The file of a member that is bootstrapped is not there yet. -/
def Allowed (world : World) : Call → Prop
  | .bootstrap header _ _ => world.disks header.memberId = none
  | _ => True

omit [Blake3] in
instance (world : World) (call : Call) : Decidable (call.Allowed world) :=
  match call with
  | .bootstrap .. => inferInstanceAs (Decidable (_ = none))
  | .generation .. | .membership .. | .checkpoint .. | .rollover .. | .resume .. | .catchUp .. =>
    inferInstanceAs (Decidable True)

/-- The file that the call makes, with the identifier of its disk. -/
def file (coordinator : ReplicatedJournal) : Call → Option (Id × Option Storage)
  | .bootstrap header record outcome =>
    some (header.memberId, (coordinator.bootstrapMember header record outcome).file)
  | _ => none

end Call

namespace World

variable [Blake3]

/-- The world after a call. -/
def perform (world : World) (coordinator : ReplicatedJournal) (call : Call) : World :=
  match call.file coordinator with
  | none => world.after (call.run coordinator)
  | some (made, file) =>
    { world.after (call.run coordinator) with
      disks := fun memberId =>
        if memberId = made then file
        else flush world.disks (call.run coordinator).set.supplied memberId }

/-- The beginning or the end of a session. -/
inductive SessionStep : World → World → Prop where
  | openPool (world : World) (devices : List Device) (load : Id → CatalogLoad)
      (set : PoolMemberSet) (coordinator : ReplicatedJournal) :
      world.session = none → world.Supplies devices →
      PoolMemberSet.openStorages devices .writable load = .ok set →
      ReplicatedJournal.openSet set = .ok coordinator →
      SessionStep world { world with session := some coordinator }
  | openRecovery (world : World) (device : Device) (trusted : Id) (set : PoolMemberSet)
      (coordinator : ReplicatedJournal) :
      world.session = none → world.Supplies [device] →
      PoolMemberSet.openAdministrativeRecovery device trusted = .ok set →
      ReplicatedJournal.openSet set = .ok coordinator →
      SessionStep world { world with session := some coordinator }
  | reopen (world : World) (coordinator next : ReplicatedJournal) :
      world.session = some coordinator →
      ReplicatedJournal.openSet coordinator.set = .ok next →
      SessionStep world { world with session := some next }
  | close (world : World) : SessionStep world { world with session := none }

variable {world : World}

/-- **The steps of a pool are its calls, and what begins and ends a session.** -/
theorem step_iff {next : World} : Step world next ↔ SessionStep world next ∨ ∃ c call,
      world.session = some c ∧ Call.Allowed world call ∧ next = world.perform c call := by
  constructor
  · intro step
    cases step with
    | openPool devices load set c hsession supplies hset hopen =>
      exact .inl (.openPool world devices load set c hsession supplies hset hopen)
    | openRecovery device trusted set c hsession supplies hset hopen =>
      exact .inl (.openRecovery world device trusted set c hsession supplies hset hopen)
    | reopen c next hsession hopen =>
      exact .inl (.reopen world c next hsession hopen)
    | close => exact .inl (.close world)
    | generation c proposal stage prepare commit hsession =>
      exact .inr ⟨c, .generation proposal stage prepare commit, hsession, trivial, rfl⟩
    | membership c proposal promotes prepare commit hsession =>
      exact .inr ⟨c, .membership proposal promotes prepare commit, hsession, trivial, rfl⟩
    | checkpoint c proposal outcome hsession =>
      exact .inr ⟨c, .checkpoint proposal outcome, hsession, trivial, rfl⟩
    | rollover c proposal append outcome hsession =>
      exact .inr ⟨c, .rollover proposal append outcome, hsession, trivial, rfl⟩
    | resume c outcome hsession =>
      exact .inr ⟨c, .resume outcome, hsession, trivial, rfl⟩
    | catchUp c target outcome hsession =>
      exact .inr ⟨c, .catchUp target outcome, hsession, trivial, rfl⟩
    | bootstrap c header record outcome hsession hnew =>
      exact .inr ⟨c, .bootstrap header record outcome, hsession, hnew, rfl⟩
  · rintro (session | ⟨c, call, hsession, hallowed, rfl⟩)
    · cases session with
      | openPool devices load set c hsession supplies hset hopen =>
        exact .openPool world devices load set c hsession supplies hset hopen
      | openRecovery device trusted set c hsession supplies hset hopen =>
        exact .openRecovery world device trusted set c hsession supplies hset hopen
      | reopen c next hsession hopen =>
        exact .reopen world c next hsession hopen
      | close => exact .close world
    · cases call with
      | generation proposal stage prepare commit =>
        exact .generation world c proposal stage prepare commit hsession
      | membership proposal promotes prepare commit =>
        exact .membership world c proposal promotes prepare commit hsession
      | checkpoint proposal outcome =>
        exact .checkpoint world c proposal outcome hsession
      | rollover proposal append outcome =>
        exact .rollover world c proposal append outcome hsession
      | resume outcome => exact .resume world c outcome hsession
      | catchUp target outcome => exact .catchUp world c target outcome hsession
      | bootstrap header record outcome =>
        exact .bootstrap world c header record outcome hsession hallowed

@[simp] theorem perform_session (world : World) (c : ReplicatedJournal) (call : Call) :
    (world.perform c call).session = some (call.run c) := by
  unfold perform
  split <;> rfl

end World

end Zettide
