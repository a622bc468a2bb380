import Zettide.Journal.Create

/-! # Claims on a member

Translation of the claims, the fence and the writes of `member.zig`.

* Every function but `fenceUnleasedCatalogWrites` holds the lock of the member while it runs. It is
  the list of what it does under the lock (`Act`), and the first act that fails ends it.
* The fence is raised without the lock, so between any two acts of the function that holds it.
* How writes and synchronizations end is an input of the act (`Ending`).
* What happened is kept in a trace, the latest event first.

Reads change nothing and are left out, and so is the fault controller of the tests: what it makes of
a write is one of the endings. -/

namespace Zettide

open Relation List

namespace SharedMember

inductive RegionKind where
  | control | metadata | data
  deriving DecidableEq, Repr

inductive ClaimKind where
  | catalog | data
  deriving DecidableEq, Repr

/-- The claim that stands for a region. -/
def RegionKind.claim : RegionKind → Option ClaimKind
  | .control => none
  | .metadata => some .catalog
  | .data => some .data

def RegionKind.region (header : Header) : RegionKind → Region
  | .control => header.control
  | .metadata => header.metadata
  | .data => header.data

structure RegionWrite where
  offset : Nat
  bytes : List UInt8
  deriving DecidableEq, Repr

/-- A check of a function. -/
inductive Guard where
  | unfenced (kind : RegionKind)
  | unclaimed (kind : RegionKind)
  | claimed (kind : ClaimKind) (id : Nat)
  | writable | catalogMode
  | position (kind : RegionKind) (offset length : Nat)
  deriving DecidableEq, Repr

/-- What a function does under the lock. -/
inductive Act where
  | check (guard : Guard)
  | write (claim : Option Nat) (kind : RegionKind) (writes : List RegionWrite)
  | sync
  | claim (kind : ClaimKind)
  | release (kind : ClaimKind) (id : Nat)
  | activateCatalogData
  | publish (redundant : Bool) (absoluteOffset recordSequence : Nat) (recordDigest : Digest)
  | close
  deriving DecidableEq, Repr

inductive Event where
  | claimed (kind : ClaimKind) (id : Nat)
  | released (kind : ClaimKind) (id : Nat)
  | wrote (claim : Option Nat) (kind : RegionKind) (stored : List RegionWrite)
  | wroteHeader | failed | fenced | consumed
  deriving DecidableEq, Repr

/-- How the writes of an act end. A write of a region that fails has stored so many bytes of each
request; headers have their own outcomes. -/
structure Ending where
  done : Bool
  stored : Nat → Nat
  first : WriteOutcome
  second : WriteOutcome

/-! ## The functions -/

def writeLocked (claim : Option Nat) (kind : RegionKind) (request : RegionWrite) : List Act :=
  [.check .writable, .check (.position kind request.offset request.bytes.length)] ++
    if request.bytes = [] then [] else [.write claim kind [request]]

def syncLocked : List Act := [.check .writable, .sync]

/-- The checks of a write without a claim. -/
def checkUnclaimed (kind : RegionKind) : List Act :=
  [.check (.unfenced kind), .check (.unclaimed kind)]

def checkPositions (kind : RegionKind) (writes : List RegionWrite) : List Act :=
  writes.map fun request => .check (.position kind request.offset request.bytes.length)

/-- The requests in groups of 32. -/
def batches : Nat → List RegionWrite → List (List RegionWrite)
  | 0, _ => []
  | fuel + 1, writes =>
    if writes = [] then [] else writes.take 32 :: batches fuel (writes.drop 32)

inductive Function where
  | claimCatalog
  | releaseCatalogClaim (id : Nat)
  | claimData
  | releaseDataClaim (id : Nat)
  | write (kind : RegionKind) (request : RegionWrite)
  | writeDurable (kind : RegionKind) (request : RegionWrite)
  | writeCatalogBatchDurable (id : Nat) (writes : List RegionWrite)
  | writeCatalogRootDurable (id : Nat) (request : RegionWrite)
  | activateCatalogDataWithCatalogClaim (id : Nat)
  | writeDataClaimed (id : Nat) (request : RegionWrite)
  | writeDataClaimedMany (id : Nat) (writes : List RegionWrite) (fault : Bool)
  | syncDataClaimed (id : Nat)
  | activateCatalogDataWithDataClaim (id : Nat)
  | publishCheckpoint (absoluteOffset recordSequence : Nat) (recordDigest : Digest)
  | publishCheckpointRedundant (absoluteOffset recordSequence : Nat) (recordDigest : Digest)
  | sync | close
  deriving DecidableEq, Repr

def Function.acts : Function → List Act
  | .claimCatalog => [.check .writable, .check .catalogMode, .claim .catalog]
  | .releaseCatalogClaim id => [.release .catalog id]
  | .claimData => [.check .writable, .claim .data]
  | .releaseDataClaim id => [.release .data id]
  | .write kind request => checkUnclaimed kind ++ writeLocked none kind request
  | .writeDurable kind request =>
    checkUnclaimed kind ++ (writeLocked none kind request ++ syncLocked)
  | .writeCatalogBatchDurable id writes =>
    [.check .writable, .check (.claimed .catalog id)] ++
      if writes = [] then []
      else checkPositions .metadata writes ++
        (writes.flatMap (writeLocked (some id) .metadata) ++ syncLocked)
  | .writeCatalogRootDurable id request =>
    [.check .writable, .check (.claimed .catalog id)] ++
      (writeLocked (some id) .metadata request ++ syncLocked)
  | .activateCatalogDataWithCatalogClaim id =>
    [.check .writable, .check (.claimed .catalog id), .check .catalogMode, .activateCatalogData]
  | .writeDataClaimed id request =>
    [.check (.claimed .data id)] ++ writeLocked (some id) .data request
  | .writeDataClaimedMany id writes fault =>
    [.check (.claimed .data id), .check .writable] ++ (checkPositions .data writes ++
        if fault ∨ ∃ request ∈ writes, request.bytes = [] then
          writes.flatMap (writeLocked (some id) .data)
        else (batches writes.length writes).map (.write (some id) .data))
  | .syncDataClaimed id => [.check (.claimed .data id)] ++ syncLocked
  | .activateCatalogDataWithDataClaim id =>
    [.check .writable, .check (.claimed .data id), .check .catalogMode, .activateCatalogData]
  | .publishCheckpoint offset sequence digest =>
    [.check .writable, .publish false offset sequence digest]
  | .publishCheckpointRedundant offset sequence digest =>
    [.check .writable, .publish true offset sequence digest]
  | .sync => checkUnclaimed .data ++ syncLocked
  | .close => [.close]

end SharedMember

open SharedMember

/-- A member as its users share it; `running` is what the function that holds the lock has still to
do. -/
structure SharedMember where
  member : Member
  dirty : Bool
  closed : Bool
  claimId : ClaimKind → Nat
  claimSequence : ClaimKind → Nat
  catalogModeActive : Bool
  running : List Act
  trace : List Event

namespace SharedMember

/-- A member that was just opened. -/
def opened (member : Member) : SharedMember where
  member := { member with frozen := false }
  dirty := false
  closed := false
  claimId _ := 0
  claimSequence _ := 1
  catalogModeActive := member.header.catalogData
  running := []
  trace := if member.header.catalogData then [.fenced] else []

def Passes (shared : SharedMember) : Guard → Prop
  | .unfenced kind => kind.claim = none ∨ shared.catalogModeActive = false
  | .unclaimed kind => ∀ held ∈ kind.claim, shared.claimId held = 0
  | .claimed kind id => id ≠ 0 ∧ shared.claimId kind = id
  | .writable =>
    shared.closed = false ∧ shared.member.mode = .writable ∧ shared.member.frozen = false
  | .catalogMode =>
    ¬ (shared.member.header.dynamicPool ∧ MemberFormat.poolDataMode shared.member.header ≠ .catalog)
  | .position kind offset length =>
    let region := kind.region shared.member.header
    offset ≤ region.length ∧ length ≤ region.length - offset ∧ region.offset + offset ≤ maxU64

instance (shared : SharedMember) (guard : Guard) : Decidable (shared.Passes guard) := by
  cases guard <;> unfold Passes <;> infer_instance

def freeze (shared : SharedMember) : SharedMember :=
  { shared with member := { shared.member with frozen := true } }

/-- The part of the requests that was stored. -/
def storedPart (stored : Nat → Nat) (writes : List RegionWrite) : List RegionWrite :=
  writes.mapIdx fun index request => ⟨request.offset, request.bytes.take (stored index)⟩

/-- The member with its headers written, and whether that succeeded. -/
def wroteHeaders (shared : SharedMember) (written : Member × Except JournalError Unit) :
    SharedMember × Bool :=
  let wrote := if written.1.storage = shared.member.storage then [] else [Event.wroteHeader]
  let failed := if written.1.frozen = shared.member.frozen then [] else [Event.failed]
  ({ shared with
     member := written.1
     dirty := if written.1 = shared.member then shared.dirty else written.1.frozen
     trace := failed ++ (wrote ++ shared.trace) },
    (value written.2).isSome)

/-- A change of one of the two claims. -/
def setClaim (claims : ClaimKind → Nat) (kind : ClaimKind) (id : Nat) : ClaimKind → Nat :=
  fun other => if other = kind then id else claims other

def syncStorage (shared : SharedMember) (ending : Ending) : SharedMember × Bool :=
  if ending.done then ({ shared with dirty := false }, true)
  else ({ shared.freeze with trace := .failed :: shared.trace }, false)

/-- One act, and whether the function goes on after it. -/
def perform (shared : SharedMember) (ending : Ending) : Act → SharedMember × Bool
  | .check guard => (shared, decide (shared.Passes guard))
  | .write claim kind writes =>
    if ending.done then
      ({ shared with dirty := true, trace := .wrote claim kind writes :: shared.trace }, true)
    else
      ({ shared.freeze with
         dirty := true
         trace := .failed :: .wrote claim kind (storedPart ending.stored writes) ::
           shared.trace }, false)
  | .sync => shared.syncStorage ending
  | .claim kind =>
    let id := shared.claimSequence kind
    if id = 0 ∨ id = maxU64 then (shared, false)
    else
      let numbered := { shared with claimSequence := setClaim shared.claimSequence kind (id + 1) }
      if shared.claimId kind ≠ 0 then (numbered, false)
      else
        ({ numbered with
           claimId := setClaim shared.claimId kind id
           trace := .claimed kind id :: shared.trace }, true)
  | .release kind id =>
    if shared.claimId kind ≠ id then (shared, false)
    else
      ({ shared with
         claimId := setClaim shared.claimId kind 0
         trace := .released kind id :: shared.trace }, true)
  | .activateCatalogData =>
    let fenced := { shared with catalogModeActive := true, trace := .fenced :: shared.trace }
    fenced.wroteHeaders (shared.member.activateCatalogData ending.first ending.second)
  | .publish redundant offset sequence digest =>
    shared.wroteHeaders (if redundant then
        shared.member.publishCheckpointRedundant offset sequence digest ending.first ending.second
      else shared.member.publishCheckpoint offset sequence digest ending.first)
  | .close =>
    if shared.closed then (shared, true)
    else if shared.claimId .catalog ≠ 0 ∨ shared.claimId .data ≠ 0 then (shared, false)
    else
      let synced :=
        if shared.member.mode = .writable ∧ shared.dirty ∧ shared.member.frozen = false then
          (shared.syncStorage ending).1
        else shared
      ({ synced with
         member := { synced.member with checkpointReclaimReady := false }
         closed := true
         trace := .consumed :: synced.trace }, true)

/-- A step of the users of a member. -/
inductive Step : SharedMember → SharedMember → Prop where
  | lock (shared : SharedMember) (function : Function) : shared.running = [] →
      Step shared { shared with running := function.acts }
  | act (shared : SharedMember) (ending : Ending) (first : Act) (rest : List Act) :
      shared.running = first :: rest →
      Step shared { (shared.perform ending first).1 with
        running := if (shared.perform ending first).2 then rest else [] }
  | fenceUnleasedCatalogWrites (shared : SharedMember) :
      Step shared { shared with
        catalogModeActive := true, trace := .fenced :: shared.trace }

/-! ## What a trace may hold -/

/-- The claims of a kind that were taken and not given back. -/
def outstanding (kind : ClaimKind) : List Event → List Nat
  | [] => []
  | .claimed other id :: past =>
    if other = kind then id :: outstanding kind past else outstanding kind past
  | .released other id :: past =>
    if other = kind then (outstanding kind past).erase id else outstanding kind past
  | _ :: past => outstanding kind past

/-- What may happen after the events of the past. -/
def Allowed (past : List Event) : Event → Prop
  | .claimed kind id => outstanding kind past = [] ∧ .claimed kind id ∉ past
  | .wrote claim kind _ =>
    .failed ∉ past ∧ .consumed ∉ past ∧ ∀ held ∈ kind.claim, outstanding held past = claim.toList ∧
        ∀ id ∈ claim, .released held id ∉ past
  | .wroteHeader => .failed ∉ past ∧ .consumed ∉ past
  | .consumed => ∀ kind, outstanding kind past = []
  | _ => True

/-- The event is no unclaimed write of the metadata or the data after the fence. -/
def Unfenced (past : List Event) : Event → Prop
  | .wrote none kind _ => kind.claim = none ∨ .fenced ∉ past
  | _ => True

/-- Every event of the trace is as it may be after those before it. -/
def Along (may : List Event → Event → Prop) : List Event → Prop
  | [] => True
  | event :: past => may past event ∧ Along may past

/-! ## Every act finds what it needs -/

/-- A write through the claim, or without one. -/
def MayWrite (shared : SharedMember) (claim : Option Nat) (kind : RegionKind) : Prop :=
  claim ≠ some 0 ∧ ∀ held ∈ kind.claim, shared.claimId held = claim.getD 0

/-- The checks before each act are enough for it; what changes the claims or the header comes
last. -/
def Safe (shared : SharedMember) : List Act → Prop
  | [] => True
  | .check guard :: rest => shared.Passes guard → Safe shared rest
  | .write claim kind _ :: rest =>
    shared.Passes .writable ∧ shared.MayWrite claim kind ∧ Safe shared rest
  | .sync :: rest => Safe shared rest
  | .activateCatalogData :: rest => shared.Passes .writable ∧ rest = []
  | .publish .. :: rest => shared.Passes .writable ∧ rest = []
  | _ :: rest => rest = []

variable {shared other : SharedMember} {rest : List Act} {claim : Option Nat} {kind : RegionKind}
  {act : Act} {next : SharedMember} {member : Member}

/-- Neither the trace nor the fence takes anything from the checks that were passed. -/
theorem Safe.of_same {acts : List Act} (safe : shared.Safe acts)
    (member : other.member = shared.member) (closed : other.closed = shared.closed)
    (claims : other.claimId = shared.claimId)
    (fence : other.catalogModeActive = false → shared.catalogModeActive = false) :
    other.Safe acts := by
  induction acts with
  | nil => trivial
  | cons act rest ih =>
    cases act with
    | check guard =>
      intro passes
      refine ih (safe ?_)
      cases guard with
      | unfenced kind => exact passes.imp id fence
      | _ => simpa only [Passes, member, closed, claims] using passes
    | write claim kind writes =>
      obtain ⟨writable, may, later⟩ := safe
      exact ⟨by simpa only [Passes, member, closed] using writable,
        by simpa only [MayWrite, claims] using may, ih later⟩
    | sync => exact ih safe
    | activateCatalogData | publish =>
      exact ⟨by simpa only [Passes, member, closed] using safe.1, safe.2⟩
    | claim | release | close => exact safe

theorem safe_writeLocked (may : shared.MayWrite claim kind) (safe : shared.Safe rest)
    (request : RegionWrite) : shared.Safe (writeLocked claim kind request ++ rest) := by
  intro writable _
  by_cases empty : request.bytes = []
  · simpa [empty] using safe
  · simpa [empty, Safe] using ⟨writable, may, safe⟩

theorem safe_writes (may : shared.MayWrite claim kind) (safe : shared.Safe rest) :
    ∀ writes : List RegionWrite, shared.Safe (writes.flatMap (writeLocked claim kind) ++ rest)
  | [] => safe
  | request :: writes => by
      rw [flatMap_cons, append_assoc]
      exact safe_writeLocked may (safe_writes may safe writes) request

theorem safe_batches (writable : shared.Passes .writable) (may : shared.MayWrite claim kind) :
    ∀ batches : List (List RegionWrite), shared.Safe (batches.map (.write claim kind))
  | [] => trivial
  | _ :: batches => ⟨writable, may, safe_batches writable may batches⟩

theorem safe_positions (safe : shared.Safe rest) :
    ∀ writes : List RegionWrite, shared.Safe (checkPositions kind writes ++ rest)
  | [] => safe
  | _ :: writes => fun _ => safe_positions safe writes

theorem mayWrite_of_unclaimed (passes : shared.Passes (.unclaimed kind)) :
    shared.MayWrite none kind :=
  ⟨by simp, passes⟩

theorem mayWrite_of_claimed {held : ClaimKind} {id : Nat} (stands : kind.claim = some held)
    (passes : shared.Passes (.claimed held id)) : shared.MayWrite (some id) kind := by
  refine ⟨fun zero => passes.1 (Option.some.inj zero), fun claimed member => ?_⟩
  obtain rfl := Option.some.inj (stands.symm.trans member)
  exact passes.2

theorem safe_acts (shared : SharedMember) (function : Function) : shared.Safe function.acts := by
  have nothing : shared.Safe [] := trivial
  have synced : shared.Safe syncLocked := fun _ => trivial
  cases function with
  | claimCatalog => exact fun _ _ => rfl
  | claimData => exact fun _ => rfl
  | releaseCatalogClaim | releaseDataClaim | close => rfl
  | write kind request =>
    intro _ passes
    simpa using safe_writeLocked (mayWrite_of_unclaimed passes) nothing request
  | writeDurable kind request =>
    exact fun _ passes => safe_writeLocked (mayWrite_of_unclaimed passes) synced request
  | writeCatalogBatchDurable id writes =>
    intro _ passes
    split
    · trivial
    · exact safe_positions (safe_writes (mayWrite_of_claimed rfl passes) synced writes) writes
  | writeCatalogRootDurable id request =>
    exact fun _ passes => safe_writeLocked (mayWrite_of_claimed rfl passes) synced request
  | activateCatalogDataWithCatalogClaim | activateCatalogDataWithDataClaim =>
    exact fun writable _ _ => ⟨writable, rfl⟩
  | writeDataClaimed id request =>
    intro passes
    have may : shared.MayWrite (some id) .data := mayWrite_of_claimed rfl passes
    simpa using safe_writeLocked may nothing request
  | writeDataClaimedMany id writes fault =>
    intro passes writable
    have may : shared.MayWrite (some id) .data := mayWrite_of_claimed rfl passes
    refine safe_positions ?_ writes
    split
    · simpa using safe_writes may nothing writes
    · exact safe_batches writable may _
  | syncDataClaimed => exact fun _ _ => trivial
  | publishCheckpoint | publishCheckpointRedundant => exact fun writable => ⟨writable, rfl⟩
  | sync => exact fun _ _ _ => trivial

/-! ## The invariant -/

/-- The member stands as its trace says. -/
structure Sound (shared : SharedMember) : Prop where
  held : ∀ kind, outstanding kind shared.trace =
    if shared.claimId kind = 0 then [] else [shared.claimId kind]
  bound : ∀ kind, shared.claimId kind < shared.claimSequence kind
  taken : ∀ kind id, .claimed kind id ∈ shared.trace → id < shared.claimSequence kind
  returned : ∀ kind id, .released kind id ∈ shared.trace →
    id < shared.claimSequence kind ∧ (shared.claimId kind = id → id = 0)
  failed : .failed ∈ shared.trace → shared.member.frozen = true
  consumed : .consumed ∈ shared.trace → shared.closed = true
  fenced : .fenced ∈ shared.trace → shared.catalogModeActive = true
  allowed : Along Allowed shared.trace

/-- An event that is about no claim. -/
def Event.plain : Event → Bool
  | .claimed .. => false
  | .released .. => false
  | _ => true

theorem Sound.happened {event : Event} (sound : shared.Sound) (plain : event.plain)
    (trace : other.trace = event :: shared.trace) (claims : other.claimId = shared.claimId)
    (sequence : other.claimSequence = shared.claimSequence) (may : Allowed shared.trace event)
    (failed : .failed ∈ other.trace → other.member.frozen = true)
    (consumed : .consumed ∈ other.trace → other.closed = true)
    (fenced : .fenced ∈ other.trace → other.catalogModeActive = true) : other.Sound where
  held kind := by
    rw [trace, claims, ← sound.held kind]
    cases event <;> first | rfl | cases plain
  bound := by rw [claims, sequence]; exact sound.bound
  taken kind id claimed := by
    rw [trace] at claimed
    rw [sequence]
    rcases mem_cons.mp claimed with rfl | earlier
    · cases plain
    · exact sound.taken kind id earlier
  returned kind id released := by
    rw [trace] at released
    rw [sequence, claims]
    rcases mem_cons.mp released with rfl | earlier
    · cases plain
    · exact sound.returned kind id earlier
  failed := failed
  consumed := consumed
  fenced := fenced
  allowed := by rw [trace]; exact ⟨may, sound.allowed⟩

section

variable (sound : shared.Sound) (writable : shared.Passes .writable)
include sound writable

theorem Sound.not_failed : .failed ∉ shared.trace ∧ .consumed ∉ shared.trace := by
  obtain ⟨opened, -, thawed⟩ := writable
  constructor
  · intro failed
    simp [sound.failed failed] at thawed
  · intro consumed
    simp [sound.consumed consumed] at opened

theorem Sound.allowed_write (may : shared.MayWrite claim kind) (stored : List RegionWrite) :
    Allowed shared.trace (.wrote claim kind stored) := by
  refine ⟨(sound.not_failed writable).1, (sound.not_failed writable).2, fun held stands => ?_⟩
  have current : shared.claimId held = claim.getD 0 := may.2 held stands
  refine ⟨?_, fun id through released => ?_⟩
  · rw [sound.held held, current]
    cases claim with
    | none => rfl
    | some id => exact if_neg fun zero => may.1 (congrArg some zero)
  · -- a claim that was given back is not the current one
    obtain rfl : claim = some id := through
    exact may.1 (congrArg some ((sound.returned held id released).2 current))

theorem sound_write (may : shared.MayWrite claim kind) (stored : List RegionWrite) :
    Sound { shared with dirty := true, trace := .wrote claim kind stored :: shared.trace } :=
  sound.happened rfl rfl rfl rfl (sound.allowed_write writable may stored)
    (by simpa using sound.failed) (by simpa using sound.consumed) (by simpa using sound.fenced)

end

section

variable (sound : shared.Sound)
include sound

/-- A failed write or synchronization freezes the member. -/
theorem sound_failed : Sound { shared.freeze with trace := .failed :: shared.trace } :=
  sound.happened rfl rfl rfl rfl trivial (fun _ => rfl) (by simpa [freeze] using sound.consumed)
    (by simpa [freeze] using sound.fenced)

theorem sound_fenced :
    Sound { shared with catalogModeActive := true, trace := .fenced :: shared.trace } :=
  sound.happened rfl rfl rfl rfl trivial (by simpa using sound.failed)
    (by simpa using sound.consumed) (fun _ => rfl)

theorem sound_sync (ending : Ending) : Sound (shared.syncStorage ending).1 := by
  unfold syncStorage
  split
  · exact { sound with }
  · exact sound_failed sound

/-- A header that was written, by a member that has not failed. -/
theorem sound_headers (writable : shared.Passes .writable) (member : Member) (dirty wrote : Bool) :
    Sound { shared with
      member := member
      dirty := dirty
      trace := (if wrote then [Event.wroteHeader] else []) ++ shared.trace } := by
  have never := sound.not_failed writable
  cases wrote with
  | false => exact { sound with failed := fun failed => absurd failed never.1 }
  | true =>
    exact sound.happened rfl rfl rfl rfl never (by simpa using fun failed => absurd failed never.1)
      (by simpa using sound.consumed) (by simpa using sound.fenced)

theorem sound_wroteHeaders (writable : shared.Passes .writable)
    (written : Member × Except JournalError Unit) : Sound (shared.wroteHeaders written).1 := by
  have wrote := sound_headers sound writable written.1
    (if written.1 = shared.member then shared.dirty else written.1.frozen)
    (decide (written.1.storage ≠ shared.member.storage))
  simp only [decide_eq_true_eq, ite_not] at wrote
  unfold wroteHeaders
  by_cases same : written.1.frozen = shared.member.frozen
  · rw [if_pos same]
    exact wrote
  -- the member was not frozen, so the write froze it
  have frozen : written.1.frozen = true := by simpa [writable.2.2] using same
  rw [if_neg same]
  exact wrote.happened rfl rfl rfl rfl trivial (fun _ => frozen)
    (by simpa using wrote.consumed) (by simpa using wrote.fenced)

theorem sound_close (ending : Ending) : Sound (shared.perform ending .close).1 := by
  simp only [perform]
  split
  · exact sound
  split
  · exact sound
  rename_i unclaimed
  push Not at unclaimed
  -- whether it synchronizes or not, the claims stay as they are
  have synced : ∀ after : SharedMember, after.Sound → after.claimId = shared.claimId →
      Sound { after with
        member := { after.member with checkpointReclaimReady := false }
        closed := true
        trace := .consumed :: after.trace } := by
    intro after stands claims
    refine stands.happened rfl rfl rfl rfl (fun kind => ?_) (by simpa using stands.failed)
      (fun _ => rfl) (by simpa using stands.fenced)
    rw [stands.held kind, claims]
    cases kind with
    | catalog => exact if_pos unclaimed.1
    | data => exact if_pos unclaimed.2
  split
  · refine synced _ (sound_sync sound ending) ?_
    unfold syncStorage
    split <;> rfl
  · exact synced _ sound rfl

end

@[simp] theorem setClaim_self (claims : ClaimKind → Nat) (kind : ClaimKind) (id : Nat) :
    setClaim claims kind id kind = id :=
  if_pos rfl

theorem setClaim_of_ne (claims : ClaimKind → Nat) {kind other : ClaimKind} (id : Nat)
    (differ : other ≠ kind) : setClaim claims kind id other = claims other :=
  if_neg differ

section

variable (sound : shared.Sound)
include sound

/-- An id is passed over when its claim is refused. -/
theorem sound_numbered (kind : ClaimKind) : Sound { shared with
      claimSequence := setClaim shared.claimSequence kind (shared.claimSequence kind + 1) } := by
  have grows : ∀ other, shared.claimSequence other ≤
      setClaim shared.claimSequence kind (shared.claimSequence kind + 1) other := by
    intro other
    unfold setClaim
    split <;> grind
  exact { sound with
    bound := fun other => (sound.bound other).trans_le (grows other)
    taken := fun other id claimed => (sound.taken other id claimed).trans_le (grows other)
    returned := fun other id released =>
      ⟨(sound.returned other id released).1.trans_le (grows other),
        (sound.returned other id released).2⟩ }

theorem sound_claim (ending : Ending) (kind : ClaimKind) :
    Sound (shared.perform ending (.claim kind)).1 := by
  have numbered := sound_numbered sound kind
  simp only [perform]
  split
  · exact sound
  split
  · exact numbered
  rename_i free
  rw [not_not] at free
  have none : outstanding kind shared.trace = [] := by rw [sound.held kind, if_pos free]
  have unused : Event.claimed kind (shared.claimSequence kind) ∉ shared.trace := fun claimed =>
    (sound.taken kind _ claimed).false
  refine { numbered with
    held := fun other => ?_, bound := fun other => ?_, taken := fun other id claimed => ?_
    returned := fun other id released => ?_, failed := by simpa using sound.failed
    consumed := by simpa using sound.consumed, fenced := by simpa using sound.fenced
    allowed := ⟨⟨none, unused⟩, sound.allowed⟩ }
  · by_cases same : other = kind
    · simp_all [outstanding]
    · simp [outstanding, Ne.symm same, setClaim_of_ne _ _ same, sound.held other]
  · by_cases same : other = kind
    · subst same
      simp
    · simpa [setClaim_of_ne _ _ same] using sound.bound other
  · rcases mem_cons.mp claimed with new | earlier
    · cases new
      simp
    · exact numbered.taken other id earlier
  · rcases mem_cons.mp released with new | earlier
    · cases new
    · refine ⟨(numbered.returned other id earlier).1, fun current => ?_⟩
      have below := (sound.returned other id earlier).1
      by_cases same : other = kind
      · subst same
        simp only [setClaim_self] at current
        omega
      · exact (sound.returned other id earlier).2 (by simpa [setClaim_of_ne _ _ same] using current)

theorem sound_release (ending : Ending) (kind : ClaimKind) (id : Nat) :
    Sound (shared.perform ending (.release kind id)).1 := by
  simp only [perform]
  split
  · exact sound
  rename_i current
  rw [not_not] at current
  subst current
  refine { sound with
    held := fun other => ?_, bound := fun other => ?_, taken := fun other id claimed => ?_
    returned := fun other id released => ?_, failed := by simpa using sound.failed
    consumed := by simpa using sound.consumed, fenced := by simpa using sound.fenced
    allowed := ⟨trivial, sound.allowed⟩ }
  · by_cases same : other = kind
    · subst same
      simp only [outstanding, if_true, setClaim_self, sound.held other]
      split <;> simp
    · simp [outstanding, Ne.symm same, setClaim_of_ne _ _ same, sound.held other]
  · have below := sound.bound other
    dsimp only [setClaim]
    split <;> omega
  · exact sound.taken other id (by simpa using claimed)
  · rcases mem_cons.mp released with new | earlier
    · cases new
      exact ⟨sound.bound kind, fun zero => by simpa using zero.symm⟩
    · refine ⟨(sound.returned other id earlier).1, fun zero => ?_⟩
      by_cases same : other = kind
      · subst same
        simpa using zero.symm
      · exact (sound.returned other id earlier).2 (by simpa [setClaim_of_ne _ _ same] using zero)

/-- One act of a function whose checks were passed. -/
theorem sound_perform (ending : Ending)
    (safe : shared.Safe (act :: rest)) : Sound (shared.perform ending act).1 := by
  cases act with
  | check => exact sound
  | write claim kind writes =>
    obtain ⟨writable, may, -⟩ := safe
    simp only [perform]
    split
    · exact sound_write sound writable may writes
    · exact sound_failed (sound_write sound writable may _)
  | sync => exact sound_sync sound ending
  | claim kind => exact sound_claim sound ending kind
  | release kind id => exact sound_release sound ending kind id
  | activateCatalogData => exact sound_wroteHeaders (sound_fenced sound) safe.1 _
  | publish => exact sound_wroteHeaders sound safe.1 _
  | close => exact sound_close sound ending

end

theorem safe_perform (ending : Ending) (safe : shared.Safe (act :: rest))
    (goes : (shared.perform ending act).2 = true) : (shared.perform ending act).1.Safe rest := by
  cases act with
  | check guard => exact safe (of_decide_eq_true goes)
  | write claim kind writes =>
    simp only [perform] at goes ⊢
    split at goes
    · rename_i done
      rw [if_pos done]
      exact safe.2.2.of_same rfl rfl rfl id
    · cases goes
  | sync =>
    simp only [perform, syncStorage] at goes ⊢
    split at goes
    · rename_i done
      rw [if_pos done]
      exact (show shared.Safe rest from safe).of_same rfl rfl rfl id
    · cases goes
  | claim | release | close =>
    obtain rfl : rest = [] := safe
    trivial
  | activateCatalogData | publish =>
    obtain rfl := safe.2
    trivial

theorem sound_step (step : Step shared next) (sound : shared.Sound ∧ shared.Safe shared.running) :
    next.Sound ∧ next.Safe next.running := by
  obtain ⟨stands, safe⟩ := sound
  cases step with
  | lock function => exact ⟨{ stands with }, safe_acts _ function⟩
  | act ending first rest running =>
    rw [running] at safe
    refine ⟨{ sound_perform stands ending safe with }, ?_⟩
    cases goes : (shared.perform ending first).2 with
    | false => trivial
    | true => exact (safe_perform ending safe goes).of_same rfl rfl rfl id
  | fenceUnleasedCatalogWrites =>
    exact ⟨sound_fenced stands, safe.of_same rfl rfl rfl (by simp)⟩

theorem sound_opened (member : Member) :
    (opened member).Sound ∧ (opened member).Safe (opened member).running := by
  refine ⟨?_, trivial⟩
  constructor <;> cases fenced : member.header.catalogData <;>
    simp [opened, fenced, outstanding, Along, Allowed]

theorem sound_of_run (run : ReflTransGen Step (opened member) shared) :
    shared.Sound ∧ shared.Safe shared.running := by
  induction run with
  | refl => exact sound_opened member
  | tail _ step ih => exact sound_step step ih

/-! ## The fence -/

/-- Before every unclaimed write of the metadata or the data that is still to come, the fence is
checked. -/
def Drained (running : List Act) : Prop :=
  ∀ before kind writes after, running = before ++ .write none kind writes :: after →
    kind.claim ≠ none → .check (.unfenced kind) ∈ before

/-- A step that raises the fence only when no unclaimed write has passed its check of it. -/
def Orderly (shared next : SharedMember) : Prop := Step shared next ∧
    (shared.catalogModeActive = false → next.catalogModeActive = true → Drained shared.running)

theorem of_mem_writeLocked {through : Option Nat} {region : RegionKind} {request : RegionWrite}
    {writes : List RegionWrite}
    (mem : .write claim kind writes ∈ writeLocked through region request) :
    claim = through ∧ kind = region := by
  by_cases empty : request.bytes = [] <;> simp_all [writeLocked]

/-- The functions that write without a claim check the fence first. -/
theorem acts_eq_of_mem {function : Function} {writes : List RegionWrite}
    (mem : .write none kind writes ∈ function.acts) :
    ∃ rest, function.acts = .check (.unfenced kind) :: rest := by
  cases function with
  | write region request =>
    obtain ⟨-, rfl⟩ := of_mem_writeLocked (by simpa [Function.acts, checkUnclaimed] using mem)
    exact ⟨_, rfl⟩
  | writeDurable region request =>
    obtain ⟨-, rfl⟩ := of_mem_writeLocked
      (by simpa [Function.acts, checkUnclaimed, syncLocked] using mem)
    exact ⟨_, rfl⟩
  | _ =>
    -- the others write through their claim
    have claimed := fun id region request =>
      mt (@of_mem_writeLocked none kind (some id) region request writes) (by simp)
    simp only [Function.acts, checkUnclaimed, syncLocked, checkPositions] at mem
    grind

theorem drained_acts (function : Function) : Drained function.acts := by
  intro before kind writes after split _
  have mem : Act.write none kind writes ∈ function.acts := by simp [split]
  obtain ⟨rest, acts⟩ := acts_eq_of_mem mem
  rw [acts] at split
  cases before with
  | nil => cases split
  | cons act before => simp [(cons.inj split).1]

theorem unfenced_perform (sound : shared.Sound) (ending : Ending)
    (drained : shared.catalogModeActive = true → Drained (act :: rest))
    (unfenced : Along Unfenced shared.trace) :
    Along Unfenced (shared.perform ending act).1.trace := by
  cases act with
  | check => exact unfenced
  | write claim kind writes =>
    have may : ∀ stored, Unfenced shared.trace (.wrote claim kind stored) := by
      intro stored
      cases claim with
      | some => trivial
      | none =>
        by_contra after
        simp only [Unfenced, not_or, not_not] at after
        -- nothing comes before this write, so the fence was not checked
        cases drained (sound.fenced after.2) [] kind writes rest rfl after.1
    simp only [perform]
    split
    · exact ⟨may _, unfenced⟩
    · exact ⟨trivial, may _, unfenced⟩
  | sync | claim | release | close | activateCatalogData | publish =>
    simp only [perform, syncStorage, wroteHeaders]
    repeat' split
    all_goals simp [Along, Unfenced, unfenced]

/-- Once the fence is up, the unclaimed writes to come are all behind a check of it. -/
theorem orderly_step (step : Orderly shared next)
    (sound : shared.Sound ∧ shared.Safe shared.running)
    (held : (shared.catalogModeActive = true → Drained shared.running) ∧
      Along Unfenced shared.trace) :
    (next.catalogModeActive = true → Drained next.running) ∧ Along Unfenced next.trace := by
  obtain ⟨drained, unfenced⟩ := held
  obtain ⟨step, raised⟩ := step
  have always : next.catalogModeActive = true → Drained shared.running := by
    intro active
    cases before : shared.catalogModeActive with
    | false => exact raised before active
    | true => exact drained before
  cases step with
  | lock function => exact ⟨fun _ => drained_acts function, unfenced⟩
  | fenceUnleasedCatalogWrites => exact ⟨always, trivial, unfenced⟩
  | act ending first rest running =>
    rw [running] at always drained
    refine ⟨fun active => ?_, unfenced_perform sound.1 ending drained unfenced⟩
    cases goes : (shared.perform ending first).2 with
    | false =>
      intro before kind writes after split
      simp at split
    | true =>
      intro before kind writes after split claimed
      rcases mem_cons.mp (always active (first :: before) kind writes after
        (by simpa using split) claimed) with rfl | later
      · -- the check was passed with the fence up
        have passes := of_decide_eq_true goes
        exact absurd (passes.resolve_left claimed) (by simpa [perform] using active)
      · exact later

theorem orderly_of_run (run : ReflTransGen Orderly (opened member) shared) :
    (shared.Sound ∧ shared.Safe shared.running) ∧
      (shared.catalogModeActive = true → Drained shared.running) ∧ Along Unfenced shared.trace := by
  induction run with
  | refl =>
    refine ⟨sound_opened member, fun _ before kind writes after split => ?_, ?_⟩
    · simp [opened] at split
    · cases fenced : member.header.catalogData <;> simp [opened, fenced, Along, Unfenced]
  | tail _ step ih => exact ⟨sound_step step.1 ih.1, orderly_step step ih.1 ih.2⟩

/-- In every run the claims are exclusive, their ids are used once, a write takes effect under its
claim only and never after a failure, the storage is consumed when no claim is out, and the fence
stays up; where the fence is raised in order, no unclaimed write takes effect after it. -/
theorem claims_kept (member : Member) (shared : SharedMember) :
    (ReflTransGen Step (opened member) shared → Along Allowed shared.trace ∧
        (.fenced ∈ shared.trace → shared.catalogModeActive = true)) ∧
    (ReflTransGen Orderly (opened member) shared → Along Unfenced shared.trace) :=
  ⟨fun run => ⟨(sound_of_run run).1.allowed, (sound_of_run run).1.fenced⟩,
    fun run => (orderly_of_run run).2.2⟩

/-- The fence is raised between the checks of a write of the metadata and the write. -/
theorem unclaimed_write_after_fence : ∃ member shared, ReflTransGen Step (opened member) shared ∧
      shared.trace = [.wrote none .metadata [⟨0, [1]⟩], .fenced] := by
  let done : Ending := ⟨true, fun _ => 0, .done, .done⟩
  let storage : Storage := ⟨.bytes (Trio.header 1 8), .bytes (Trio.header 1 8), []⟩
  refine ⟨⟨storage, Trio.header 1 8, .a, false, false, .writable, false⟩, _,
    .tail (.tail (.tail (.tail (.tail (.tail (.tail .refl
      (.lock _ (.write .metadata ⟨0, [1]⟩) rfl)) (.act _ done _ _ rfl))
      (.fenceUnleasedCatalogWrites _)) (.act _ done _ _ rfl)) (.act _ done _ _ rfl))
      (.act _ done _ _ rfl)) (.act _ done _ _ rfl), ?_⟩
  rfl

end SharedMember

end Zettide
