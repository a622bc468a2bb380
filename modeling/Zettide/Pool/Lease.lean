import Zettide.Pool.DataPlane

/-! # Data leases and volume backends

Translation of `CatalogDataLease` and `CatalogVolumeBackend` of `pool_catalog_volume.zig`. A lease
binds the catalog of the authority and claims the data regions of all members that it maps an
extent to. A backend reads one volume of the catalog, and writes it under a lease; an extent is
written to all its replicas, and read from one, or from two of three that agree.

The source compares the member sets of a lease and of a backend as pointers; here there is one
set. Which reads and writes of a storage fail is an input. -/

namespace Zettide.PoolCatalogVolume

open PoolCatalog PoolCatalogGraph PoolCatalogStore PoolMemberSet List Bytes DataPlane

/-! ## The catalog of a lease -/

structure BoundCatalog where
  generation : Nat
  authorityHistoryDigest : Digest
  rootDigest : Digest
  catalog : ValidatedCatalog
  deriving DecidableEq, Repr

def loadBoundCatalog [Codec] (set : PoolMemberSet) (plane : DataPlane) (unreadable : Id → Bool) :
    Except DataError BoundCatalog := do
  let mode ← withError .set (dataMode set)
  rejectIf (mode ≠ .catalog) .poolDataRequiresCatalogMode
  rejectIf (set.authority.generation = 0 ∨ set.authority.dataRootDigest = 0)
    .genesisHasNoCatalogRoot
  let loaded ← loadCatalog set plane unreadable
  let digest ← withError .catalog (rootDigest loaded.validated.root)
  rejectIf (set.authority.generation ≠ loaded.validated.root.generation ∨
    set.authority.dataRootDigest ≠ digest) .poolAuthorityChanged
  .ok ⟨set.authority.generation, set.authority.historyDigest, set.authority.dataRootDigest,
    loaded.validated⟩

/-- The slot in its place among the ordered slots. -/
def insertSlot (slots : List Nat) (slot : Nat) : Except DataError (List Nat) :=
  let behind := slots.dropWhile (· < slot)
  if behind.head? = some slot then .ok slots
  else do
    rejectIf (slots.length = PoolTopology.maxMemberCount) .tooManyDataMembers
    .ok (slots.takeWhile (· < slot) ++ slot :: behind)

def insertSlots : List Nat → List Nat → Except DataError (List Nat)
  | slots, [] => .ok slots
  | slots, slot :: rest => do
      let slots ← insertSlot slots slot
      insertSlots slots rest

/-- The slots that a catalog maps extents to, one after the other. -/
def mappedSlots (catalog : ValidatedCatalog) : List Nat :=
  (catalog.runs.filter fun entry => entry.2.state = .mapped).flatMap fun entry =>
    entry.2.memberSlots

/-! ## Leases -/

structure ClaimedMember where
  slot : Nat
  memberId : Id
  claimId : Nat
  deriving DecidableEq, Repr

structure CatalogDataLease where
  generation : Nat
  authorityHistoryDigest : Digest
  rootDigest : Digest
  catalog : ValidatedCatalog
  claims : List ClaimedMember
  frozen : Bool
  released : Bool
  deriving DecidableEq, Repr

/-- The claims on the members with the slots, and the error that ended the loop. -/
def claimSlots (set : PoolMemberSet) (plane : DataPlane) :
    List Nat → DataPlane × List ClaimedMember × Except DataError Unit
  | [] => (plane, [], .ok ())
  | slot :: rest =>
    match dataMemberForWrite set slot with
    | .error e => (plane, [], .error e)
    | .ok supplied =>
      match plane.claimData supplied.member with
      | (plane, .error e) => (plane, [], .error e)
      | (plane, .ok claimId) =>
        match claimSlots set plane rest with
        | (plane, claims, result) => (plane, ⟨slot, supplied.id, claimId⟩ :: claims, result)

def releaseClaims (plane : DataPlane) (claims : List ClaimedMember) : DataPlane :=
  claims.foldl (fun plane claim => plane.releaseDataClaim claim.memberId claim.claimId) plane

namespace CatalogDataLease

/-- The authority is the one the lease was taken under, and may be written. -/
def validate (lease : CatalogDataLease) (set : PoolMemberSet) : Except DataError Unit := do
  rejectIf (lease.released = true) .dataLeaseReleased
  rejectIf (lease.frozen = true) .writeFrozen
  rejectIf (set.authority.historyDigest ≠ lease.authorityHistoryDigest ∨
    set.authority.generation ≠ lease.generation ∨
    set.authority.dataRootDigest ≠ lease.rootDigest) .poolAuthorityChanged
  rejectIf (set.controlWrite = none ∨ set.dataAccess ≠ .readWrite) .dataWriteUnavailable

/-- The checks of an acquisition: the catalog, and the slots that have to be claimed. -/
def prepare [Codec] (set : PoolMemberSet) (plane : DataPlane) (unreadable : Id → Bool) :
    Except DataError (BoundCatalog × List Nat) := do
  rejectIf (set.controlWrite = none ∨ set.dataAccess ≠ .readWrite) .dataWriteUnavailable
  let bound ← loadBoundCatalog set plane unreadable
  let slots ← insertSlots [] (mappedSlots bound.catalog)
  .ok (bound, slots)

def acquire [Codec] (set : PoolMemberSet) (plane : DataPlane) (unreadable : Id → Bool) :
    DataPlane × Except DataError CatalogDataLease :=
  match prepare set plane unreadable with
  | .error e => (plane, .error e)
  | .ok (bound, slots) =>
    match claimSlots set plane slots with
    | (plane, claims, .error e) => (releaseClaims plane claims, .error e)
    | (plane, claims, .ok ()) =>
      let lease : CatalogDataLease :=
        { generation := bound.generation
          authorityHistoryDigest := bound.authorityHistoryDigest
          rootDigest := bound.rootDigest
          catalog := bound.catalog
          claims := claims
          frozen := false
          released := false }
      match lease.validate set with
      | .error e => (releaseClaims plane claims, .error e)
      | .ok () => (plane, .ok lease)

def claimForSlot (lease : CatalogDataLease) (slot : Nat) : Except DataError ClaimedMember :=
  orElseFail (lease.claims.find? fun claim => claim.slot = slot) .dataClaimUnavailable

def validateClaims (lease : CatalogDataLease) : List Nat → Except DataError Unit
  | [] => .ok ()
  | slot :: rest => do
      let _ ← lease.claimForSlot slot
      lease.validateClaims rest

end CatalogDataLease

/-- A member set with a lease on it. -/
structure LeasedSet where
  set : PoolMemberSet
  plane : DataPlane
  lease : CatalogDataLease

namespace LeasedSet

variable (state : LeasedSet)

def release : LeasedSet :=
  if state.lease.released then state
  else
    { state with
      plane := releaseClaims state.plane state.lease.claims
      lease := { state.lease with claims := [], released := true } }

/-- Nothing can be written any more, neither under the lease nor by a commit. -/
def freeze : LeasedSet :=
  { state with
    set := { state.set with controlWrite := none, dataAccess := .unavailable }
    lease := { state.lease with frozen := true } }

/-- An access to the storage of a claimed member. -/
def access (state : LeasedSet) (memberId : Id)
    (run : Member → DataPlane × Except DataError Unit) : LeasedSet × Except DataError Unit :=
  match state.set.access state.plane memberId run with
  | (set, plane, result) => ({ state with set := set, plane := plane }, result)

/-- The write of one replica. -/
def writeReplica (span : MappedSpan) (bytes : List UInt8)
    (outcome : Id → DataOutcome) (slot : Nat) : LeasedSet × Except DataError Unit :=
  match state.lease.claimForSlot slot with
  | .error e => (state, .error e)
  | .ok claim =>
    state.access claim.memberId fun member =>
      state.plane.writeDataClaimed member claim.claimId span.physicalOffset bytes
        (outcome claim.memberId)

def syncClaim (outcome : Id → SyncOutcome) (claim : ClaimedMember) :
    LeasedSet × Except DataError Unit :=
  state.access claim.memberId fun member =>
    state.plane.syncDataClaimed member claim.claimId (outcome claim.memberId)

/-- All steps are taken, and the first error is kept. -/
def attemptAll {α : Type} (step : LeasedSet → α → LeasedSet × Except DataError Unit) :
    LeasedSet → List α → LeasedSet × Except DataError Unit
  | state, [] => (state, .ok ())
  | state, a :: rest =>
    match step state a with
    | (state, .ok ()) => attemptAll step state rest
    | (state, .error e) => ((attemptAll step state rest).1, .error e)

/-- A failure freezes the lease and the set. -/
def freezeOnError : LeasedSet × Except DataError Unit → LeasedSet × Except DataError Unit
  | (state, .ok ()) => (state, .ok ())
  | (state, .error e) => (state.freeze, .error e)

def writeMapped (span : MappedSpan) (bytes : List UInt8)
    (outcome : Id → DataOutcome) : LeasedSet × Except DataError Unit :=
  freezeOnError (attemptAll (fun state slot => state.writeReplica span bytes outcome slot) state
    span.memberSlots)

def flush (outcome : Id → SyncOutcome) : LeasedSet × Except DataError Unit :=
  freezeOnError (attemptAll (fun state claim => state.syncClaim outcome claim) state
    state.lease.claims)

end LeasedSet

/-! ## Backends -/

structure CatalogVolumeBackend where
  generation : Nat
  authorityHistoryDigest : Digest
  rootDigest : Digest
  map : VolumeMap
  deriving DecidableEq, Repr

namespace CatalogVolumeBackend

def openReadable [Codec] (set : PoolMemberSet) (plane : DataPlane) (unreadable : Id → Bool)
    (volumeId : Id) : Except DataError CatalogVolumeBackend := do
  let bound ← loadBoundCatalog set plane unreadable
  let map ← withError .volume (VolumeMap.init bound.catalog volumeId)
  .ok ⟨bound.generation, bound.authorityHistoryDigest, bound.rootDigest, map⟩

def openWritable (lease : CatalogDataLease) (set : PoolMemberSet) (volumeId : Id) :
    Except DataError CatalogVolumeBackend := do
  lease.validate set
  let map ← withError .volume (VolumeMap.init lease.catalog volumeId)
  .ok ⟨lease.generation, lease.authorityHistoryDigest, lease.rootDigest, map⟩

variable (backend : CatalogVolumeBackend) {bytes : List UInt8}
  {replies : List (Except DataError (List UInt8))} {copies : List (List UInt8)}

def validateAuthority (set : PoolMemberSet) :
    Except DataError Unit := do
  rejectIf (set.authority.historyDigest ≠ backend.authorityHistoryDigest ∨
    set.authority.generation ≠ backend.generation ∨
    set.authority.dataRootDigest ≠ backend.rootDigest) .poolAuthorityChanged
  rejectIf (set.dataAccess = .unavailable) .dataReadUnavailable

def validateFor (lease : CatalogDataLease) (set : PoolMemberSet) :
    Except DataError Unit := do
  lease.validate set
  rejectIf (lease.generation ≠ backend.generation ∨
    lease.authorityHistoryDigest ≠ backend.authorityHistoryDigest ∨
    lease.rootDigest ≠ backend.rootDigest) .dataLeaseMismatch

/-- The first copy that a later one equals. -/
def agreeing : List (List UInt8) → Option (List UInt8)
  | [] => none
  | copy :: rest => if copy ∈ rest then some copy else agreeing rest

/-- The bytes of a span from the replies of its members. -/
def readReplicas (replies : List (Except DataError (List UInt8))) :
    Except DataError (List UInt8) :=
  match replies with
  | [reply] => reply
  | [_, _, _] =>
    orElseFail (agreeing (replies.filterMap value)) .replicaQuorumUnavailable
  | _ => .error .invalidExtentMemberCount

/-- The reply of the member with a slot. -/
def readSlot (set : PoolMemberSet) (plane : DataPlane) (unreadable : Id → Bool)
    (span : MappedSpan) (slot : Nat) : Except DataError (List UInt8) := do
  let supplied ← dataMemberForRead set slot
  plane.readData supplied.member (unreadable supplied.id) span.physicalOffset span.length

def readMapped (set : PoolMemberSet) (plane : DataPlane) (unreadable : Id → Bool)
    (span : MappedSpan) : Except DataError (List UInt8) :=
  readReplicas (span.memberSlots.map (readSlot set plane unreadable span))

def readSpan (set : PoolMemberSet) (plane : DataPlane) (unreadable : Id → Bool) :
    Span → Except DataError (List UInt8)
  | .zero length => .ok (zeros length)
  | .mapped span => readMapped set plane unreadable span

/-- The loop of a read; `unreadable` says which members do not answer for the span at an offset. -/
def readSpans (set : PoolMemberSet) (plane : DataPlane) (unreadable : Nat → Id → Bool) :
    List (Nat × Span) → Except DataError (List UInt8)
  | [] => .ok []
  | (position, span) :: rest => do
      let bytes ← readSpan set plane (unreadable position) span
      let others ← readSpans set plane unreadable rest
      .ok (bytes ++ others)

def read (set : PoolMemberSet) (plane : DataPlane)
    (offset length : Nat) (unreadable : Nat → Id → Bool) : Except DataError (List UInt8) := do
  rejectIf (offset + length > maxU64 ∨ offset + length > backend.map.logicalSize) .outOfBounds
  backend.validateAuthority set
  let spans ← withError .volume (backend.map.spans offset length)
  let bytes ← readSpans set plane unreadable spans
  backend.validateAuthority set
  .ok bytes

/-- The first loop of a write: all of it is mapped, to members that the lease has claimed. -/
def checkSpans (lease : CatalogDataLease) :
    List (Nat × Span) → Except DataError (List (Nat × MappedSpan))
  | [] => .ok []
  | (_, .zero _) :: _ => .error .extentNotMapped
  | (position, .mapped span) :: rest => do
      lease.validateClaims span.memberSlots
      let others ← checkSpans lease rest
      .ok ((position, span) :: others)

/-- The checks of a write, with the spans that it consists of. -/
def checkWrite (state : LeasedSet) (offset length : Nat) :
    Except DataError (List (Nat × MappedSpan)) := do
  rejectIf (offset + length > maxU64 ∨ offset + length > backend.map.logicalSize) .outOfBounds
  backend.validateFor state.lease state.set
  let spans ← withError .volume (backend.map.spans offset length)
  checkSpans state.lease spans

/-- The second loop of a write, which writes. -/
def writeSpans (state : LeasedSet) (outcome : Nat → Id → DataOutcome) :
    List (Nat × MappedSpan) → List UInt8 → LeasedSet × Except DataError Unit
  | [], _ => (state, .ok ())
  | (position, span) :: rest, bytes =>
    match state.writeMapped span (bytes.take span.length) (outcome position) with
    | (state, .error e) => (state, .error e)
    | (state, .ok ()) => writeSpans state outcome rest (bytes.drop span.length)

def write (state : LeasedSet) (offset : Nat) (bytes : List UInt8)
    (outcome : Nat → Id → DataOutcome) : LeasedSet × Except DataError Unit :=
  match backend.checkWrite state offset bytes.length with
  | .error e => (state, .error e)
  | .ok spans =>
    match writeSpans state outcome spans bytes with
    | (state, .error e) => (state, .error e)
    | (state, .ok ()) => (state, backend.validateFor state.lease state.set)

def flush (backend : CatalogVolumeBackend) (state : LeasedSet) (outcome : Id → SyncOutcome) :
    LeasedSet × Except DataError Unit :=
  match backend.validateFor state.lease state.set with
  | .error e => (state, .error e)
  | .ok () =>
    match state.flush outcome with
    | (state, .error e) => (state, .error e)
    | (state, .ok ()) => (state, backend.validateFor state.lease state.set)

/-! ## Replicas that agree -/

theorem two_le_count_of_agreeing (h : agreeing copies = some bytes) : 2 ≤ copies.count bytes := by
  induction copies with
  | nil => simp [agreeing] at h
  | cons copy rest ih =>
    unfold agreeing at h
    split at h
    · obtain rfl := Option.some.inj h
      have := count_pos_iff.mpr ‹copy ∈ rest›
      rw [count_cons_self]
      omega
    · exact (ih h).trans count_le_count_cons

/-- Among three copies there is at most one pair, so the first one that is found is the only one. -/
theorem agreeing_eq_some
    (hlength : copies.length ≤ 3) : agreeing copies = some bytes ↔ 2 ≤ copies.count bytes := by
  refine ⟨two_le_count_of_agreeing, fun h => ?_⟩
  induction copies with
  | nil => simp at h
  | cons copy rest ih =>
    rw [length_cons] at hlength
    unfold agreeing
    by_cases hcopy : copy = bytes
    · subst hcopy
      rw [count_cons_self] at h
      rw [if_pos (count_pos_iff.mp (by omega))]
    rw [count_cons_of_ne hcopy] at h
    have hall : rest.count bytes = rest.length := by
      have := count_le_length (a := bytes) (l := rest)
      omega
    rw [if_neg fun hmem => hcopy (count_eq_length.mp hall copy hmem).symm]
    exact ih (by omega) h

/-- Three replicas are read when two of them reply the same. -/
theorem readReplicas_eq_ok (hlength : replies.length = 3) :
    readReplicas replies = .ok bytes ↔ 2 ≤ replies.count (.ok bytes) := by
  have hcount : (replies.filterMap value).count bytes = replies.count (.ok bytes) := by
    rw [count_filterMap, count]
    congr 1
    funext reply
    cases reply <;> simp [value]
  have hvalues := length_filterMap_le value replies
  obtain ⟨first, second, third, rfl⟩ := length_eq_three.mp hlength
  simp only [readReplicas, orElseFail_eq_ok]
  rw [agreeing_eq_some (by omega), hcount]

theorem readReplicas_perm {others : List (Except DataError (List UInt8))}
    (hperm : replies.Perm others) (hlength : others.length = 3) :
    readReplicas replies = readReplicas others := by
  have hreplies := hperm.length_eq.trans hlength
  have hvalues := length_filterMap_le value replies
  have hothers := length_filterMap_le value others
  have hsame : agreeing (replies.filterMap value) = agreeing (others.filterMap value) := by
    ext bytes
    rw [agreeing_eq_some (by omega), agreeing_eq_some (by omega), (hperm.filterMap value).count_eq]
  obtain ⟨_, _, _, rfl⟩ := length_eq_three.mp hreplies
  obtain ⟨_, _, _, rfl⟩ := length_eq_three.mp hlength
  simp only [readReplicas, hsame]

variable (set : PoolMemberSet) (plane : DataPlane) (unreadable : Id → Bool)

/-- A member that can be read in a range can be read in every part of it. -/
theorem readSlot_part {span part : MappedSpan} {slot start : Nat}
    (hoffset : part.physicalOffset = span.physicalOffset + start)
    (hlength : start + part.length ≤ span.length)
    (h : readSlot set plane unreadable span slot = .ok bytes) :
    readSlot set plane unreadable part slot = .ok (slice bytes start part.length) := by
  simp only [readSlot, readData, position, ok_iff] at h ⊢
  obtain ⟨supplied, hsupplied, hin, hreadable, rfl⟩ := h
  refine ⟨supplied, hsupplied, by omega, hreadable, ?_⟩
  rw [hoffset, slice, slice, slice, drop_take, take_take, drop_drop, Nat.min_eq_left (by omega)]

/-- **Three replicas are read by majority**: exactly when two of them reply with the same bytes,
in any order of the replicas, and consistently on every part of the range. -/
theorem readMapped_consistent (a b c offset length : Nat) (bytes : List UInt8) :
    (readMapped set plane unreadable ⟨offset, length, [a, b, c]⟩ = .ok bytes ↔
      2 ≤ ([a, b, c].map (readSlot set plane unreadable ⟨offset, length, [a, b, c]⟩)).count
        (.ok bytes)) ∧
    (∀ slots : List Nat, slots.Perm [a, b, c] →
      readMapped set plane unreadable ⟨offset, length, slots⟩ =
        readMapped set plane unreadable ⟨offset, length, [a, b, c]⟩) ∧
    ∀ start count, start + count ≤ length →
      readMapped set plane unreadable ⟨offset, length, [a, b, c]⟩ = .ok bytes →
      readMapped set plane unreadable ⟨offset + start, count, [a, b, c]⟩ =
        .ok (Bytes.slice bytes start count) := by
  refine ⟨readReplicas_eq_ok rfl, fun slots hperm => readReplicas_perm (hperm.map _) rfl, ?_⟩
  intro start count hpart hread
  rw [readMapped, readReplicas_eq_ok rfl] at hread ⊢
  -- a replica that replied with the bytes replies with their part
  refine hread.trans ?_
  rw [List.count, List.countP_map, List.count, List.countP_map]
  refine List.countP_mono_left fun slot _ hslot => ?_
  simp only [Function.comp_apply, beq_iff_eq] at hslot ⊢
  exact readSlot_part set plane unreadable rfl hpart hslot

end CatalogVolumeBackend

end Zettide.PoolCatalogVolume
