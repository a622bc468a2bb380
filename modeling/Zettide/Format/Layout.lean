import Zettide.Format.Topology

/-! # Layouts

Translation of `pool_layout.zig` and of the data-access part of `pool_policy.zig`. -/

namespace Zettide

namespace PoolPolicy

def replicaCount : Nat := 3
def replicaDurableWriteCount : Nat := 2

/-- What user data of a pool allows. -/
inductive DataAccess where
  | readWrite | readOnly | unavailable
  deriving DecidableEq, Repr

/-- The number of shards of an erasure code. -/
def erasureWidth (dataShards parityShards : Nat) : Except Error Nat := do
  rejectIf (dataShards = 0 ∨ parityShards = 0) .invalidErasureCodeProfile
  rejectIf (dataShards + parityShards > maxU16) .invalidErasureCodeProfile
  .ok (dataShards + parityShards)

end PoolPolicy

namespace PoolLayout

open PoolPolicy

/-- Replica count and member limit of `pool_blob_schedule.zig`. -/
def scheduleReplicaCount : Nat := 3
def scheduleMaxMemberCount : Nat := 12

def isPowerOfTwo (n : Nat) : Prop := 0 < n ∧ n &&& (n - 1) = 0

instance (n : Nat) : Decidable (isPowerOfTwo n) := inferInstanceAs (Decidable (_ ∧ _))

variable (layout : Layout)

def validateScheduled (scheduled : ScheduledBlob) : Except Error Unit := do
  rejectIf (layout.kind ≠ .replicated ∨ layout.dataFragments ≠ scheduleReplicaCount ∨
      layout.parityFragments ≠ 0 ∨ layout.durableWriteThreshold ≠ scheduleReplicaCount ∨
      layout.readThreshold ≠ scheduleReplicaCount - 1) .invalidScheduledBlobProfile
  rejectIf (scheduled.memberCount < scheduleReplicaCount ∨
      scheduled.memberCount > scheduleMaxMemberCount) .invalidScheduledBlobMemberCount
  rejectIf (layout.chunkSize < 4096 ∨ scheduled.logicalCapacity < layout.chunkSize ∨
      scheduled.logicalCapacity % layout.chunkSize ≠ 0) .invalidScheduledBlobCapacity
  rejectIf (scheduled.placementDigest = 0) .invalidPlacementDigest

def validateProfile : Except Error Unit :=
  match layout.kind with
  | .unprotected =>
    rejectIf (layout.dataFragments ≠ 1 ∨ layout.parityFragments ≠ 0 ∨
      layout.durableWriteThreshold ≠ 1 ∨ layout.readThreshold ≠ 1)
      .invalidUnprotectedProfile
  | .replicated =>
    rejectIf (layout.dataFragments ≠ replicaCount ∨ layout.parityFragments ≠ 0 ∨
      layout.durableWriteThreshold ≠ replicaDurableWriteCount ∨ layout.readThreshold ≠ 1)
      .invalidReplicaProfile
  | .erasureCoded => do
      let width ← erasureWidth layout.dataFragments layout.parityFragments
      rejectIf (layout.durableWriteThreshold ≠ width ∨ layout.readThreshold ≠ layout.dataFragments)
        .invalidErasureCodeProfile

def validate : Except Error Unit := do
  rejectIf (layout.layoutEpoch = 0) .invalidLayoutEpoch
  rejectIf (layout.topologyEpoch = 0) .invalidTopologyEpoch
  rejectIf (layout.chunkSize = 0 ∨ ¬ isPowerOfTwo layout.chunkSize) .invalidChunkSize
  rejectIf (layout.flags ≠ 0) .invalidLayoutFlags
  match layout.scheduledBlob with
  | some scheduled => validateScheduled layout scheduled
  | none => validateProfile layout

/-- Decoding a framed layout. -/
def decode : Except Error Layout := do
  validate layout
  .ok layout

def digest [Blake3] (layout : Layout) : Except Error Digest := do
  validate layout
  .ok (blake3 (.layout layout))

/-- Members whose loss the layout survives for writing, and for reading. -/
def fullWidth : Except Error Nat :=
  match layout.kind with
  | .unprotected => .ok 1
  | .replicated => .ok replicaCount
  | .erasureCoded => erasureWidth layout.dataFragments layout.parityFragments

def readWidth : Except Error Nat :=
  match layout.kind with
  | .unprotected => .ok 1
  | .replicated => .ok 1
  | .erasureCoded => do
      let _ ← erasureWidth layout.dataFragments layout.parityFragments
      .ok layout.dataFragments

def dataAccessForMemberCount (availableCount : Nat) :
    Except Error DataAccess := do
  validate layout
  match layout.scheduledBlob with
  | some scheduled =>
    if availableCount = scheduled.memberCount then .ok .readWrite
    else if availableCount = scheduled.memberCount - 1 then .ok .readOnly
    else .ok .unavailable
  | none => do
      let full ← fullWidth layout
      if availableCount ≥ full then .ok .readWrite
      else do
        let threshold ← readWidth layout
        if availableCount ≥ threshold then .ok .readOnly else .ok .unavailable

def dataAccess (topology : Topology) : Except Error DataAccess := do
  validate layout
  PoolTopology.validate topology
  rejectIf (layout.topologyEpoch > topology.epoch) .futureTopologyEpoch
  dataAccessForMemberCount layout (PoolTopology.activeMemberCount topology.members)

end PoolLayout

end Zettide
