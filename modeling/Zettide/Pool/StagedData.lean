import Zettide.Pool.Staged

/-! # The initial data that a commit writes

The data part of `Staged`: when `stageDataInitializations` succeeds, every stretch that it was given
is on the medium of all members of its run. A stretch is written to a member chunk by chunk, which
is one write of the whole (`writeChunks_eq_ok`); different stretches never meet on a member, because
the catalog they belong to gives a physical extent to one logical extent only
(`initializations_apart`). -/

namespace Zettide.PoolMemberSet

open Bytes Function Option
open PoolCatalog PoolCatalogGraph PoolCatalogStore PoolCatalogVolume PoolMemberSet DataPlane List
open DataInitialization

variable {plane afterPlane : DataPlane} {set after : PoolMemberSet} {offset slot : Nat}
  {initialization : DataInitialization} {claims : List ClaimedMember} {current : ValidatedCatalog}
  {bytes : List UInt8} {run : ExtentRun} {claim : ClaimedMember}
  {outcome : DataInitialization → Id → Nat → DataOutcome}
  {initializations : List DataInitialization} {memberId : Id} {slots : List Nat} {extent : Nat}

theorem access_eq_ok {run : Member → DataPlane × Except DataError Unit}
    (h : set.access plane memberId run = (after, afterPlane, .ok ())) :
    after = set ∧ ∃ supplied, findSuppliedMember set.supplied memberId = some supplied ∧
      run supplied.member = (afterPlane, .ok ()) := by
  unfold access at h
  split at h
  · simp at h
  case h_2 supplied hfind =>
    simp only [Prod.mk.injEq] at h
    obtain ⟨rfl, hplane, hresult⟩ := h
    refine ⟨by rw [hresult]; rfl, supplied, hfind, ?_⟩
    rw [← hplane, ← hresult]

theorem writeDataClaimed_eq_ok {after : DataPlane} {member : Member} {claimId : Nat}
    {outcome : DataOutcome}
    (h : plane.writeDataClaimed member claimId offset bytes outcome = (after, .ok ())) :
    after = plane.putData member.header.memberId offset bytes ∧
      offset + bytes.length ≤ member.header.data.length := by
  unfold writeDataClaimed at h
  split at h
  · simp at h
  case h_2 hcheck =>
    split at h
    · rw [Prod.mk.injEq] at h
      simp only [checkWrite, position, ok_iff, not_or, not_lt] at hcheck
      exact ⟨h.1.symm, by omega⟩
    · simp at h

theorem putData_nil (plane : DataPlane) (memberId : Id) (offset : Nat) :
    plane.putData memberId offset [] = plane := by
  have hpatch : patch (plane.data memberId) offset [] = plane.data memberId := by
    simp [patch]
  simp only [putData, hpatch, update_eq_self]

theorem putData_append {first second : List UInt8}
    (h : offset + first.length + second.length ≤ (plane.data memberId).length) :
    (plane.putData memberId offset first).putData memberId (offset + first.length) second =
      plane.putData memberId offset (first ++ second) := by
  simp only [putData, update_self, update_idem, patch_append h]

theorem sized_putData (h : Sized set plane)
    (hinside : offset + bytes.length ≤ (plane.data memberId).length) :
    Sized set (plane.putData memberId offset bytes) :=
  fun other supplied hfind => (length_putData hinside other).trans (h other supplied hfind)

theorem writeChunks_eq_ok {outcome : Nat → DataOutcome}
    {fuel : Nat} : ∀ {done : Nat} {bytes : List UInt8} {set after : PoolMemberSet}
      {plane afterPlane : DataPlane}, Sized set plane →
      writeChunks claim offset outcome fuel done bytes set plane = (after, afterPlane, .ok ()) →
      after = set ∧ afterPlane = plane.putData claim.memberId (offset + done) bytes ∧
        (bytes ≠ [] → offset + done + bytes.length ≤ (plane.data claim.memberId).length) := by
  induction fuel with
  | zero =>
    intro done bytes set after plane afterPlane hsized h
    simp only [writeChunks, Prod.mk.injEq, rejectIf_eq_ok, not_not] at h
    obtain ⟨rfl, rfl, rfl⟩ := h
    exact ⟨rfl, (putData_nil _ _ _).symm, fun hne => absurd rfl hne⟩
  | succ fuel ih =>
    intro done bytes set after plane afterPlane hsized h
    unfold writeChunks at h
    split at h
    case isTrue hempty =>
      obtain ⟨rfl, rfl⟩ := h
      subst hempty
      exact ⟨rfl, (putData_nil _ _ _).symm, fun hne => absurd rfl hne⟩
    split at h
    case h_1 => simp at h
    rename_i between betweenPlane haccess
    obtain ⟨rfl, supplied, hfind, hwrite⟩ := access_eq_ok haccess
    obtain ⟨rfl, hle⟩ := writeDataClaimed_eq_ok hwrite
    have hid : supplied.member.header.memberId = claim.memberId :=
      findSuppliedMember_id hfind
    rw [← hsized _ _ hfind] at hle
    rw [hid] at h
    obtain ⟨rfl, rfl, hrest⟩ := ih (sized_putData hsized hle) h
    rw [length_putData hle] at hrest
    by_cases hlast : bytes.length ≤ stagingChunk
    · -- the last chunk
      have htake : bytes.take stagingChunk = bytes := take_of_length_le hlast
      rw [htake] at hle ⊢
      rw [drop_eq_nil_of_le hlast, putData_nil]
      exact ⟨rfl, rfl, fun _ => hle⟩
    · have htake : (bytes.take stagingChunk).length = stagingChunk := by
        rw [length_take]
        omega
      have hdrop : bytes.drop stagingChunk ≠ [] := by
        intro hnil
        have := drop_eq_nil_iff.mp hnil
        omega
      have hend := hrest hdrop
      rw [length_drop] at hend
      have hboth : offset + done + (bytes.take stagingChunk).length +
          (bytes.drop stagingChunk).length ≤ (plane.data claim.memberId).length := by
        rw [htake, length_drop]
        omega
      have happend := putData_append hboth
      rw [htake, take_append_drop] at happend
      refine ⟨rfl, ?_, fun _ => by omega⟩
      rw [← happend, Nat.add_assoc]

/-! ## One stretch -/

theorem stageReplica_eq_ok {outcome : Id → Nat → DataOutcome} (hsized : Sized set plane)
    (h : stageReplica claims offset bytes outcome set plane slot = (after, afterPlane, .ok ())) :
    after = set ∧ afterPlane = putReplicas set offset bytes plane [slot] ∧
      (bytes ≠ [] → Inside set plane offset bytes.length slot) := by
  unfold stageReplica at h
  split at h
  · simp at h
  case h_2 supplied hmember =>
    split at h
    · simp at h
    case h_2 claim hclaim =>
      have hid : claim.memberId = supplied.id := by simpa using find?_some hclaim
      obtain ⟨-, hmember, -⟩ := dataMemberForWrite_eq_ok.mp hmember
      obtain ⟨rfl, rfl, hinside⟩ := writeChunks_eq_ok hsized h
      rw [Nat.add_zero, hid] at hinside
      refine ⟨rfl, ?_, fun hne => ⟨supplied, hmember, hinside hne⟩⟩
      simp only [putReplicas, hmember, hid, Nat.add_zero]

theorem putReplicas_nil (set : PoolMemberSet) (offset : Nat) (slots : List Nat) :
    ∀ plane, putReplicas set offset [] plane slots = plane := by
  induction slots with
  | nil => exact fun _ => rfl
  | cons slot rest ih =>
    intro plane
    unfold putReplicas
    split
    · exact ih plane
    · rw [putData_nil]
      exact ih plane

theorem inside_putReplicas
    (hinside : ∀ slot ∈ slots, Inside set plane offset bytes.length slot) {at' length : Nat} :
    Inside set (putReplicas set offset bytes plane slots) at' length slot ↔
      Inside set plane at' length slot := by
  unfold Inside
  simp only [length_putReplicas hinside]

theorem stageReplicas_eq_ok {outcome : Id → Nat → DataOutcome} :
    ∀ {set after : PoolMemberSet} {plane afterPlane : DataPlane}, Sized set plane →
      untilError (stageReplica claims offset bytes outcome) set plane slots =
        (after, afterPlane, .ok ()) →
      after = set ∧ afterPlane = putReplicas set offset bytes plane slots ∧
        (bytes ≠ [] → ∀ slot ∈ slots, Inside set plane offset bytes.length slot) := by
  induction slots with
  | nil =>
    intro set after plane afterPlane _ h
    cases h
    exact ⟨rfl, rfl, fun _ => by simp⟩
  | cons slot rest ih =>
    intro set after plane afterPlane hsized h
    unfold untilError at h
    split at h
    case h_1 => simp at h
    rename_i between betweenPlane hstep
    obtain ⟨rfl, rfl, hinside⟩ := stageReplica_eq_ok hsized hstep
    have hcons : putReplicas between offset bytes plane (slot :: rest) =
        putReplicas between offset bytes (putReplicas between offset bytes plane [slot]) rest := by
      simp only [putReplicas]
      split <;> rfl
    rw [hcons]
    by_cases hempty : bytes = []
    · subst hempty
      rw [putReplicas_nil] at h
      obtain ⟨rfl, rfl, -⟩ := ih hsized h
      refine ⟨rfl, ?_, fun hne => absurd rfl hne⟩
      rw [putReplicas_nil _ _ [slot]]
    · have hfirst : ∀ other ∈ [slot], Inside between plane offset bytes.length other := by
        simpa using hinside hempty
      have hnext : Sized between (putReplicas between offset bytes plane [slot]) :=
        fun other supplied hfind =>
          (length_putReplicas hfirst other).trans (hsized other supplied hfind)
      obtain ⟨rfl, rfl, hrest⟩ := ih hnext h
      refine ⟨rfl, rfl, fun hne other hmem => ?_⟩
      rcases mem_cons.mp hmem with rfl | hmem
      · exact hinside hne
      · exact (inside_putReplicas hfirst).mp (hrest hne other hmem)

/-- Where the data of a stretch lie: the run, and the offset in the data regions. -/
structure Target (current : ValidatedCatalog) (initialization : DataInitialization)
    (run : ExtentRun) (offset : Nat) : Prop where
  found : findInitializationRun current initialization = some run
  place : offset =
    (run.physicalStart + (initialization.logicalStart - run.logicalStart)) * current.root.extentSize

theorem initializationOffset_eq_ok {extentSize : Nat}
    (h : initializationOffset extentSize run initialization = .ok offset) :
    offset =
      (run.physicalStart + (initialization.logicalStart - run.logicalStart)) * extentSize := by
  simp only [initializationOffset, addU64, mulU64, ok_iff] at h
  obtain ⟨_, ⟨-, rfl⟩, _, ⟨-, rfl⟩, _, -, rfl⟩ := h
  rfl

/-- A stretch is written to all members of its run. -/
theorem stageDataInitialization_eq_ok (hsized : Sized set plane)
    (h : stageDataInitialization claims current outcome set plane initialization =
      (after, afterPlane, .ok ())) :
    ∃ run offset, Target current initialization run offset ∧ after = set ∧
      afterPlane = putReplicas set offset (initialization.image current.root.extentSize) plane
        run.memberSlots ∧
      (initialization.image current.root.extentSize ≠ [] → ∀ slot ∈ run.memberSlots,
        Inside set plane offset (initialization.image current.root.extentSize).length slot) := by
  unfold stageDataInitialization at h
  split at h
  · simp at h
  case h_2 run hrun =>
    split at h
    · simp at h
    case h_2 offset hoffset =>
      obtain ⟨rfl, rfl, hinside⟩ := stageReplicas_eq_ok hsized h
      exact ⟨run, offset, ⟨hrun, initializationOffset_eq_ok hoffset⟩, rfl, rfl, hinside⟩

/-! ## All stretches -/

/-- The stretch has data at the cell of the slot. -/
def Hits (current : ValidatedCatalog) (initialization : DataInitialization) (slot cell : Nat) :
    Prop :=
  ∃ run offset, Target current initialization run offset ∧ slot ∈ run.memberSlots ∧ offset ≤ cell ∧
    cell < offset + (initialization.image current.root.extentSize).length

/-- The cells of a set hold the data of a stretch. -/
def Written (set : PoolMemberSet) (plane : DataPlane) (current : ValidatedCatalog)
    (initialization : DataInitialization) : Prop :=
  ∃ run offset, Target current initialization run offset ∧
    (initialization.image current.root.extentSize ≠ [] → ∀ slot ∈ run.memberSlots,
      Inside set plane offset (initialization.image current.root.extentSize).length slot ∧
      ∀ index, index < (initialization.image current.root.extentSize).length →
        cells set plane slot (offset + index) =
          ((initialization.image current.root.extentSize)[index]?).getD 0)

theorem cells_stageDataInitialization (hsized : Sized set plane)
    (h : stageDataInitialization claims current outcome set plane initialization =
      (after, afterPlane, .ok ())) :
    after = set ∧ afterPlane = { plane with data := afterPlane.data } ∧
      (∀ memberId, (afterPlane.data memberId).length = (plane.data memberId).length) ∧
      Written set afterPlane current initialization ∧
      ∀ slot cell, ¬ Hits current initialization slot cell →
        cells set afterPlane slot cell = cells set plane slot cell := by
  obtain ⟨run, offset, htarget, rfl, rfl, hinside⟩ := stageDataInitialization_eq_ok hsized h
  refine ⟨rfl, putReplicas_eq, ?_⟩
  by_cases hempty : initialization.image current.root.extentSize = []
  · rw [hempty]
    simp only [putReplicas_nil]
    exact ⟨fun _ => trivial, ⟨run, offset, htarget, fun hne => absurd hempty hne⟩,
      fun _ _ _ => trivial⟩
  · have hinside := hinside hempty
    refine ⟨length_putReplicas hinside, ⟨run, offset, htarget, fun _ slot hslot => ⟨?_, ?_⟩⟩, ?_⟩
    · exact (inside_putReplicas hinside).mpr (hinside slot hslot)
    · intro index hindex
      rw [cells_putReplicas hinside, if_pos ⟨hslot, by omega, by omega⟩, Nat.add_sub_cancel_left]
    · intro slot cell hmiss
      rw [cells_putReplicas hinside, if_neg]
      exact fun hhit => hmiss ⟨run, offset, htarget, hhit⟩

/-- A stretch stays written while others are written elsewhere. -/
theorem Written.keep {before after : DataPlane} (h : Written set before current initialization)
    (hlength : ∀ memberId, (after.data memberId).length = (before.data memberId).length)
    (hsame : ∀ slot cell, Hits current initialization slot cell →
      cells set after slot cell = cells set before slot cell) :
    Written set after current initialization := by
  obtain ⟨run, offset, htarget, hwritten⟩ := h
  refine ⟨run, offset, htarget, fun hne slot hslot => ?_⟩
  obtain ⟨⟨supplied, hmember, hle⟩, hcells⟩ := hwritten hne slot hslot
  refine ⟨⟨supplied, hmember, by rw [hlength]; exact hle⟩, fun index hindex => ?_⟩
  rw [hsame slot (offset + index) ⟨run, offset, htarget, hslot, by omega, by omega⟩]
  exact hcells index hindex

/-- All stretches are written, if no two of them meet. -/
theorem stageInitializations_written :
    ∀ {set after : PoolMemberSet} {plane afterPlane : DataPlane}, Sized set plane →
      (initializations.Pairwise fun a b => ∀ slot cell, ¬ (Hits current a slot cell ∧
        Hits current b slot cell)) →
      untilError (stageDataInitialization claims current outcome) set plane initializations =
        (after, afterPlane, .ok ()) →
      after = set ∧ afterPlane = { plane with data := afterPlane.data } ∧
        (∀ memberId, (afterPlane.data memberId).length = (plane.data memberId).length) ∧
        (∀ initialization ∈ initializations, Written set afterPlane current initialization) ∧
        ∀ slot cell, (∀ initialization ∈ initializations, ¬ Hits current initialization slot cell) →
          cells set afterPlane slot cell = cells set plane slot cell := by
  induction initializations with
  | nil =>
    intro set after plane afterPlane _ _ h
    cases h
    exact ⟨rfl, rfl, fun _ => rfl, by simp, fun _ _ _ => rfl⟩
  | cons first rest ih =>
    intro set after plane afterPlane hsized hapart h
    obtain ⟨hfirst, hapart⟩ := pairwise_cons.mp hapart
    unfold untilError at h
    split at h
    case h_1 => simp at h
    rename_i between betweenPlane hstep
    obtain ⟨rfl, hplane, hlength, hwritten, hmiss⟩ := cells_stageDataInitialization hsized hstep
    have hnext : Sized between betweenPlane :=
      fun other supplied hfind => (hlength other).trans (hsized other supplied hfind)
    obtain ⟨rfl, hafter, hlengths, hrest, hmisses⟩ := ih hnext hapart h
    refine ⟨rfl, ?_, fun memberId => (hlengths memberId).trans (hlength memberId), ?_, ?_⟩
    · rw [hafter, hplane]
    · refine forall_mem_cons.mpr ⟨hwritten.keep hlengths fun slot cell hhit => ?_, hrest⟩
      exact hmisses slot cell fun other hmem hother =>
        hfirst other hmem slot cell ⟨hhit, hother⟩
    · intro slot cell hnone
      rw [hmisses slot cell fun other hmem => hnone other (mem_cons_of_mem _ hmem),
        hmiss slot cell (hnone first mem_cons_self)]

/-! ## Stretches of an accepted catalog -/

theorem findInitializationRun_within (h : findInitializationRun current initialization = some run) :
    (initialization.volumeId, run) ∈ current.runs ∧
      initialization.Within (initialization.volumeId, run) := by
  unfold findInitializationRun at h
  split_ifs at h with hoverflow
  obtain ⟨⟨descriptor, runs⟩, hvolume, hrun⟩ := bind_eq_some_iff.mp h
  have hid : descriptor.volumeId = initialization.volumeId := by
    simpa using find?_some hvolume
  have hfound := find?_some hrun
  rw [decide_eq_true_eq] at hfound
  obtain ⟨hmapped, hstart, hend⟩ := hfound
  refine ⟨mem_runs.mpr ⟨descriptor, runs, mem_of_find?_eq_some hvolume, hid,
    mem_of_find?_eq_some hrun⟩, rfl, hmapped, hstart, hend⟩

section

variable [Codec] {binding : AuthorityBinding} {graph : Graph} {members : List MemberGeometry}
  {protectedPages : List PageReference} {current : ValidatedCatalog}

variable (h : PoolCatalogGraph.Accepted binding graph members protectedPages current)
include h

theorem run_of_extent {volumeId : Id} {other : ExtentRun} (hrun : (volumeId, run) ∈ current.runs)
    (hother : (volumeId, other) ∈ current.runs)
    (hextent : rangeContains run.logicalStart run.extentCount extent)
    (hotherExtent : rangeContains other.logicalStart other.extentCount extent) : run = other := by
  by_contra hne
  have : Std.Symm fun a b : Id × ExtentRun =>
      a.1 = b.1 → a.2.Before b.2 ∨ b.2.Before a.2 :=
    ⟨fun a b hab hvolume => (hab hvolume.symm).symm⟩
  have hordered : current.runs.Pairwise fun a b =>
      a.1 = b.1 → a.2.Before b.2 ∨ b.2.Before a.2 :=
    h.runsOrdered.imp fun hbefore hvolume => .inl (hbefore hvolume)
  obtain ⟨hstart, hend⟩ := hextent
  obtain ⟨hotherStart, hotherEnd⟩ := hotherExtent
  have hpair := hordered.forall hrun hother (fun heq => hne (Prod.mk.inj heq).2) rfl
  unfold ExtentRun.Before at hpair
  dsimp only at hpair
  omega

theorem extent_of_hit (hfill : initialization.contents.Fill
      (initialization.extentCount * current.root.extentSize))
    {cell : Nat} (htarget : Target current initialization run offset)
    (hfrom : offset ≤ cell)
    (hto : cell < offset + (initialization.image current.root.extentSize).length) :
    ∃ index < initialization.extentCount, cell / current.root.extentSize =
      run.physicalStart + (initialization.logicalStart - run.logicalStart) + index := by
  rw [length_image hfill, htarget.place, ← Nat.add_mul] at hto
  rw [htarget.place] at hfrom
  have hpos := h.extentSize_pos
  have hlow := (Nat.le_div_iff_mul_le hpos).mpr hfrom
  have hhigh := (Nat.div_lt_iff_lt_mul hpos).mpr hto
  exact ⟨cell / current.root.extentSize -
    (run.physicalStart + (initialization.logicalStart - run.logicalStart)), by omega, by omega⟩

/-- Stretches that do not meet in the volumes do not meet in the data regions. -/
theorem initializations_apart {a b : DataInitialization} (hbefore : a.Before b)
    (ha : a.contents.Fill (a.extentCount * current.root.extentSize))
    (hb : b.contents.Fill (b.extentCount * current.root.extentSize)) (slot cell : Nat) :
    ¬ (Hits current a slot cell ∧ Hits current b slot cell) := by
  rintro ⟨⟨runA, offsetA, htargetA, hslotA, hfromA, htoA⟩,
    runB, offsetB, htargetB, hslotB, hfromB, htoB⟩
  obtain ⟨indexA, hindexA, hextentA⟩ := extent_of_hit h ha htargetA hfromA htoA
  obtain ⟨indexB, hindexB, hextentB⟩ := extent_of_hit h hb htargetB hfromB htoB
  obtain ⟨hmemA, hwithinA⟩ := findInitializationRun_within htargetA.found
  obtain ⟨hmemB, hwithinB⟩ := findInitializationRun_within htargetB.found
  have hstartA := hwithinA.starts
  have hendA := hwithinA.ends
  have hstartB := hwithinB.starts
  have hendB := hwithinB.ends
  unfold logicalEnd at hendA hendB
  dsimp only at hstartA hendA hstartB hendB
  -- both runs cover the physical extent of the cell, so they are one
  have hcoversA : (Holding.ofRun runA).Covers slot (cell / current.root.extentSize) := by
    refine ⟨hslotA, ?_, ?_⟩ <;> simp only [Holding.ofRun] <;> omega
  have hcoversB : (Holding.ofRun runB).Covers slot (cell / current.root.extentSize) := by
    refine ⟨hslotB, ?_, ?_⟩ <;> simp only [Holding.ofRun] <;> omega
  have hsame := h.run_unique hmemA hmemB hcoversA hcoversB
  rw [Prod.mk.injEq] at hsame
  obtain ⟨hvolume, rfl⟩ := hsame
  have hends := hbefore hvolume
  unfold logicalEnd at hends
  omega

end

/-! ## Syncs -/

theorem syncClaim_eq_ok {outcome : Id → SyncOutcome}
    (h : syncClaim outcome set plane claim = (after, afterPlane, .ok ())) :
    after = set ∧ afterPlane =
      { plane with durable := update plane.durable claim.memberId
                                (plane.data claim.memberId) } := by
  obtain ⟨rfl, supplied, hfind, hsync⟩ := access_eq_ok h
  have hid : supplied.member.header.memberId = claim.memberId := findSuppliedMember_id hfind
  refine ⟨rfl, ?_⟩
  unfold syncDataClaimed at hsync
  split at hsync
  · simp at hsync
  split at hsync
  · rw [Prod.mk.injEq, hid] at hsync
    exact hsync.1.symm
  · simp at hsync

theorem syncClaims_eq_ok {outcome : Id → SyncOutcome} :
    ∀ {set after : PoolMemberSet} {plane afterPlane : DataPlane},
      untilError (syncClaim outcome) set plane claims = (after, afterPlane, .ok ()) →
      after = set ∧ afterPlane = { plane with durable := afterPlane.durable } ∧
        (∀ claim ∈ claims, afterPlane.durable claim.memberId = plane.data claim.memberId) ∧
        ∀ memberId, (∀ claim ∈ claims, claim.memberId ≠ memberId) →
          afterPlane.durable memberId = plane.durable memberId := by
  induction claims with
  | nil =>
    intro set after plane afterPlane h
    cases h
    exact ⟨rfl, rfl, by simp, fun _ _ => rfl⟩
  | cons first rest ih =>
    intro set after plane afterPlane h
    unfold untilError at h
    split at h
    case h_1 => simp at h
    rename_i between betweenPlane hstep
    obtain ⟨rfl, rfl⟩ := syncClaim_eq_ok hstep
    obtain ⟨rfl, hplane, hsynced, hother⟩ := ih h
    refine ⟨rfl, by rw [hplane], fun claim hmem => ?_, fun memberId hnone => ?_⟩
    · by_cases hlater : ∃ other ∈ rest, other.memberId = claim.memberId
      · obtain ⟨other, hmem, hid⟩ := hlater
        rw [← hid]
        exact hsynced other hmem
      · rcases mem_cons.mp hmem with rfl | hmem
        · rw [hother _ fun other hmem hid => hlater ⟨other, hmem, hid⟩]
          exact update_self ..
        · exact absurd ⟨claim, hmem, rfl⟩ hlater
    · rw [hother memberId fun other hmem => hnone other (mem_cons_of_mem _ hmem)]
      exact update_of_ne (hnone first mem_cons_self).symm ..

theorem mem_writtenClaims (hmem : initialization ∈ initializations)
    (hrun : findInitializationRun current initialization = some run)
    (hslot : slot ∈ run.memberSlots) {supplied : Supplied}
    (hmember : dataMember set slot = .ok supplied)
    (hclaim : claim ∈ claims) (hclaimSlot : claim.slot = slot)
    (hid : claim.memberId = supplied.id) :
    ∃ synced ∈ writtenClaims set claims current initializations, synced.memberId = supplied.id := by
  have hslots : slot ∈ initializations.flatMap fun initialization =>
      (findInitializationRun current initialization).elim [] ExtentRun.memberSlots := by
    refine mem_flatMap.mpr ⟨initialization, hmem, ?_⟩
    rw [hrun]
    exact hslot
  have hexists : (claims.find? fun claim => claim.memberId = supplied.id ∧
      claim.slot ∈ initializations.flatMap fun initialization =>
        (findInitializationRun current initialization).elim [] ExtentRun.memberSlots).isSome := by
    rw [find?_isSome]
    exact ⟨claim, hclaim, by rw [decide_eq_true_eq]; exact ⟨hid, hclaimSlot ▸ hslots⟩⟩
  obtain ⟨synced, hsynced⟩ := isSome_iff_exists.mp hexists
  have hfound := find?_some hsynced
  rw [decide_eq_true_eq] at hfound
  exact ⟨synced, mem_filterMap.mpr
    ⟨supplied, mem_of_find?_eq_some (dataMember_find hmember), hsynced⟩, hfound.1⟩

/-- An extent of a volume has the contents on the medium of every member of its run. -/
def Durable (set : PoolMemberSet) (plane : DataPlane) (extentSize : Nat) (run : ExtentRun)
    (extent : Nat) (contents : List UInt8) : Prop :=
  ∀ slot ∈ run.memberSlots, ∃ supplied, dataMember set slot = .ok supplied ∧
    slice (plane.durable supplied.id)
      ((run.physicalStart + (extent - run.logicalStart)) * extentSize) extentSize = contents

/-- The contents that an initialization gives to an extent. -/
def initialContents (initialization : DataInitialization) (extentSize extent : Nat) : List UInt8 :=
  slice (initialization.image extentSize)
    ((extent - initialization.logicalStart) * extentSize) extentSize

variable [Codec] {binding : AuthorityBinding} {graph : Graph} {members : List MemberGeometry}
  {protectedPages : List PageReference} {current : ValidatedCatalog}

/-- The cells of an extent are the bytes of the data region. -/
theorem slice_of_written
    (h : PoolCatalogGraph.Accepted binding graph members protectedPages current)
    (hfill : initialization.contents.Fill (initialization.extentCount * current.root.extentSize))
    {entry : Id × ExtentRun} (hentry : entry ∈ current.runs) (hwithin : initialization.Within entry)
    (hextent : rangeContains initialization.logicalStart initialization.extentCount extent)
    (hwritten : Written set plane current initialization) (hslot : slot ∈ entry.2.memberSlots) :
    findInitializationRun current initialization = some entry.2 ∧
      ∃ supplied, dataMember set slot = .ok supplied ∧ slice (plane.data supplied.id)
          ((entry.2.physicalStart + (extent - entry.2.logicalStart)) * current.root.extentSize)
          current.root.extentSize =
        initialContents initialization current.root.extentSize extent := by
  obtain ⟨run, offset, htarget, hcells⟩ := hwritten
  obtain ⟨hrun, hrunWithin⟩ := findInitializationRun_within htarget.found
  obtain ⟨hfrom, hto⟩ := hextent
  have hends := hwithin.ends
  have hstarts := hwithin.starts
  have hrunEnds := hrunWithin.ends
  have hrunStarts := hrunWithin.starts
  unfold logicalEnd at hends hrunEnds
  dsimp only at hrunEnds hrunStarts
  obtain rfl : run = entry.2 := by
    have hentry' : (initialization.volumeId, entry.2) ∈ current.runs := by
      rw [hwithin.volume]
      exact hentry
    have hin : rangeContains run.logicalStart run.extentCount extent := ⟨by omega, by omega⟩
    exact run_of_extent h hrun hentry' hin ⟨by omega, by omega⟩
  refine ⟨htarget.found, ?_⟩
  have hpos := h.extentSize_pos
  have hlength := length_image hfill
  -- the extent in the stretch, in bytes
  have hend : (extent - initialization.logicalStart) * current.root.extentSize +
      current.root.extentSize ≤ (initialization.image current.root.extentSize).length := by
    have hcount : extent - initialization.logicalStart + 1 ≤ initialization.extentCount := by omega
    have hmul := Nat.mul_le_mul_right current.root.extentSize hcount
    rw [Nat.add_mul, Nat.one_mul] at hmul
    omega
  have hplace : (entry.2.physicalStart + (extent - entry.2.logicalStart)) *
      current.root.extentSize =
        offset + (extent - initialization.logicalStart) * current.root.extentSize := by
    rw [htarget.place, ← Nat.add_mul]
    congr 1
    omega
  have hne : initialization.image current.root.extentSize ≠ [] := by
    intro hnil
    rw [hnil, length_nil] at hend
    omega
  obtain ⟨⟨supplied, hmember, hinside⟩, hbytes⟩ := hcells hne slot hslot
  refine ⟨supplied, hmember, ?_⟩
  unfold initialContents
  apply ext_getElem?
  intro index
  rw [getElem?_slice, getElem?_slice]
  by_cases hindex : index < current.root.extentSize
  · rw [if_pos hindex, if_pos hindex, hplace, Nat.add_assoc]
    have hbyte := hbytes ((extent - initialization.logicalStart) * current.root.extentSize + index)
      (by omega)
    simp only [cells, hmember] at hbyte
    have hdata : offset + ((extent - initialization.logicalStart) * current.root.extentSize +
        index) < (plane.data supplied.id).length := by omega
    have himage : (extent - initialization.logicalStart) * current.root.extentSize + index <
        (initialization.image current.root.extentSize).length := by omega
    rw [getElem?_eq_getElem hdata, getElem?_eq_getElem himage] at hbyte ⊢
    simpa using hbyte
  · rw [if_neg hindex, if_neg hindex]

/-- When the initial data are staged, every extent of a stretch has its contents on the medium of
every member of its run. Only data change. -/
theorem stageDataInitializations_eq_ok
    {faults : PublicationFaults} {previous : Option ValidatedCatalog}
    (haccepted : PoolCatalogGraph.Accepted binding graph members protectedPages current)
    (hinitialized : Initialized previous current.root.extentSize current.runs initializations)
    (hsized : Sized set plane)
    (hclaims : ∀ entry ∈ current.runs, ∀ slot ∈ entry.2.memberSlots, ∀ supplied,
      dataMember set slot = .ok supplied →
        ∃ claim ∈ claims, claim.slot = slot ∧ claim.memberId = supplied.id)
    (h : stageDataInitializations set plane claims current initializations faults =
      (after, afterPlane, .ok ())) :
    after = set ∧ afterPlane.metadata = plane.metadata ∧ afterPlane.claims = plane.claims ∧
      ∀ initialization ∈ initializations, ∀ entry ∈ current.runs, initialization.Within entry →
        ∀ extent, rangeContains initialization.logicalStart initialization.extentCount extent →
          Durable set afterPlane current.root.extentSize entry.2 extent
            (initialContents initialization current.root.extentSize extent) := by
  unfold stageDataInitializations at h
  split at h
  case h_1 => simp at h
  rename_i between betweenPlane hwrites
  have hapart : initializations.Pairwise fun a b => ∀ slot cell,
      ¬ (Hits current a slot cell ∧ Hits current b slot cell) :=
    hinitialized.distinct.imp_of_mem fun ha hb hbefore =>
      initializations_apart haccepted hbefore (hinitialized.fills _ ha) (hinitialized.fills _ hb)
  obtain ⟨rfl, hplane, -, hwritten, -⟩ := stageInitializations_written hsized hapart hwrites
  obtain ⟨rfl, hsynced, hdurable, -⟩ := syncClaims_eq_ok h
  refine ⟨rfl, by rw [hsynced, hplane], by rw [hsynced, hplane], ?_⟩
  intro initialization hmem entry hentry hwithin extent hextent slot hslot
  obtain ⟨hrun, supplied, hmember, hslice⟩ := slice_of_written haccepted
    (hinitialized.fills initialization hmem) hentry hwithin hextent
    (hwritten initialization hmem) hslot
  obtain ⟨claim, hclaim, hclaimSlot, hid⟩ := hclaims entry hentry slot hslot supplied hmember
  obtain ⟨synced, hin, hsyncedId⟩ :=
    mem_writtenClaims hmem hrun hslot hmember hclaim hclaimSlot hid
  refine ⟨supplied, hmember, ?_⟩
  rw [← hsyncedId, hdurable synced hin, hsyncedId]
  exact hslice

end Zettide.PoolMemberSet
