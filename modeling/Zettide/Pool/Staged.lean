import Zettide.Journal.Publication
import Zettide.Pool.CatalogCommit
import Zettide.Pool.Volumes

/-! # What a commit stages

What a commit of a catalog generation has done when it comes to the journals: every voter holds the
pages of the new catalog and a copy of its root (`StoresCatalog`), and the initial data of the new
mappings are on the medium of all their replicas. Until then the journals are untouched. -/

namespace Zettide

open List Supplied Function
open PoolCatalog PoolCatalogGraph PoolCatalogStore PoolCatalogVolume PoolMemberSet DataPlane Member

/-! ## What the staging leaves alone -/

/-- The parts of a member that staging does not change. -/
structure MemberFrame where
  id : Id
  slot : Nat
  data : Region
  journal : List Slot
  seat : Option Seat

/-- Its identity, its data region, its journal, and its place in the coordinator. -/
def Supplied.frame (supplied : Supplied) : MemberFrame where
  id := supplied.id
  slot := supplied.member.header.memberSlot
  data := supplied.member.header.data
  journal := supplied.member.storage.slots
  seat := supplied.seat

namespace PoolMemberSet

/-- The sets have the same authority, and their members differ in nothing but headers and
status. -/
structure SameFrame (before after : PoolMemberSet) : Prop where
  authority : after.authority = before.authority
  members : after.supplied.map frame = before.supplied.map frame

variable (set : PoolMemberSet)

/-- The journals of the members. -/
def journals : List (Id × List Slot) :=
  set.supplied.map fun supplied => (supplied.id, supplied.member.storage.slots)

namespace SameFrame

variable {before between after : PoolMemberSet}

theorem refl (set : PoolMemberSet) : SameFrame set set := ⟨rfl, rfl⟩

theorem trans (h : SameFrame before between) (h' : SameFrame between after) :
    SameFrame before after :=
  ⟨h'.authority.trans h.authority, h'.members.trans h.members⟩

theorem of_update {set : PoolMemberSet} {memberId : Id} {f : Supplied → Supplied}
    (h : ∀ supplied, (f supplied).frame = supplied.frame) :
    SameFrame set { set with supplied := updateMember set.supplied memberId f } := by
  refine ⟨rfl, ?_⟩
  simp only [updateMember, map_map]
  refine map_congr_left fun supplied _ => ?_
  by_cases hid : supplied.id = memberId
  · simp only [comp_apply, if_pos hid, h]
  · simp only [comp_apply, if_neg hid]

section

variable (h : SameFrame before after)
include h

theorem journals : after.journals = before.journals := by
  have hmap := congrArg (map fun frame : MemberFrame => (frame.id, frame.journal)) h.members
  simpa [PoolMemberSet.journals, frame, comp_def] using hmap

theorem find (memberId : Id) : (findSuppliedMember after.supplied memberId).map frame =
      (findSuppliedMember before.supplied memberId).map frame := by
  have hfind : ∀ supplied : List Supplied, (findSuppliedMember supplied memberId).map frame =
        (supplied.map frame).find? fun frame => frame.id = memberId := by
    intro supplied
    rw [findSuppliedMember, find?_map]
    rfl
  rw [hfind, hfind, h.members]

theorem sized {plane : DataPlane} (hsized : Sized before plane) : Sized after plane := by
  intro memberId supplied hfound
  have hframes := h.find memberId
  rw [hfound] at hframes
  obtain ⟨old, hold, hframe⟩ := Option.map_eq_some_iff.mp hframes.symm
  have hdata : old.member.header.data = supplied.member.header.data :=
    congrArg MemberFrame.data hframe
  rw [hsized memberId old hold, hdata]

end

end SameFrame

theorem afterStorage_frame (memberId : Id)
    (result : Except DataError Unit) : SameFrame set (set.afterStorage memberId result) := by
  unfold afterStorage
  split
  · exact .of_update fun _ => rfl
  · exact .refl set

theorem access_frame (plane : DataPlane) (memberId : Id)
    (run : Member → DataPlane × Except DataError Unit) :
    SameFrame set (set.access plane memberId run).1 := by
  unfold access
  split
  · exact .refl set
  · exact afterStorage_frame _ _ _

theorem untilError_frame {α : Type}
    {step : PoolMemberSet → DataPlane → α → PoolMemberSet × DataPlane × Except DataError Unit}
    (h : ∀ set plane a, SameFrame set (step set plane a).1) (list : List α) :
    ∀ set plane, SameFrame set (untilError step set plane list).1 := by
  induction list with
  | nil => exact fun set _ => .refl set
  | cons a rest ih =>
    intro set plane
    have hstep := h set plane a
    unfold untilError
    split
    case h_1 next nextPlane e heq =>
      rw [heq] at hstep
      exact hstep
    case h_2 next nextPlane heq =>
      rw [heq] at hstep
      exact hstep.trans (ih next nextPlane)

theorem writeChunks_frame (claim : ClaimedMember) (offset : Nat) (outcome : Nat → DataOutcome)
    (fuel : Nat) : ∀ done bytes set plane,
      SameFrame set (writeChunks claim offset outcome fuel done bytes set plane).1 := by
  induction fuel with
  | zero => exact fun _ _ set _ => .refl set
  | succ fuel ih =>
    intro done bytes set plane
    unfold writeChunks
    split
    · exact .refl set
    have hstep := access_frame set plane claim.memberId fun member =>
      plane.writeDataClaimed member claim.claimId (offset + done) (bytes.take stagingChunk)
        (outcome done)
    split
    case h_1 next nextPlane e heq =>
      rw [heq] at hstep
      exact hstep
    case h_2 next nextPlane heq =>
      rw [heq] at hstep
      exact hstep.trans (ih _ _ next nextPlane)

theorem stageReplica_frame (claims : List ClaimedMember) (offset : Nat) (bytes : List UInt8)
    (outcome : Id → Nat → DataOutcome) (set : PoolMemberSet) (plane : DataPlane) (slot : Nat) :
    SameFrame set (stageReplica claims offset bytes outcome set plane slot).1 := by
  unfold stageReplica
  split
  · exact .refl set
  · split
    · exact .refl set
    · exact writeChunks_frame _ _ _ _ _ _ _ _

theorem stageDataInitialization_frame (claims : List ClaimedMember) (current : ValidatedCatalog)
    (outcome : DataInitialization → Id → Nat → DataOutcome) (set : PoolMemberSet)
    (plane : DataPlane) (initialization : DataInitialization) :
    SameFrame set (stageDataInitialization claims current outcome set plane initialization).1 := by
  unfold stageDataInitialization
  split
  · exact .refl set
  · split
    · exact .refl set
    · exact untilError_frame (stageReplica_frame _ _ _ _) _ _ _

theorem stageDataInitializations_frame (plane : DataPlane)
    (claims : List ClaimedMember) (current : ValidatedCatalog)
    (initializations : List DataInitialization) (faults : PublicationFaults) :
    SameFrame set (stageDataInitializations set plane claims current initializations faults).1 := by
  have hwrites := untilError_frame (stageDataInitialization_frame claims current faults.write)
    initializations set plane
  unfold stageDataInitializations
  split
  case h_1 next nextPlane e heq =>
    rw [heq] at hwrites
    exact hwrites
  case h_2 next nextPlane heq =>
    rw [heq] at hwrites
    exact hwrites.trans (untilError_frame (fun set plane _ => access_frame set plane _ _) _ _ _)

end PoolMemberSet

theorem Supplied.activated_frame (supplied : Supplied) (first second : WriteOutcome) :
    ({ supplied with
       member := (supplied.member.activateCatalogData first second).1 } : Supplied).frame =
      supplied.frame := by
  have hheader : ∀ header, prepareActivation supplied.member = .ok header →
      header = supplied.member.header ∨ header = catalogHeader supplied.member.header := by
    intro header h
    simp only [prepareActivation, ok_iff] at h
    obtain ⟨-, -, h⟩ := h
    split_ifs at h with hdata hdegraded
    all_goals simp only [ok_iff] at h
    · exact .inl h.2.symm
    · exact .inl h.2.symm
    · exact .inr h.2.2.symm
  unfold activateCatalogData
  cases hprepare : prepareActivation supplied.member with
  | error e => rfl
  | ok header =>
    split_ifs
    all_goals simp only [frame, id, writeHeader_slots, writeHeader_header]
    rcases hheader header hprepare with rfl | rfl <;> rfl

namespace ReplicatedJournal

theorem activateCatalogData_frame (activate : Id → WriteOutcome × WriteOutcome)
    (members : List Id) : ∀ c : ReplicatedJournal,
      SameFrame c.set (c.activateCatalogData activate members).1.set := by
  induction members with
  | nil => exact fun c => .refl _
  | cons memberId rest ih =>
    intro c
    have hstep : SameFrame c.set (c.activateMember memberId (activate memberId)).set :=
      .of_update fun supplied => supplied.activated_frame _ _
    unfold activateCatalogData
    dsimp only
    split
    · exact .refl _
    · split
      · exact hstep
      · exact hstep.trans (ih _)

theorem failCatalogMember_frame (c : ReplicatedJournal) (memberId : Id) :
    SameFrame c.set (c.failCatalogMember memberId).set := by
  have h : SameFrame c.set (c.set.noteControlFailure memberId) :=
    .of_update fun _ => rfl
  exact ⟨h.authority, h.members⟩

end ReplicatedJournal

namespace CatalogPool

open ReplicatedJournal

theorem failVoter_frame (pool : CatalogPool) (voter : Id) (error : DataError) :
    SameFrame pool.coordinator.set (pool.failVoter voter error).coordinator.set :=
  have h := afterStorage_frame pool.coordinator.set voter (.error error)
  h.trans (failCatalogMember_frame
    { pool.coordinator with set := pool.coordinator.set.afterStorage voter (.error error) } voter)

theorem stageVoters_frame (stage : MetadataRegion → Except CatalogError Staging)
    (interruption : Id → Option (List Fate)) (voters : List Id) : ∀ pool : CatalogPool,
      SameFrame pool.coordinator.set
        (pool.stageVoters stage interruption voters).1.coordinator.set := by
  induction voters with
  | nil => exact fun pool => .refl _
  | cons voter rest ih =>
    intro pool
    unfold stageVoters
    dsimp only
    split
    case h_1 region _ => exact ih (pool.putMetadata voter region)
    case h_2 region e _ => exact failVoter_frame (pool.putMetadata voter region) voter e

theorem repairVoters_frame [Codec] (rootBytes : Block) (interruption : Id → Option (List Fate))
    (voters : List Id) : ∀ pool : CatalogPool, SameFrame pool.coordinator.set
        (pool.repairVoters rootBytes interruption voters).1.coordinator.set := by
  induction voters with
  | nil => exact fun pool => .refl _
  | cons voter rest ih =>
    intro pool
    unfold repairVoters
    dsimp only
    split
    case h_1 region _ => exact ih (pool.putMetadata voter region)
    case h_2 region e _ =>
      exact (failVoter_frame (pool.putMetadata voter region) voter e).trans (ih _)

variable [Codec] [Blake3]

omit [Blake3] in
theorem stage_frame (pool : CatalogPool) (request : CatalogGenerationRequest)
    (faults : PublicationFaults) (claims : List ClaimedMember)
    (previous : Option ValidatedCatalog) (current : ValidatedCatalog) :
    SameFrame pool.coordinator.set
      (pool.stage request faults claims previous current).1.coordinator.set := by
  unfold stage
  dsimp only
  have hactivated := ReplicatedJournal.activateCatalogData_frame faults.activate
    (pool.coordinator.catalogVoters ++ (pool.coordinator.set.supplied.map Supplied.id).filter
      fun memberId => memberId ∈ claims.map ClaimedMember.memberId) pool.coordinator
  split
  case h_1 c e heq =>
    rw [heq] at hactivated
    exact hactivated.trans ⟨rfl, rfl⟩
  rename_i c heq
  rw [heq] at hactivated
  have hdata := stageDataInitializations_frame c.set pool.plane claims current
    request.dataInitializations faults
  split
  case h_1 set plane e heq =>
    rw [heq] at hdata
    exact (hactivated.trans hdata).trans ⟨rfl, rfl⟩
  case h_2 set plane heq =>
    rw [heq] at hdata
    exact (hactivated.trans hdata).trans (stageVoters_frame _ _ _ ⟨{ c with set := set }, _⟩)

/-- Nothing that precedes the generation commit writes to a journal. -/
theorem publish_frame (pool : CatalogPool) (request : CatalogGenerationRequest)
    (faults : PublicationFaults) :
    SameFrame pool.coordinator.set (pool.publish request faults).1.coordinator.set := by
  unfold publish
  dsimp only
  split
  · exact .refl _
  split
  · exact .refl _
  split
  · exact .refl _
  split
  · exact ⟨rfl, rfl⟩
  split
  · exact .refl _
  case h_2 previous current _ =>
    split
    · exact .refl _
    case h_2 plane claims _ =>
      have hstage := stage_frame { pool with plane := plane } request faults claims previous current
      split
      all_goals
        rename_i heq
        rw [heq] at hstage
        exact hstage

end CatalogPool

/-! ## The catalog of the voters -/

namespace CatalogPool

variable [Codec]

/-- The region holds the catalog: at the place of every page a block with its digest, which is the
page of the graph unless the previous catalog has the page already, and a copy of the root. -/
structure StoresCatalog (region : MetadataRegion) (previous : Option ValidatedCatalog)
    (current : ValidatedCatalog) (graph : Graph) : Prop where
  page : ∀ reference ∈ current.currentPages, ∃ block,
    region.read reference.offset = .ok block ∧ Codec.blake3 block.bytes = reference.digest ∧
      (resolveReference graph reference = .ok block ∨ ∃ catalog, previous = some catalog ∧
        ∃ shared ∈ catalog.currentPages, shared.offset = reference.offset)
  root : ∃ slot, region.read (rootOffset slot) = .ok graph.rootBytes

variable {current : ValidatedCatalog} {authority : PoolAuthority.Authority} {graph : Graph}
  {region after : MetadataRegion} {previous : Option ValidatedCatalog} {staging : Staging}

theorem stageCatalog_eq_ok
    (h : stageCatalog region authority previous current graph = .ok staging) :
    stageEach region (previous.elim [] ValidatedCatalog.currentPages) graph
        current.currentPages = .ok staging.pages ∧ staging.root = graph.rootBytes := by
  unfold stageCatalog at h
  split at h
  · simp only [stageInitialization, stagePages, ok_iff] at h
    obtain ⟨_, -, -, _, ⟨writes, hwrites, -, rfl⟩, rfl⟩ := h
    exact ⟨hwrites, rfl⟩
  · simp only [stageTransition, stagePages, ok_iff] at h
    obtain ⟨_, -, -, -, _, ⟨writes, hwrites, -, rfl⟩, rfl⟩ := h
    exact ⟨hwrites, rfl⟩

/-- A staging that completes leaves the catalog in the region. -/
theorem storesCatalog_of_run (hresolved : Resolved graph current.currentPages)
    (h : stageCatalog region authority previous current graph = .ok staging)
    (hrun : staging.run region = .ok after) : StoresCatalog after previous current graph := by
  obtain ⟨hpages, hroot⟩ := stageCatalog_eq_ok h
  obtain ⟨hkept, hmade, hsub⟩ := stageEach_eq_ok hpages
  simp only [Staging.run, ok_iff, forAll_eq_ok, position_eq_ok] at hrun
  obtain ⟨hinside, rfl⟩ := hrun
  have hrootMem : ⟨rootOffset staging.target, staging.root⟩ ∈ staging.writes :=
    mem_append_right _ (mem_singleton_self _)
  -- a page is written at its own place, apart from the root copies
  have hpage : ∀ write ∈ staging.pages, ∃ reference ∈ current.currentPages,
      write.offset = reference.offset := by
    intro write hmem
    obtain ⟨reference, href, -, image, -, rfl⟩ := hmade write hmem
    exact ⟨reference, href, rfl⟩
  have haligned : Aligned staging.writes := by
    intro write hmem
    rcases mem_append.mp hmem with hmem | hmem
    · obtain ⟨reference, href, hoffset⟩ := hpage write hmem
      rw [hoffset]
      exact (page_offset hresolved href).2.1
    · rw [mem_singleton.mp hmem]
      exact rootOffset_aligned _
  have hdistinct : (staging.writes.map RegionWrite.offset).Nodup := by
    rw [Staging.writes, map_append, nodup_append]
    refine ⟨hresolved.distinct.sublist hsub, by simp, fun a ha b hb => ?_⟩
    obtain ⟨write, hmem, rfl⟩ := mem_map.mp ha
    obtain ⟨reference, href, hoffset⟩ := hpage write hmem
    rw [mem_singleton.mp hb, hoffset]
    exact ((page_offset hresolved href).2.2 _).symm
  have hwritten := complete_read_self haligned hinside hdistinct
  constructor
  case root => exact ⟨staging.target, hroot ▸ hwritten _ hrootMem⟩
  case page =>
    intro reference href
    have hoffset := page_offset hresolved href
    rcases hkept reference href with ⟨⟨shared, hshared, hsame⟩, block, hread, hdigest⟩ |
      ⟨write, hmem, hfresh, image, himage, rfl⟩
    · -- a page of the previous catalog is not written over
      refine ⟨block, ?_, hdigest, .inr ?_⟩
      · rw [complete_read_other haligned hoffset.2.1, hread]
        intro write hmem
        rcases mem_append.mp hmem with hmem | hmem
        · obtain ⟨other, -, hfresh, image, -, rfl⟩ := hmade write hmem
          rw [← hsame]
          exact (hfresh shared hshared).symm
        · rw [mem_singleton.mp hmem]
          exact hoffset.2.2 _
      · cases previous with
        | none => exact absurd hshared not_mem_nil
        | some catalog => exact ⟨catalog, rfl, shared, hshared, hsame⟩
    · have hresolve := (findImage_eq_some hoffset.1 himage).2
      refine ⟨image.block, hwritten _ (mem_append_left _ hmem), ?_, .inl hresolve⟩
      obtain ⟨-, found, -, hdigest, heq⟩ := resolveReference_eq_ok.mp hresolve
      rw [← heq]
      exact hdigest

omit [Codec] in
theorem attemptStaging_eq_ok {staging : Except CatalogError Staging}
    {interruption : Option (List Fate)}
    (h : attemptStaging region staging interruption = (after, .ok ())) :
    ∃ made, staging = .ok made ∧ made.run region = .ok after := by
  unfold attemptStaging at h
  split at h
  · simp at h
  · simp at h
  split at h
  · simp at h
  case h_2 made _ found hrun =>
    rw [Prod.mk.injEq] at h
    exact ⟨made, rfl, h.1 ▸ hrun⟩

/-- When the catalog is staged on all voters, each of them stores it. Nothing else changes. -/
theorem stageVoters_eq_ok (hresolved : Resolved graph current.currentPages)
    {interruption : Id → Option (List Fate)} {voters : List Id} : ∀ {pool after : CatalogPool},
      pool.stageVoters (fun region => stageCatalog region authority previous current graph)
        interruption voters = (after, .ok ()) →
      after.coordinator = pool.coordinator ∧
        after.plane = { pool.plane with metadata := after.plane.metadata } ∧
        (∀ voter ∈ voters, StoresCatalog (after.plane.metadata voter) previous current graph) ∧
        ∀ memberId, memberId ∉ voters →
          after.plane.metadata memberId = pool.plane.metadata memberId := by
  induction voters with
  | nil =>
    intro pool after h
    cases h
    exact ⟨rfl, rfl, by simp, fun _ _ => rfl⟩
  | cons voter rest ih =>
    intro pool after h
    unfold stageVoters at h
    dsimp only at h
    split at h
    case h_2 => simp at h
    case h_1 region hattempt =>
      obtain ⟨hcoordinator, hplane, hstored, hother⟩ := ih h
      obtain ⟨staging, hstaging, hrun⟩ := attemptStaging_eq_ok hattempt
      have hstores := storesCatalog_of_run hresolved hstaging hrun
      refine ⟨hcoordinator, hplane, fun other hmem => ?_, fun other hmem => ?_⟩
      · by_cases hlater : other ∈ rest
        · exact hstored other hlater
        · rcases mem_cons.mp hmem with rfl | hlater'
          · rw [hother other hlater]
            simpa [putMetadata] using hstores
          · exact absurd hlater' hlater
      · have hne : other ≠ voter := fun heq => hmem (heq ▸ mem_cons_self)
        rw [hother other fun hlater => hmem (mem_cons_of_mem _ hlater)]
        simp only [putMetadata, update_of_ne hne]

end CatalogPool

end Zettide
