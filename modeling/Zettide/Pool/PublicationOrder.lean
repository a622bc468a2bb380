import Zettide.Pool.Seated
import Zettide.Pool.StagedData

/-! # The order of a publication

A prepare record of a generation is appended only after the whole catalog and all initial data of
its new mappings are on the medium, and only voters that hold the catalog attest it. -/

namespace Zettide

open List PoolTopology Journal Sample Except Option
open PoolCatalog PoolCatalogGraph PoolCatalogStore PoolCatalogVolume PoolMemberSet DataPlane Prod

variable {after : ReplicatedJournal}

namespace ReplicatedJournal

variable [Blake3]

/-! ## The certificate of a commit -/

variable {c : ReplicatedJournal} {proposal : Record} {entry : Id × List Slot}
  {prepared : PreparedAppend} {outcome prepareOutcome commitOutcome : Id → WriteOutcome}
  {items : List Item}

/-- The record that is prepared for a member names it, and has the payload of the proposal. -/
theorem prepareExact_record {journal : Journal} {member : Member} {token : TailToken}
    (h : prepareExact journal member token proposal = .ok prepared) :
    prepared.record.memberId = member.header.memberId ∧
      prepared.record.payload = proposal.payload := by
  simp only [prepareExact, prepareLocked, ok_iff] at h
  obtain ⟨-, -, _, -, -, _, -, -, -, -, _, -, rfl⟩ := h
  exact ⟨rfl, rfl⟩

theorem appendPrepared_record {claimed after : Claimed} {outcome : WriteOutcome}
    {result : AppendResult} (h : appendPrepared claimed prepared outcome = (after, .ok result)) :
    result.record = prepared.record := by
  unfold appendPrepared at h
  split at h
  · simp at h
  split at h
  · simp at h
  unfold commitPreparedLocked at h
  split at h
  · simp at h
  split at h
  · simp at h
  · simp only [Prod.mk.injEq, ok.injEq] at h
    rw [← h.2]

/-- The record of a report is the one that was prepared for the participant. -/
theorem acks_record {ack : Ack} (h : ack ∈ c.acks appendPrepared items outcome) :
    ∃ item ∈ items, item.memberId = ack.memberId ∧ ack.result.record = item.prepared.record := by
  obtain ⟨participant, -, hbind⟩ := mem_filterMap.mp h
  obtain ⟨item, hitem, hresult⟩ := bind_eq_some_iff.mp hbind
  obtain ⟨result, hvalue, rfl⟩ := map_eq_some_iff.mp hresult
  refine ⟨item, mem_of_find?_eq_some hitem, by simpa using find?_some hitem, ?_⟩
  exact appendPrepared_record (Prod.ext rfl ((value_eq_some _ _).mp hvalue))

omit [Blake3] in
theorem mem_encode {certificate encoded : PoolCertificate}
    (h : PoolCertificate.encode certificate = .ok encoded) (attestation : Attestation) :
    attestation ∈ encoded.attestations ↔ attestation ∈ certificate.attestations := by
  simp only [PoolCertificate.encode, ok_iff] at h
  obtain ⟨-, h⟩ := h
  split at h
  case h_1 a b hpair =>
    split at h
    all_goals
      cases h
      rw [hpair]
    simp only [mem_cons, not_mem_nil, or_false]
    exact or_comm
  case h_2 =>
    rw [ok.injEq] at h
    rw [h]

/-- The certificate of a commit attests the members that are reported as its witnesses. -/
theorem certificate_witnesses {result : CommitResult}
    (h : c.commitGenerationLocked proposal prepareOutcome commitOutcome = (after, .ok result)) :
    ∃ certificate, result.record.payload = .certificate certificate ∧
      ∀ attestation ∈ certificate.attestations,
        attestation.memberId ∈ result.prepareWitnessMembers := by
  obtain ⟨items, commitItems, first, hcommit⟩ := commitGenerationLocked_ok h
  have hprepared := hcommit.commit
  simp only [prepareGenerationCommit, ok_iff] at hprepared
  obtain ⟨report, -, certificate, hencode, hcommitItems⟩ := hprepared
  obtain ⟨item, hitem, -, hrecord⟩ := acks_record (mem_of_head? hcommit.head)
  obtain ⟨participant, -, hone⟩ := prepareAll_mem hcommitItems item hitem
  simp only [commitItem, ok_iff] at hone
  obtain ⟨_, -, _, hexact, rfl⟩ := hone
  refine ⟨certificate, ?_, fun attestation hattestation => ?_⟩
  · rw [hcommit.record, hrecord]
    exact (prepareExact_record hexact).2
  · -- an attestation is made from the report of the member that it names
    obtain ⟨ack, hack, rfl⟩ := mem_map.mp ((mem_encode hencode attestation).mp hattestation)
    rw [hcommit.witnesses]
    refine mem_map.mpr ⟨ack, hack, ?_⟩
    obtain ⟨item, hitem, hid, hrecord⟩ := acks_record (mem_of_mem_take hack)
    have hprepare := hcommit.prepared
    simp only [prepareGeneration, ok_iff] at hprepare
    obtain ⟨-, -, -, -, -, -, hitems⟩ := hprepare
    obtain ⟨participant, hparticipant, hone⟩ := prepareAll_mem hitems item hitem
    obtain ⟨member, -, seat, -, rfl⟩ :=
      participants_mem (mem_of_mem_filter (mem_of_mem_filter hparticipant))
    simp only [prepareItem, ok_iff] at hone
    obtain ⟨_, -, _, hexact, rfl⟩ := hone
    show ack.memberId = ack.result.record.memberId
    rw [hrecord, (prepareExact_record hexact).1, ← hid]
    rfl

/-! ## The journals of a commit -/

/-- An append phase changes the journals of the members it has a record for. -/
theorem appendAll_journals
    (h : entry ∈ (c.appendAll appendPrepared true items outcome).set.journals) :
    entry ∈ c.set.journals ∨ ∃ item ∈ items, item.memberId = entry.1 := by
  simp only [journals, appendAll, List.map_map, List.mem_map, Function.comp_apply] at h
  obtain ⟨supplied, hmem, rfl⟩ := h
  by_cases hitem : ∃ item ∈ items, item.memberId = supplied.id
  · obtain ⟨item, hitem, hid⟩ := hitem
    exact .inr ⟨item, hitem, hid.trans (appendTo_id appendPrepared_header).symm⟩
  have hidle : appendTo appendPrepared true items outcome supplied = supplied :=
    appendTo_idle fun item hmem hid => hitem ⟨item, hmem, hid⟩
  rw [hidle]
  exact .inl (mem_map.mpr ⟨supplied, hmem, rfl⟩)

/-- A generation commit changes the journals of its targets only. -/
theorem commitGenerationLocked_journals
    (h : entry ∈ (c.commitGenerationLocked proposal prepareOutcome commitOutcome).1.set.journals) :
    entry ∈ c.set.journals ∨
      ∃ participant ∈ c.activeParticipants, participant.memberId = entry.1 := by
  have hbegun : c.beginControlMutation.set.journals = c.set.journals := by
    simp only [PoolMemberSet.journals, ReplicatedJournal.beginControlMutation,
      PoolMemberSet.beginControlMutation, List.map_map]
    rfl
  unfold commitGenerationLocked at h
  split at h
  · exact .inl h
  case h_2 items hprepare =>
    simp only [prepareGeneration, ok_iff] at hprepare
    obtain ⟨-, -, -, -, -, -, hitems⟩ := hprepare
    have htarget : ∀ item ∈ items, ∃ participant ∈ c.activeParticipants,
        participant.memberId = item.memberId := by
      intro item hitem
      obtain ⟨participant, hparticipant, hone⟩ := prepareAll_mem hitems item hitem
      refine ⟨participant, mem_of_mem_filter hparticipant, ?_⟩
      exact ((prepareItem_exact proposal).prepared participant item hone).1.symm
    have hprepared : ∀ entry, entry ∈ (c.beginControlMutation.appendAll
          appendPrepared true items prepareOutcome).set.journals →
        entry ∈ c.set.journals ∨
          ∃ participant ∈ c.activeParticipants, participant.memberId = entry.1 := by
      intro entry hentry
      rcases appendAll_journals hentry with hold | ⟨item, hitem, hid⟩
      · exact .inl (hbegun ▸ hold)
      · obtain ⟨participant, hparticipant, hsame⟩ := htarget item hitem
        exact .inr ⟨participant, hparticipant, hsame.trans hid⟩
    dsimp only at h
    split at h
    · exact hprepared entry h
    split at h
    case h_1 e _ =>
      refine hprepared entry ?_
      unfold afterError at h
      split at h
      · exact h
      · exact h
    rename_i commitItems hcommit
    -- the commit records are for members that acknowledged the prepare record
    have hcommitted : ∀ item ∈ commitItems, ∃ participant ∈ c.activeParticipants,
        participant.memberId = item.memberId := by
      intro item hitem
      simp only [prepareGenerationCommit, bind_eq_ok] at hcommit
      obtain ⟨_, -, _, -, hcommit⟩ := hcommit
      obtain ⟨participant, hparticipant, hone⟩ := prepareAll_mem hcommit item hitem
      have hack := (mem_filter.mp hparticipant).2
      rw [decide_eq_true_eq] at hack
      obtain ⟨prepared, hprepared, hid⟩ := acks_item hack
      obtain ⟨target, htargets, hsame⟩ := htarget prepared hprepared
      refine ⟨target, htargets, ?_⟩
      rw [hsame, hid, ((commitItem_exact _).prepared participant item hone).1]
    have hfinished : ∀ entry, entry ∈ ((c.beginControlMutation.appendAll
          appendPrepared true items prepareOutcome).appendAll appendPrepared true
            commitItems commitOutcome).set.journals →
        entry ∈ c.set.journals ∨
          ∃ participant ∈ c.activeParticipants, participant.memberId = entry.1 := by
      intro entry hentry
      rcases appendAll_journals hentry with hold | ⟨item, hitem, hid⟩
      · exact hprepared entry hold
      · obtain ⟨participant, hparticipant, hsame⟩ := hcommitted item hitem
        exact .inr ⟨participant, hparticipant, hsame.trans hid⟩
    refine hfinished entry ?_
    unfold finishGeneration at h
    dsimp only at h
    split at h
    · exact h
    split at h
    · exact h
    · simpa [journals, noteCommittedGeneration, noteAuthority,
        Function.comp_def, Supplied.id] using h

end ReplicatedJournal

namespace CatalogPool

open ReplicatedJournal

variable [Codec] [Blake3]

/-! ## The staging of a commit -/

variable {current : ValidatedCatalog} {claims : List ClaimedMember} {faults : PublicationFaults}
  {previous : Option ValidatedCatalog} {request : CatalogGenerationRequest} {pool staged : CatalogPool} {set : PoolMemberSet}

theorem validateRequest_accepted (h : validateRequest set request = .ok (previous, current)) :
    ∃ binding geometry, PoolCatalogGraph.Accepted binding request.currentGraph geometry [] current ∧
      Initialized previous current.root.extentSize current.runs request.dataInitializations := by
  simp only [validateRequest, ok_iff] at h
  obtain ⟨geometry, -, h⟩ := h
  split_ifs at h with hgenesis
  · simp only [ok_iff, Prod.mk.injEq] at h
    obtain ⟨-, _, hcurrent, hdata, rfl, rfl⟩ := h
    have haccepted := accepted_iff.mp hcurrent
    exact ⟨_, geometry, haccepted, (validateDataInitializations_eq_ok haccepted (by rintro _ ⟨⟩)
      hdata).1⟩
  · simp only [ok_iff, Prod.mk.injEq] at h
    obtain ⟨previousGraph, -, _, hprevious, _, hcurrent, hdata, rfl, rfl⟩ := h
    have haccepted := Transition.current_accepted
      (⟨previousGraph, _, _, request.currentGraph, geometry, _, hprevious, hcurrent⟩ :
        Transition set.authority geometry)
    refine ⟨_, geometry, haccepted, (validateDataInitializations_eq_ok haccepted ?_ hdata).1⟩
    rintro _ ⟨⟩
    exact ⟨_, _, _, _, hprevious⟩

/-- A commit that comes to the journals has passed its checks, has its claims, and is staged. -/
theorem publish_eq_ok (h : pool.publish request faults = (staged, .ok claims)) :
    ∃ previous current plane,
      validateRequest pool.coordinator.set request = .ok (previous, current) ∧
      claimDataMembers pool.coordinator.set pool.plane previous current = (plane, claims, .ok ()) ∧
      stage { pool with plane := plane } request faults claims previous current =
        (staged, .ok ()) := by
  unfold publish at h
  dsimp only at h
  split at h
  · simp at h
  split at h
  · simp at h
  split at h
  · simp at h
  split at h
  · simp at h
  split at h
  · simp at h
  case h_2 previous current hrequest =>
    split at h
    · simp at h
    case h_2 plane taken hclaims =>
      split at h
      · simp at h
      case h_2 after hstage =>
        cases h
        exact ⟨previous, current, plane, hrequest, hclaims, hstage⟩

omit [Codec] [Blake3] in
/-- Every slot that the new catalog uses is claimed, for the member that has it. -/
theorem claimDataMembers_eq_ok {after : PoolMemberSet} {plane claimed : DataPlane}
    (hframe : SameFrame set after)
    (h : claimDataMembers set plane previous current = (claimed, claims, .ok ()))
    {slot : Nat} (hslot : slot ∈ requiredSlots previous current) {supplied : Supplied}
    (hmember : dataMember after slot = .ok supplied) :
    ∃ claim ∈ claims, claim.slot = slot ∧ claim.memberId = supplied.id := by
  unfold claimDataMembers at h
  dsimp only at h
  split at h
  · simp at h
  case isFalse hknown =>
    obtain ⟨-, -, -, hclaims, hslots⟩ := claimSlots_spec h
    obtain ⟨descriptor, hdescriptor, -, hfind, -⟩ := dataMember_eq_ok hmember
    rw [hframe.authority] at hdescriptor
    have hin : slot ∈ claims.map ClaimedMember.slot := by
      rw [hslots rfl, List.mem_filter, decide_eq_true_eq]
      refine ⟨List.mem_map.mpr ⟨descriptor, List.mem_of_find?_eq_some hdescriptor, ?_⟩, hslot⟩
      simpa using List.find?_some hdescriptor
    obtain ⟨claim, hclaim, rfl⟩ := List.mem_map.mp hin
    obtain ⟨-, owner, howner, hid⟩ := hclaims claim hclaim
    obtain ⟨-, howner, -⟩ := dataMemberForWrite_eq_ok.mp howner
    obtain ⟨other, hother, -, hfindOwner, -⟩ := dataMember_eq_ok howner
    obtain rfl : other = descriptor := Option.some.inj (hother.symm.trans hdescriptor)
    refine ⟨claim, hclaim, rfl, ?_⟩
    rw [← hid, findSuppliedMember_id hfindOwner, findSuppliedMember_id hfind]

/-- The catalog maps an extent to a place where the previous one did not have it. -/
def NewlyMapped (previous : Option ValidatedCatalog) (current : ValidatedCatalog) (volumeId : Id)
    (extent : Nat) (run : ExtentRun) : Prop :=
  current.Maps volumeId extent run ∧ ¬ ∃ catalog old, previous = some catalog ∧
    catalog.Maps volumeId extent old ∧ old.memberSlots = run.memberSlots ∧
    old.physicalStart + (extent - old.logicalStart) =
      run.physicalStart + (extent - run.logicalStart)

omit [Codec] [Blake3] in
theorem not_newlyMapped_of_matching {volumeId : Id} {extent : Nat} {run : ExtentRun}
    (hmapped : run.state = .mapped)
    (h : (findMatchingRun (previousRuns previous volumeId) run extent).isSome) :
    ¬ NewlyMapped previous current volumeId extent run := by
  rintro ⟨-, hnew⟩
  obtain ⟨found, hfound⟩ := isSome_iff_exists.mp h
  have hmem := mem_of_find?_eq_some hfound
  have hmatches := find?_some hfound
  rw [decide_eq_true_eq] at hmatches
  obtain ⟨hrange, hplace, hstate, hslots⟩ := hmatches
  obtain ⟨catalog, hprevious, hruns⟩ := mem_previousRuns hmem
  exact hnew ⟨catalog, found, hprevious, ⟨hruns, hstate ▸ hmapped, hrange⟩, hslots.symm,
    hplace.symm⟩

/-- What is on the medium when a commit comes to the journals. -/
structure Published (pool staged : CatalogPool) (request : CatalogGenerationRequest)
    (previous : Option ValidatedCatalog) (current : ValidatedCatalog) : Prop where
  /-- Every voter holds the catalog. -/
  catalog : ∀ voter ∈ pool.coordinator.catalogVoters,
    StoresCatalog (staged.plane.metadata voter) previous current request.currentGraph
  /-- Every extent that is newly mapped has its declared contents on all replicas. -/
  data : ∀ volumeId extent run, NewlyMapped previous current volumeId extent run →
    ∃ initialization ∈ request.dataInitializations, initialization.volumeId = volumeId ∧
      rangeContains initialization.logicalStart initialization.extentCount extent ∧
      Durable staged.coordinator.set staged.plane current.root.extentSize run extent
        (initialContents initialization current.root.extentSize extent)

/-- What is staged when the commit comes to the journals. -/
theorem published_of_publish (hsized : Sized pool.coordinator.set pool.plane)
    (h : pool.publish request faults = (staged, .ok claims)) :
    ∃ previous current, validateRequest pool.coordinator.set request = .ok (previous, current) ∧
      Published pool staged request previous current := by
  obtain ⟨previous, current, plane, hrequest, hclaims, hstage⟩ := publish_eq_ok h
  refine ⟨previous, current, hrequest, ?_⟩
  obtain ⟨binding, geometry, haccepted, hinitialized⟩ := validateRequest_accepted hrequest
  have hsame : SameContents pool.plane plane := by
    unfold claimDataMembers at hclaims
    dsimp only at hclaims
    split at hclaims
    · simp at hclaims
    · exact (claimSlots_spec hclaims).1
  unfold stage at hstage
  dsimp only at hstage
  have hactivated := ReplicatedJournal.activateCatalogData_frame faults.activate
    (pool.coordinator.catalogVoters ++ (pool.coordinator.set.supplied.map Supplied.id).filter
      fun memberId => memberId ∈ claims.map ClaimedMember.memberId) pool.coordinator
  split at hstage
  · simp at hstage
  case h_2 c hactivate =>
    rw [hactivate] at hactivated
    split at hstage
    · simp at hstage
    case h_2 set after hdataStage =>
      have hsizedPlane : Sized pool.coordinator.set plane := by
        intro memberId supplied hfind
        rw [hsame.data]
        exact hsized memberId supplied hfind
      obtain ⟨rfl, hmetadata, -, hdurable⟩ := stageDataInitializations_eq_ok haccepted hinitialized
        (hactivated.sized hsizedPlane)
        (fun entry hentry slot hslot supplied hmember =>
          claimDataMembers_eq_ok hactivated hclaims
            (mem_flatMap.mpr ⟨current, by simp, mem_flatMap.mpr ⟨entry, hentry, hslot⟩⟩)
            hmember) hdataStage
      obtain ⟨hcoordinator, hplane, hstores, -⟩ := stageVoters_eq_ok haccepted.resolved hstage
      refine ⟨hstores, fun volumeId extent run hnew => ?_⟩
      obtain ⟨⟨hrun, hmapped, hextent⟩, -⟩ := id hnew
      rcases hinitialized.covers (volumeId, run) hrun hmapped extent hextent with
        hmatched | ⟨initialization, hmem, hwithin, hcontains⟩
      · exact absurd hnew (not_newlyMapped_of_matching hmapped hmatched)
      · refine ⟨initialization, hmem, hwithin.volume, hcontains, ?_⟩
        have hon := hdurable initialization hmem (volumeId, run) hrun hwithin extent hcontains
        rw [hcoordinator, hplane]
        exact hon

/-- What follows the generation commit leaves the journals alone. -/
theorem commitStaged_journals (pool : CatalogPool) (request : CatalogGenerationRequest)
    (faults : PublicationFaults) (voters : List Id) :
    (pool.commitStaged request faults voters).1.coordinator.set.journals =
      (pool.coordinator.commitGenerationLocked request.prepareProposal faults.prepare
        faults.commit).1.set.journals := by
  unfold commitStaged
  split
  case h_1 after e heq => rw [heq]; rfl
  case h_2 after result heq =>
    rw [heq]
    split
    · rfl
    · exact (repairVoters_frame _ _ _ { pool with coordinator := after }).journals

omit [Codec] [Blake3] in
theorem mem_catalogVoters {c : ReplicatedJournal} {memberId : Id}
    (h : isVoter c.set.authority.topology memberId = true) :
    memberId ∈ c.catalogVoters := by
  obtain ⟨member, hfind, hrole⟩ := isVoter_iff.mp h
  obtain ⟨hmem, hid⟩ := findMember_eq_some hfind
  exact mem_map.mpr ⟨member, mem_filter.mpr ⟨hmem, by simpa using hrole⟩, hid⟩

omit [Codec] [Blake3] in
/-- The participants that staging leaves active are voters, if all of them were. -/
theorem active_voters {before : ReplicatedJournal} (hframe : SameFrame before.set after.set)
    (hseated : before.Seated) {participant : Participant}
    (h : participant ∈ after.activeParticipants) :
    participant.memberId ∈ before.catalogVoters := by
  obtain ⟨member, hmember, journal, hseat, rfl⟩ := active_mem h
  have hold : member.frame ∈ before.set.supplied.map Supplied.frame := by
    rw [← hframe.members]
    exact List.mem_map_of_mem hmember
  obtain ⟨old, holdMem, hsame⟩ := List.mem_map.mp hold
  have hid : old.id = member.id := congrArg MemberFrame.id hsame
  have hseats : old.seat = member.seat := congrArg MemberFrame.seat hsame
  have hvoter := hseated.active old holdMem ⟨journal, hseats.trans hseat⟩
  rw [hid] at hvoter
  exact mem_catalogVoters hvoter

/-- The certificate of a commit that succeeds attests voters that hold the catalog. -/
theorem commitStaged_certificate {after : CatalogPool} {voters : List Id}
    {result : CatalogCommitResult}
    (h : pool.commitStaged request faults voters = (after, .ok result)) :
    ∃ certificate, result.generation.record.payload = .certificate certificate ∧
      ∀ attestation ∈ certificate.attestations, attestation.memberId ∈ voters := by
  unfold commitStaged at h
  split at h
  · simp at h
  case h_2 committed generation hcommit =>
    split at h
    · simp at h
    case isFalse hstaged =>
      cases h
      obtain ⟨certificate, hpayload, hwitnesses⟩ := certificate_witnesses hcommit
      refine ⟨certificate, hpayload, fun attestation hattestation => ?_⟩
      by_contra hnot
      exact hstaged ⟨attestation.memberId, hwitnesses attestation hattestation, hnot⟩

end CatalogPool

namespace Sample

/-- A coordinator of the mapped pool, before its participant took part in anything. -/
def pool : CatalogPool :=
  ⟨⟨set, [2], 1, false, false, none, false⟩, plane⟩

/-- A request for the catalog that the pool has. -/
def request : CatalogGenerationRequest where
  prepareProposal :=
    { kind := .generationPrepare, localSequence := 1, membershipEpoch := 1, writerTerm := 1
      generation := 2, setId := 1, memberId := 2, mountSessionId := 1, transactionId := 1
      previousRecordDigest := 0, previousHistoryDigest := 5, historyDigest := 6
      dataRootDigest := 7, topologyDigest := 8, layoutDigest := 9
      payload := .unframed 0 false .invalidMagic 0 }
  previousGraph := some mappedGraph
  currentGraph := mappedGraph
  dataInitializations := []

/-- Nothing fails. -/
def faultless : PublicationFaults where
  catalogClaimed _ := false
  activate _ := (.done, .done)
  write _ _ _ := .done
  sync _ := .done
  stage _ := none
  prepare _ := .done
  commit _ := .done
  repair _ := none

end Sample

namespace CatalogPool

end CatalogPool

end Zettide
