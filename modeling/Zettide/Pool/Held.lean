import Zettide.Catalog.Loading
import Zettide.Pool.Lease

/-! # What a lease holds

A lease that was acquired has a claim on the member of every slot that its catalog maps an extent
to (`Held`), and its catalog passed all checks under the authority of the set. Claims are exclusive
because a claim that is held is not given to anyone else: no operation on other claims changes
it. -/

namespace Zettide

open PoolCatalog PoolCatalogGraph PoolCatalogStore PoolMemberSet List

/-! ## Data members -/

namespace PoolMemberSet

variable {set : PoolMemberSet} {slot : Nat} {supplied : Supplied}

section

variable (h : dataMember set slot = .ok supplied)
include h

/-- The member of a slot, with what the lookup checked. -/
theorem dataMember_eq_ok : ∃ descriptor, findSlot set.authority.topology slot = some descriptor ∧
      descriptor.state ≠ .joining ∧
      findSuppliedMember set.supplied descriptor.memberId = some supplied ∧
      holdsData supplied = true ∧ supplied.member.header.memberSlot = slot := by
  simp only [dataMember, ok_iff, Bool.not_eq_false, ne_eq, not_not] at h
  obtain ⟨descriptor, hdescriptor, hstate, member, hmember, hholds, hslot, rfl⟩ := h
  exact ⟨descriptor, hdescriptor, hstate, hmember, hholds, hslot⟩

theorem dataMember_find : findSuppliedMember set.supplied supplied.id = some supplied := by
  obtain ⟨descriptor, -, -, hfind, -⟩ := dataMember_eq_ok h
  rw [findSuppliedMember_id hfind]
  exact hfind

/-- Members of different slots are different members. -/
theorem dataMember_slot {other : Nat} {otherSupplied : Supplied}
    (hother : dataMember set other = .ok otherSupplied)
    (hid : supplied.id = otherSupplied.id) : slot = other := by
  have hfind := dataMember_find h
  rw [hid, dataMember_find hother, Option.some.injEq] at hfind
  obtain ⟨-, -, -, -, -, hslot⟩ := dataMember_eq_ok h
  obtain ⟨-, -, -, -, -, hotherSlot⟩ := dataMember_eq_ok hother
  rw [← hslot, ← hotherSlot, hfind]

end

theorem dataMemberForWrite_eq_ok : dataMemberForWrite set slot = .ok supplied ↔
      set.dataAccess = .readWrite ∧ dataMember set slot = .ok supplied ∧
        supplied.member.mode = .writable ∧ supplied.member.frozen = false := by
  simp only [dataMemberForWrite, ok_iff, ne_eq, not_not, not_or, Bool.not_eq_true]
  constructor
  · rintro ⟨haccess, member, hmember, ⟨hmode, hfrozen⟩, rfl⟩
    exact ⟨haccess, hmember, hmode, hfrozen⟩
  · rintro ⟨haccess, hmember, hmode, hfrozen⟩
    exact ⟨haccess, supplied, hmember, ⟨hmode, hfrozen⟩, rfl⟩

theorem dataMemberForRead_eq_ok : dataMemberForRead set slot = .ok supplied ↔
      set.dataAccess ≠ .unavailable ∧ dataMember set slot = .ok supplied := by
  simp only [dataMemberForRead, ok_iff, ne_eq]

/-- The geometry has an entry for the member of a slot. -/
theorem mem_catalogGeometry {geometry : List MemberGeometry}
    (hgeometry : catalogGeometry set = .ok geometry) (h : dataMember set slot = .ok supplied) :
    (⟨supplied.id, slot, supplied.member.header.metadata.length,
      supplied.member.header.data.length⟩ : MemberGeometry) ∈ geometry := by
  obtain ⟨descriptor, hdescriptor, -, hfind, -, hslot⟩ := dataMember_eq_ok h
  simp only [catalogGeometry, ok_iff] at hgeometry
  obtain ⟨-, rfl⟩ := hgeometry
  rw [mem_filterMap]
  refine ⟨descriptor, mem_of_find?_eq_some hdescriptor, ?_⟩
  rw [hfind, Option.map_some, hslot]
  rfl

end PoolMemberSet

/-! ## Claims -/

namespace DataPlane

/-- Nothing but claims differs. -/
structure SameContents (before after : DataPlane) : Prop where
  metadata : after.metadata = before.metadata
  data : after.data = before.data
  durable : after.durable = before.durable

variable (plane : DataPlane) {second first third : DataPlane}

theorem SameContents.refl : SameContents plane plane := ⟨rfl, rfl, rfl⟩

/-- A claim that is held stays held. -/
def KeepsClaims (before after : DataPlane) : Prop :=
  ∀ memberId, (before.claims memberId).current ≠ 0 →
    (after.claims memberId).current = (before.claims memberId).current

theorem KeepsClaims.refl : KeepsClaims plane plane := fun _ _ => rfl

theorem KeepsClaims.trans (h : KeepsClaims first second)
    (h' : KeepsClaims second third) : KeepsClaims first third := by
  intro memberId hheld
  have hsecond := h memberId hheld
  rw [h' memberId (by rw [hsecond]; exact hheld), hsecond]

/-- Claiming the data region of a member: nobody else's claim is touched, and a new claim is not 0
and was given to nobody. -/
theorem claimData_spec (member : Member) :
    SameContents plane (plane.claimData member).1 ∧ KeepsClaims plane (plane.claimData member).1 ∧
      ∀ claimId, (plane.claimData member).2 = .ok claimId →
        claimId ≠ 0 ∧ (plane.claims member.header.memberId).current = 0 ∧
          ((plane.claimData member).1.claims member.header.memberId).current = claimId := by
  unfold claimData
  dsimp only
  split_ifs with hmode hfrozen hsequence hclaimed
  · exact ⟨.refl _, .refl _, by simp⟩
  · exact ⟨.refl _, .refl _, by simp⟩
  · exact ⟨.refl _, .refl _, by simp⟩
  · refine ⟨⟨rfl, rfl, rfl⟩, fun memberId _ => ?_, by simp⟩
    by_cases hsame : memberId = member.header.memberId
    · rw [hsame]; simp [setClaim]
    · simp [setClaim, Function.update_of_ne hsame]
  · refine ⟨⟨rfl, rfl, rfl⟩, fun memberId hheld => ?_, fun claimId hclaim => ?_⟩
    · -- the member had no claim, so it is not the one that is held
      have hother : memberId ≠ member.header.memberId := by
        rintro rfl
        exact hclaimed hheld
      simp [setClaim, Function.update_of_ne hother]
    · cases hclaim
      exact ⟨fun hzero => hsequence (.inl hzero), not_not.mp hclaimed, by simp [setClaim]⟩

end DataPlane

namespace PoolCatalogVolume

open DataPlane

/-- All the claims are held. -/
def ClaimsHeld (plane : DataPlane) (claims : List ClaimedMember) : Prop :=
  ∀ claim ∈ claims, claim.claimId ≠ 0 ∧ (plane.claims claim.memberId).current = claim.claimId

variable {slots : List Nat}

/-- The loop over the slots, whether it came to its end or not. -/
theorem claimSlots_spec {set : PoolMemberSet} :
    ∀ {plane after : DataPlane} {claims : List ClaimedMember} {result : Except DataError Unit},
      claimSlots set plane slots = (after, claims, result) →
      SameContents plane after ∧ KeepsClaims plane after ∧ ClaimsHeld after claims ∧
        (∀ claim ∈ claims, (plane.claims claim.memberId).current = 0 ∧
          ∃ supplied, dataMemberForWrite set claim.slot = .ok supplied ∧
            supplied.id = claim.memberId) ∧
        (result = .ok () → claims.map ClaimedMember.slot = slots) := by
  induction slots with
  | nil =>
    intro plane after claims result h
    obtain ⟨rfl, rfl, rfl⟩ := h
    exact ⟨.refl _, .refl _, by simp [ClaimsHeld], by simp, fun _ => rfl⟩
  | cons slot rest ih =>
    intro plane after claims result h
    unfold claimSlots at h
    split at h
    case h_1 e hmember =>
      cases h
      exact ⟨.refl _, .refl _, by simp [ClaimsHeld], by simp, by simp⟩
    rename_i supplied hmember
    obtain ⟨hsame, hkeeps, hnew⟩ := claimData_spec plane supplied.member
    split at h
    case h_1 next e hclaim =>
      rw [hclaim] at hsame hkeeps
      cases h
      exact ⟨hsame, hkeeps, by simp [ClaimsHeld], by simp, by simp⟩
    rename_i next claimId hclaim
    rw [hclaim] at hsame hkeeps hnew
    obtain ⟨hne, hfree, hcurrent⟩ := hnew claimId rfl
    rcases hrest : claimSlots set next rest with ⟨tail, tailClaims, tailResult⟩
    rw [hrest] at h
    cases h
    obtain ⟨hsame', hkeeps', hheld, hmembers, hslots⟩ := ih hrest
    have hfirst : (next.claims supplied.id).current = claimId := hcurrent
    refine ⟨⟨hsame'.1.trans hsame.1, hsame'.2.trans hsame.2, hsame'.3.trans hsame.3⟩,
      hkeeps.trans hkeeps', ?_, ?_, ?_⟩
    · intro claim hmem
      rcases mem_cons.mp hmem with rfl | hlater
      · exact ⟨hne, by rw [hkeeps' _ (by rw [hfirst]; exact hne), hfirst]⟩
      · exact hheld claim hlater
    · intro claim hmem
      rcases mem_cons.mp hmem with rfl | hlater
      · exact ⟨hfree, supplied, hmember, rfl⟩
      obtain ⟨hnone, found⟩ := hmembers claim hlater
      refine ⟨?_, found⟩
      by_contra hheld
      exact hheld ((hkeeps _ hheld).symm.trans hnone)
    · intro hok
      rw [map_cons, hslots hok]

/-! ## Slots -/

theorem mem_insertSlot {result : List Nat} {slot : Nat}
    (h : insertSlot slots slot = .ok result) (other : Nat) :
    other ∈ result ↔ other ∈ slots ∨ other = slot := by
  unfold insertSlot at h
  dsimp only at h
  split_ifs at h with hhead
  · cases h
    have hmem : slot ∈ slots := (dropWhile_sublist _).subset (mem_of_mem_head? hhead)
    constructor
    · exact .inl
    · rintro (hother | rfl)
      · exact hother
      · exact hmem
  · simp only [ok_iff] at h
    obtain ⟨-, rfl⟩ := h
    rw [mem_append, mem_cons]
    nth_rewrite 3 [← takeWhile_append_dropWhile (p := (· < slot)) (l := slots)]
    rw [mem_append]
    tauto

theorem mem_insertSlots {new : List Nat} :
    ∀ {slots result : List Nat}, insertSlots slots new = .ok result →
      ∀ slot, slot ∈ result ↔ slot ∈ slots ∨ slot ∈ new := by
  induction new with
  | nil =>
    intro slots result h slot
    simp only [insertSlots, Except.ok.injEq] at h
    simp [h]
  | cons first rest ih =>
    intro slots result h slot
    simp only [insertSlots, bind_eq_ok] at h
    obtain ⟨next, hnext, hrest⟩ := h
    rw [ih hrest, mem_insertSlot hnext, mem_cons, or_assoc]

/-! ## Acquired leases -/

variable [Codec]

/-- What is known of a lease right after it was acquired. -/
structure Acquired (set : PoolMemberSet) (plane after : DataPlane) (lease : CatalogDataLease) :
    Prop where
  loaded : ∃ memberId geometry loaded, catalogGeometry set = .ok geometry ∧
    loadAuthorityCatalog (plane.metadata memberId) set.authority geometry = .ok loaded ∧
    loaded.validated = lease.catalog
  same : SameContents plane after
  keeps : KeepsClaims plane after
  held : ClaimsHeld after lease.claims
  member : ∀ claim ∈ lease.claims, (plane.claims claim.memberId).current = 0 ∧
    ∃ supplied, dataMemberForWrite set claim.slot = .ok supplied ∧ supplied.id = claim.memberId
  slots : ∀ slot, slot ∈ mappedSlots lease.catalog ↔ ∃ claim ∈ lease.claims, claim.slot = slot
  valid : lease.validate set = .ok ()

variable {plane after : DataPlane} {set : PoolMemberSet} {unreadable : Id → Bool}
  {loaded : LoadedCatalog} {lease : CatalogDataLease} {geometry : List MemberGeometry}

theorem firstLoaded_eq_ok {readers : List Id} : ∀ {first : Option DataError},
      firstLoaded set plane unreadable geometry readers first = .ok loaded →
      ∃ memberId ∈ readers,
        loadAuthorityCatalog (plane.metadata memberId) set.authority geometry = .ok loaded := by
  induction readers with
  | nil =>
    intro first h
    cases first <;> simp [firstLoaded] at h
  | cons memberId rest ih =>
    intro first h
    unfold firstLoaded at h
    have later : ∀ {first : Option DataError},
        firstLoaded set plane unreadable geometry rest first = .ok loaded →
        ∃ found ∈ memberId :: rest,
          loadAuthorityCatalog (plane.metadata found) set.authority geometry = .ok loaded := by
      intro first hrest
      obtain ⟨found, hmem, hfound⟩ := ih hrest
      exact ⟨found, mem_cons_of_mem _ hmem, hfound⟩
    split at h
    · exact later h
    split at h
    case h_1 result hload =>
      rw [Except.ok.injEq] at h
      exact ⟨memberId, mem_cons_self, by rw [hload, h]⟩
    case h_2 => exact later h

theorem loadCatalog_eq_ok (h : loadCatalog set plane unreadable = .ok loaded) :
    ∃ memberId geometry, catalogGeometry set = .ok geometry ∧
      loadAuthorityCatalog (plane.metadata memberId) set.authority geometry = .ok loaded := by
  simp only [loadCatalog, ok_iff] at h
  obtain ⟨mode, -, -, -, -, geometry, hgeometry, hfirst⟩ := h
  obtain ⟨memberId, -, hload⟩ := firstLoaded_eq_ok hfirst
  exact ⟨memberId, geometry, hgeometry, hload⟩

theorem acquire_eq_ok (h : CatalogDataLease.acquire set plane unreadable = (after, .ok lease)) :
    Acquired set plane after lease := by
  unfold CatalogDataLease.acquire at h
  split at h
  case h_1 => simp at h
  rename_i bound slots hprepare
  simp only [CatalogDataLease.prepare, ok_iff, Prod.mk.injEq] at hprepare
  obtain ⟨-, found, hbound, ordered, hslots, rfl, rfl⟩ := hprepare
  simp only [loadBoundCatalog, ok_iff] at hbound
  obtain ⟨mode, -, -, -, loaded, hloaded, digest, -, -, rfl⟩ := hbound
  rcases hclaim : claimSlots set plane ordered with ⟨claimed, claims, result⟩
  obtain ⟨hsame, hkeeps, hheld, hmembers, hclaimedSlots⟩ := claimSlots_spec hclaim
  rw [hclaim] at h
  split at h
  case h_1 => simp at h
  rename_i plane' claims' heq
  cases heq
  dsimp only at h
  split at h
  case h_1 => simp at h
  rename_i hvalid
  cases h
  obtain ⟨memberId, geometry, hgeometry, hload⟩ := loadCatalog_eq_ok hloaded
  refine ⟨⟨memberId, geometry, loaded, hgeometry, hload, rfl⟩, hsame, hkeeps, hheld,
    hmembers, ?_, hvalid⟩
  intro slot
  have hmem := mem_insertSlots hslots slot
  rw [mem_nil_iff, false_or] at hmem
  rw [← hmem, ← hclaimedSlots rfl, mem_map]

/-- The catalog of a lease passed all checks under the authority it was acquired under. -/
theorem Acquired.accepted (h : Acquired set plane after lease) :
    ∃ graph geometry, catalogGeometry set = .ok geometry ∧
      PoolCatalogGraph.Accepted (bindingOf set.authority) graph geometry [] lease.catalog := by
  obtain ⟨memberId, geometry, loaded, hgeometry, hload, hcatalog⟩ := h.loaded
  obtain ⟨-, haccepted, -⟩ := load_eq_ok hload
  exact ⟨loaded.graph, geometry, hgeometry, hcatalog ▸ haccepted⟩

theorem loadBoundCatalog_of_load
    {reader : Id} {others : List Id} (hmode : dataMode set = .ok .catalog)
    (haccess : set.dataAccess ≠ .unavailable) (hgeometry : catalogGeometry set = .ok geometry)
    (hreaders : catalogReaders set = reader :: others) (hreadable : unreadable reader = false)
    (hload : loadAuthorityCatalog (plane.metadata reader) set.authority geometry = .ok loaded) :
    loadBoundCatalog set plane unreadable = .ok ⟨set.authority.generation,
      set.authority.historyDigest, set.authority.dataRootDigest, loaded.validated⟩ := by
  obtain ⟨-, haccepted, -⟩ := load_eq_ok hload
  have hinputs := haccepted.inputs
  have hbound := haccepted.bound
  simp only [validateInputs, ok_iff, not_or] at hinputs
  simp only [validateRootBinding, ok_iff, ne_eq, not_not] at hbound
  obtain ⟨-, -, _, -, hnonzero, -⟩ := hinputs
  obtain ⟨hgeneration, -, digest, hdigest, hnamed, -⟩ := hbound
  have hfirst : firstLoaded set plane unreadable geometry (catalogReaders set) none =
      .ok loaded := by
    rw [hreaders]
    simp only [firstLoaded, hreadable, Bool.false_eq_true, if_false, hload]
  have hcatalog : loadCatalog set plane unreadable = .ok loaded := by
    simp only [loadCatalog, ok_iff, ne_eq, not_not]
    exact ⟨.catalog, hmode, rfl, hnonzero.1, haccess, geometry, hgeometry, hfirst⟩
  simp only [loadBoundCatalog, ok_iff, not_or, not_not, ne_eq]
  exact ⟨.catalog, hmode, rfl, hnonzero, loaded, hcatalog, digest, hdigest,
    ⟨hgeneration.symm, hnamed.symm⟩, rfl⟩

/-- A lease is acquired once the catalog is bound and its members are claimed. -/
theorem acquire_of_claims {catalog : ValidatedCatalog} {claims : List ClaimedMember}
    (hwritable : set.controlWrite ≠ none) (haccess : set.dataAccess = .readWrite)
    (hbound : loadBoundCatalog set plane unreadable = .ok ⟨set.authority.generation,
      set.authority.historyDigest, set.authority.dataRootDigest, catalog⟩)
    (hslots : insertSlots [] (mappedSlots catalog) = .ok slots)
    (hclaims : claimSlots set plane slots = (after, claims, .ok ())) :
    CatalogDataLease.acquire set plane unreadable = (after, .ok ⟨set.authority.generation,
      set.authority.historyDigest, set.authority.dataRootDigest, catalog, claims, false,
      false⟩) := by
  have hopen : ¬ (set.controlWrite = none ∨ set.dataAccess ≠ .readWrite) := by
    rintro (hnone | hother)
    · exact hwritable hnone
    · exact hother haccess
  have hprepare : CatalogDataLease.prepare set plane unreadable =
      .ok (⟨set.authority.generation, set.authority.historyDigest, set.authority.dataRootDigest,
        catalog⟩, slots) := by
    simp only [CatalogDataLease.prepare, ok_iff]
    exact ⟨hopen, _, hbound, slots, hslots, rfl⟩
  have hvalid : CatalogDataLease.validate ⟨set.authority.generation, set.authority.historyDigest,
      set.authority.dataRootDigest, catalog, claims, false, false⟩ set = .ok () := by
    simp only [CatalogDataLease.validate, ok_iff]
    exact ⟨by simp, by simp, by simp, hopen⟩
  simp only [CatalogDataLease.acquire, hprepare, hclaims, hvalid]

end PoolCatalogVolume

end Zettide
