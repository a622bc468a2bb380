import Zettide.Pool.Changes

/-! # Opening a coordinator

A set that is opened for writing names members whose journals end with the authority. A coordinator
that is opened on it stands there. -/

namespace Zettide

open Option List PoolAuthority PoolMemberSet Journal PoolTopology Except

variable [Blake3]

/-- The members that the set names are voters whose journals end with the authority. -/
structure PoolMemberSet.Ready (set : PoolMemberSet) : Prop where
  sound : SoundMembers set.supplied
  ends : ∀ ready, set.controlWrite = some ready → ∀ member ∈ set.supplied,
    member.id ∈ ready.activeMembers → member.Ends set.authority.historyDigest
  voters : ∀ ready, set.controlWrite = some ready → ∀ memberId ∈ ready.activeMembers,
    isVoter set.authority.topology memberId = true
  listed : ∀ ready, set.controlWrite = some ready → ∀ memberId ∈ ready.activeMembers,
    ∃ member ∈ set.supplied, member.id = memberId

namespace ReplicatedJournal

variable {set : PoolMemberSet} {count : Nat} {seats : List OpenSeat}
  {c : ReplicatedJournal} {activeMembers : List Id} {member : Supplied}

/-- A coordinator that stands leaves a set that can be opened again. -/
theorem Standing.ready (h : c.Standing) : c.set.Ready := by
  have hactive : ∀ ready, c.set.controlWrite = some ready →
      ∀ member ∈ c.set.supplied, member.id ∈ ready.activeMembers → member.Active := by
    intro ready hready member hmember hlisted
    obtain ⟨other, hother, hid, hseat⟩ := h.listed ready hready member.id hlisted
    obtain rfl := inj_on_of_nodup_map h.sound.distinct hother hmember hid
    exact hseat
  refine ⟨h.sound, ?_, ?_, ?_⟩
  · intro ready hready member hmember hlisted
    obtain ⟨journal, hseat⟩ := hactive ready hready member hmember hlisted
    exact (h.stands (by simp [hready]) member hmember).ends (h.sound.sound member hmember) hseat
  · intro ready hready memberId hlisted
    obtain ⟨member, hmember, rfl, journal, hseat⟩ := h.listed ready hready memberId hlisted
    exact h.voters (by simp [hready]) member hmember journal hseat
  · intro ready hready memberId hlisted
    obtain ⟨member, hmember, hid, _⟩ := h.listed ready hready memberId hlisted
    exact ⟨member, hmember, hid⟩

theorem openSeats_complete {supplied : List Supplied} (h : openSeats count supplied = .ok seats) :
    seats.map OpenSeat.memberId = supplied.map Supplied.id := by
  induction supplied generalizing count seats with
  | nil =>
    simp only [openSeats, ok.injEq] at h
    subst h
    rfl
  | cons member rest ih =>
    simp only [openSeats, ok_iff] at h
    obtain ⟨_, journal, _, others, hothers, rfl⟩ := h
    simp [ih hothers]

theorem takeSeat_some (distinct : (set.supplied.map Supplied.id).Nodup)
    (hseats : openSeats count (set.supplied.filter fun member => member.id ∈ activeMembers) =
      .ok seats) (hmember : member ∈ set.supplied) {seat : Seat}
    (h : (takeSeat seats member).seat = some seat) :
    member.id ∈ activeMembers ∧ openMember member.member = .ok seat.journal := by
  obtain ⟨found, hfind, rfl⟩ := map_eq_some_iff.mp h
  obtain ⟨other, hother, hid, hopen⟩ := openSeats_mem hseats found (mem_of_find?_eq_some hfind)
  obtain ⟨hmem, hactive⟩ := mem_filter.mp hother
  have hfound : found.memberId = member.id := by simpa using find?_some hfind
  obtain rfl := inj_on_of_nodup_map distinct hmem hmember (hid.trans hfound)
  exact ⟨by simpa using hactive, hopen⟩

theorem takeSeat_of_mem
    (hseats : openSeats count (set.supplied.filter fun member => member.id ∈ activeMembers) =
      .ok seats) (hmember : member ∈ set.supplied) (hactive : member.id ∈ activeMembers) :
    ∃ journal, (takeSeat seats member).seat = some ⟨journal, true⟩ := by
  have hmem : member.id ∈ seats.map OpenSeat.memberId := by
    rw [openSeats_complete hseats]
    exact mem_map_of_mem (mem_filter.mpr ⟨hmember, by simpa using hactive⟩)
  obtain ⟨seat, hseat, hid⟩ := mem_map.mp hmem
  cases hfind : seats.find? (fun seat => seat.memberId = member.id) with
  | none => exact (find?_eq_none.mp hfind seat hseat (by simpa using hid)).elim
  | some found => exact ⟨found.journal, by simp [takeSeat, hfind]⟩

/-- The participants of a new coordinator are those whose journals were opened. -/
theorem openSet_ordered (distinct : (set.supplied.map Supplied.id).Nodup)
    (hopen : openSet set = .ok c) : c.Ordered := by
  simp only [openSet, ok_iff] at hopen
  obtain ⟨ready, _, seats, hseats, _, rfl⟩ := hopen
  have hids := openSeats_complete hseats
  refine ⟨?_, fun memberId => ?_⟩
  · rw [hids]
    exact distinct.sublist (filter_sublist.map _)
  · rw [hids]
    constructor
    · intro hmem
      obtain ⟨member, hmember, hid⟩ := mem_map.mp hmem
      obtain ⟨hsupplied, hactive⟩ := mem_filter.mp hmember
      obtain ⟨journal, hseat⟩ := takeSeat_of_mem hseats hsupplied (by simpa using hactive)
      exact ⟨_, mem_map_of_mem hsupplied, hid, by simp [hseat]⟩
    · rintro ⟨taken, htaken, rfl, hseated⟩
      obtain ⟨member, hmember, rfl⟩ := mem_map.mp htaken
      obtain ⟨seat, hseat⟩ := isSome_iff_exists.mp hseated
      obtain ⟨hactive, _⟩ := takeSeat_some distinct hseats hmember hseat
      exact mem_map.mpr ⟨member, mem_filter.mpr ⟨hmember, by simpa using hactive⟩, rfl⟩

/-- **A coordinator that is opened on a ready set stands at its authority.** -/
theorem openSet_standing (h : set.Ready) (hopen : openSet set = .ok c) :
    c.Standing ∧ c.set.controlWrite.isSome := by
  have hsound := (openSet_sound h.sound hopen).1
  have hordered := openSet_ordered h.sound.distinct hopen
  simp only [openSet, ok_iff] at hopen
  obtain ⟨ready, hready, seats, hseats, _, rfl⟩ := hopen
  refine ⟨⟨hsound, hordered, ?_, ?_, ?_⟩, by simp [hready]⟩
  · intro _ taken htaken journal hseat
    obtain ⟨member, hmember, rfl⟩ := mem_map.mp htaken
    obtain ⟨hactive, hjournal⟩ := takeSeat_some h.sound.distinct hseats hmember hseat
    have hends := h.ends ready hready member hmember hactive
    exact ⟨hends.live, hends.writable, hends.tail journal hjournal⟩
  · intro _ taken htaken journal hseat
    obtain ⟨member, hmember, rfl⟩ := mem_map.mp htaken
    obtain ⟨hactive, _⟩ := takeSeat_some h.sound.distinct hseats hmember hseat
    exact h.voters ready hready member.id hactive
  · intro found hfound memberId hlisted
    obtain rfl := some.inj (hready.symm.trans hfound)
    obtain ⟨member, hmember, hid⟩ := h.listed ready hready memberId hlisted
    obtain ⟨journal, hseat⟩ := takeSeat_of_mem hseats hmember (hid ▸ hlisted)
    exact ⟨_, mem_map_of_mem hmember, hid, journal, hseat⟩

end ReplicatedJournal

/-! ## Opening a set -/

variable {supplied : Supplied} {intent : OpenIntent} {history : HistoryScan} {device : Device}

/-- A member whose scan ends with the event ends with it. -/
theorem Supplied.Sound.ends (h : supplied.Sound) (live : supplied.member.frozen = false)
    (writable : supplied.member.mode = .writable)
    (hscan : scanHistory supplied.member.header supplied.member.storage.slots = .ok history)
    {tail : Record} (htail : history.scanResult.tail = some tail) :
    supplied.Ends tail.historyDigest := by
  refine ⟨live, writable, fun journal hopen => ⟨tail, ?_, rfl⟩⟩
  obtain ⟨log, first, tracks, _⟩ := h
  obtain ⟨anchor, names⟩ := tracks.opened.names live
  obtain ⟨state, hstate, view, _⟩ := tracks.opened.scan names
  obtain rfl := ok.inj (hstate.symm.trans hscan)
  rw [((tracks.opened.openMember names hopen).view live).tail, ← htail]
  exact view.tail.symm

/-- The history of a scanned member is a scan of it. -/
def Supplied.Scanned (supplied : Supplied) : Prop := ∃ history, supplied.history = some history ∧
    scanHistory supplied.member.header supplied.member.storage.slots = .ok history

theorem scanMember_scanned {mode : OpenMode}
    (h : scanMember mode device = .ok supplied) : supplied.Scanned := by
  simp only [scanMember, ok_iff] at h
  obtain ⟨member, _, _, history, hscan, _, rfl⟩ := h
  exact ⟨history, rfl, hscan⟩

/-- **An active voter ends with the authority.** -/
theorem classifyMember_active {selected : Authority} (sound : supplied.Sound)
    (scanned : supplied.Scanned)
    (h : classifyMember selected intent supplied = .activeVoter) :
    supplied.Ends selected.historyDigest ∧ isVoter selected.topology supplied.id = true := by
  obtain ⟨history, hhistory, hscan⟩ := scanned
  unfold classifyMember at h
  rw [hhistory] at h
  rcases hfind : findMember selected.topology supplied.id with _ | descriptor
  · simp [hfind] at h
  simp only [hfind] at h
  split at h
  · cases h
  rcases htail : history.scanResult.tail with _ | tail
  · simp [htail] at h
  simp only [htail] at h
  split at h
  case isFalse => cases h
  case isTrue hwrite =>
    simp only [canWrite, Bool.and_eq_true, decide_eq_true_eq, Bool.not_eq_true'] at hwrite
    obtain ⟨⟨⟨⟨⟨⟨_, hrole⟩, hmode⟩, hlive⟩, _⟩, _⟩, hevent⟩ := hwrite
    rw [← hevent]
    exact ⟨sound.ends hlive hmode hscan htail, isVoter_iff.mpr ⟨descriptor, hfind, hrole⟩⟩

namespace PoolMemberSet

theorem classifyMembers_ready {count : Nat} {scanned : List Supplied} (sound : SoundMembers scanned)
    (hscanned : ∀ member ∈ scanned, member.Scanned) (selected : Authority) (intent : OpenIntent) :
    (classifyMembers count scanned selected intent).Ready := by
  have hsound : SoundMembers (classifyMembers count scanned selected intent).supplied :=
    ReplicatedJournal.SoundMembers.relabel sound (fun _ => rfl) fun _ => rfl
  have hlisted : ∀ ready, (classifyMembers count scanned selected intent).controlWrite =
      some ready → ∀ memberId ∈ ready.activeMembers, ∃ member ∈ scanned, member.id = memberId ∧
          classifyMember selected intent member = .activeVoter := by
    intro ready hready memberId hmem
    simp only [classifyMembers] at hready
    split at hready
    case isFalse => cases hready
    case isTrue =>
      cases hready
      obtain ⟨labelled, hlabelled, rfl⟩ := mem_map.mp hmem
      obtain ⟨hmember, hstatus⟩ := mem_filter.mp hlabelled
      obtain ⟨member, hfound, rfl⟩ := mem_map.mp hmember
      exact ⟨member, hfound, rfl, by simpa using hstatus⟩
  refine ⟨hsound, ?_, ?_, ?_⟩
  · intro ready hready labelled hlabelled hmem
    obtain ⟨member, hmember, hid, hactive⟩ := hlisted ready hready labelled.id hmem
    obtain ⟨before, hbefore, rfl⟩ := mem_map.mp hlabelled
    obtain rfl := inj_on_of_nodup_map sound.distinct hmember hbefore hid
    have hends := (classifyMember_active (sound.sound member hmember)
      (hscanned member hmember) hactive).1
    exact ⟨hends.live, hends.writable, hends.tail⟩
  · intro ready hready memberId hmem
    obtain ⟨member, hmember, rfl, hactive⟩ := hlisted ready hready memberId hmem
    exact (classifyMember_active (sound.sound member hmember) (hscanned member hmember) hactive).2
  · intro ready hready memberId hmem
    obtain ⟨member, hmember, rfl, _⟩ := hlisted ready hready memberId hmem
    exact ⟨_, mem_map_of_mem hmember, rfl⟩

variable {set : PoolMemberSet} {load : Id → CatalogLoad} {after : PoolMemberSet}

/-- A set with the same members that names fewer of them. -/
theorem Ready.mono (h : set.Ready) (same : contents after.supplied = contents set.supplied)
    (authority : after.authority = set.authority)
    (fewer : ∀ ready, after.controlWrite = some ready → ∃ before, set.controlWrite = some before ∧
      ready.activeMembers ⊆ before.activeMembers) : after.Ready := by
  refine ⟨h.sound.of_contents same, ?_, ?_, ?_⟩
  · intro ready hready member hmember hmem
    obtain ⟨before, hbefore, hsub⟩ := fewer ready hready
    obtain ⟨found, hfound, hsame, _⟩ := mem_of_contents same hmember
    rw [Supplied.id, ← hsame] at hmem
    have hends := h.ends before hbefore found hfound (hsub hmem)
    rw [authority]
    refine ⟨?_, ?_, ?_⟩
    · rw [← hsame]
      exact hends.live
    · rw [← hsame]
      exact hends.writable
    · rw [← hsame]
      exact hends.tail
  · intro ready hready memberId hmem
    obtain ⟨before, hbefore, hsub⟩ := fewer ready hready
    rw [authority]
    exact h.voters before hbefore memberId (hsub hmem)
  · intro ready hready memberId hmem
    obtain ⟨before, hbefore, hsub⟩ := fewer ready hready
    obtain ⟨found, hfound, hid⟩ := h.listed before hbefore memberId (hsub hmem)
    obtain ⟨member, hmember, hsame, _⟩ := mem_of_contents same.symm hfound
    refine ⟨member, hmember, ?_⟩
    rw [← hid, Supplied.id, Supplied.id, hsame]

theorem Ready.invalidate (h : set.Ready) (memberId : Id) :
    (set.invalidateCatalogVoter memberId).Ready := by
  refine h.mono (setStatus_contents set.supplied memberId .catalogFailed) rfl fun ready hready => ?_
  obtain ⟨before, hbefore, hkept⟩ := bind_eq_some_iff.mp hready
  simp only at hkept
  split at hkept
  · cases hkept
  · cases hkept
    exact ⟨before, hbefore, filter_subset_self _⟩

theorem Ready.invalidateAll {memberIds : List Id} : ∀ {set : PoolMemberSet}, set.Ready →
    (memberIds.foldl invalidateCatalogVoter set).Ready := by
  induction memberIds with
  | nil => exact fun h => h
  | cons memberId rest ih => exact fun h => ih (h.invalidate memberId)

theorem Ready.repairAll {members : List Supplied} : ∀ {set : PoolMemberSet}, set.Ready →
      (members.foldl (repairCatalogVoter load) set).Ready := by
  induction members with
  | nil => exact fun h => h
  | cons member rest ih =>
    intro set h
    refine ih ?_
    unfold repairCatalogVoter
    split
    · exact h.invalidate member.id
    · exact h

theorem Ready.reopenCatalog (h : set.Ready) (hopen : set.reopenCatalog intent load = .ok after) :
    after.Ready := by
  unfold PoolMemberSet.reopenCatalog at hopen
  split at hopen
  · cases hopen
    exact h
  simp only [ok_iff] at hopen
  obtain ⟨_, _, _, _, _, hafter⟩ := hopen
  split at hafter
  · cases hafter
    exact h.invalidateAll
  · cases hafter
    exact h.invalidateAll.repairAll

/-- **A set opened from formatted disks is ready.** -/
theorem openStorages_ready {devices : List Device}
    (formatted : ∀ device ∈ devices, Formatted device.identity device.storage)
    (h : openStorages devices intent load = .ok set) : set.Ready := by
  simp only [openStorages, scanStorages, finishOpen, ok_iff, not_not] at h
  obtain ⟨_, ⟨_, hdistinct, rfl⟩, _, _, selected, _, _, opened, hreopen, _, rfl⟩ := h
  refine (classifyMembers_ready (scanned_sound formatted hdistinct).1 (fun member hmember => ?_)
    selected intent).reopenCatalog hreopen
  obtain ⟨scanned, hscanned, hvalue⟩ := mem_filterMap.mp hmember
  obtain ⟨device, _, rfl⟩ := mem_map.mp hscanned
  exact scanMember_scanned ((value_eq_some _ _).mp hvalue)

/-- A recovery starts at the tail of the journal of a voter. -/
theorem selectAdministrativeRecovery_tail {authority : Authority}
    (h : selectAdministrativeRecovery history = .ok authority) :
    ∃ tail, history.scanResult.tail = some tail ∧ tail.historyDigest = authority.historyDigest ∧
      isVoter authority.topology history.memberId = true := by
  have hfinish : ∀ {missing replayed},
      finishLocalReplay history true missing replayed = .ok authority →
      ∃ tail, history.scanResult.tail = some tail ∧ tail.historyDigest = authority.historyDigest ∧
        isVoter authority.topology history.memberId = true := by
    intro missing replayed hreplay
    simp only [finishLocalReplay, if_true, ok_iff, not_not] at hreplay
    obtain ⟨tail, htail, hevent, hvoter, rfl⟩ := hreplay
    exact ⟨tail, htail, hevent, hvoter⟩
  unfold selectAdministrativeRecovery selectLocalRecoveryAuthority at h
  simp only [ok_iff] at h
  obtain ⟨_, h⟩ := h
  split at h
  · simp only [selectAnchoredAdministrativeRecovery, ok_iff] at h
    obtain ⟨_, _, _, _, _, _, _, _, _, hreplay⟩ := h
    exact hfinish hreplay
  split at h
  · cases h
  · simp only [ok_iff] at h
    obtain ⟨_, _, _, _, _, _, _, _, hreplay⟩ := h
    exact hfinish hreplay

/-- **A set opened for the recovery of a formatted disk is ready.** -/
theorem openAdministrativeRecovery_ready {trusted : Id}
    (formatted : Formatted device.identity device.storage)
    (h : openAdministrativeRecovery device trusted = .ok set) : set.Ready := by
  have hsound := (openAdministrativeRecovery_sound formatted h).1
  simp only [openAdministrativeRecovery, ok_iff, not_not] at h
  obtain ⟨scanned, hscan, rfl, history, hhistory, _, _, replayed, hreplay, rfl⟩ := h
  obtain ⟨found, hfound, hhistoryScan⟩ := scanMember_scanned hscan
  obtain rfl := some.inj (hhistory.symm.trans hfound)
  obtain ⟨tail, htail, hevent, hvoter⟩ := selectAdministrativeRecovery_tail hreplay
  have howner : history.memberId = scanned.id := by
    simp only [scanHistory, ok_iff] at hhistoryScan
    obtain ⟨_, _, _, rfl⟩ := hhistoryScan
    rfl
  have hends : scanned.Ends replayed.historyDigest := by
    have hmember := (scanMember_sound formatted hscan).1
    simp only [scanMember, ok_iff, Member.openStorage] at hscan
    obtain ⟨member, ⟨_, _, rfl⟩, _, _, _, _, rfl⟩ := hscan
    rw [← hevent]
    exact hmember.ends rfl rfl hhistoryScan htail
  refine ⟨hsound, ?_, ?_, ?_⟩
  · intro ready hready member hmember _
    obtain ⟨before, hbefore, rfl⟩ := mem_map.mp hmember
    obtain rfl : before = { scanned with status := _ } := mem_singleton.mp hbefore
    split <;> exact ⟨hends.live, hends.writable, hends.tail⟩
  · intro ready hready memberId hmem
    cases hready
    obtain rfl := mem_singleton.mp hmem
    rw [← howner]
    exact hvoter
  · intro ready hready memberId hmem
    cases hready
    obtain rfl := mem_singleton.mp hmem
    exact ⟨_, mem_map_of_mem (mem_map_of_mem mem_cons_self), by split <;> rfl⟩

end PoolMemberSet

end Zettide
