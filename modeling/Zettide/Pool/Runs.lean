import Zettide.Pool.Turns

/-! # What holds in every run of a pool

In every world that a pool can get to, each disk is unreadable or stands for a log, and an open
session has the disks as they are. -/

namespace Zettide

open List PoolMemberSet ReplicatedJournal Device

variable [Blake3]

/-! ## Opening a set -/

variable {set : PoolMemberSet} {load : Id → CatalogLoad} {supplied : List Supplied}
  {devices : List Device} {mode : OpenMode} {device : Device} {intent : OpenIntent}
  {storage : Storage} {trusted : Id}

omit [Blake3] in
theorem invalidateAll_contents {memberIds : List Id} : ∀ set : PoolMemberSet,
    contents (memberIds.foldl invalidateCatalogVoter set).supplied = contents set.supplied := by
  induction memberIds with
  | nil => exact fun _ => rfl
  | cons memberId rest ih =>
    intro set
    rw [foldl_cons, ih]
    exact setStatus_contents set.supplied memberId .catalogFailed

omit [Blake3] in
theorem repairAll_contents {members : List Supplied} : ∀ set : PoolMemberSet,
      contents (members.foldl (repairCatalogVoter load) set).supplied = contents set.supplied := by
  induction members with
  | nil => exact fun _ => rfl
  | cons member rest ih =>
    intro set
    rw [foldl_cons, ih]
    unfold repairCatalogVoter
    split
    · exact setStatus_contents set.supplied member.id .catalogFailed
    · rfl

omit [Blake3] in
theorem reopenCatalog_contents {after : PoolMemberSet}
    (h : set.reopenCatalog intent load = .ok after) :
    contents after.supplied = contents set.supplied := by
  unfold reopenCatalog at h
  split at h
  · cases h
    rfl
  simp only [ok_iff] at h
  obtain ⟨_, _, _, _, _, hafter⟩ := h
  split at hafter
  · cases hafter
    exact invalidateAll_contents set
  · cases hafter
    rw [repairAll_contents]
    exact invalidateAll_contents set

/-- Opening a set gives the members that were scanned. -/
theorem openStorages_contents (h : openStorages devices intent load = .ok set) :
    (devices.map identity).Nodup ∧ contents set.supplied = contents ((devices.map (scanMember
        (if intent = .writable then .writable else .readOnly))).filterMap value) := by
  simp only [openStorages, scanStorages, finishOpen, ok_iff, not_not] at h
  obtain ⟨_, ⟨_, hdistinct, rfl⟩, _, _, _, _, _, opened, hreopen, _, rfl⟩ := h
  refine ⟨hdistinct, (reopenCatalog_contents hreopen).trans ?_⟩
  exact contents_map (fun _ => rfl) fun _ => rfl

/-! ## Disks -/

omit [Blake3] in
/-- A disk that no header copy can be read from does not open. -/
theorem Unreadable.not_opened (h : Unreadable storage)
    {member : Member} (hopen : Member.openStorage storage mode = .ok member) : False := by
  have hA := fun header => h .a header
  have hB := fun header => h .b header
  unfold Member.openStorage MemberFormat.select at hopen
  cases hcopyA : storage.copyA with
  | bytes header => exact hA header hcopyA
  | damaged faultA =>
    cases hcopyB : storage.copyB with
    | bytes header => exact hB header hcopyB
    | damaged faultB =>
      simp [hcopyA, hcopyB, MemberFormat.decodeCandidate, bind, Except.bind] at hopen

/-- **A formatted disk that is scanned gives a sound member, under the identity of the disk.** -/
theorem scanMember_sound {supplied : Supplied}
    (formatted : Formatted device.identity device.storage)
    (h : scanMember mode device = .ok supplied) :
    supplied.Sound ∧ supplied.id = device.identity ∧ supplied.member.storage = device.storage := by
  simp only [scanMember, ok_iff] at h
  obtain ⟨member, hopen, _, history, _, _, rfl⟩ := h
  rcases formatted with hunreadable | ⟨log, first, journaled, roots, owner⟩
  · exact (hunreadable.not_opened hopen).elim
  obtain ⟨found, hfound, hstorage, _, _, _, opened⟩ := openStorage_of_journaled journaled mode
  obtain rfl := Except.ok.inj (hfound.symm.trans hopen)
  refine ⟨⟨log, first, ⟨opened, by simp⟩, roots⟩, ?_, hstorage⟩
  -- the first record of the log names its owner
  obtain ⟨birth, rest, rfl⟩ := exists_cons_of_ne_nil
    (ne_nil_of_length_pos journaled.holds.length_pos)
  exact (opened.linked.owner birth (by simp)).2.symm.trans (owner birth (by simp))

section

variable (formatted : ∀ device ∈ devices, Formatted device.identity device.storage)
include formatted

theorem scanned_sound (distinct : (devices.map identity).Nodup) :
    SoundMembers ((devices.map (scanMember mode)).filterMap value) ∧
      ∀ member ∈ (devices.map (scanMember mode)).filterMap value,
        ∃ device ∈ devices, member.id = device.identity ∧
          member.member.storage = device.storage := by
  rw [filterMap_map]
  have hsound : ∀ device ∈ devices, ∀ member, (value ∘ scanMember mode) device = some member →
        member.Sound ∧ member.id = device.identity ∧ member.member.storage = device.storage :=
    fun device hdevice member hscan =>
      scanMember_sound (formatted device hdevice) ((value_eq_some _ _).mp hscan)
  refine ⟨⟨?_, fun member hmember => ?_⟩, fun member hmember => ?_⟩
  · exact distinct.sublist (map_filterMap_sublist fun device hdevice member hscan =>
      (hsound device hdevice member hscan).2.1)
  · obtain ⟨device, hdevice, hscan⟩ := mem_filterMap.mp hmember
    exact (hsound device hdevice member hscan).1
  · obtain ⟨device, hdevice, hscan⟩ := mem_filterMap.mp hmember
    exact ⟨device, hdevice, (hsound device hdevice member hscan).2⟩

/-- A set opened from formatted disks has sound members over these disks. -/
theorem openStorages_sound (h : openStorages devices intent load = .ok set) :
    SoundMembers set.supplied ∧ ∀ member ∈ set.supplied, ∃ device ∈ devices,
      member.id = device.identity ∧ member.member.storage = device.storage := by
  obtain ⟨hdistinct, hcontents⟩ := openStorages_contents h
  obtain ⟨hsound, hdevices⟩ := scanned_sound formatted hdistinct
  refine ⟨hsound.of_contents hcontents, fun member hmember => ?_⟩
  obtain ⟨scanned, hscanned, hsame, _⟩ := mem_of_contents hcontents hmember
  obtain ⟨device, hdevice, hid, hstorage⟩ := hdevices scanned hscanned
  refine ⟨device, hdevice, ?_, ?_⟩
  · rw [← hid, Supplied.id, Supplied.id, hsame]
  · rw [← hstorage, hsame]

end

theorem openAdministrativeRecovery_contents
    (h : openAdministrativeRecovery device trusted = .ok set) :
    ∃ scanned, scanMember .writable device = .ok scanned ∧
      contents set.supplied = contents [scanned] := by
  simp only [openAdministrativeRecovery, ok_iff] at h
  obtain ⟨scanned, hscan, _, _, _, _, _, _, _, rfl⟩ := h
  exact ⟨scanned, hscan, setStatus_contents _ trusted .activeVoter⟩

theorem openAdministrativeRecovery_sound (formatted : Formatted device.identity device.storage)
    (h : openAdministrativeRecovery device trusted = .ok set) :
    SoundMembers set.supplied ∧ ∀ member ∈ set.supplied,
      member.id = device.identity ∧ member.member.storage = device.storage := by
  obtain ⟨scanned, hscan, hcontents⟩ := openAdministrativeRecovery_contents h
  obtain ⟨hsound, hid, hstorage⟩ := scanMember_sound formatted hscan
  have hone : SoundMembers [scanned] := ⟨by simp, by simpa using hsound⟩
  refine ⟨hone.of_contents hcontents, fun member hmember => ?_⟩
  obtain ⟨found, hfound, hsame, _⟩ := mem_of_contents hcontents hmember
  obtain rfl := mem_singleton.mp hfound
  exact ⟨by rw [← hid, Supplied.id, Supplied.id, hsame], by rw [← hstorage, hsame]⟩

open ReplicatedJournal in
/-- Every call is a sequence of turns. -/
theorem Call.turns (c : ReplicatedJournal) (call : Call) : Turns True c (call.run c) := by
  cases call with
  | generation => exact commitCatalogGeneration_turns ..
  | membership => exact commitMembership_turns ..
  | checkpoint => exact commitAuthorityCheckpoint_turns ..
  | rollover => exact rolloverAuthorityCheckpoint_turns ..
  | resume => exact resumeRollover_turns ..
  | catchUp => exact catchUpControlForMember_turns ..
  | bootstrap => exact bootstrapMember_turns ..

/-! ## Worlds -/

namespace World

/-- The disks are formatted, and the members of an open session are sound and have their disks. -/
structure Formed (world : World) : Prop where
  formatted : ∀ memberId storage, world.disks memberId = some storage →
    Formatted memberId storage
  sound : ∀ coordinator, world.session = some coordinator →
    SoundMembers coordinator.set.supplied
  inStep : ∀ coordinator, world.session = some coordinator →
    ∀ member ∈ coordinator.set.supplied, world.disks member.id = some member.member.storage

variable {world : World} {supplied : List Supplied} {coordinator : ReplicatedJournal}
  {disks : Id → Option Storage}

omit [Blake3] in
/-- The disk of a member of the set is what the member left. -/
theorem flush_mem
    (distinct : (supplied.map Supplied.id).Nodup) {member : Supplied} (hmember : member ∈ supplied) :
    flush disks supplied member.id = some member.member.storage := by
  unfold flush
  cases hfind : findSuppliedMember supplied member.id with
  | none => exact (List.find?_eq_none.mp hfind member hmember (by simp)).elim
  | some found =>
    obtain rfl := PoolMemberSet.findSuppliedMember_unique distinct hfind hmember rfl
    rfl

/-- Writing back a set of sound members keeps the disks formatted. -/
theorem flush_formatted
    (formatted : ∀ memberId storage, disks memberId = some storage → Formatted memberId storage)
    (sound : SoundMembers supplied) {memberId : Id}
    (h : flush disks supplied memberId = some storage) : Formatted memberId storage := by
  unfold flush at h
  split at h
  case h_1 member hfind =>
    cases h
    obtain rfl : member.id = memberId := by simpa using find?_some hfind
    exact (sound.sound member (mem_of_find?_eq_some hfind)).formatted
  case h_2 => exact formatted memberId storage h

open ReplicatedJournal in
theorem Formed.called (h : world.Formed) {before : ReplicatedJournal}
    (hsession : world.session = some before) (turns : Turns True before coordinator) :
    (world.after coordinator).Formed := by
  have sound := Turns.sound turns (h.sound before hsession)
  refine ⟨fun _ _ hdisk => flush_formatted h.formatted sound hdisk, fun found hfound => ?_,
    fun found hfound member hmember => ?_⟩
  · cases hfound
    exact sound
  · cases hfound
    exact flush_mem sound.distinct hmember

/-- A coordinator opened on a set of sound members over the disks of the world. -/
theorem Formed.opened (h : world.Formed) (sound : SoundMembers set.supplied)
    (disks : ∀ member ∈ set.supplied, world.disks member.id = some member.member.storage)
    (hopen : openSet set = .ok coordinator) :
    Formed { world with session := some coordinator } := by
  obtain ⟨hsound, seats, hseats⟩ := openSet_sound sound hopen
  refine ⟨h.formatted, fun found hfound => ?_, fun found hfound member hmember => ?_⟩
  · cases hfound
    exact hsound
  · cases hfound
    rw [hseats] at hmember
    obtain ⟨before, hbefore, rfl⟩ := mem_map.mp hmember
    exact disks before hbefore

open ReplicatedJournal in
theorem Formed.performed (h : world.Formed) {c : ReplicatedJournal}
    (hsession : world.session = some c) {call : Call} (allowed : call.Allowed world) :
    (world.perform c call).Formed := by
  cases call with
  | generation | membership | checkpoint | rollover | resume | catchUp =>
    exact h.called hsession (Call.turns c _)
  | bootstrap header record outcome =>
    have arrives := bootstrapMember_arrives (h.sound _ hsession) header record outcome
    -- the disk of the target was not there, so no member of the set had its identifier
    have hfresh : header.memberId ∉ c.set.supplied.map Supplied.id := by
      intro hmem
      obtain ⟨member, hmember, hid⟩ := List.mem_map.mp hmem
      have hdisk := h.inStep _ hsession member hmember
      rw [hid, show world.disks header.memberId = none from allowed] at hdisk
      cases hdisk
    refine ⟨fun memberId storage hdisk => ?_, fun found hfound => ?_,
      fun found hfound member hmember => ?_⟩
    · simp only [perform, Call.file, Call.run] at hdisk
      split at hdisk
      case isTrue hid => exact hid ▸ arrives.formatted storage hdisk
      case isFalse => exact flush_formatted h.formatted arrives.sound hdisk
    · cases hfound
      exact arrives.sound
    · cases hfound
      simp only [perform, Call.file, Call.run]
      split
      case isTrue hid =>
        rcases arrives.arrival member hmember with hold | ⟨_, hfile⟩
        · exact absurd (hid ▸ hold) hfresh
        · exact hfile
      case isFalse => exact flush_mem arrives.sound.distinct hmember

/-- **A step keeps the world formed.** -/
theorem Formed.step {next : World} (h : world.Formed) (step : Step world next) : next.Formed := by
  rcases step_iff.mp step with session | ⟨c, call, hsession, allowed, rfl⟩
  · cases session with
      | openPool devices load set coordinator _ supplies hset hopen =>
        obtain ⟨hsound, hdevices⟩ := openStorages_sound
          (fun device hdevice => h.formatted _ _ (supplies device hdevice)) hset
        refine h.opened hsound (fun member hmember => ?_) hopen
        obtain ⟨device, hdevice, hid, hstorage⟩ := hdevices member hmember
        rw [hid, hstorage]
        exact supplies device hdevice
      | openRecovery device trusted set coordinator _ supplies hset hopen =>
        have hdisk := supplies device (by simp)
        obtain ⟨hsound, hmembers⟩ := openAdministrativeRecovery_sound (h.formatted _ _ hdisk) hset
        refine h.opened hsound (fun member hmember => ?_) hopen
        obtain ⟨hid, hstorage⟩ := hmembers member hmember
        rw [hid, hstorage]
        exact hdisk
      | reopen coordinator next hsession hopen =>
        exact h.opened (h.sound _ hsession) (h.inStep _ hsession) hopen
      | close => exact ⟨h.formatted, by simp, by simp⟩
  · exact h.performed hsession allowed

theorem Initial.formed (h : world.Initial) : world.Formed := by
  refine ⟨fun memberId storage hdisk => ?_, ?_, ?_⟩
  · obtain ⟨header, payload, outcome, result, rfl, hcreate⟩ := h.created memberId storage hdisk
    simp only [Member.createPoolStorage, ok_iff] at hcreate
    obtain ⟨record, hvalid, hmade⟩ := hcreate
    have hformatted := (birth_of_genesis hvalid).formatted outcome
    rw [hmade] at hformatted
    exact hformatted
  · simp [h.closed]
  · simp [h.closed]

/-- **Every world that a pool can get to is formed.** -/
theorem Reachable.formed (h : world.Reachable) : world.Formed := by
  obtain ⟨start, initial, run⟩ := h
  induction run with
  | refl => exact initial.formed
  | tail _ step ih => exact ih.step step

end World

end Zettide
