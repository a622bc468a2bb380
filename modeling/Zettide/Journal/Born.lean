import Zettide.Journal.Tracked
import Zettide.Journal.Create

/-! # Newly created members

The creation of a member writes its first record, then one header copy and then the other. Wherever
it stops, the storage has no readable header, or it stands for the log of the first record. -/

namespace Zettide

open Journal PoolGenesis List PoolTopology Member Storage WriteOutcome MemberFormat

variable [Blake3]

/-- A header and a record that a member can be created with. -/
structure Birth (header : Header) (record : Record) : Prop where
  valid : validate header = .ok ()
  pool : header.dynamicPool = true
  slots : header.control.length = 4096 * (header.control.length / 4096)
  room : 0 < header.control.length / 4096
  decoded : ControlRecord.decode record = .ok record
  owner : record.setId = header.setId ∧ record.memberId = header.memberId
  first : validateFirstRecord header record = .ok ()
  sequence : record.localSequence = 1
  unnamed : header.checkpointOffset = 0

variable {header : Header} {record : Record} {storage : Storage} {payload : GenesisPayload}
  {outcome : CreateOutcome} {member : Member}

theorem Birth.linked (h : Birth header record) :
    WellLinked header.setId header.memberId [record] := by
  refine ⟨?_, ?_, ?_, by simp, by simp⟩
  · intro other hother
    rw [mem_singleton.mp hother]
    exact h.decoded
  · intro other hother
    rw [mem_singleton.mp hother]
    exact h.owner
  · intro other hother
    obtain rfl : record = other := by simpa using hother
    exact h.sequence

/-- The control region of a new member. -/
def bornSlots (header : Header) (record : Record) : List Slot :=
  (replicate (header.control.length / 4096) Slot.zero).set 0 (.bytes record)

omit [Blake3] in
theorem length_bornSlots (header : Header) (record : Record) :
    (bornSlots header record).length = header.control.length / 4096 := by
  simp [bornSlots]

section

variable (h : Birth header record)
include h

theorem Birth.read (slot : Nat) :
    readSlot (bornSlots header record) slot = if slot = 0 then .bytes record else .zero := by
  unfold bornSlots
  rw [readSlot_set _ _ _ _ (by simpa using h.room)]
  by_cases hslot : slot = 0
  · simp [hslot]
  rw [if_neg hslot, if_neg hslot]
  unfold readSlot
  rw [getD_eq_getElem?_getD, getElem?_replicate]
  split <;> rfl

theorem Birth.holds : Holds (bornSlots header record) [record] 1 := by
  refine ⟨by omega, by simp, by simp, ?_, ?_, ?_⟩
  · intro other hother
    obtain rfl : record = other := by simpa using hother
    simp [h.read]
  · intro index other hindex hother
    have hlt := (List.getElem?_eq_some_iff.mp hother).1
    simp only [List.length_singleton] at hlt
    omega
  · intro slot other hpos hread
    rw [h.read, if_neg (by omega)] at hread
    cases hread

theorem Birth.names : HeaderNames header (bornSlots header record).length [record] 1 none := by
  refine ⟨⟨h.valid, h.pool, ?_, ?_, h.linked⟩, ?_, .inl rfl⟩
  · rw [length_bornSlots]
    exact h.slots
  · intro other hother
    obtain rfl : record = other := by simpa using hother
    exact h.first
  · simp [Named, hintSlot, h.unnamed]

/-- A storage whose header copies are the birth header or unreadable. -/
theorem Birth.journaled (slots : storage.slots = bornSlots header record)
    (copies : ∀ source found, storage.copyAt source = .bytes found → found = header)
    (readable : ∃ source, storage.copyAt source = .bytes header) :
    Journaled storage [record] 1 := by
  obtain ⟨source, hsource⟩ := readable
  refine ⟨slots ▸ h.holds, ?_, ?_, ⟨source, header, hsource⟩⟩
  · intro other found hfound
    rw [copies other found hfound, slots]
    exact ⟨none, h.names⟩
  · intro a b hA hB
    rw [copies .a a hA, copies .b b hB]
    exact ⟨rfl, rfl, fun _ => rfl⟩

end

/-- No header copy can be read. -/
def Unreadable (storage : Storage) : Prop := ∀ source header, storage.copyAt source ≠ .bytes header

/-- **Wherever a creation stops, the new member has no readable header or stands for the log of its
first record.** -/
theorem createWithFirstRecord_born (h : Birth header record) (outcome : CreateOutcome) :
    Unreadable (createWithFirstRecord header record outcome).1 ∨
      Journaled (createWithFirstRecord header record outcome).1 [record] 1 := by
  unfold createWithFirstRecord
  by_cases hrecord : outcome.record.succeeds = true
  · have hdone := eq_done_of_succeeds hrecord
    by_cases hB : outcome.headerB.succeeds = true
    · have hdoneB := eq_done_of_succeeds hB
      right
      -- copy B is the header, copy A is the header or unreadable
      cases hA : outcome.headerA <;>
        · refine h.journaled ?_ ?_ ⟨.b, ?_⟩
          · simp [hdone, hdoneB, WriteOutcome.succeeds, leaves, bornSlots, blankStorage]
          · intro source found hfound
            cases source <;> simp_all [Storage.copyAt, WriteOutcome.succeeds, leaves, blankStorage]
          · simp [hdone, hdoneB, WriteOutcome.succeeds, leaves, Storage.copyAt]
    · -- only copy B has been written, and copy A is still blank
      cases hcase : outcome.headerB with
      | done => simp [hcase, WriteOutcome.succeeds] at hB
      | failedOld | failedTorn fault =>
        left
        intro source found
        cases source <;> simp [hdone, WriteOutcome.succeeds, leaves, Storage.copyAt, blankStorage]
      | failedNew =>
        right
        refine h.journaled ?_ ?_ ⟨.b, ?_⟩
        · simp [hdone, WriteOutcome.succeeds, leaves, bornSlots, blankStorage]
        · intro source found hfound
          cases source <;> simp_all [Storage.copyAt, WriteOutcome.succeeds, leaves, blankStorage]
        · simp [hdone, WriteOutcome.succeeds, leaves, Storage.copyAt]
  · left
    intro source found
    cases source <;> simp [hrecord, copyAt, blankStorage]

/-! ## What the checks of a creation give -/

omit [Blake3] in
/-- The control region of a valid header is a positive number of slots. -/
theorem control_slots (h : MemberFormat.validate header = .ok ()) :
    header.control.length = 4096 * (header.control.length / 4096) ∧
      0 < header.control.length / 4096 := by
  simp only [MemberFormat.validate, MemberFormat.validateGeometry, Region.validate, ok_iff, not_or,
    not_not] at h
  obtain ⟨_, _, _, _, ⟨_, ⟨_, ⟨_, haligned⟩, _⟩, _, _, ⟨_, hlength⟩, _⟩, _⟩ := h
  constructor <;> omega

omit [Blake3] in
theorem validateInitialCreate_unnamed (h : validateInitialCreate header = .ok ()) :
    validate header = .ok () ∧ header.checkpointOffset = 0 := by
  simp only [validateInitialCreate, ok_iff, not_or, not_not] at h
  exact ⟨h.1, h.2.2.1⟩

theorem birth_of_joining {proposal : Record}
    (h : validateCreateJoiningStorage header proposal = .ok record) :
    proposal = record ∧ Birth header record := by
  simp only [validateCreateJoiningStorage, ok_iff] at h
  obtain ⟨hinitial, evidence, htarget, hencode⟩ := h
  obtain ⟨hvalid, hunnamed⟩ := validateInitialCreate_unnamed hinitial
  obtain ⟨rfl, hdecoded⟩ := decode_of_encodeDynamicPool hencode
  obtain ⟨hslots, hroom⟩ := control_slots hvalid
  have hchecks := htarget
  simp only [MemberBootstrap.validateTargetFirstRecord, MemberBootstrap.validateRecord,
    MemberBootstrap.validateTargetHeader, ok_iff, not_or, not_not] at hchecks
  obtain ⟨_, ⟨_, hkind, _, _, _, hset, _, _, _, _, _, _, _, rfl⟩, ⟨hsequence, _⟩, hmember,
    ⟨_, _, hpool, _, hheaderSet, ⟨hheaderMember, _⟩, _⟩, _⟩ := hchecks
  refine ⟨rfl, hvalid, by simpa using hpool, hslots, hroom, hdecoded, ?_, ?_, hsequence, hunnamed⟩
  · exact ⟨hset.trans hheaderSet.symm, hmember.trans hheaderMember.symm⟩
  · simp [validateFirstRecord, hkind, htarget, bind, Except.bind]

/-- A header that fits a payload fits what the payload is encoded as. -/
theorem validateMemberHeader_encoded (h : validateMemberHeader payload header = .ok ())
    (hordered : SlotOrdered (canonical payload.topology).members)
    (hvalid : validate { payload with topology := canonical payload.topology } = .ok ()) :
    validateMemberHeader
      { payload with topology := canonical payload.topology } header = .ok () := by
  have hlength : (canonical payload.topology).members.length = payload.topology.members.length :=
    (exchangeSort_perm payload.topology.members).length_eq
  have htopology : PoolTopology.validate (PoolTopology.canonical payload.topology) = .ok () := by
    simp only [PoolGenesis.validate, ok_iff] at hvalid
    exact hvalid.1
  simp only [PoolGenesis.validateMemberHeader, PoolGenesis.findGenesisMember, ok_iff] at h ⊢
  obtain ⟨hpayload, hheader, hpool, hscheduled, hset, member, ⟨_, hfind⟩, hplace, digest, hdigest,
    hgenesis, hchunk, hformat, hcapacity, hcount⟩ := h
  have hold : PoolTopology.validate payload.topology = .ok () := by
    simp only [PoolGenesis.validate, ok_iff] at hpayload
    exact hpayload.1
  refine ⟨hvalid, hheader, hpool, hscheduled, hset, member,
    ⟨hvalid, findMember_canonical hold htopology hfind⟩, ?_, digest, ?_, hgenesis,
    hchunk, hformat, hcapacity, ?_⟩
  · rw [hlength]
    exact hplace
  · -- the digest is taken of the encoded topology
    simp only [PoolTopology.digest, PoolTopology.encode, ok_iff] at hdigest ⊢
    obtain ⟨_, ⟨_, rfl⟩, hdigest⟩ := hdigest
    exact ⟨_, ⟨htopology, rfl⟩, by rw [canonical_of_slotOrdered hordered]; exact hdigest⟩
  · rw [hlength]
    exact hcount

theorem birth_of_genesis
    (h : validateCreatePoolStorage header payload = .ok record) : Birth header record := by
  simp only [validateCreatePoolStorage, ok_iff] at h
  obtain ⟨hinitial, _, hheader, made, hmake, decoded, hrecord, hencode⟩ := h
  obtain ⟨hvalid, hunnamed⟩ := validateInitialCreate_unnamed hinitial
  obtain ⟨rfl, hdecodes⟩ := decode_of_encodeDynamicPool hencode
  obtain ⟨hslots, hroom⟩ := control_slots hvalid
  -- the record that was made, and the payload that is read back from it
  simp only [PoolGenesis.makeRecord, PoolGenesis.encode, PoolTopology.encode, ok_iff] at hmake
  obtain ⟨_, _, _, ⟨_, _, ⟨_, rfl⟩, rfl⟩, _, _, _, _, _, rfl⟩ := hmake
  have hread := hrecord
  simp only [PoolGenesis.validateRecord, PoolGenesis.decode, PoolTopology.decode,
    PoolLayout.decode, ok_iff, not_not] at hread
  obtain ⟨_, _, _, ⟨_, _, ⟨_, hordered, _, rfl⟩, _, ⟨_, rfl⟩, hpayload, rfl⟩, _, _, hset, _, _, _,
    _, _, _, hsame⟩ := hread
  have hencoded := validateMemberHeader_encoded hheader hordered hpayload
  have hfields := hheader
  simp only [validateMemberHeader, ok_iff, not_not] at hfields
  obtain ⟨_, _, hpool, _, hheaderSet, _⟩ := hfields
  refine ⟨hvalid, by simpa using hpool, hslots, hroom, hdecodes, ⟨hheaderSet.symm, rfl⟩, ?_, rfl,
    hunnamed⟩
  simp only [validateFirstRecord, bind_eq_ok]
  exact ⟨_, hrecord, hsame ▸ hencoded⟩

omit [Blake3] in
/-- A creation that succeeds has written the header to both copies. -/
theorem createWithFirstRecord_copies
    (h : createWithFirstRecord header record outcome = (storage, .ok member)) :
    member.storage = storage ∧ member.header = header ∧ member.checkpointReclaimReady = false ∧
      ∀ source, storage.copyAt source = .bytes header := by
  unfold createWithFirstRecord at h
  split at h
  case isTrue => simp at h
  split at h
  case isTrue => simp at h
  rename_i hB
  split at h
  case isTrue => simp at h
  rename_i hA
  simp only [not_not] at hA hB
  cases h
  refine ⟨rfl, rfl, rfl, fun source => ?_⟩
  rw [eq_done_of_succeeds hA, eq_done_of_succeeds hB]
  cases source <;> rfl

/-- A creation that succeeds gives an open member over the log of its first record. -/
theorem createWithFirstRecord_opened (h : Birth header record)
    (hcreate : createWithFirstRecord header record outcome = (storage, .ok member)) :
    member.storage = storage ∧ member.header = header ∧ Opened member [record] 1 := by
  obtain ⟨rfl, rfl, _, hboth⟩ := createWithFirstRecord_copies hcreate
  have hborn := createWithFirstRecord_born h outcome
  rw [hcreate] at hborn
  have journaled := hborn.resolve_left fun hunreadable => hunreadable .a _ (hboth .a)
  refine ⟨rfl, rfl, journaled, fun _ => hboth _, fun _ found hfound => ?_, fun _ _ => hboth,
    h.linked⟩
  rw [hboth] at hfound
  rw [← HeaderCopy.bytes.inj hfound]

end Zettide
