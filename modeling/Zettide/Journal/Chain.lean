import Zettide.Journal.Scan

/-! # What a scan accepts

A scan that succeeds returns a hash chain: a birth record followed by records that each name the raw
and the shared digest of their predecessor, all of them valid records of the scanned member. The
only place where the chain may be interrupted is between the birth record and an anchor. -/

namespace Zettide

open Journal List PoolAuthorityCheckpoint MemberBootstrap ControlRecord Option

variable [Blake3] {entry : HistoryEntry}

/-- A scanned entry agrees with its bytes and is a valid record of the member. -/
structure SoundEntry (memberId : Id) (entry : HistoryEntry) : Prop where
  raw : entry.rawRecord = entry.record
  rawDigest : entry.rawRecordDigest = recordDigest entry.record
  structural : validateStructural entry.record = .ok ()
  digest : entry.record.historyDigest = historyDigest entry.record
  policy : validateDynamicPoolPolicy entry.record = .ok ()
  owner : entry.record.memberId = memberId

/-- The first record of a journal: the genesis of the pool, or the bootstrap of this member. -/
def BirthRecord (memberId : Id) (record : Record) : Prop :=
  (record.kind = .genesis ∧ ∃ payload, PoolGenesis.validateRecord record = .ok payload) ∨
    (record.kind = .memberBootstrap ∧ ∃ evidence,
      MemberBootstrap.validateRecord record = .ok evidence ∧ evidence.targetMemberId = memberId)

/-- A record that may stand after the first one. -/
def LaterRecord (record : Record) : Prop :=
  record.kind ≠ .genesis ∧ validateRecordForHeader record = .ok ()

/-- The second entry directly continues the first. -/
structure Follows (first second : HistoryEntry) : Prop where
  sequence : second.record.localSequence = first.record.localSequence + 1
  rawLink : second.record.previousRecordDigest = first.rawRecordDigest
  historyLink : second.record.previousHistoryDigest = first.record.historyDigest

/-- The entries of a journal as a scan returns them. -/
structure SoundHistory (memberId : Id) (entries : List HistoryEntry) : Prop where
  sound : ∀ entry ∈ entries, SoundEntry memberId entry
  birth : ∀ entry ∈ entries.head?, BirthRecord memberId entry.record
  later : ∀ entry ∈ entries.tail, LaterRecord entry.record
  linked : entries.tail.IsChain Follows
  gap : ∀ first second rest, entries = first :: second :: rest → Follows first second ∨
    ∃ snapshot, validateCompactedRootRecord second.record = .ok snapshot

namespace SoundHistory

variable {memberId : Id} {entries : List HistoryEntry}

theorem nil : SoundHistory memberId [] where
  sound := by simp
  birth := by simp
  later := by simp
  linked := by simp
  gap := by simp

theorem singleton (sound : SoundEntry memberId entry)
    (birth : BirthRecord memberId entry.record) : SoundHistory memberId [entry] where
  sound := by simpa using sound
  birth := by simpa using birth
  later := by simp
  linked := by simp
  gap := by simp

/-- Appending an entry that continues the last one. -/
theorem snoc (h : SoundHistory memberId entries) {last : HistoryEntry}
    (hlast : entries.getLast? = some last) (sound : SoundEntry memberId entry)
    (later : LaterRecord entry.record) (follows : Follows last entry) :
    SoundHistory memberId (entries ++ [entry]) := by
  obtain _ | ⟨first, rest⟩ := entries
  · simp at hlast
  refine ⟨?_, ?_, ?_, ?_, ?_⟩
  · intro e he
    rcases mem_append.mp he with he | he
    · exact h.sound e he
    · rwa [mem_singleton.mp he]
  · simpa using h.birth
  · intro e he
    rcases mem_append.mp (show e ∈ rest ++ [entry] from he) with he | he
    · exact h.later e he
    · rwa [mem_singleton.mp he]
  · show (rest ++ [entry]).IsChain Follows
    rw [isChain_append]
    refine ⟨h.linked, by simp, ?_⟩
    intro x hx y hy
    obtain rfl : entry = y := by simpa using hy
    have hx' : (first :: rest).getLast? = some x := by
      rw [getLast?_cons, hx]; rfl
    obtain rfl : x = last := by rw [hx'] at hlast; exact some.inj hlast
    exact follows
  · intro a b tail heq
    cases rest with
    | nil =>
      obtain ⟨rfl, rfl, -⟩ : first = a ∧ entry = b ∧ [] = tail := by simpa using heq
      obtain rfl : first = last := by simpa using hlast
      exact .inl follows
    | cons second rest =>
      obtain ⟨rfl, rfl, -⟩ : first = a ∧ second = b ∧ rest ++ [entry] = tail := by
        simpa using heq
      exact h.gap first second rest rfl

end SoundHistory

/-! ## Single records -/

variable {header : Header} {record anchor : Record} {slots : List Slot}
  {entries : List HistoryEntry} {slot : Nat} {result : ScanResult} {memberId : Id}

theorem decodeSlot_eq_ok {slot : Slot} (h : decodeSlot slot = .ok record) :
    validateStructural record = .ok () ∧ record.historyDigest = historyDigest record := by
  cases slot with
  | zero | damaged fault => simp [decodeSlot] at h
  | bytes raw =>
    obtain ⟨hstructural, hdigest, rfl⟩ := decode_eq_ok.mp h
    exact ⟨hstructural, hdigest⟩

theorem validateFirstRecord_birth
    (h : validateFirstRecord header record = .ok ()) (owner : record.memberId = header.memberId) :
    BirthRecord header.memberId record := by
  unfold validateFirstRecord at h
  split at h
  case h_1 hkind =>
    simp only [bind_eq_ok] at h
    obtain ⟨payload, hpayload, _⟩ := h
    exact .inl ⟨hkind, payload, hpayload⟩
  case h_2 hkind =>
    simp only [ok_iff, validateTargetFirstRecord, not_not] at h
    obtain ⟨evidence, ⟨_, hrecord, _, howner, _⟩, _⟩ := h
    refine .inr ⟨hkind, _, hrecord, ?_⟩
    rw [← howner, owner]
  case h_3 => simp at h

theorem birth_policy (h : BirthRecord memberId record) :
    validateDynamicPoolPolicy record = .ok () := by
  rcases h with ⟨hkind, payload, hpayload⟩ | ⟨_, evidence, hevidence, _⟩
  · unfold validateDynamicPoolPolicy
    simp only [PoolGenesis.validateRecord, ok_iff] at hpayload
    simp [hkind, hpayload.1]
  · simp only [MemberBootstrap.validateRecord, ok_iff] at hevidence
    exact hevidence.1

theorem validateRecordForHeader_policy (h : validateRecordForHeader record = .ok ()) :
    validateDynamicPoolPolicy record = .ok () := by
  simp only [validateRecordForHeader, ok_iff] at h
  exact h.1

omit [Blake3] in
theorem genesis_localSequence (kind : record.kind = .genesis)
    (policy : validateDynamicPoolPolicy record = .ok ()) :
    record.localSequence = 1 := by
  simp only [validateDynamicPoolPolicy, kind, reduceCtorEq, if_false,
    validatePolicy, ok_iff] at policy
  obtain ⟨_, _, hgenesis, _⟩ := policy
  by_contra hne
  exact hgenesis ⟨trivial, .inr (.inl hne)⟩

omit [Blake3] in
theorem localSequence_pos (h : validateStructural record = .ok ()) : 0 < record.localSequence := by
  simp only [validateStructural, ok_iff] at h
  exact Nat.pos_of_ne_zero h.2.1

omit [Blake3] in
theorem checkOwner_eq_ok : checkOwner header record = .ok () ↔
      record.setId = header.setId ∧ record.memberId = header.memberId := by
  simp [checkOwner]

theorem checkSuccessor_follows {tail : Record} {digest : Digest} (slot slot' : Nat)
    (h : checkSuccessor tail digest record = .ok ()) :
    Follows ⟨tail, tail, digest, slot⟩ ⟨record, record, recordDigest record, slot'⟩ := by
  simp only [checkSuccessor, ok_iff, not_or, not_not] at h
  exact ⟨h.1.2, h.2.1, h.2.2⟩

/-- A checkpoint that is valid as a root may stand after the first record. -/
theorem compactedRoot_later {snapshot : Snapshot}
    (h : validateCompactedRootRecord record = .ok snapshot) :
    LaterRecord record := by
  simp only [validateCompactedRootRecord, ok_iff, not_not] at h
  obtain ⟨hkind, hpolicy, _⟩ := h
  refine ⟨by simp [hkind], ?_⟩
  simp [validateRecordForHeader, hpolicy, hkind]

theorem soundEntry_of_decoded (decoded : validateStructural record = .ok () ∧
      record.historyDigest = historyDigest record)
    (policy : validateDynamicPoolPolicy record = .ok ())
    (owner : record.memberId = header.memberId) :
    SoundEntry header.memberId ⟨record, record, recordDigest record, slot⟩ :=
  ⟨rfl, rfl, decoded.1, decoded.2, policy, owner⟩

/-! ## The two scans -/

/-- The tail fields of a scan describe the last entry. -/
structure TailOf (entries : List HistoryEntry) (result : ScanResult) : Prop where
  tail : result.tail = entries.getLast?.map HistoryEntry.record
  digest : ∀ last ∈ entries.getLast?, result.tailRawRecordDigest = last.rawRecordDigest

omit [Blake3] in
theorem tailOf_snoc (tail : result.tail = some entry.record)
    (digest : result.tailRawRecordDigest = entry.rawRecordDigest) :
    TailOf (entries ++ [entry]) result where
  tail := by simp [tail]
  digest := by simp [digest]

/-- A record that passes the linear checks extends the journal read so far. -/
theorem SoundHistory.linear_step
    (h : SoundHistory header.memberId entries) (htail : TailOf entries result)
    (decoded : validateStructural record = .ok () ∧ record.historyDigest = historyDigest record)
    (check : checkLinear header result record = .ok ()) :
    SoundHistory header.memberId (entries ++ [⟨record, record, recordDigest record, slot⟩]) := by
  simp only [checkLinear, ok_iff, checkOwner_eq_ok] at check
  obtain ⟨⟨_, howner⟩, check⟩ := check
  cases hlast : entries.getLast? with
  | none =>
    obtain rfl : entries = [] := by simpa using hlast
    rw [htail.tail] at check
    have hbirth := validateFirstRecord_birth (by simpa using check) howner
    exact SoundHistory.singleton (soundEntry_of_decoded decoded (birth_policy hbirth) howner) hbirth
  | some last =>
    have hdigest := htail.digest last hlast
    rw [htail.tail, hlast] at check
    simp only [map_some, ok_iff] at check
    obtain ⟨hkind, hlater, _, _, hsuccessor⟩ := check
    have hlater : LaterRecord record := ⟨hkind, hlater⟩
    have hfollows : Follows last ⟨record, record, recordDigest record, slot⟩ := by
      have := checkSuccessor_follows 0 slot hsuccessor
      exact ⟨this.sequence, by rw [this.rawLink, hdigest], this.historyLink⟩
    exact h.snoc hlast (soundEntry_of_decoded decoded (validateRecordForHeader_policy hlater.2)
      howner) hlater
      hfollows

/-- What the linear scan keeps from slot to slot. -/
structure LinearInv (header : Header) (state : LinearState) : Prop where
  history : SoundHistory header.memberId state.entries
  tail : TailOf state.entries state.result

theorem scanLinearSlot_inv {raw : Slot} {state next : LinearState}
    (inv : LinearInv header state) (h : scanLinearSlot header slot raw state = .ok next) :
    LinearInv header next := by
  unfold scanLinearSlot at h
  split at h
  case isTrue => cases h; exact ⟨inv.history, inv.tail.1, inv.tail.2⟩
  split at h
  case h_1 => cases h; exact ⟨inv.history, inv.tail.1, inv.tail.2⟩
  case h_2 record hdecode =>
    simp only [ok_iff] at h
    obtain ⟨hcheck, rfl⟩ := h
    refine ⟨inv.history.linear_step ⟨inv.tail.1, inv.tail.2⟩ (decodeSlot_eq_ok hdecode) hcheck,
      tailOf_snoc rfl rfl⟩

theorem scanLinearFrom_inv : ∀ {slot : Nat} {state final : LinearState}, LinearInv header state →
      scanLinearFrom header slot slots state = .ok final → LinearInv header final := by
  induction slots with
  | nil =>
    intro slot state final inv h
    cases h
    exact inv
  | cons raw rest ih =>
    intro slot state final inv h
    simp only [scanLinearFrom, bind_eq_ok] at h
    obtain ⟨next, hstep, hrest⟩ := h
    exact ih (scanLinearSlot_inv inv hstep) hrest

theorem scanLinear_sound (h : scanLinear header slots = .ok (result, entries)) :
    SoundHistory header.memberId entries := by
  simp only [scanLinear, ok_iff, Prod.mk.injEq] at h
  obtain ⟨state, hscan, _, rfl⟩ := h
  have hstart : LinearInv header (linearStart header slots.length) :=
    ⟨SoundHistory.nil, ⟨rfl, by simp [linearStart]⟩⟩
  exact (scanLinearFrom_inv hstart hscan).history

/-- What the anchored scan keeps from slot to slot. -/
structure AnchoredInv (header : Header) (state : AnchoredState) : Prop where
  history : SoundHistory header.memberId state.entries
  tail : TailOf state.entries state.result
  nonempty : state.entries ≠ []

theorem scanAnchoredSlot_inv {state next : AnchoredState} (inv : AnchoredInv header state)
    (h : scanAnchoredSlot header anchor slots slot state = .ok next) :
    AnchoredInv header next := by
  unfold scanAnchoredSlot at h
  simp only at h
  split at h
  case isTrue => cases h; exact ⟨inv.history, ⟨inv.tail.1, inv.tail.2⟩, inv.nonempty⟩
  split at h
  case h_1 => cases h; exact ⟨inv.history, ⟨inv.tail.1, inv.tail.2⟩, inv.nonempty⟩
  rename_i record hdecode
  split at h
  case isTrue => cases h; exact inv
  simp only [ok_iff, checkOwner_eq_ok] at h
  obtain ⟨⟨_, howner⟩, hvalid, hsuccessor, rfl⟩ := h
  obtain ⟨last, hlast⟩ := getLast?_isSome.mpr inv.nonempty |> isSome_iff_exists.mp
  have htail : tailOr anchor state.result = last.record := by
    simp [tailOr, inv.tail.tail, hlast]
  rw [htail, inv.tail.digest last hlast] at hsuccessor
  have hfollows : Follows last ⟨record, record, recordDigest record, slot⟩ := by
    have := checkSuccessor_follows 0 slot hsuccessor
    exact ⟨this.sequence, this.rawLink, this.historyLink⟩
  -- a genesis record has local sequence one, so it cannot continue a tail
  have hlater : LaterRecord record := by
    refine ⟨fun hkind => ?_, hvalid⟩
    have hone := genesis_localSequence hkind (validateRecordForHeader_policy hvalid)
    have hpos := localSequence_pos (inv.history.sound last (mem_of_getLast? hlast)).structural
    have hseq : record.localSequence = last.record.localSequence + 1 := hfollows.sequence
    omega
  exact ⟨inv.history.snoc hlast (soundEntry_of_decoded (decodeSlot_eq_ok hdecode)
    (validateRecordForHeader_policy hvalid) howner) hlater hfollows, tailOf_snoc rfl rfl,
    by simp⟩

theorem scanAnchoredFrom_inv {walk : List Nat} :
    ∀ {state final : AnchoredState}, AnchoredInv header state →
      scanAnchoredFrom header anchor slots walk state = .ok final →
      AnchoredInv header final := by
  induction walk with
  | nil =>
    intro state final inv h
    cases h
    exact inv
  | cons slot rest ih =>
    intro state final inv h
    simp only [scanAnchoredFrom, bind_eq_ok] at h
    obtain ⟨next, hstep, hrest⟩ := h
    exact ih (scanAnchoredSlot_inv inv hstep) hrest

theorem anchoredStart_inv {birth : Record} {anchorSlot slotCount : Nat}
    {birthSlot anchorRaw : Slot} (hbirth : decodeSlot birthSlot = .ok birth)
    (birthOwner : checkOwner header birth = .ok ())
    (first : validateFirstRecord header birth = .ok ())
    (hanchor : decodeSlot anchorRaw = .ok anchor)
    (check : checkAnchor header birth anchor = .ok ()) :
    AnchoredInv header (anchoredStart birth anchor anchorSlot slotCount) := by
  have birthOwner := (checkOwner_eq_ok.mp birthOwner).2
  have hfirst := validateFirstRecord_birth first birthOwner
  simp only [checkAnchor, ok_iff, checkOwner_eq_ok] at check
  obtain ⟨⟨_, anchorOwner⟩, _, _, snapshot, hsnapshot, _⟩ := check
  have hlater := compactedRoot_later hsnapshot
  refine ⟨⟨?_, ?_, ?_, ?_, ?_⟩, ⟨rfl, ?_⟩, by simp [anchoredStart]⟩
  · intro entry hentry
    rcases mem_pair.mp hentry with rfl | rfl
    · exact soundEntry_of_decoded (decodeSlot_eq_ok hbirth) (birth_policy hfirst) birthOwner
    · exact soundEntry_of_decoded (decodeSlot_eq_ok hanchor)
        (validateRecordForHeader_policy hlater.2) anchorOwner
  · simpa [anchoredStart] using hfirst
  · simpa [anchoredStart] using hlater
  · simp [anchoredStart]
  · intro a b rest heq
    obtain ⟨rfl, rfl, -⟩ := by simpa [anchoredStart] using heq
    exact .inr ⟨snapshot, hsnapshot⟩
  · simp [anchoredStart]

theorem scanAnchored_sound (h : scanAnchored header slots = .ok (result, entries)) :
    SoundHistory header.memberId entries := by
  simp only [scanAnchored, ok_iff, Prod.mk.injEq] at h
  obtain ⟨_, _, _, birth, hbirth, hbirthOwner, hfirst, anchor, hanchor, hcheck, state, hscan, _,
    rfl⟩ := h
  exact (scanAnchoredFrom_inv
    (anchoredStart_inv hbirth hbirthOwner hfirst hanchor hcheck) hscan).history

/-- Every bootstrap record of a scanned history is valid. -/
theorem SoundHistory.bootstrap_valid (sound : SoundHistory memberId entries)
    (hmem : entry ∈ entries) (hkind : entry.record.kind = .memberBootstrap) :
    ∃ evidence, MemberBootstrap.validateRecord entry.record = .ok evidence := by
  obtain _ | ⟨first, rest⟩ := entries
  · cases hmem
  rcases mem_cons.mp hmem with rfl | hmem
  · rcases sound.birth entry rfl with ⟨hgenesis, _⟩ | ⟨_, evidence, h, _⟩
    · rw [hkind] at hgenesis; cases hgenesis
    · exact ⟨evidence, h⟩
  have h := (sound.later entry hmem).2
  simp only [validateRecordForHeader, hkind, ok_iff] at h
  obtain ⟨_, evidence, h, _⟩ := h
  exact ⟨evidence, h⟩

/-! ## Accepted histories -/

/-- The history is what the scan of some member returns. -/
def Accepted (history : HistoryScan) : Prop :=
  ∃ header slots, scanHistory header slots = .ok history

/-- **A scan returns a hash chain of valid records of its member.** -/
theorem Accepted.sound {history : HistoryScan} (h : Accepted history) :
    SoundHistory history.memberId history.entries := by
  obtain ⟨header, slots, h⟩ := h
  simp only [scanHistory, ok_iff] at h
  obtain ⟨_, ⟨result, entries⟩, hscan, rfl⟩ := h
  unfold scanInto at hscan
  split at hscan
  case h_1 hlinear =>
    cases hscan
    exact scanLinear_sound hlinear
  split at hscan
  case h_1 hanchored =>
    cases hscan
    exact scanAnchored_sound hanchored
  case h_2 => cases hscan

end Zettide
