import Zettide.Journal.Tracked

/-! # Publishing an anchor and reclaiming the slots before it

The header that publishes an anchor goes to both copies, one after the other; whatever the two writes
leave, the copies that decode name anchors of the log. Once both name the same anchor, the slots
before it are cleared in the order of the log, so that what is left is always the end of the log. -/

namespace Zettide

open PoolAuthorityCheckpoint ControlRecord
open Journal Option MemberFormat WriteOutcome List HeaderCopy MemberBootstrap Member

variable [Blake3]

/-! ## Publication -/

variable {log : List Record} {first index slotCount : Nat} {anchor : Option Nat}
  {claimed : Claimed} {header : Header} {member : Member} {record : Record}
  {result : Except JournalError Unit} {found : AnchorState} {after : Member} {slots : List Slot}
  {journal : Journal} {digest : Digest} {sequence offset : Nat} {twice : WriteOutcome}
  {snapshot : Snapshot} {once : WriteOutcome} {current : Header} {tailSlot : Nat}

theorem validateFirstRecord_publish (h : validateFirstRecord header record = .ok ())
    (valid : validate (checkpointHeader header offset sequence digest) = .ok ()) :
    validateFirstRecord (checkpointHeader header offset sequence digest) record = .ok () := by
  unfold validateFirstRecord at h ⊢
  split at h
  case h_1 =>
    simp only [bind_eq_ok] at h ⊢
    obtain ⟨payload, hpayload, h⟩ := h
    refine ⟨payload, hpayload, ?_⟩
    simp only [PoolGenesis.validateMemberHeader, ok_iff] at h ⊢
    exact ⟨h.1, valid, h.2.2⟩
  case h_2 =>
    simp only [ok_iff, validateTargetFirstRecord] at h ⊢
    obtain ⟨evidence, ⟨evidence', hevidence, hfirst, htarget, h, hsame⟩, hunit⟩ := h
    refine ⟨evidence, ⟨evidence', hevidence, hfirst, htarget, ?_, hsame⟩, hunit⟩
    simp only [validateTargetHeader, ok_iff] at h ⊢
    exact ⟨h.1, valid, h.2.2⟩
  case h_3 => simp at h

/-- The header that publishes the record at an index of the log. -/
def publishedHeader (header : Header) (slotCount index : Nat) (record : Record) : Header :=
  checkpointHeader header (header.control.offset + ringSlot slotCount index * 4096)
    record.localSequence (recordDigest record)

theorem HeaderNames.publish (h : HeaderNames header slotCount log first anchor) (hpos : 0 < index)
    (hget : log[index]? = some record)
    (hroot : validateCompactedRootRecord record = .ok snapshot)
    (hfirst : first ≤ index)
    (valid : validate (publishedHeader header slotCount index record) = .ok ()) :
    HeaderNames (publishedHeader header slotCount index record) slotCount log first
      (some index) := by
  have hoffset : header.control.offset = 64 * 1024 := by
    have := h.fitting.valid
    simp only [MemberFormat.validate, MemberFormat.validateGeometry, ok_iff, not_or, not_not]
      at this
    obtain ⟨_, _, _, _, ⟨_, _, _, _, ⟨h, _⟩, _⟩, _⟩ := this
    exact h
  refine ⟨⟨valid, h.fitting.pool, h.fitting.slots, fun r hr => ?_, h.fitting.linked⟩, ?_,
    .inr ⟨index, rfl, hfirst⟩⟩
  · exact validateFirstRecord_publish (h.fitting.birth r hr) valid
  · refine ⟨record, hpos, hget, ⟨snapshot, hroot⟩, rfl, rfl, ?_⟩
    have hcheckpoint : (publishedHeader header slotCount index record).checkpointOffset =
        header.control.offset + ringSlot slotCount index * 4096 := rfl
    have hcontrol : (publishedHeader header slotCount index record).control = header.control := rfl
    unfold hintSlot
    rw [if_neg (by omega), hcheckpoint, hcontrol]
    congr 1
    omega

section

variable (member : Member) (copy : SourceSlot) (header : Header) (outcome : WriteOutcome)

omit [Blake3]

@[simp] theorem writeHeader_slots :
    (member.writeHeader copy header outcome).storage.slots = member.storage.slots := by
  cases copy <;> cases outcome <;> rfl

@[simp] theorem writeHeader_mode : (member.writeHeader copy header outcome).mode = member.mode := by
  cases outcome <;> rfl

@[simp] theorem writeHeader_header :
    (member.writeHeader copy header outcome).header = member.header := by
  cases outcome <;> rfl

theorem writeHeader_frozen : (member.writeHeader copy header outcome).frozen =
      if outcome.succeeds then member.frozen else true := by
  cases outcome <;> rfl

theorem writeHeader_copyAt : (member.writeHeader copy header outcome).storage.copyAt copy =
      outcome.leaves .damaged (member.storage.copyAt copy) (.bytes header) := by
  cases copy <;> cases outcome <;> rfl

theorem writeHeader_copyAt_other :
    (member.writeHeader copy header outcome).storage.copyAt (otherCopy copy) =
      member.storage.copyAt (otherCopy copy) := by
  cases copy <;> cases outcome <;> rfl

@[simp] theorem otherCopy_otherCopy (copy : SourceSlot) : otherCopy (otherCopy copy) = copy := by
  cases copy <;> rfl

theorem eq_or_eq_otherCopy (source copy : SourceSlot) : source = copy ∨ source = otherCopy copy := by
  cases source <;> cases copy <;> simp [otherCopy]

end

/-- A header copy is overwritten, kept or torn, next to a copy of which it is a successor. -/
theorem Journaled.writeHeader (h : Journaled member.storage log first) {copy : SourceSlot}
    (hother : member.storage.copyAt (otherCopy copy) = .bytes current)
    (hstatic : staticPart header = staticPart current)
    (hcatalog : header.catalogData = current.catalogData)
    (hsequence : header.headerSequence = current.headerSequence → header = current)
    (names : HeaderNames header member.storage.slots.length log first anchor)
    (outcome : WriteOutcome) :
    Journaled (member.writeHeader copy header outcome).storage log first := by
  have hcopy : ∀ found, (member.writeHeader copy header outcome).storage.copyAt copy =
      .bytes found → found = header ∨ member.storage.copyAt copy = .bytes found := by
    intro found hfound
    rw [writeHeader_copyAt] at hfound
    cases outcome <;> simp [leaves] at hfound
    · exact .inl hfound.symm
    · exact .inr hfound
    · exact .inl hfound.symm
  have hkept := writeHeader_copyAt_other member copy header outcome
  refine ⟨by rw [writeHeader_slots]; exact h.holds, fun source found hfound => ?_,
    fun a b hA hB => ?_, ⟨otherCopy copy, current, hkept.trans hother⟩⟩
  · rw [writeHeader_slots]
    rcases eq_or_eq_otherCopy source copy with rfl | rfl
    · rcases hcopy found hfound with rfl | hold
      · exact ⟨anchor, names⟩
      · exact h.copies source found hold
    · exact h.copies _ found (hkept ▸ hfound)
  · rw [hother] at hkept
    cases copy with
    | a =>
      obtain rfl : b = current := bytes.inj (hB.symm.trans hkept)
      rcases hcopy a hA with rfl | hold
      · exact ⟨hstatic, hcatalog, hsequence⟩
      · exact h.agree a b hold hother
    | b =>
      obtain rfl : a = current := bytes.inj (hA.symm.trans hkept)
      rcases hcopy b hB with rfl | hold
      · exact ⟨hstatic.symm, hcatalog.symm, fun heq => (hsequence heq.symm).symm⟩
      · exact h.agree a b hother hold

/-- What a publication did to an open member. -/
structure Published (member : Member) (slotCount index : Nat) (record : Record)
    (after : Member) (result : Except JournalError Unit) : Prop where
  slots : after.storage.slots = member.storage.slots
  mode : after.mode = member.mode
  memberId : after.header.memberId = member.header.memberId
  succeeded : result = .ok () → after.frozen = false ∧ after.checkpointReclaimReady = true ∧
    after.header = publishedHeader member.header slotCount index record
  failed : ∀ e, result = .error e → after = member ∨ after.frozen = true

/-- The two writes of a publication, first to the copy that is not selected. -/
theorem writeHeaders_journaled (member : Member) (h : Journaled member.storage log first)
    {source : SourceSlot} (hcurrent : member.storage.copyAt source = .bytes current)
    (hstatic : staticPart header = staticPart current)
    (hcatalog : header.catalogData = current.catalogData)
    (hnewer : header.headerSequence ≠ current.headerSequence)
    (names : HeaderNames header member.storage.slots.length log first anchor)
    (once twice : WriteOutcome) :
    Journaled (member.writeHeader (otherCopy source) header once).storage log first ∧
      (once.succeeds = true → Journaled
        ((member.writeHeader (otherCopy source) header once).writeHeader source header
          twice).storage log first) ∧
      (once.succeeds = true → twice.succeeds = true → ∀ copy,
        ((member.writeHeader (otherCopy source) header once).writeHeader source header
          twice).storage.copyAt copy = .bytes header) := by
  have honce : Journaled (member.writeHeader (otherCopy source) header once).storage log first :=
    h.writeHeader (by rw [otherCopy_otherCopy]; exact hcurrent) hstatic hcatalog
      (fun heq => absurd heq hnewer) names once
  have hwritten : once.succeeds = true →
      (member.writeHeader (otherCopy source) header once).storage.copyAt (otherCopy source) =
        .bytes header := by
    intro hsucceeds
    rw [writeHeader_copyAt, eq_done_of_succeeds hsucceeds]
    rfl
  refine ⟨honce, fun hsucceeds => ?_, fun hfirst hsecond copy => ?_⟩
  · exact honce.writeHeader (hwritten hsucceeds) rfl rfl (fun _ => rfl)
      (by rw [writeHeader_slots]; exact names) twice
  · rcases eq_or_eq_otherCopy copy source with rfl | rfl
    · rw [writeHeader_copyAt, eq_done_of_succeeds hsecond]
      rfl
    · rw [writeHeader_copyAt_other]
      exact hwritten hfirst

omit [Blake3] in
/-- What a publication can do: refuse, stop at a write that fails, or write both copies. -/
theorem publish_cases
    (h : member.publishCheckpointRedundant offset sequence digest once twice = (after, result)) :
    (after = member ∧ ∃ e, result = .error e) ∨
      member.mode = .writable ∧ member.frozen = false ∧ after.mode = .writable ∧
        after.storage.slots = member.storage.slots ∧
        ((result = .error .writeFailed ∧ after.frozen = true ∧ after.header = member.header ∧
            ¬ (once.succeeds = true ∧ twice.succeeds = true)) ∨
          result = .ok () ∧ after.frozen = false ∧ after.checkpointReclaimReady = true ∧
            after.header = checkpointHeader member.header offset sequence digest ∧
            MemberFormat.validate after.header = .ok ()) := by
  unfold Member.publishCheckpointRedundant at h
  rcases hprepare : member.preparePublication offset sequence digest with e | header
  · rw [hprepare] at h
    cases h
    exact .inl ⟨rfl, e, rfl⟩
  rw [hprepare] at h
  simp only [Member.preparePublication, Member.checkWritable, ok_iff, Bool.not_eq_true, not_not]
    at hprepare
  obtain ⟨⟨hmode, hlive⟩, _, hvalid, rfl⟩ := hprepare
  refine .inr ⟨hmode, hlive, ?_⟩
  simp only at h
  split at h
  case isFalse honce =>
    cases h
    simp [hmode, writeHeader_frozen, honce]
  case isTrue honce =>
    split at h
    case isFalse htwice =>
      cases h
      simp [hmode, writeHeader_frozen, htwice]
    case isTrue htwice =>
      cases h
      simp [hmode, writeHeader_frozen, honce, htwice, hlive, hvalid]

omit [Blake3] in
/-- A frozen member refuses to publish. -/
theorem publish_frozen (frozen : member.frozen = true)
    (h : member.publishCheckpointRedundant offset sequence digest once twice = (after, result)) :
    after = member ∧ ∃ e, result = .error e := by
  rcases publish_cases h with hrefused | ⟨_, hlive, _⟩
  · exact hrefused
  · simp [frozen] at hlive

/-- **A publication leaves copies that name anchors of the log; when it succeeds both name the
published one.** -/
theorem Opened.publish (h : Opened member log first) (live : member.frozen = false)
    (hpos : 0 < index) (hget : log[index]? = some record)
    (hroot : validateCompactedRootRecord record = .ok snapshot)
    (hfirst : first ≤ index) (once twice : WriteOutcome)
    (hpublish : member.publishCheckpointRedundant
      (member.header.control.offset + ringSlot member.storage.slots.length index * 4096)
      record.localSequence (recordDigest record) once twice = (after, result)) :
    Opened after log first ∧
      Published member member.storage.slots.length index record after result := by
  obtain ⟨anchor, names⟩ := h.names live
  unfold publishCheckpointRedundant at hpublish
  cases hprepare : member.preparePublication
      (member.header.control.offset + ringSlot member.storage.slots.length index * 4096)
      record.localSequence (recordDigest record) with
  | error e =>
    rw [hprepare] at hpublish
    cases hpublish
    exact ⟨h, rfl, rfl, rfl, by simp, fun _ _ => .inl rfl⟩
  | ok header =>
    rw [hprepare] at hpublish
    simp only [preparePublication, ok_iff] at hprepare
    obtain ⟨_, _, hvalid, hheader⟩ := hprepare
    have hnew : HeaderNames header member.storage.slots.length log first (some index) := by
      rw [← hheader]
      exact names.publish hpos hget hroot hfirst hvalid
    obtain ⟨honce, htwice, hboth⟩ := writeHeaders_journaled
      { member with checkpointReclaimReady := false } h.journaled (h.current live)
      (by rw [← hheader]; rfl) (by rw [← hheader]; rfl)
      (by rw [← hheader]; simp [checkpointHeader]) hnew once twice
    simp only at hpublish
    split at hpublish
    case isFalse hfails =>
      cases hpublish
      have hfrozen := writeHeader_frozen { member with checkpointReclaimReady := false }
        (otherCopy member.source) header once
      rw [if_neg hfails] at hfrozen
      exact ⟨.of_frozen honce hfrozen (by simpa using h.linked), by simp, by simp, by simp, by simp,
        fun _ _ => .inr hfrozen⟩
    case isTrue hsucceeds =>
      split at hpublish
      case isFalse hfails =>
        cases hpublish
        have hfrozen := writeHeader_frozen
          (writeHeader { member with checkpointReclaimReady := false }
            (otherCopy member.source) header once) member.source header twice
        rw [if_neg hfails] at hfrozen
        exact ⟨.of_frozen (htwice hsucceeds) hfrozen (by simpa using h.linked), by simp, by simp,
          by simp, by simp, fun _ _ => .inr hfrozen⟩
      case isTrue hsucceeds' =>
        cases hpublish
        have hboth := hboth hsucceeds hsucceeds'
        refine ⟨⟨htwice hsucceeds, fun _ => hboth _, fun _ found hfound => ?_,
          fun _ _ => hboth, by rw [← hheader]; exact h.linked⟩, by simp, by simp,
          by simp [← hheader, checkpointHeader], fun _ => ?_, by simp⟩
        · rw [hboth] at hfound
          exact (bytes.inj hfound) ▸ Nat.le_refl _
        · refine ⟨?_, rfl, hheader.symm⟩
          simp [writeHeader_frozen, hsucceeds, hsucceeds', live]

/-- A change of the header copies alone keeps the journal of a member. -/
theorem Tracked.republished (h : Tracked claimed log first anchor)
    (live : claimed.member.frozen = false) (opened : Opened member log first)
    (slots : member.storage.slots = claimed.member.storage.slots) :
    Tracked ⟨member, claimed.journal⟩ log first anchor := by
  refine ⟨opened, fun _ => ?_, fun _ => h.kept live, fun _ => h.root live, fun _ => ?_,
    fun _ hready => ?_⟩
  · rw [slots]
    exact h.view live
  · rw [slots]
    exact h.damage live
  · rw [slots]
    exact h.ready live hready

/-- The first record of a log is not a checkpoint. -/
theorem birth_not_checkpoint (h : HeaderFor header slotCount log) (hget : log[0]? = some record) :
    record.kind ≠ .checkpoint := by
  have hfirst := h.birth record (by rw [head?_eq_getElem?]; exact hget)
  intro hkind
  simp [validateFirstRecord, hkind] at hfirst

/-- A tail that is a checkpoint comes after the first record, and is held. -/
theorem Tracked.root_tail (h : Tracked claimed log first anchor)
    (live : claimed.member.frozen = false) {tail : Record}
    (hget : log[log.length - 1]? = some tail) (hkind : tail.kind = .checkpoint) :
    0 < log.length - 1 ∧ first ≤ log.length - 1 := by
  obtain ⟨_, names⟩ := h.opened.names live
  have hpos : 0 < log.length - 1 := by
    rcases Nat.eq_zero_or_pos (log.length - 1) with hzero | hpos
    · rw [hzero] at hget
      exact absurd hkind (birth_not_checkpoint names.fitting hget)
    · exact hpos
  refine ⟨hpos, ?_⟩
  rcases h.kept live with hone | ⟨index, hanchor, hle⟩
  · omega
  · obtain ⟨_, record, _, hrecord, _⟩ := h.root live index hanchor
    have hlt := (List.getElem?_eq_some_iff.mp hrecord).1
    omega

/-! ## Clearing slots -/

omit [Blake3] in
/-- Clearing a slot behind the end of the log removes at most the oldest record. -/
theorem Holds.clear (h : Holds slots log first) (hheld : first < log.length)
    (hge : log.length ≤ index) (hle : index ≤ first + (slots.length - 1)) {content : Slot}
    (blank : ∀ record, content ≠ .bytes record) :
    ∃ next, Holds (slots.set (ringSlot slots.length index) content) log next ∧
      index + 1 ≤ next + (slots.length - 1) ∧
      (next = first ∨ next = first + 1 ∧ index = first + (slots.length - 1)) := by
  have htwo := h.two_le (Nat.le_refl _) hheld
  have hfirst := h.first_pos
  have hslot := ringSlot_lt (i := index) htwo
  rcases Nat.lt_or_ge index (first + (slots.length - 1)) with hlt | hend
  · refine ⟨first, h.overwrite hslot (fun record hread => ?_) blank, by omega, .inl rfl⟩
    obtain ⟨other, hother, hget, heq⟩ := h.only _ record (ringSlot_pos (by omega)) hread
    have hin := (List.getElem?_eq_some_iff.mp hget).1
    have := ringSlot_inj (n := slots.length) (i := other) (j := index) (by omega) (by omega)
      (by omega) heq.symm
    omega
  · obtain rfl : index = first + (slots.length - 1) := by omega
    rw [ringSlot_add hfirst] at hslot ⊢
    have hother : ∀ other, first < other → other < log.length →
        ringSlot slots.length other ≠ ringSlot slots.length first := by
      intro other hgt hlt heq
      have := ringSlot_inj (n := slots.length) (i := first) (j := other) (by omega) (by omega)
        (by omega) heq.symm
      omega
    refine ⟨first + 1, ⟨by omega, by omega, by rw [List.length_set]; omega, ?_, ?_, ?_⟩, by omega,
      .inr ⟨rfl, rfl⟩⟩
    · intro record hget
      have := ringSlot_pos (n := slots.length) hfirst
      rw [readSlot_set _ _ _ _ hslot, if_neg (by omega)]
      exact h.birth record hget
    · intro other record hgt hget
      rw [List.length_set, readSlot_set _ _ _ _ hslot,
        if_neg (hother other (by omega) (List.getElem?_eq_some_iff.mp hget).1)]
      exact h.record other record (by omega) hget
    · intro slot record hpos hread
      rw [readSlot_set _ _ _ _ hslot] at hread
      rw [List.length_set]
      split at hread
      case isTrue => exact absurd hread (blank record)
      rename_i hne
      obtain ⟨other, hge, hget, heq⟩ := h.only slot record hpos hread
      refine ⟨other, ?_, hget, heq⟩
      rcases Nat.lt_or_ge first other with hgt | hle
      · omega
      · obtain rfl : other = first := by omega
        exact absurd heq hne

omit [Blake3] in
/-- Whatever the write of zeros to a slot behind the end of the log leaves, it is an end of it. -/
theorem Holds.clearing (h : Holds slots log first) (hheld : first < log.length)
    (hge : log.length ≤ index) (hle : index ≤ first + (slots.length - 1)) (outcome : WriteOutcome) :
    ∃ next, Holds (slots.set (ringSlot slots.length index) (outcome.leaves .damaged
        (readSlot slots (ringSlot slots.length index)) .zero)) log next ∧
      (outcome.succeeds = true → index + 1 ≤ next + (slots.length - 1)) ∧
      (next = first ∨ next = first + 1 ∧ index = first + (slots.length - 1)) := by
  have hblank : ∀ content : Slot, (∀ record, content ≠ .bytes record) → ∃ next,
      Holds (slots.set (ringSlot slots.length index) content) log next ∧
        (outcome.succeeds = true → index + 1 ≤ next + (slots.length - 1)) ∧
        (next = first ∨ next = first + 1 ∧ index = first + (slots.length - 1)) := by
    intro content blank
    obtain ⟨next, hnext, hroom, hmoved⟩ := h.clear hheld hge hle blank
    exact ⟨next, hnext, fun _ => hroom, hmoved⟩
  cases outcome with
  | done | failedNew => exact hblank .zero (by simp)
  | failedTorn fault => exact hblank (.damaged fault) (by simp)
  | failedOld =>
    have hslot := ringSlot_lt (i := index) (h.two_le (Nat.le_refl _) hheld)
    refine ⟨first, ?_, by simp [WriteOutcome.succeeds], .inl rfl⟩
    rw [WriteOutcome.leaves, readSlot, List.getD_eq_getElem?_getD, List.getElem?_eq_getElem hslot,
      Option.getD_some, List.set_getElem_self]
    exact h

/-- What clearing slots did to an open member. -/
structure Cleared (member : Member) (log : List Record) (index : Nat) (walk : List Nat)
    (after : Member) (result : Except JournalError Unit) (first : Nat) : Prop where
  holds : Holds after.storage.slots log first
  count : after.storage.slots.length = member.storage.slots.length
  bounded : first ≤ index
  copyA : after.storage.copyA = member.storage.copyA
  copyB : after.storage.copyB = member.storage.copyB
  header : after.header = member.header
  source : after.source = member.source
  mode : after.mode = member.mode
  reclaimReady : after.checkpointReclaimReady = member.checkpointReclaimReady
  succeeded : result = .ok () → after.frozen = false ∧ first = index ∧
    ∀ slot ∈ walk, readSlot after.storage.slots slot = .zero
  zeroes : result = .ok () → ∀ slot, readSlot member.storage.slots slot = .zero →
    readSlot after.storage.slots slot = .zero
  failed : ∀ e, result = .error e → after.frozen = true

omit [Blake3] in
/-- **The loop that clears the slots before the anchor leaves an end of the log.** -/
theorem clearSlots_cleared (hlt : index < log.length)
    (clear : Nat → WriteOutcome) (slotCount : Nat) :
    ∀ (count start : Nat) {member : Member} {first : Nat},
      member.storage.slots.length = slotCount → Holds member.storage.slots log first →
      first ≤ index → log.length ≤ start → start ≤ first + (slotCount - 1) →
      start + count = index + (slotCount - 1) → member.frozen = false → member.mode = .writable →
      ∀ {after : Member} {result : Except JournalError Unit},
        clearSlots clear ((List.range' start count).map (ringSlot slotCount)) member =
          (after, result) →
        ∃ next, Cleared member log index ((List.range' start count).map (ringSlot slotCount))
          after result next := by
  intro count
  induction count with
  | zero =>
    intro start member first hcount holds hfirst _ hle hend live _ after result hclear
    cases hclear
    exact ⟨first, holds, rfl, hfirst, rfl, rfl, rfl, rfl, rfl, rfl,
      fun _ => ⟨live, by omega, by simp⟩, fun _ _ hzero => hzero, by simp⟩
  | succ count ih =>
    intro start member first hcount holds hfirst hge hle hend live writable after result hclear
    subst hcount
    have htwo := holds.two_le hfirst hlt
    have hfirstPos := holds.first_pos
    have hslot := ringSlot_lt (i := start) htwo
    rw [List.range'_succ, List.map_cons] at hclear ⊢
    unfold clearSlots at hclear
    split at hclear
    case isTrue hzero =>
      -- a slot that is zero already: the oldest record is not there
      have hnext : start ≠ first + (member.storage.slots.length - 1) := by
        intro heq
        rw [heq, ringSlot_add hfirstPos, holds.record first _ (Nat.le_refl _)
          (List.getElem?_eq_getElem (by omega))] at hzero
        cases hzero
      obtain ⟨next, cleared⟩ := ih (start + 1) rfl holds hfirst (by omega) (by omega)
        (by omega) live writable hclear
      refine ⟨next, { cleared with succeeded := fun hok => ?_ }⟩
      obtain ⟨hlive, hdone, hrest⟩ := cleared.succeeded hok
      exact ⟨hlive, hdone, List.forall_mem_cons.mpr ⟨cleared.zeroes hok _ hzero, hrest⟩⟩
    obtain ⟨next, hnext, hroom, hmoved⟩ := holds.clearing (by omega) hge hle (clear _)
    rw [Member.writeDurable_eq writable live hslot] at hclear
    cases hdone : (clear (ringSlot member.storage.slots.length start)).succeeds with
    | false =>
      -- a failed write ends the loop; what it leaves is an end of the log
      simp only [Member.writeResult, Member.afterWrite, hdone] at hclear
      cases hclear
      exact ⟨next, hnext, by simp [Member.setSlot], by omega, rfl, rfl, rfl, rfl, rfl, rfl,
        by simp, by simp, fun _ _ => rfl⟩
    | true =>
      rw [WriteOutcome.eq_done_of_succeeds hdone] at hclear hnext
      have hcount : (member.setSlot (ringSlot member.storage.slots.length start)
          .zero).storage.slots.length = member.storage.slots.length := List.length_set
      have hzero : ∀ slot, readSlot member.storage.slots slot = .zero ∨
          slot = ringSlot member.storage.slots.length start → readSlot (member.setSlot
            (ringSlot member.storage.slots.length start) .zero).storage.slots slot = .zero := by
        intro slot hcase
        rw [Member.setSlot, readSlot_set _ _ _ _ hslot]
        split
        · rfl
        · exact hcase.resolve_right ‹_›
      obtain ⟨final, cleared⟩ := ih (start + 1) hcount hnext (by omega) (by omega) (hroom hdone)
        (by omega) live writable hclear
      refine ⟨final, cleared.holds, cleared.count.trans hcount, cleared.bounded, cleared.copyA,
        cleared.copyB, cleared.header, cleared.source, cleared.mode, cleared.reclaimReady,
        fun hok => ?_, fun hok slot h => cleared.zeroes hok slot (hzero slot (.inl h)),
        cleared.failed⟩
      obtain ⟨hlive, hend, hrest⟩ := cleared.succeeded hok
      exact ⟨hlive, hend, List.forall_mem_cons.mpr
        ⟨cleared.zeroes hok _ (hzero _ (.inr rfl)), hrest⟩⟩

/-! ## Reclaiming -/

theorem reclaimAnchor_ready {cut : Nat × AnchorState} (h : reclaimAnchor journal member = .ok cut) :
    member.mode = .writable ∧ member.frozen = false ∧ member.checkpointReclaimReady = true := by
  simp only [reclaimAnchor, checkWritable, ok_iff, not_not, Bool.not_eq_true,
    Bool.not_eq_false] at h
  exact ⟨h.1.1, h.1.2, h.2.1⟩

/-- The anchor that a journal is cut at is the tail or the anchor that the journal has kept. -/
theorem View.reclaimAnchor (view : View slotCount log anchor journal.scanState)
    (h : reclaimAnchor journal member = .ok (tailSlot, found)) :
    tailSlot = ringSlot slotCount (log.length - 1) ∧
      namedByHeader member.header found.record found.rawRecordDigest found.physicalSlot ∧
      (∃ snapshot, validateCompactedRootRecord found.record = .ok snapshot) ∧
      ∃ index, anchorAt slotCount log index = some found ∧
        (index = log.length - 1 ∨ anchor = some index) := by
  simp only [Journal.reclaimAnchor, ok_iff] at h
  obtain ⟨_, _, tail, htail, slot, hslot, hchoice⟩ := h
  have htailSlot := Option.some.inj (hslot.symm.trans view.tailSlot)
  rw [view.tail] at htail
  split at hchoice
  case isTrue =>
    simp only [ok_iff, not_not, Prod.mk.injEq] at hchoice
    obtain ⟨_, rfl, hnamed, hroot, hvalid, rfl, rfl⟩ := hchoice
    refine ⟨htailSlot, hnamed, ⟨hroot, hvalid⟩, _, ?_, .inl rfl⟩
    rw [anchorAt, ← getLast?_eq_getElem?, htail, htailSlot, view.tailDigest tail htail]
    rfl
  simp only [ok_iff, not_not, Prod.mk.injEq] at hchoice
  obtain ⟨named, hactive, hnamed, hroot, hvalid, rfl, rfl⟩ := hchoice
  rw [view.activeAnchor, bind_eq_some_iff] at hactive
  obtain ⟨index, hanchor, hat⟩ := hactive
  exact ⟨htailSlot, hnamed, ⟨hroot, hvalid⟩, index, hat, .inr hanchor⟩

/-- The anchor that a journal is cut at is the one its header names. -/
theorem Tracked.reclaimAnchor (h : Tracked claimed log first anchor)
    (names : HeaderNames claimed.member.header claimed.member.storage.slots.length log first
      (some index))
    (hreclaim : reclaimAnchor claimed.journal claimed.member = .ok (tailSlot, found)) :
    claimed.member.frozen = false ∧ claimed.member.mode = .writable ∧
      claimed.member.checkpointReclaimReady = true ∧
      tailSlot = ringSlot claimed.member.storage.slots.length (log.length - 1) ∧
      anchorAt claimed.member.storage.slots.length log index = some found := by
  obtain ⟨hmode, hlive, hready⟩ := reclaimAnchor_ready hreclaim
  obtain ⟨hslot, ⟨_, hsequence, _⟩, _, other, hat, _⟩ := (h.view hlive).reclaimAnchor hreclaim
  refine ⟨hlive, hmode, hready, hslot, ?_⟩
  obtain ⟨_, hnames⟩ := names.named
  obtain rfl : other = index := by
    obtain ⟨_, hget, rfl⟩ := map_eq_some_iff.mp hat
    rw [hnames.sequence, names.fitting.linked.sequence hget,
      names.fitting.linked.sequence hnames.get] at hsequence
    omega
  exact hat

/-- What reclaiming did to an open journal. -/
structure Reclaimed (claimed : Claimed) (log : List Record) (index : Nat) (after : Claimed)
    (result : Except JournalError Unit) (first : Nat) : Prop where
  bounded : first ≤ index
  count : after.member.storage.slots.length = claimed.member.storage.slots.length
  copyA : after.member.storage.copyA = claimed.member.storage.copyA
  copyB : after.member.storage.copyB = claimed.member.storage.copyB
  header : after.member.header = claimed.member.header
  mode : after.member.mode = claimed.member.mode
  succeeded : result = .ok () → after.member.frozen = false ∧ first = index ∧
    Tracked after log first (some index)
  failed : ∀ e, result = .error e → after = claimed ∨ after.member.frozen = true

/-- Clearing slots keeps a member open over the end of the log. -/
theorem Cleared.opened {next : Nat} {walk : List Nat}
    (cleared : Cleared member log index walk after result next)
    (published : ∀ source, member.storage.copyAt source = .bytes member.header)
    (names : HeaderNames member.header member.storage.slots.length log first (some index)) :
    Opened after log next := by
  have hcopies : ∀ source, after.storage.copyAt source = .bytes member.header := by
    intro source
    rw [← published source]
    cases source <;> simp [Storage.copyAt, cleared.copyA, cleared.copyB]
  have hjournaled : Journaled after.storage log next := by
    refine ⟨cleared.holds, fun source header hcopy => ?_, fun a b hA hB => ?_, ⟨.a, _, hcopies .a⟩⟩
    · rw [hcopies source] at hcopy
      rw [← bytes.inj hcopy, cleared.count]
      exact ⟨some index, names.fitting, names.named, .inr ⟨index, rfl, cleared.bounded⟩⟩
    · have hA' := bytes.inj (hA.symm.trans (hcopies .a))
      have hB' := bytes.inj (hB.symm.trans (hcopies .b))
      rw [hA', hB']
      exact ⟨rfl, rfl, fun _ => rfl⟩
  refine ⟨hjournaled, fun _ => ?_, fun _ header hother => ?_, fun _ _ => ?_, ?_⟩
  · rw [cleared.header]; exact hcopies _
  · rw [hcopies] at hother
    rw [cleared.header, bytes.inj hother]
  · rw [cleared.header]; exact hcopies
  · rw [cleared.header]; exact names.fitting.linked

/-- The journal describes the log after it has been cut at an anchor. -/
theorem View.reclaimed (view : View slotCount log anchor journal.scanState) (htwo : 2 ≤ slotCount)
    (hpos : 0 < log.length) (hat : anchorAt slotCount log index = some found) :
    View slotCount log (some index)
      (journal.reclaimed (ringSlot slotCount (log.length - 1)) found).scanState := by
  have hnext : nextRingSlot (ringSlot slotCount (log.length - 1)) slotCount =
      ringSlot slotCount log.length := by
    rw [nextRingSlot_ringSlot htwo, Nat.sub_add_cancel hpos]
  have hslot : found.physicalSlot = ringSlot slotCount index := by
    obtain ⟨_, _, rfl⟩ := map_eq_some_iff.mp hat
    rfl
  refine ⟨view.count, view.tail, view.tailDigest, view.tailSlot, rfl, hat.symm, fun _ => ?_,
    fun _ => ?_⟩
  · simp only [Journal.reclaimed, view.count, hnext]
    rfl
  · simp only [Journal.reclaimed, view.count, hnext, hslot]
    rfl

/-- The slots that are cleared are those behind the end of the log, up to the anchor. -/
theorem Tracked.reclaimArc (h : Tracked claimed log first anchor)
    (live : claimed.member.frozen = false)
    (names : HeaderNames claimed.member.header claimed.member.storage.slots.length log first
      (some index)) (hfirst : first ≤ index)
    (hat : anchorAt claimed.member.storage.slots.length log index = some found) :
    ringWalk claimed.journal.scanState.slotCount found.physicalSlot
        claimed.journal.scanState.slotCount (nextRingSlot
          (ringSlot claimed.member.storage.slots.length (log.length - 1))
          claimed.journal.scanState.slotCount) =
      (List.range' log.length (index + (claimed.member.storage.slots.length - 1) -
        log.length)).map (ringSlot claimed.member.storage.slots.length) := by
  have holds := h.opened.journaled.holds
  obtain ⟨record, hnames⟩ := names.named
  have hlt := (List.getElem?_eq_some_iff.mp hnames.get).1
  have htwo := holds.two_le hfirst hlt
  have hfits := holds.fits
  obtain ⟨_, _, rfl⟩ := map_eq_some_iff.mp hat
  rw [(h.view live).count, nextRingSlot_ringSlot htwo, Nat.sub_add_cancel holds.length_pos,
    ringWalk_eq htwo hnames.pos hlt (by omega) (by omega)]

/-- **Reclaiming keeps the end of the log from an index up to the anchor on.** -/
theorem Tracked.reclaim (h : Tracked claimed log first anchor)
    (names : HeaderNames claimed.member.header claimed.member.storage.slots.length log first
      (some index)) (hfirst : first ≤ index) (clear : Nat → WriteOutcome) {after : Claimed}
    (hreclaim : reclaimPublishedAnchor claimed clear = (after, result)) :
    ∃ next, Tracked after log next (if result = .ok () then some index else anchor) ∧
      Reclaimed claimed log index after result next := by
  unfold reclaimPublishedAnchor at hreclaim
  rcases hanchor : Journal.reclaimAnchor claimed.journal claimed.member with _ | found
  · rw [hanchor] at hreclaim
    cases hreclaim
    exact ⟨first, by simpa using h, hfirst, rfl, rfl, rfl, rfl, rfl, by simp, fun _ _ => .inl rfl⟩
  obtain ⟨tailSlot, found⟩ := found
  obtain ⟨hlive, hmode, hready, rfl, hat⟩ := h.reclaimAnchor names hanchor
  have view := h.view hlive
  have holds := h.opened.journaled.holds
  obtain ⟨record, hnames⟩ := names.named
  have hlt := (List.getElem?_eq_some_iff.mp hnames.get).1
  have htwo := holds.two_le hfirst hlt
  have hfits := holds.fits
  have hpos := holds.length_pos
  have harc := h.reclaimArc hlive names hfirst hat
  rw [hanchor] at hreclaim
  simp only [harc] at hreclaim
  cases hclear : clearSlots clear ((range' log.length
      (index + (claimed.member.storage.slots.length - 1) - log.length)).map
        (ringSlot claimed.member.storage.slots.length)) claimed.member with
  | mk member cleared =>
    obtain ⟨next, hcleared⟩ := clearSlots_cleared hlt clear _ _ log.length rfl holds hfirst
      (Nat.le_refl _) hfits (by omega) hlive hmode hclear
    have hopened := hcleared.opened (h.opened.published hlive hready) names
    rw [hclear] at hreclaim
    cases cleared with
    | error e =>
      cases hreclaim
      have hfrozen := hcleared.failed e rfl
      exact ⟨next, .of_frozen hopened hfrozen, hcleared.bounded, hcleared.count, hcleared.copyA,
        hcleared.copyB, hcleared.header, hcleared.mode, by simp, fun _ _ => .inr hfrozen⟩
    | ok done =>
      cases hreclaim
      obtain ⟨hlive', rfl, hzero⟩ := hcleared.succeeded rfl
      have hclean : ¬ Damaged member.storage.slots := by
        rw [← hcleared.count] at hzero
        rw [damaged_iff_behind hcleared.holds (Nat.le_refl _) hlt]
        rintro ⟨slot, hmem, fault, hread⟩
        rw [hzero slot hmem] at hread
        cases hread
      have htracked : Tracked ⟨member, claimed.journal.reclaimed
          (ringSlot claimed.member.storage.slots.length (log.length - 1)) found⟩ log next
          (some next) := by
        refine ⟨hopened, fun _ => ?_, fun _ => .inr ⟨next, rfl, Nat.le_refl _⟩,
          fun _ => names.root, fun _ => ?_, fun _ _ other hother => ?_⟩
        · rw [hcleared.count]
          exact view.reclaimed htwo hpos hat
        · simp [reclaimed, hclean]
        · exact ⟨some.inj hother, hclean⟩
      exact ⟨next, by simpa using htracked, Nat.le_refl _, hcleared.count, hcleared.copyA,
        hcleared.copyB, hcleared.header, hcleared.mode,
        fun _ => ⟨hlive', rfl, htracked⟩, by simp⟩

end Zettide
