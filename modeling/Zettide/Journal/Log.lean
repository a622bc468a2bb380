import Zettide.Journal.Chain
import Zettide.Lib.Ring

/-! # The log of a member

A member's journal is a log that starts with its birth record and only grows. The control region
holds the birth record and the records from some index on; earlier ones have been reclaimed. The
log itself is not stored anywhere: it is what the region stands for, and this module says what a
scan of the region returns in terms of the log. -/

namespace Zettide

open Journal List Option Slot PoolAuthorityCheckpoint ControlRecord

variable [Blake3]

/-- A log of records of one member, each of which a scan accepts after the one before it. -/
structure WellLinked (setId memberId : Id) (log : List Record) : Prop where
  decoded : ∀ record ∈ log, decode record = .ok record
  owner : ∀ record ∈ log, record.setId = setId ∧ record.memberId = memberId
  birth : ∀ record ∈ log.head?, record.localSequence = 1
  later : ∀ record ∈ log.tail, LaterRecord record
  linked : log.IsChain fun first second =>
    checkSuccessor first (recordDigest first) second = .ok ()

/-- The region holds the birth record of the log and its records from index `first` on, and no other
record. -/
structure Holds (slots : List Slot) (log : List Record) (first : Nat) : Prop where
  first_pos : 0 < first
  first_le : first ≤ log.length
  fits : log.length ≤ first + (slots.length - 1)
  birth : ∀ record, log[0]? = some record → readSlot slots 0 = .bytes record
  record : ∀ index record, first ≤ index → log[index]? = some record →
    readSlot slots (ringSlot slots.length index) = .bytes record
  only : ∀ slot record, 0 < slot → readSlot slots slot = .bytes record →
    ∃ index, first ≤ index ∧ log[index]? = some record ∧ slot = ringSlot slots.length index

/-- The entry that a scan makes of the record at an index. -/
def entryAt (slotCount : Nat) (item : Record × Nat) : HistoryEntry :=
  ⟨item.1, item.1, recordDigest item.1, ringSlot slotCount item.2⟩

/-- The entries of a log. -/
def logEntries (slotCount : Nat) (log : List Record) : List HistoryEntry :=
  log.zipIdx.map (entryAt slotCount)

/-- What a scan sees of a log: its birth record and the records from an index on. -/
def visibleEntries (slotCount : Nat) (log : List Record) (start : Nat) : List HistoryEntry :=
  (logEntries slotCount log).take 1 ++ (logEntries slotCount log).drop start

/-- The anchor at an index of the log. -/
def anchorAt (slotCount : Nat) (log : List Record) (index : Nat) : Option AnchorState :=
  (log[index]?).map fun record =>
    ⟨record, recordDigest record, ringSlot slotCount index⟩

/-! ## Sequence numbers -/

variable {log : List Record} {slots : List Slot} {record : Record} {header : Header}
  {setId memberId : Id} {anchor : Option Nat} {slot slotCount first : Nat}

section

variable (h : WellLinked setId memberId log) {index : Nat}
include h

theorem WellLinked.sequence
    (hget : log[index]? = some record) : record.localSequence = index + 1 := by
  induction index generalizing record with
  | zero =>
    refine h.birth record ?_
    rw [mem_def, ← hget, List.head?_eq_getElem?]
  | succ index ih =>
    obtain ⟨hlt, rfl⟩ := List.getElem?_eq_some_iff.mp hget
    have hlink := List.isChain_iff_getElem.mp h.linked index hlt
    have hprev := ih (List.getElem?_eq_getElem (show index < log.length by omega))
    have := (checkSuccessor_follows 0 0 hlink).sequence
    simp only at this
    omega

theorem WellLinked.follows (index : Nat) {first second : Record}
    (hfirst : log[index]? = some first) (hsecond : log[index + 1]? = some second) :
    checkSuccessor first (recordDigest first) second = .ok () := by
  obtain ⟨hlt, rfl⟩ := List.getElem?_eq_some_iff.mp hsecond
  obtain ⟨_, rfl⟩ := List.getElem?_eq_some_iff.mp hfirst
  exact List.isChain_iff_getElem.mp h.linked index hlt

theorem WellLinked.later_of_pos (hpos : 0 < index)
    (hget : log[index]? = some record) : LaterRecord record := by
  refine h.later record ?_
  obtain ⟨index, rfl⟩ : ∃ k, index = k + 1 := ⟨index - 1, by omega⟩
  rw [← getElem?_tail] at hget
  exact mem_of_getElem? hget

/-- A log grows by a record that continues its last one. -/
theorem WellLinked.snoc {last : Record} (hlast : log.getLast? = some last)
    (decoded : decode record = .ok record)
    (owner : record.setId = setId ∧ record.memberId = memberId) (later : LaterRecord record)
    (follows : checkSuccessor last (recordDigest last) record = .ok ()) :
    WellLinked setId memberId (log ++ [record]) := by
  have hne : log ≠ [] := by rintro rfl; simp at hlast
  refine ⟨?_, ?_, ?_, ?_, ?_⟩
  · intro r hr
    rcases mem_append.mp hr with hr | hr
    · exact h.decoded r hr
    · rwa [mem_singleton.mp hr]
  · intro r hr
    rcases mem_append.mp hr with hr | hr
    · exact h.owner r hr
    · rwa [mem_singleton.mp hr]
  · rw [head?_append_of_ne_nil _ hne]
    exact h.birth
  · rw [tail_append_of_ne_nil hne]
    intro r hr
    rcases mem_append.mp hr with hr | hr
    · exact h.later r hr
    · rwa [mem_singleton.mp hr]
  · rw [isChain_append]
    refine ⟨h.linked, by simp, ?_⟩
    intro x hx y hy
    obtain rfl : record = y := by simpa using hy
    obtain rfl : x = last := by
      rw [mem_def, hlast] at hx
      exact (some.inj hx).symm
    exact follows

end

theorem WellLinked.of_append {more : List Record}
    (h : WellLinked setId memberId (log ++ more)) : WellLinked setId memberId log where
  decoded record hmem := h.decoded record (mem_append_left _ hmem)
  owner record hmem := h.owner record (mem_append_left _ hmem)
  birth record hmem := h.birth record (by cases log <;> simp_all)
  later record hmem := h.later record (by cases log <;> simp_all)
  linked := (isChain_append.mp h.linked).1

/-! ## Header and scan of a log -/

/-- The header fits the region and the birth record of the log. -/
structure HeaderFor (header : Header) (slotCount : Nat) (log : List Record) : Prop where
  valid : MemberFormat.validate header = .ok ()
  pool : header.dynamicPool = true
  slots : header.control.length = 4096 * slotCount
  birth : ∀ record ∈ log.head?, validateFirstRecord header record = .ok ()
  linked : WellLinked header.setId header.memberId log

/-- The header names the record at an index of the log as its checkpoint. -/
structure NamesAnchor (header : Header) (slotCount : Nat) (log : List Record) (index : Nat)
    (record : Record) : Prop where
  pos : 0 < index
  get : log[index]? = some record
  root : ∃ snapshot, validateCompactedRootRecord record = .ok snapshot
  sequence : header.checkpointRecordSequence = record.localSequence
  digest : header.checkpointRecordDigest = recordDigest record
  hint : hintSlot header = some (ringSlot slotCount index)

/-- The anchor that the header gives the log: none, or the record it names. -/
def Named (header : Header) (slotCount : Nat) (log : List Record) (anchor : Option Nat) : Prop :=
  match anchor with
  | none => hintSlot header = none
  | some index => ∃ record, NamesAnchor header slotCount log index record

/-- The slot that the next record of the log goes to. -/
def nextSlotOf (slotCount : Nat) (log : List Record) (anchor : Option Nat) : Nat :=
  match anchor with
  | none => log.length
  | some _ => ringSlot slotCount log.length

/-- There is no slot for another record. -/
def IsFull (slotCount : Nat) (log : List Record) (anchor : Option Nat) : Prop :=
  match anchor with
  | none => log.length = slotCount
  | some index => ringSlot slotCount log.length = ringSlot slotCount index

instance (slotCount : Nat) (log : List Record) (anchor : Option Nat) :
    Decidable (IsFull slotCount log anchor) := by
  unfold IsFull
  cases anchor <;> infer_instance

/-- The state of a scan, or of an open journal, describes the log. -/
structure View (slotCount : Nat) (log : List Record) (anchor : Option Nat) (state : ScanResult) :
    Prop where
  count : state.slotCount = slotCount
  tail : state.tail = log.getLast?
  tailDigest : ∀ record ∈ log.getLast?,
    state.tailRawRecordDigest = recordDigest record
  tailSlot : state.tailPhysicalSlot = some (ringSlot slotCount (log.length - 1))
  anchored : state.anchored = anchor.isSome
  activeAnchor : state.activeAnchor = anchor.bind (anchorAt slotCount log)
  next : state.unresolvedTailDamage = false →
    state.nextPhysicalSlot = nextSlotOf slotCount log anchor
  full : state.unresolvedTailDamage = false →
    state.journalFull = decide (IsFull slotCount log anchor)

/-- Some slot holds bytes that do not decode. -/
def Damaged (slots : List Slot) : Prop := ∃ slot ∈ slots, ∃ fault, slot = .damaged fault

/-! ## The linear scan of a log -/

theorem scanLinearFrom_append (header : Header) (before after : List Slot) :
    ∀ (slot : Nat) (state : LinearState), scanLinearFrom header slot (before ++ after) state =
        (scanLinearFrom header slot before state >>=
          scanLinearFrom header (slot + before.length) after) := by
  induction before with
  | nil => intro slot state; rfl
  | cons raw rest ih =>
    intro slot state
    simp only [cons_append, scanLinearFrom, length_cons]
    cases scanLinearSlot header slot raw state with
    | error e => rfl
    | ok next =>
      show scanLinearFrom header (slot + 1) (rest ++ after) next = _
      rw [ih, show slot + 1 + rest.length = slot + (rest.length + 1) by omega]
      rfl

/-- What the linear scan has found after the slots of a log. -/
structure LinearView (slotCount : Nat) (log : List Record) (anchor : Option Nat)
    (state : LinearState) : Prop where
  count : state.result.slotCount = slotCount
  tail : state.result.tail = log.getLast?
  tailDigest : ∀ record ∈ log.getLast?,
    state.result.tailRawRecordDigest = recordDigest record
  tailSlot : log ≠ [] → state.result.tailPhysicalSlot = some (log.length - 1)
  activeAnchor : state.result.activeAnchor = anchor.bind (anchorAt slotCount log)
  anchored : state.result.anchored = false
  frontier : state.result.physicalFrontier = log.length
  entries : state.entries = logEntries slotCount log
  pending : state.pendingInvalidSlots = 0

theorem logEntries_snoc (slotCount : Nat) (log : List Record) (record : Record) :
    logEntries slotCount (log ++ [record]) =
      logEntries slotCount log ++ [entryAt slotCount (record, log.length)] := by
  simp [logEntries, zipIdx_append]

theorem compactedRoot_isSnapshot {snapshot : Snapshot}
    (h : validateCompactedRootRecord record = .ok snapshot) :
    record.kind = .checkpoint ∧ isSnapshotRecord record = true := by
  simp only [validateCompactedRootRecord, ok_iff, not_not] at h
  obtain ⟨hkind, _, _, _, _, decoded, hdecode, _⟩ := h
  refine ⟨hkind, ?_⟩
  cases hpayload : record.payload <;> simp_all [PoolAuthorityCheckpoint.decode, isSnapshotRecord]

theorem anchorAt_snoc (slotCount : Nat) (log : List Record) (record : Record) (index : Nat) :
    anchorAt slotCount (log ++ [record]) index =
      if index = log.length then
        some ⟨record, recordDigest record, ringSlot slotCount index⟩
      else anchorAt slotCount log index := by
  unfold anchorAt
  split
  case isTrue h => rw [h, getElem?_append_right (Nat.le_refl _)]; simp
  case isFalse h =>
    rcases Nat.lt_or_gt_of_ne h with h | h
    · rw [getElem?_append_left h]
    · rw [getElem?_eq_none (by simp; omega), getElem?_eq_none (by omega)]

/-- The record at a slot of a linear journal is the named checkpoint just when it is at the index of
the anchor. -/
theorem matchesHint_iff (named : Named header slotCount log anchor) (fits : log.length ≤ slotCount)
    (hget : log[slot]? = some record) :
    matchesHint header slot record ↔ anchor = some slot := by
  rcases anchor with _ | index
  · simp [matchesHint, show hintSlot header = none from named]
  obtain ⟨named, hnames⟩ := named
  have hindex : index < log.length := (List.getElem?_eq_some_iff.mp hnames.get).1
  have hhint : hintSlot header = some index := by
    rw [hnames.hint, ringSlot_of_lt (by omega)]
  constructor
  · rintro ⟨hhit, _⟩
    rw [hhint] at hhit
    exact hhit
  · rintro ⟨⟩
    obtain rfl : named = record := by
      have := hnames.get.symm.trans hget
      exact some.inj this
    obtain ⟨snapshot, hroot⟩ := hnames.root
    exact ⟨hhint, (compactedRoot_isSnapshot hroot).1, hnames.sequence.symm, hnames.digest.symm⟩

/-- A record that continues the log passes the checks of the linear scan. -/
theorem checkLinear_of_linked (fitting : HeaderFor header slotCount (log ++ [record]))
    (state : ScanResult) (tail : state.tail = log.getLast?)
    (tailDigest : ∀ last ∈ log.getLast?, state.tailRawRecordDigest = recordDigest last) :
    checkLinear header state record = .ok () := by
  have howner := fitting.linked.owner record (by simp)
  unfold checkLinear
  rw [tail]
  simp only [ok_iff, checkOwner_eq_ok]
  refine ⟨howner, ?_⟩
  rcases hlast : log.getLast? with _ | last
  · obtain rfl : log = [] := by simpa using hlast
    exact fitting.birth record (by simp)
  obtain ⟨init, rfl⟩ : ∃ init, log = init ++ [last] := getLast?_eq_some_iff.mp hlast
  have hlater : LaterRecord record := fitting.linked.later record (by cases init <;> simp)
  have hfollows : checkSuccessor last (recordDigest last) record = .ok () :=
    fitting.linked.follows init.length (by simp) (by simp)
  have hsequence := (checkSuccessor_follows 0 0 hfollows).sequence
  simp only at hsequence
  simp only [ok_iff]
  rw [tailDigest last hlast]
  exact ⟨hlater.1, hlater.2, by omega, by omega, hfollows⟩

/-- The linear scan reads the slots of a log one by one. -/
theorem scanLinearFrom_log {full : List Record} (fitting : HeaderFor header slotCount full)
    (named : Named header slotCount full anchor) (fits : full.length ≤ slotCount) :
    ∀ {log : List Record}, log <+: full →
      ∃ state, scanLinearFrom header 0 (log.map bytes) (linearStart header slotCount) =
        .ok state ∧ LinearView slotCount log anchor state := by
  intro log
  induction log using reverseRecOn with
  | nil =>
    intro _
    refine ⟨_, rfl, rfl, rfl, by simp, by simp, ?_, rfl, rfl, rfl, rfl⟩
    cases anchor <;> simp [linearStart, anchorAt]
  | append_singleton log record ih =>
    intro hprefix
    obtain ⟨more, rfl⟩ := hprefix
    obtain ⟨state, hscan, view⟩ := ih ⟨record :: more, by simp⟩
    have hget : (log ++ [record] ++ more)[log.length]? = some record := by simp
    have fitting' : HeaderFor header slotCount (log ++ [record]) :=
      ⟨fitting.valid, fitting.pool, fitting.slots,
        fun r hr => fitting.birth r (by cases log <;> simp_all), fitting.linked.of_append⟩
    have hlt : log.length < slotCount := by simp at fits; omega
    rw [map_append, scanLinearFrom_append, hscan]
    simp only [bind, Except.bind, map_cons, map_nil, length_map, Nat.zero_add,
      scanLinearFrom, scanLinearSlot, reduceCtorEq, if_false, decodeSlot,
      fitting'.linked.decoded record (by simp),
      checkLinear_of_linked fitting' { state.result with
        physicalFrontier := log.length + 1
        zeroHoleCount := state.result.zeroHoleCount + state.pendingZeroSlots } view.tail
        view.tailDigest]
    refine ⟨_, rfl, view.count, by simp [acceptLinear], by simp [acceptLinear],
      by simp [acceptLinear], ?_, view.anchored, by simp [acceptLinear], ?_, rfl⟩
    · -- the anchor is found exactly at its own index
      have hhit := matchesHint_iff named fits hget
      rcases anchor with _ | index
      · simpa [acceptLinear, hhit] using view.activeAnchor
      simp only [acceptLinear, hhit, bind_some, anchorAt_snoc, some.injEq]
      by_cases h : index = log.length
      · subst h
        obtain ⟨named, hnames⟩ := named
        obtain ⟨snapshot, hroot⟩ := hnames.root
        obtain rfl : named = record := some.inj (hnames.get.symm.trans hget)
        simp [anchorOf, (compactedRoot_isSnapshot hroot).2, hroot, value, ringSlot_of_lt hlt]
      · simpa [h] using view.activeAnchor
    · simp [acceptLinear, logEntries_snoc, view.entries, entryAt, ringSlot_of_lt hlt]

/-- Slots without records change neither tail nor entries of the linear scan. -/
theorem scanLinearFrom_blank (blank : ∀ slot ∈ slots, ∀ record, slot ≠ .bytes record) :
    ∀ (position : Nat) (state : LinearState), ∃ final,
      scanLinearFrom header position slots state = .ok final ∧
        final.result.slotCount = state.result.slotCount ∧
        final.result.tail = state.result.tail ∧
        final.result.tailRawRecordDigest = state.result.tailRawRecordDigest ∧
        final.result.tailPhysicalSlot = state.result.tailPhysicalSlot ∧
        final.result.activeAnchor = state.result.activeAnchor ∧
        final.result.anchored = state.result.anchored ∧
        final.entries = state.entries ∧
        (final.pendingInvalidSlots = 0 ↔ state.pendingInvalidSlots = 0 ∧ ¬ Damaged slots) ∧
        (¬ Damaged slots → final.result.physicalFrontier = state.result.physicalFrontier) := by
  induction slots with
  | nil =>
    intro position state
    exact ⟨state, rfl, rfl, rfl, rfl, rfl, rfl, rfl, rfl, by simp [Damaged], by simp⟩
  | cons raw rest ih =>
    intro position state
    have ih := ih fun slot hmem => blank slot (mem_cons_of_mem _ hmem)
    cases raw with
    | bytes record => exact absurd rfl (blank _ mem_cons_self record)
    | zero =>
      obtain ⟨final, hscan, h⟩ := ih (position + 1)
        { state with pendingZeroSlots := state.pendingZeroSlots + 1 }
      refine ⟨final, hscan, ?_⟩
      simpa [Damaged] using h
    | damaged fault =>
      obtain ⟨final, hscan, h₁, h₂, h₃, h₄, h₅, h₆, h₇, h₈, _⟩ := ih (position + 1) { state with
          result := { state.result with
                      physicalFrontier := position + 1
                      zeroHoleCount := state.result.zeroHoleCount + state.pendingZeroSlots
                      invalidSlotCount := state.result.invalidSlotCount + 1 }
          pendingZeroSlots := 0
          pendingInvalidSlots := state.pendingInvalidSlots + 1 }
      have hdamaged : Damaged (damaged fault :: rest) := ⟨_, mem_cons_self, fault, rfl⟩
      refine ⟨final, hscan, h₁, h₂, h₃, h₄, h₅, h₆, h₇, ?_, fun h => absurd hdamaged h⟩
      rw [h₈]
      simp [hdamaged]

section

omit [Blake3]

theorem getElem?_of_readSlot
    (h : readSlot slots slot = .bytes record) : slots[slot]? = some (.bytes record) := by
  unfold readSlot at h
  cases hget : slots[slot]? with
  | none => simp [hget] at h
  | some content => simpa [hget] using h

theorem readSlot_of_getElem? {content : Slot}
    (h : slots[slot]? = some content) : readSlot slots slot = content := by
  simp [readSlot, getD_eq_getElem?_getD, h]

theorem Holds.length_pos (h : Holds slots log first) : 0 < log.length :=
  Nat.lt_of_lt_of_le h.first_pos h.first_le

theorem Holds.slots_pos (h : Holds slots log first) : 0 < slots.length := by
  have hbirth := getElem?_of_readSlot (h.birth _ (List.getElem?_eq_getElem h.length_pos))
  exact (List.getElem?_eq_some_iff.mp hbirth).1

/-- A log of which nothing has been reclaimed is at the start of the region. -/
theorem Holds.slots_eq (h : Holds slots log 1) :
    slots = log.map bytes ++ slots.drop log.length ∧ log.length ≤ slots.length ∧
      ∀ slot ∈ slots.drop log.length, ∀ record, slot ≠ .bytes record := by
  have hpos := h.slots_pos
  have hfits := h.fits
  have hget : ∀ (index : Nat) (record : Record), log[index]? = some record →
      slots[index]? = some (Slot.bytes record) := by
    intro index record hget
    have hlt := (List.getElem?_eq_some_iff.mp hget).1
    rcases Nat.eq_zero_or_pos index with rfl | hindex
    · exact getElem?_of_readSlot (h.birth record hget)
    · have := getElem?_of_readSlot (h.record index record hindex hget)
      rwa [ringSlot_of_lt (by omega)] at this
  refine ⟨?_, by omega, ?_⟩
  · apply ext_getElem?
    intro index
    rcases Nat.lt_or_ge index log.length with hlt | hge
    · rw [getElem?_append_left (by simpa using hlt), getElem?_map,
        hget index _ (getElem?_eq_getElem hlt), getElem?_eq_getElem hlt]
      rfl
    · rw [getElem?_append_right (by simpa using hge), getElem?_drop, length_map]
      congr 1
      omega
  · intro slot hmem record hslot
    obtain ⟨offset, hoffset⟩ := mem_iff_getElem?.mp hmem
    rw [getElem?_drop] at hoffset
    have hread := readSlot_of_getElem? hoffset
    have hpos := h.length_pos
    rw [hslot] at hread
    obtain ⟨index, _, hindex, heq⟩ := h.only _ record (by omega) hread
    have hlt := (List.getElem?_eq_some_iff.mp hindex).1
    rw [ringSlot_of_lt (by omega)] at heq
    omega

theorem damaged_drop (h : slots = log.map bytes ++ slots.drop log.length) :
    Damaged (slots.drop log.length) ↔ Damaged slots := by
  constructor
  · rintro ⟨slot, hmem, hfault⟩
    exact ⟨slot, mem_of_mem_drop hmem, hfault⟩
  · rintro ⟨slot, hmem, fault, rfl⟩
    rw [h] at hmem
    rcases mem_append.mp hmem with hmem | hmem
    · simp at hmem
    · exact ⟨_, hmem, fault, rfl⟩

theorem finishLinear_damage (state : LinearState) :
    (finishLinear state).unresolvedTailDamage = decide (state.pendingInvalidSlots ≠ 0) := by
  unfold finishLinear
  simp only
  split <;> rfl

end

/-- **A scan of an unreclaimed journal returns the whole log.** -/
theorem scanLinear_of_holds (holds : Holds slots log 1)
    (fitting : HeaderFor header slots.length log) (named : Named header slots.length log anchor) :
    ∃ state, scanLinear header slots = .ok (state, logEntries slots.length log) ∧
      View slots.length log anchor state ∧
      (state.unresolvedTailDamage = true ↔ Damaged slots) := by
  obtain ⟨hslots, hle, hblank⟩ := holds.slots_eq
  have hpos := holds.length_pos
  obtain ⟨middle, hlog, view⟩ := scanLinearFrom_log fitting named hle (prefix_refl log)
  obtain ⟨final, hrest, hcount, htail, hdigest, htailSlot, hanchor, hanchored, hentries, hpending,
    hfrontier⟩ := scanLinearFrom_blank hblank log.length middle
  have hscan : scanLinearFrom header 0 (log.map bytes ++ slots.drop log.length)
      (linearStart header slots.length) = .ok final := by
    rw [scanLinearFrom_append, hlog]
    simpa [bind, Except.bind] using hrest
  rw [← hslots] at hscan
  rw [damaged_drop hslots] at hpending hfrontier
  have hdamage : final.pendingInvalidSlots ≠ 0 ↔ Damaged slots := by
    rw [Ne, hpending, view.pending]
    simp
  refine ⟨finishLinear final, ?_, ?_, ?_⟩
  · simp [scanLinear, hscan, hentries, view.entries]
  · rw [view.activeAnchor] at hanchor
    have hne : log ≠ [] := by rintro rfl; simp at hpos
    have hslot : final.result.tailPhysicalSlot = some (ringSlot slots.length (log.length - 1)) := by
      rw [htailSlot, view.tailSlot hne, ringSlot_of_lt (by omega)]
    have hclean : final.pendingInvalidSlots = 0 → final.result.physicalFrontier = log.length :=
      fun h => (hfrontier fun hdam => hdamage.mpr hdam h).trans view.frontier
    cases anchor with
    | none =>
      simp only [bind_none] at hanchor
      refine ⟨?_, ?_, ?_, ?_, ?_, ?_, ?_, ?_⟩ <;> simp only [finishLinear, hanchor]
      · rw [hcount, view.count]
      · rw [htail, view.tail]
      · rw [hdigest]; exact view.tailDigest
      · exact hslot
      · rw [hanchored, view.anchored]; rfl
      · rfl
      · simpa [nextSlotOf] using hclean
      · intro h
        rw [hclean (by simpa using h), hcount, view.count]
        rfl
    | some index =>
      obtain ⟨record, hnames⟩ := named
      have hat : anchorAt slots.length log index = some
          ⟨record, recordDigest record, ringSlot slots.length index⟩ := by
        simp [anchorAt, hnames.get]
      have htwo : 2 ≤ slots.length := by
        have := (List.getElem?_eq_some_iff.mp hnames.get).1
        have := hnames.pos
        omega
      rw [bind_some, hat] at hanchor
      have hnext : final.pendingInvalidSlots = 0 →
          (if final.result.physicalFrontier = slots.length then 1
            else final.result.physicalFrontier) = ringSlot slots.length log.length := by
        intro h
        rw [hclean h]
        obtain ⟨last, hlast⟩ : ∃ last, log.length = last + 1 := ⟨log.length - 1, by omega⟩
        rw [hlast, ringSlot_succ htwo, ringSlot_of_lt (by omega)]
      refine ⟨?_, ?_, ?_, ?_, ?_, ?_, ?_, ?_⟩ <;> simp only [finishLinear, hanchor]
      · rw [hcount, view.count]
      · rw [htail, view.tail]
      · rw [hdigest]; exact view.tailDigest
      · exact hslot
      · rfl
      · rw [bind_some, hat]
      · intro h
        rw [hcount, view.count]
        exact hnext (by simpa using h)
      · intro h
        rw [hcount, view.count, hnext (by simpa using h)]
        rfl
  · rw [← hdamage, finishLinear_damage, decide_eq_true_iff]

end Zettide
