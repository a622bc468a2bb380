import Zettide.Journal.Log

/-! # The scan of a reclaimed journal

Once records before the anchor have been reclaimed the linear scan fails: the first record it finds
after the birth record does not continue it. The anchored scan then walks around the ring from the
anchor. It reads the records behind the anchor in order, and what it meets after the last one is
older than the anchor or no record at all. -/

namespace Zettide

open Journal List ControlRecord Slot Option

variable [Blake3] {n : Nat}

/-! ## The walk around the ring -/

omit [Blake3] in
theorem nextRingSlot_ringSlot (hn : 2 ≤ n) (index : Nat) :
    nextRingSlot (ringSlot n index) n = ringSlot n (index + 1) := by
  rw [ringSlot_succ hn]
  rfl

variable {log : List Record} {slots : List Slot} {header : Header}
  {first anchor index slotCount : Nat} {anchorRecord record birth : Record}

omit [Blake3] in
/-- A walk that stops at the slot of the anchor visits the slots of the indices up to one turn after
the anchor. -/
theorem ringWalk_eq (hn : 2 ≤ n) (hanchor : 0 < anchor) :
    ∀ {fuel start : Nat}, anchor < start → start ≤ anchor + (n - 1) →
      anchor + (n - 1) - start ≤ fuel →
      ringWalk n (ringSlot n anchor) fuel (ringSlot n start) =
        (List.range' start (anchor + (n - 1) - start)).map (ringSlot n) := by
  intro fuel
  induction fuel with
  | zero =>
    intro start _ _ hfuel
    simp [ringWalk, show anchor + (n - 1) - start = 0 by omega]
  | succ fuel ih =>
    intro start hlt hle hfuel
    unfold ringWalk
    by_cases hend : start = anchor + (n - 1)
    · subst hend
      rw [ringSlot_add hanchor, if_pos rfl]
      simp
    have hne : ringSlot n start ≠ ringSlot n anchor := by
      intro h
      have := ringSlot_inj hanchor (by omega) (by omega) h.symm
      omega
    rw [if_neg hne, nextRingSlot_ringSlot hn, ih (by omega) (by omega) (by omega),
      show anchor + (n - 1) - start = anchor + (n - 1) - (start + 1) + 1 by omega,
      List.range'_succ, List.map_cons]

/-! ## The linear scan fails -/

/-- A record that cannot continue the tail ends the linear scan. -/
theorem scanLinearFrom_gap {tail : Record} :
    ∀ {position : Nat} {state final : LinearState}, state.result.tail = some tail →
      (∃ record, bytes record ∈ slots) →
      (∀ record, bytes record ∈ slots → record.localSequence ≠ tail.localSequence + 1 ∧
          decode record = .ok record) →
      scanLinearFrom header position slots state ≠ .ok final := by
  induction slots with
  | nil => rintro _ _ _ _ ⟨record, hmem⟩; cases hmem
  | cons raw rest ih =>
    intro position state final htail hsome hgap hscan
    simp only [scanLinearFrom, bind_eq_ok] at hscan
    obtain ⟨next, hstep, hrest⟩ := hscan
    have hgap' : ∀ record, bytes record ∈ rest →
        record.localSequence ≠ tail.localSequence + 1 ∧ decode record = .ok record :=
      fun record hmem => hgap record (mem_cons_of_mem _ hmem)
    cases raw with
    | bytes record =>
      obtain ⟨hsequence, hdecode⟩ := hgap record mem_cons_self
      simp only [scanLinearSlot, reduceCtorEq, if_false, decodeSlot, hdecode, ok_iff, checkLinear,
        htail] at hstep
      obtain ⟨⟨_, _, _, _, _, hsuccessor⟩, _⟩ := hstep
      exact hsequence (checkSuccessor_follows 0 0 hsuccessor).sequence
    | zero =>
      simp only [scanLinearSlot, if_true, Except.ok.injEq] at hstep
      refine ih ?_ ?_ hgap' hrest
      · rw [← hstep]; exact htail
      · obtain ⟨record, hmem⟩ := hsome
        exact ⟨record, by simpa using hmem⟩
    | damaged fault =>
      simp only [scanLinearSlot, reduceCtorEq, if_false, decodeSlot, Except.ok.injEq] at hstep
      refine ih ?_ ?_ hgap' hrest
      · rw [← hstep]; exact htail
      · obtain ⟨record, hmem⟩ := hsome
        exact ⟨record, by simpa using hmem⟩

omit [Blake3] in
theorem Holds.two_le (h : Holds slots log first) (hfirst : first ≤ index)
    (hlt : index < log.length) : 2 ≤ slots.length := by
  have hread := getElem?_of_readSlot (h.record index _ hfirst (List.getElem?_eq_getElem hlt))
  have hslot := (List.getElem?_eq_some_iff.mp hread).1
  have := ringSlot_pos (n := slots.length) (Nat.lt_of_lt_of_le h.first_pos hfirst)
  omega

theorem scanLinear_of_reclaimed (holds : Holds slots log first) (linked : WellLinked header.setId
      header.memberId log) (reclaimed : 1 < first) (held : first < log.length) :
    ∀ result, scanLinear header slots ≠ .ok result := by
  intro result hscan
  simp only [scanLinear, bind_eq_ok] at hscan
  obtain ⟨final, hscan, _⟩ := hscan
  have hbirth := getElem?_eq_getElem holds.length_pos
  have hslot := getElem?_of_readSlot (holds.birth _ hbirth)
  obtain _ | ⟨raw, rest⟩ := slots
  · simp at hslot
  obtain rfl : raw = .bytes log[0] := by simpa using hslot
  simp only [scanLinearFrom, bind_eq_ok] at hscan
  obtain ⟨next, hstep, hrest⟩ := hscan
  have hdecode := linked.decoded log[0] (getElem_mem _)
  have htail : next.result.tail = some log[0] := by
    simp only [scanLinearSlot, reduceCtorEq, if_false, decodeSlot, hdecode, ok_iff] at hstep
    rw [← hstep.2]
    rfl
  refine scanLinearFrom_gap htail ?_ ?_ hrest
  · have hread := getElem?_of_readSlot
      (holds.record first _ (Nat.le_refl _) (getElem?_eq_getElem held))
    have hpos := ringSlot_pos (n := (bytes log[0] :: rest).length) holds.first_pos
    obtain ⟨slot, hslot⟩ : ∃ slot, ringSlot (bytes log[0] :: rest).length first = slot + 1 :=
      ⟨_, (Nat.succ_pred_eq_of_pos hpos).symm⟩
    rw [hslot, getElem?_cons_succ] at hread
    exact ⟨_, mem_of_getElem? hread⟩
  · intro record hmem
    obtain ⟨slot, hslot⟩ := mem_iff_getElem?.mp hmem
    obtain ⟨index, hindex, hget, _⟩ := holds.only (slot + 1) record (Nat.succ_pos _)
      (readSlot_of_getElem? (by rw [getElem?_cons_succ]; exact hslot))
    rw [linked.sequence hget, linked.sequence hbirth]
    exact ⟨by omega, linked.decoded record (mem_of_getElem? hget)⟩

/-! ## The anchored scan -/

/-- What the anchored scan has found when it has read the log from the anchor on. -/
structure AnchoredView (slotCount : Nat) (log : List Record) (anchor : Nat)
    (state : AnchoredState) : Prop where
  count : state.result.slotCount = slotCount
  tail : state.result.tail = log.getLast?
  tailDigest : ∀ record ∈ log.getLast?,
    state.result.tailRawRecordDigest = recordDigest record
  tailSlot : state.result.tailPhysicalSlot = some (ringSlot slotCount (log.length - 1))
  anchored : state.result.anchored = true
  activeAnchor : state.result.activeAnchor = anchorAt slotCount log anchor
  next : state.result.nextPhysicalSlot = ringSlot slotCount log.length
  entries : state.entries = visibleEntries slotCount log anchor
  pending : state.pendingInvalidSlots = 0

theorem visibleEntries_snoc {start : Nat}
    (hpos : 0 < log.length) (hstart : start ≤ log.length) (record : Record) :
    visibleEntries slotCount (log ++ [record]) start =
      visibleEntries slotCount log start ++ [entryAt slotCount (record, log.length)] := by
  have hlength : (logEntries slotCount log).length = log.length := by simp [logEntries]
  unfold visibleEntries
  rw [logEntries_snoc, take_append_of_le_length (by omega),
    drop_append_of_le_length (by omega), append_assoc]

theorem scanAnchoredSlot_record {state : AnchoredState}
    (linked : WellLinked header.setId header.memberId (log ++ [record]))
    (hanchor : (log ++ [record])[anchor]? = some anchorRecord) (hlt : anchor < log.length)
    (htwo : 2 ≤ slots.length)
    (hread : readSlot slots (ringSlot slots.length log.length) = .bytes record)
    (view : AnchoredView slots.length log anchor state) :
    ∃ next, scanAnchoredSlot header anchorRecord slots (ringSlot slots.length log.length) state =
      .ok next ∧ AnchoredView slots.length (log ++ [record]) anchor next := by
  have hget : (log ++ [record])[log.length]? = some record := by simp
  have hpos : 0 < log.length := by omega
  obtain ⟨last, hlast⟩ : ∃ last, log.getLast? = some last :=
    isSome_iff_exists.mp (by simp [getLast?_isSome]; rintro rfl; simp at hpos)
  have hlastGet : (log ++ [record])[log.length - 1]? = some last := by
    rw [getElem?_append_left (by omega), ← getLast?_eq_getElem?]
    exact hlast
  have hfollows := linked.follows (log.length - 1) hlastGet
    (by rw [Nat.sub_add_cancel hpos]; exact hget)
  have hsequence : ¬ record.localSequence ≤ anchorRecord.localSequence := by
    rw [linked.sequence hget, linked.sequence hanchor]
    omega
  have hmem : record ∈ log ++ [record] := by simp
  simp only [scanAnchoredSlot, hread, reduceCtorEq, if_false, decodeSlot,
    linked.decoded record hmem, hsequence, checkOwner_eq_ok.mpr (linked.owner record hmem),
    (linked.later_of_pos hpos hget).2, tailOr, view.tail, hlast, getD_some,
    view.tailDigest last hlast, hfollows, bind, Except.bind]
  refine ⟨_, rfl, view.count, by simp, by simp, by simp, view.anchored, ?_, ?_, ?_, rfl⟩
  · rw [anchorAt_snoc, if_neg (by omega)]
    exact view.activeAnchor
  · simp only [view.count, length_append, length_singleton]
    exact nextRingSlot_ringSlot htwo _
  · rw [visibleEntries_snoc hpos (by omega), view.entries]
    rfl

theorem scanAnchoredFrom_append (header : Header) (anchor : Record) (slots : List Slot)
    (before after : List Nat) : ∀ state : AnchoredState,
      scanAnchoredFrom header anchor slots (before ++ after) state =
        (scanAnchoredFrom header anchor slots before state >>=
          scanAnchoredFrom header anchor slots after) := by
  induction before with
  | nil => intro state; rfl
  | cons slot rest ih =>
    intro state
    simp only [cons_append, scanAnchoredFrom]
    cases scanAnchoredSlot header anchor slots slot state with
    | error e => rfl
    | ok next => exact ih next

/-- The records behind the anchor, one after the other. -/
theorem scanAnchoredFrom_log (header : Header) (htwo : 2 ≤ slots.length) :
    ∀ (suffix : List Record) {log : List Record} {state : AnchoredState}, Holds slots
      (log ++ suffix) first →
      WellLinked header.setId header.memberId (log ++ suffix) → first ≤ anchor →
      anchor < log.length → log[anchor]? = some anchorRecord →
      AnchoredView slots.length log anchor state →
      ∃ next, scanAnchoredFrom header anchorRecord slots
          ((range' log.length suffix.length).map (ringSlot slots.length)) state =
        .ok next ∧ AnchoredView slots.length (log ++ suffix) anchor next := by
  intro suffix
  induction suffix with
  | nil =>
    intro log state _ _ _ _ _ view
    exact ⟨state, rfl, by simpa using view⟩
  | cons record rest ih =>
    intro log state holds linked hfirst hlt hanchor view
    have hsplit : log ++ record :: rest = log ++ [record] ++ rest := by simp
    have hread := holds.record log.length record (by omega) (by simp)
    rw [hsplit] at linked holds
    obtain ⟨middle, hstep, view⟩ := scanAnchoredSlot_record linked.of_append
      (by rw [getElem?_append_left hlt]; exact hanchor) hlt htwo hread view
    obtain ⟨next, hrest, view⟩ := ih holds linked hfirst (by simp; omega)
      (by rw [getElem?_append_left hlt]; exact hanchor) view
    refine ⟨next, ?_, by rw [hsplit]; exact view⟩
    rw [length_append, length_singleton] at hrest
    rw [length_cons, range'_succ, map_cons, scanAnchoredFrom, hstep]
    exact hrest

/-- Slots without a record behind the anchor change neither tail nor entries of the scan. -/
theorem scanAnchoredFrom_blank (header : Header) (anchor : Record) (slots : List Slot) :
    ∀ (walk : List Nat) (state : AnchoredState),
      (∀ slot ∈ walk, ∀ record, readSlot slots slot = .bytes record →
        decode record = .ok record ∧ record.localSequence ≤ anchor.localSequence) →
      ∃ final, scanAnchoredFrom header anchor slots walk state = .ok final ∧
        final.entries = state.entries ∧
        (∃ zeroes invalid, final.result = { state.result with
          zeroHoleCount := zeroes, invalidSlotCount := invalid }) ∧
        (final.pendingInvalidSlots = 0 ↔ state.pendingInvalidSlots = 0 ∧
          ¬ ∃ slot ∈ walk, ∃ fault, readSlot slots slot = .damaged fault) := by
  intro walk
  induction walk with
  | nil => intro state _; exact ⟨state, rfl, rfl, ⟨_, _, rfl⟩, by simp⟩
  | cons slot rest ih =>
    intro state hold
    have hrest : ∀ slot ∈ rest, ∀ record, readSlot slots slot = .bytes record →
        decode record = .ok record ∧ record.localSequence ≤ anchor.localSequence :=
      fun slot hmem => hold slot (mem_cons_of_mem _ hmem)
    cases hread : readSlot slots slot with
    | zero =>
      obtain ⟨final, hscan, hentries, ⟨zeroes, invalid, hresult⟩, hpending⟩ := ih { state with
          result := { state.result with zeroHoleCount := state.result.zeroHoleCount + 1 } }
        hrest
      refine ⟨final, ?_, hentries, ⟨zeroes, invalid, hresult⟩, ?_⟩
      · simp only [scanAnchoredFrom, scanAnchoredSlot, hread, if_true]
        exact hscan
      · simpa [hread] using hpending
    | damaged fault =>
      obtain ⟨final, hscan, hentries, ⟨zeroes, invalid, hresult⟩, hpending⟩ := ih { state with
          result := { state.result with
                      invalidSlotCount := state.result.invalidSlotCount + 1 }
          pendingInvalidSlots := state.pendingInvalidSlots + 1 }
        hrest
      refine ⟨final, ?_, hentries, ⟨zeroes, invalid, hresult⟩, ?_⟩
      · simp only [scanAnchoredFrom, scanAnchoredSlot, hread, reduceCtorEq, if_false, decodeSlot]
        exact hscan
      · rw [hpending]
        simp [hread]
    | bytes record =>
      obtain ⟨hdecode, hsequence⟩ := hold slot mem_cons_self record hread
      obtain ⟨final, hscan, hentries, hresult, hpending⟩ := ih state hrest
      refine ⟨final, ?_, hentries, hresult, ?_⟩
      · simp only [scanAnchoredFrom, scanAnchoredSlot, hread, reduceCtorEq, if_false,
          decodeSlot, hdecode, hsequence, if_true]
        exact hscan
      · simpa [hread] using hpending

theorem checkAnchor_of_names {anchor : Record}
    (linked : WellLinked header.setId header.memberId log) (hbirth : log[0]? = some birth)
    (names : NamesAnchor header slotCount log index anchor) :
    checkAnchor header birth anchor = .ok () := by
  obtain ⟨snapshot, hroot⟩ := names.root
  have howner := linked.owner anchor (mem_of_getElem? names.get)
  have hpos := names.pos
  have hsequence := linked.sequence names.get
  have hbirthSequence := linked.sequence hbirth
  simp only [checkAnchor, ok_iff, checkOwner_eq_ok]
  refine ⟨howner, by simp [names.sequence, names.digest], by
    simp [(compactedRoot_isSnapshot hroot).2], snapshot, hroot, by omega, by
    rw [hbirthSequence]; decide, ?_⟩
  -- an anchor right after the birth record continues it
  rintro ⟨hnext, hdiffer⟩
  obtain rfl : index = 1 := by omega
  have hfollows := linked.follows 0 hbirth names.get
  simp only [checkSuccessor, ok_iff, not_not] at hfollows
  obtain ⟨_, hprevious, hhistory⟩ := hfollows
  rcases hdiffer with h | h
  · exact h hprevious
  · exact h hhistory

/-- The view of the anchored scan before its loop. -/
theorem anchoredStart_view {anchor : Record} (htwo : 2 ≤ slotCount) (hbirth : log[0]? = some birth)
    (names : NamesAnchor header slotCount log index anchor) :
    AnchoredView slotCount (log.take (index + 1)) index
      (anchoredStart birth anchor (ringSlot slotCount index) slotCount) := by
  obtain ⟨hlt, hget⟩ := List.getElem?_eq_some_iff.mp names.get
  have hlength : (log.take (index + 1)).length = index + 1 := by simp; omega
  have hlast : (log.take (index + 1)).getLast? = some anchor := by
    rw [getLast?_eq_getElem?, hlength, Nat.add_sub_cancel, getElem?_take_of_lt (Nat.lt_succ_self _)]
    exact names.get
  refine ⟨rfl, hlast.symm, ?_, ?_, rfl, ?_, ?_, ?_, rfl⟩
  · rintro record hmem
    rw [hlast] at hmem
    rw [← some.inj hmem]
    rfl
  · rw [hlength]
    rfl
  · simp [anchorAt, getElem?_take_of_lt (Nat.lt_succ_self index), names.get, anchoredStart]
  · rw [hlength]
    exact nextRingSlot_ringSlot htwo index
  · have hsplit : log.take (index + 1) = log.take index ++ [anchor] := by
      rw [take_succ_eq_append_getElem hlt, hget]
    have hindex : (log.take index).length = index := by simp; omega
    have hdrop : (logEntries slotCount (log.take index)).drop index = [] := by
      simp [logEntries, drop_eq_nil_iff]
    have hhead : (logEntries slotCount (log.take index)).take 1 =
        [entryAt slotCount (birth, 0)] := by
      obtain _ | ⟨first, rest⟩ := log
      · simp at hlt
      · obtain rfl : first = birth := by simpa using hbirth
        obtain ⟨index, rfl⟩ : ∃ k, index = k + 1 := ⟨index - 1, by have := names.pos; omega⟩
        simp [logEntries, zipIdx_cons]
    have hpos := names.pos
    rw [hsplit, visibleEntries_snoc (by omega) (by omega), visibleEntries, hdrop, hhead, hindex]
    rfl

/-- What the walk meets behind the end of the log is older than the anchor. -/
theorem Holds.older {setId memberId : Id} (holds : Holds slots log first)
    (linked : WellLinked setId memberId log) (hanchor : log[anchor]? = some anchorRecord)
    (hge : log.length ≤ index) (hlt : index < anchor + (slots.length - 1))
    (hread : readSlot slots (ringSlot slots.length index) = .bytes record) :
    decode record = .ok record ∧ record.localSequence ≤ anchorRecord.localSequence := by
  have hpos := holds.length_pos
  obtain ⟨other, hother, hget, hslot⟩ := holds.only _ record (ringSlot_pos (by omega)) hread
  have hlength := (List.getElem?_eq_some_iff.mp hget).1
  refine ⟨linked.decoded record (List.mem_of_getElem? hget), ?_⟩
  rw [linked.sequence hget, linked.sequence hanchor]
  -- a record from the anchor on would share its slot with a different index of the same turn
  by_contra hlater
  have := ringSlot_inj (n := slots.length) (i := other) (j := index) (by omega) (by omega)
    (by omega) hslot.symm
  omega

omit [Blake3] in
/-- The damaged slots are the damaged ones behind the end of the log. -/
theorem damaged_iff_behind
    (holds : Holds slots log first) (hfirst : first ≤ anchor) (hlt : anchor < log.length) :
    Damaged slots ↔ ∃ slot ∈ (List.range' log.length (anchor + (slots.length - 1) -
      log.length)).map (ringSlot slots.length), ∃ fault, readSlot slots slot = .damaged fault := by
  have htwo := holds.two_le hfirst hlt
  have hfirstPos := holds.first_pos
  constructor
  · rintro ⟨content, hmem, fault, rfl⟩
    obtain ⟨slot, hslot⟩ := List.mem_iff_getElem?.mp hmem
    have hread := readSlot_of_getElem? hslot
    have hslotLt := (List.getElem?_eq_some_iff.mp hslot).1
    rcases Nat.eq_zero_or_pos slot with rfl | hpos
    · rw [holds.birth _ (List.getElem?_eq_getElem holds.length_pos)] at hread
      cases hread
    obtain ⟨index, hge, hub, rfl⟩ := exists_ringSlot hpos hslotLt anchor (by omega)
    have hbehind : log.length ≤ index := by
      by_contra hin
      rw [holds.record index _ (by omega) (List.getElem?_eq_getElem (by omega))] at hread
      cases hread
    refine ⟨_, List.mem_map.mpr ⟨index, List.mem_range'_1.mpr ⟨hbehind, by omega⟩, rfl⟩, fault,
      hread⟩
  · rintro ⟨slot, _, fault, hread⟩
    unfold readSlot at hread
    rw [List.getD_eq_getElem?_getD] at hread
    cases hget : slots[slot]? with
    | none => simp [hget] at hread
    | some content =>
      simp only [hget, Option.getD_some] at hread
      exact ⟨content, List.mem_of_getElem? hget, fault, hread⟩

/-- **The anchored scan returns the birth record and the log from the anchor on.** -/
theorem scanAnchored_of_holds {anchor : Record} (holds : Holds slots log first)
    (fitting : HeaderFor header slots.length log)
    (names : NamesAnchor header slots.length log index anchor) (hfirst : first ≤ index) :
    ∃ state, scanAnchored header slots = .ok (state, visibleEntries slots.length log index) ∧
      View slots.length log (some index) state ∧
      (state.unresolvedTailDamage = true ↔ Damaged slots) := by
  have hlt := (List.getElem?_eq_some_iff.mp names.get).1
  have htwo := holds.two_le hfirst hlt
  have hfits := holds.fits
  have hbirth := getElem?_eq_getElem holds.length_pos
  have hlength : (log.take (index + 1)).length = index + 1 := by simp; omega
  have hsplit : log.take (index + 1) ++ log.drop (index + 1) = log := take_append_drop _ _
  -- the walk reads the rest of the log and then the slots behind its end
  obtain ⟨middle, hmiddle, view⟩ := scanAnchoredFrom_log header htwo
    (log.drop (index + 1)) (by rw [hsplit]; exact holds)
    (by rw [hsplit]; exact fitting.linked) hfirst (by omega)
    (by rw [getElem?_take_of_lt (Nat.lt_succ_self _)]; exact names.get)
    (anchoredStart_view htwo hbirth names)
  rw [hlength, length_drop] at hmiddle
  rw [hsplit] at view
  obtain ⟨final, hfinal, hentries, ⟨zeroes, invalid, hresult⟩, hpending⟩ :=
    scanAnchoredFrom_blank header anchor slots
      ((range' log.length (index + (slots.length - 1) - log.length)).map
        (ringSlot slots.length)) middle (by
      intro slot hmem record hread
      obtain ⟨other, hother, rfl⟩ := mem_map.mp hmem
      obtain ⟨hge, hub⟩ := mem_range'_1.mp hother
      exact holds.older fitting.linked names.get hge (by omega) hread)
  have hwalk : ringWalk slots.length (ringSlot slots.length index) slots.length
      (nextRingSlot (ringSlot slots.length index) slots.length) =
        (range' (index + 1) (log.length - (index + 1))).map (ringSlot slots.length) ++
          (range' log.length (index + (slots.length - 1) - log.length)).map
            (ringSlot slots.length) := by
    rw [nextRingSlot_ringSlot htwo, ringWalk_eq htwo names.pos (by omega) (by omega) (by omega),
      ← map_append]
    congr 1
    have hrange := range'_append_1 (s := index + 1) (m := log.length - (index + 1))
      (n := index + (slots.length - 1) - log.length)
    rw [show index + 1 + (log.length - (index + 1)) = log.length by omega,
      show log.length - (index + 1) + (index + (slots.length - 1) - log.length) =
        index + (slots.length - 1) - (index + 1) by omega] at hrange
    exact hrange.symm
  have hscan : scanAnchored header slots =
      .ok (finishAnchored (ringSlot slots.length index) final, final.entries) := by
    have hslotPos := ringSlot_pos (n := slots.length) names.pos
    have hslotLt := ringSlot_lt (i := index) htwo
    simp only [scanAnchored, names.hint, orElseFail, rejectIf,
      show ¬ (ringSlot slots.length index = 0 ∨ ringSlot slots.length index ≥ slots.length) by
        omega, if_false, holds.birth _ hbirth, decodeSlot,
      fitting.linked.decoded _ (mem_of_getElem? hbirth),
      checkOwner_eq_ok.mpr (fitting.linked.owner _ (mem_of_getElem? hbirth)),
      fitting.birth _ (by rw [head?_eq_getElem?]; exact hbirth),
      holds.record index anchor hfirst names.get,
      fitting.linked.decoded _ (mem_of_getElem? names.get),
      checkAnchor_of_names fitting.linked hbirth names, hwalk, scanAnchoredFrom_append,
      hmiddle, hfinal, bind, Except.bind]
  have hdamage : final.pendingInvalidSlots ≠ 0 ↔ Damaged slots := by
    rw [damaged_iff_behind holds hfirst hlt, Ne, hpending, not_and, not_not]
    exact ⟨fun h => h view.pending, fun h _ => h⟩
  refine ⟨finishAnchored (ringSlot slots.length index) final, ?_, ?_, ?_⟩
  · rw [hscan, hentries, view.entries]
  · refine ⟨?_, ?_, ?_, ?_, ?_, ?_, ?_, ?_⟩ <;> simp only [finishAnchored, hresult]
    · exact view.count
    · exact view.tail
    · exact view.tailDigest
    · exact view.tailSlot
    · exact view.anchored
    · exact view.activeAnchor
    · exact fun _ => view.next
    · intro _
      rw [view.next]
      rfl
  · simpa [finishAnchored] using hdamage

/-- Where the records that a scan shows start, after the birth record: at the first one, or at the
anchor once earlier ones have been reclaimed. -/
def shownFrom (first : Nat) (anchor : Option Nat) : Nat :=
  if first = 1 then 1 else anchor.getD 1

/-- **A scan returns the birth record and the log, from the start or from the anchor on.** -/
theorem scanHistory_of_holds {anchor : Option Nat} (holds : Holds slots log first)
    (fitting : HeaderFor header slots.length log) (named : Named header slots.length log anchor)
    (kept : first = 1 ∨ ∃ index, anchor = some index ∧ first ≤ index) :
    ∃ state, scanHistory header slots =
        .ok ⟨state, header.memberId, visibleEntries slots.length log (shownFrom first anchor)⟩ ∧
      View slots.length log anchor state ∧
      (state.unresolvedTailDamage = true ↔ Damaged slots) := by
  by_cases hone : first = 1
  · subst hone
    obtain ⟨state, hscan, view, hdamage⟩ := scanLinear_of_holds holds fitting named
    have hall : visibleEntries slots.length log (shownFrom 1 anchor) =
        logEntries slots.length log := take_append_drop 1 _
    refine ⟨state, ?_, view, hdamage⟩
    rw [hall]
    simp [scanHistory, scanInto, hscan, fitting.pool, rejectIf, bind, Except.bind]
  · obtain ⟨index, rfl, hle⟩ := kept.resolve_left hone
    obtain ⟨record, names⟩ := named
    obtain ⟨state, hscan, view, hdamage⟩ := scanAnchored_of_holds holds fitting names hle
    have hlt := (List.getElem?_eq_some_iff.mp names.get).1
    have hfirst := holds.first_pos
    have hlinear := scanLinear_of_reclaimed holds fitting.linked (by omega) (by omega)
    refine ⟨state, ?_, view, hdamage⟩
    cases hresult : scanLinear header slots with
    | ok result => exact absurd hresult (hlinear result)
    | error e =>
      simp [scanHistory, scanInto, hscan, hresult, fitting.pool, rejectIf, shownFrom, hone,
        bind, Except.bind]

end Zettide
