import Zettide.Journal.Create
import Zettide.Pool.Step

/-! # The replay ends

The search of a replay selects an event that names the authority, directly or through a prepare
record. References to digests are acyclic, so the replay does not come back to an authority. -/

namespace Zettide

open List Finset HistoryScan

namespace PoolAuthority

open Relation

variable [Blake3] {histories : List HistoryScan} {history : HistoryScan} {entry : HistoryEntry}
  {entries : List HistoryEntry} {current next root : Authority} {found : Option Authority}
  {fuel : Nat}

/-! ## The search -/

/-- The authority is what the search finds in an entry of the collection. -/
def IsCandidate (histories : List HistoryScan) (current next : Authority) : Prop :=
  ∃ history ∈ histories, ∃ entry ∈ history.entries,
    validateCandidate histories current history entry = .ok (some next)

/-- How the search ends without a result: with an error of the evidence, or with two candidates. -/
def SearchFailure (histories : List HistoryScan) (current : Authority) (error : SelectError) :
    Prop :=
  error ≠ .unfinished ∧ (error = .conflictingAuthority → ∃ a b, IsCandidate histories current a ∧
    IsCandidate histories current b ∧ a.historyDigest ≠ b.historyDigest)

/-- One entry of the search: what has been found stays a candidate. -/
theorem considerEntry_ensures (hhistory : history ∈ histories)
    (hentry : entry ∈ history.entries)
    (hfound : ∀ next ∈ found, IsCandidate histories current next) :
    Ensures (considerEntry histories current history entry found)
      (fun found => ∀ next ∈ found, IsCandidate histories current next)
      (SearchFailure histories current) := by
  unfold considerEntry
  split
  case isTrue => exact .ok hfound
  rcases hcandidate : validateCandidate histories current history entry with e | candidate
  · exact ⟨by rintro a ⟨⟩, by rintro e ⟨⟩; simp [SearchFailure]⟩
  rcases candidate with _ | candidate
  · exact .ok hfound
  have hnext : IsCandidate histories current candidate :=
    ⟨history, hhistory, entry, hentry, hcandidate⟩
  rcases found with _ | selected
  · exact .ok (by rintro next ⟨⟩; exact hnext)
  have hstep : Ensures (rejectIf (selected.historyDigest ≠ candidate.historyDigest)
      .conflictingAuthority) (fun _ => True) (SearchFailure histories current) := by
    refine ⟨fun _ _ => trivial, fun e he => ?_⟩
    obtain ⟨hne, rfl⟩ := (rejectIf_eq_error _ _ _).mp he
    exact ⟨by simp, fun _ => ⟨selected, candidate, hfound selected rfl, hnext, hne⟩⟩
  exact hstep.bind fun _ _ => .ok hfound

theorem considerEntries_ensures (hhistory : history ∈ histories)
    (hentries : entries ⊆ history.entries)
    (hfound : ∀ next ∈ found, IsCandidate histories current next) :
    Ensures (considerEntries histories current history entries found)
      (fun found => ∀ next ∈ found, IsCandidate histories current next)
      (SearchFailure histories current) := by
  induction entries generalizing found with
  | nil => exact .ok hfound
  | cons entry rest ih =>
    exact (considerEntry_ensures hhistory (hentries mem_cons_self) hfound).bind
      fun found hfound => ih (subset_of_cons_subset hentries) hfound

theorem considerHistories_ensures {searched : List HistoryScan} (hsearched : searched ⊆ histories)
    (hfound : ∀ next ∈ found, IsCandidate histories current next) :
    Ensures (considerHistories histories current searched found)
      (fun found => ∀ next ∈ found, IsCandidate histories current next)
      (SearchFailure histories current) := by
  induction searched generalizing found with
  | nil => exact .ok hfound
  | cons history rest ih =>
    exact (considerEntries_ensures (hsearched mem_cons_self) (List.Subset.refl _) hfound).bind
      fun found hfound => ih (subset_of_cons_subset hsearched) hfound

theorem nextAuthority_searches (histories : List HistoryScan) (current : Authority) :
    Ensures (nextAuthority histories current)
      (fun found => ∀ next ∈ found, IsCandidate histories current next)
      (SearchFailure histories current) :=
  considerHistories_ensures (List.Subset.refl _) (by simp)

/-! ## Runs of the replay -/

/-- One step of the replay. -/
def Advances (histories : List HistoryScan) (current next : Authority) : Prop :=
  nextAuthority histories current = .ok (some next)

theorem Advances.isCandidate (h : Advances histories current next) :
    IsCandidate histories current next :=
  (nextAuthority_searches histories current).1 _ h next rfl

/-- The replay is a run of its steps, and ends where no step is possible. -/
theorem advanceFrom_eq_ok {result : Authority} (h : advanceFrom histories fuel root = .ok result) :
    ReflTransGen (Advances histories) root result ∧ nextAuthority histories result = .ok none := by
  induction fuel generalizing root with
  | zero => cases h
  | succ fuel ih =>
    simp only [advanceFrom, bind_eq_ok] at h
    obtain ⟨next, hnext, h⟩ := h
    cases next with
    | none => cases h; exact ⟨.refl, hnext⟩
    | some next =>
      obtain ⟨hrun, hend⟩ := ih h
      exact ⟨.head hnext hrun, hend⟩

theorem SoundEntry.precedes {memberId : Id} (sound : SoundEntry memberId entry) :
    Precedes entry.record.previousHistoryDigest entry.record.historyDigest :=
  ⟨entry.record.historyPreimage, rfl, sound.digest.symm⟩

/-- The shared-history digests of the collection. -/
def historyDigests (histories : List HistoryScan) : Finset Digest :=
  ((histories.flatMap HistoryScan.entries).map fun entry => entry.record.historyDigest).toFinset

/-- The events of the collection that are behind the authority. -/
noncomputable def eventsAhead (histories : List HistoryScan) (authority : Authority) :
    Finset Digest := by
  classical
  exact ((histories.flatMap HistoryScan.entries).map fun entry =>
    entry.record.historyDigest).toFinset.filter (TransGen Precedes authority.historyDigest)

theorem card_eventsAhead_le (authority : Authority) :
    (eventsAhead histories authority).card ≤ (historyDigests histories).card := by
  classical
  exact card_filter_le _ _

omit [Blake3] in
theorem card_historyDigests_le : (historyDigests histories).card ≤ entryCount histories := by
  calc (historyDigests histories).card ≤ ((histories.flatMap entries).map fun entry =>
          entry.record.historyDigest).length := toFinset_card_le _
    _ = entryCount histories := by simp [entryCount]

/-- A candidate has the digest of its entry, which names the authority or a prepare record that
does. -/
theorem validateCandidate_eq_some (sound : SoundEntry history.memberId entry)
    (h : validateCandidate histories current history entry = .ok (some next)) :
    next.historyDigest = entry.record.historyDigest ∧
      (entry.record.previousHistoryDigest = current.historyDigest ∨
        prepareExtends histories entry.record.previousHistoryDigest current.historyDigest) := by
  unfold validateCandidate at h
  split at h
  case h_1 =>
    split at h
    case isFalse => cases h
    unfold validateGenerationCandidate at h
    split at h
    case isFalse => cases h
    case isTrue hextends =>
      simp only [ok_iff] at h
      obtain ⟨_, _, _, _, _, _, h⟩ := h
      split at h <;> cases h
      exact ⟨rfl, .inr hextends⟩
  case h_2 =>
    split at h
    case isFalse => cases h
    unfold validateMembershipCandidate at h
    split at h
    case isFalse => cases h
    case isTrue hextends =>
      simp only [ok_iff] at h
      obtain ⟨_, _, _, _, _, _, _, _, h⟩ := h
      split at h <;> cases h
      exact ⟨rfl, .inr hextends⟩
  case h_3 =>
    unfold validateBootstrapCandidate at h
    split at h
    case isFalse => cases h
    case isTrue hextends =>
      simp only [ok_iff] at h
      obtain ⟨_, _, _, _, h⟩ := h
      cases h
      exact ⟨rfl, .inl hextends⟩
  case h_4 =>
    split at h
    case isFalse => cases h
    unfold validateCheckpointCandidate at h
    split at h
    case isFalse => cases h
    case isTrue hextends =>
      simp only [ok_iff] at h
      obtain ⟨_, _, h⟩ := h
      split at h
      case isTrue => cases h
      simp only [verifiedWitness_of_sound sound, ok_iff] at h
      obtain ⟨_, rfl, _, _, h⟩ := h
      cases h
      exact ⟨rfl, .inl hextends⟩
  case h_5 => cases h

section

variable (sound : ∀ history ∈ histories, SoundHistory history.memberId history.entries)
include sound

/-- A candidate is an event of the collection that is behind the authority. -/
theorem IsCandidate.ahead (h : IsCandidate histories current next) :
    next.historyDigest ∈ eventsAhead histories current := by
  classical
  obtain ⟨history, hhistory, entry, hentry, h⟩ := h
  have hsound := (sound history hhistory).sound entry hentry
  obtain ⟨hdigest, hprevious⟩ := validateCandidate_eq_some hsound h
  have hstep := SoundEntry.precedes hsound
  refine Finset.mem_filter.mpr ⟨mem_toFinset.mpr ?_, ?_⟩
  · rw [hdigest]
    exact mem_map_of_mem (mem_flatMap.mpr ⟨history, hhistory, hentry⟩)
  · rw [hdigest]
    rcases hprevious with hprevious | hprepare
    · exact .single (hprevious ▸ hstep)
    · obtain ⟨holder, hholder, hprepare⟩ := any_eq_true.mp hprepare
      split at hprepare
      · cases hprepare
      · rename_i prepare hfind
        obtain ⟨hmem, hnamed⟩ := findHistoryDigest_eq_some hfind
        simp only [Bool.and_eq_true, decide_eq_true_eq] at hprepare
        have hfirst := SoundEntry.precedes ((sound holder hholder).sound prepare hmem)
        rw [hprepare.2, hnamed] at hfirst
        exact .tail (.single hfirst) hstep

theorem IsCandidate.eventsAhead_subset (h : IsCandidate histories current next) :
    eventsAhead histories next ⊆ eventsAhead histories current := by
  classical
  have hreach := (Finset.mem_filter.mp (h.ahead sound)).2
  exact monotone_filter_right _ fun d _ hd => hreach.trans hd

variable (acyclic : ∀ d : Digest, ¬ TransGen Precedes d d)
include acyclic

omit sound in
theorem not_ahead_self (authority : Authority) :
    authority.historyDigest ∉ eventsAhead histories authority := by
  classical
  exact fun h => acyclic _ (Finset.mem_filter.mp h).2

/-- Every step of the replay leaves one more event behind. -/
theorem card_eventsAhead_lt (h : IsCandidate histories current next) :
    (eventsAhead histories next).card < (eventsAhead histories current).card := by
  refine card_lt_card ⟨h.eventsAhead_subset sound, fun hsub => ?_⟩
  exact not_ahead_self acyclic next (hsub (h.ahead sound))

theorem advanceFrom_finishes (h : (eventsAhead histories root).card < fuel) :
    advanceFrom histories fuel root ≠ .error .unfinished := by
  induction fuel generalizing root with
  | zero => omega
  | succ fuel ih =>
    intro herror
    rw [advanceFrom, bind_eq_error] at herror
    rcases herror with herror | ⟨next, hnext, herror⟩
    · exact ((nextAuthority_searches histories root).2 _ herror).1 rfl
    cases next with
    | none => cases herror
    | some next =>
      have := card_eventsAhead_lt sound acyclic (Advances.isCandidate hnext)
      exact ih (by omega) herror

/-- **The replay always ends within its bound.** -/
theorem advanceAuthority_finishes (root : Authority) :
    advanceAuthority histories root ≠ .error .unfinished :=
  advanceFrom_finishes sound acyclic
    (Nat.lt_succ_of_le ((card_eventsAhead_le root).trans card_historyDigests_le))

/-- What a run of the replay moves to is behind its start, and never twice the same. -/
theorem Advances.run {authorities : List Authority}
    (h : (root :: authorities).IsChain (Advances histories)) :
    authorities.length ≤ (eventsAhead histories root).card ∧
      (∀ next ∈ authorities, next.historyDigest ∈ eventsAhead histories root) ∧
      ((root :: authorities).map Authority.historyDigest).Nodup := by
  induction authorities generalizing root with
  | nil => simp
  | cons first rest ih =>
    obtain ⟨hstep, hrest⟩ := isChain_cons_cons.mp h
    have hfirst := hstep.isCandidate
    obtain ⟨hlength, hahead, hnodup⟩ := ih hrest
    have hall : ∀ next ∈ first :: rest, next.historyDigest ∈ eventsAhead histories root := by
      intro next hnext
      rcases mem_cons.mp hnext with rfl | hnext
      · exact hfirst.ahead sound
      · exact hfirst.eventsAhead_subset sound (hahead next hnext)
    refine ⟨?_, hall, nodup_cons.mpr ⟨fun hmem => ?_, hnodup⟩⟩
    · have := card_eventsAhead_lt sound acyclic hfirst
      rw [length_cons]
      omega
    · obtain ⟨next, hnext, hsame⟩ := mem_map.mp hmem
      exact not_ahead_self acyclic root (hsame ▸ hall next hnext)

end

/-- A replay that ends needs no more steps. -/
theorem advanceFrom_mono {steps : Nat} (hsteps : fuel ≤ steps)
    (h : advanceFrom histories fuel root ≠ .error .unfinished) :
    advanceFrom histories steps root = advanceFrom histories fuel root := by
  induction fuel generalizing root steps with
  | zero => exact absurd rfl h
  | succ fuel ih =>
    obtain ⟨steps, rfl⟩ := Nat.exists_eq_add_of_le' (Nat.zero_lt_of_lt hsteps)
    unfold advanceFrom at h ⊢
    revert h
    rcases nextAuthority histories root with e | _ | next
    · exact fun _ => rfl
    · exact fun _ => rfl
    · exact fun h => ih (by omega) h

/-- **The replay ends.**  Over any collection of scanned histories and from any authority, the replay
never moves to the same authority twice, so it moves at most as often as there are shared-history
digests in the collection, and one step more than that is enough for its result. -/
theorem advanceAuthority_ends (acyclic : ∀ d : Digest, ¬ TransGen Precedes d d)
    (accepted : ∀ history ∈ histories, Accepted history) (root : Authority) :
    (∀ authorities : List Authority, (root :: authorities).IsChain (Advances histories) →
      ((root :: authorities).map Authority.historyDigest).Nodup ∧
        authorities.length ≤ (historyDigests histories).card) ∧
    ∀ fuel, (historyDigests histories).card < fuel →
      advanceFrom histories fuel root ≠ .error .unfinished ∧
        advanceFrom histories fuel root = advanceAuthority histories root := by
  have sound := fun history hmem => (accepted history hmem).sound
  refine ⟨fun authorities h => ?_, fun fuel hfuel => ?_⟩
  · obtain ⟨hlength, -, hnodup⟩ := Advances.run sound acyclic h
    exact ⟨hnodup, hlength.trans (card_eventsAhead_le root)⟩
  · have hends : ∀ {fuel}, (historyDigests histories).card < fuel →
        advanceFrom histories fuel root ≠ .error .unfinished := fun hlt =>
      advanceFrom_finishes sound acyclic ((card_eventsAhead_le root).trans_lt hlt)
    have hmore : (historyDigests histories).card ≤ entryCount histories := card_historyDigests_le
    -- both are the replay with the least bound that is enough
    have hleast := hends (Nat.lt_succ_self _)
    exact ⟨hends hfuel, (advanceFrom_mono hfuel hleast).trans
      (advanceFrom_mono (Nat.succ_le_succ hmore) hleast).symm⟩

end PoolAuthority

namespace Trio

/-- What a scan of a member finds after the first generation. -/
def history (memberId : Id) : HistoryScan where
  scanResult :=
    { tail := some (commitOf memberId), tailRawRecordDigest := memberId + 11
      tailPhysicalSlot := some 2, physicalFrontier := 3, slotCount := 8, zeroHoleCount := 0
      invalidSlotCount := 0, interiorInvalidSlotCount := 0, unresolvedTailDamage := false
      journalFull := false, checkpointStatus := .none, activeAnchor := none, anchored := false
      nextPhysicalSlot := 3 }
  memberId := memberId
  entries :=
    [⟨genesisOf memberId, genesisOf memberId, memberId + 3, 0⟩,
     ⟨prepareOf memberId, prepareOf memberId, memberId + 7, 1⟩,
     ⟨commitOf memberId, commitOf memberId, memberId + 11, 2⟩]

/-- The histories of the three voters. -/
def histories : List HistoryScan := [history 1, history 2, history 3]

theorem histories_accepted : ∀ history ∈ histories, @Accepted (tableBlake3 table) history := by
  have hscan : ∀ memberId ∈ [1, 2, 3], @Journal.scanHistory (tableBlake3 table) (header memberId 8)
          [.bytes (genesisOf memberId), .bytes (prepareOf memberId), .bytes (commitOf memberId),
           .zero, .zero, .zero, .zero, .zero] =
        .ok (history memberId) := by
    decide +kernel
  intro h hmem
  obtain ⟨memberId, hid, rfl⟩ : ∃ memberId ∈ [1, 2, 3], history memberId = h :=
    mem_map.mp hmem
  exact ⟨_, _, hscan memberId hid⟩

/-- The pool has three shared-history digests, so four steps of the replay are enough. -/
theorem replay_ends :
    let _ := tableBlake3 table
    let root := PoolAuthority.authorityFromGenesis (genesisOf 1) ⟨topology, layout⟩ 3
    (PoolAuthority.historyDigests histories).card = 3 ∧
      PoolAuthority.advanceFrom histories 4 root = PoolAuthority.advanceAuthority histories root := by
  intro _ root
  have := tableBlake3_collisionFree table table_ordered
  have hcard : (PoolAuthority.historyDigests histories).card = 3 := by decide
  exact ⟨hcard, ((PoolAuthority.advanceAuthority_ends CollisionFree.acyclic histories_accepted
    root).2 4 (by rw [hcard]; decide)).2⟩

end Trio

end Zettide
