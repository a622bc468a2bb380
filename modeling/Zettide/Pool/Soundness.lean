import Zettide.Pool.NoFork

/-! # The selected authority ends a chain of checked events

Whatever `select` returns is the last element of a chain of authorities. The chain starts at a
root (a genesis, a compacted anchor, or the replay of one journal after an administrative recovery)
and each of its steps is an event with its evidence in the collection. -/

namespace Zettide

open List PoolAuthority Zettide.Membership

namespace PoolAuthority

open Relation PoolTopology

section

variable [Blake3] {a b : Authority}

/-! ## Links of the chain -/

/-- Every attestation names a prepare record that is in the attested member's history under exactly
the attested digest and extends the previous authority. -/
def PreparesPresent (histories : List HistoryScan) (kind : RecordKind) (previous : Digest)
    (commit : Record) (attestations : List Attestation) : Prop :=
  ∀ attestation ∈ attestations, ∃ entry,
    AttestedPrepare histories kind previous commit attestation entry

/-- The record is in one of the histories. -/
def Recorded (histories : List HistoryScan) (record : Record) : Prop :=
  ∃ history ∈ histories, ∃ entry ∈ history.entries, entry.record = record

/-- Everything that a checkpoint snapshots is the same. -/
structure SameState (a b : Authority) : Prop where
  topology : b.topology = a.topology
  layout : b.layout = a.layout
  membershipEpoch : b.membershipEpoch = a.membershipEpoch
  writerTerm : b.writerTerm = a.writerTerm
  generation : b.generation = a.generation
  dataRootDigest : b.dataRootDigest = a.dataRootDigest
  administrativeRecovery : b.administrativeRecovery = a.administrativeRecovery

/-- A membership commit from `a` to `b`, without its witnesses. -/
structure MembershipLink (histories : List HistoryScan) (a b : Authority) (commit : Record)
    (mode : MembershipMode) : Prop where
  kind : b.kind = .membershipCommit
  recorded : Recorded histories commit
  historyDigest : b.historyDigest = commit.historyDigest
  epoch : b.topology.epoch = a.topology.epoch + 1
  membershipEpoch : b.membershipEpoch = a.membershipEpoch + 1
  generation : b.generation = a.generation
  dataRootDigest : b.dataRootDigest = a.dataRootDigest
  layout : b.layout = a.layout
  writerTerm : a.writerTerm ≤ b.writerTerm
  prepared : ∃ certificate : MembershipCertificate,
    decodeCertificate a.topology b.topology mode
        (commitCertificatePart commit) = .ok certificate ∧
      PreparesPresent histories .membershipPrepare a.historyDigest commit
        (certificate.oldGroup ++ certificate.newGroup)
  newQuorum : b.topology.quorum ≤
    voterWitnesses histories b.topology b.historyDigest .membershipCommit

/-- **One step of the chain.** -/
inductive ChainStep (histories : List HistoryScan) (a b : Authority) : Prop where
  | generation (commit : Record) (certificate : PoolCertificate)
      (kind : b.kind = .generationCommit) (recorded : Recorded histories commit)
      (historyDigest : b.historyDigest = commit.historyDigest)
      (generation : b.generation = a.generation + 1) (topology : b.topology = a.topology)
      (layout : b.layout = a.layout) (membershipEpoch : b.membershipEpoch = a.membershipEpoch)
      (writerTerm : a.writerTerm ≤ b.writerTerm)
      (payload : commit.payload = .certificate certificate)
      (certified : PoolCertificate.validateAgainstTopology certificate a.topology = .ok ())
      (prepared : PreparesPresent histories .generationPrepare a.historyDigest commit
        certificate.attestations)
      (quorum : a.topology.quorum ≤
        voterWitnesses histories a.topology b.historyDigest .generationCommit)
  | membership (commit : Record) (link : MembershipLink histories a b commit .normal)
      (oldQuorum : a.topology.quorum ≤
        voterWitnesses histories a.topology b.historyDigest .membershipCommit)
  | administrativeRecovery (commit : Record)
      (link : MembershipLink histories a b commit .administrativeRecovery)
  | bootstrap (record : Record) (target : Id) (kind : b.kind = .memberBootstrap)
      (recorded : Recorded histories record) (historyDigest : b.historyDigest = record.historyDigest)
      (follows : record.previousHistoryDigest = a.historyDigest) (state : SameState a b)
      (quorum : a.topology.quorum ≤ bootstrapWitnesses histories a.topology b.historyDigest target)
  | checkpoint (record : Record) (kind : b.kind = .checkpoint)
      (recorded : Recorded histories record) (historyDigest : b.historyDigest = record.historyDigest)
      (follows : record.previousHistoryDigest = a.historyDigest) (state : SameState a b)
      (quorum : a.topology.quorum ≤ voterWitnesses histories a.topology b.historyDigest .checkpoint)

/-- What never changes and what never decreases along the chain. -/
structure Monotone (a b : Authority) : Prop where
  layout : b.layout = a.layout
  generation : a.generation ≤ b.generation
  membershipEpoch : a.membershipEpoch ≤ b.membershipEpoch
  writerTerm : a.writerTerm ≤ b.writerTerm

omit [Blake3] in
theorem Monotone.trans {c : Authority} (h : Monotone a b) (h' : Monotone b c) : Monotone a c :=
  ⟨h'.layout.trans h.layout, h.generation.trans h'.generation,
    h.membershipEpoch.trans h'.membershipEpoch, h.writerTerm.trans h'.writerTerm⟩

variable {histories : List HistoryScan} {current : Authority}

omit [Blake3] in
theorem ChainStep.monotone (h : ChainStep histories a b) : Monotone a b := by
  cases h with
  | generation _ _ _ _ _ hgeneration _ hlayout hepoch hterm =>
    exact ⟨hlayout, by omega, by omega, hterm⟩
  | membership _ link | administrativeRecovery _ link =>
    exact ⟨link.layout, link.generation.ge, by rw [link.membershipEpoch]; omega, link.writerTerm⟩
  | bootstrap _ _ _ _ _ _ state | checkpoint _ _ _ _ _ state =>
    exact ⟨state.layout, state.generation.ge, state.membershipEpoch.ge, state.writerTerm.ge⟩

theorem membershipLink_of_step {commit : Record} {proposal : Proposal}
    {certificate : MembershipCertificate} (recorded : Recorded histories commit)
    (step : MembershipStep histories current commit proposal certificate) (witnesses : Nat) :
    MembershipLink histories current
      (authorityFromMembership current commit proposal witnesses) commit proposal.mode := by
  have htransition := step.transition
  simp only [validateTransition, ok_iff, not_or, not_not] at htransition
  obtain ⟨_, _, _, ⟨_, hepoch⟩, _⟩ := htransition
  have hproposed := step.proposed
  simp only [validateRecordProposal, ok_iff, not_not] at hproposed
  obtain ⟨_, p, _, _, _, hrecordEpoch, _, _, _, rfl⟩ := hproposed
  refine ⟨rfl, recorded, rfl, hepoch, ?_, step.generation, step.dataRoot, rfl, step.writerTerm,
    ⟨certificate, step.decoded, step.attested⟩, step.newQuorum⟩
  show commit.membershipEpoch = _
  rw [hrecordEpoch, hepoch, step.current_epoch]

/-- **Every event is a step of the chain.** -/
theorem Extends.chainStep {next : Authority}
    {record : Record} (recorded : Recorded histories record)
    (h : Extends histories current record next) : ChainStep histories current next := by
  cases h with
  | @generation certificate step =>
    exact .generation record certificate rfl recorded rfl step.generation rfl rfl
      (step.epoch.trans step.current_epoch.symm) step.writerTerm step.payload step.certified
      step.attested step.quorum
  | @membership proposal certificate step =>
    have link := membershipLink_of_step recorded step
      (voterWitnesses histories proposal.topology record.historyDigest .membershipCommit)
    cases hmode : proposal.mode with
    | normal => exact .membership record (hmode ▸ link) (step.oldQuorum hmode)
    | administrativeRecovery => exact .administrativeRecovery record (hmode ▸ link)
  | @bootstrap evidence step =>
    exact .bootstrap record evidence.targetMemberId rfl recorded rfl step.extends_current
      ⟨rfl, rfl, step.epoch.trans step.current_epoch.symm, step.writerTerm, step.generation,
        step.dataRoot, rfl⟩ step.quorum
  | checkpoint step =>
    exact .checkpoint record rfl recorded rfl step.extends_current
      ⟨rfl, rfl, rfl, rfl, rfl, rfl, rfl⟩ step.quorum

/-! ## Roots -/

/-- The history is anchored at the event, and the anchor is in its journal. -/
def anchoredAt (history : HistoryScan) (d : Digest) : Bool :=
  decide (∃ anchor ∈ history.scanResult.activeAnchor, anchor.record.historyDigest = d) &&
    (anchorEntry history).isSome

/-- How many voters of the topology are anchored at the event. -/
def anchorWitnesses (histories : List HistoryScan) (topology : Topology) (d : Digest) : Nat :=
  histories.countP fun history => isVoter topology history.memberId && anchoredAt history d

theorem countAnchorWitnesses_eq_ok {d : Digest}
    {topology : Topology} {n : Nat} (h : countAnchorWitnesses d topology histories = .ok n) :
    n = anchorWitnesses histories topology d := by
  induction histories generalizing n with
  | nil => cases h; rfl
  | cons history rest ih =>
    simp only [countAnchorWitnesses, ok_iff] at h
    obtain ⟨here, hhere, others, hothers, rfl⟩ := h
    have hcount : here = if isVoter topology history.memberId && anchoredAt history d
        then 1 else 0 := by
      unfold anchorWitness at hhere
      unfold anchoredAt
      split at hhere
      case isTrue hcond =>
        cases hentry : anchorEntry history with
        | none =>
          rw [hentry] at hhere
          cases hhere
          simp
        | some entry =>
          simp only [hentry, ok_iff] at hhere
          obtain ⟨_, _, _, _, rfl⟩ := hhere
          simp only [hcond.1, decide_eq_true hcond.2, Option.isSome_some, Bool.and_self, if_true]
      case isFalse hcond =>
        cases hhere
        rw [eq_comm, if_neg]
        simp only [Bool.and_eq_true, decide_eq_true_eq]
        exact fun h => hcond ⟨h.1, h.2.1⟩
    rw [ih hothers, hcount, anchorWitnesses, anchorWitnesses, countP_cons, Nat.add_comm]

/-- **The roots of the chain.** -/
inductive ChainRoot (histories : List HistoryScan) : Authority → Prop where
  | genesis (history : HistoryScan) (first : HistoryEntry) (payload : GenesisPayload)
      (supplied : history ∈ histories) (born : first ∈ history.entries.head?)
      (kind : first.record.kind = .genesis)
      (valid : PoolGenesis.validateRecord first.record = .ok payload)
      (quorum : payload.topology.quorum ≤
        voterWitnesses histories payload.topology first.record.historyDigest .genesis) :
      ChainRoot histories (authorityFromGenesis first.record payload
        (voterWitnesses histories payload.topology first.record.historyDigest .genesis))
  | compacted (history : HistoryScan) (entry : HistoryEntry) (snapshot : Snapshot)
      (supplied : history ∈ histories) (anchored : anchorEntry history = some entry)
      (valid : PoolAuthorityCheckpoint.validateCompactedRootRecord entry.record = .ok snapshot)
      (quorum : snapshot.topology.quorum ≤
        anchorWitnesses histories snapshot.topology entry.record.historyDigest) :
      ChainRoot histories (authorityFromSnapshot entry.record snapshot
        (anchorWitnesses histories snapshot.topology entry.record.historyDigest))

/-- The root of a chain after an administrative recovery: what one member's journal replays to. -/
def RecoveredRoot (histories : List HistoryScan) (root : Authority) : Prop :=
  ∃ history ∈ histories, selectLocalRecoveryAuthority history false = .ok root ∧
    root.administrativeRecovery = true

omit [Blake3] in
theorem searchRoot_eq_ok {α : Type} {candidateOf : HistoryScan → Except SelectError (Option α)}
    {digestOf : α → Digest} {conflict : SelectError} {searched : List HistoryScan}
    {selected : Option α} {root : α}
    (h : searchRoot candidateOf digestOf conflict searched selected = .ok (some root)) :
    selected = some root ∨ ∃ history ∈ searched, candidateOf history = .ok (some root) := by
  induction searched generalizing selected with
  | nil => cases h; exact .inl rfl
  | cons history rest ih =>
    simp only [searchRoot, bind_eq_ok] at h
    obtain ⟨candidate, hcandidate, h⟩ := h
    have hlater : (∃ history ∈ rest, candidateOf history = .ok (some root)) →
        ∃ history' ∈ history :: rest, candidateOf history' = .ok (some root) := by
      rintro ⟨other, hmem, hother⟩
      exact ⟨other, mem_cons_of_mem _ hmem, hother⟩
    rcases candidate with _ | candidate
    · exact (ih h).imp_right hlater
    cases selected with
    | none =>
      rcases ih h with hroot | hroot
      · cases hroot
        exact .inr ⟨history, mem_cons_self, hcandidate⟩
      · exact .inr (hlater hroot)
    | some current =>
      simp only [ok_iff] at h
      exact (ih h.2).imp_right hlater

omit [Blake3] in
theorem catchError_eq_some {α : Type} {expected : SelectError} {x : Except SelectError α} {a : α}
    (h : catchError expected x = .ok (some a)) : x = .ok a := by
  unfold catchError at h
  split at h
  case h_1 => simpa using h
  case h_2 => split at h <;> cases h

theorem selectGenesis_root (collection : Collection histories)
    {root : Authority} (h : selectGenesis histories = .ok root) : ChainRoot histories root := by
  simp only [selectGenesis, ok_iff] at h
  obtain ⟨_, hsearch, rfl⟩ := h
  rcases searchRoot_eq_ok hsearch with hnone | ⟨history, hmem, hcandidate⟩
  · cases hnone
  rw [raise_eq_ok, genesisCandidate] at hcandidate
  cases hentries : history.entries with
  | nil => simp [hentries] at hcandidate
  | cons first rest =>
    have hfirst : first ∈ history.entries := hentries ▸ mem_cons_self
    have hsound := (collection.sound history hmem).sound first hfirst
    simp only [hentries, verifiedWitness_of_sound hsound, ok_iff] at hcandidate
    obtain ⟨_, rfl, hcandidate⟩ := hcandidate
    split at hcandidate
    case isTrue => cases hcandidate
    rename_i hkind
    split at hcandidate
    case h_1 => cases hcandidate
    rename_i payload hvalid
    simp only [countVoterWitnesses_of_sound collection.sound, ok_iff] at hcandidate
    obtain ⟨_, rfl, hcandidate⟩ := hcandidate
    split at hcandidate
    case isTrue => cases hcandidate
    case isFalse hquorum =>
      cases hcandidate
      exact .genesis history first payload hmem (by simp [hentries]) (not_not.mp hkind)
        hvalid (Nat.le_of_not_lt hquorum)

omit [Blake3] in
theorem anchorEntry_mem {history : HistoryScan} {entry : HistoryEntry}
    (h : anchorEntry history = some entry) : entry ∈ history.entries := by
  unfold anchorEntry at h
  split at h
  case h_1 => cases h
  split at h
  case h_1 => cases h
  case h_2 hfind =>
    split at h
    · cases h
      exact (findRawRecordDigest_eq_some hfind).1
    · cases h

theorem selectCompactedRoot_root (collection : Collection histories)
    {root : CompactedRoot} (h : selectCompactedRoot histories = .ok root) :
    ChainRoot histories root.authority := by
  simp only [selectCompactedRoot, ok_iff] at h
  obtain ⟨_, hsearch, rfl⟩ := h
  rcases searchRoot_eq_ok hsearch with hnone | ⟨history, hmem, hcandidate⟩
  · cases hnone
  rw [raise_eq_ok, compactedCandidate] at hcandidate
  rcases hentry : anchorEntry history with _ | entry
  · simp [hentry] at hcandidate
  have hsound := (collection.sound history hmem).sound entry (anchorEntry_mem hentry)
  simp only [hentry, verifiedWitness_of_sound hsound, ok_iff] at hcandidate
  obtain ⟨_, rfl, snapshot, hsnapshot, witnesses, hwitnesses, hcandidate⟩ := hcandidate
  obtain rfl := countAnchorWitnesses_eq_ok hwitnesses
  split at hcandidate
  case isTrue => cases hcandidate
  case isFalse hquorum =>
    cases hcandidate
    exact .compacted history entry snapshot hmem hentry hsnapshot (Nat.le_of_not_lt hquorum)

end

/-! ## The chain -/

variable [Blake3] [CollisionFree] {histories : List HistoryScan} {root result : Authority}

/-- The replay of an authority is a run of chain steps. -/
theorem advanceAuthority_chain (collection : Collection histories)
    (h : advanceAuthority histories root = .ok result) :
    ReflTransGen (ChainStep histories) root result := by
  refine ReflTransGen.mono ?_ _ _ (advanceFrom_eq_ok h).1
  intro current next hstep
  obtain ⟨history, hhistory, entry, hentry, hext⟩ := nextAuthority_isNext collection hstep
  exact hext.chainStep ⟨history, hhistory, entry, hentry, rfl⟩

omit [CollisionFree] in
/-- How `select` arrives at its result: from a root it found, or from the replay of one journal. -/
theorem select_cases (collection : Collection histories) (h : select histories = .ok result) :
    (∃ root, ChainRoot histories root ∧ advanceAuthority histories root = .ok result) ∨
      ∃ root, RecoveredRoot histories root ∧
        ∃ last, advanceAuthority histories root = .ok last ∧ SameEvent last result ∧
          result.topology.quorum ≤ voterWitnesses histories result.topology result.historyDigest
            (authorityRecordKind result.kind) := by
  simp only [select, ok_iff] at h
  obtain ⟨_, compacted, hcompacted, genesis, hgenesis, h⟩ := h
  cases compacted with
  | some root =>
    have hroot := selectCompactedRoot_root collection (catchError_eq_some hcompacted)
    refine .inl ⟨root.authority, hroot, ?_⟩
    cases genesis with
    | some genesisRoot =>
      simp only [ok_iff] at h
      obtain ⟨selected, hselected, _, _, _, recovery, _, h⟩ := h
      cases recovery with
      | none => cases h; exact hselected
      | some candidate =>
        simp only [ok_iff] at h
        exact h.2 ▸ hselected
    | none =>
      simp only [bind_eq_ok] at h
      obtain ⟨selected, hselected, recovery, _, h⟩ := h
      cases recovery with
      | none => cases h; exact hselected
      | some candidate =>
        simp only [ok_iff] at h
        exact h.2 ▸ hselected
  | none =>
    cases genesis with
    | some root =>
      exact .inl ⟨root, selectGenesis_root collection (catchError_eq_some hgenesis), h⟩
    | none =>
      right
      simp only [selectRecoveryRoot, ok_iff] at h
      obtain ⟨_, hsearch, rfl⟩ := h
      rcases searchRoot_eq_ok hsearch with hnone | ⟨history, hmem, hcandidate⟩
      · cases hnone
      unfold recoveryCandidate at hcandidate
      split at hcandidate
      case h_1 => cases hcandidate
      rename_i start hstart
      split at hcandidate
      case isTrue => cases hcandidate
      rename_i hrecovered
      simp only [ok_iff, raise_eq_ok, countVoterWitnesses_of_sound collection.sound] at hcandidate
      obtain ⟨last, hlast, _, rfl, hcandidate⟩ := hcandidate
      split at hcandidate
      case isTrue => cases hcandidate
      case isFalse hquorum =>
        cases hcandidate
        exact ⟨start, ⟨history, hmem, hstart, not_not.mp hrecovered⟩, last, hlast, rfl,
          Nat.le_of_not_lt hquorum⟩

/-- **Soundness of the selected authority.**  It is the last element of a chain that starts at a
root and in which every step is an event with its evidence; along the chain the layout is constant
and generation, membership epoch and writer term never decrease. -/
theorem select_chain (accepted : ∀ history ∈ histories, Accepted history)
    (h : select histories = .ok result) :
    ∃ (root : Authority) (rest : List Authority) (last : Authority),
      (root :: rest).getLast? = some last ∧ (root :: rest).IsChain (ChainStep histories) ∧
        (root :: rest).Pairwise Monotone ∧
        ((ChainRoot histories root ∧ last = result) ∨
          (RecoveredRoot histories root ∧ SameEvent last result ∧
            last.topology.quorum ≤ voterWitnesses histories last.topology last.historyDigest
              (authorityRecordKind last.kind))) := by
  have distinct : (histories.map HistoryScan.memberId).Nodup := by
    simp only [select, ok_iff, validateUniqueHistories, not_not] at h
    exact h.1
  have collection := Collection.of_accepted accepted distinct
  have hchain : ∀ {root last : Authority}, advanceAuthority histories root = .ok last →
      ∃ rest, (root :: rest).getLast? = some last ∧
        (root :: rest).IsChain (ChainStep histories) ∧ (root :: rest).Pairwise Monotone := by
    intro root last hadvance
    obtain ⟨rest, hsteps, hlast⟩ :=
      exists_isChain_cons_of_relationReflTransGen (advanceAuthority_chain collection hadvance)
    have _ : IsTrans Authority Monotone := ⟨fun _ _ _ => Monotone.trans⟩
    refine ⟨rest, ?_, hsteps, ?_⟩
    · rw [getLast?_eq_some_getLast (cons_ne_nil _ _), hlast]
    · exact isChain_iff_pairwise.mp (hsteps.imp fun _ _ => ChainStep.monotone)
  rcases select_cases collection h with ⟨root, hroot, hadvance⟩ |
    ⟨root, hroot, last, hadvance, hsame, hquorum⟩
  · obtain ⟨rest, hlast, hsteps, hmonotone⟩ := hchain hadvance
    exact ⟨root, rest, result, hlast, hsteps, hmonotone, .inl ⟨hroot, rfl⟩⟩
  · obtain ⟨rest, hlast, hsteps, hmonotone⟩ := hchain hadvance
    obtain ⟨hkind, hdigest, _, htopology, _⟩ := hsame.fields
    rw [← hkind, ← hdigest, ← htopology] at hquorum
    exact ⟨root, rest, last, hlast, hsteps, hmonotone, .inr ⟨hroot, hsame, hquorum⟩⟩

end PoolAuthority

namespace Trio

/-- The authority after the first generation. -/
def generationAuthority : Authority where
  kind := .generationCommit
  historyDigest := 11
  dataRootDigest := 7
  topology := topology
  layout := layout
  membershipEpoch := 1
  writerTerm := 1
  generation := 1
  witnessCount := 3
  administrativeRecovery := false

/-- The authority that the three voters select ends such a chain. -/
theorem generationAuthority_chain :
    let _ := tableBlake3 table
    PoolAuthority.select histories = .ok generationAuthority ∧
      ∃ (root : PoolAuthority.Authority) (rest : List PoolAuthority.Authority)
        (last : PoolAuthority.Authority),
        (root :: rest).getLast? = some last ∧
          (root :: rest).IsChain (PoolAuthority.ChainStep histories) ∧
          (root :: rest).Pairwise PoolAuthority.Monotone ∧
          last.historyDigest = generationAuthority.historyDigest := by
  intro _
  have := tableBlake3_collisionFree table table_ordered
  have hselect : select histories = .ok generationAuthority := by decide +kernel
  refine ⟨hselect, ?_⟩
  obtain ⟨root, rest, last, hlast, hsteps, hmonotone, hend⟩ :=
    select_chain histories_accepted hselect
  refine ⟨root, rest, last, hlast, hsteps, hmonotone, ?_⟩
  rcases hend with ⟨_, rfl⟩ | ⟨_, hsame, _⟩
  · rfl
  · exact hsame.fields.2.1

end Trio

end Zettide
