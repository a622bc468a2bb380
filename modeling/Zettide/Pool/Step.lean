import Zettide.Journal.Chain
import Zettide.Pool.Authority

/-! # What one step of the authority can do

For histories that a scan accepted, every check of `validateCandidate` that compares an entry with
its own bytes succeeds. What remains is the content of the step: which record it follows, which
state it may change, and who has to hold it. `Extends` says this once for all five kinds of events,
and every later result about the replay is derived from it. -/

namespace Zettide.PoolAuthority

open PoolEvidence List PoolAuthorityCheckpoint Zettide.Membership Option
open PoolTopology (isVoter)

section

variable [Blake3]

/-- A collection of scanned histories of different members. -/
structure Collection (histories : List HistoryScan) : Prop where
  sound : ∀ history ∈ histories, SoundHistory history.memberId history.entries
  distinct : (histories.map HistoryScan.memberId).Nodup

variable {entry : HistoryEntry} {history : HistoryScan} {d : Digest}
  {histories : List HistoryScan} {memberId : Id}

theorem Collection.of_accepted (accepted : ∀ history ∈ histories, Accepted history)
    (distinct : (histories.map HistoryScan.memberId).Nodup) : Collection histories :=
  ⟨fun history h => (accepted history h).sound, distinct⟩

/-! ## Looking up records -/

omit [Blake3] in
theorem findHistoryDigest_eq_some (h : history.findHistoryDigest d = some entry) :
    entry ∈ history.entries ∧ entry.record.historyDigest = d :=
  ⟨mem_of_find?_eq_some h, by simpa using find?_some h⟩

omit [Blake3] in
theorem findRawRecordDigest_eq_some (h : history.findRawRecordDigest d = some entry) :
    entry ∈ history.entries ∧ entry.rawRecordDigest = d :=
  ⟨mem_of_find?_eq_some h, by simpa using find?_some h⟩

/-- The bytes of a scanned entry pass the check again. -/
theorem verifiedRecord_of_sound (sound : SoundEntry memberId entry) :
    verifiedRecord entry = .ok entry.record := by
  simp [verifiedRecord, ControlRecord.decode_eq_ok, sound.raw, sound.rawDigest,
    sound.structural, sound.policy, ← sound.digest]

theorem verifiedWitness_of_sound (sound : SoundEntry history.memberId entry) :
    verifiedWitness history entry = .ok entry.record := by
  simp [verifiedWitness, verifiedRecord_of_sound sound, sound.owner]

/-- The first record with the given history digest has the given kind. -/
def holds (history : HistoryScan) (d : Digest) (kind : RecordKind) : Bool :=
  match history.findHistoryDigest d with
  | none => false
  | some entry => entry.record.kind = kind

omit [Blake3] in
theorem holds_iff {kind : RecordKind} : holds history d kind = true ↔
      ∃ entry, history.findHistoryDigest d = some entry ∧ entry.record.kind = kind := by
  unfold holds
  cases history.findHistoryDigest d <;> simp

/-- How many voters of the topology hold the event. -/
def voterWitnesses (histories : List HistoryScan) (topology : Topology) (d : Digest)
    (kind : RecordKind) : Nat :=
  histories.countP fun history => isVoter topology history.memberId && holds history d kind

/-- Counting the witnesses of an event cannot fail on scanned histories. -/
theorem countVoterWitnesses_of_sound
    (sound : ∀ history ∈ histories, SoundHistory history.memberId history.entries)
    (d : Digest) (kind : RecordKind) (topology : Topology) :
    countVoterWitnesses d kind topology histories =
      .ok (voterWitnesses histories topology d kind) := by
  induction histories with
  | nil => rfl
  | cons history rest ih =>
    have hhere : voterWitness d kind topology history =
        .ok (if isVoter topology history.memberId && holds history d kind then 1 else 0) := by
      unfold voterWitness holds
      cases hfind : history.findHistoryDigest d with
      | none => cases isVoter topology history.memberId <;> rfl
      | some entry =>
        have hsound := (sound history mem_cons_self).sound entry (findHistoryDigest_eq_some hfind).1
        simp only [verifiedWitness_of_sound hsound]
        cases isVoter topology history.memberId <;> simp [bind, Except.bind]
    have hrest := ih fun h hmem => sound h (mem_cons_of_mem _ hmem)
    simp only [countVoterWitnesses, hhere, hrest, bind, Except.bind, voterWitnesses, countP_cons]
    rw [Nat.add_comm]

omit [Blake3] in
theorem findEvidenceRecord_eq_ok {e₁ e₂ : Error}
    (h : findEvidenceRecord histories memberId d e₁ e₂ = .ok entry) :
    ∃ history ∈ histories, history.memberId = memberId ∧
      history.findRawRecordDigest d = some entry := by
  unfold findEvidenceRecord at h
  split at h
  case h_1 => cases h
  case h_2 history hfilter =>
    have hmem : history ∈ histories.filter fun history => history.memberId = memberId := by
      rw [hfilter]; exact mem_singleton_self _
    rw [mem_filter] at hmem
    exact ⟨history, hmem.1, by simpa using hmem.2, by simpa using h⟩
  case h_3 => cases h

omit [Blake3] in
theorem checkAll_eq_ok {check : Attestation → Except Error Unit} {attestations : List Attestation} :
    checkAll check attestations = .ok () ↔
      ∀ attestation ∈ attestations, check attestation = .ok () := by
  induction attestations with
  | nil => simp [checkAll]
  | cons attestation rest ih => simp [checkAll, ih]

end

section

variable [Blake3] [CollisionFree]

variable {entry : HistoryEntry}

section

variable {memberId memberId' : Id} {entry' : HistoryEntry} (sound : SoundEntry memberId entry)
  (sound' : SoundEntry memberId' entry')
include sound sound'

/-- Two records with the same history digest share everything that the digest covers. -/
theorem historyPreimage_eq (h : entry.record.historyDigest = entry'.record.historyDigest) :
    entry.record.historyPreimage = entry'.record.historyPreimage := by
  rw [sound.digest, sound'.digest] at h
  exact history_inj h

/-- Two entries with the same raw digest hold the same record. -/
theorem record_eq_of_rawDigest
    (h : entry.rawRecordDigest = entry'.rawRecordDigest) : entry.record = entry'.record := by
  rw [sound.rawDigest, sound'.rawDigest] at h
  exact record_inj h

end

/-- The evidence for an entry of a collection is that entry. -/
theorem findEvidenceRecord_self {histories : List HistoryScan} (collection : Collection histories)
    {history : HistoryScan} (hhistory : history ∈ histories) {found : HistoryEntry}
    (hentry : entry ∈ history.entries) {e₁ e₂ : Error}
    (h : findEvidenceRecord histories history.memberId entry.rawRecordDigest e₁ e₂ = .ok found) :
    verifiedRecord found = .ok entry.record ∧ found.record = entry.record := by
  obtain ⟨other, hother, hid, hfind⟩ := findEvidenceRecord_eq_ok h
  obtain rfl : other = history := inj_on_of_nodup_map collection.distinct hother hhistory hid
  obtain ⟨hmem, hdigest⟩ := findRawRecordDigest_eq_some hfind
  have hsound := (collection.sound other hother).sound
  have hrecord := record_eq_of_rawDigest (hsound found hmem) (hsound entry hentry) hdigest
  exact ⟨hrecord ▸ verifiedRecord_of_sound (hsound found hmem), hrecord⟩

end

/-! ## The content of a step -/

section

variable [Blake3]

/-- The prepare record that an attestation of a commit names: it is in the attested member's history
under exactly the attested raw digest, it extends the previous authority, and the commit repeats
it. -/
structure AttestedPrepare (histories : List HistoryScan) (kind : RecordKind) (previous : Digest)
    (commit : Record) (attestation : Attestation) (entry : HistoryEntry) : Prop where
  held : ∃ history ∈ histories, history.memberId = attestation.memberId ∧ entry ∈ history.entries
  rawDigest : entry.rawRecordDigest = attestation.prepareRecordDigest
  kind : entry.record.kind = kind
  extends_previous : entry.record.previousHistoryDigest = previous
  committed : entry.record.historyDigest = commit.previousHistoryDigest
  agrees : ¬ PoolEvidence.preparedFieldsDiffer entry.record commit

/-- A generation commit that extends `current`. -/
structure GenerationStep (histories : List HistoryScan) (current : Authority) (commit : Record)
    (certificate : PoolCertificate) : Prop where
  kind : commit.kind = .generationCommit
  topology_valid : PoolTopology.validate current.topology = .ok ()
  epoch : commit.membershipEpoch = current.topology.epoch
  current_epoch : current.membershipEpoch = current.topology.epoch
  generation : commit.generation = current.generation + 1
  writerTerm : current.writerTerm ≤ commit.writerTerm
  topologyDigest : PoolTopology.digest current.topology = .ok commit.topologyDigest
  layoutDigest : PoolLayout.digest current.layout = .ok commit.layoutDigest
  payload : commit.payload = .certificate certificate
  certified : PoolCertificate.validateAgainstTopology certificate current.topology = .ok ()
  attested : ∀ attestation ∈ certificate.attestations, ∃ entry,
    AttestedPrepare histories .generationPrepare current.historyDigest commit attestation entry
  quorum : current.topology.quorum ≤
    voterWitnesses histories current.topology commit.historyDigest .generationCommit

/-- A membership commit that extends `current`. -/
structure MembershipStep (histories : List HistoryScan) (current : Authority) (commit : Record)
    (proposal : Proposal) (certificate : MembershipCertificate) : Prop where
  kind : commit.kind = .membershipCommit
  topology_valid : PoolTopology.validate current.topology = .ok ()
  current_epoch : current.membershipEpoch = current.topology.epoch
  proposed : validateRecordProposal commit = .ok proposal
  transition : validateTransition current.topology proposal = .ok ()
  generation : commit.generation = current.generation
  dataRoot : commit.dataRootDigest = current.dataRootDigest
  writerTerm : current.writerTerm ≤ commit.writerTerm
  layoutDigest : PoolLayout.digest current.layout = .ok commit.layoutDigest
  decoded : decodeCertificate current.topology proposal.topology proposal.mode
    (commitCertificatePart commit) = .ok certificate
  attested : ∀ attestation ∈ certificate.oldGroup ++ certificate.newGroup, ∃ entry,
    AttestedPrepare histories .membershipPrepare current.historyDigest commit attestation entry
  oldQuorum : proposal.mode = .normal → current.topology.quorum ≤
    voterWitnesses histories current.topology commit.historyDigest .membershipCommit
  newQuorum : proposal.topology.quorum ≤
    voterWitnesses histories proposal.topology commit.historyDigest .membershipCommit

variable {certificate : MembershipCertificate}

omit [Blake3] in
theorem certificate_of_membershipDecode {current next : Topology} {mode : MembershipMode}
    {part : CertificatePart} (h : decodeCertificate current next mode part = .ok certificate) :
    validateCertificate current next mode certificate = .ok () := by
  unfold decodeCertificate at h
  split at h
  case h_1 => cases h
  case h_2 =>
    simp only [ok_iff] at h
    obtain ⟨hvalid, _, _, rfl⟩ := h
    exact hvalid

/-- How many voters other than the joining member hold its bootstrap. -/
def bootstrapWitnesses (histories : List HistoryScan) (topology : Topology) (d : Digest)
    (target : Id) : Nat :=
  histories.countP fun history => decide (history.memberId ≠ target) &&
    (isVoter topology history.memberId && holds history d .memberBootstrap)

/-- A member bootstrap that extends `current`. -/
structure BootstrapStep (histories : List HistoryScan) (current : Authority) (record : Record)
    (evidence : BootstrapEvidence) : Prop where
  kind : record.kind = .memberBootstrap
  topology_valid : PoolTopology.validate current.topology = .ok ()
  current_epoch : current.membershipEpoch = current.topology.epoch
  bootstrapped : MemberBootstrap.validateRecord record = .ok evidence
  extends_current : record.previousHistoryDigest = current.historyDigest
  epoch : record.membershipEpoch = current.topology.epoch
  writerTerm : record.writerTerm = current.writerTerm
  generation : record.generation = current.generation
  dataRoot : record.dataRootDigest = current.dataRootDigest
  target : ∃ history ∈ histories, history.memberId = evidence.targetMemberId ∧
    ∃ first ∈ history.entries.head?, first.record.historyDigest = record.historyDigest
  quorum : current.topology.quorum ≤
    bootstrapWitnesses histories current.topology record.historyDigest evidence.targetMemberId

/-- A snapshot checkpoint that extends `current`. -/
structure CheckpointStep (histories : List HistoryScan) (current : Authority) (record : Record)
    (snapshot : Snapshot) : Prop where
  kind : record.kind = .checkpoint
  topology_valid : PoolTopology.validate current.topology = .ok ()
  current_epoch : current.membershipEpoch = current.topology.epoch
  extends_current : record.previousHistoryDigest = current.historyDigest
  snapshotted : validateRecord record (checkpointContext current) =
    .ok snapshot
  quorum : current.topology.quorum ≤
    voterWitnesses histories current.topology record.historyDigest .checkpoint

/-- **The steps of an authority.**  `Extends histories current record next` : the record, found in
some history, takes the authority from `current` to `next`. -/
inductive Extends (histories : List HistoryScan) (current : Authority) (record : Record) :
    Authority → Prop where
  | generation {certificate : PoolCertificate}
      (step : GenerationStep histories current record certificate) :
      Extends histories current record (authorityFromRecord .generationCommit current record
        (voterWitnesses histories current.topology record.historyDigest .generationCommit))
  | membership {proposal : Proposal} {certificate : MembershipCertificate}
      (step : MembershipStep histories current record proposal certificate) :
      Extends histories current record (authorityFromMembership current record proposal
        (voterWitnesses histories proposal.topology record.historyDigest .membershipCommit))
  | bootstrap {evidence : BootstrapEvidence}
      (step : BootstrapStep histories current record evidence) :
      Extends histories current record (authorityFromRecord .memberBootstrap current record
        (bootstrapWitnesses histories current.topology record.historyDigest
          evidence.targetMemberId))
  | checkpoint {snapshot : Snapshot}
      (step : CheckpointStep histories current record snapshot) :
      Extends histories current record (authorityFromCheckpoint current record
        (voterWitnesses histories current.topology record.historyDigest .checkpoint))

end

section

variable [Blake3]

variable {commit : Record} {d : Digest} {histories : List HistoryScan} {attestation : Attestation}

omit [Blake3] in
theorem validatePrepareCommitBinding_eq_ok {prepare : Record} :
    validatePrepareCommitBinding prepare commit d = .ok () ↔
      prepare.previousHistoryDigest = d ∧ prepare.historyDigest = commit.previousHistoryDigest ∧
        ¬ preparedFieldsDiffer prepare commit := by
  simp [validatePrepareCommitBinding]

theorem attestedPrepare_of_generation (collection : Collection histories)
    (h : validateGenerationPrepare histories commit d attestation = .ok ()) :
    ∃ entry, AttestedPrepare histories .generationPrepare d commit attestation entry := by
  simp only [validateGenerationPrepare, ok_iff, not_not, validatePrepareCommitBinding_eq_ok] at h
  obtain ⟨entry, hfind, prepare, hverified, hkind, _, _, hprev, hcommitted, hagrees⟩ := h
  obtain ⟨history, hhistory, hid, hraw⟩ := findEvidenceRecord_eq_ok hfind
  obtain ⟨hmem, hdigest⟩ := findRawRecordDigest_eq_some hraw
  rw [verifiedRecord_of_sound ((collection.sound history hhistory).sound entry hmem)] at hverified
  cases hverified
  exact ⟨entry, ⟨history, hhistory, hid, hmem⟩, hdigest, hkind, hprev, hcommitted, hagrees⟩

theorem attestedPrepare_of_membership (collection : Collection histories)
    (h : validateMembershipPrepare histories commit d attestation = .ok ()) :
    ∃ entry, AttestedPrepare histories .membershipPrepare d commit attestation entry := by
  simp only [validateMembershipPrepare, ok_iff, not_not, validatePrepareCommitBinding_eq_ok] at h
  obtain ⟨entry, hfind, prepare, hverified, hkind, _, _, _, _, _, hprev, hcommitted, hagrees⟩ := h
  obtain ⟨history, hhistory, hid, hraw⟩ := findEvidenceRecord_eq_ok hfind
  obtain ⟨hmem, hdigest⟩ := findRawRecordDigest_eq_some hraw
  rw [verifiedRecord_of_sound ((collection.sound history hhistory).sound entry hmem)] at hverified
  cases hverified
  exact ⟨entry, ⟨history, hhistory, hid, hmem⟩, hdigest, hkind, hprev, hcommitted, hagrees⟩

omit [Blake3] in
theorem certificate_of_decode {payload : Payload} {certificate : PoolCertificate}
    (h : PoolCertificate.decode payload = .ok certificate) :
    payload = .certificate certificate := by
  unfold PoolCertificate.decode at h
  split at h
  case h_1 =>
    simp only [ok_iff] at h
    rw [h.2.2]
  case h_2 => cases h
  case h_3 => cases h

end

/-! ## Bootstraps -/

variable {evidence : BootstrapEvidence}

section

variable [Blake3] {histories : List HistoryScan} {d : Digest} {topology : Topology}
  {layout : Layout} {authority : PoolEvidence.Authority}

/-- What the bootstrap check establishes about a history that holds the record. -/
structure BootstrapCopy (topology : Topology) (layout : Layout)
    (authority : PoolEvidence.Authority) (evidence : BootstrapEvidence) (record : Record) :
    Prop where
  kind : record.kind = .memberBootstrap
  bootstrapped : MemberBootstrap.validateRecord record = .ok evidence
  bound : PoolEvidence.validateBootstrapAuthorityBinding record topology layout authority = .ok ()

/-- The history is that of the joining member and starts with its bootstrap. -/
def IsTargetCopy (d : Digest) (target : Id) (history : HistoryScan) : Prop :=
  history.memberId = target ∧ ∃ first ∈ history.entries.head?, first.record.historyDigest = d

omit [Blake3] in
theorem first_of_findIdx {entries : List HistoryEntry}
    (h : entries.findIdx? (fun e => e.record.historyDigest = d) = some 0) :
    ∃ first ∈ entries.head?, first.record.historyDigest = d := by
  cases entries with
  | nil => simp at h
  | cons first rest =>
    refine ⟨first, rfl, ?_⟩
    by_contra hne
    simp [findIdx?_cons, hne] at h

theorem tallyBootstrap_cases {history : HistoryScan} {tally next : BootstrapTally}
    (sound : SoundHistory history.memberId history.entries)
    (h : tallyBootstrap d topology layout authority history tally = .ok next) :
    (history.findHistoryDigest d = none ∧ next = tally) ∨
    ∃ entry evidence, history.findHistoryDigest d = some entry ∧
      BootstrapCopy topology layout authority evidence entry.record ∧
      (∀ selected ∈ tally.selected, selected = evidence) ∧ next.selected = some evidence ∧
      next.voterWitnessCount = tally.voterWitnessCount +
        bootstrapWitnesses [history] topology d evidence.targetMemberId ∧
      (next.targetCopyFound = true → tally.targetCopyFound = true ∨
        IsTargetCopy d evidence.targetMemberId history) := by
  unfold tallyBootstrap at h
  rcases hfind : history.findHistoryDigest d with _ | entry
  · rw [hfind] at h
    cases h
    exact .inl ⟨rfl, rfl⟩
  have hmem := (findHistoryDigest_eq_some hfind).1
  simp only [hfind, verifiedRecord_of_sound (sound.sound entry hmem), ok_iff, not_not] at h
  obtain ⟨_, rfl, hkind, _, evidence, hevidence, hbound, hselected, h⟩ := h
  have hselected' : ∀ selected ∈ tally.selected, selected = evidence := by
    intro selected hmem
    by_contra hne
    exact hselected ⟨selected, hmem, hne⟩
  have hholds : holds history d .memberBootstrap = true := holds_iff.mpr ⟨entry, hfind, hkind⟩
  refine .inr ⟨entry, evidence, rfl, ⟨hkind, hevidence, hbound⟩, hselected', ?_⟩
  split at h
  case isTrue htarget =>
    simp only [ok_iff, not_not] at h
    obtain ⟨hfirst, _, rfl⟩ := h
    refine ⟨rfl, ?_, fun _ => .inr ⟨htarget, first_of_findIdx hfirst⟩⟩
    simp [bootstrapWitnesses, htarget]
  rename_i htarget
  split at h
  case isTrue hvoter =>
    cases h
    exact ⟨rfl, by simp [bootstrapWitnesses, htarget, hvoter, hholds], .inl⟩
  case isFalse hvoter =>
    cases h
    exact ⟨rfl, by simp [bootstrapWitnesses, hvoter], .inl⟩

/-- What the loop of the bootstrap check establishes, for the evidence it ends with. -/
structure TallyOf (d : Digest) (topology : Topology) (layout : Layout)
    (authority : PoolEvidence.Authority) (histories : List HistoryScan)
    (tally final : BootstrapTally) (evidence : BootstrapEvidence) : Prop where
  kept : ∀ selected ∈ tally.selected, selected = evidence
  count : final.voterWitnessCount = tally.voterWitnessCount +
    bootstrapWitnesses histories topology d evidence.targetMemberId
  target : final.targetCopyFound = true → tally.targetCopyFound = true ∨
    ∃ history ∈ histories, IsTargetCopy d evidence.targetMemberId history
  copies : ∀ history ∈ histories, ∀ entry, history.findHistoryDigest d = some entry →
    BootstrapCopy topology layout authority evidence entry.record

theorem tallyBootstraps_spec {previous : List HistoryScan} : ∀ {tally final : BootstrapTally},
      (∀ history ∈ histories, SoundHistory history.memberId history.entries) →
      tallyBootstraps d topology layout authority previous histories tally = .ok final →
      final.selected = some evidence →
      TallyOf d topology layout authority histories tally final evidence := by
  induction histories generalizing previous with
  | nil =>
    intro tally final _ h hselected
    cases h
    refine ⟨?_, by simp [bootstrapWitnesses], fun h => .inl h, by simp⟩
    intro selected hmem
    rw [hselected] at hmem
    exact (some.inj hmem).symm
  | cons history rest ih =>
    intro tally final sound h hselected
    simp only [tallyBootstraps, ok_iff] at h
    obtain ⟨_, next, hstep, hrest⟩ := h
    have spec := ih (fun h hmem => sound h (mem_cons_of_mem _ hmem)) hrest hselected
    have hsplit : bootstrapWitnesses (history :: rest) topology d evidence.targetMemberId =
        bootstrapWitnesses [history] topology d evidence.targetMemberId +
          bootstrapWitnesses rest topology d evidence.targetMemberId := by
      simp only [bootstrapWitnesses, countP_cons, countP_nil]
      omega
    rcases tallyBootstrap_cases (sound history mem_cons_self) hstep with
      ⟨hfind, rfl⟩ | ⟨entry, evidence', hfind, hcopy, hkept, hnext, hcount, htarget⟩
    · have hnone : bootstrapWitnesses [history] topology d evidence.targetMemberId = 0 := by
        simp [bootstrapWitnesses, holds, hfind]
      refine ⟨spec.kept, by rw [spec.count, hsplit, hnone, Nat.zero_add], ?_, ?_⟩
      · intro hfound
        rcases spec.target hfound with h | ⟨h, hmem, hcopy⟩
        · exact .inl h
        · exact .inr ⟨h, mem_cons_of_mem _ hmem, hcopy⟩
      · intro h hmem entry hentry
        rcases mem_cons.mp hmem with rfl | hmem
        · rw [hfind] at hentry; cases hentry
        · exact spec.copies h hmem entry hentry
    · obtain rfl : evidence' = evidence := spec.kept evidence' hnext
      refine ⟨hkept, by rw [spec.count, hcount, hsplit]; omega, ?_, ?_⟩
      · intro hfound
        rcases spec.target hfound with h | ⟨h, hmem, hcopy⟩
        · rcases htarget h with h | h
          · exact .inl h
          · exact .inr ⟨history, mem_cons_self, h⟩
        · exact .inr ⟨h, mem_cons_of_mem _ hmem, hcopy⟩
      · intro h hmem entry' hentry
        rcases mem_cons.mp hmem with rfl | hmem
        · rw [hfind] at hentry
          cases hentry
          exact hcopy
        · exact spec.copies h hmem entry' hentry

end

variable [Blake3] [CollisionFree] {histories : List HistoryScan} {current next : Authority}
  {history : HistoryScan} {entry : HistoryEntry}

omit [CollisionFree] in
theorem bootstrap_decoded {record : Record}
    (h : MemberBootstrap.validateRecord record = .ok evidence) :
    MemberBootstrap.decode record.payload = .ok evidence := by
  simp only [MemberBootstrap.validateRecord, ok_iff] at h
  obtain ⟨_, _, _, evidence, hdecode, _, _, _, _, _, _, _, _, rfl⟩ := h
  exact hdecode

omit [Blake3] [CollisionFree] in
theorem find_self (hentry : entry ∈ history.entries) :
    ∃ first, history.findHistoryDigest entry.record.historyDigest = some first := by
  rw [← isSome_iff_exists, HistoryScan.findHistoryDigest, find?_isSome]
  exact ⟨entry, hentry, by simp⟩

/-! ## Inversion of the candidate checks -/

section

variable (collection : Collection histories) (hhistory : history ∈ histories)
  (hentry : entry ∈ history.entries)
include collection hhistory hentry

theorem extends_of_generation
    (h : validateGenerationCandidate histories current history entry = .ok (some next)) :
    Extends histories current entry.record next := by
  unfold validateGenerationCandidate at h
  split at h
  case isFalse => cases h
  case isTrue hextends =>
    simp only [ok_iff, evidenceOf, countVoterWitnesses_of_sound collection.sound,
      validateGenerationCommitEvidence, not_not, not_or, checkAll_eq_ok] at h
    obtain ⟨_, ⟨_, htopology, _, hlayout, rfl⟩, _, ⟨hvalid, _, _, ⟨hepoch, _⟩, found, hfound, commit,
      hcommit, hkind, _, _, hcommitEpoch, rfl, rfl, ⟨_, hgeneration⟩, hterm, certificate,
        hcertificate, hcertified, _, hattested, rfl⟩, _, rfl, h⟩ := h
    obtain ⟨hverified, _⟩ := findEvidenceRecord_self collection hhistory hentry hfound
    obtain rfl : entry.record = commit := by
      rw [hverified] at hcommit; exact Except.ok.inj hcommit
    split at h
    case isTrue => cases h
    rename_i hquorum
    cases h
    exact .generation ⟨hkind, hvalid, hcommitEpoch, hepoch, hgeneration, Nat.le_of_not_lt hterm,
      htopology, hlayout, certificate_of_decode hcertificate, hcertified, fun attestation hmem =>
        attestedPrepare_of_generation collection (hattested attestation hmem),
      Nat.le_of_not_lt hquorum⟩

theorem extends_of_membership
    (h : validateMembershipCandidate histories current history entry = .ok (some next)) :
    Extends histories current entry.record next := by
  unfold validateMembershipCandidate at h
  split at h
  case isFalse => cases h
  case isTrue hextends =>
    simp only [ok_iff, evidenceOf, countVoterWitnesses_of_sound collection.sound,
      validateMembershipCommitEvidence, not_not, checkAll_eq_ok] at h
    obtain ⟨_, ⟨_, _, _, hlayout, rfl⟩, _, ⟨hvalid, hepoch, _, _, _, found, hfound, commit, hcommit,
      hkind, _, proposal, hproposal, htransition, _, hbinding, certificate, hcertificate, _,
        hattested, rfl⟩, _, rfl, _, rfl, h⟩ := h
    obtain ⟨hverified, _⟩ := findEvidenceRecord_self collection hhistory hentry hfound
    obtain rfl : entry.record = commit := by
      rw [hverified] at hcommit; exact Except.ok.inj hcommit
    simp only [validateAuthorityBinding, ok_iff, not_not, not_or] at hbinding
    obtain ⟨hterm, hgeneration, hdata, rfl⟩ := hbinding
    split at h
    case isTrue => cases h
    rename_i hquorum
    cases h
    rw [not_or, not_and] at hquorum
    exact .membership ⟨hkind, hvalid, hepoch, hproposal, htransition, hgeneration, hdata,
      Nat.le_of_not_lt hterm, hlayout, hcertificate, fun attestation hmem =>
        attestedPrepare_of_membership collection (hattested attestation hmem),
      fun hmode => Nat.le_of_not_lt (hquorum.1 hmode), Nat.le_of_not_lt hquorum.2⟩

omit [CollisionFree] in
theorem extends_of_checkpoint
    (h : validateCheckpointCandidate histories current history entry = .ok (some next)) :
    Extends histories current entry.record next := by
  unfold validateCheckpointCandidate at h
  split at h
  case isFalse => cases h
  case isTrue hextends =>
    have hsound := (collection.sound history hhistory).sound entry hentry
    simp only [countVoterWitnesses_of_sound collection.sound, ok_iff] at h
    obtain ⟨_, rfl, h⟩ := h
    split at h
    case isTrue => cases h
    rename_i hquorum
    simp only [verifiedWitness_of_sound hsound, ok_iff] at h
    obtain ⟨_, rfl, snapshot, hsnapshot, h⟩ := h
    cases h
    have hvalid := hsnapshot
    simp only [validateRecord, ok_iff, validateContext, validate,
      validateCompactedRootRecord, not_not] at hvalid
    obtain ⟨_, ⟨hkind, _⟩, ⟨⟨_, htopology, _⟩, hepoch⟩, _⟩ := hvalid
    exact .checkpoint ⟨hkind, htopology, hepoch, hextends, hsnapshot, Nat.le_of_not_lt hquorum⟩

theorem extends_of_bootstrap (hkind : entry.record.kind = .memberBootstrap)
    (h : validateBootstrapCandidate histories current entry = .ok (some next)) :
    Extends histories current entry.record next := by
  unfold validateBootstrapCandidate at h
  split at h
  case isFalse => cases h
  case isTrue hextends =>
    simp only [ok_iff, evidenceOf, validateMemberBootstrapEvidence, not_not,
      not_or, some.injEq] at h
    obtain ⟨_, ⟨_, _, _, _, rfl⟩, _, ⟨hvalid, _, _, _, ⟨hepoch, _⟩, _, _, _, tally, htally, evidence,
      hselected, hfound, hquorum, rfl⟩, rfl⟩ := h
    have spec := tallyBootstraps_spec collection.sound htally hselected
    obtain ⟨first, hfirst⟩ := find_self hentry
    obtain ⟨hfirstMem, hfirstDigest⟩ := findHistoryDigest_eq_some hfirst
    have sound := collection.sound history hhistory
    injection historyPreimage_eq (sound.sound first hfirstMem) (sound.sound entry hentry)
      hfirstDigest with _ _ hepoch' hterm' hgen' _ _ _ hdata' _ _ hpayload
    have hcopy := spec.copies history hhistory first hfirst
    have hbound := hcopy.bound
    simp only [validateBootstrapAuthorityBinding, ok_iff, not_not, not_or] at hbound
    obtain ⟨_, _, _, _, _, hEpoch, hTerm, hGeneration, hData, _, _⟩ := hbound
    obtain ⟨evidence', hevidence'⟩ := sound.bootstrap_valid hentry hkind
    obtain rfl : evidence' = evidence := by
      have h₁ := bootstrap_decoded hevidence'
      rw [← hpayload, bootstrap_decoded hcopy.bootstrapped] at h₁
      exact (Except.ok.inj h₁).symm
    have hcount : tally.voterWitnessCount = bootstrapWitnesses histories current.topology
        entry.record.historyDigest evidence'.targetMemberId := by
      simpa using spec.count
    rw [hcount]
    refine .bootstrap ⟨hkind, hvalid, hepoch, hevidence', hextends, hepoch'.symm.trans hEpoch,
      hterm'.symm.trans hTerm, hgen'.symm.trans hGeneration, hdata'.symm.trans hData, ?_, ?_⟩
    · rcases spec.target (by simpa using hfound) with h | ⟨h, hmem, hid, hcopy⟩
      · cases h
      · exact ⟨h, hmem, hid, hcopy⟩
    · rw [← hcount]; exact Nat.le_of_not_lt hquorum

/-- **Inversion of `validateCandidate`.** -/
theorem extends_of_candidate
    (h : validateCandidate histories current history entry = .ok (some next)) :
    Extends histories current entry.record next := by
  unfold validateCandidate at h
  split at h
  case h_1 =>
    split at h
    · exact extends_of_generation collection hhistory hentry h
    · cases h
  case h_2 =>
    split at h
    · exact extends_of_membership collection hhistory hentry h
    · cases h
  case h_3 hkind => exact extends_of_bootstrap collection hhistory hentry hkind h
  case h_4 =>
    split at h
    · exact extends_of_checkpoint collection hhistory hentry h
    · cases h
  case h_5 => cases h

end

end Zettide.PoolAuthority
