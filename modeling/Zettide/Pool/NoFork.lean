import Zettide.Lib.HashChain
import Zettide.Lib.Runs
import Zettide.Pool.Replay

/-! # The authority does not fork

In the journal of one member at most one event succeeds a given authority; two quorums of one voter
set share a member; so all collections of histories agree on the event that follows an authority.
Administrative recovery is the exception by design: it asks no old voter. -/

namespace Zettide

open List PoolTopology Finset HistoryScan Zettide.Membership Except CollisionFree

namespace PoolAuthority

open Relation

section

variable [Blake3]

/-- A prepare record with digest `d` extends the authority with digest `previous`. -/
def PreparedOn (previous d : Digest) : Prop :=
  ∃ prepare : HistoryPreimage, blake3 (.history prepare) = d ∧
    prepare.previousHistoryDigest = previous ∧
    (prepare.kind = .generationPrepare ∨ prepare.kind = .membershipPrepare)

/-- The record is an event that succeeds the authority: directly, or through its prepare record. -/
def Succeeds (previous : Digest) (record : Record) : Prop :=
  ((record.kind = .memberBootstrap ∨ record.kind = .checkpoint) ∧
      record.previousHistoryDigest = previous) ∨
    ((record.kind = .generationCommit ∨ record.kind = .membershipCommit) ∧
      PreparedOn previous record.previousHistoryDigest)

/-- Everything about an authority but how many members witness it. -/
def SameEvent (a b : Authority) : Prop :=
  { a with witnessCount := 0 } = { b with witnessCount := 0 }

omit [Blake3] in
theorem SameEvent.refl (a : Authority) : SameEvent a a := rfl

variable {memberId : Id} {previous : Digest} {entries : List HistoryEntry} {entry : HistoryEntry}

theorem Succeeds.transGen (h : Succeeds previous entry.record) (sound : SoundEntry memberId entry) :
    TransGen Precedes previous entry.record.historyDigest := by
  have hstep := SoundEntry.precedes sound
  rcases h with ⟨_, hprev⟩ | ⟨_, prepare, hdigest, hprev, _⟩
  · exact .single (hprev ▸ hstep)
  · exact .tail (.single ⟨prepare, hprev, hdigest⟩) hstep

variable [CollisionFree] {x y : HistoryEntry}

omit [CollisionFree] in
theorem Succeeds.not_prepare {record : Record} (h : Succeeds previous record) :
    record.kind ≠ .generationPrepare ∧ record.kind ≠ .membershipPrepare := by
  rcases h with ⟨h | h, _⟩ | ⟨h | h, _⟩ <;> simp [h]

/-- In the part of a journal from `x` on, no later record succeeds the authority that `x`
succeeds. -/
theorem not_succeeds_later {after : List HistoryEntry}
    (linked : HashLinked (fun e : HistoryEntry => e.record.historyDigest)
      (fun e => e.record.previousHistoryDigest) (x :: after))
    (sound : ∀ e ∈ x :: after, SoundEntry memberId e)
    (hx : Succeeds previous x.record) (hy : y ∈ after) :
    ¬ Succeeds previous y.record := by
  have hreach := linked.reaches fun e he => SoundEntry.precedes (sound e he)
  have hcycle := hx.transGen (sound x mem_cons_self)
  -- a record from `x` on cannot carry the digest of the authority before `x`
  have habsurd : ∀ z ∈ x :: after, z.record.historyDigest ≠ previous := by
    rintro z hz rfl
    exact acyclic _ (hcycle.trans_left (hreach z hz))
  obtain ⟨z, hz, hlink⟩ := linked.exists_predecessor hy
  rintro (⟨_, hprev⟩ | ⟨_, prepare, hdigest, hprev, hkind⟩)
  · exact habsurd z hz (hlink.symm.trans hprev)
  · have hsame : prepare = z.record.historyPreimage := by
      have hz' := (sound z hz).digest
      rw [hdigest.symm, hz'] at hlink
      exact history_inj hlink
    subst hsame
    rcases mem_cons.mp hz with rfl | hz
    · exact hkind.elim hx.not_prepare.1 hx.not_prepare.2
    · obtain ⟨w, hw, hlink'⟩ := linked.exists_predecessor hz
      exact habsurd w hw (hlink'.symm.trans hprev)

/-- **A journal holds at most one successor of an authority.** -/
theorem successor_unique (sound : SoundHistory memberId entries) (hx : x ∈ entries.tail)
    (hy : y ∈ entries.tail) (hsx : Succeeds previous x.record) (hsy : Succeeds previous y.record) :
    x.record.historyDigest = y.record.historyDigest := by
  have linked : HashLinked (fun e : HistoryEntry => e.record.historyDigest)
      (fun e => e.record.previousHistoryDigest) entries.tail :=
    sound.linked.imp fun _ _ h => h.historyLink
  have hsound : ∀ e ∈ entries.tail, SoundEntry memberId e :=
    fun e he => sound.sound e (mem_of_mem_tail he)
  rcases split_of_mem hx hy with rfl | ⟨before, after, heq, hafter⟩ | ⟨before, after, heq, hafter⟩
  · rfl
  · rw [heq] at linked hsound
    exact absurd hsy (not_succeeds_later linked.of_append
      (fun e he => hsound e (mem_append_right _ he)) hsx hafter)
  · rw [heq] at linked hsound
    exact absurd hsx (not_succeeds_later linked.of_append
      (fun e he => hsound e (mem_append_right _ he)) hsy hafter)

end

/-! ## Steps agree -/

variable {entries : List HistoryEntry} {kind : RecordKind} {previous : Digest} {a b : Authority}

section

variable [Blake3] {histories : List HistoryScan} {current next : Authority} {record : Record}
  {entry : HistoryEntry}

theorem AttestedPrepare.preparedOn (collection : Collection histories)
    (hkind : kind = .generationPrepare ∨ kind = .membershipPrepare) {attestation : Attestation}
    (h : AttestedPrepare histories kind previous record attestation entry) :
    PreparedOn previous record.previousHistoryDigest := by
  obtain ⟨history, hmem, _, hentry⟩ := h.held
  have sound := (collection.sound history hmem).sound entry hentry
  refine ⟨entry.record.historyPreimage, sound.digest.symm.trans h.committed, h.extends_previous, ?_⟩
  show entry.record.kind = _ ∨ entry.record.kind = _
  rw [h.kind]
  exact hkind

theorem Extends.succeeds (collection : Collection histories)
    (h : Extends histories current record next) : Succeeds current.historyDigest record := by
  cases h with
  | @generation certificate step =>
    have hcert := step.certified
    simp only [PoolCertificate.validateAgainstTopology, PoolCertificate.validate, ok_iff, not_or]
      at hcert
    obtain ⟨attestation, hmem⟩ :=
      exists_mem_of_length_pos (Nat.pos_of_ne_zero hcert.1.1.1)
    obtain ⟨entry, hentry⟩ := step.attested attestation hmem
    exact .inr ⟨.inl step.kind, hentry.preparedOn collection (.inl rfl)⟩
  | @membership proposal certificate step =>
    have hcert := certificate_of_membershipDecode step.decoded
    simp only [validateCertificate, ok_iff, not_or] at hcert
    obtain ⟨attestation, hmem⟩ :=
      exists_mem_of_length_pos (Nat.pos_of_ne_zero hcert.2.2.2.1.1)
    obtain ⟨entry, hentry⟩ := step.attested attestation hmem
    exact .inr ⟨.inr step.kind, hentry.preparedOn collection (.inr rfl)⟩
  | bootstrap step => exact .inl ⟨.inl step.kind, step.extends_current⟩
  | checkpoint step => exact .inl ⟨.inr step.kind, step.extends_current⟩

/-- A record that is not a birth record is not the first one of a scanned history. -/
theorem mem_tail_of_not_birth {memberId : Id}
    (sound : SoundHistory memberId entries) (hmem : entry ∈ entries)
    (hbirth : ¬ BirthRecord memberId entry.record) : entry ∈ entries.tail := by
  obtain _ | ⟨first, rest⟩ := entries
  · cases hmem
  rcases mem_cons.mp hmem with rfl | hmem
  · exact absurd (sound.birth entry rfl) hbirth
  · exact hmem

end

section

variable [Blake3] [CollisionFree]

/-- No membership commit of the collection was made in administrative recovery mode. -/
def NoAdministrativeRecovery (histories : List HistoryScan) : Prop :=
  ∀ history ∈ histories, ∀ entry ∈ history.entries, entry.record.kind = .membershipCommit →
    ∀ proposal, validateRecordProposal entry.record = .ok proposal →
      proposal.mode = .normal

/-- A voter that accepts an event has it in its journal, behind the birth record. -/
def HeldByVoters (histories : List HistoryScan) (topology : Topology) (d : Digest)
    (accepts : HistoryScan → Bool) : Prop :=
  topology.quorum ≤ histories.countP accepts ∧
    ∀ history ∈ histories, accepts history = true →
      isVoter topology history.memberId = true ∧
        ∃ entry ∈ history.entries.tail, entry.record.historyDigest = d

omit [CollisionFree] in
theorem heldByVoters_of_witnesses {histories : List HistoryScan} (collection : Collection histories)
    {topology : Topology} {d : Digest} (hkind : kind ≠ .genesis ∧ kind ≠ .memberBootstrap)
    (quorum : topology.quorum ≤ voterWitnesses histories topology d kind) :
    HeldByVoters histories topology d
      (fun history => isVoter topology history.memberId && holds history d kind) := by
  refine ⟨quorum, fun history hmem haccepts => ?_⟩
  rw [Bool.and_eq_true, holds_iff] at haccepts
  obtain ⟨hvoter, entry, hfind, hentryKind⟩ := haccepts
  obtain ⟨hentry, hdigest⟩ := findHistoryDigest_eq_some hfind
  refine ⟨hvoter, entry, mem_tail_of_not_birth (collection.sound history hmem) hentry ?_, hdigest⟩
  rintro (⟨h, _⟩ | ⟨h, _⟩)
  · exact hkind.1 (hentryKind.symm.trans h)
  · exact hkind.2 (hentryKind.symm.trans h)

variable {histories : List HistoryScan} {current next : Authority} {history : HistoryScan}
  {entry : HistoryEntry}

/-- **An event outside administrative recovery is held by a quorum of the current voters.** -/
theorem Extends.heldByVoters (collection : Collection histories)
    (normal : NoAdministrativeRecovery histories) (hhistory : history ∈ histories)
    (hentry : entry ∈ history.entries) (h : Extends histories current entry.record next) :
    validate current.topology = .ok () ∧
      ∃ accepts, HeldByVoters histories current.topology entry.record.historyDigest accepts := by
  cases h with
  | generation step =>
    exact ⟨step.topology_valid, _, heldByVoters_of_witnesses collection (by simp) step.quorum⟩
  | @membership proposal certificate step =>
    have hmode := normal history hhistory entry hentry step.kind proposal step.proposed
    exact ⟨step.topology_valid, _,
      heldByVoters_of_witnesses collection (by simp) (step.oldQuorum hmode)⟩
  | checkpoint step =>
    exact ⟨step.topology_valid, _, heldByVoters_of_witnesses collection (by simp) step.quorum⟩
  | @bootstrap evidence step =>
    refine ⟨step.topology_valid, _, step.quorum, fun other hmem haccepts => ?_⟩
    simp only [Bool.and_eq_true, decide_eq_true_eq, holds_iff] at haccepts
    obtain ⟨htarget, hvoter, found, hfind, _⟩ := haccepts
    obtain ⟨hfound, hdigest⟩ := findHistoryDigest_eq_some hfind
    have sound := collection.sound other hmem
    refine ⟨hvoter, found, mem_tail_of_not_birth sound hfound ?_, hdigest⟩
    -- as birth record it would be the bootstrap of this very member
    have hsame := historyPreimage_eq (sound.sound found hfound)
      ((collection.sound history hhistory).sound entry hentry) hdigest
    injection hsame with hkind _ _ _ _ _ _ _ _ _ _ hpayload
    rintro (⟨hgenesis, _⟩ | ⟨_, evidence', hevidence', htarget'⟩)
    · rw [hgenesis, step.kind] at hkind
      cases hkind
    · have hdecoded := bootstrap_decoded hevidence'
      rw [hpayload, bootstrap_decoded step.bootstrapped] at hdecoded
      obtain rfl : evidence = evidence' := ok.inj hdecoded
      exact htarget htarget'.symm

variable {record' record : Record} {all : List HistoryScan}

omit [CollisionFree] in
theorem proposal_decoded {proposal proposal' : Proposal} (hkind : record.kind = record'.kind)
    (hpayload : record.payload = record'.payload) (h : validateRecordProposal record = .ok proposal)
    (h' : validateRecordProposal record' = .ok proposal') : proposal = proposal' := by
  simp only [validateRecordProposal, ok_iff] at h h'
  obtain ⟨_, p, hp, _, _, _, _, _, _, rfl⟩ := h
  obtain ⟨_, p', hp', _, _, _, _, _, _, rfl⟩ := h'
  unfold recordProposal at hp hp'
  rw [hkind, hpayload] at hp
  exact ok.inj (hp.symm.trans hp')

omit [Blake3] [CollisionFree] in
theorem SameEvent.fields (h : SameEvent a b) :
    a.kind = b.kind ∧ a.historyDigest = b.historyDigest ∧ a.dataRootDigest = b.dataRootDigest ∧
      a.topology = b.topology ∧ a.layout = b.layout ∧ a.membershipEpoch = b.membershipEpoch ∧
      a.writerTerm = b.writerTerm ∧ a.generation = b.generation ∧
      a.administrativeRecovery = b.administrativeRecovery := by
  unfold SameEvent at h
  simp only [Authority.mk.injEq] at h
  simp [h]

omit [CollisionFree] in
/-- The same event extends the same authority to the same authority. -/
theorem Extends.sameEvent {histories' : List HistoryScan} {current' next' : Authority}
    (hcurrent : SameEvent current current')
    (hsame : record.historyPreimage = record'.historyPreimage)
    (hdigest : record.historyDigest = record'.historyDigest)
    (h : Extends histories current record next) (h' : Extends histories' current' record' next') :
    SameEvent next next' := by
  obtain ⟨_, _, hdata, htopology, hlayout, hepoch, hterm, hgen, hadmin⟩ := hcurrent.fields
  injection hsame with hkind _ hepoch' hterm' hgen' _ _ _ hdata' _ _ hpayload
  cases h with
  | generation step =>
    cases h' with
    | generation step' =>
      simp [SameEvent, authorityFromRecord, hdigest, hdata', htopology, hlayout, hepoch',
        hterm', hgen', hadmin]
    | membership step' | bootstrap step' | checkpoint step' =>
      rw [step.kind, step'.kind] at hkind; cases hkind
  | membership step =>
    cases h' with
    | membership step' =>
      have hproposal := proposal_decoded hkind hpayload step.proposed step'.proposed
      simp [SameEvent, authorityFromMembership, hdigest, hdata', hlayout, hepoch',
        hterm', hgen', hadmin, hproposal]
    | generation step' | bootstrap step' | checkpoint step' =>
      rw [step.kind, step'.kind] at hkind; cases hkind
  | bootstrap step =>
    cases h' with
    | bootstrap step' =>
      simp [SameEvent, authorityFromRecord, hdigest, hdata', htopology, hlayout, hepoch',
        hterm', hgen', hadmin]
    | generation step' | membership step' | checkpoint step' =>
      rw [step.kind, step'.kind] at hkind; cases hkind
  | checkpoint step =>
    cases h' with
    | checkpoint step' =>
      simp [SameEvent, authorityFromCheckpoint, hdigest, hdata, htopology, hlayout, hepoch,
        hterm, hgen, hadmin]
    | generation step' | membership step' | bootstrap step' =>
      rw [step.kind, step'.kind] at hkind; cases hkind

omit [CollisionFree] in
theorem Succeeds.of_preimage
    (hsame : record.historyPreimage = record'.historyPreimage) (h : Succeeds previous record) :
    Succeeds previous record' := by
  injection hsame with hkind _ _ _ _ _ _ hprev
  unfold Succeeds at h ⊢
  rwa [← hkind, ← hprev]

omit [CollisionFree] in
theorem Collection.of_subset (collection : Collection all)
    (subset : histories ⊆ all) (distinct : (histories.map memberId).Nodup) :
    Collection histories :=
  ⟨fun history h => collection.sound history (subset h), distinct⟩

/-- The authority is an event of the collection that extends `current`. -/
def IsNext (histories : List HistoryScan) (current next : Authority) : Prop :=
  ∃ history ∈ histories, ∃ entry ∈ history.entries, Extends histories current entry.record next

/-- **Two collections agree on the event that extends an authority.** -/
theorem IsNext.agree {histories₁ histories₂ : List HistoryScan} (collection : Collection all)
    (normal : NoAdministrativeRecovery all) (subset₁ : histories₁ ⊆ all)
    (subset₂ : histories₂ ⊆ all) (distinct₁ : (histories₁.map memberId).Nodup)
    (distinct₂ : (histories₂.map memberId).Nodup)
    {current₁ current₂ next₁ next₂ : Authority} (hcurrent : SameEvent current₁ current₂)
    (hnext₁ : IsNext histories₁ current₁ next₁) (hnext₂ : IsNext histories₂ current₂ next₂) :
    SameEvent next₁ next₂ := by
  obtain ⟨history₁, hhistory₁, entry₁, hentry₁, h₁⟩ := hnext₁
  obtain ⟨history₂, hhistory₂, entry₂, hentry₂, h₂⟩ := hnext₂
  have c₁ := collection.of_subset subset₁ distinct₁
  have c₂ := collection.of_subset subset₂ distinct₂
  obtain ⟨hvalid, accepts₁, hquorum₁, hheld₁⟩ :=
    h₁.heldByVoters c₁ (fun h hmem => normal h (subset₁ hmem)) hhistory₁ hentry₁
  obtain ⟨_, accepts₂, hquorum₂, hheld₂⟩ :=
    h₂.heldByVoters c₂ (fun h hmem => normal h (subset₂ hmem)) hhistory₂ hentry₂
  obtain ⟨_, hdigest, _, htopology, _⟩ := hcurrent.fields
  rw [← htopology] at hquorum₂ hheld₂
  -- the two quorums share a voter
  have hmajority : (voterIds current₁.topology).card <
      histories₁.countP accepts₁ + histories₂.countP accepts₂ := by
    have := validate_majority hvalid
    have := card_voterIds_le current₁.topology
    omega
  obtain ⟨a, ha, b, hb, hacc₁, hacc₂, hid⟩ := exists_common_member distinct₁ distinct₂
    (fun a ha hacc => mem_voterIds_of_isVoter (hheld₁ a ha hacc).1)
    (fun b hb hacc => mem_voterIds_of_isVoter (hheld₂ b hb hacc).1) hmajority
  obtain rfl : a = b :=
    inj_on_of_nodup_map collection.distinct (subset₁ ha) (subset₂ hb) hid
  obtain ⟨_, x, hx, hxd⟩ := hheld₁ a ha hacc₁
  obtain ⟨_, y, hy, hyd⟩ := hheld₂ a hb hacc₂
  -- and that voter's journal has one successor only
  have sound := collection.sound a (subset₁ ha)
  have sound₁ := (c₁.sound history₁ hhistory₁).sound entry₁ hentry₁
  have sound₂ := (c₂.sound history₂ hhistory₂).sound entry₂ hentry₂
  have hxp := historyPreimage_eq sound₁ (sound.sound x (mem_of_mem_tail hx)) hxd.symm
  have hyp := historyPreimage_eq sound₂ (sound.sound y (mem_of_mem_tail hy)) hyd.symm
  have hsx := (h₁.succeeds c₁).of_preimage hxp
  have hsy := (h₂.succeeds c₂).of_preimage hyp
  rw [← hdigest] at hsy
  have hsame := successor_unique sound hx hy hsx hsy
  rw [hxd, hyd] at hsame
  exact h₁.sameEvent hcurrent (historyPreimage_eq sound₁ sound₂ hsame) hsame h₂

end

/-! ## The replay -/

variable [Blake3] {histories : List HistoryScan}

omit [Blake3] in
theorem SameEvent.symm (h : SameEvent a b) : SameEvent b a :=
  Eq.symm h

/-- The errors the search can end with: those of the evidence, and a conflict only where an
administrative recovery is in the collection. -/
def SearchError (histories : List HistoryScan) (error : SelectError) : Prop :=
  error ≠ .unfinished ∧ (NoAdministrativeRecovery histories → error ≠ .conflictingAuthority)

variable {current next : Authority} {found : Option Authority} {root : Authority} {fuel : Nat}
  {history : HistoryScan}

section

variable [CollisionFree] (collection : Collection histories)
include collection

theorem IsCandidate.isNext (h : IsCandidate histories current next) :
    IsNext histories current next := by
  obtain ⟨history, hhistory, entry, hentry, h⟩ := h
  exact ⟨history, hhistory, entry, hentry, extends_of_candidate collection hhistory hentry h⟩

/-- **What the search finds extends the authority.** -/
theorem nextAuthority_ensures (current : Authority) : Ensures (nextAuthority histories current)
      (fun found => ∀ next ∈ found, IsNext histories current next) (SearchError histories) := by
  have hsearches := nextAuthority_searches histories current
  refine ⟨fun found h next hnext => (hsearches.1 found h next hnext).isNext collection,
    fun e h => ?_⟩
  obtain ⟨hunfinished, hconflict⟩ := hsearches.2 e h
  refine ⟨hunfinished, fun normal hconflicting => ?_⟩
  obtain ⟨a, b, ha, hb, hne⟩ := hconflict hconflicting
  exact hne (IsNext.agree collection normal (List.Subset.refl _) (List.Subset.refl _)
    collection.distinct collection.distinct (SameEvent.refl current) (ha.isNext collection)
    (hb.isNext collection)).fields.2.1

theorem nextAuthority_isNext
    (h : nextAuthority histories current = .ok (some next)) : IsNext histories current next :=
  (nextAuthority_ensures collection current).1 _ h next rfl

end

/-- The replay is stopped by an error of one of its steps, or by its bound. -/
theorem advanceFrom_ne_conflict [CollisionFree] (collection : Collection histories)
    (normal : NoAdministrativeRecovery histories) (fuel : Nat) (root : Authority) :
    advanceFrom histories fuel root ≠ .error .conflictingAuthority := by
  induction fuel generalizing root with
  | zero => simp [advanceFrom]
  | succ fuel ih =>
    intro h
    rw [advanceFrom, bind_eq_error] at h
    rcases h with h | ⟨next, _, h⟩
    · exact ((nextAuthority_ensures collection root).2 _ h).2 normal rfl
    · cases next with
      | none => cases h
      | some next => exact ih next h

/-- **No fork.**  On accepted histories of different members without administrative recovery the
replay meets no conflict, and of the results of two sub-collections one is reached on the way to
the other. -/
theorem advanceAuthority_no_fork [CollisionFree] {all : List HistoryScan}
    (accepted : ∀ history ∈ all, Accepted history)
    (distinct : (all.map HistoryScan.memberId).Nodup) (normal : NoAdministrativeRecovery all)
    (root : Authority) :
    advanceAuthority all root ≠ .error .conflictingAuthority ∧
      advanceAuthority all root ≠ .error .unfinished ∧
      ∀ histories₁ histories₂ : List HistoryScan, histories₁ ⊆ all → histories₂ ⊆ all →
        (histories₁.map HistoryScan.memberId).Nodup →
        (histories₂.map HistoryScan.memberId).Nodup →
        ∀ result₁ result₂ : Authority, advanceAuthority histories₁ root = .ok result₁ →
          advanceAuthority histories₂ root = .ok result₂ →
          PassesThrough (Advances histories₂) SameEvent root result₂ result₁ ∨
            PassesThrough (Advances histories₁) SameEvent root result₁ result₂ := by
  have collection := Collection.of_accepted accepted distinct
  refine ⟨advanceFrom_ne_conflict collection normal _ _,
    advanceAuthority_finishes collection.sound CollisionFree.acyclic root, ?_⟩
  intro histories₁ histories₂ subset₁ subset₂ distinct₁ distinct₂ result₁ result₂ h₁ h₂
  have c₁ := collection.of_subset subset₁ distinct₁
  have c₂ := collection.of_subset subset₂ distinct₂
  have agree : ∀ a b a' b' : Authority, SameEvent a b → Advances histories₁ a a' →
      Advances histories₂ b b' → SameEvent a' b' := fun _ _ _ _ same step₁ step₂ =>
    IsNext.agree collection normal subset₁ subset₂ distinct₁ distinct₂ same
      (nextAuthority_isNext c₁ step₁) (nextAuthority_isNext c₂ step₂)
  exact passesThrough_of_agree agree (fun _ _ => SameEvent.symm) (advanceFrom_eq_ok h₁).1
    (SameEvent.refl root) (advanceFrom_eq_ok h₂).1

end PoolAuthority

namespace Trio

/-- From the genesis of this pool the replay does not fork; over the members `1` and `2` and over
all three it reaches the commit. -/
theorem replay_no_fork :
    let _ := tableBlake3 table
    let root := PoolAuthority.authorityFromGenesis (genesisOf 1) ⟨topology, layout⟩ 3
    PoolAuthority.advanceAuthority histories root ≠ .error .conflictingAuthority ∧
      (value (PoolAuthority.advanceAuthority histories root)).map (fun a => a.historyDigest) =
        some 11 ∧
      (value (PoolAuthority.advanceAuthority [history 1, history 2] root)).map
        (fun a => a.historyDigest) = some 11 := by
  intro _ root
  have := tableBlake3_collisionFree table table_ordered
  refine ⟨?_, by decide +kernel, by decide +kernel⟩
  refine (PoolAuthority.advanceAuthority_no_fork histories_accepted (by decide) ?_ root).1
  intro h hmem entry hentry hkind
  exfalso
  revert h hmem entry hentry hkind
  decide +kernel

end Trio

end Zettide
