import Zettide.Format.Certificate

/-! # Chains of topologies

The topologies of a pool form a chain: each one is accepted by `validateTransition` after the one
before. `validateTransition` compares two topologies only. Here are the laws that follow for the
whole life of a member, by induction along the chain: `Follows.spec` says what one step does, and
`slot_along` and `active_along` carry a slot and an active state over the steps between two
topologies. -/

namespace Zettide.Membership

open PoolTopology List Option

/-! ## One step -/

/-- The next topology is accepted after the current one, in normal mode. -/
def Follows [Blake3] (current next : Topology) : Prop :=
  validateTransition current ⟨.normal, next⟩ = .ok ()

/-- What a change in normal mode does to the members. -/
structure Change (current next : Topology) : Prop where
  retained : ∀ old ∈ current.members, ∀ new, findMember next old.memberId = some new →
    new.slot = old.slot ∧ validStateTransition old.state new.state = true
  removed : ∀ old ∈ current.members, findMember next old.memberId = none → old.state ≠ .active
  added : ∀ new ∈ next.members, findMember current new.memberId = none →
    new.state = .joining ∧ new.controlRole = nonVoterRole

variable {members : List TopologyMember} {position : Nat}

theorem validateRetainedMembers_eq_ok {next : Topology} :
    ∀ {changed : Bool}, validateRetainedMembers .normal next members = .ok changed →
      ∀ old ∈ members, ∃ differs, validateRetained .normal next old = .ok differs := by
  induction members with
  | nil => simp
  | cons first rest ih =>
    intro changed h old hold
    simp only [validateRetainedMembers, bind_eq_ok] at h
    obtain ⟨differs, hfirst, others, hrest, -⟩ := h
    rcases mem_cons.mp hold with rfl | hlater
    · exact ⟨differs, hfirst⟩
    · exact ih hrest old hlater

theorem validateAddedMembers_eq_ok {current : Topology} :
    ∀ {added : Bool}, validateAddedMembers current members = .ok added →
      ∀ new ∈ members, findMember current new.memberId = none →
        new.state = .joining ∧ new.controlRole = nonVoterRole := by
  induction members with
  | nil => simp
  | cons first rest ih =>
    intro added h new hnew hfresh
    unfold validateAddedMembers at h
    split at h
    case isTrue hfound =>
      rcases mem_cons.mp hnew with rfl | hlater
      · simp [hfresh] at hfound
      · exact ih h new hlater hfresh
    simp only [ok_iff, not_or, ne_eq, not_not] at h
    obtain ⟨hjoins, others, hrest, -⟩ := h
    rcases mem_cons.mp hnew with rfl | hlater
    · exact hjoins
    · exact ih hrest new hlater hfresh

section

variable [Blake3] {current next : Topology}

section

variable (h : Follows current next)
include h

theorem Follows.valid : validate current = .ok () ∧ validate next = .ok () := by
  simp only [Follows, validateTransition, ok_iff] at h
  exact ⟨h.1, h.2.1⟩

theorem Follows.linked :
    next.epoch = current.epoch + 1 ∧ digest current = .ok next.parentDigest := by
  simp only [Follows, validateTransition, ok_iff, not_or, ne_eq, not_not] at h
  obtain ⟨-, -, -, ⟨-, hepoch⟩, parent, hdigest, hparent, -⟩ := h
  exact ⟨hepoch, by rw [hparent]; exact hdigest⟩

theorem Follows.change : Change current next := by
  simp only [Follows, validateTransition, ok_iff] at h
  obtain ⟨-, -, -, -, parent, -, -, changed, hretained, added, hadded, -⟩ := h
  refine ⟨fun old hold new hnew => ?_, fun old hold hgone hactive => ?_,
    validateAddedMembers_eq_ok hadded⟩
  · obtain ⟨differs, hchecked⟩ := validateRetainedMembers_eq_ok hretained old hold
    simp only [validateRetained, hnew, ok_iff, ne_eq, not_not] at hchecked
    exact ⟨hchecked.1, hchecked.2.1⟩
  · obtain ⟨differs, hchecked⟩ := validateRetainedMembers_eq_ok hretained old hold
    simp only [validateRetained, hgone, ok_iff, true_and] at hchecked
    exact hchecked.1 hactive

end

end

/-! ## Along a chain -/

/-- The member that the topology at a position has under an identifier. -/
def memberAt (topologies : List Topology) (position : Nat) (memberId : Id) :
    Option TopologyMember :=
  topologies[position]?.bind fun topology => findMember topology memberId

theorem memberAt_eq_some {topologies : List Topology} {memberId : Id} {member : TopologyMember} :
    memberAt topologies position memberId = some member ↔
      ∃ topology, topologies[position]? = some topology ∧
        findMember topology memberId = some member := by
  simp [memberAt, bind_eq_some_iff]

/-- The laws of a chain of topologies, from the first one on. -/
structure ChainLaws [Blake3] (topologies : List Topology) : Prop where
  /-- Between two positions at which a member is present throughout, it keeps its slot. -/
  slot : ∀ memberId first last old new, first ≤ last →
    (∀ position, first ≤ position → position ≤ last →
      (memberAt topologies position memberId).isSome) →
    memberAt topologies first memberId = some old →
    memberAt topologies last memberId = some new → new.slot = old.slot
  /-- The members of a topology have different identifiers and different slots. -/
  distinct : ∀ topology ∈ topologies, (topology.members.map TopologyMember.memberId).Nodup ∧
    (topology.members.map TopologyMember.slot).Nodup
  /-- A member that was active and is gone was draining in between. -/
  drained : ∀ memberId first last old topology, first < last →
    memberAt topologies first memberId = some old → old.state = .active →
    topologies[last]? = some topology → findMember topology memberId = none →
    ∃ position member, first < position ∧ position < last ∧
      memberAt topologies position memberId = some member ∧ member.state = .draining
  /-- A member that is not in the first topology, or was gone, comes in as a joining non-voter. -/
  joined : ∀ memberId position topology member, topologies[position]? = some topology →
    findMember topology memberId = none → memberAt topologies (position + 1) memberId = some member →
    member.state = .joining ∧ member.controlRole = nonVoterRole
  voter : ∀ topology ∈ topologies, ∀ member ∈ topology.members,
    member.controlRole = voterRole → member.state ≠ .joining
  /-- Voters and quorum are those of the policy, and the quorum is a majority. -/
  policy : ∀ topology ∈ topologies,
    PoolPolicy.controlPolicy (activeMemberCount topology.members) =
      .ok ⟨voterCount topology, topology.quorum⟩ ∧
    voterCount topology < 2 * topology.quorum ∧ topology.quorum ≤ voterCount topology
  linked : ∀ position current next, topologies[position]? = some current →
    topologies[position + 1]? = some next →
    next.epoch = current.epoch + 1 ∧ digest current = .ok next.parentDigest

section

variable [Blake3] {topologies : List Topology}

theorem follows_at (hchain : topologies.IsChain Follows) {current next : Topology}
    (hcurrent : topologies[position]? = some current)
    (hnext : topologies[position + 1]? = some next) : Follows current next := by
  obtain ⟨hlt, rfl⟩ := List.getElem?_eq_some_iff.mp hcurrent
  obtain ⟨hlt', rfl⟩ := List.getElem?_eq_some_iff.mp hnext
  exact List.isChain_iff_getElem.mp hchain position hlt'

variable {memberId : Id} {old : TopologyMember}

theorem retained_at (hchain : topologies.IsChain Follows)
    {new : TopologyMember} (hold : memberAt topologies position memberId = some old)
    (hnew : memberAt topologies (position + 1) memberId = some new) :
    new.slot = old.slot ∧ validStateTransition old.state new.state = true := by
  obtain ⟨current, hcurrent, hfound⟩ := memberAt_eq_some.mp hold
  obtain ⟨next, hnext, hfoundNext⟩ := memberAt_eq_some.mp hnew
  obtain ⟨hmem, rfl⟩ := findMember_eq_some hfound
  exact (follows_at hchain hcurrent hnext).change.retained old hmem new hfoundNext

section

variable (hchain : topologies.IsChain Follows) {first : Nat}
  (hold : memberAt topologies first memberId = some old)
include hchain hold

/-- A slot is kept as long as the member is there. The induction is on the last position. -/
theorem slot_along :
    ∀ {last : Nat}, first ≤ last → (∀ position, first ≤ position → position ≤ last →
        (memberAt topologies position memberId).isSome) →
      ∀ {new}, memberAt topologies last memberId = some new → new.slot = old.slot := by
  intro last hle
  induction last, hle using Nat.le_induction with
  | base =>
    intro _ new hnew
    rw [hold, some.injEq] at hnew
    rw [hnew]
  | succ last hle ih =>
    intro hpresent new hnew
    obtain ⟨before, hbefore⟩ := isSome_iff_exists.mp (hpresent last hle (by omega))
    have hslot : before.slot = old.slot :=
      ih (fun position hfrom hto => hpresent position hfrom (by omega)) hbefore
    rw [(retained_at hchain hbefore hnew).1, hslot]

/-- An active member stays active or is draining at some later position. The induction is on the
last position. -/
theorem active_along (hactive : old.state = .active) :
    ∀ {last : Nat}, first ≤ last → last < topologies.length →
      (∃ position member, first < position ∧ position ≤ last ∧
        memberAt topologies position memberId = some member ∧ member.state = .draining) ∨
      ∃ member, memberAt topologies last memberId = some member ∧ member.state = .active := by
  intro last hle
  induction last, hle using Nat.le_induction with
  | base => exact fun _ => .inr ⟨old, hold, hactive⟩
  | succ last hle ih =>
    intro hlength
    rcases ih (by omega) with ⟨position, member, hfrom, hto, hdraining⟩ | ⟨before, hbefore, hstate⟩
    · exact .inl ⟨position, member, hfrom, by omega, hdraining⟩
    obtain ⟨current, hcurrent, hfound⟩ := memberAt_eq_some.mp hbefore
    have hnext : topologies[last + 1]? = some topologies[last + 1] := getElem?_eq_getElem hlength
    obtain ⟨hmem, hid⟩ := findMember_eq_some hfound
    rcases hnew : findMember topologies[last + 1] memberId with _ | new
    · -- an active member cannot be removed
      have hremoved := (follows_at hchain hcurrent hnext).change.removed before hmem
      exact absurd hstate (hremoved (hid ▸ hnew))
    have hmember : memberAt topologies (last + 1) memberId = some new :=
      memberAt_eq_some.mpr ⟨_, hnext, hnew⟩
    have hvalid := (retained_at hchain hbefore hmember).2
    rw [hstate] at hvalid
    simp only [validStateTransition, decide_eq_true_eq] at hvalid
    rcases hvalid with hstays | hdrains
    · exact .inr ⟨new, hmember, hstays⟩
    · exact .inl ⟨last + 1, new, by omega, le_rfl, hmember, hdrains⟩

end

theorem valid_of_chain {genesis : Topology} {later : List Topology}
    (hgenesis : validate genesis = .ok ()) (hchain : (genesis :: later).IsChain Follows) :
    ∀ topology ∈ genesis :: later, validate topology = .ok () := by
  intro topology hmem
  obtain ⟨position, hlt, rfl⟩ := mem_iff_getElem.mp hmem
  cases position with
  | zero => exact hgenesis
  | succ position =>
    exact (isChain_iff_getElem.mp hchain position hlt).valid.2

/-- The laws hold in every chain of topologies that starts at a valid one. -/
theorem chain_laws {genesis : Topology} {later : List Topology}
    (hgenesis : PoolTopology.validate genesis = .ok ())
    (hchain : (genesis :: later).IsChain Follows) : ChainLaws (genesis :: later) where
  slot memberId first last old new hle hpresent hold hnew :=
    slot_along hchain hold hle hpresent hnew
  distinct topology hmem := ⟨validate_nodup (valid_of_chain hgenesis hchain topology hmem),
      validate_slots_nodup (valid_of_chain hgenesis hchain topology hmem)⟩
  drained memberId first last old topology hlt hold hactive hlast hgone := by
    have hlength : last < (genesis :: later).length := (List.getElem?_eq_some_iff.mp hlast).1
    have habsent : memberAt (genesis :: later) last memberId = none := by
      rw [memberAt, hlast]
      exact hgone
    rcases active_along hchain hold hactive hlt.le hlength with
      ⟨position, member, hfrom, hto, hmember, hdraining⟩ | ⟨member, hmember, -⟩
    · refine ⟨position, member, hfrom, lt_of_le_of_ne hto ?_, hmember, hdraining⟩
      rintro rfl
      rw [habsent] at hmember
      cases hmember
    · rw [habsent] at hmember
      cases hmember
  joined memberId position topology member htopology habsent hmember := by
    obtain ⟨next, hnext, hfound⟩ := memberAt_eq_some.mp hmember
    obtain ⟨hmem, rfl⟩ := findMember_eq_some hfound
    exact (follows_at hchain htopology hnext).change.added member hmem habsent
  voter topology hmem member hmember hvoter :=
    validate_voter (valid_of_chain hgenesis hchain topology hmem) hmember hvoter
  policy topology hmem := ⟨validate_policy (valid_of_chain hgenesis hchain topology hmem),
      validate_majority (valid_of_chain hgenesis hchain topology hmem)⟩
  linked position current next hcurrent hnext := (follows_at hchain hcurrent hnext).linked

end

theorem chain_laws_joining :
    let _ : Blake3 := ⟨fun _ => 7⟩
    let voter (memberId : Id) : TopologyMember := ⟨memberId, memberId, voterRole, .active, 3⟩
    let genesis : Topology := ⟨9, 1, 0, 2, [voter 1, voter 2, voter 3], 0⟩
    let next : Topology :=
      ⟨9, 2, 7, 2, [voter 1, voter 2, voter 3, ⟨4, 4, nonVoterRole, .joining, 2⟩], 0⟩
    validate genesis = .ok () ∧ ChainLaws [genesis, next] := by
  intro _ voter genesis next
  have hvalid : validate genesis = .ok () := by decide
  have hfollows : Follows genesis next := by
    show validateTransition genesis ⟨.normal, next⟩ = .ok ()
    decide
  exact ⟨hvalid, chain_laws hvalid (isChain_cons_cons.mpr ⟨hfollows, by simp⟩)⟩

end Zettide.Membership
