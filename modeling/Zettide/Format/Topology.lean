import Zettide.Format.Digest
import Zettide.Format.Error
import Zettide.Lib.ExchangeSort
import Zettide.Lib.Outcome
import Zettide.Lib.Quorum

/-! # Topologies

Translation of `pool_policy.zig` (the control policy) and of `pool_topology.zig`: which topologies
are valid, how their digest is taken and how members are looked up in them. -/

namespace Zettide

open List

namespace PoolPolicy

/-- How many voters a pool has and how many of them make a quorum. -/
structure ControlPolicy where
  voterCount : Nat
  writeQuorum : Nat
  deriving DecidableEq, Repr

def controlPolicy (poolMemberCount : Nat) : Except Error ControlPolicy := do
  rejectIf (poolMemberCount = 0 ∨ poolMemberCount > maxU16) .invalidPoolMemberCount
  match poolMemberCount with
  | 1 => .ok ⟨1, 1⟩
  | 2 => .ok ⟨2, 2⟩
  | _ => .ok ⟨3, 2⟩

theorem controlPolicy_majority {n : Nat} {policy : ControlPolicy}
    (h : controlPolicy n = .ok policy) :
    policy.voterCount < 2 * policy.writeQuorum ∧ policy.writeQuorum ≤ policy.voterCount := by
  unfold controlPolicy at h
  simp only [bind_eq_ok, rejectIf_eq_ok] at h
  obtain ⟨_, _, h⟩ := h
  split at h <;> cases h <;> decide

end PoolPolicy

namespace PoolTopology

open PoolPolicy

def maxMemberCount : Nat := 96
def nonVoterRole : Nat := 0
def voterRole : Nat := 1

def metadataRole : Nat := 1
def dataRole : Nat := 2

/-- Some flag other than the metadata and the data role is set. -/
def hasUnknownRole (roleFlags : Nat) : Prop := roleFlags >>> 2 ≠ 0

instance (roleFlags : Nat) : Decidable (hasUnknownRole roleFlags) :=
  inferInstanceAs (Decidable (_ ≠ _))

def activeMemberCount (members : List TopologyMember) : Nat :=
  members.countP fun member => member.state ≠ .joining

def countVoters (members : List TopologyMember) : Nat :=
  members.countP fun member => member.controlRole = voterRole

/-- The comparison of a member with the members before it. -/
def rejectDuplicate (member : TopologyMember) : List TopologyMember → Except Error Unit
  | [] => .ok ()
  | previous :: rest => do
      rejectIf (member.memberId = previous.memberId) .duplicateMemberId
      rejectIf (member.slot = previous.slot) .duplicateMemberSlot
      rejectDuplicate member rest

def validateMember (setId : Id) (previous : List TopologyMember) (member : TopologyMember) :
    Except Error Unit := do
  rejectIf (member.memberId = 0 ∨ member.memberId = setId) .invalidMemberId
  rejectDuplicate member previous
  rejectIf (member.controlRole ≠ nonVoterRole ∧ member.controlRole ≠ voterRole) .invalidControlRole
  rejectIf (member.controlRole = voterRole ∧ member.state = .joining) .joiningMemberIsVoter
  rejectIf (member.controlRole = voterRole ∧ member.roleFlags &&& metadataRole = 0)
    .voterHasNoMetadataRole
  rejectIf (hasUnknownRole member.roleFlags ∨ member.roleFlags &&& dataRole = 0) .invalidRoleFlags

/-- The loop over the members; `previous` are the members already seen. -/
def validateMembers (setId : Id) (previous : List TopologyMember) :
    List TopologyMember → Except Error Unit
  | [] => .ok ()
  | member :: rest => do
      validateMember setId previous member
      validateMembers setId (previous ++ [member]) rest

def validate (topology : Topology) : Except Error Unit := do
  rejectIf (topology.setId = 0) .invalidSetId
  rejectIf (topology.epoch = 0) .invalidEpoch
  rejectIf (¬ (topology.epoch = 1 ↔ topology.parentDigest = 0)) .invalidParentDigest
  rejectIf (topology.members.length = 0 ∨ topology.members.length > maxMemberCount)
    .invalidMemberCount
  rejectIf (topology.flags ≠ 0) .invalidTopologyFlags
  let policy ← orElseFail (value (controlPolicy (activeMemberCount topology.members)))
    .invalidActiveMemberCount
  rejectIf (topology.quorum ≠ policy.writeQuorum) .invalidQuorum
  validateMembers topology.setId [] topology.members
  rejectIf (countVoters topology.members ≠ policy.voterCount) .invalidVoterCount

/-! ## Encoding and digest -/

/-- The exchange sort of the members by slot. -/
def sortMembers (members : List TopologyMember) : List TopologyMember :=
  exchangeSort TopologyMember.slot members

/-- The value that a topology is encoded as: members in slot order. -/
def canonical (topology : Topology) : Topology :=
  { topology with members := sortMembers topology.members }

/-- Slots strictly increase along the members. -/
abbrev SlotOrdered (members : List TopologyMember) : Prop := KeyOrdered TopologyMember.slot members

/-- Decoding a framed topology. -/
def decode (topology : Topology) : Except Error Topology := do
  rejectIf (topology.members.length = 0 ∨ topology.members.length > maxMemberCount)
    .invalidMemberCount
  rejectIf (¬ SlotOrdered topology.members) .nonCanonicalMemberOrder
  validate topology
  .ok topology

def encode (topology : Topology) : Except Error Topology := do
  validate topology
  .ok (canonical topology)

def digest [Blake3] (topology : Topology) : Except Error Digest := do
  let bytes ← encode topology
  .ok (blake3 (.topology bytes))

/-! ## Lookup -/

def findMember (topology : Topology) (memberId : Id) : Option TopologyMember :=
  topology.members.find? fun member => member.memberId = memberId

/-- The member is in the topology and votes. -/
def isVoter (topology : Topology) (memberId : Id) : Bool :=
  match findMember topology memberId with
  | none => false
  | some member => member.controlRole = voterRole

def voterCount (topology : Topology) : Nat := countVoters topology.members

/-- The identifiers of the voters. -/
def voterIds (topology : Topology) : Finset Id :=
  acceptedKeys TopologyMember.memberId (fun member => member.controlRole = voterRole)
    topology.members

variable {topology : Topology} {member : TopologyMember} {memberId : Id}
  {members : List TopologyMember} {setId : Id}

theorem isVoter_iff : isVoter topology memberId = true ↔
      ∃ member, findMember topology memberId = some member ∧ member.controlRole = voterRole := by
  unfold isVoter
  cases findMember topology memberId <;> simp

theorem findMember_eq_some (h : findMember topology memberId = some member) :
    member ∈ topology.members ∧ member.memberId = memberId :=
  ⟨mem_of_find?_eq_some h, by simpa using find?_some h⟩

theorem mem_voterIds_of_isVoter
    (h : isVoter topology memberId = true) : memberId ∈ voterIds topology := by
  obtain ⟨member, hfind, hrole⟩ := isVoter_iff.mp h
  obtain ⟨hmem, hid⟩ := findMember_eq_some hfind
  exact mem_acceptedKeys.mpr ⟨member, hmem, by simpa using hrole, hid⟩

theorem card_voterIds_le (topology : Topology) :
    (voterIds topology).card ≤ voterCount topology := by
  unfold voterIds acceptedKeys voterCount countVoters
  rw [countP_eq_length_filter]
  exact (toFinset_card_le _).trans (by simp)

/-- There are no more different voters than the topology counts. -/
theorem length_le_voterCount {memberIds : List Id}
    (distinct : memberIds.Nodup) (voters : ∀ memberId ∈ memberIds, isVoter topology memberId = true) :
    memberIds.length ≤ voterCount topology := by
  rw [← toFinset_card_of_nodup distinct]
  refine (Finset.card_le_card fun memberId hmem => ?_).trans (card_voterIds_le topology)
  exact mem_voterIds_of_isVoter (voters memberId (by simpa using hmem))

/-! ## What validity gives -/

/-- The voters and the quorum are those of the policy for the members that have joined. -/
theorem validate_policy (h : validate topology = .ok ()) :
    controlPolicy (activeMemberCount topology.members) =
      .ok ⟨voterCount topology, topology.quorum⟩ := by
  unfold validate at h
  simp only [ok_iff, value_eq_some, ne_eq, not_not] at h
  obtain ⟨_, _, _, _, _, policy, hpolicy, hquorum, _, hvoters⟩ := h
  rw [hpolicy, voterCount, hvoters, hquorum]

/-- In a valid topology two quorums of voters intersect, and there are enough voters for one. -/
theorem validate_majority (h : validate topology = .ok ()) :
    voterCount topology < 2 * topology.quorum ∧ topology.quorum ≤ voterCount topology :=
  controlPolicy_majority (validate_policy h)

theorem canonical_of_slotOrdered (h : SlotOrdered topology.members) :
    canonical topology = topology := by
  unfold canonical sortMembers
  rw [h.exchangeSort_eq]

/-- Neither the identifier nor the slot of a member is that of the other. -/
def Apart (other member : TopologyMember) : Prop :=
  other.memberId ≠ member.memberId ∧ other.slot ≠ member.slot

theorem rejectDuplicate_eq_ok {previous : List TopologyMember}
    (h : rejectDuplicate member previous = .ok ()) : ∀ other ∈ previous, Apart other member := by
  induction previous with
  | nil => simp
  | cons first rest ih =>
    simp only [rejectDuplicate, ok_iff] at h
    obtain ⟨hid, hslot, hrest⟩ := h
    intro other hother
    rcases mem_cons.mp hother with rfl | hother
    · exact ⟨fun heq => hid heq.symm, fun heq => hslot heq.symm⟩
    · exact ih hrest other hother

/-- The members that pass the loop are apart, also from those already seen. -/
theorem validateMembers_apart :
    ∀ {previous : List TopologyMember}, validateMembers setId previous members = .ok () →
      members.Pairwise Apart ∧ ∀ member ∈ members, ∀ other ∈ previous, Apart other member := by
  induction members with
  | nil => simp
  | cons member rest ih =>
    intro previous h
    simp only [validateMembers, validateMember, ok_iff] at h
    obtain ⟨⟨_, hduplicate, _⟩, hrest⟩ := h
    obtain ⟨hapart, hfresh⟩ := ih hrest
    constructor
    · rw [pairwise_cons]
      exact ⟨fun other hother => hfresh other hother member (by simp), hapart⟩
    · intro found hfound other hother
      rcases mem_cons.mp hfound with rfl | hfound
      · exact rejectDuplicate_eq_ok hduplicate other hother
      · exact hfresh found hfound other (mem_append_left _ hother)

theorem validateMembers_checked :
    ∀ {previous : List TopologyMember}, validateMembers setId previous members = .ok () →
      ∀ member ∈ members, ∃ earlier, validateMember setId earlier member = .ok () := by
  induction members with
  | nil => simp
  | cons first rest ih =>
    intro previous h member hmember
    simp only [validateMembers, ok_iff] at h
    rcases mem_cons.mp hmember with rfl | hlater
    · exact ⟨previous, h.1⟩
    · exact ih h.2 member hlater

section

variable (h : validate topology = .ok ())
include h

theorem validate_members : validateMembers topology.setId [] topology.members = .ok () := by
  unfold validate at h
  simp only [ok_iff] at h
  obtain ⟨_, _, _, _, _, _, _, _, hmembers, _⟩ := h
  exact hmembers

theorem validate_nodup : (topology.members.map TopologyMember.memberId).Nodup := by
  have hapart := (validateMembers_apart (validate_members h)).1
  exact pairwise_map.mpr (hapart.imp And.left)

theorem validate_slots_nodup : (topology.members.map TopologyMember.slot).Nodup := by
  have hapart := (validateMembers_apart (validate_members h)).1
  exact pairwise_map.mpr (hapart.imp And.right)

theorem validate_voter (hmember : member ∈ topology.members)
    (hvoter : member.controlRole = voterRole) : member.state ≠ .joining := by
  obtain ⟨_, hchecked⟩ := validateMembers_checked (validate_members h) member hmember
  simp only [validateMember, ok_iff] at hchecked
  obtain ⟨_, _, _, hjoining, _⟩ := hchecked
  exact fun hstate => hjoining ⟨hvoter, hstate⟩

/-- A member is found by its identifier in any order of the members. -/
theorem findMember_eq_some_iff : findMember topology memberId = some member ↔
      member ∈ topology.members ∧ member.memberId = memberId := by
  constructor
  · exact findMember_eq_some
  · rintro ⟨hmem, hid⟩
    unfold findMember
    cases hfind : topology.members.find? (fun other => other.memberId = memberId) with
    | none =>
      rw [find?_eq_none] at hfind
      exact absurd hid (by simpa using hfind member hmem)
    | some found =>
      have hfound : found.memberId = memberId := by simpa using find?_some hfind
      have hsame := inj_on_of_nodup_map (validate_nodup h)
        (mem_of_find?_eq_some hfind) hmem (hfound.trans hid.symm)
      rw [hsame]

theorem findMember_canonical
    (hcanonical : validate (canonical topology) = .ok ())
    (hfind : findMember topology memberId = some member) :
    findMember (canonical topology) memberId = some member := by
  rw [findMember_eq_some_iff hcanonical]
  obtain ⟨hmem, hid⟩ := (findMember_eq_some_iff h).mp hfind
  exact ⟨(exchangeSort_perm topology.members).mem_iff.mpr hmem, hid⟩

end

end PoolTopology

end Zettide
