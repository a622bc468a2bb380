import Zettide.Catalog.Staging
import Zettide.Pool.Held

/-! # Volumes as byte arrays

Under a lease the volumes of a catalog behave as byte arrays that are independent of each other.
The physical side is a memory of cells, one store for each slot (`cells`); the catalog translates
the bytes of the volumes to replicated cells of it, and no cell backs two bytes. A transfer is cut
into spans; every span is written to all replicas, so a whole write is a `Replicas.Stores` of the
bytes it covers, and a read returns what `Replicas.load` finds. -/

namespace Zettide

open List Replicas Option Except Bytes Prod Sample Function PoolCatalogGraph

variable {memberId : Id} {supplied : Supplied}

namespace PoolCatalogVolume

open PoolCatalog PoolCatalogStore PoolMemberSet DataPlane

/-! ## Cells -/

/-- The byte of a cell in the data region of the member with a slot. -/
def cells (set : PoolMemberSet) (plane : DataPlane) (slot cell : Nat) : UInt8 :=
  match dataMember set slot with
  | .error _ => 0
  | .ok supplied => ((plane.data supplied.id)[cell]?).getD 0

/-- The data regions are byte arrays of the length that the headers give. -/
def Sized (set : PoolMemberSet) (plane : DataPlane) : Prop :=
  ∀ memberId supplied, findSuppliedMember set.supplied memberId = some supplied →
    (plane.data memberId).length = supplied.member.header.data.length

/-- The plane after the same bytes were written at one offset for each slot. -/
def putReplicas (set : PoolMemberSet) (offset : Nat) (bytes : List UInt8) :
    DataPlane → List Nat → DataPlane
  | plane, [] => plane
  | plane, slot :: rest =>
    match dataMember set slot with
    | .error _ => putReplicas set offset bytes plane rest
    | .ok supplied => putReplicas set offset bytes (plane.putData supplied.id offset bytes) rest

/-- The slot has a member, and the piece is inside its data region. -/
def Inside (set : PoolMemberSet) (plane : DataPlane) (offset length slot : Nat) : Prop :=
  ∃ supplied, dataMember set slot = .ok supplied ∧ offset + length ≤ (plane.data supplied.id).length

variable {length : Nat}

section

variable {set : PoolMemberSet} {plane : DataPlane} {offset : Nat} {bytes : List UInt8} {slot : Nat}

section

variable (h : offset + bytes.length ≤ (plane.data memberId).length)
include h

theorem length_putData (other : Id) :
    ((plane.putData memberId offset bytes).data other).length = (plane.data other).length := by
  by_cases hsame : other = memberId
  · subst hsame
    simp only [putData, update_self]
    exact patch_length h
  · simp only [putData, update_of_ne hsame]

theorem Inside.putData {at' : Nat} (hinside : Inside set plane at' length slot) :
    Inside set (plane.putData memberId offset bytes) at' length slot := by
  obtain ⟨supplied, hmember, hle⟩ := hinside
  exact ⟨supplied, hmember, by rw [length_putData h]; exact hle⟩

end

/-- Writing the piece for one slot changes the cells of this slot that it covers. -/
theorem cells_putData (hmember : dataMember set slot = .ok supplied)
    (h : offset + bytes.length ≤ (plane.data supplied.id).length) (other cell : Nat) :
    cells set (plane.putData supplied.id offset bytes) other cell =
      if other = slot ∧ offset ≤ cell ∧ cell < offset + bytes.length then
        (bytes[cell - offset]?).getD 0
      else cells set plane other cell := by
  unfold cells
  cases hother : dataMember set other with
  | error e =>
    have hne : ¬ (other = slot ∧ offset ≤ cell ∧ cell < offset + bytes.length) := by
      rintro ⟨rfl, -⟩
      rw [hmember] at hother
      cases hother
    rw [if_neg hne]
  | ok otherSupplied =>
    by_cases hsame : other = slot
    · subst hsame
      rw [hmember, ok.injEq] at hother
      subst hother
      simp only [putData, update_self, true_and]
      rw [getElem?_patch h]
      split <;> rfl
    · -- another slot is another member
      have hid : otherSupplied.id ≠ supplied.id :=
        fun hid => hsame (dataMember_slot hother hmember hid)
      rw [if_neg (fun h => hsame h.1)]
      simp only [putData, update_of_ne hid]

variable {slots : List Nat}

/-- Writing the piece for several slots changes the cells of these slots that it covers. -/
theorem cells_putReplicas :
    ∀ {plane : DataPlane}, (∀ slot ∈ slots, Inside set plane offset bytes.length slot) →
      ∀ other cell, cells set (putReplicas set offset bytes plane slots) other cell =
        if other ∈ slots ∧ offset ≤ cell ∧ cell < offset + bytes.length then
          (bytes[cell - offset]?).getD 0
        else cells set plane other cell := by
  induction slots with
  | nil =>
    intro plane _ other cell
    simp [putReplicas]
  | cons slot rest ih =>
    intro plane hinside other cell
    obtain ⟨supplied, hmember, hle⟩ := hinside slot mem_cons_self
    have hrest : ∀ slot ∈ rest,
        Inside set (plane.putData supplied.id offset bytes) offset bytes.length slot :=
      fun slot hmem => (hinside slot (mem_cons_of_mem _ hmem)).putData hle
    simp only [putReplicas, hmember]
    rw [ih hrest, cells_putData hmember hle, ← ite_or]
    simp only [mem_cons, ← or_and_right, or_comm]

theorem length_putReplicas :
    ∀ {plane : DataPlane}, (∀ slot ∈ slots, Inside set plane offset bytes.length slot) →
      ∀ memberId, ((putReplicas set offset bytes plane slots).data memberId).length =
        (plane.data memberId).length := by
  induction slots with
  | nil => exact fun _ _ => rfl
  | cons slot rest ih =>
    intro plane hinside memberId
    obtain ⟨supplied, hmember, hle⟩ := hinside slot mem_cons_self
    simp only [putReplicas, hmember]
    rw [ih (fun slot hmem => (hinside slot (mem_cons_of_mem _ hmem)).putData hle),
      length_putData hle]

theorem putReplicas_eq : ∀ {plane : DataPlane}, putReplicas set offset bytes plane slots =
      { plane with data := (putReplicas set offset bytes plane slots).data } := by
  induction slots with
  | nil => exact rfl
  | cons slot rest ih =>
    intro plane
    unfold putReplicas
    split
    · exact ih
    · rw [ih]
      rfl

end

theorem locate_of_init {catalog : ValidatedCatalog} {volumeId : Id} {map : VolumeMap}
    (hinit : VolumeMap.init catalog volumeId = .ok map) {offset : Nat} :
    catalog.locate (volumeId, offset) = map.locate offset := by
  simp only [ValidatedCatalog.locate, hinit]

/-- The bytes of a write, by the address they are written to. -/
def writtenAt (volumeId : Id) (offset : Nat) (bytes : List UInt8) (address : Id × Nat) :
    Option UInt8 :=
  if address.1 = volumeId ∧ offset ≤ address.2 then bytes[address.2 - offset]? else none

theorem writtenAt_append {volumeId : Id} {offset : Nat} {bytes : List UInt8}
    (h : length ≤ bytes.length) :
    (fun address => (writtenAt volumeId (offset + length) (bytes.drop length) address).or
      (writtenAt volumeId offset (bytes.take length) address)) =
      writtenAt volumeId offset bytes := by
  funext address
  unfold writtenAt
  by_cases hvolume : address.1 = volumeId
  · by_cases hsecond : offset + length ≤ address.2
    · -- behind the first piece
      have hend : (bytes.take length).length ≤ address.2 - offset := by
        rw [length_take]
        omega
      rw [if_pos ⟨hvolume, hsecond⟩, if_pos ⟨hvolume, by omega⟩, if_pos ⟨hvolume, by omega⟩,
        getElem?_drop, getElem?_eq_none hend, or_none]
      congr 1
      omega
    · rw [if_neg (fun h => hsecond h.2), none_or]
      by_cases hfirst : offset ≤ address.2
      · rw [if_pos ⟨hvolume, hfirst⟩, if_pos ⟨hvolume, hfirst⟩, getElem?_take_of_lt (by omega)]
      · rw [if_neg (fun h => hfirst h.2), if_neg (fun h => hfirst h.2)]
  · rw [if_neg (fun h => hvolume h.1), if_neg (fun h => hvolume h.1),
      if_neg (fun h => hvolume h.1), none_or]

/-! ## Reads -/

/-- The byte of a volume: zero where nothing is mapped. -/
def content (set : PoolMemberSet) (plane : DataPlane) (catalog : ValidatedCatalog)
    (address : Id × Nat) : UInt8 :=
  (load catalog.locate (cells set plane) address).getD 0

/-- The bytes of a span are the reply of one of its members. -/
theorem readReplicas_mem {replies : List (Except DataError (List UInt8))} {bytes : List UInt8}
    (h : CatalogVolumeBackend.readReplicas replies = .ok bytes) : .ok bytes ∈ replies := by
  by_cases hlength : replies.length = 3
  · have := (CatalogVolumeBackend.readReplicas_eq_ok hlength).mp h
    exact count_pos_iff.mp (by omega)
  unfold CatalogVolumeBackend.readReplicas at h
  split at h
  · exact h ▸ mem_cons_self
  · exact absurd rfl hlength
  · simp at h

/-- The write is inside a ready volume, and all of it is mapped. -/
def Writable (catalog : ValidatedCatalog) (volumeId : Id) (offset length : Nat) : Prop :=
  ∃ map, VolumeMap.init catalog volumeId = .ok map ∧ offset + length ≤ map.logicalSize ∧
    ∀ i < length, (catalog.locate (volumeId, offset + i)).isSome

/-! ## A lease in use -/

variable [Codec]

/-- A lease as it was acquired: its catalog, its claims and the members it can write to. Reads and
writes keep this. -/
structure Granted (graph : Graph) (geometry : List MemberGeometry) (state : LeasedSet) : Prop where
  accepted : PoolCatalogGraph.Accepted (bindingOf state.set.authority) graph geometry []
    state.lease.catalog
  geometry_eq : catalogGeometry state.set = .ok geometry
  sized : Sized state.set state.plane
  held : ClaimsHeld state.plane state.lease.claims
  member : ∀ claim ∈ state.lease.claims, ∃ supplied,
    dataMemberForWrite state.set claim.slot = .ok supplied ∧ supplied.id = claim.memberId
  slots : ∀ slot ∈ mappedSlots state.lease.catalog, ∃ claim ∈ state.lease.claims, claim.slot = slot
  valid : state.lease.validate state.set = .ok ()

namespace Granted

variable {graph : Graph} {geometry : List MemberGeometry} {state : LeasedSet}

theorem withData (h : Granted graph geometry state) {data : Id → List UInt8}
    (hlength : ∀ memberId, (data memberId).length = (state.plane.data memberId).length) :
    Granted graph geometry { state with plane := { state.plane with data := data } } where
  accepted := h.accepted
  geometry_eq := h.geometry_eq
  sized := fun memberId supplied hfind => (hlength memberId).trans (h.sized memberId supplied hfind)
  held := h.held
  member := h.member
  slots := h.slots
  valid := h.valid

/-- The state after bytes were stored at an offset of a volume: only the data regions changed. -/
structure Stored (graph : Graph) (geometry : List MemberGeometry) (volumeId : Id) (offset : Nat)
    (bytes : List UInt8) (state after : LeasedSet) : Prop where
  same : ∃ data, after = { state with plane := { state.plane with data := data } }
  granted : Granted graph geometry after
  stores : Stores state.lease.catalog.locate (writtenAt volumeId offset bytes)
    (cells state.set state.plane) (cells state.set after.plane)

variable {map : VolumeMap} {slot offset : Nat} {bytes : List UInt8} {span : MappedSpan}
  {slots : List Nat} {volumeId : Id} {unreadable : Nat → Id → Bool} {backend : CatalogVolumeBackend}
  {position : Nat}

section

variable (h : Granted graph geometry state)
include h

/-- The claim on the member of a slot, as the lookup of the lease finds it. -/
theorem claim (hslot : slot ∈ mappedSlots state.lease.catalog) :
    ∃ claim supplied, state.lease.claimForSlot slot = .ok claim ∧
      dataMemberForWrite state.set slot = .ok supplied ∧ supplied.id = claim.memberId ∧
      claim.claimId ≠ 0 ∧ (state.plane.claims supplied.id).current = claim.claimId := by
  obtain ⟨wanted, hwanted, hwantedSlot⟩ := h.slots slot hslot
  rcases hfind : state.lease.claims.find? fun claim => claim.slot = slot with _ | claim
  · have := find?_eq_none.mp hfind wanted hwanted
    simp [hwantedSlot] at this
  have hmem := mem_of_find?_eq_some hfind
  have hclaimSlot : claim.slot = slot := by simpa using find?_some hfind
  obtain ⟨supplied, hmember, hid⟩ := h.member claim hmem
  obtain ⟨hne, hcurrent⟩ := h.held claim hmem
  refine ⟨claim, supplied, by rw [CatalogDataLease.claimForSlot, hfind]; rfl,
    hclaimSlot ▸ hmember, hid, hne, hid ▸ hcurrent⟩

/-- A byte that lies somewhere lies inside the data regions of all its members. -/
theorem located {address : Id × Nat} {memberSlots : List Nat}
    {cell : Nat} (hlocate : state.lease.catalog.locate address = some (memberSlots, cell))
    (hslot : slot ∈ memberSlots) :
    slot ∈ mappedSlots state.lease.catalog ∧ Inside state.set state.plane cell 1 slot := by
  obtain ⟨run, hmaps, rfl, hcell⟩ := h.accepted.locate_eq_some hlocate
  have hmapped : slot ∈ mappedSlots state.lease.catalog := by
    refine mem_flatMap.mpr ⟨(address.1, run), ?_, hslot⟩
    exact mem_filter.mpr ⟨hmaps.1, by simpa using hmaps.2.1⟩
  refine ⟨hmapped, ?_⟩
  obtain ⟨claim, supplied, -, hwrite, -⟩ := h.claim hmapped
  obtain ⟨-, hmember, -, -⟩ := dataMemberForWrite_eq_ok.mp hwrite
  refine ⟨supplied, hmember, ?_⟩
  rw [h.sized _ _ (dataMember_find hmember)]
  -- the region of the placement is the region of the member
  obtain ⟨placed, hplaced, hplacedSlot, hend⟩ :=
    ((h.accepted.run_placed hmaps.1).placed slot hslot).region
  obtain ⟨entry, hentry, rfl⟩ := mem_map.mp hplaced
  have hsame := inj_on_of_nodup_map h.accepted.slots_nodup hentry
    (mem_catalogGeometry h.geometry_eq hmember) hplacedSlot
  rw [hsame] at hend
  obtain ⟨-, hstart, hbefore⟩ := hmaps.2
  have hmod := Nat.mod_lt address.2 h.accepted.extentSize_pos
  have hextent : run.physicalStart + address.2 / state.lease.catalog.root.extentSize -
      run.logicalStart + 1 ≤ run.physicalStart + run.extentCount := by omega
  have hmul := Nat.mul_le_mul_right state.lease.catalog.root.extentSize hextent
  rw [Nat.add_mul, Nat.one_mul] at hmul
  dsimp only at hend
  omega

/-- The piece of a span is inside the data regions of its members. -/
theorem inside_span (hinit : VolumeMap.init state.lease.catalog volumeId = .ok map)
    (hspan : map.Describes position (.mapped span)) (hpos : 0 < span.length)
    (hslot : slot ∈ span.memberSlots) :
    slot ∈ mappedSlots state.lease.catalog ∧
      Inside state.set state.plane span.physicalOffset span.length slot := by
  have hlast : state.lease.catalog.locate (volumeId, position + (span.length - 1)) =
      some (span.memberSlots, span.physicalOffset + (span.length - 1)) :=
    (locate_of_init hinit).trans (hspan (span.length - 1) (by omega))
  obtain ⟨hmapped, supplied, hmember, hle⟩ := h.located hlast hslot
  exact ⟨hmapped, supplied, hmember, by omega⟩

theorem writeReplica (hslot : slot ∈ mappedSlots state.lease.catalog)
    (hinside : Inside state.set state.plane span.physicalOffset bytes.length slot) :
    state.writeReplica span bytes (fun _ => .done) slot =
      ({ state with plane :=
          putReplicas state.set span.physicalOffset bytes state.plane [slot] }, .ok ()) := by
  obtain ⟨claim, supplied, hclaim, hwrite, hid, hne, hcurrent⟩ := h.claim hslot
  obtain ⟨-, hmember, hmode, hfrozen⟩ := dataMemberForWrite_eq_ok.mp hwrite
  obtain ⟨same, hsame, hle⟩ := hinside
  rw [hmember, ok.injEq] at hsame
  subst hsame
  have hfind := dataMember_find hmember
  rw [h.sized _ _ hfind] at hle
  have hcheck : state.plane.checkWrite supplied.member claim.claimId span.physicalOffset
      bytes.length = .ok () := by
    simp only [DataPlane.checkWrite, validateDataClaim, DataPlane.position, ok_iff]
    refine ⟨?_, by simp [hmode], by simp [hfrozen], by omega⟩
    rintro (hzero | hother)
    · exact hne hzero
    · exact hother hcurrent
  simp only [LeasedSet.writeReplica, hclaim, LeasedSet.access, PoolMemberSet.access, ← hid, hfind,
    writeDataClaimed,
    hcheck, afterStorage, putReplicas, hmember]
  rfl

/-- The plane after a piece was written for some slots. -/
theorem putReplicas
    (hinside : ∀ slot ∈ slots, Inside state.set state.plane offset bytes.length slot) :
    Granted graph geometry
      { state with plane := putReplicas state.set offset bytes state.plane slots } := by
  rw [putReplicas_eq]
  exact h.withData (length_putReplicas hinside)

end

theorem attemptAll : ∀ {state : LeasedSet}, Granted graph geometry state →
    ∀ {span : MappedSpan} {bytes : List UInt8},
      (∀ slot ∈ slots, slot ∈ mappedSlots state.lease.catalog ∧
        Inside state.set state.plane span.physicalOffset bytes.length slot) →
      LeasedSet.attemptAll (fun state slot => state.writeReplica span bytes (fun _ => .done) slot)
        state slots =
        ({ state with plane :=
            PoolCatalogVolume.putReplicas state.set span.physicalOffset bytes state.plane slots },
          .ok ()) := by
  induction slots with
  | nil => exact fun _ _ _ _ => rfl
  | cons slot rest ih =>
    intro state h span bytes hslots
    obtain ⟨hmapped, hinside⟩ := hslots slot mem_cons_self
    obtain ⟨supplied, hmember, hle⟩ := hinside
    have hfirst := h.writeReplica hmapped ⟨supplied, hmember, hle⟩
    -- the rest is written on the plane after the first replica
    have hnext : Granted graph geometry
        { state with plane := state.plane.putData supplied.id span.physicalOffset bytes } :=
      h.withData (length_putData hle)
    have hlater : ∀ other ∈ rest, other ∈ mappedSlots state.lease.catalog ∧
        Inside state.set (state.plane.putData supplied.id span.physicalOffset bytes)
          span.physicalOffset bytes.length other := by
      intro other hother
      have hinside := hslots other (mem_cons_of_mem _ hother)
      exact ⟨hinside.1, hinside.2.putData hle⟩
    simp only [LeasedSet.attemptAll, hfirst, ih hnext hlater, PoolCatalogVolume.putReplicas,
      hmember]

/-- A span is written: the bytes of the volume that it has are stored. -/
theorem writeMapped (h : Granted graph geometry state)
    (hinit : VolumeMap.init state.lease.catalog volumeId = .ok map)
    (hspan : map.Describes position (.mapped span)) (hpos : 0 < span.length)
    (hlength : bytes.length = span.length) :
    ∃ after, state.writeMapped span bytes (fun _ => .done) = (after, .ok ()) ∧
      Stored graph geometry volumeId position bytes state after := by
  have hinside : ∀ slot ∈ span.memberSlots, slot ∈ mappedSlots state.lease.catalog ∧
      Inside state.set state.plane span.physicalOffset bytes.length slot := by
    rw [hlength]
    exact fun slot hslot => h.inside_span hinit hspan hpos hslot
  have hcells := cells_putReplicas fun slot hslot => (hinside slot hslot).2
  have hnext := h.putReplicas fun slot hslot => (hinside slot hslot).2
  have hall := h.attemptAll hinside
  rw [putReplicas_eq] at hcells hnext hall
  refine ⟨_, by rw [LeasedSet.writeMapped, hall]; rfl, ⟨_, rfl⟩, hnext, ?_, ?_⟩
  · -- a byte of the span lies where the span says
    rintro ⟨volume, offset⟩ value stores cell store hwritten hlocate hstore
    unfold writtenAt at hwritten
    split_ifs at hwritten with hin
    obtain ⟨rfl, hge⟩ := hin
    have hlt : offset - position < span.length := by
      rw [← hlength]
      exact (List.getElem?_eq_some_iff.mp hwritten).1
    have hplace := hspan (offset - position) hlt
    rw [Nat.add_sub_cancel' hge] at hplace
    rw [locate_of_init hinit, hplace] at hlocate
    obtain ⟨rfl, rfl⟩ := mk.inj (some.inj hlocate)
    rw [hcells, if_pos ⟨hstore, by omega, by omega⟩, Nat.add_sub_cancel_left, hwritten]
    rfl
  · -- a cell that the span covers holds a byte of it
    intro store cell hnot
    rw [hcells, if_neg]
    rintro ⟨hstore, hge, hlt⟩
    have hindex : cell - span.physicalOffset < bytes.length := by omega
    refine hnot (volumeId, position + (cell - span.physicalOffset))
      bytes[cell - span.physicalOffset] span.memberSlots ?_ ?_ hstore
    · rw [writtenAt, if_pos ⟨rfl, Nat.le_add_right _ _⟩, Nat.add_sub_cancel_left]
      exact getElem?_eq_getElem hindex
    · have hplace := hspan (cell - span.physicalOffset) (by omega)
      rw [Nat.add_sub_cancel' hge] at hplace
      exact (locate_of_init hinit).trans hplace

/-- The second loop of a write, over spans that tile the transfer. -/
theorem writeSpans {spans : List (Nat × MappedSpan)} :
    ∀ {state : LeasedSet} {position : Nat} {bytes : List UInt8}, Granted graph geometry state →
      VolumeMap.init state.lease.catalog volumeId = .ok map →
      map.Tiles position bytes.length (spans.map fun entry => (entry.1, .mapped entry.2)) →
      ∃ after, CatalogVolumeBackend.writeSpans state (fun _ _ => .done) spans bytes =
          (after, .ok ()) ∧ Stored graph geometry volumeId position bytes state after := by
  induction spans with
  | nil =>
    intro state position bytes h _ htiles
    have hnil : bytes = [] := length_eq_zero_iff.mp htiles
    refine ⟨state, rfl, ⟨_, rfl⟩, h, ?_⟩
    have hnothing : writtenAt volumeId position bytes = fun _ => none := by
      funext address
      simp [writtenAt, hnil]
    rw [hnothing]
    exact .nothing _ _
  | cons first rest ih =>
    intro state position bytes h hinit htiles
    obtain ⟨start, span⟩ := first
    obtain ⟨hstart, hpos, hle, hdescribes, hrest⟩ := htiles
    have htake : (bytes.take span.length).length = span.length := by
      rw [length_take]
      exact Nat.min_eq_left hle
    obtain ⟨_, hwrite, ⟨data, rfl⟩, hnext, hstores⟩ := h.writeMapped hinit hdescribes hpos htake
    have htail : map.Tiles (position + span.length) (bytes.drop span.length).length
        (rest.map fun entry => (entry.1, .mapped entry.2)) := by
      rw [length_drop]
      exact hrest
    obtain ⟨_, hwrite', ⟨data', rfl⟩, hlast, hstores'⟩ := ih hnext hinit htail
    refine ⟨_, ?_, ⟨data', rfl⟩, hlast, ?_⟩
    · simp only [CatalogVolumeBackend.writeSpans, hwrite, hwrite']
    · rw [← writtenAt_append hle]
      exact hstores.trans hstores' h.accepted.locate_separate

omit [Codec] in
/-- The first loop of a write passes only spans that are mapped. -/
theorem checkSpans_eq_ok {lease : CatalogDataLease} {spans : List (Nat × Span)} :
    ∀ {mapped : List (Nat × MappedSpan)}, CatalogVolumeBackend.checkSpans lease spans = .ok mapped →
      spans = mapped.map fun entry => (entry.1, .mapped entry.2) := by
  induction spans with
  | nil =>
    intro mapped hcheck
    simp only [CatalogVolumeBackend.checkSpans, Except.ok.injEq] at hcheck
    subst hcheck
    rfl
  | cons first rest ih =>
    intro mapped hcheck
    obtain ⟨position, span⟩ := first
    cases span with
    | zero length => simp [CatalogVolumeBackend.checkSpans] at hcheck
    | mapped span =>
      simp only [CatalogVolumeBackend.checkSpans, ok_iff] at hcheck
      obtain ⟨-, others, hothers, rfl⟩ := hcheck
      rw [ih hothers]
      rfl

omit [Codec] in
/-- Spans that are all mapped have a place for every byte. -/
theorem locate_of_tiles {mapped : List (Nat × MappedSpan)} : ∀ {position remaining : Nat},
      map.Tiles position remaining (mapped.map fun entry => (entry.1, .mapped entry.2)) →
      ∀ i < remaining, (map.locate (position + i)).isSome := by
  induction mapped with
  | nil =>
    intro position remaining htiles i hi
    have hzero : remaining = 0 := htiles
    omega
  | cons first rest ih =>
    intro position remaining htiles i hi
    obtain ⟨-, hpos, hle, hdescribes, hrest⟩ := htiles
    by_cases hin : i < first.2.length
    · rw [hdescribes i hin]
      rfl
    · have hlater := ih hrest (i - first.2.length) (by simp only [Span.length]; omega)
      simp only [Span.length] at hlater
      rwa [show position + first.2.length + (i - first.2.length) = position + i by omega] at hlater

section

variable (h : Granted graph geometry state)
include h

theorem validateClaims (hslots : ∀ slot ∈ slots, slot ∈ mappedSlots state.lease.catalog) :
    state.lease.validateClaims slots = .ok () := by
  induction slots with
  | nil => rfl
  | cons slot rest ih =>
    obtain ⟨claim, supplied, hclaim, -⟩ := h.claim (hslots slot mem_cons_self)
    simp only [CatalogDataLease.validateClaims, hclaim, bind_eq_ok]
    exact ⟨claim, rfl, ih fun slot hmem => hslots slot (mem_cons_of_mem _ hmem)⟩

/-- The first loop of a write passes if every byte has a place. -/
theorem checkSpans (hinit : VolumeMap.init state.lease.catalog volumeId = .ok map)
    {spans : List (Nat × Span)} :
    ∀ {position remaining : Nat}, map.Tiles position remaining spans →
      (∀ i < remaining, (map.locate (position + i)).isSome) →
      ∃ mapped, CatalogVolumeBackend.checkSpans state.lease spans = .ok mapped := by
  induction spans with
  | nil => exact fun _ _ => ⟨[], rfl⟩
  | cons first rest ih =>
    intro position remaining htiles hall
    obtain ⟨start, span⟩ := first
    obtain ⟨rfl, hpos, hle, hdescribes, hrest⟩ := htiles
    cases span with
    | zero length =>
      have hfirst := hall 0 (by simp only [Span.length] at hpos hle; omega)
      rw [hdescribes 0 hpos] at hfirst
      cases hfirst
    | mapped span =>
      have hlater : ∀ i < remaining - span.length,
          (map.locate (start + span.length + i)).isSome := by
        intro i hi
        rw [Nat.add_assoc]
        exact hall (span.length + i) (by omega)
      obtain ⟨others, hothers⟩ := ih hrest hlater
      have hclaims := h.validateClaims fun slot hslot =>
        (h.inside_span hinit hdescribes hpos hslot).1
      refine ⟨(start, span) :: others, ?_⟩
      simp only [CatalogVolumeBackend.checkSpans, ok_iff]
      exact ⟨hclaims, others, hothers, rfl⟩

/-- The backend of a ready volume, opened under the lease. -/
theorem openWritable :
    CatalogVolumeBackend.openWritable state.lease state.set volumeId = .ok backend ↔
      ∃ map, VolumeMap.init state.lease.catalog volumeId = .ok map ∧
        backend = ⟨state.lease.generation, state.lease.authorityHistoryDigest,
          state.lease.rootDigest, map⟩ := by
  simp only [CatalogVolumeBackend.openWritable, ok_iff, h.valid, true_and]
  constructor
  · rintro ⟨map, hinit, rfl⟩
    exact ⟨map, hinit, rfl⟩
  · rintro ⟨map, hinit, rfl⟩
    exact ⟨map, hinit, rfl⟩

section

variable (hinit : VolumeMap.init state.lease.catalog volumeId = .ok map)
include hinit

/-- A transfer inside the volume passes the check of its bounds and is tiled. -/
theorem spans (hinside : offset + length ≤ map.logicalSize) :
    ¬ (offset + length > maxU64 ∨ offset + length > map.logicalSize) ∧
      ∃ spans, map.spans offset length = .ok spans ∧ map.Tiles offset length spans := by
  have hextent : 0 < map.descriptor.extentSize := by
    rw [h.accepted.map_extentSize hinit]
    exact h.accepted.extentSize_pos
  refine ⟨?_, VolumeMap.spansFrom_tile hextent (Nat.le_refl _) hinside⟩
  have hsize := h.accepted.map_logicalSize_le hinit
  omega

/-- A write inside the volume whose bytes all have a place stores them; any other write fails and
changes nothing. -/
theorem write (offset : Nat) (bytes : List UInt8) :
    let backend : CatalogVolumeBackend := ⟨state.lease.generation,
      state.lease.authorityHistoryDigest, state.lease.rootDigest, map⟩
    (Writable state.lease.catalog volumeId offset bytes.length ∧
      ∃ after, backend.write state offset bytes (fun _ _ => .done) = (after, .ok ()) ∧
        Stored graph geometry volumeId offset bytes state after) ∨
    (¬ Writable state.lease.catalog volumeId offset bytes.length ∧
      ∃ e, backend.write state offset bytes (fun _ _ => .done) = (state, .error e)) := by
  intro backend
  have hvalid : backend.validateFor state.lease state.set = .ok () := by
    simp only [CatalogVolumeBackend.validateFor, ok_iff]
    exact ⟨h.valid, by simp [backend]⟩
  cases hcheck : backend.checkWrite state offset bytes.length with
  | error e =>
    refine .inr ⟨?_, e, by rw [CatalogVolumeBackend.write, hcheck]⟩
    rintro ⟨same, hsame, hinside, hall⟩
    obtain rfl := ok.inj (hinit.symm.trans hsame)
    obtain ⟨hbounds, spans, hspans, htiles⟩ := h.spans hinit hinside
    obtain ⟨mapped, hmapped⟩ :=
      h.checkSpans hinit htiles fun i hi => locate_of_init hinit ▸ hall i hi
    have hok : backend.checkWrite state offset bytes.length = .ok mapped := by
      simp only [CatalogVolumeBackend.checkWrite, ok_iff]
      exact ⟨hbounds, hvalid, spans, hspans, hmapped⟩
    rw [hcheck] at hok
    cases hok
  | ok mapped =>
    have hparts := hcheck
    simp only [CatalogVolumeBackend.checkWrite, ok_iff] at hparts
    obtain ⟨hbounds, -, spans, hspans, hmapped⟩ := hparts
    have hinside : offset + bytes.length ≤ map.logicalSize := by
      simp only [not_or, Nat.not_lt] at hbounds
      exact hbounds.2
    obtain ⟨-, same, hsame, htiles⟩ := h.spans hinit hinside
    obtain rfl := ok.inj (hspans.symm.trans hsame)
    rw [checkSpans_eq_ok hmapped] at htiles
    refine .inl ⟨⟨map, hinit, hinside, fun i hi => ?_⟩, ?_⟩
    · rw [locate_of_init hinit]
      exact locate_of_tiles htiles i hi
    obtain ⟨_, hwrite, ⟨data, rfl⟩, hgranted, hstores⟩ := h.writeSpans hinit htiles
    refine ⟨_, ?_, ⟨data, rfl⟩, hgranted, hstores⟩
    simp only [CatalogVolumeBackend.write, hcheck, hwrite]
    exact congrArg (Prod.mk _) hvalid

end

/-- The reply of a member has the cells of its slot. -/
theorem readSlot {unreadable : Id → Bool}
    (hread : CatalogVolumeBackend.readSlot state.set state.plane unreadable span slot = .ok bytes) :
    bytes.length = span.length ∧ ∀ i < span.length,
      bytes[i]? = some (cells state.set state.plane slot (span.physicalOffset + i)) := by
  simp only [CatalogVolumeBackend.readSlot, readData, DataPlane.position, ok_iff] at hread
  obtain ⟨supplied, hmember, hposition, -, rfl⟩ := hread
  obtain ⟨-, hdata⟩ := dataMemberForRead_eq_ok.mp hmember
  have hlength : span.physicalOffset + span.length ≤ (state.plane.data supplied.id).length := by
    rw [h.sized _ _ (dataMember_find hdata)]
    omega
  refine ⟨slice_length hlength, fun i hi => ?_⟩
  have hcell : cells state.set state.plane slot (span.physicalOffset + i) =
      (state.plane.data supplied.id)[span.physicalOffset + i] := by
    simp only [cells, hdata]
    rw [getElem?_eq_getElem (by omega), getD_some]
  rw [getElem?_slice, if_pos hi, hcell]
  show (state.plane.data supplied.id)[span.physicalOffset + i]? = _
  exact getElem?_eq_getElem (by omega)

end

variable (h : Granted graph geometry state)
  (hagree : Agree state.lease.catalog.locate (cells state.set state.plane))
  (hinit : VolumeMap.init state.lease.catalog volumeId = .ok map)
include h hagree hinit

/-- The loop of a read, over spans that tile the transfer. -/
theorem readSpans {spans : List (Nat × Span)} :
    ∀ {position remaining : Nat} {bytes : List UInt8}, map.Tiles position remaining spans →
      CatalogVolumeBackend.readSpans state.set state.plane unreadable spans = .ok bytes →
      bytes.length = remaining ∧ ∀ i < remaining,
        bytes[i]? = some (content state.set state.plane state.lease.catalog
          (volumeId, position + i)) := by
  induction spans with
  | nil =>
    intro position remaining bytes htiles hread
    have hzero : remaining = 0 := htiles
    simp only [CatalogVolumeBackend.readSpans, ok.injEq] at hread
    subst hread hzero
    exact ⟨rfl, by simp⟩
  | cons first rest ih =>
    intro position remaining bytes htiles hread
    obtain ⟨start, span⟩ := first
    obtain ⟨rfl, hpos, hle, hdescribes, hrest⟩ := htiles
    simp only [CatalogVolumeBackend.readSpans, ok_iff] at hread
    obtain ⟨piece, hpiece, others, hothers, rfl⟩ := hread
    -- the bytes of the first span
    have hfirst : piece.length = span.length ∧ ∀ i < span.length,
        piece[i]? = some (content state.set state.plane state.lease.catalog
          (volumeId, start + i)) := by
      cases span with
      | zero length =>
        simp only [CatalogVolumeBackend.readSpan, ok.injEq] at hpiece
        subst hpiece
        refine ⟨length_zeros length, fun i hi => ?_⟩
        have hnone := (locate_of_init hinit).trans (hdescribes i hi)
        have hlt : i < length := hi
        rw [content, load_eq_none hnone, zeros, getElem?_replicate, if_pos hlt]
        rfl
      | mapped span =>
        obtain ⟨slot, hslot, hreply⟩ := mem_map.mp (readReplicas_mem hpiece)
        obtain ⟨hlength, hbytes⟩ := h.readSlot hreply
        refine ⟨hlength, fun i hi => ?_⟩
        have hplace := (locate_of_init hinit).trans (hdescribes i hi)
        rw [hbytes i hi, content, hagree.load_eq hplace hslot, getD_some]
    obtain ⟨hlength, hbytes⟩ := ih hrest hothers
    refine ⟨by rw [length_append, hfirst.1, hlength]; omega, fun i hi => ?_⟩
    by_cases hin : i < span.length
    · rw [getElem?_append_left (by omega), hfirst.2 i hin]
    · rw [getElem?_append_right (by omega), hfirst.1, hbytes _ (by omega),
        show start + span.length + (i - span.length) = start + i by omega]

/-- A read that succeeds returns the content of the volume. -/
theorem read (hmap : backend.map = map)
    (hread : backend.read state.set state.plane offset length unreadable = .ok bytes) :
    offset + length ≤ map.logicalSize ∧ bytes.length = length ∧ ∀ i < length,
      bytes[i]? = some (content state.set state.plane state.lease.catalog
        (volumeId, offset + i)) := by
  simp only [CatalogVolumeBackend.read, ok_iff, hmap] at hread
  obtain ⟨hbounds, -, spans, hspans, result, hresult, -, rfl⟩ := hread
  have hinside : offset + length ≤ map.logicalSize := by
    simp only [not_or, Nat.not_lt] at hbounds
    exact hbounds.2
  obtain ⟨-, same, hsame, htiles⟩ := h.spans hinit hinside
  obtain rfl := ok.inj (hspans.symm.trans hsame)
  exact ⟨hinside, h.readSpans hagree hinit htiles hresult⟩

end Granted

/-! ## Runs -/

/-- An access to a volume under the lease, by a backend opened for it. All writes to storage
succeed; `unreadable` says which members do not answer a read. -/
inductive VolumeOp where
  | read (volumeId : Id) (offset length : Nat) (unreadable : Nat → Id → Bool)
  | write (volumeId : Id) (offset : Nat) (bytes : List UInt8)

namespace VolumeOp

def volumeId : VolumeOp → Id
  | .read volumeId _ _ _ => volumeId
  | .write volumeId _ _ => volumeId

def run (state : LeasedSet) : VolumeOp → LeasedSet × Except DataError (List UInt8)
  | .read volumeId offset length unreadable =>
    (state, do
      let backend ← CatalogVolumeBackend.openWritable state.lease state.set volumeId
      backend.read state.set state.plane offset length unreadable)
  | .write volumeId offset bytes =>
    match CatalogVolumeBackend.openWritable state.lease state.set volumeId with
    | .error e => (state, .error e)
    | .ok backend =>
      match backend.write state offset bytes (fun _ _ => .done) with
      | (after, .error e) => (after, .error e)
      | (after, .ok ()) => (after, .ok [])

/-- What an access stored, from its answer. -/
def stored (op : VolumeOp) (answer : Except DataError (List UInt8)) (address : Id × Nat) :
    Option UInt8 :=
  match op, answer with
  | .write volumeId offset bytes, .ok _ => writtenAt volumeId offset bytes address
  | _, _ => none

end VolumeOp

def runAll (state : LeasedSet) (ops : List VolumeOp) : LeasedSet :=
  ops.foldl (fun state op => (op.run state).1) state

/-- The last value that the accesses wrote to an address. -/
def lastWritten : LeasedSet → List VolumeOp → Id × Nat → Option UInt8
  | _, [], _ => none
  | state, op :: rest, address =>
    (lastWritten (op.run state).1 rest address).or (op.stored (op.run state).2 address)

variable {graph : Graph} {geometry : List MemberGeometry} {catalog : ValidatedCatalog}
  {binding : AuthorityBinding} {set : PoolMemberSet} {ops : List VolumeOp} {state : LeasedSet}

omit [Codec] in
theorem content_of_stores {before after : DataPlane} {written : Id × Nat → Option UInt8}
    (hstores : Stores catalog.locate written (cells set before) (cells set after))
    (hseparate : Separate catalog.locate) {address : Id × Nat}
    (hplace : written address ≠ none → load catalog.locate (cells set before) address ≠ none) :
    content set after catalog address = (written address).getD (content set before catalog address)
      := by
  unfold content
  rw [hstores.load hseparate]
  cases hload : load catalog.locate (cells set before) address with
  | some old => cases written address <;> rfl
  | none =>
    have hnone : written address = none := by
      by_contra hsome
      exact hplace hsome hload
    rw [hnone]
    rfl

theorem load_ne_none (h : PoolCatalogGraph.Accepted binding graph geometry [] catalog)
    {memory : Nat → Nat → UInt8} {address : Id × Nat} (hplace : (catalog.locate address).isSome) :
    load catalog.locate memory address ≠ none := by
  obtain ⟨⟨memberSlots, cell⟩, hlocate⟩ := isSome_iff_exists.mp hplace
  obtain ⟨run, hmaps, rfl, -⟩ := h.locate_eq_some hlocate
  have hvalid := (h.run_placed hmaps.1).valid
  simp only [validateExtentRun, ok_iff] at hvalid
  have hwidth := hvalid.2.2.2.1
  unfold load
  rw [hlocate]
  cases hslots : run.memberSlots with
  | nil => simp [hslots] at hwidth
  | cons slot rest => simp

/-- A lease in use whose replicas agree. -/
structure InUse (graph : Graph) (geometry : List MemberGeometry) (state : LeasedSet) : Prop where
  granted : Granted graph geometry state
  agree : Agree state.lease.catalog.locate (cells state.set state.plane)

theorem Granted.run_write
    (h : Granted graph geometry state) (volumeId : Id) (offset : Nat) (bytes : List UInt8) :
    (Writable state.lease.catalog volumeId offset bytes.length ∧
      ∃ after, (VolumeOp.write volumeId offset bytes).run state = (after, .ok []) ∧
        Stored graph geometry volumeId offset bytes state after) ∨
    (¬ Writable state.lease.catalog volumeId offset bytes.length ∧
      ∃ e, (VolumeOp.write volumeId offset bytes).run state = (state, .error e)) := by
  simp only [VolumeOp.run]
  cases hopen : CatalogVolumeBackend.openWritable state.lease state.set volumeId with
  | error e =>
    refine .inr ⟨?_, e, rfl⟩
    rintro ⟨map, hinit, -⟩
    rw [h.openWritable.mpr ⟨map, hinit, rfl⟩] at hopen
    cases hopen
  | ok backend =>
    obtain ⟨map, hinit, rfl⟩ := h.openWritable.mp hopen
    rcases h.write hinit offset bytes with ⟨hin, after, hwrite, hstored⟩ | ⟨hnot, e, hwrite⟩
    · exact .inl ⟨hin, after, by simp only [hwrite], hstored⟩
    · exact .inr ⟨hnot, e, by simp only [hwrite]⟩

/-- One access: the set and the lease stay, the lease stays in use, and the content of the volumes
changes by what the access stored. -/
theorem InUse.step (h : InUse graph geometry state) (op : VolumeOp) :
    InUse graph geometry (op.run state).1 ∧ (op.run state).1.set = state.set ∧
      (op.run state).1.lease = state.lease ∧
      ∀ address, content state.set (op.run state).1.plane state.lease.catalog address =
        (op.stored (op.run state).2 address).getD
          (content state.set state.plane state.lease.catalog address) := by
  cases op with
  | read volumeId offset length unreadable => exact ⟨h, rfl, rfl, fun _ => rfl⟩
  | write volumeId offset bytes =>
    rcases h.granted.run_write volumeId offset bytes with
      ⟨⟨map, hinit, -, hall⟩, _, hwrite, ⟨data, rfl⟩, hgranted, hstores⟩ | ⟨-, e, hwrite⟩
    · have hseparate := h.granted.accepted.locate_separate
      rw [hwrite]
      refine ⟨⟨hgranted, hstores.agree hseparate h.agree⟩, rfl, rfl, fun address => ?_⟩
      refine content_of_stores hstores hseparate fun hwritten => ?_
      -- what was written has a place
      apply load_ne_none h.granted.accepted
      unfold writtenAt at hwritten
      split_ifs at hwritten with hin
      · have hlt : address.2 - offset < bytes.length := by
          by_contra hnot
          exact hwritten (getElem?_eq_none (by omega))
        have hplace := hall _ hlt
        rw [Nat.add_sub_cancel' hin.2, ← hin.1] at hplace
        exact hplace
      · exact absurd rfl hwritten
    · rw [hwrite]
      exact ⟨h, rfl, rfl, fun _ => rfl⟩

theorem InUse.run : ∀ {state : LeasedSet}, InUse graph geometry state →
      InUse graph geometry (runAll state ops) ∧ (runAll state ops).set = state.set ∧
        (runAll state ops).lease = state.lease ∧
        ∀ address, content state.set (runAll state ops).plane state.lease.catalog address =
          (lastWritten state ops address).getD
            (content state.set state.plane state.lease.catalog address) := by
  induction ops with
  | nil => exact fun h => ⟨h, rfl, rfl, fun _ => rfl⟩
  | cons op rest ih =>
    intro state h
    obtain ⟨hnext, hset, hlease, hcontent⟩ := h.step op
    obtain ⟨hlast, hset', hlease', hcontent'⟩ := ih hnext
    rw [hset, hlease] at hcontent'
    refine ⟨hlast, hset'.trans hset, hlease'.trans hlease, fun address => ?_⟩
    show content state.set (runAll (op.run state).1 rest).plane _ address = _
    rw [hcontent' address, hcontent address, lastWritten]
    cases lastWritten (op.run state).1 rest address <;> rfl

/-- The replicas of a mapped extent hold the same bytes. -/
def ReplicasAgree (set : PoolMemberSet) (plane : DataPlane) (catalog : ValidatedCatalog) : Prop :=
  ∀ volumeId extent run, catalog.Maps volumeId extent run →
    ∀ slot ∈ run.memberSlots, ∀ other ∈ run.memberSlots, ∀ within < catalog.root.extentSize,
      let cell := (run.physicalStart + extent - run.logicalStart) * catalog.root.extentSize + within
      cells set plane slot cell = cells set plane other cell

theorem ReplicasAgree.agree {plane : DataPlane} (h : ReplicasAgree set plane catalog)
    (haccepted : PoolCatalogGraph.Accepted binding graph geometry [] catalog) :
    Agree catalog.locate (cells set plane) := by
  rintro ⟨volumeId, offset⟩ stores cell hlocate slot hslot other hother
  obtain ⟨run, hmaps, rfl, rfl⟩ := haccepted.locate_eq_some hlocate
  exact h volumeId _ run hmaps slot hslot other hother _
    (Nat.mod_lt offset haccepted.extentSize_pos)

omit [Codec] in
theorem lastWritten_append {first second : List VolumeOp} : ∀ {state : LeasedSet}
    {address : Id × Nat}, lastWritten state (first ++ second) address =
      (lastWritten (runAll state first) second address).or (lastWritten state first address) := by
  induction first with
  | nil => simp [lastWritten, runAll]
  | cons op rest ih =>
    intro state address
    rw [cons_append, lastWritten, lastWritten, ih, Option.or_assoc]
    rfl

omit [Codec] in
theorem lastWritten_other {volumeId : Id}
    (h : ∀ op ∈ ops, op.volumeId ≠ volumeId) : ∀ {state : LeasedSet} {offset : Nat},
      lastWritten state ops (volumeId, offset) = none := by
  induction ops with
  | nil => exact rfl
  | cons op rest ih =>
    intro state offset
    have hother := h op mem_cons_self
    rw [lastWritten, ih fun op hmem => h op (mem_cons_of_mem _ hmem), none_or]
    cases op with
    | read _ _ _ _ => rfl
    | write written start bytes =>
      cases ((VolumeOp.write written start bytes).run state).2 with
      | error e => rfl
      | ok answer =>
        show writtenAt written start bytes (volumeId, offset) = none
        rw [writtenAt, if_neg (fun h => hother h.1.symm)]

/-- The volumes of the catalog of a lease are independent byte arrays, in every run of reads and
writes at any offset and of any length, after the lease was acquired and with storages that do not
fail a write. -/
theorem volumes_are_byte_arrays {set : PoolMemberSet} {plane acquired : DataPlane}
    {unloadable : Id → Bool} {lease : CatalogDataLease}
    (hacquire : CatalogDataLease.acquire set plane unloadable = (acquired, .ok lease))
    (hsized : Sized set plane) (hagree : ReplicasAgree set plane lease.catalog) :
    let start : LeasedSet := ⟨set, acquired, lease⟩
    let extentSize := lease.catalog.root.extentSize
    let initial := content set plane lease.catalog
    -- before the first write, a byte is the one of the replicas of its extent, or zero
    (∀ volumeId map offset run, VolumeMap.init lease.catalog volumeId = .ok map →
      lease.catalog.Maps volumeId (offset / extentSize) run → ∀ slot ∈ run.memberSlots,
        initial (volumeId, offset) = cells set plane slot
          ((run.physicalStart + offset / extentSize - run.logicalStart) * extentSize +
            offset % extentSize)) ∧
    (∀ volumeId offset, (∀ run, ¬ lease.catalog.Maps volumeId (offset / extentSize) run) →
      initial (volumeId, offset) = 0) ∧
    ∀ ops : List VolumeOp,
      -- a read returns the last values written to the volume, or what was there at first
      (∀ volumeId offset length unreadable bytes,
        ((VolumeOp.read volumeId offset length unreadable).run (runAll start ops)).2 = .ok bytes →
        bytes.length = length ∧ ∀ i < length,
          bytes[i]? = some ((lastWritten start ops (volumeId, offset + i)).getD
            (initial (volumeId, offset + i)))) ∧
      -- which accesses to other volumes do not change
      (∀ volumeId offset others, (∀ op ∈ others, op.volumeId ≠ volumeId) →
        lastWritten start (ops ++ others) (volumeId, offset) =
          lastWritten start ops (volumeId, offset)) ∧
      -- a write of mapped extents of a ready volume succeeds, and any other changes nothing
      ∀ volumeId offset bytes,
        (∃ map, VolumeMap.init lease.catalog volumeId = .ok map ∧
          offset + bytes.length ≤ map.logicalSize ∧ ∀ i < bytes.length,
            ∃ run, lease.catalog.Maps volumeId ((offset + i) / extentSize) run) ∧
          ((VolumeOp.write volumeId offset bytes).run (runAll start ops)).2 = .ok [] ∨
        (¬ ∃ map, VolumeMap.init lease.catalog volumeId = .ok map ∧
          offset + bytes.length ≤ map.logicalSize ∧ ∀ i < bytes.length,
            ∃ run, lease.catalog.Maps volumeId ((offset + i) / extentSize) run) ∧
          ∃ e, (VolumeOp.write volumeId offset bytes).run (runAll start ops) =
            (runAll start ops, .error e) := by
  intro start extentSize initial
  have hacquired := acquire_eq_ok hacquire
  obtain ⟨graph, geometry, hgeometry, haccepted⟩ := hacquired.accepted
  have hdata : acquired.data = plane.data := hacquired.same.data
  have hcells : cells set acquired = cells set plane := by
    funext slot cell
    simp only [cells, hdata]
  have hstart : InUse graph geometry start := by
    refine ⟨⟨haccepted, hgeometry, ?_, hacquired.held, ?_, ?_, hacquired.valid⟩, ?_⟩
    · intro memberId supplied hfind
      rw [hdata]
      exact hsized memberId supplied hfind
    · exact fun claim hmem => (hacquired.member claim hmem).2
    · exact fun slot hslot => (hacquired.slots slot).mp hslot
    · show Agree lease.catalog.locate (cells set acquired)
      rw [hcells]
      exact hagree.agree haccepted
  refine ⟨?_, ?_, fun ops => ?_⟩
  · intro volumeId map offset run hinit hmaps slot hslot
    show content set plane lease.catalog (volumeId, offset) = _
    rw [content, (hagree.agree haccepted).load_eq (haccepted.locate_of_maps hinit hmaps) hslot]
    rfl
  · intro volumeId offset hnot
    have hnone : lease.catalog.locate (volumeId, offset) = none := by
      cases hlocate : lease.catalog.locate (volumeId, offset) with
      | none => rfl
      | some place =>
        obtain ⟨run, hmaps, -⟩ := haccepted.locate_eq_some hlocate
        exact absurd hmaps (hnot run)
    show content set plane lease.catalog (volumeId, offset) = _
    rw [content, load_eq_none hnone]
    rfl
  obtain ⟨huse, hset, hlease, hcontent⟩ := InUse.run hstart
  have hnow : ∀ address, content (runAll start ops).set (runAll start ops).plane
      (runAll start ops).lease.catalog address =
        (lastWritten start ops address).getD (initial address) := by
    intro address
    rw [hset, hlease, hcontent address]
    show (lastWritten start ops address).getD (content set acquired lease.catalog address) = _
    rw [content, hcells]
    rfl
  refine ⟨?_, ?_, ?_⟩
  · intro volumeId offset length unreadable bytes hread
    simp only [VolumeOp.run, bind_eq_ok] at hread
    obtain ⟨backend, hopen, hbytes⟩ := hread
    obtain ⟨map, hinit, rfl⟩ := huse.granted.openWritable.mp hopen
    obtain ⟨-, hlength, hvalues⟩ := huse.granted.read huse.agree hinit rfl hbytes
    refine ⟨hlength, fun i hi => ?_⟩
    rw [hvalues i hi, hnow]
  · intro volumeId offset others hothers
    rw [lastWritten_append, lastWritten_other hothers, none_or]
  · intro volumeId offset bytes
    have hwritable : Writable lease.catalog volumeId offset bytes.length ↔
        ∃ map, VolumeMap.init lease.catalog volumeId = .ok map ∧
          offset + bytes.length ≤ map.logicalSize ∧ ∀ i < bytes.length,
            ∃ run, lease.catalog.Maps volumeId ((offset + i) / extentSize) run := by
      refine exists_congr fun map => and_congr_right fun hinit => and_congr_right fun _ => ?_
      refine forall₂_congr fun i _ => ?_
      constructor
      · intro hsome
        obtain ⟨place, hplace⟩ := isSome_iff_exists.mp hsome
        obtain ⟨run, hmaps, -⟩ := haccepted.locate_eq_some hplace
        exact ⟨run, hmaps⟩
      · rintro ⟨run, hmaps⟩
        rw [haccepted.locate_of_maps hinit hmaps]
        rfl
    have hends := huse.granted.run_write volumeId offset bytes
    rw [hlease, hwritable] at hends
    rcases hends with ⟨hin, after, hwrite, -⟩ | hnot
    · exact .inl ⟨hin, by rw [hwrite]⟩
    · exact .inr hnot

end PoolCatalogVolume

namespace Sample

open PoolCatalog PoolCatalogPage PoolCatalogStore PoolMemberSet PoolCatalogVolume

/-! ## A pool with a mapped extent -/

/-- The first extent of the volume is mapped. -/
def extentBlock : Block := encoded (encodeExtentMap 1 9 [⟨0, 0, 1, .mapped, [1], 0⟩])

def mappedDescriptor : VolumeDescriptor :=
  { descriptor with extentMapRoot := reference 7 extentBlock, allocatedExtentCount := 1 }

def mappedPages : List Block :=
  [encoded (encodeVolumeIndex 1 [mappedDescriptor]), nameBlock,
   encoded (encodePhysicalIntervals .free 1 [⟨1, 1, 3, 0⟩]),
   encoded (encodeMetadataAllocator 1 [⟨8, 4, .free, 0⟩]), headerBlock, extentBlock]

def mappedReference (index : Nat) : PageReference :=
  reference (index + 2) ((mappedPages[index]?).getD zeroBlock)

def mappedRoot : Root :=
  { root with
    volumeTreeRoot := mappedReference 0
    allocatorRoot := mappedReference 2
    metadataAllocatorRoot := mappedReference 3 }

def mappedGraph : Graph where
  rootBytes := rootBlock mappedRoot
  pages := mappedPages.mapIdx fun index block => ⟨(index + 2) * pageSize, block⟩

def mappedCatalog : ValidatedCatalog :=
  { catalog with
    root := mappedRoot
    descriptors := [mappedDescriptor]
    extentRuns := [[⟨0, 0, 1, .mapped, [1], 0⟩]]
    free := [⟨1, 1, 3, 0⟩]
    metadata := [⟨8, 4, .free, 0⟩]
    currentPages := (range 6).map mappedReference }

def mappedAuthority : PoolAuthority.Authority :=
  { authority with dataRootDigest := Codec.blake3 (rootContent mappedRoot) }

theorem mapped_accepted :
    validateGraph (bindingOf mappedAuthority) mappedGraph members = .ok mappedCatalog := by
  decide +kernel

def mappedKnown : List Block := mappedGraph.rootBytes :: zeroBlock :: mappedPages

def mappedRegion : MetadataRegion := .ofBlocks (mappedKnown ++ replicate 4 zeroBlock)

theorem mapped_loads : ∃ loaded,
    loadAuthorityCatalog mappedRegion mappedAuthority members = .ok loaded ∧
      loaded.validated = mappedCatalog :=
  load_ofBlocks (accepted_iff.mp mapped_accepted) rfl zeroBlock_not_root

/-- The header of the only member. -/
def header : Header :=
  { Trio.header 2 8 with
    setId := 1, memberSlot := 1, memberCount := 1,
    metadata := ⟨1048576, 12 * pageSize⟩, data := ⟨2097152, 4 * 1048576⟩ }

def member : Supplied where
  member :=
    { storage := ⟨.bytes header, .bytes header, []⟩
      header := header
      source := .a
      degraded := false
      checkpointReclaimReady := false
      mode := .writable
      frozen := false }
  history := none
  status := .activeVoter
  seat := none

def set : PoolMemberSet where
  supplied := [member]
  suppliedCount := 1
  authority := mappedAuthority
  controlWrite := some ⟨5, [2], false⟩
  dataAccess := .readWrite
  recoveryOnly := false

def plane : DataPlane where
  metadata _ := mappedRegion
  data _ := zeros (4 * 1048576)
  durable _ := zeros (4 * 1048576)
  claims _ := ⟨0, 1⟩

def lease : CatalogDataLease where
  generation := 1
  authorityHistoryDigest := 5
  rootDigest := mappedAuthority.dataRootDigest
  catalog := mappedCatalog
  claims := [⟨1, 2, 1⟩]
  frozen := false
  released := false

theorem set_member
    (h : findSuppliedMember set.supplied memberId = some supplied) : supplied = member := by
  have hmem := mem_of_find?_eq_some h
  simpa [set] using hmem

theorem plane_sized : Sized set plane := by
  intro memberId supplied hfind
  rw [set_member hfind]
  exact length_zeros _

theorem acquires : CatalogDataLease.acquire set plane (fun _ => false) =
    (plane.setClaim 2 ⟨1, 2⟩, .ok lease) := by
  obtain ⟨loaded, hload, hcatalog⟩ := mapped_loads
  have hstored : loadAuthorityCatalog (plane.metadata 2) set.authority members = .ok loaded := hload
  have hreaders : catalogReaders set = [2] := by decide
  have hbound : loadBoundCatalog set plane (fun _ => false) = .ok ⟨set.authority.generation,
      set.authority.historyDigest, set.authority.dataRootDigest, loaded.validated⟩ :=
    loadBoundCatalog_of_load (by decide) (by decide) (by decide) hreaders rfl hstored
  rw [hcatalog] at hbound
  have hslots : insertSlots [] (mappedSlots mappedCatalog) = .ok [1] := by decide
  have hmember : dataMemberForWrite set 1 = .ok member := by decide
  have hclaim : plane.claimData member.member = (plane.setClaim 2 ⟨1, 2⟩, .ok 1) := rfl
  have hclaims : claimSlots set plane [1] = (plane.setClaim 2 ⟨1, 2⟩, [⟨1, 2, 1⟩], .ok ()) := by
    rfl
  exact acquire_of_claims (by decide) rfl hbound hslots hclaims

theorem replicas_agree : ReplicasAgree set plane lease.catalog := by
  intro volumeId extent run hmaps slot hslot other hother within _ cell
  have hrun : (volumeId, run) ∈ [((9 : Id), (⟨0, 0, 1, .mapped, [1], 0⟩ : ExtentRun))] := hmaps.1
  rw [mem_singleton, Prod.mk.injEq] at hrun
  obtain ⟨-, rfl⟩ := hrun
  rw [mem_singleton.mp hslot, mem_singleton.mp hother]

end Sample

namespace PoolCatalogVolume

theorem sample_volumes_are_byte_arrays :
    CatalogDataLease.acquire Sample.set Sample.plane (fun _ => false) =
      (Sample.plane.setClaim 2 ⟨1, 2⟩, .ok Sample.lease) ∧
    ∀ (ops : List VolumeOp) (volumeId : Id) (offset length : Nat) (unreadable : Nat → Id → Bool)
      (bytes : List UInt8),
      ((VolumeOp.read volumeId offset length unreadable).run
        (runAll ⟨Sample.set, Sample.plane.setClaim 2 ⟨1, 2⟩, Sample.lease⟩ ops)).2 = .ok bytes →
      bytes.length = length := by
  refine ⟨acquires, fun ops volumeId offset length unreadable bytes h => ?_⟩
  have hvolumes := volumes_are_byte_arrays acquires plane_sized replicas_agree
  exact ((hvolumes.2.2 ops).1 volumeId offset length unreadable bytes h).1

end PoolCatalogVolume

end Zettide
