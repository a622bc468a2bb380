import Zettide.Pool.Reserve

/-! # The reserve through a rollover

Publishing an anchor writes headers and no slot, and a member that is cut there has all the slots
before the anchor free again. So resuming a rollover never costs a free slot, and a member that is
cut at its tail has all but two of its slots free. -/

namespace Zettide.ReplicatedJournal

open List Option Journal PoolMemberSet PoolTopology

variable [Blake3]

/-! ## Active members -/

variable {c : ReplicatedJournal} {outcome : RolloverOutcome}
  {member supplied : Supplied} {room : Nat} {publication : Publication} {memberId : Id}
  {published : List Publication} {anchor found : AnchorState} {journal : Journal}
  {claimed : Claimed} {log : List Record} {after : Claimed} {seat : Seat}

/-- The active participants are the active members. -/
theorem mem_active (sound : SoundMembers c.set.supplied) (ordered : c.Ordered) :
    memberId ∈ c.activeParticipants.map Participant.memberId ↔
      ∃ member ∈ c.set.supplied, member.id = memberId ∧ member.Active := by
  constructor
  · intro hmem
    obtain ⟨participant, hparticipant, rfl⟩ := mem_map.mp hmem
    obtain ⟨member, hmember, journal, hseat, rfl⟩ := active_mem hparticipant
    exact ⟨member, hmember, rfl, journal, hseat⟩
  · rintro ⟨member, hmember, rfl, journal, hseat⟩
    exact mem_map.mpr ⟨⟨member.id, ⟨member.member, journal⟩, true⟩, mem_filter.mpr
      ⟨(mem_participants sound ordered).mpr ⟨member, hmember, _, hseat, rfl⟩, rfl⟩, rfl⟩

omit [Blake3] in
theorem active_distinct (ordered : c.Ordered) :
    (c.activeParticipants.map Participant.memberId).Nodup :=
  (participants_distinct ordered).sublist (filter_sublist.map _)

/-- As many participants are active when the same members are. -/
theorem active_length {before after : ReplicatedJournal} (sound : SoundMembers before.set.supplied)
    (ordered : before.Ordered) (sound' : SoundMembers after.set.supplied) (ordered' : after.Ordered)
    (same : ∀ memberId, (∃ member ∈ after.set.supplied, member.id = memberId ∧ member.Active) ↔
      ∃ member ∈ before.set.supplied, member.id = memberId ∧ member.Active) :
    after.activeParticipants.length = before.activeParticipants.length := by
  have hperm : (after.activeParticipants.map Participant.memberId).Perm
      (before.activeParticipants.map Participant.memberId) := by
    refine (perm_ext_iff_of_nodup (active_distinct ordered') (active_distinct ordered)).mpr
      fun memberId => ?_
    rw [mem_active sound' ordered', mem_active sound ordered, same]
  simpa using hperm.length_eq

/-! ## One member -/

/-- Every write of a rollover succeeds. -/
structure RolloverOutcome.Done (outcome : RolloverOutcome) : Prop where
  first : ∀ memberId, outcome.first memberId = .done
  second : ∀ memberId, outcome.second memberId = .done
  clear : ∀ memberId slot, outcome.clear memberId slot = .done

omit [Blake3] in
/-- A publication whose writes succeed leaves the member as it was, or ready to be cut. -/
theorem publishOne_done (done : outcome.Done) (memberId : Id) (claimed : Claimed) :
    (c.publishOne outcome memberId claimed).1 = claimed.member ∧
        (∀ found, (c.publishOne outcome memberId claimed).2 ≠ .anchor found) ∨
      ∃ tail found, (c.publishOne outcome memberId claimed).2 = .anchor found ∧
        claimed.journal.scanState.tail = some tail ∧
        c.publicationAnchor claimed.journal.scanState tail = some found ∧
        (c.publishOne outcome memberId claimed).1.mode = .writable ∧
        (c.publishOne outcome memberId claimed).1.frozen = false ∧
        (c.publishOne outcome memberId claimed).1.checkpointReclaimReady = true := by
  cases hone : c.publishOne outcome memberId claimed with
  | mk member report =>
    obtain hkept | ⟨tail, found, result, htail, hanchor, hpublish, hreport⟩ := publishOne_cases hone
    · exact .inl hkept
    obtain ⟨rfl, e, rfl⟩ | ⟨_, _, hmode, _, ⟨_, _, _, hfails⟩ | ⟨rfl, hlive, hready, _⟩⟩ :=
      publish_cases hpublish
    · exact .inl ⟨rfl, by simp_all⟩
    · -- with both writes done only the checks before them can fail
      simp [done.first, done.second, WriteOutcome.succeeds] at hfails
    · exact .inr ⟨tail, found, by simpa using hreport, htail, hanchor, hmode, hlive, hready⟩

/-- What the publication of an active member is reported as. -/
def publicationOf (memberId : Id) : PublishReport → Option Publication
  | .failed => none
  | .nothing => some ⟨memberId, none⟩
  | .anchor anchor => some ⟨memberId, some anchor⟩

theorem mem_publications (sound : SoundMembers c.set.supplied) (ordered : c.Ordered) :
    publication ∈ c.publications outcome ↔
      ∃ member ∈ c.set.supplied, ∃ journal, member.seat = some ⟨journal, true⟩ ∧
        publicationOf member.id (c.publishOne outcome member.id
          ⟨member.member, journal⟩).2 = some publication := by
  unfold publications
  rw [mem_filterMap]
  constructor
  · rintro ⟨participant, hparticipant, hreport⟩
    obtain ⟨member, hmember, journal, hseat, rfl⟩ := active_mem hparticipant
    refine ⟨member, hmember, journal, hseat, ?_⟩
    cases hpublish : (c.publishOne outcome member.id ⟨member.member, journal⟩).2 <;>
      simp_all [publicationOf]
  · rintro ⟨member, hmember, journal, hseat, hreport⟩
    refine ⟨⟨member.id, ⟨member.member, journal⟩, true⟩, mem_filter.mpr
      ⟨(mem_participants sound ordered).mpr ⟨member, hmember, ⟨journal, true⟩, hseat, rfl⟩,
        rfl⟩, ?_⟩
    cases hpublish : (c.publishOne outcome member.id ⟨member.member, journal⟩).2 <;>
      simp_all [publicationOf]

omit [Blake3] in
theorem publicationOf_memberId {report : PublishReport}
    (h : publicationOf memberId report = some publication) :
    publication.memberId = memberId := by
  cases report <;> simp [publicationOf] at h <;> rw [← h]

/-- The publication of a member is found by its identifier. -/
theorem find_publication (sound : SoundMembers c.set.supplied) (ordered : c.Ordered)
    (hmember : member ∈ c.set.supplied) (hseat : member.seat = some ⟨journal, true⟩) :
    (c.publications outcome).find? (fun publication =>
        publication.memberId = member.id) =
      publicationOf member.id (c.publishOne outcome member.id ⟨member.member, journal⟩).2 := by
  -- a publication with this identifier is that of the member
  have honly : ∀ publication ∈ c.publications outcome,
      publication.memberId = member.id → publicationOf member.id (c.publishOne outcome
        member.id ⟨member.member, journal⟩).2 = some publication := by
    intro publication hpublication hid
    obtain ⟨other, hother, opened, hopened, hreport⟩ :=
      (mem_publications sound ordered).mp hpublication
    obtain rfl : other = member := inj_on_of_nodup_map sound.distinct hother hmember
      ((publicationOf_memberId hreport).symm.trans hid)
    obtain ⟨rfl⟩ : opened = journal := by simpa using hopened.symm.trans hseat
    exact hreport
  cases hfind : (c.publications outcome).find? (fun publication =>
      publication.memberId = member.id) with
  | some publication =>
    exact (honly publication (mem_of_find?_eq_some hfind) (by simpa using find?_some hfind)).symm
  | none =>
    cases hreport : publicationOf member.id (c.publishOne outcome member.id
        ⟨member.member, journal⟩).2 with
    | none => rfl
    | some publication =>
      have hmem := (mem_publications sound ordered).mpr ⟨member, hmember, journal, hseat, hreport⟩
      exact absurd (publicationOf_memberId hreport)
        (by simpa using find?_eq_none.mp hfind publication hmem)

omit [Blake3] in
theorem publications_distinct (ordered : c.Ordered) (outcome : RolloverOutcome) :
    ((c.publications outcome).map Publication.memberId).Nodup := by
  refine (active_distinct ordered).sublist (map_filterMap_sublist ?_)
  intro participant _ publication hpublication
  split at hpublication
  · cases hpublication
  all_goals rw [← some.inj hpublication]

theorem find_publication_idle
    (sound : SoundMembers c.set.supplied) (hmember : member ∈ c.set.supplied)
    (idle : ¬ member.Active) :
    (c.publications outcome).find? (fun publication =>
      publication.memberId = member.id) = none := by
  refine find?_eq_none.mpr fun publication hpublication hid => idle ?_
  obtain ⟨other, hother, journal, hseat, hsame, _⟩ := publications_mem hpublication
  obtain rfl : other = member := inj_on_of_nodup_map sound.distinct hother hmember
    (hsame.symm.trans (by simpa using hid))
  exact ⟨journal, hseat⟩

/-- The anchor that is published is the tail, or the one that the journal has. -/
theorem publicationAnchor_known {first : Nat} {anchor : Option Nat}
    (h : Tracked claimed log first anchor) (live : claimed.member.frozen = false) {tail : Record}
    (htail : claimed.journal.scanState.tail = some tail)
    (hfound : c.publicationAnchor claimed.journal.scanState tail = some found)
    {index : Nat} (hat : anchorAt claimed.member.storage.slots.length log index = some found) :
    index = log.length - 1 ∧ found.record = tail ∨ claimed.journal.scanState.activeAnchor =
        anchorAt claimed.member.storage.slots.length log index := by
  have hlast : ∀ historyDigest,
      tailAnchor claimed.journal.scanState tail historyDigest = some found →
      index = log.length - 1 ∧ found.record = tail := by
    intro historyDigest htailed
    have hrecord : found.record = tail := by
      unfold tailAnchor at htailed
      split at htailed
      · rw [← some.inj htailed]
      · cases htailed
    obtain ⟨record, hget, rfl⟩ := map_eq_some_iff.mp hat
    obtain rfl : record = tail := hrecord
    rw [(h.view live).tail, getLast?_eq_getElem?] at htail
    have hindex := h.opened.linked.sequence hget
    have hend := h.opened.linked.sequence htail
    exact ⟨by omega, rfl⟩
  unfold publicationAnchor at hfound
  split at hfound
  · exact .inl (hlast _ hfound)
  split at hfound
  · rename_i active hactive
    rw [some.inj hfound] at hactive
    exact .inr (hactive.trans hat.symm)
  · split at hfound
    · exact .inl (hlast _ hfound)
    · cases hfound

/-- A member without an anchor to cut at is not cut. -/
theorem reclaimTo_uncut (outcome : RolloverOutcome)
    (h : ∀ publication, published.find? (fun publication =>
      publication.memberId = supplied.id) = some publication → publication.anchor = none) :
    (reclaimTo published outcome supplied).member = supplied.member ∧
      ∀ after, (reclaimTo published outcome supplied).seat = some after →
        ∃ seat, supplied.seat = some seat ∧ after.journal = seat.journal := by
  unfold reclaimTo
  split
  · rename_i seat publication hseat hfind
    simp only [reclaimOne, h publication hfind, true_and]
    refine fun after hafter => ⟨seat, hseat, ?_⟩
    rw [← some.inj hafter]
  · exact ⟨rfl, fun after hafter => ⟨after, hafter, rfl⟩⟩

theorem reclaimOne_done
    (h : reclaimPublishedAnchor claimed (outcome.clear memberId) = (after, .ok ())) :
    reclaimOne outcome ⟨memberId, some anchor⟩ claimed = (after, true) := by
  simp only [reclaimOne, h]

/-- **A member that published is cut when its writes succeed: it loses no free slot, and cutting at
the tail leaves all but two slots free.** -/
theorem published_cut (done : outcome.Done) (h : member.Reserve room)
    (hseat : member.seat = some ⟨journal, true⟩)
    (hreport : (c.publishOne outcome member.id ⟨member.member, journal⟩).2 = .anchor found) :
    ∃ after, reclaimPublishedAnchor
        ⟨(c.publishOne outcome member.id ⟨member.member, journal⟩).1, journal⟩
        (outcome.clear member.id) = (after, .ok ()) ∧
      ∀ cut : Supplied, cut.member = after.member →
        (∀ seat, cut.seat = some seat → seat.journal = after.journal) →
        cut.Reserve room ∧ (journal.scanState.tail = some found.record → cut.Reserve 3) := by
  rcases publishOne_done done member.id ⟨member.member, journal⟩ with
    ⟨_, hnothing⟩ | ⟨tail, other, hother, htail, hanchor, hmode, hlive, hready⟩
  · exact absurd hreport (hnothing found)
  obtain rfl : other = found := by simpa using hother.symm.trans hreport
  obtain ⟨log, anchor, spare⟩ := h
  have tracked := spare.seated _ hseat
  have hroots : c.PublishesRoot ⟨member.member, journal⟩ log (anchor.getD 1) :=
    publishesRoot_of_tracked tracked spare.live spare.roots
  have hpublish : c.publishOne outcome member.id ⟨member.member, journal⟩ = (_, .anchor other) :=
    Prod.ext rfl hreport
  obtain ⟨htracked, hnamed⟩ := publishOne_tracked tracked spare.live hroots hpublish
  obtain ⟨index, hat, hfirst, names, _⟩ := hnamed other rfl
  have hlength : (c.publishOne outcome member.id
      ⟨member.member, journal⟩).1.storage.slots.length = member.member.storage.slots.length :=
    (htracked.view hlive).count.symm.trans (tracked.view spare.live).count
  have hlt : index < log.length := by
    obtain ⟨record, hnames⟩ := names.named
    exact (List.getElem?_eq_some_iff.mp hnames.get).1
  have hknown := publicationAnchor_known tracked spare.live htail hanchor (hlength ▸ hat)
  obtain ⟨after, hreclaim, hafterLive, hcount, hsettled, hafter⟩ := htracked.reclaim_done names
    hfirst hlive hmode hready (hknown.imp And.left fun heq => heq.trans (by rw [hlength]))
    (done.clear member.id)
  have hcount : after.member.storage.slots.length = member.member.storage.slots.length :=
    hcount.trans hlength
  refine ⟨after, hreclaim, fun cut hmember hjournal => ?_⟩
  have hspare : ∀ less, less ≤ spareSlots member.member.storage.slots.length log (some index) →
      cut.Reserve less := by
    intro less hless
    refine ⟨log, some index, by rw [hmember]; exact hafterLive, by rw [hmember]; exact hsettled,
      fun seat hfound => ?_, spare.roots, by rw [hmember, hcount]; exact spare.size,
      by rw [hmember, hcount]; exact hless⟩
    rw [hmember, hjournal seat hfound]
    exact hafter
  refine ⟨hspare room (spare.room_le.trans (spareSlots_cut hfirst hlt)), fun hlast => ?_⟩
  refine hspare 3 ?_
  -- the tail is the last record of the log
  have hindex : index = log.length - 1 := by
    obtain ⟨record, hget, rfl⟩ := map_eq_some_iff.mp hat
    rw [(tracked.view spare.live).tail, getLast?_eq_getElem?] at hlast
    have hfound := tracked.opened.linked.sequence hget
    have hend := tracked.opened.linked.sequence hlast
    simp only at hend
    omega
  have hsize := spare.size
  simp only [spareSlots]
  omega

omit [Blake3] in
/-- A member that publishes no anchor stays as it is. -/
theorem publishTo_silent (done : outcome.Done)
    (hnothing : ∀ journal found, member.seat = some ⟨journal, true⟩ →
      (c.publishOne outcome member.id ⟨member.member, journal⟩).2 ≠ .anchor found) :
    (c.publishTo outcome member.forgot).member = member.member ∧
      ∀ seat, (c.publishTo outcome member.forgot).seat = some seat →
        ∃ before, member.seat = some before ∧ seat.journal = before.journal := by
  by_cases hactive : member.Active
  · obtain ⟨journal, hseat⟩ := hactive
    obtain ⟨hpublished, active, hkept⟩ :=
      publishTo_seated c outcome member.forgot hseat
    refine ⟨hpublished.trans ?_, fun seat hfound => ⟨_, hseat, ?_⟩⟩
    · rcases publishOne_done done member.id ⟨member.member, journal⟩ with
        ⟨hsame, _⟩ | ⟨_, found, hfound, _⟩
      · exact hsame
      · exact absurd hfound (hnothing journal found hseat)
    · rw [← Option.some.inj (hkept.symm.trans hfound)]
  · rw [publishTo_idle member.forgot hactive]
    exact ⟨rfl, fun seat hseat => ⟨seat, hseat, rfl⟩⟩

/-- What is reported of a member that publishes no anchor. -/
theorem find_publication_silent
    (sound : SoundMembers c.set.supplied) (ordered : c.Ordered) (hmember : member ∈ c.set.supplied)
    (hnothing : ∀ journal found, member.seat = some ⟨journal, true⟩ →
      (c.publishOne outcome member.id ⟨member.member, journal⟩).2 ≠ .anchor found)
    (h : (c.publications outcome).find? (fun publication =>
      publication.memberId = member.id) = some publication) : publication.anchor = none := by
  by_cases hactive : member.Active
  · obtain ⟨journal, hseat⟩ := hactive
    rw [find_publication sound ordered hmember hseat] at h
    cases hreport : (c.publishOne outcome member.id ⟨member.member, journal⟩).2 with
    | failed => simp [hreport, publicationOf] at h
    | nothing =>
      simp only [hreport, publicationOf, some.injEq] at h
      rw [← h]
    | anchor found => exact absurd hreport (hnothing journal found hseat)
  · rw [find_publication_idle sound hmember hactive] at h
    cases h

/-- **What a rollover does to a member when its writes succeed: it takes no slot, and cutting at the
tail leaves all but two slots free.** -/
theorem rolledOver_reserve (sound : SoundMembers c.set.supplied) (ordered : c.Ordered)
    (done : outcome.Done) (hmember : member ∈ c.set.supplied) (h : member.Reserve room) :
    (c.rolls outcome member).Reserve room ∧
    ∀ journal found, member.seat = some ⟨journal, true⟩ →
      journal.scanState.tail = some found.record →
      (c.publishOne outcome member.id ⟨member.member, journal⟩).2 = .anchor found →
      (c.rolls outcome member).Reserve 3 := by
  have hid := publishTo_id c outcome member.forgot
  by_cases hanchor : ∃ journal found, member.seat = some ⟨journal, true⟩ ∧
      (c.publishOne outcome member.id ⟨member.member, journal⟩).2 = .anchor found
  · obtain ⟨journal, found, hseat, hreport⟩ := hanchor
    obtain ⟨hpublished, active, hkept⟩ :=
      publishTo_seated c outcome member.forgot hseat
    obtain ⟨after, hreclaim, hcut⟩ := published_cut done h hseat hreport
    have hreported : (c.publications outcome).find? (fun publication =>
        publication.memberId = (c.publishTo outcome member.forgot).id) =
        some ⟨(c.publishTo outcome member.forgot).id, some found⟩ := by
      rw [hid]
      exact (find_publication sound ordered hmember hseat).trans (by rw [hreport]; rfl)
    have hafter : c.rolls outcome member =
        { c.publishTo outcome member.forgot with
          member := after.member, seat := some ⟨after.journal, active⟩ } := by
      rw [rolls, reclaimTo, hkept, hreported, hid, hpublished]
      have hone : reclaimOne outcome ⟨member.forgot.id, some found⟩ ⟨(c.publishOne outcome
          member.forgot.id ⟨member.forgot.member, journal⟩).1, journal⟩ = (after, true) :=
        reclaimOne_done hreclaim
      simp only [hone]
    obtain ⟨hroom, hthree⟩ := hcut _ (congrArg Supplied.member hafter) fun seat hfound => by
      rw [hafter] at hfound
      rw [← some.inj hfound]
    refine ⟨hroom, fun opened other hopened hlast hother => ?_⟩
    obtain ⟨rfl⟩ : journal = opened := by simpa using hseat.symm.trans hopened
    obtain rfl : found = other := by simpa using hreport.symm.trans hother
    exact hthree hlast
  · have hnothing : ∀ journal found, member.seat = some ⟨journal, true⟩ →
        (c.publishOne outcome member.id ⟨member.member, journal⟩).2 ≠ .anchor found :=
      fun journal found hseat hreport => hanchor ⟨journal, found, hseat, hreport⟩
    obtain ⟨hsame, hseats⟩ := publishTo_silent done hnothing
    have huncut : ∀ publication, (c.publications outcome).find? (fun publication =>
        publication.memberId = (c.publishTo outcome member.forgot).id) =
        some publication → publication.anchor = none := by
      intro publication hfound
      rw [hid] at hfound
      exact find_publication_silent sound ordered hmember hnothing hfound
    refine ⟨?_, fun journal found hseat _ hreport => absurd hreport (hnothing journal found hseat)⟩
    obtain ⟨hstays, hkept⟩ := reclaimTo_uncut outcome huncut
    refine h.relabel (hstays.trans hsame) fun after hafter => ?_
    obtain ⟨seat, hseat, hjournal⟩ := hkept after hafter
    obtain ⟨before, hbefore, hsame⟩ := hseats seat hseat
    exact ⟨before, hbefore, hjournal.trans hsame⟩

/-! ## Resuming -/

theorem spare_not_full {anchor : Option Nat} (h : supplied.Spare (room + 1) log anchor)
    (hseat : supplied.seat = some seat) : seat.journal.scanState.journalFull = false := by
  have tracked := h.seated seat hseat
  have clean : seat.journal.scanState.unresolvedTailDamage = false := by
    by_contra hdamage
    exact h.settled.clean ((tracked.damage h.live).mp (by simpa using hdamage))
  rw [(tracked.view h.live).full clean, decide_eq_false_iff_not]
  exact not_full_of_spare (fun index hanchor => ⟨(h.settled.root index hanchor).1,
    (h.settled.root index hanchor).2.1⟩) (Nat.lt_of_lt_of_le (Nat.succ_pos room) h.room_le)

/-- **Publishing the anchor that the journal has changes nothing but the header.** -/
theorem published_keeps (done : outcome.Done) (target : c.targetAnchorDigest = none)
    (normal : c.recoveryOnly = false) (h : member.Reserve room) :
    (c.publishTo outcome member.forgot).Reserve room := by
  by_cases hactive : member.Active
  · obtain ⟨journal, hseat⟩ := hactive
    obtain ⟨hmade, active, hkept⟩ := publishTo_seated c outcome member.forgot hseat
    have hpublished : (c.publishTo outcome member.forgot).member =
        (c.publishOne outcome member.id ⟨member.member, journal⟩).1 := hmade
    have hseats : ∀ seat, (c.publishTo outcome member.forgot).seat =
        some seat → seat.journal = journal := fun seat hfound => by
      rw [← some.inj (hkept.symm.trans hfound)]
    rcases publishOne_done done member.id ⟨member.member, journal⟩ with
      ⟨hsame, _⟩ | ⟨tail, found, hreport, htail, hanchor, _, hlive, _⟩
    · exact h.relabel (hpublished.trans hsame) fun seat hfound => ⟨_, hseat, hseats seat hfound⟩
    · obtain ⟨log, anchor, spare⟩ := h
      have tracked := spare.seated _ hseat
      have hroots : c.PublishesRoot ⟨member.member, journal⟩ log (anchor.getD 1) :=
        publishesRoot_of_tracked tracked spare.live spare.roots
      have hpublish : c.publishOne outcome member.id ⟨member.member, journal⟩ =
          (_, .anchor found) := Prod.ext rfl hreport
      obtain ⟨htracked, hnamed⟩ := publishOne_tracked tracked spare.live hroots hpublish
      obtain ⟨index, hat, _, names, hboth⟩ := hnamed found rfl
      have hslots := (publishOne_kept c outcome member.id ⟨member.member, journal⟩).2
      -- the anchor is that of the journal
      obtain rfl : anchor = some index := by
        rw [publicationAnchor, target] at hanchor
        simp only [normal, Bool.false_eq_true, if_false] at hanchor
        split at hanchor
        · rename_i chosen hchosen
          rw [(tracked.view spare.live).activeAnchor, bind_eq_some_iff] at hchosen
          obtain ⟨other, hother, hgot⟩ := hchosen
          cases hanchor
          obtain ⟨record, hget, hrecord⟩ := map_eq_some_iff.mp hat
          obtain ⟨record', hget', hrecord'⟩ := map_eq_some_iff.mp hgot
          obtain rfl : record = record' := congrArg AnchorState.record (hrecord.trans hrecord'.symm)
          have hfound := tracked.opened.linked.sequence hget
          have hsame := tracked.opened.linked.sequence hget'
          rw [hother]
          congr 1
          omega
        · cases hanchor
      refine ⟨log, some index, by rw [hpublished]; exact hlive, ?_, fun seat hfound => ?_,
        spare.roots, ?_, ?_⟩
      · rw [hpublished]
        exact ⟨hboth, names, by rw [hslots]; exact spare.settled.holds,
          by rw [hslots]; exact spare.settled.clean⟩
      · rw [hpublished, hseats seat hfound]
        exact htracked
      · rw [hpublished]
        exact hslots ▸ spare.size
      · rw [hpublished]
        exact hslots ▸ spare.room_le
  · rw [publishTo_idle member.forgot hactive]
    exact h.relabel rfl fun seat hseat => ⟨seat, hseat, rfl⟩

variable (sound : SoundMembers c.set.supplied) (ordered : c.Ordered) (h : Reserved c.set.supplied)
  (nothing : c.pendingAnchor = none)
include sound ordered h nothing

/-- While an active member has a free slot there is no checkpoint to cut the journals at. -/
theorem targetAnchorDigest_none (hmember : member ∈ c.set.supplied) (active : member.Active) :
    c.targetAnchorDigest = none := by
  obtain ⟨journal, hseat⟩ := active
  have hfree : journal.scanState.journalFull = false := by
    obtain ⟨log, anchor, spare⟩ := h member hmember
    exact spare_not_full spare hseat
  have hparticipant : (⟨member.id, ⟨member.member, journal⟩, true⟩ : Participant) ∈
      c.activeParticipants :=
    mem_filter.mpr ⟨(mem_participants sound ordered).mpr
      ⟨member, hmember, ⟨journal, true⟩, hseat, rfl⟩, rfl⟩
  have hall : ¬ (c.activeParticipants.map fun participant =>
      participant.claimed.journal.scanState).all (fullAt c.set.authority) := by
    intro hfull
    have := all_eq_true.mp hfull _ (mem_map_of_mem hparticipant)
    simp [fullAt, hfree] at this
  have hinfer : c.inferAnchorTransition = .none := by
    unfold inferAnchorTransition
    simp only
    split
    · rfl
    · split
      · rfl
      · rfl
  simp [targetAnchorDigest, nothing, hinfer]

/-- A publication that not enough members took part in leaves the free slots. -/
theorem published_reserved (done : outcome.Done)
    (stopped : checkAnchorQuorum c.recoveryOnly c.requiredParticipants (c.publications outcome)
      ((c.publications outcome).map Publication.memberId) ≠ .ok true) :
    Reserved (c.published outcome).set.supplied := by
  intro member hmember
  obtain ⟨forgot, hforgot, rfl⟩ := mem_map.mp hmember
  obtain ⟨before, hbefore, rfl⟩ := mem_map.mp hforgot
  have hidle : (∀ journal found, before.seat = some ⟨journal, true⟩ →
      (c.publishOne outcome before.id ⟨before.member, journal⟩).2 ≠ .anchor found) →
      (c.publishTo outcome before.forgot).Reserve 1 := by
    intro hnothing
    obtain ⟨hsame, hseats⟩ := publishTo_silent done hnothing
    exact (h before hbefore).relabel hsame hseats
  cases hmode : c.recoveryOnly with
  | true =>
    -- in recovery one publication is enough
    have hnobody : c.publications outcome = [] := by
      by_contra hsome
      refine stopped ?_
      have hpos := length_pos_iff.mpr hsome
      simp only [checkAnchorQuorum, requiredParticipants, hmode, if_true, length_map]
      rw [if_neg (by omega)]
    refine hidle fun journal found hseat hreport => ?_
    have hpublished := (mem_publications sound ordered).mpr
      ⟨before, hbefore, journal, hseat, by rw [hreport]; rfl⟩
    rw [hnobody] at hpublished
    cases hpublished
  | false =>
    by_cases hactive : before.Active
    · exact published_keeps done (targetAnchorDigest_none sound ordered h nothing hbefore hactive) hmode
        (h before hbefore)
    · exact hidle fun journal _ hseat => absurd ⟨journal, hseat⟩ hactive

/-- **Resuming a rollover takes no slot, wherever it stops.** -/
theorem resumeRolloverLocked_reserved (done : outcome.Done) :
    Reserved (c.resumeRolloverLocked outcome).1.set.supplied := by
  have hstopped := published_reserved sound ordered h nothing done
  have hrolled : Reserved (c.rolledOver outcome).set.supplied := by
    intro member hmember
    obtain ⟨middle, hmiddle, rfl⟩ := mem_map.mp hmember
    obtain ⟨forgot, hforgot, rfl⟩ := mem_map.mp hmiddle
    obtain ⟨before, hbefore, rfl⟩ := mem_map.mp hforgot
    exact (rolledOver_reserve sound ordered done hbefore (h before hbefore)).1
  unfold resumeRolloverLocked
  simp only
  split
  · exact h
  split
  · exact h
  split
  · rename_i e hcheck
    exact hstopped (by simp [hcheck])
  · rename_i hcheck
    exact hstopped (by simp [hcheck])
  unfold finishRollover
  simp only
  split
  · exact hrolled
  · exact hrolled
  · exact hrolled.of_contents (noteAuthority_contents _ _ _)

theorem resumeRollover_reserved (done : outcome.Done) :
    Reserved (c.resumeRollover outcome).1.set.supplied := by
  unfold resumeRollover
  split
  · exact h
  · split
    · exact h
    · exact resumeRolloverLocked_reserved sound ordered h nothing done

end Zettide.ReplicatedJournal
