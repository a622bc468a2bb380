import Zettide.Catalog.Staging
import Zettide.Catalog.Sweep

/-! # Quarantine over a chain of catalogs

A transition is checked between two consecutive generations only. Over a whole chain this keeps
space in quarantine: an extent that one logical extent owned is not given to another one before it
was retired, by the first generation that no longer has it, and a metadata page is not filled with
other bytes before the same happened to it. The argument is local: at the last generation that
still has the old owner, the only step that takes the extent away retires it there and then. -/

namespace Zettide.PoolCatalogGraph

open PoolCatalog PoolCatalogPage List MetadataState PhysicalState PoolCatalogStore Holding
open MetadataRegion PageReference

/-- A property that holds at one index and not at a later one is lost at an index in between, for
good; what every loss comes with holds there. -/
theorem exists_loss {P Q : Nat → Prop} {first final : Nat} (hfirst : P first) (hlt : first < final)
    (hfinal : ¬ P final) (hloss : ∀ index < final, P index → ¬ P (index + 1) → Q (index + 1)) :
    ∃ index, first < index ∧ index ≤ final ∧ P (index - 1) ∧
      (∀ later, index ≤ later → later ≤ final → ¬ P later) ∧ Q index := by
  induction final, hlt using Nat.le_induction with
  | base =>
    refine ⟨first + 1, by omega, le_rfl, hfirst, fun later hlow hhigh => ?_,
      hloss first (by omega) hfirst hfinal⟩
    obtain rfl : later = first + 1 := by omega
    exact hfinal
  | succ final hle ih =>
    by_cases hprevious : P final
    · refine ⟨final + 1, by omega, le_rfl, hprevious, fun later hlow hhigh => ?_,
        hloss final (by omega) hprevious hfinal⟩
      obtain rfl : later = final + 1 := by omega
      exact hfinal
    obtain ⟨index, hlow, hhigh, hlast, hnone, hlost⟩ :=
      ih hprevious fun index hlt => hloss index (by omega)
    refine ⟨index, hlow, by omega, hlast, fun later hlater hbound => ?_, hlost⟩
    by_cases heq : later = final + 1
    · exact heq ▸ hfinal
    · exact hnone later hlater (by omega)

/-! ## What a catalog says about an extent and about a page -/

/-- The extent of a slot backs the given extent of a volume. -/
def Owns (catalog : ValidatedCatalog) (slot ordinal : Nat) (owner : Mapping) : Prop :=
  ∃ entry ∈ catalog.runs, (ofRun entry.2).Covers slot ordinal ∧
    owner = ⟨entry.1, entry.2.logicalStart + (ordinal - entry.2.physicalStart)⟩

/-- The extent of a slot is retired, since the given generation. -/
def RetiredAt (catalog : ValidatedCatalog) (slot ordinal generation : Nat) : Prop :=
  ∃ interval ∈ catalog.retired, (ofInterval interval).Covers slot ordinal ∧
    interval.retiredGeneration = generation

/-- The page is used, for bytes with the given digest. -/
def UsesPage (catalog : ValidatedCatalog) (page : Nat) (digest : Digest) : Prop :=
  ∃ reference ∈ catalog.currentPages, reference.offset / pageSize = page ∧ reference.digest = digest

/-- The page is retired, since the given generation. -/
def PageRetiredAt (catalog : ValidatedCatalog) (page generation : Nat) : Prop :=
  ∃ interval ∈ catalog.metadata, interval.state = .retired ∧
    rangeContains interval.pageStart interval.pageCount page ∧
    interval.retiredGeneration = generation

variable {catalog : ValidatedCatalog} {ordinal : Nat} {owner : Mapping} {slot : Nat}

theorem retiredAt_of_state {generation : Nat}
    (h : physicalStateAt catalog slot ordinal = .retired generation) :
    RetiredAt catalog slot ordinal generation := by
  rw [physicalStateAt, ← findRun] at h
  split at h
  · cases h
  split at h
  case h_1 interval hfind =>
    have hfound := find?_some hfind
    obtain ⟨hslot, hwithin⟩ := by simpa only [decide_eq_true_eq] using hfound
    exact ⟨interval, mem_of_find?_eq_some hfind, ⟨by simp [ofInterval, hslot], hwithin⟩,
      retired.inj h⟩
  case h_2 => split at h <;> cases h

theorem owns_of_state (h : physicalStateAt catalog slot ordinal = .mapped owner) :
    Owns catalog slot ordinal owner := by
  rw [physicalStateAt, ← findRun] at h
  split at h
  · cases h
  split at h
  · cases h
  split at h
  case h_1 volumeId run hfind =>
    have hfound := find?_some hfind
    simp only [decide_eq_true_eq] at hfound
    exact ⟨(volumeId, run), mem_of_find?_eq_some hfind, hfound, (mapped.inj h).symm⟩
  case h_2 => cases h

theorem usesPage_of_state {page : Nat} {digest : Digest}
    (h : metadataStateAt catalog page = .used digest) : UsesPage catalog page digest := by
  unfold metadataStateAt at h
  split at h
  case h_1 reference hfind =>
    have hfound := find?_some hfind
    simp only [decide_eq_true_eq] at hfound
    exact ⟨reference, mem_of_find?_eq_some hfind, hfound, used.inj h⟩
  case h_2 =>
    split at h
    case h_1 interval hfind => cases hstate : interval.state <;> rw [hstate] at h <;> cases h
    case h_2 => cases h

theorem pageRetiredAt_of_state {page generation : Nat}
    (h : metadataStateAt catalog page = .retired generation) :
    PageRetiredAt catalog page generation := by
  unfold metadataStateAt at h
  split at h
  · cases h
  split at h
  case h_1 interval hfind =>
    have hfound := find?_some hfind
    have hwithin := by simpa only [decide_eq_true_eq] using hfound
    cases hstate : interval.state with
    | free => rw [hstate] at h; cases h
    | retired =>
      rw [hstate] at h
      exact ⟨interval, mem_of_find?_eq_some hfind, hstate, hwithin, retired.inj h⟩
  case h_2 => cases h

instance : Std.Symm fun a b : Id × ExtentRun =>
    (ofRun a.2).Apart (ofRun b.2) :=
  ⟨fun _ _ h slot ordinal hboth => h slot ordinal ⟨hboth.2, hboth.1⟩⟩

variable [Codec] {binding : AuthorityBinding} {graph : Graph} {members : List MemberGeometry}
  {protectedPages : List PageReference} {catalog : ValidatedCatalog}

/-- In an accepted catalog the owner of an extent is its state. -/
theorem Accepted.state_of_owns (h : Accepted binding graph members protectedPages catalog)
    (howns : Owns catalog slot ordinal owner) :
    physicalStateAt catalog slot ordinal = .mapped owner := by
  obtain ⟨entry, hmem, hcovers, rfl⟩ := howns
  have hholdings := h.owned.holdings
  obtain ⟨hruns, -, hcross⟩ := pairwise_append.mp hholdings
  rw [pairwise_map] at hruns
  -- No interval covers what the run covers, and no other run does.
  obtain ⟨hfree, hretired⟩ : findInterval catalog.free slot ordinal = none ∧ _ := by
    refine findInterval_eq_none ?_
    rintro interval hlisted ⟨rfl, hwithin⟩
    refine hcross _ (mem_map.mpr ⟨entry, hmem, rfl⟩) (.ofInterval interval) ?_ _ ordinal
      ⟨hcovers, by simp [ofInterval], hwithin⟩
    rw [← map_append]
    exact mem_map_of_mem hlisted
  have hrun : findRun catalog slot ordinal = some entry := by
    rcases hfind : findRun catalog slot ordinal with _ | found
    · exact absurd (decide_eq_true hcovers) (find?_eq_none.mp hfind entry hmem)
    have hfound := find?_some hfind
    simp only [decide_eq_true_eq] at hfound
    have hother : (ofRun found.2).Covers slot ordinal := hfound
    by_contra hne
    exact hruns.forall (mem_of_find?_eq_some hfind) hmem (fun heq => hne (heq ▸ rfl)) slot
      ordinal ⟨hother, hcovers⟩
  rw [physicalStateAt, ← findRun, hfree, hretired, hrun]

section

variable (h : Accepted binding graph members protectedPages catalog) {page : Nat} {digest : Digest}
  (huses : UsesPage catalog page digest)
include h huses

/-- In an accepted catalog the digest of a used page is its state. -/
theorem Accepted.state_of_usesPage : metadataStateAt catalog page = .used digest := by
  obtain ⟨reference, hmem, rfl, rfl⟩ := huses
  have hfind : (catalog.currentPages.find? fun other =>
      other.offset / pageSize = reference.offset / pageSize) = some reference := by
    cases hfind : catalog.currentPages.find? fun other =>
        other.offset / pageSize = reference.offset / pageSize with
    | none => exact absurd (decide_eq_true rfl) (find?_eq_none.mp hfind reference hmem)
    | some found =>
      have hfound := find?_some hfind
      simp only [decide_eq_true_eq] at hfound
      have hmem' := mem_of_find?_eq_some hfind
      have haligned := (aligned_of_validate (h.pageValid hmem) (h.resolved.page reference hmem)).2
      have haligned' := (aligned_of_validate (h.pageValid hmem') (h.resolved.page found hmem')).2
      have hoffset : found.offset = reference.offset := by
        simp only [pageSize] at *
        omega
      exact congrArg some (inj_on_of_nodup_map h.resolved.distinct hmem' hmem hoffset)
  unfold metadataStateAt
  rw [hfind]

theorem Accepted.usesPage_inside : 2 ≤ page ∧ page < catalog.metadataPageCount := by
  obtain ⟨reference, hmem, rfl, -⟩ := huses
  exact h.pageRanges_inside (reference.offset / pageSize, 1)
    (mem_append_left _ (mem_map.mpr ⟨reference, hmem, rfl⟩))

end

/-! ## Chains -/

/-- The catalog of one generation as the checks are given it. -/
structure Stage where
  binding : AuthorityBinding
  graph : Graph
  members : List MemberGeometry
  deriving DecidableEq, Repr

def Stage.validate (stage : Stage) : Except CatalogError ValidatedCatalog :=
  validateGraph stage.binding stage.graph stage.members

def Stage.validateNext [Blake3] (stage next : Stage) : Except CatalogError ValidatedCatalog :=
  validateTransition stage.binding stage.graph stage.members next.binding next.graph next.members

/-- Catalogs of which each was accepted as the successor of the one before it. -/
structure CatalogChain [Blake3] where
  stage : Nat → Stage
  catalog : Nat → ValidatedCatalog
  last : Nat
  first : (stage 0).validate = .ok (catalog 0)
  follows : ∀ index < last,
    (stage index).validateNext (stage (index + 1)) = .ok (catalog (index + 1))

variable [Blake3]

theorem validateNext_eq_ok {stage next : Stage} {current : ValidatedCatalog}
    (h : stage.validateNext next = .ok current) :
    ∃ previous, stage.validate = .ok previous ∧
      Accepted next.binding next.graph next.members [] current ∧
      validateSnapshots previous current = .ok () := by
  simp only [Stage.validateNext, validateTransition, ok_iff] at h
  obtain ⟨previous, hprevious, found, hcurrent, _, -, _, -, -, _, -, _, -, -, hsnapshots, rfl⟩ := h
  exact ⟨previous, hprevious, (accepted_iff.mp hcurrent).unprotected, hsnapshots⟩

namespace CatalogChain

variable (chain : CatalogChain)

variable {index page : Nat} {digest : Digest}

theorem accepted (h : index ≤ chain.last) :
    Accepted (chain.stage index).binding (chain.stage index).graph (chain.stage index).members []
      (chain.catalog index) := by
  cases index with
  | zero => exact accepted_iff.mp chain.first
  | succ index =>
    obtain ⟨-, -, haccepted, -⟩ := validateNext_eq_ok (chain.follows index h)
    exact haccepted

theorem snapshots (h : index < chain.last) :
    validateSnapshots (chain.catalog index) (chain.catalog (index + 1)) = .ok () := by
  obtain ⟨previous, hprevious, -, hsnapshots⟩ := validateNext_eq_ok (chain.follows index h)
  have hsame : (chain.stage index).validate = .ok (chain.catalog index) :=
    accepted_iff.mpr (chain.accepted h.le)
  obtain rfl := Except.ok.inj (hsame.symm.trans hprevious)
  exact hsnapshots

theorem generation (h : index ≤ chain.last) :
    (chain.catalog index).root.generation = (chain.catalog 0).root.generation + index := by
  induction index with
  | zero => rfl
  | succ index ih =>
    have hheads := (validateSnapshots_eq_ok.mp (chain.snapshots h)).1
    rw [hheads.generation.2, ih (by omega), Nat.add_assoc]

section

variable (h : index < chain.last)
include h

/-- The rule for one extent, at one step of the chain. -/
theorem physical (slot ordinal : Nat) :
    physicalCheck (chain.catalog index) (chain.catalog (index + 1)) slot ordinal = .ok () := by
  have haccepted := chain.accepted h.le
  exact ((validateSnapshots_iff haccepted (chain.accepted h)).mp (chain.snapshots h)).2.1 slot
    ordinal

/-- The rule for one metadata page, at one step of the chain. -/
theorem metadata (hlow : 2 ≤ page) (hhigh : page < (chain.catalog index).metadataPageCount) :
    metadataCheck (chain.catalog index) (chain.catalog (index + 1)) page = .ok () := by
  have haccepted := chain.accepted h.le
  exact ((validateSnapshots_iff haccepted (chain.accepted h)).mp (chain.snapshots h)).2.2 page hlow
    hhigh

/-- The step that takes an extent from its owner retires it. -/
theorem retired_of_disowned (howns : Owns (chain.catalog index) slot ordinal owner)
    (hlost : ¬ Owns (chain.catalog (index + 1)) slot ordinal owner) :
    physicalStateAt (chain.catalog (index + 1)) slot ordinal =
      .retired (chain.catalog (index + 1)).root.generation := by
  have hrule := chain.physical h slot ordinal
  rw [physicalCheck, (chain.accepted h.le).state_of_owns howns] at hrule
  cases hafter : physicalStateAt (chain.catalog (index + 1)) slot ordinal with
  | absent | free => rw [hafter] at hrule; cases hrule
  | retired generation =>
    rw [hafter] at hrule
    simp only [validatePhysicalStateChange, rejectIf_eq_ok, ne_eq, not_not] at hrule
    rw [hrule]
  | mapped other =>
    rw [hafter] at hrule
    simp only [validatePhysicalStateChange, rejectIf_eq_ok, ne_eq, not_not] at hrule
    exact absurd (owns_of_state (hrule ▸ hafter)) hlost

/-- The step that takes a page out of use retires it. -/
theorem pageRetired_of_unused (huses : UsesPage (chain.catalog index) page digest)
    (hlost : ¬ UsesPage (chain.catalog (index + 1)) page digest) :
    metadataStateAt (chain.catalog (index + 1)) page =
      .retired (chain.catalog (index + 1)).root.generation := by
  have haccepted := chain.accepted h.le
  obtain ⟨hlow, hhigh⟩ := haccepted.usesPage_inside huses
  have hrule := chain.metadata h hlow hhigh
  rw [metadataCheck, haccepted.state_of_usesPage huses] at hrule
  cases hafter : metadataStateAt (chain.catalog (index + 1)) page with
  | absent | free => rw [hafter] at hrule; cases hrule
  | retired generation =>
    rw [hafter] at hrule
    simp only [validateMetadataStateChange, rejectIf_eq_ok, ne_eq, not_not] at hrule
    rw [hrule]
  | used other =>
    rw [hafter] at hrule
    simp only [validateMetadataStateChange, rejectIf_eq_ok, ne_eq, not_not] at hrule
    exact absurd (usesPage_of_state (hrule ▸ hafter)) hlost

end

/-- An extent that changed its owner was retired in between, by the generation behind the last one
of the old owner. -/
theorem extent_retired {before after : Nat} {other : Mapping} (hlt : before < after)
    (hlast : after ≤ chain.last) (howns : Owns (chain.catalog before) slot ordinal owner)
    (hother : Owns (chain.catalog after) slot ordinal other) (hne : owner ≠ other) :
    ∃ index, before < index ∧ index < after ∧ Owns (chain.catalog (index - 1)) slot ordinal owner ∧
      (∀ later, index ≤ later → later ≤ after → ¬ Owns (chain.catalog later) slot ordinal owner) ∧
      RetiredAt (chain.catalog index) slot ordinal (chain.catalog index).root.generation := by
  have hfinal := (chain.accepted hlast).state_of_owns hother
  have hnot : ¬ Owns (chain.catalog after) slot ordinal owner := fun hsame =>
    hne (mapped.inj (((chain.accepted hlast).state_of_owns hsame).symm.trans hfinal))
  obtain ⟨index, hlow, hhigh, hlastOwns, hnone, hretired⟩ := exists_loss
    (P := fun index => Owns (chain.catalog index) slot ordinal owner)
    (Q := fun index => physicalStateAt (chain.catalog index) slot ordinal =
      .retired (chain.catalog index).root.generation) howns hlt hnot
    fun _ hlt => chain.retired_of_disowned (hlt.trans_le hlast)
  have hbetween : index ≠ after := by
    rintro rfl
    rw [hfinal] at hretired
    cases hretired
  exact ⟨index, hlow, by omega, hlastOwns, hnone, retiredAt_of_state hretired⟩

/-- A page that changed its content was retired in between, by the generation that first omitted
it. -/
theorem page_retired {before after : Nat} {other : Digest} (hlt : before < after)
    (hlast : after ≤ chain.last) (huses : UsesPage (chain.catalog before) page digest)
    (hother : UsesPage (chain.catalog after) page other) (hne : digest ≠ other) :
    ∃ index, before < index ∧ index < after ∧ UsesPage (chain.catalog (index - 1)) page digest ∧
      (∀ later, index ≤ later → later ≤ after → ¬ UsesPage (chain.catalog later) page digest) ∧
      PageRetiredAt (chain.catalog index) page (chain.catalog index).root.generation := by
  have hfinal := (chain.accepted hlast).state_of_usesPage hother
  have hnot : ¬ UsesPage (chain.catalog after) page digest := fun hsame =>
    hne (used.inj (((chain.accepted hlast).state_of_usesPage hsame).symm.trans hfinal))
  obtain ⟨index, hlow, hhigh, hlastUses, hnone, hretired⟩ := exists_loss
    (P := fun index => UsesPage (chain.catalog index) page digest)
    (Q := fun index => metadataStateAt (chain.catalog index) page =
      .retired (chain.catalog index).root.generation) huses hlt hnot
    fun _ hlt => chain.pageRetired_of_unused (hlt.trans_le hlast)
  have hbetween : index ≠ after := by
    rintro rfl
    rw [hfinal] at hretired
    cases hretired
  exact ⟨index, hlow, by omega, hlastUses, hnone, pageRetiredAt_of_state hretired⟩

/-- The page of a generation that is used for the given bytes. -/
def Holds (index page : Nat) (block : Block) : Prop :=
  ∃ reference ∈ (chain.catalog index).currentPages, reference.offset / pageSize = page ∧
    resolveReference (chain.stage index).graph reference = .ok block

theorem Holds.usesPage {chain : CatalogChain} {block : Block} (h : chain.Holds index page block) :
    UsesPage (chain.catalog index) page (Codec.blake3 block.bytes) := by
  obtain ⟨reference, hmem, hpage, hresolve⟩ := h
  obtain ⟨-, image, -, hdigest, rfl⟩ := resolveReference_eq_ok.mp hresolve
  exact ⟨reference, hmem, hpage, hdigest.symm⟩

/-- Staging a generation writes over no page of the one before it. -/
theorem staging_spares (h : index < chain.last) {region : MetadataRegion}
    {authority : PoolAuthority.Authority} {staging : Staging}
    (hstage : stageTransition region authority (chain.catalog index)
      (chain.catalog (index + 1)) (chain.stage (index + 1)).graph = .ok staging)
    {write : RegionWrite} (hwrite : write ∈ staging.writes)
    {reference : PageReference} (href : reference ∈ (chain.catalog index).currentPages) :
    write.offset + blockSize ≤ reference.offset ∨ reference.offset + blockSize ≤ write.offset := by
  simp only [stageTransition, stagePages, ok_iff] at hstage
  obtain ⟨selection, -, -, -, _, ⟨writes, hwrites, -, rfl⟩, rfl⟩ := hstage
  obtain ⟨-, haligned, hroots⟩ := page_offset (chain.accepted h.le).resolved href
  rcases mem_append.mp hwrite with hpage | hroot
  · obtain ⟨target, htarget, hfresh, image, -, rfl⟩ :=
      (stageEach_eq_ok hwrites).2.1 write hpage
    have htargetAligned := (page_offset (chain.accepted h).resolved htarget).2.1
    exact apart_of_aligned haligned htargetAligned fun heq => hfresh reference href heq.symm
  · obtain rfl := mem_singleton.mp hroot
    exact apart_of_aligned haligned (rootOffset_aligned _) (hroots _)

end CatalogChain

end Zettide.PoolCatalogGraph
