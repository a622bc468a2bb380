import Zettide.Catalog.Resolved
import Zettide.Lib.Intervals

/-! # What an accepted catalog says about space

A graph that `validateGraph` accepts accounts for all space exactly once. Every metadata page
behind the two root copies is used by one reference, or lies in one free or one retired interval.
Every physical extent of a member backs at most one logical extent, or is free, or is retired, and
the counters of the volumes are the sizes of what their maps cover.

The checks compare each element of a list with the one before it, or with all before it; from both
follows that no two elements overlap. That the metadata pages are covered is only checked by a
total, so it comes from counting. -/

namespace Zettide

open PoolCatalog PoolCatalogPage Intervals Prod List PageReference MetadataInterval Sample Function

/-! ## Checks over lists -/

/-- A check against all earlier elements relates every two elements. -/
theorem forAllWithPrevious_pairwise {α : Type} {check : List α → α → Except CatalogError Unit}
    {R : α → α → Prop} (hcheck : ∀ previous a, check previous a = .ok () → ∀ b ∈ previous, R b a)
    {list : List α} : ∀ {previous : List α}, forAllWithPrevious check previous list = .ok () →
      list.Pairwise R ∧ ∀ b ∈ previous, ∀ a ∈ list, R b a := by
  induction list with
  | nil => simp
  | cons a rest ih =>
    intro previous h
    simp only [forAllWithPrevious, ok_iff] at h
    obtain ⟨hrest, hearlier⟩ := ih h.2
    refine ⟨pairwise_cons.mpr ⟨fun b hb => hearlier a (by simp) b hb, hrest⟩, ?_⟩
    intro b hb c hc
    rcases mem_cons.mp hc with rfl | hc
    · exact hcheck previous c h.1 b hb
    · exact hearlier b (by simp [hb]) c hc

variable {intervals : List MetadataInterval}

namespace PoolCatalogPage

/-- The chain of an optional first element and a list. -/
theorem isChain_withPrevious {α : Type} {order : α → α → Except CatalogError Unit}
    {previous : Option α} {entry : α} {rest : List α} :
    (previous.toList ++ entry :: rest).IsChain (fun a b => order a b = .ok ()) ↔
      withPrevious order previous entry = .ok () ∧
        ((some entry).toList ++ rest).IsChain (fun a b => order a b = .ok ()) := by
  cases previous <;> simp [withPrevious]

/-- Every element passes its check, and so does every element with the one before it. -/
theorem checkOrdered_eq_ok {α : Type} {check : α → Except CatalogError Unit}
    {order : α → α → Except CatalogError Unit} {list : List α} :
    ∀ {previous : Option α}, checkOrdered check order previous list = .ok () ↔
      (∀ a ∈ list, check a = .ok ()) ∧
        (previous.toList ++ list).IsChain (fun a b => order a b = .ok ()) := by
  induction list with
  | nil =>
    intro previous
    cases previous <;> simp [checkOrdered]
  | cons a rest ih =>
    intro previous
    simp only [checkOrdered, ok_iff, ih, forall_mem_cons, isChain_withPrevious]
    tauto

theorem decodeEntries_mem {α : Type} {decode : List UInt8 → Except CatalogError α}
    {order : α → α → Except CatalogError Unit} {encoded : List (List UInt8)} :
    ∀ {previous : Option α} {entries : List α},
      decodeEntries decode order previous encoded = .ok entries →
      ∀ entry ∈ entries, ∃ bytes, decode bytes = .ok entry := by
  induction encoded with
  | nil =>
    intro previous entries h
    cases h
    simp
  | cons bytes rest ih =>
    intro previous entries h
    simp only [decodeEntries, ok_iff] at h
    obtain ⟨first, hfirst, -, others, hothers, rfl⟩ := h
    intro entry hmem
    rcases mem_cons.mp hmem with rfl | hrest
    · exact ⟨bytes, hfirst⟩
    · exact ih hothers entry hrest

/-! ## Metadata intervals -/

theorem validateMetadataIntervals_eq_ok {currentPages recoverablePages : List PageReference}
    {lengths : List Nat} :
    ∀ {previous : Option MetadataInterval},
      validateMetadataIntervals currentPages recoverablePages lengths previous intervals = .ok () ↔
        (∀ interval ∈ intervals, validateMetadataInterval maxU64 interval = .ok () ∧
          validateMetadataIntervalForMembers currentPages recoverablePages lengths interval =
            .ok ()) ∧
        (previous.toList ++ intervals).IsChain fun a b => validateMetadataOrder a b = .ok () := by
  induction intervals with
  | nil =>
    intro previous
    cases previous <;> simp [validateMetadataIntervals]
  | cons interval rest ih =>
    intro previous
    simp only [validateMetadataIntervals, ok_iff, ih, forall_mem_cons, isChain_withPrevious]
    tauto

/-- The first interval ends before the second one begins. -/
def MetadataInterval.Before (a b : MetadataInterval) : Prop :=
  a.pageStart + a.pageCount ≤ b.pageStart

instance : IsTrans MetadataInterval Before :=
  ⟨fun a b c hab hbc => by unfold Before at *; omega⟩

theorem validateMetadataOrder_eq_ok {a b : MetadataInterval}
    (h : validateMetadataOrder a b = .ok ()) : a.Before b := by
  simp only [validateMetadataOrder, addU64, ok_iff] at h
  obtain ⟨_, ⟨-, rfl⟩, horder, -⟩ := h
  exact not_lt.mp horder

end PoolCatalogPage

namespace PoolCatalogGraph

section

variable [Codec]

/-! ## Leaf pages -/

/-- The content comes from a page of the graph that is not younger than the root. -/
def Leaf {α : Type} (graph : Graph) (rootGeneration : Nat) (kind : Kind)
    (decode : Block → Except CatalogError α) (reference : PageReference) (content : α) : Prop :=
  ∃ block, resolveReference graph reference = .ok block ∧
    validateLeafGeneration block kind rootGeneration = .ok () ∧ decode block = .ok content

/-- The content comes from a page of the graph, or there is no page and it is empty. -/
def OptionalLeaf {α : Type} (graph : Graph) (rootGeneration : Nat) (kind : Kind)
    (decode : Block → Except CatalogError (List α)) (reference : PageReference)
    (content : List α) : Prop :=
  (reference.isNull ∧ content = []) ∨ Leaf graph rootGeneration kind decode reference content

variable {rootGeneration : Nat} {pages' pages : List PageReference} {kind : Kind} {graph : Graph}
  {reference : PageReference}

theorem readLeaf_eq_ok {α : Type} {decode : Block → Except CatalogError α} {content : α}
    (h : readLeaf graph rootGeneration kind decode pages reference = .ok (content, pages')) :
    Leaf graph rootGeneration kind decode reference content := by
  simp only [readLeaf, ok_iff, Prod.mk.injEq] at h
  obtain ⟨⟨block, used⟩, hadd, hgeneration, found, hdecode, rfl, -⟩ := h
  exact ⟨block, (addReference_eq_ok.mp hadd).2.2.2.1, hgeneration, hdecode⟩

theorem readOptionalLeaf_eq_ok {α : Type}
    {decode : Block → Except CatalogError (List α)} {content : List α}
    (h : readOptionalLeaf graph rootGeneration kind decode pages reference =
      .ok (content, pages')) :
    OptionalLeaf graph rootGeneration kind decode reference content := by
  unfold readOptionalLeaf at h
  split at h
  case isTrue hnull =>
    simp only [Except.ok.injEq, Prod.mk.injEq] at h
    exact .inl ⟨hnull, h.1.symm⟩
  case isFalse => exact .inr (readLeaf_eq_ok h)

/-- The decoded leaves of the root. -/
structure Leaves (graph : Graph) (root : Root) (parts : RootPages) : Prop where
  free : Leaf graph root.generation .physicalAllocator
    (fun block => decodePhysicalIntervals block .free maxPhysicalIntervalCount)
    root.allocatorRoot parts.free
  retired : OptionalLeaf graph root.generation .retiredExtents
    (fun block => decodePhysicalIntervals block .retired maxPhysicalIntervalCount)
    root.retiredExtentRoot parts.retired
  metadata : Leaf graph root.generation .metadataAllocator
    (fun block => decodeMetadataAllocator block maxMetadataIntervalCount)
    root.metadataAllocatorRoot parts.metadata

theorem readRootPages_eq_ok {root : Root}
    {parts : RootPages} (h : readRootPages root graph pages = .ok (parts, pages')) :
    Leaves graph root parts := by
  simp only [readRootPages, ok_iff, Prod.mk.injEq] at h
  obtain ⟨⟨descriptors, p₁⟩, -, ⟨names, p₂⟩, -, ⟨free, p₃⟩, hfree, ⟨retired, p₄⟩, hretired,
    ⟨metadata, p₅⟩, hmetadata, rfl, -⟩ := h
  exact ⟨readLeaf_eq_ok hfree, readOptionalLeaf_eq_ok hretired, readLeaf_eq_ok hmetadata⟩

/-! ## Geometry -/

/-- Used pages and metadata intervals, as intervals of pages. -/
def ValidatedCatalog.pageRanges (catalog : ValidatedCatalog) : List (Nat × Nat) :=
  (catalog.currentPages.map fun reference => (reference.offset / pageSize, 1)) ++
    catalog.metadata.map fun interval => (interval.pageStart, interval.pageCount)

/-- The number of references of a catalog, from its root and from its volumes, to a page. -/
def ValidatedCatalog.referencesTo (catalog : ValidatedCatalog) (page : Nat) : Nat :=
  (catalog.root.references ++
    catalog.descriptors.flatMap PoolCatalogStore.volumeReferences).countP fun reference =>
      ¬ reference.isNull ∧ reference.offset / pageSize = page

/-- The number of metadata intervals of the given state that hold a page. -/
def ValidatedCatalog.intervalsWith (catalog : ValidatedCatalog) (state : MetadataIntervalState)
    (page : Nat) : Nat :=
  catalog.metadata.countP fun interval =>
    interval.state = state ∧ rangeContains interval.pageStart interval.pageCount page

namespace Accepted

variable {binding : AuthorityBinding} {graph : Graph} {members : List MemberGeometry}
  {protectedPages : List PageReference} {catalog : ValidatedCatalog}

section

variable (h : Accepted binding graph members protectedPages catalog)
include h

theorem geometry :
    members ≠ [] ∧ forAllWithPrevious (validateMemberGeometry binding.topology) [] members = .ok ()
      := by
  have hinputs := h.inputs
  simp only [validateInputs, ok_iff, not_or] at hinputs
  obtain ⟨-, -, -, -, -, hcount, hmembers, -⟩ := hinputs
  exact ⟨fun hempty => hcount.1 (by simp [hempty]), hmembers⟩

/-- All metadata regions have the pages that the catalog counts. -/
theorem metadataLength {member : MemberGeometry} (hmember : member ∈ members) :
    member.metadataLength = catalog.metadataPageCount * pageSize := by
  obtain ⟨hne, hgeometry⟩ := h.geometry
  obtain ⟨earlier, hcheck⟩ := forAllWithPrevious_mem hmember hgeometry
  simp only [validateMemberGeometry, ok_iff, not_or, not_not] at hcheck
  obtain ⟨_, -, -, -, ⟨-, hwhole⟩, -⟩ := hcheck
  obtain ⟨first, rest, rfl⟩ := exists_cons_of_ne_nil hne
  have hsame : first.metadataLength = member.metadataLength := by
    rcases mem_cons.mp hmember with rfl | hrest
    · rfl
    simp only [forAllWithPrevious, ok_iff, nil_append] at hgeometry
    obtain ⟨before, hfirst⟩ := forAllWithPrevious_mem hrest hgeometry.2
    simp only [validateMemberGeometry, ok_iff] at hfirst
    obtain ⟨_, -, -, -, -, hequal⟩ := hfirst
    simpa [eq_comm] using hequal
  have hcount : catalog.metadataPageCount = first.metadataLength / pageSize := h.pageCount
  have hdvd : first.metadataLength % pageSize = 0 := by rw [hsame]; exact hwhole
  rw [hcount, ← hsame]
  exact (Nat.div_mul_cancel (Nat.dvd_of_mod_eq_zero hdvd)).symm

/-! ## Metadata pages -/

theorem metadataChecked :
    (∀ interval ∈ catalog.metadata, validateMetadataInterval maxU64 interval = .ok () ∧
      validateMetadataIntervalForMembers catalog.currentPages protectedPages
        (members.map MemberGeometry.metadataLength) interval = .ok ()) ∧
    catalog.metadata.IsChain (fun a b => validateMetadataOrder a b = .ok ()) ∧
    validateMetadataCoverage catalog.currentPages catalog.metadata catalog.metadataPageCount =
      .ok () := by
  have hparts := h.parts
  simp only [validateParts, validateMetadataIntervalsForMembers, ok_iff, h.members_eq,
    validateMetadataIntervals_eq_ok] at hparts
  obtain ⟨-, -, -, ⟨-, -, -, -, -, hintervals⟩, hcoverage⟩ := hparts
  exact ⟨hintervals.1, by simpa using hintervals.2, hcoverage⟩

theorem pageValid (hmem : reference ∈ catalog.currentPages) : reference.validate = .ok () := by
  obtain ⟨block, hresolve⟩ := h.resolved.resolves reference hmem
  exact (resolveReference_eq_ok.mp hresolve).1

/-- Metadata intervals do not overlap, and each ends before the next one begins. -/
theorem metadata_pairwise : catalog.metadata.Pairwise Before := by
  rw [← isChain_iff_pairwise]
  exact h.metadataChecked.2.1.imp fun _ _ horder => validateMetadataOrder_eq_ok horder

end

variable {interval : MetadataInterval}

/-- A metadata interval lies behind the root copies, inside every region, and holds no page in
use. -/
theorem metadata_interval (h : Accepted binding graph members protectedPages catalog)
    (hmem : interval ∈ catalog.metadata) :
    2 ≤ interval.pageStart ∧ 0 < interval.pageCount ∧
      interval.pageStart + interval.pageCount ≤ catalog.metadataPageCount ∧
      ∀ reference ∈ catalog.currentPages,
        ¬ Within interval.pageStart interval.pageCount (reference.offset / pageSize) := by
  obtain ⟨hself, hmembers⟩ := h.metadataChecked.1 interval hmem
  simp only [validateMetadataInterval, ok_iff, not_or, not_lt] at hself
  simp only [validateMetadataIntervalForMembers, addU64, mulU64, ok_iff] at hmembers
  obtain ⟨⟨hstart, hcount⟩, -⟩ := hself
  obtain ⟨_, ⟨-, rfl⟩, _, ⟨-, rfl⟩, hinside, hunused, -⟩ := hmembers
  refine ⟨hstart, by omega, ?_, ?_⟩
  · obtain ⟨member, hmember⟩ := exists_mem_of_ne_nil _ h.geometry.1
    have hlength := h.metadataLength hmember
    have hbytes : (interval.pageStart + interval.pageCount) * pageSize ≤ member.metadataLength := by
      by_contra hover
      exact hinside ⟨_, mem_map_of_mem hmember, by omega⟩
    rw [hlength] at hbytes
    exact Nat.le_of_mul_le_mul_right hbytes (by decide)
  · intro reference href hwithin
    exact hunused ⟨reference, href, h.resolved.page reference href, hwithin.1, hwithin.2⟩

omit [Codec] in
theorem foldlM_addU64 : ∀ {accounted total : Nat}, intervals.foldlM
        (fun accounted interval => addU64 accounted interval.pageCount .overflow)
        accounted = .ok total →
      total = accounted + (intervals.map MetadataInterval.pageCount).sum := by
  induction intervals with
  | nil =>
    intro accounted total h
    cases h
    simp
  | cons interval rest ih =>
    intro accounted total h
    simp only [foldlM_cons, addU64, ok_iff] at h
    obtain ⟨_, ⟨-, rfl⟩, hrest⟩ := h
    rw [ih hrest, map_cons, sum_cons]
    omega

variable (h : Accepted binding graph members protectedPages catalog)
include h

theorem pageRanges_pairwise : catalog.pageRanges.Pairwise (Apart fst snd) := by
  refine pairwise_append.mpr ⟨?_, ?_, ?_⟩
  · rw [pairwise_map]
    have hdistinct := pairwise_map.mp h.resolved.distinct
    refine hdistinct.imp_of_mem fun {a b} ha hb hne position => ?_
    obtain ⟨-, haligned⟩ := aligned_of_validate (h.pageValid ha) (h.resolved.page a ha)
    obtain ⟨-, hbligned⟩ := aligned_of_validate (h.pageValid hb) (h.resolved.page b hb)
    simp only [Within, pageSize] at *
    omega
  · rw [pairwise_map]
    exact h.metadata_pairwise.imp fun hbefore => apart_of_le hbefore
  · intro page hpage range hrange position hboth
    obtain ⟨reference, href, rfl⟩ := mem_map.mp hpage
    obtain ⟨interval, hinterval, rfl⟩ := mem_map.mp hrange
    obtain ⟨⟨hlow, hhigh⟩, hwithin⟩ := hboth
    obtain rfl : position = reference.offset / pageSize := by dsimp only at hlow hhigh; omega
    exact (h.metadata_interval hinterval).2.2.2 reference href hwithin

theorem pageRanges_inside :
    ∀ range ∈ catalog.pageRanges, 2 ≤ range.1 ∧ range.1 + range.2 ≤ catalog.metadataPageCount := by
  intro range hrange
  rcases mem_append.mp hrange with hpage | hinterval
  · obtain ⟨reference, href, rfl⟩ := mem_map.mp hpage
    obtain ⟨hbehind, haligned⟩ := aligned_of_validate (h.pageValid href)
      (h.resolved.page reference href)
    obtain ⟨member, hmember⟩ := exists_mem_of_ne_nil _ h.geometry.1
    have hinside := h.inside href hmember
    rw [h.metadataLength hmember] at hinside
    simp only [pageSize, blockSize] at *
    omega
  · obtain ⟨interval, hmem, rfl⟩ := mem_map.mp hinterval
    obtain ⟨hstart, -, hend, -⟩ := h.metadata_interval hmem
    exact ⟨hstart, hend⟩

theorem pageRanges_total :
    (catalog.pageRanges.map Prod.snd).sum = catalog.metadataPageCount - 2 := by
  have hcoverage := h.metadataChecked.2.2
  simp only [validateMetadataCoverage, ok_iff, not_not, ne_eq] at hcoverage
  obtain ⟨accounted, hfold, htotal⟩ := hcoverage
  rw [foldlM_addU64 hfold] at htotal
  simp only [ValidatedCatalog.pageRanges, List.map_append, List.map_map, List.sum_append]
  rw [← htotal]
  congr 1
  induction catalog.currentPages with
  | nil => rfl
  | cons _ rest ih =>
    rw [map_cons, sum_cons, ih, length_cons, Nat.add_comm]
    rfl

/-- References, free intervals and retired intervals together are the page ranges. -/
theorem cover_pageRanges (page : Nat) : cover fst snd catalog.pageRanges page =
      catalog.referencesTo page + catalog.intervalsWith .free page +
        catalog.intervalsWith .retired page := by
  have hreferences : (catalog.currentPages.map fun reference =>
        (reference.offset / pageSize, 1)).countP
        (fun range => Within range.1 range.2 page) = catalog.referencesTo page := by
    rw [countP_map, h.currentPages_eq, pagesOf, countP_filter]
    refine countP_congr fun reference _ => ?_
    simp only [comp_apply, Bool.and_eq_true, decide_eq_true_eq]
    constructor
    · rintro ⟨⟨hlow, hhigh⟩, hpage⟩
      exact ⟨hpage, by omega⟩
    · rintro ⟨hpage, rfl⟩
      exact ⟨⟨le_rfl, Nat.lt_succ_self _⟩, hpage⟩
  have hintervals : (catalog.metadata.map fun interval =>
        (interval.pageStart, interval.pageCount)).countP
        (fun range => Within range.1 range.2 page) =
      catalog.intervalsWith .free page + catalog.intervalsWith .retired page := by
    rw [countP_map]
    unfold ValidatedCatalog.intervalsWith
    induction catalog.metadata with
    | nil => rfl
    | cons interval rest ih =>
      simp only [countP_cons, ih, comp_apply, decide_eq_true_eq]
      have hsame : Within interval.pageStart interval.pageCount page ↔
          rangeContains interval.pageStart interval.pageCount page := Iff.rfl
      cases hstate : interval.state <;> simp [hsame] <;> omega
  unfold cover ValidatedCatalog.pageRanges
  rw [countP_append, hreferences, hintervals, Nat.add_assoc]

/-- A retired metadata interval is not younger than the root. -/
theorem metadata_generation (hmem : interval ∈ catalog.metadata)
    (hstate : interval.state = .retired) :
    interval.retiredGeneration ≤ catalog.root.generation := by
  obtain ⟨pages, hleaves, -⟩ := h.leaves
  obtain ⟨block, -, hgeneration, hdecode⟩ := (readRootPages_eq_ok hleaves).metadata
  simp only [validateLeafGeneration, ok_iff, not_lt] at hgeneration
  obtain ⟨header, hheader, hle⟩ := hgeneration
  simp only [decodeMetadataAllocator, hheader, ok_iff, exists_eq_left'] at hdecode
  obtain ⟨bytes, hbytes⟩ := decodeEntries_mem hdecode.2 interval hmem
  simp only [decodeMetadataInterval, ok_iff] at hbytes
  obtain ⟨_, -, -, hvalid, rfl⟩ := hbytes
  simp only [validateMetadataInterval, ok_iff] at hvalid
  subst hstate
  obtain ⟨-, -, -, hretired⟩ := hvalid
  simp only [rejectIf_eq_ok, not_or, not_lt] at hretired
  exact hretired.2.trans hle

end Accepted

/-- Metadata pages are partitioned. In an accepted catalog every page behind the two root copies
is referred to once, or lies in one free interval, or in one retired interval, and only one of
these; retired intervals are not younger than the root; and the pages of the root copies are in
none of them. -/
theorem metadata_pages_partitioned {binding : AuthorityBinding} {graph : Graph}
    {members : List MemberGeometry} {catalog : ValidatedCatalog}
    (h : validateGraph binding graph members = .ok catalog) :
    (∀ member ∈ members, member.metadataLength = catalog.metadataPageCount * pageSize) ∧
    (∀ page, 2 ≤ page → page < catalog.metadataPageCount →
      catalog.referencesTo page + catalog.intervalsWith .free page +
        catalog.intervalsWith .retired page = 1) ∧
    (∀ interval ∈ catalog.metadata, interval.state = .retired →
      interval.retiredGeneration ≤ catalog.root.generation) ∧
    ∀ page < 2, catalog.referencesTo page = 0 ∧ catalog.intervalsWith .free page = 0 ∧
      catalog.intervalsWith .retired page = 0 := by
  have haccepted : Accepted binding graph members [] catalog := accepted_iff.mp h
  refine ⟨fun _ => haccepted.metadataLength, ?_, fun _ => haccepted.metadata_generation, ?_⟩
  · intro page hlow hhigh
    rw [← haccepted.cover_pageRanges]
    exact cover_eq_one haccepted.pageRanges_pairwise haccepted.pageRanges_inside
      haccepted.pageRanges_total hlow hhigh
  · intro page hpage
    have hnone : cover fst snd catalog.pageRanges page = 0 := by
      refine countP_eq_zero.mpr fun range hmem hwithin => ?_
      obtain ⟨hlow, -⟩ := haccepted.pageRanges_inside range hmem
      obtain ⟨hstart, -⟩ := of_decide_eq_true hwithin
      omega
    rw [haccepted.cover_pageRanges] at hnone
    omega

end

theorem sample_pages_partitioned : (∀ member ∈ Sample.members,
      member.metadataLength = Sample.catalog.metadataPageCount * pageSize) ∧
    ∀ page, 2 ≤ page → page < Sample.catalog.metadataPageCount →
      Sample.catalog.referencesTo page + Sample.catalog.intervalsWith .free page +
        Sample.catalog.intervalsWith .retired page = 1 :=
  ⟨(metadata_pages_partitioned accepted).1, (metadata_pages_partitioned accepted).2.1⟩

end PoolCatalogGraph

end Zettide
