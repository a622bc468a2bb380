import Zettide.Catalog.RootBytes

/-! # What a catalog depends on

`validateGraph` reads a graph only through the references it follows. Each of its parts is a
computation that takes the pages in use so far and adds its own; `Reads references` says this of
such a computation: it adds exactly the pages of `references`, it gives the same result on every
graph that resolves those pages to the same bytes, and on two graphs that never resolve a reference
to different bytes it cannot give two results. The property is closed under sequencing, so it
holds of the whole check because it holds of one reference. -/

namespace Zettide.PoolCatalogGraph

open Bytes PoolCatalog PoolCatalogPage List Prod PoolCatalogStore Except

/-- The references to pages among the given ones. -/
def pagesOf (references : List PageReference) : List PageReference :=
  references.filter fun reference => ¬ reference.isNull

@[simp] theorem mem_pagesOf {references : List PageReference} {reference : PageReference} :
    reference ∈ pagesOf references ↔ reference ∈ references ∧ ¬ reference.isNull := by
  simp [pagesOf]

theorem pagesOf_append (left right : List PageReference) :
    pagesOf (left ++ right) = pagesOf left ++ pagesOf right := filter_append ..

variable [Codec]

/-- Every page of the list resolves, and no two of them are at one offset. -/
structure Resolved (graph : Graph) (pages : List PageReference) : Prop where
  distinct : (pages.map PageReference.offset).Nodup
  page : ∀ reference ∈ pages, ¬ reference.isNull
  resolves : ∀ reference ∈ pages, ∃ block, resolveReference graph reference = .ok block
  bounded : pages.length ≤ maxCurrentPageCount

variable {graph : Graph} {reference : PageReference} {block : Block}

theorem Resolved.left {left right : List PageReference}
    (h : Resolved graph (left ++ right)) : Resolved graph left where
  distinct := by
    have hdistinct := h.distinct
    rw [map_append] at hdistinct
    exact (nodup_append.mp hdistinct).1
  page reference hmem := h.page reference (mem_append_left _ hmem)
  resolves reference hmem := h.resolves reference (mem_append_left _ hmem)
  bounded := by
    have hbounded := h.bounded
    rw [length_append] at hbounded
    omega

/-- The second graph resolves the given pages as the first one does. -/
def Agrees (graph other : Graph) (pages : List PageReference) : Prop :=
  ∀ reference ∈ pages, ∀ block, resolveReference graph reference = .ok block →
    resolveReference other reference = .ok block

/-- The two graphs never resolve a reference to different bytes. -/
def Consistent (graph other : Graph) : Prop :=
  ∀ reference block otherBlock, resolveReference graph reference = .ok block →
    resolveReference other reference = .ok otherBlock → block = otherBlock

theorem resolveReference_eq_ok : resolveReference graph reference = .ok block ↔
      reference.validate = .ok () ∧
        ∃ image, graph.pages.find? (fun image => image.offset = reference.offset) = some image ∧
          Codec.blake3 image.block.bytes = reference.digest ∧ image.block = block := by
  simp only [resolveReference, ok_iff, ne_eq, not_not]

theorem addReference_eq_ok {pages pages' : List PageReference} :
    addReference graph pages reference = .ok (block, pages') ↔
      ¬ reference.isNull ∧ (¬ ∃ current ∈ pages, current.offset = reference.offset) ∧
        pages.length ≠ maxCurrentPageCount ∧ resolveReference graph reference = .ok block ∧
        pages ++ [reference] = pages' := by
  simp only [addReference, ok_iff, mk.injEq]
  constructor
  · rintro ⟨hnull, hfresh, hroom, resolved, hresolve, rfl, rfl⟩
    exact ⟨hnull, hfresh, hroom, hresolve, rfl⟩
  · rintro ⟨hnull, hfresh, hroom, hresolve, rfl⟩
    exact ⟨hnull, hfresh, hroom, block, hresolve, rfl, rfl⟩

/-- A computation that follows exactly the given references. -/
structure Reads {α : Type} (references : List PageReference)
    (step : Graph → List PageReference → Except CatalogError (α × List PageReference)) : Prop where
  pages : ∀ {graph pages result pages'}, step graph pages = .ok (result, pages') →
    pages' = pages ++ pagesOf references
  resolved : ∀ {graph pages result pages'}, step graph pages = .ok (result, pages') →
    Resolved graph pages → Resolved graph pages'
  agrees : ∀ {graph other pages result pages'}, step graph pages = .ok (result, pages') →
    Agrees graph other pages' → step other pages = .ok (result, pages')
  unique : ∀ {graph other pages result result' pages' pages''},
    step graph pages = .ok (result, pages') → step other pages = .ok (result', pages'') →
    Consistent graph other → result = result'

namespace Reads

variable {α β : Type}

theorem check (x : Except CatalogError α) :
    Reads [] (fun _ pages => do let a ← x; .ok (a, pages)) := by
  constructor
  case pages =>
    intro _ pages result pages' h
    simp only [ok_iff, mk.injEq] at h
    obtain ⟨_, -, -, rfl⟩ := h
    simp [pagesOf]
  case resolved =>
    intro _ pages result pages' h hresolved
    simp only [ok_iff, mk.injEq] at h
    obtain ⟨_, -, -, rfl⟩ := h
    exact hresolved
  case agrees => exact fun h _ => h
  case unique =>
    intro _ _ pages result result' pages' pages'' h h' _
    simp only [ok_iff, mk.injEq] at h h'
    obtain ⟨a, hx, rfl, rfl⟩ := h
    obtain ⟨b, hx', rfl, -⟩ := h'
    exact ok.inj (hx.symm.trans hx')

theorem addReference (reference : PageReference) :
    Reads [reference] (fun graph pages => addReference graph pages reference) := by
  constructor
  case pages =>
    intro _ pages result pages' h
    obtain ⟨hpage, -, -, -, rfl⟩ := addReference_eq_ok.mp h
    simp [pagesOf, hpage]
  case resolved =>
    intro graph pages result pages' h hresolved
    obtain ⟨hpage, hfresh, hroom, hresolve, rfl⟩ := addReference_eq_ok.mp h
    refine ⟨?_, ?_, ?_, ?_⟩
    · rw [map_append, nodup_append]
      refine ⟨hresolved.distinct, nodup_singleton _, ?_⟩
      intro offset hmem other hother heq
      obtain ⟨current, hcurrent, rfl⟩ := mem_map.mp hmem
      simp only [map_cons, map_nil, mem_singleton] at hother
      exact hfresh ⟨current, hcurrent, heq.trans hother⟩
    · exact forall_mem_append.mpr ⟨hresolved.page, by simpa using hpage⟩
    · exact forall_mem_append.mpr ⟨hresolved.resolves, by simpa using ⟨result, hresolve⟩⟩
    · have hbounded := hresolved.bounded
      rw [length_append, length_singleton]
      omega
  case agrees =>
    intro graph other pages result pages' h hagrees
    obtain ⟨hpage, hfresh, hroom, hresolve, rfl⟩ := addReference_eq_ok.mp h
    exact addReference_eq_ok.mpr
      ⟨hpage, hfresh, hroom, hagrees reference (by simp) result hresolve, rfl⟩
  case unique =>
    intro graph other pages result result' pages' pages'' h h' hconsistent
    obtain ⟨-, -, -, hresolve, -⟩ := addReference_eq_ok.mp h
    obtain ⟨-, -, -, hresolve', -⟩ := addReference_eq_ok.mp h'
    exact hconsistent reference result result' hresolve hresolve'

variable {references : List PageReference}

theorem bind {more : List PageReference}
    {step : Graph → List PageReference → Except CatalogError (α × List PageReference)}
    {next : α → Graph → List PageReference → Except CatalogError (β × List PageReference)}
    (hstep : Reads references step) (hnext : ∀ a, Reads more (next a)) :
    Reads (references ++ more) (fun graph pages => do
      let (a, pages) ← step graph pages
      next a graph pages) := by
  constructor
  case pages =>
    intro graph pages result pages' h
    obtain ⟨⟨a, middle⟩, hfirst, hsecond⟩ := (bind_eq_ok _ _ _).mp h
    rw [(hnext a).pages hsecond, hstep.pages hfirst, pagesOf_append, append_assoc]
  case resolved =>
    intro graph pages result pages' h hresolved
    obtain ⟨⟨a, middle⟩, hfirst, hsecond⟩ := (bind_eq_ok _ _ _).mp h
    exact (hnext a).resolved hsecond (hstep.resolved hfirst hresolved)
  case agrees =>
    intro graph other pages result pages' h hagrees
    obtain ⟨⟨a, middle⟩, hfirst, hsecond⟩ := (bind_eq_ok _ _ _).mp h
    have hmiddle : Agrees graph other middle := by
      intro reference hmem
      apply hagrees reference
      rw [(hnext a).pages hsecond]
      exact mem_append_left _ hmem
    exact (bind_eq_ok _ _ _).mpr
      ⟨(a, middle), hstep.agrees hfirst hmiddle, (hnext a).agrees hsecond hagrees⟩
  case unique =>
    intro graph other pages result result' pages' pages'' h h' hconsistent
    obtain ⟨⟨a, middle⟩, hfirst, hsecond⟩ := (bind_eq_ok _ _ _).mp h
    obtain ⟨⟨a', middle'⟩, hfirst', hsecond'⟩ := (bind_eq_ok _ _ _).mp h'
    obtain rfl : a = a' := hstep.unique hfirst hfirst' hconsistent
    obtain rfl : middle = middle' := by rw [hstep.pages hfirst, hstep.pages hfirst']
    exact (hnext a).unique hsecond hsecond' hconsistent

theorem of_eq
    {step step' : Graph → List PageReference → Except CatalogError (α × List PageReference)}
    (h : Reads references step) (heq : ∀ graph pages, step' graph pages = step graph pages) :
    Reads references step' := by
  obtain rfl : step' = step := funext fun graph => funext fun pages => heq graph pages
  exact h

theorem pure (a : α) : Reads [] (fun _ pages => .ok (a, pages)) :=
  (check (.ok a)).of_eq fun _ _ => rfl

theorem of_null {step : Graph → List PageReference → Except CatalogError (α × List PageReference)}
    (h : Reads references step) (hnull : reference.isNull) :
    Reads (reference :: references) step where
  pages hstep := by
    rw [h.pages hstep]
    simp [pagesOf, hnull]
  resolved := h.resolved
  agrees := h.agrees
  unique := h.unique

theorem readLeaf (rootGeneration : Nat) (kind : Kind) (decode : Block → Except CatalogError α)
    (reference : PageReference) :
    Reads [reference] (fun graph pages =>
      readLeaf graph rootGeneration kind decode pages reference) := by
  have hbind := (addReference reference).bind fun block =>
    check (do validateLeafGeneration block kind rootGeneration; decode block)
  refine hbind.of_eq fun graph pages => ?_
  simp only [PoolCatalogGraph.readLeaf, bind_assoc]

theorem readOptionalLeaf (rootGeneration : Nat) (kind : Kind)
    (decode : Block → Except CatalogError (List α)) (reference : PageReference) :
    Reads [reference] (fun graph pages =>
      readOptionalLeaf graph rootGeneration kind decode pages reference) := by
  unfold PoolCatalogGraph.readOptionalLeaf
  by_cases hnull : reference.isNull
  · simp only [if_pos hnull]
    exact (pure []).of_null hnull
  · simp only [if_neg hnull]
    exact readLeaf rootGeneration kind decode reference

end Reads

/-- The references of the root, in the order in which they are followed. -/
theorem reads_readRootPages (root : Root) :
    Reads root.references (fun graph pages => readRootPages root graph pages) := by
  have hreads :=
    (Reads.readOptionalLeaf root.generation .volumeIndex (countedIndex root decodeVolumeIndex)
      root.volumeTreeRoot).bind fun descriptors =>
    (Reads.readOptionalLeaf root.generation .nameIndex (countedIndex root decodeNameIndex)
      root.nameIndexRoot).bind fun names =>
    (Reads.readLeaf root.generation .physicalAllocator
      (fun block => decodePhysicalIntervals block .free maxPhysicalIntervalCount)
      root.allocatorRoot).bind fun free =>
    (Reads.readOptionalLeaf root.generation .retiredExtents
      (fun block => decodePhysicalIntervals block .retired maxPhysicalIntervalCount)
      root.retiredExtentRoot).bind fun retired =>
    (Reads.readLeaf root.generation .metadataAllocator
      (fun block => decodeMetadataAllocator block maxMetadataIntervalCount)
      root.metadataAllocatorRoot).bind fun metadata =>
    Reads.pure (RootPages.mk descriptors names free retired metadata)
  exact hreads.of_eq fun _ _ => rfl

theorem reads_readVolume (binding : AuthorityBinding) (root : Root)
    (geometry : List MemberDataGeometry) (descriptor : VolumeDescriptor) :
    Reads [descriptor.headerPage, descriptor.extentMapRoot] (fun graph pages =>
      readVolume binding root graph geometry descriptor pages) := by
  have hreads := (Reads.addReference descriptor.headerPage).bind fun block =>
    (Reads.check (validateVolumeHeader descriptor block)).bind fun _ =>
    (Reads.readOptionalLeaf root.generation .extentMap
      (fun block => decodeExtentMap block descriptor.volumeId maxExtentRunCount)
      descriptor.extentMapRoot).bind fun runs =>
    Reads.check (do
      validateVolumeForPool root descriptor runs binding.layout binding.topology geometry
      .ok runs)
  refine hreads.of_eq fun graph pages => ?_
  simp only [readVolume, bind_assoc]
  rfl

theorem reads_readVolumes (binding : AuthorityBinding) (root : Root)
    (geometry : List MemberDataGeometry) (descriptors : List VolumeDescriptor) :
    Reads (descriptors.flatMap volumeReferences) (fun graph pages =>
      readVolumes binding root graph geometry descriptors pages) := by
  induction descriptors with
  | nil => exact Reads.pure []
  | cons descriptor rest ih =>
    have hreads := (reads_readVolume binding root geometry descriptor).bind fun runs =>
      ih.bind fun others => Reads.pure (runs :: others)
    rw [append_nil] at hreads
    exact hreads.of_eq fun _ _ => rfl

/-! ## The whole graph -/

/-- The decoded pages of the root of a catalog. -/
def ValidatedCatalog.rootPages (catalog : ValidatedCatalog) : RootPages where
  descriptors := catalog.descriptors
  names := catalog.names
  free := catalog.free
  retired := catalog.retired
  metadata := catalog.metadata

/-- What a graph satisfies that was accepted as `catalog`. -/
structure Accepted (binding : AuthorityBinding) (graph : Graph) (members : List MemberGeometry)
    (protectedPages : List PageReference) (catalog : ValidatedCatalog) : Prop where
  inputs : validateInputs binding graph members = .ok ()
  root : decodeRoot graph.rootBytes = .ok catalog.root
  bound : validateRootBinding binding catalog.root = .ok ()
  leaves : ∃ pages, readRootPages catalog.root graph [] = .ok (catalog.rootPages, pages) ∧
    readVolumes binding catalog.root graph (dataGeometry members) catalog.descriptors pages =
      .ok (catalog.extentRuns, catalog.currentPages)
  indexes : validateCatalogIndexes catalog.root catalog.descriptors catalog.names = .ok ()
  members_eq : catalog.members = members
  pageCount : catalog.metadataPageCount = metadataPageCountOf members
  parts : validateParts catalog protectedPages = .ok ()

theorem accepted_iff {binding : AuthorityBinding} {members : List MemberGeometry}
    {protectedPages : List PageReference} {catalog : ValidatedCatalog} :
    validateGraphWithProtectedPages binding graph members protectedPages = .ok catalog ↔
      Accepted binding graph members protectedPages catalog := by
  simp only [validateGraphWithProtectedPages, ok_iff]
  constructor
  · rintro ⟨hinputs, root, hroot, hbound, ⟨parts, pages⟩, hleaves, hindexes, ⟨runs, used⟩, hvolumes,
      hparts, rfl⟩
    exact ⟨hinputs, hroot, hbound, ⟨pages, hleaves, hvolumes⟩, hindexes, rfl, rfl, hparts⟩
  · rintro ⟨hinputs, hroot, hbound, ⟨pages, hleaves, hvolumes⟩, hindexes, hmembers, hcount, hparts⟩
    obtain ⟨root, descriptors, names, runs, free, retired, metadata, used, _, _⟩ := catalog
    dsimp only at hmembers hcount
    subst hmembers hcount
    exact ⟨hinputs, _, hroot, hbound, (_, pages), hleaves, hindexes, (_, _), hvolumes, hparts, rfl⟩

namespace Accepted

variable {binding : AuthorityBinding} {graph other : Graph} {members : List MemberGeometry}
  {protectedPages : List PageReference} {catalog catalog' : ValidatedCatalog}

section

variable (h : Accepted binding graph members protectedPages catalog)
include h

/-- The pages in use are those of the root and those of the volumes. -/
theorem currentPages_eq : catalog.currentPages = pagesOf (catalog.root.references ++
      catalog.descriptors.flatMap volumeReferences) := by
  obtain ⟨pages, hleaves, hvolumes⟩ := h.leaves
  rw [(reads_readVolumes binding catalog.root _ _).pages hvolumes,
    (reads_readRootPages catalog.root).pages hleaves, pagesOf_append, nil_append]

theorem resolved : Resolved graph catalog.currentPages := by
  obtain ⟨pages, hleaves, hvolumes⟩ := h.leaves
  have hempty : Resolved graph [] := ⟨nodup_nil, by simp, by simp, by simp⟩
  exact (reads_readVolumes binding catalog.root _ _).resolved hvolumes
    ((reads_readRootPages catalog.root).resolved hleaves hempty)

/-- Another graph with the same root and the same pages is accepted as the same catalog. -/
theorem of_agrees (hinputs : validateInputs binding other members = .ok ())
    (hroot : decodeRoot other.rootBytes = .ok catalog.root)
    (hagrees : Agrees graph other catalog.currentPages) :
    Accepted binding other members protectedPages catalog := by
  obtain ⟨pages, hleaves, hvolumes⟩ := h.leaves
  have hpages : Agrees graph other pages := by
    intro reference hmem
    apply hagrees reference
    rw [(reads_readVolumes binding catalog.root _ _).pages hvolumes]
    exact mem_append_left _ hmem
  exact { h with
      inputs := hinputs
      root := hroot
      leaves := ⟨pages, (reads_readRootPages catalog.root).agrees hleaves hpages,
        (reads_readVolumes binding catalog.root _ _).agrees hvolumes hagrees⟩ }

end

omit [Codec] in
/-- Pages of an earlier catalog only add to what is checked. -/
theorem validateMetadataIntervals_weaken {currentPages : List PageReference}
    {lengths : List Nat} {intervals : List MetadataInterval} :
    ∀ {previous : Option MetadataInterval},
      validateMetadataIntervals currentPages protectedPages lengths previous intervals = .ok () →
      validateMetadataIntervals currentPages [] lengths previous intervals = .ok () := by
  induction intervals with
  | nil => exact fun _ => rfl
  | cons interval rest ih =>
    intro previous h
    simp only [validateMetadataIntervals, validateMetadataIntervalForMembers, ok_iff] at h ⊢
    obtain ⟨hinterval, horder, ⟨pageEnd, hend, byteEnd, hbytes, hinside, hfree, -⟩, hrest⟩ := h
    refine ⟨hinterval, horder, ⟨pageEnd, hend, byteEnd, hbytes, hinside, hfree, ?_⟩, ih hrest⟩
    rintro ⟨-, reference, hmem, -⟩
    exact List.not_mem_nil hmem

theorem unprotected (h : Accepted binding graph members protectedPages catalog) :
    Accepted binding graph members [] catalog := by
  have hparts := h.parts
  simp only [validateParts, validateMetadataIntervalsForMembers, ok_iff] at hparts
  obtain ⟨hfree, hretired, howner, ⟨hsome, hgeometry, hcurrent, -, -, hintervals⟩, hcover⟩ := hparts
  refine { h with parts := ?_ }
  simp only [validateParts, validateMetadataIntervalsForMembers, ok_iff]
  refine ⟨hfree, hretired, howner, ⟨hsome, hgeometry, hcurrent, rfl, ?_,
    validateMetadataIntervals_weaken hintervals⟩, hcover⟩
  rintro ⟨current, -, -, recoverable, hmem, -⟩
  exact not_mem_nil hmem

variable {member : MemberGeometry}

section

variable (h : Accepted binding graph members protectedPages catalog)
include h

/-- Every page lies inside the metadata region of every member. -/
theorem inside (hmem : reference ∈ catalog.currentPages) (hmember : member ∈ members) :
    reference.offset + blockSize ≤ member.metadataLength := by
  have hpage := h.resolved.page reference hmem
  have hparts := h.parts
  simp only [validateParts, validateMetadataIntervalsForMembers, ok_iff, h.members_eq] at hparts
  obtain ⟨-, -, -, ⟨-, -, hcurrent, -⟩, -⟩ := hparts
  obtain ⟨earlier, hcheck⟩ := forAllWithPrevious_mem hmem hcurrent
  simp only [validateReferenceForMembers, if_neg hpage, ok_iff, not_exists, not_and, not_lt,
    mem_map, forall_exists_index] at hcheck
  exact hcheck.2.2 _ member ⟨hmember, rfl⟩

/-- The metadata region of a member has room for the two root copies. -/
theorem roots_inside (hmember : member ∈ members) : 3 * blockSize ≤ member.metadataLength := by
  have hinputs := h.inputs
  simp only [validateInputs, ok_iff] at hinputs
  obtain ⟨-, -, -, -, -, -, hmembers, -⟩ := hinputs
  obtain ⟨earlier, hcheck⟩ := forAllWithPrevious_mem hmember hmembers
  simp only [validateMemberGeometry, ok_iff, not_or, not_lt] at hcheck
  obtain ⟨_, -, -, -, hlength, -⟩ := hcheck
  exact hlength.1

/-- The volumes are those of the volume index page; a root without one has no volumes. -/
theorem volumeIndex : (catalog.root.volumeTreeRoot.isNull ∧ catalog.descriptors = []) ∨
      (¬ catalog.root.volumeTreeRoot.isNull ∧
        ∃ block, resolveReference graph catalog.root.volumeTreeRoot = .ok block ∧
          decodeVolumeIndex block maxVolumeCount = .ok catalog.descriptors) := by
  obtain ⟨pages, hleaves, -⟩ := h.leaves
  simp only [readRootPages, readOptionalLeaf, bind_eq_ok] at hleaves
  obtain ⟨⟨descriptors, first⟩, hindex, hrest⟩ := hleaves
  obtain rfl : descriptors = catalog.descriptors := by
    obtain ⟨_, -, _, -, _, -, _, -, hparts⟩ := hrest
    exact congrArg (fun x => x.1.descriptors) (ok.inj hparts)
  by_cases hnull : catalog.root.volumeTreeRoot.isNull
  · rw [if_pos hnull] at hindex
    exact .inl ⟨hnull, (congrArg fst (ok.inj hindex)).symm⟩
  rw [if_neg hnull] at hindex
  simp only [readLeaf, countedIndex, ok_iff, mk.injEq] at hindex
  obtain ⟨⟨block, _⟩, hadd, -, _, ⟨entries, hdecode, -, rfl⟩, rfl, -⟩ := hindex
  exact .inr ⟨hnull, block, (addReference_eq_ok.mp hadd).2.2.2.1, hdecode⟩

end

/-- Two consistent graphs with the same root have the same volumes and use the same pages. -/
theorem unique {binding' : AuthorityBinding} {members' : List MemberGeometry}
    {protectedPages' : List PageReference}
    (h : Accepted binding graph members protectedPages catalog)
    (h' : Accepted binding' other members' protectedPages' catalog')
    (hroot : catalog.root = catalog'.root) (hconsistent : Consistent graph other) :
    catalog.currentPages = catalog'.currentPages := by
  obtain ⟨pages, hleaves, -⟩ := h.leaves
  obtain ⟨pages', hleaves', -⟩ := h'.leaves
  rw [← hroot] at hleaves'
  have hparts := (reads_readRootPages catalog.root).unique hleaves hleaves' hconsistent
  have hdescriptors : catalog.descriptors = catalog'.descriptors :=
    congrArg RootPages.descriptors hparts
  rw [h.currentPages_eq, h'.currentPages_eq, hroot, hdescriptors]

end Accepted

end Zettide.PoolCatalogGraph
