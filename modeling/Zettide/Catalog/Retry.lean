import Zettide.Catalog.Staging

/-! # Interrupted initialization and installation can be repeated

The first catalog of a pool is staged into a fresh metadata region, and the catalog of a joining
member is installed into a zeroed one. A write that is interrupted there leaves a prefix of its
bytes with the old bytes behind it. However often the operation was interrupted, every block it is
about to write holds such a prefix of what it is to hold, and no root copy holds anything else; the
operation recognises these states and completes. A root copy that is not such a prefix, and for
the installation a page that is not, makes it fail before its first write. -/

namespace Zettide.PoolCatalogStore

open Bytes PoolCatalog PoolCatalogPage PoolCatalogGraph Except List MetadataRegion

/-! ## Interrupted writes -/

/-- The first `count` bytes of a block in front of an old one. -/
def tornBlock (count : Nat) (new old : Block) : Block where
  bytes := torn count new.bytes old.bytes
  length_bytes := by rw [torn_length (new.length_bytes.trans old.length_bytes.symm), old.length_bytes]

/-- The region after `count` bytes of a write. -/
def MetadataRegion.cut (region : MetadataRegion) (write : RegionWrite) (count : Nat) :
    MetadataRegion :=
  match region.read write.offset with
  | .ok old => region.after write (.torn (tornBlock count write.block old))
  | .error _ => region

/-- The region after a list of writes of which each got some bytes done; a write without a count was
not reached. -/
def interrupt (region : MetadataRegion) : List RegionWrite → List Nat → MetadataRegion
  | write :: writes, count :: counts => interrupt (region.cut write count) writes counts
  | _, _ => region

/-- A metadata region that was never written. -/
def MetadataRegion.fresh (length : Nat) : MetadataRegion := ⟨zeros length⟩

/-- The block holds a prefix of the expected one, and zeros behind it. -/
def Prefixed (expected block : Block) : Prop :=
  ∃ count, block.bytes = torn count expected.bytes (zeros blockSize)

variable {block expected : Block}

theorem prefixed_iff : Prefixed expected block ↔ block = expected ∨ isZero block.bytes = true ∨
      isExpectedPrefix block.bytes expected.bytes = true := by
  constructor
  · rintro ⟨count, hcount⟩
    rw [← expected.length_bytes] at hcount
    exact (torn_cases hcount).imp_left Block.ext
  · rintro (rfl | hzero | hpart)
    · refine ⟨blockSize, ?_⟩
      rw [torn_full (by rw [block.length_bytes, length_zeros]) block.length_bytes.le]
    · refine ⟨0, ?_⟩
      rw [torn_zero, ← block.length_bytes]
      exact (isZero_iff _).mp hzero
    · obtain ⟨count, hcount⟩ := torn_of_isExpectedPrefix hpart
      exact ⟨count, expected.length_bytes ▸ hcount⟩

theorem Prefixed.of_isZero (h : isZero block.bytes = true) : Prefixed expected block :=
  prefixed_iff.mpr (.inr (.inl h))

/-- Writing more of the expected bytes leaves a prefix of them. -/
theorem Prefixed.torn (h : Prefixed expected block) (count : Nat) :
    Prefixed expected (tornBlock count expected block) := by
  obtain ⟨done, hdone⟩ := h
  refine ⟨max count done, ?_⟩
  show Bytes.torn count expected.bytes block.bytes = _
  rw [hdone, torn_torn (by rw [expected.length_bytes, length_zeros])]

/-! ## Partly written catalogs -/

variable [Codec]

/-- Both root copies, and the places of the pages, hold prefixes of what the graph has for them. -/
structure Partly (region : MetadataRegion) (graph : Graph) (pages : List PageReference) : Prop where
  root : ∀ slot, ∃ block, region.read (rootOffset slot) = .ok block ∧
    Prefixed graph.rootBytes block
  page : ∀ reference ∈ pages, ∀ expected, resolveReference graph reference = .ok expected →
    ∃ block, region.read reference.offset = .ok block ∧ Prefixed expected block

/-- The write is one of the catalog: of its root to one of the copies, or of one of its pages. -/
def Belongs (graph : Graph) (pages : List PageReference) (write : RegionWrite) : Prop :=
  (∃ slot, write = ⟨rootOffset slot, graph.rootBytes⟩) ∨
    ∃ reference ∈ pages, write.offset = reference.offset ∧
      resolveReference graph reference = .ok write.block

variable {pages : List PageReference} {graph : Graph} {write : RegionWrite} {block : Block}
  {region : MetadataRegion} {writes : List RegionWrite}

theorem Belongs.aligned (h : Belongs graph pages write) (hresolved : Resolved graph pages) :
    write.offset % blockSize = 0 := by
  rcases h with ⟨slot, rfl⟩ | ⟨reference, href, hoffset, -⟩
  · exact rootOffset_aligned slot
  · rw [hoffset]
    exact (page_offset hresolved href).2.1

/-- What the catalog has for a block that it writes, the block holds a prefix of. -/
theorem Partly.prefixed (h : Partly region graph pages) (hbelongs : Belongs graph pages write) :
    ∃ block, region.read write.offset = .ok block ∧ Prefixed write.block block := by
  rcases hbelongs with ⟨slot, rfl⟩ | ⟨reference, href, hoffset, hresolve⟩
  · exact h.root slot
  · rw [hoffset]
    exact h.page reference href write.block hresolve

theorem Partly.position (h : Partly region graph pages) (hbelongs : Belongs graph pages write) :
    region.position write = .ok () := by
  obtain ⟨block, hread, -⟩ := h.prefixed hbelongs
  exact position_eq_ok.mpr (read_eq_ok.mp hread).1

/-- Writes of the catalog to one place are the same write. -/
theorem Belongs.unique {other : RegionWrite}
    (hresolved : Resolved graph pages) (h : Belongs graph pages write)
    (hother : Belongs graph pages other) (hoffset : other.offset = write.offset) :
    other.block = write.block := by
  rcases h with ⟨slot, rfl⟩ | ⟨reference, href, hplace, hresolve⟩ <;>
    rcases hother with ⟨slot', rfl⟩ | ⟨reference', href', hplace', hresolve'⟩
  · rfl
  · exact absurd (hoffset.symm.trans hplace') ((page_offset hresolved href').2.2 slot)
  · exact absurd (hoffset.trans hplace) ((page_offset hresolved href).2.2 slot')
  · have hsame : reference'.offset = reference.offset := hplace'.symm.trans (hoffset.trans hplace)
    obtain rfl := inj_on_of_nodup_map hresolved.distinct href' href hsame
    exact ok.inj (hresolve'.symm.trans hresolve)

/-- The catalog stays partly written when more of the bytes of one of its writes get into place. -/
theorem Partly.put (h : Partly region graph pages) (hresolved : Resolved graph pages)
    (hbelongs : Belongs graph pages write) (hheld : Prefixed write.block block) :
    Partly (region.put write.offset block) graph pages := by
  have hinside := position_eq_ok.mp (h.position hbelongs)
  -- Any block that the catalog writes, at this place or at another.
  have hblock : ∀ other, Belongs graph pages other →
      ∃ found, (region.put write.offset block).read other.offset = .ok found ∧
        Prefixed other.block found := by
    intro other hother
    by_cases hsame : other.offset = write.offset
    · rw [hsame, Belongs.unique hresolved hbelongs hother hsame]
      exact ⟨block, read_put_self hinside, hheld⟩
    · rw [read_put_other (hbelongs.aligned hresolved) (hother.aligned hresolved) hsame]
      exact h.prefixed hother
  refine ⟨fun slot => hblock ⟨rootOffset slot, graph.rootBytes⟩ (.inl ⟨slot, rfl⟩), ?_⟩
  intro reference href expected hresolve
  exact hblock ⟨reference.offset, expected⟩ (.inr ⟨reference, href, rfl, hresolve⟩)

theorem Partly.cut (h : Partly region graph pages) (hresolved : Resolved graph pages)
    (hbelongs : Belongs graph pages write) (count : Nat) :
    Partly (region.cut write count) graph pages := by
  obtain ⟨old, hold, hheld⟩ := h.prefixed hbelongs
  unfold MetadataRegion.cut
  rw [hold]
  exact h.put hresolved hbelongs (hheld.torn count)

/-- However an attempt was interrupted, the catalog is partly written. -/
theorem Partly.interrupt (hresolved : Resolved graph pages) :
    ∀ {region : MetadataRegion} {counts : List Nat}, Partly region graph pages →
      (∀ write ∈ writes, Belongs graph pages write) →
      Partly (interrupt region writes counts) graph pages := by
  induction writes with
  | nil => exact fun h _ => h
  | cons write rest ih =>
    intro region counts h hbelongs
    cases counts with
    | nil => exact h
    | cons count counts =>
      exact ih (h.cut hresolved (hbelongs write mem_cons_self) count)
        fun other hmem => hbelongs other (mem_cons_of_mem _ hmem)

/-- After an attempt without interruption the catalog is partly written, and its writes are in
place. -/
theorem Partly.complete (hresolved : Resolved graph pages) :
    ∀ {region : MetadataRegion}, Partly region graph pages →
      (∀ write ∈ writes, Belongs graph pages write) →
      Partly (complete region writes) graph pages ∧ ∀ write, Belongs graph pages write →
          (write ∈ writes ∨ region.read write.offset = .ok write.block) →
          (PoolCatalogStore.complete region writes).read write.offset = .ok write.block := by
  induction writes with
  | nil => exact fun h _ => ⟨h, fun write _ hplace => hplace.resolve_left not_mem_nil⟩
  | cons first rest ih =>
    intro region h hbelongs
    have hfirst := hbelongs first mem_cons_self
    have hinside := position_eq_ok.mp (h.position hfirst)
    obtain ⟨hpartly, hplaces⟩ := ih (h.put hresolved hfirst (prefixed_iff.mpr (.inl rfl)))
      fun other hmem => hbelongs other (mem_cons_of_mem _ hmem)
    refine ⟨hpartly, fun write hwrite hplace => hplaces write hwrite ?_⟩
    by_cases hsame : write.offset = first.offset
    · rw [hsame, Belongs.unique hresolved hfirst hwrite hsame]
      exact .inr (read_put_self hinside)
    rw [read_put_other (hfirst.aligned hresolved) (hwrite.aligned hresolved) hsame]
    rcases hplace with hmem | hread
    · exact .inl ((mem_cons.mp hmem).resolve_left fun heq => hsame (heq ▸ rfl))
    · exact .inr hread

/-! ## The fresh region -/

omit [Codec] in
theorem read_fresh {length offset : Nat} (h : offset + blockSize ≤ length) :
    ∃ block, (fresh length).read offset = .ok block ∧ isZero block.bytes = true := by
  have hslice : slice (zeros length) offset blockSize = zeros blockSize := by
    simp only [slice, zeros, drop_replicate, take_replicate]
    congr 1
    omega
  refine ⟨⟨zeros blockSize, length_zeros _⟩, ?_, ?_⟩
  · refine read_eq_ok.mpr ⟨?_, hslice⟩
    show offset + blockSize ≤ (zeros length).length
    rwa [length_zeros]
  · exact (isZero_iff _).mpr (by rw [length_zeros])

variable {binding : AuthorityBinding} {graph : Graph} {members : List MemberGeometry}
  {catalog : ValidatedCatalog} {region : MetadataRegion}

/-- Nothing of the catalog is written in a fresh region. -/
theorem Partly.fresh (haccepted : PoolCatalogGraph.Accepted binding graph members [] catalog)
    {member : MemberGeometry} (hmember : member ∈ members) :
    Partly (.fresh member.metadataLength) graph catalog.currentPages := by
  have hroots : 3 * blockSize ≤ member.metadataLength := haccepted.roots_inside hmember
  constructor
  · intro slot
    have hinside : rootOffset slot + blockSize ≤ member.metadataLength := by
      cases slot <;> simp only [rootOffset, pageSize, blockSize] at * <;> omega
    obtain ⟨block, hread, hzero⟩ := read_fresh hinside
    exact ⟨block, hread, .of_isZero hzero⟩
  · intro reference href expected _
    obtain ⟨block, hread, hzero⟩ := read_fresh (haccepted.inside href hmember)
    exact ⟨block, hread, .of_isZero hzero⟩

variable {slot : RootSlot} {authority : PoolAuthority.Authority} {staging : Staging}
  {block expected : Block} {images : List PageImage} {start : MetadataRegion} {image : PageImage}

/-- A catalog whose pages are in place, and whose root is in place in one copy, loads; what the
other copy may hold of the root does not matter. -/
theorem Partly.loads
    (haccepted : PoolCatalogGraph.Accepted (bindingOf authority) graph members [] catalog)
    (h : Partly region graph catalog.currentPages)
    (hroot : region.read (rootOffset slot) = .ok graph.rootBytes)
    (hholds : Holds region graph catalog.currentPages) :
    ∃ loaded, loadAuthorityCatalog region authority members = .ok loaded ∧
      loaded.validated = catalog := by
  refine load_of_named haccepted (names_of_accepted haccepted rfl hroot) ?_ hholds
  intro other block root hnames
  obtain ⟨found, hread, count, hcount⟩ := h.root other
  obtain rfl := ok.inj (hread.symm.trans hnames.read)
  obtain rfl := eq_of_decodeRoot_torn hcount hnames.decode haccepted.root
  exact ok.inj (hnames.decode.symm.trans haccepted.root)

/-! ## Initialization -/

theorem initializationCandidate_of_prefixed {root : Root}
    (hdecode : decodeRoot graph.rootBytes = .ok root)
    (h : ∃ block, region.read (rootOffset slot) = .ok block ∧ Prefixed graph.rootBytes block) :
    ∃ state, initializationCandidate (readRootCandidate region slot) graph.rootBytes = .ok state ∧
      state ≠ .conflict := by
  obtain ⟨block, hread, hheld⟩ := h
  unfold readRootCandidate
  rw [hread]
  cases hblock : decodeRoot block with
  | ok found =>
    obtain ⟨count, hcount⟩ := hheld
    obtain rfl := eq_of_decodeRoot_torn hcount hblock hdecode
    simp [decodeRootCandidate_of_decodeRoot hdecode, initializationCandidate]
  | error reason =>
    simp only [decodeRootCandidate, hblock]
    rcases prefixed_iff.mp hheld with rfl | hzero | hpart
    · exact absurd (hdecode.symm.trans hblock) (by simp)
    · simp [hzero, initializationCandidate]
    · split <;> simp [hpart, initializationCandidate]

theorem initializationCandidate_of_not_prefixed
    (hread : region.read (rootOffset slot) = .ok block) (h : ¬ Prefixed expected block) :
    initializationCandidate (readRootCandidate region slot) expected = .ok .conflict := by
  simp only [prefixed_iff, not_or] at h
  unfold readRootCandidate
  rw [hread]
  cases hblock : decodeRoot block with
  | ok root => simp [decodeRootCandidate_of_decodeRoot hblock, initializationCandidate, h]
  | error reason => simp [decodeRootCandidate, hblock, initializationCandidate, h]

/-- Without a previous catalog every page is written. -/
theorem stageEach_initial {references : List PageReference}
    (hresolves : ∀ reference ∈ references, ∃ block, resolveReference graph reference = .ok block) :
    ∃ writes, stageEach region [] graph references = .ok writes := by
  induction references with
  | nil => exact ⟨[], rfl⟩
  | cons first rest ih =>
    obtain ⟨writes, hwrites⟩ := ih fun reference hmem => hresolves reference
      (mem_cons_of_mem _ hmem)
    obtain ⟨block, hresolve⟩ := hresolves first mem_cons_self
    obtain ⟨-, image, hfind, hdigest, -⟩ := resolveReference_eq_ok.mp hresolve
    have himage : findImage graph.pages first = some image := by
      unfold findImage
      rw [hfind]
      exact if_neg (not_not.mpr hdigest)
    simp only [stageEach, stagePage, find?_nil, ok_iff]
    exact ⟨_, _, ⟨image, himage, rfl⟩, writes, hwrites, rfl⟩

theorem stageEach_belongs (hresolved : Resolved graph pages)
    (h : stageEach region [] graph pages = .ok writes) :
    ∀ write ∈ writes, Belongs graph pages write := by
  intro write hmem
  obtain ⟨reference, href, -, image, himage, rfl⟩ := (stageEach_eq_ok h).2.1 write hmem
  exact .inr ⟨reference, href, rfl, (findImage_eq_some (page_offset hresolved href).1 himage).2⟩

/-- An initialization attempt: all pages, then the root. -/
structure Initializing (region : MetadataRegion) (graph : Graph) (catalog : ValidatedCatalog)
    (staging : Staging) : Prop where
  pages : stageEach region [] graph catalog.currentPages = .ok staging.pages
  root : staging.root = graph.rootBytes

theorem stageInitialization_eq_ok
    (h : stageInitialization region authority catalog graph = .ok staging) :
    Initializing region graph catalog staging := by
  simp only [stageInitialization, stagePages, ok_iff] at h
  obtain ⟨_, -, -, pages, ⟨_, hpages, -, rfl⟩, rfl⟩ := h
  exact ⟨hpages, rfl⟩

section

variable (h : Initializing region graph catalog staging)
include h

theorem Initializing.belongs (hresolved : Resolved graph catalog.currentPages) :
    ∀ write ∈ staging.writes, Belongs graph catalog.currentPages write := by
  intro write hmem
  rcases mem_append.mp hmem with hpage | hroot
  · exact stageEach_belongs hresolved h.pages write hpage
  · obtain rfl := mem_singleton.mp hroot
    exact .inl ⟨staging.target, by rw [h.root]⟩

theorem Initializing.writes_page (hresolved : Resolved graph catalog.currentPages)
    {reference : PageReference} (href : reference ∈ catalog.currentPages)
    (hresolve : resolveReference graph reference = .ok block) :
    ⟨reference.offset, block⟩ ∈ staging.writes := by
  refine mem_append_left _ ?_
  rcases (stageEach_eq_ok h.pages).1 reference href with ⟨⟨_, hmem, -⟩, -⟩ | ⟨write, hmem, hwritten⟩
  · exact absurd hmem not_mem_nil
  obtain ⟨-, image, himage, rfl⟩ := hwritten
  have hblock := (findImage_eq_some (page_offset hresolved href).1 himage).2
  obtain rfl := ok.inj (hblock.symm.trans hresolve)
  exact hmem

end

/-- The initialization is not refused while the root copies and the pages hold prefixes. -/
theorem stageInitialization_of_partly
    (haccepted : PoolCatalogGraph.Accepted binding graph members [] catalog)
    (h : Partly region graph catalog.currentPages)
    (hgenesis : authority.generation = 0 ∧ authority.dataRootDigest = 0) :
    ∃ staging, stageInitialization region authority catalog graph = .ok staging := by
  have hresolved := haccepted.resolved
  obtain ⟨a, ha, hfreeA⟩ := initializationCandidate_of_prefixed haccepted.root (h.root .a)
  obtain ⟨b, hb, hfreeB⟩ := initializationCandidate_of_prefixed haccepted.root (h.root .b)
  obtain ⟨writes, hwrites⟩ : ∃ writes, stageEach region [] graph catalog.currentPages = .ok writes :=
    stageEach_initial hresolved.resolves
  have hinside : ∀ write ∈ writes, region.position write = .ok () := fun write hmem =>
    h.position (stageEach_belongs hresolved hwrites write hmem)
  simp only [stageInitialization, selectInitializationTarget, validateGraphRoot, stagePages, ok_iff,
    forAll_eq_ok, ne_eq, not_or, not_not]
  refine ⟨_, _, ⟨hgenesis, a, ?_, b, ?_, ⟨hfreeA, hfreeB⟩, rfl⟩,
    ⟨catalog.root, haccepted.root, rfl⟩, writes, ⟨writes, hwrites, hinside, rfl⟩, rfl⟩
  · show value (initializationCandidate (readRootCandidate region .a) graph.rootBytes) = some a
    rw [ha]
    rfl
  · show value (initializationCandidate (readRootCandidate region .b) graph.rootBytes) = some b
    rw [hb]
    rfl

/-- A root copy in conflict refuses the initialization. -/
theorem stageInitialization_of_conflict
    (h : initializationCandidate (readRootCandidate region slot) graph.rootBytes = .ok .conflict) :
    ∃ reason, stageInitialization region authority catalog graph = .error reason := by
  rcases hstage : stageInitialization region authority catalog graph with reason | staging
  · exact ⟨reason, rfl⟩
  simp only [stageInitialization, selectInitializationTarget, ok_iff, not_or] at hstage
  obtain ⟨_, ⟨-, a, ha, b, hb, ⟨hfreeA, hfreeB⟩, -⟩, -⟩ := hstage
  cases slot with
  | a =>
    have hconflict : value (.ok .conflict) = some a := h ▸ ha
    exact absurd (Option.some.inj hconflict).symm hfreeA
  | b =>
    have hconflict : value (.ok .conflict) = some b := h ▸ hb
    exact absurd (Option.some.inj hconflict).symm hfreeB

/-- An attempt that completes makes the catalog loadable. -/
theorem Initializing.loads {next : PoolAuthority.Authority}
    (haccepted : PoolCatalogGraph.Accepted (bindingOf next) graph members [] catalog)
    (hpartly : Partly region graph catalog.currentPages)
    (h : Initializing region graph catalog staging) :
    ∃ after loaded, staging.run region = .ok after ∧
      loadAuthorityCatalog after next members = .ok loaded ∧ loaded.validated = catalog := by
  have hresolved := haccepted.resolved
  have hbelongs := h.belongs hresolved
  obtain ⟨hafter, hplaces⟩ := hpartly.complete hresolved hbelongs
  have hrun : staging.run region = .ok (complete region staging.writes) := by
    simp only [Staging.run, ok_iff, forAll_eq_ok]
    exact ⟨fun write hmem => hpartly.position (hbelongs write hmem), trivial⟩
  have hroot : (complete region staging.writes).read (rootOffset staging.target) =
      .ok graph.rootBytes := by
    have hmem : ⟨rootOffset staging.target, graph.rootBytes⟩ ∈ staging.writes :=
      h.root ▸ mem_append_right _ (mem_singleton_self _)
    exact hplaces _ (hbelongs _ hmem) (.inl hmem)
  have hholds : Holds (complete region staging.writes) graph catalog.currentPages := by
    intro reference href block hresolve
    have hmem := h.writes_page hresolved href hresolve
    exact hplaces _ (hbelongs _ hmem) (.inl hmem)
  obtain ⟨loaded, hload, hcatalog⟩ := hafter.loads haccepted hroot hholds
  exact ⟨_, loaded, hrun, hload, hcatalog⟩

/-- One attempt to initialize the catalog, interrupted. -/
def InterruptedInitialization (authority : PoolAuthority.Authority) (catalog : ValidatedCatalog)
    (graph : Graph) (region after : MetadataRegion) : Prop :=
  ∃ staging counts, stageInitialization region authority catalog graph = .ok staging ∧
    after = interrupt region staging.writes counts

theorem InterruptedInitialization.partly (hresolved : Resolved graph catalog.currentPages)
    (hstart : Partly start graph catalog.currentPages)
    (hrun : Relation.ReflTransGen (InterruptedInitialization authority catalog graph) start region) :
    Partly region graph catalog.currentPages := by
  induction hrun with
  | refl => exact hstart
  | tail _ hstep ih =>
    obtain ⟨staging, counts, hstage, rfl⟩ := hstep
    exact ih.interrupt hresolved ((stageInitialization_eq_ok hstage).belongs hresolved)

/-! ## Installation -/

omit [Codec] in
/-- The installation is refused by the root copies that are in conflict for an initialization. -/
theorem installRootNeedsWrite_iff {candidate : RootCandidate} :
    (∃ needed, installRootNeedsWrite candidate expected = .ok needed) ↔
      ∃ state, initializationCandidate candidate expected = .ok state ∧ state ≠ .conflict := by
  cases candidate with
  | zero | unreadable reason => simp [installRootNeedsWrite, initializationCandidate]
  | valid _ | invalid _ _ =>
    simp only [installRootNeedsWrite, initializationCandidate]
    split <;> simp

/-- A root copy that is not written holds the root. -/
theorem installRootNeedsWrite_eq_false
    (h : installRootNeedsWrite (readRootCandidate region slot) expected = .ok false) :
    region.read (rootOffset slot) = .ok expected := by
  unfold readRootCandidate at h
  rcases hread : region.read (rootOffset slot) with _ | block
  · rw [hread] at h
    simp [installRootNeedsWrite] at h
  rw [hread] at h
  cases hcandidate : decodeRootCandidate block with
  | zero | unreadable reason => simp [hcandidate, installRootNeedsWrite] at h
  | invalid bytes reason =>
    simp only [hcandidate, installRootNeedsWrite] at h
    split at h <;> simp at h
  | valid valid =>
    obtain ⟨-, heq⟩ := decodeRootCandidate_valid hcandidate
    have hbytes : valid.bytes = block := by rw [heq]
    simp only [hcandidate, installRootNeedsWrite] at h
    split at h
    case isTrue hexpected => rw [← hexpected, hbytes]
    case isFalse => simp at h

omit [Codec] in
theorem installPage_iff (hread : region.read image.offset = .ok block) :
    (∃ write, installPage region image = .ok write) ↔ Prefixed image.block block := by
  simp only [installPage, hread, prefixed_iff, bind_eq_ok, ok.injEq, exists_eq_left']
  split
  case isTrue heq => simp [heq]
  case isFalse hne =>
    simp only [ok_iff, hne, false_or, exists_and_left, exists_eq', and_true, not_and_or, not_not]

omit [Codec] in
theorem installPage_eq_ok {write : Option RegionWrite} (h : installPage region image = .ok write) :
    (write = none → region.read image.offset = .ok image.block) ∧
      ∀ made ∈ write, made = ⟨image.offset, image.block⟩ := by
  simp only [installPage, bind_eq_ok] at h
  obtain ⟨actual, hread, h⟩ := h
  split at h
  case isTrue heq =>
    cases h
    exact ⟨fun _ => heq ▸ hread, by simp⟩
  case isFalse =>
    simp only [ok_iff] at h
    obtain ⟨-, rfl⟩ := h
    exact ⟨by simp, by simp⟩

omit [Codec] in
theorem installPages_iff : (∃ writes, installPages region images = .ok writes) ↔
    ∀ image ∈ images, ∃ write, installPage region image = .ok write := by
  induction images with
  | nil => simp [installPages]
  | cons image rest ih =>
    rw [forall_mem_cons, ← ih]
    simp only [installPages, ok_iff]
    constructor
    · rintro ⟨_, write, hwrite, writes, hwrites, -⟩
      exact ⟨⟨write, hwrite⟩, writes, hwrites⟩
    · rintro ⟨⟨write, hwrite⟩, writes, hwrites⟩
      exact ⟨_, write, hwrite, writes, hwrites, rfl⟩

omit [Codec] in
/-- Every page is written or in place, and only pages are written. -/
theorem installPages_eq_ok :
    ∀ {writes : List RegionWrite}, installPages region images = .ok writes →
      (∀ write ∈ writes, ∃ image ∈ images, write = ⟨image.offset, image.block⟩) ∧
      ∀ image ∈ images, ⟨image.offset, image.block⟩ ∈ writes ∨
        region.read image.offset = .ok image.block := by
  induction images with
  | nil =>
    rintro writes ⟨⟩
    simp
  | cons first rest ih =>
    intro writes h
    simp only [installPages, ok_iff] at h
    obtain ⟨write, hwrite, others, hothers, rfl⟩ := h
    obtain ⟨hfrom, hplace⟩ := ih hothers
    have hothers : ∀ write ∈ others, ∃ image ∈ first :: rest, write = ⟨image.offset, image.block⟩ := by
      intro write hmem
      obtain ⟨image, himage, heq⟩ := hfrom write hmem
      exact ⟨image, List.mem_cons_of_mem _ himage, heq⟩
    cases write with
    | none =>
      have hread := (installPage_eq_ok hwrite).1 rfl
      exact ⟨hothers, List.forall_mem_cons.mpr ⟨.inr hread, hplace⟩⟩
    | some made =>
      obtain rfl := (installPage_eq_ok hwrite).2 made rfl
      exact ⟨List.forall_mem_cons.mpr ⟨⟨first, List.mem_cons_self, rfl⟩, hothers⟩,
        List.forall_mem_cons.mpr ⟨.inl List.mem_cons_self, fun image hmem =>
          (hplace image hmem).imp_left (List.mem_cons_of_mem _)⟩⟩

theorem installWrites_of_root_conflict {source : Graph} (h : ¬ ∃ needed,
      installRootNeedsWrite (readRootCandidate region slot) source.rootBytes = .ok needed) :
    ∃ reason, installWrites region authority members source = .error reason := by
  cases hwrites : installWrites region authority members source with
  | error reason => exact ⟨reason, rfl⟩
  | ok writes =>
    simp only [installWrites, bind_eq_ok] at hwrites
    obtain ⟨_, -, _, -, _, -, _, -, needA, ha, needB, hb, -⟩ := hwrites
    cases slot with
    | a => exact absurd ⟨needA, ha⟩ h
    | b => exact absurd ⟨needB, hb⟩ h

theorem installWrites_of_page_conflict {source : Graph}
    (h : ¬ ∃ writes, installPages region source.pages = .ok writes) :
    ∃ reason, installWrites region authority members source = .error reason := by
  cases hwrites : installWrites region authority members source with
  | error reason => exact ⟨reason, rfl⟩
  | ok writes =>
    simp only [installWrites, bind_eq_ok] at hwrites
    obtain ⟨_, -, _, -, _, -, _, -, _, -, _, -, pages, hpages, -⟩ := hwrites
    exact absurd ⟨pages, hpages⟩ h

section

variable {source : MetadataRegion} {authority : PoolAuthority.Authority} {loaded : LoadedCatalog}

section

variable (hload : loadAuthorityCatalog source authority members = .ok loaded)
include hload

/-- The source of an installation belongs to the authority. -/
theorem installWrites_of_load {needA needB : Bool} {pages : List RegionWrite}
    (ha : installRootNeedsWrite (readRootCandidate region .a) loaded.graph.rootBytes = .ok needA)
    (hb : installRootNeedsWrite (readRootCandidate region .b) loaded.graph.rootBytes = .ok needB)
    (hpages : installPages region loaded.graph.pages = .ok pages)
    (hinside : forAll region.position pages = .ok ()) :
    installWrites region authority members loaded.graph = .ok
      (pages ++ (if needA then [⟨rootOffset .a, loaded.graph.rootBytes⟩] else []) ++
        if needB then [⟨rootOffset .b, loaded.graph.rootBytes⟩] else []) := by
  obtain ⟨-, haccepted, -, -, -⟩ := load_eq_ok hload
  have hbound := haccepted.bound
  simp only [validateRootBinding, ok_iff, ne_eq, not_not] at hbound
  obtain ⟨hgeneration, hset, digest, hdigest, hauthority, -⟩ := hbound
  simp only [installWrites, ok_iff, ne_eq, not_or, not_not]
  exact ⟨_, haccepted.root, digest, hdigest, ⟨hgeneration, hset, hauthority⟩, _,
    accepted_iff.mpr haccepted, needA, ha, needB, hb, pages, hpages, hinside, rfl⟩

/-- An installation writes only blocks of the catalog, and every block of the catalog is written or
in place. -/
theorem installWrites_eq_ok (h : installWrites region authority members loaded.graph = .ok writes) :
    (∀ write ∈ writes, Belongs loaded.graph loaded.validated.currentPages write) ∧
      ∀ write, Belongs loaded.graph loaded.validated.currentPages write →
        write ∈ writes ∨ region.read write.offset = .ok write.block := by
  obtain ⟨-, haccepted, -, -, -⟩ := load_eq_ok hload
  have himages := load_images hload
  simp only [installWrites, ok_iff] at h
  obtain ⟨_, -, _, -, -, _, -, needA, ha, needB, hb, pages, hpages, -, rfl⟩ := h
  obtain ⟨hfrom, hplace⟩ := installPages_eq_ok hpages
  simp only [mem_append, mem_ite_nil_right, mem_singleton]
  constructor
  · rintro write ((hpage | ⟨-, rfl⟩) | ⟨-, rfl⟩)
    · obtain ⟨image, himage, rfl⟩ := hfrom write hpage
      exact .inr (himages.page_of_image himage)
    · exact .inl ⟨.a, rfl⟩
    · exact .inl ⟨.b, rfl⟩
  · rintro write (⟨slot, rfl⟩ | ⟨reference, href, hoffset, hresolve⟩)
    · cases slot with
      | a =>
        cases needA with
        | false => exact .inr (installRootNeedsWrite_eq_false ha)
        | true => exact .inl (.inl (.inr ⟨rfl, rfl⟩))
      | b =>
        cases needB with
        | false => exact .inr (installRootNeedsWrite_eq_false hb)
        | true => exact .inl (.inr ⟨rfl, rfl⟩)
    · have hfind := himages.find haccepted.resolved.distinct href hresolve
      have hplaced := hplace _ (mem_of_find?_eq_some hfind)
      rw [← hoffset] at hplaced
      exact hplaced.imp_left fun hmem => .inl (.inl hmem)

/-- The installation is not refused while the root copies and the pages hold prefixes. -/
theorem installWrites_of_partly (h : Partly region loaded.graph loaded.validated.currentPages) :
    ∃ writes, installWrites region authority members loaded.graph = .ok writes := by
  obtain ⟨-, haccepted, -, -, -⟩ := load_eq_ok hload
  have hneeded := fun slot => installRootNeedsWrite_iff.mpr
    (initializationCandidate_of_prefixed haccepted.root (h.root slot))
  obtain ⟨⟨needA, ha⟩, needB, hb⟩ := And.intro (hneeded .a) (hneeded .b)
  have hbelongs : ∀ image ∈ loaded.graph.pages, Belongs loaded.graph
      loaded.validated.currentPages ⟨image.offset, image.block⟩ :=
    fun image hmem => .inr ((load_images hload).page_of_image hmem)
  obtain ⟨pages, hpages⟩ := installPages_iff.mpr fun image hmem =>
    let ⟨_, hread, hheld⟩ := h.prefixed (hbelongs image hmem)
    (installPage_iff hread).mpr hheld
  have hinside : forAll region.position pages = .ok () := by
    rw [forAll_eq_ok]
    intro write hmem
    obtain ⟨image, himage, rfl⟩ := (installPages_eq_ok hpages).1 write hmem
    exact h.position (hbelongs image himage)
  exact ⟨_, installWrites_of_load hload ha hb hpages hinside⟩

end

/-- When both copies hold the root, the mirror is not degraded. -/
theorem mirror_of_names {selection : RootSelection}
    (hnames : ∀ slot, ∃ block root, Names region authority slot block root)
    (hselect : selectAuthorityRoot (readRootCopies region) authority = .ok selection) :
    selection.mirrorDegraded = false := by
  have ha : candidateMatches (readRootCopies region).a authority = true :=
    candidateMatches_iff.mpr (hnames .a)
  have hb : candidateMatches (readRootCopies region).b authority = true :=
    candidateMatches_iff.mpr (hnames .b)
  simp only [selectAuthorityRoot, ok_iff, ha, hb] at hselect
  obtain ⟨-, -, _, -, rfl⟩ := hselect
  rfl

/-- An installation into a partly written region completes, and the catalog loads. -/
theorem installAuthorityCatalog_of_partly
    (hload : loadAuthorityCatalog source authority members = .ok loaded)
    (h : Partly region loaded.graph loaded.validated.currentPages) :
    ∃ after again, installAuthorityCatalog region authority members loaded.graph =
        .ok (after, again) ∧
      loadAuthorityCatalog after authority members = .ok again ∧
      again.validated = loaded.validated := by
  obtain ⟨-, haccepted, -, -, -⟩ := load_eq_ok hload
  have hresolved := haccepted.resolved
  obtain ⟨writes, hwrites⟩ := installWrites_of_partly hload h
  obtain ⟨hbelongs, hplace⟩ := installWrites_eq_ok hload hwrites
  obtain ⟨hafter, hplaces⟩ := h.complete hresolved hbelongs
  have hinside : forAll region.position writes = .ok () :=
    forAll_eq_ok.mpr fun write hmem => h.position (hbelongs write hmem)
  have hall : ∀ write, Belongs loaded.graph loaded.validated.currentPages write →
      (complete region writes).read write.offset = .ok write.block :=
    fun write hwrite => hplaces write hwrite (hplace write hwrite)
  have hroot : ∀ slot, (complete region writes).read (rootOffset slot) =
      .ok loaded.graph.rootBytes := fun slot => hall _ (.inl ⟨slot, rfl⟩)
  have hholds : Holds (complete region writes) loaded.graph loaded.validated.currentPages :=
    fun reference href block hresolve => hall ⟨_, _⟩ (.inr ⟨reference, href, rfl, hresolve⟩)
  obtain ⟨again, hagain, hcatalog⟩ := hafter.loads haccepted (hroot .a) hholds
  have hmirror : again.selection.mirrorDegraded = false :=
    mirror_of_names (fun slot => ⟨_, _, names_of_accepted haccepted rfl (hroot slot)⟩)
      (load_eq_ok hagain).1
  refine ⟨complete region writes, again, ?_, hagain, hcatalog⟩
  simp only [installAuthorityCatalog, ok_iff]
  exact ⟨writes, hwrites, hinside, again, hagain, by simp [hmirror], rfl⟩

/-- One attempt to install the catalog, interrupted. -/
def InterruptedInstallation (authority : PoolAuthority.Authority) (members : List MemberGeometry)
    (source : Graph) (region after : MetadataRegion) : Prop :=
  ∃ writes counts, installWrites region authority members source = .ok writes ∧
    after = interrupt region writes counts

theorem InterruptedInstallation.partly
    (hload : loadAuthorityCatalog source authority members = .ok loaded)
    (hstart : Partly start loaded.graph loaded.validated.currentPages)
    (hrun : Relation.ReflTransGen (InterruptedInstallation authority members loaded.graph) start
      region) :
    Partly region loaded.graph loaded.validated.currentPages := by
  obtain ⟨-, haccepted, -, -, -⟩ := load_eq_ok hload
  induction hrun with
  | refl => exact hstart
  | tail _ hstep ih =>
    obtain ⟨writes, counts, hwrites, rfl⟩ := hstep
    exact ih.interrupt haccepted.resolved (installWrites_eq_ok hload hwrites).1

end

/-! ## Retry -/

/-- Interrupted initializations and installations can be repeated. From a fresh region, after any
number of interrupted attempts, the same operation succeeds and the catalog loads; a root copy, or
for the installation a page, that holds anything but a prefix of what it is to hold makes the
operation fail before it writes. -/
theorem interrupted_retry_succeeds :
    (∀ (authority next : PoolAuthority.Authority) (graph : Graph) (members : List MemberGeometry)
      (catalog : ValidatedCatalog) (member : MemberGeometry) (region : MetadataRegion),
      authority.generation = 0 → authority.dataRootDigest = 0 → next.generation = 1 →
      validateGraph (bindingOf next) graph members = .ok catalog → member ∈ members →
      Relation.ReflTransGen (InterruptedInitialization authority catalog graph)
        (.fresh member.metadataLength) region →
      ∃ staging after loaded, stageInitialization region authority catalog graph = .ok staging ∧
        staging.run region = .ok after ∧
        loadAuthorityCatalog after next members = .ok loaded ∧ loaded.validated = catalog) ∧
    (∀ (authority : PoolAuthority.Authority) (members : List MemberGeometry)
      (source region : MetadataRegion) (loaded : LoadedCatalog) (member : MemberGeometry),
      loadAuthorityCatalog source authority members = .ok loaded → member ∈ members →
      Relation.ReflTransGen (InterruptedInstallation authority members loaded.graph)
        (.fresh member.metadataLength) region →
      ∃ after again, installAuthorityCatalog region authority members loaded.graph =
          .ok (after, again) ∧
        loadAuthorityCatalog after authority members = .ok again ∧
        again.validated = loaded.validated) ∧
    (∀ (authority : PoolAuthority.Authority) (graph : Graph) (catalog : ValidatedCatalog)
      (region : MetadataRegion) (slot : RootSlot) (block : Block),
      region.read (rootOffset slot) = .ok block → ¬ Prefixed graph.rootBytes block →
      ∃ reason, stageInitialization region authority catalog graph = .error reason) ∧
    ∀ (authority : PoolAuthority.Authority) (members : List MemberGeometry) (source : Graph)
      (region : MetadataRegion) (block : Block),
      ((∃ slot, region.read (rootOffset slot) = .ok block ∧ ¬ Prefixed source.rootBytes block) ∨
        ∃ image ∈ source.pages, region.read image.offset = .ok block ∧
          ¬ Prefixed image.block block) →
      ∃ reason, installWrites region authority members source = .error reason := by
  refine ⟨?_, ?_, ?_, ?_⟩
  · intro authority next graph members catalog member region hgeneration hdigest _ hgraph hmember
      hrun
    have haccepted := accepted_iff.mp hgraph
    have hpartly := InterruptedInitialization.partly haccepted.resolved
      (Partly.fresh haccepted hmember) hrun
    obtain ⟨staging, hstage⟩ :=
      stageInitialization_of_partly haccepted hpartly ⟨hgeneration, hdigest⟩
    obtain ⟨after, loaded, hloaded⟩ := (stageInitialization_eq_ok hstage).loads haccepted hpartly
    exact ⟨staging, after, loaded, hstage, hloaded⟩
  · intro authority members source region loaded member hload hmember hrun
    obtain ⟨-, haccepted, -, -, -⟩ := load_eq_ok hload
    exact installAuthorityCatalog_of_partly hload
      (InterruptedInstallation.partly hload (Partly.fresh haccepted hmember) hrun)
  · intro authority graph catalog region slot block hread hconflict
    exact stageInitialization_of_conflict (initializationCandidate_of_not_prefixed hread hconflict)
  · rintro authority members source region block (⟨slot, hread, hconflict⟩ | ⟨image, hmem, hread,
      hconflict⟩)
    · apply installWrites_of_root_conflict
      rw [installRootNeedsWrite_iff, initializationCandidate_of_not_prefixed hread hconflict]
      simp
    · exact installWrites_of_page_conflict fun hpages =>
        hconflict ((installPage_iff hread).mp (installPages_iff.mp hpages image hmem))

end Zettide.PoolCatalogStore
