import Zettide.Catalog.Resolved

/-! # Loading a catalog

A load finds the catalog of an authority whenever the region holds its pages and one of the root
copies: nothing else in the region matters. Around this there are two facts about regions, that a
write changes one block only, and that the writes of a list, whatever becomes of each, leave every
other block alone. -/

namespace Zettide.PoolCatalogStore

open Bytes PoolCatalog PoolCatalogPage PoolCatalogGraph List MetadataRegion Except PageReference

/-! ## Reading and writing blocks -/

namespace MetadataRegion

variable {region : MetadataRegion} {offset other : Nat} {block : Block}

theorem read_eq_ok : region.read offset = .ok block ↔
    offset + blockSize ≤ region.bytes.length ∧ slice region.bytes offset blockSize = block.bytes := by
  unfold read
  by_cases h : offset + blockSize ≤ region.bytes.length
  · cases block with
    | mk bytes hbytes => simp [h]
  · simp [h]

theorem put_length : (region.put offset block).bytes.length = region.bytes.length := by
  unfold put
  split
  case isTrue h =>
    apply patch_length
    rw [block.length_bytes]
    exact h
  case isFalse h => rfl

theorem read_put_self (h : offset + blockSize ≤ region.bytes.length) :
    (region.put offset block).read offset = .ok block := by
  have hpatch : offset + block.bytes.length ≤ region.bytes.length := by
    rw [block.length_bytes]
    exact h
  have hself := slice_patch_self hpatch
  rw [block.length_bytes] at hself
  rw [read_eq_ok, put_length]
  refine ⟨h, ?_⟩
  unfold put
  rw [if_pos h]
  exact hself

/-- Blocks at different multiples of the block size do not meet. -/
theorem apart_of_aligned (hoffset : offset % blockSize = 0) (hother : other % blockSize = 0)
    (hne : other ≠ offset) : other + blockSize ≤ offset ∨ offset + blockSize ≤ other := by
  simp only [blockSize] at *
  omega

theorem read_put_other (hoffset : offset % blockSize = 0) (hother : other % blockSize = 0)
    (hne : other ≠ offset) : (region.put offset block).read other = region.read other := by
  have hlength : (region.put offset block).bytes.length = region.bytes.length := put_length
  have hslice : slice (region.put offset block).bytes other blockSize =
      slice region.bytes other blockSize := by
    unfold put
    split
    case isTrue h =>
      have hpatch : offset + block.bytes.length ≤ region.bytes.length := by
        rw [block.length_bytes]
        exact h
      apply slice_patch_other hpatch
      rw [block.length_bytes]
      exact apart_of_aligned hoffset hother hne
    case isFalse h => rfl
  unfold read
  by_cases hbound : other + blockSize ≤ region.bytes.length
  · rw [dif_pos (hlength ▸ hbound), dif_pos hbound]
    simp only [hslice]
  · rw [dif_neg (hlength ▸ hbound), dif_neg hbound]

/-- The region made of the given blocks. -/
def ofBlocks (blocks : List Block) : MetadataRegion := ⟨blocks.flatMap Block.bytes⟩

theorem length_ofBlocks (blocks : List Block) :
    (ofBlocks blocks).bytes.length = blockSize * blocks.length := by
  induction blocks with
  | nil => rfl
  | cons block rest ih =>
    show (block.bytes ++ (ofBlocks rest).bytes).length = blockSize * (rest.length + 1)
    rw [length_append, ih, block.length_bytes, Nat.mul_succ, Nat.add_comm]

variable {blocks : List Block} {block : Block} {index : Nat}

theorem slice_ofBlocks (h : blocks[index]? = some block) :
    slice (ofBlocks blocks).bytes (blockSize * index) blockSize = block.bytes := by
  induction blocks generalizing index with
  | nil => simp at h
  | cons first rest ih =>
    show slice (first.bytes ++ (ofBlocks rest).bytes) (blockSize * index) blockSize = block.bytes
    cases index with
    | zero =>
      obtain rfl : first = block := by simpa using h
      rw [Nat.mul_zero, slice_zero, take_left' first.length_bytes]
    | succ index =>
      rw [Nat.mul_succ, Nat.add_comm, slice, ← drop_drop, drop_left' first.length_bytes]
      exact ih (by simpa using h)

theorem read_ofBlocks (h : blocks[index]? = some block) :
    (ofBlocks blocks).read (blockSize * index) = .ok block := by
  have hindex : index < blocks.length := (List.getElem?_eq_some_iff.mp h).1
  refine read_eq_ok.mpr ⟨?_, slice_ofBlocks h⟩
  rw [length_ofBlocks, ← Nat.mul_succ]
  exact Nat.mul_le_mul_left _ hindex

theorem mem_of_read_ofBlocks {offset : Nat}
    (haligned : offset % blockSize = 0) (h : (ofBlocks blocks).read offset = .ok block) :
    block ∈ blocks := by
  obtain ⟨index, rfl⟩ := Nat.dvd_of_mod_eq_zero haligned
  have hinside := (read_eq_ok.mp h).1
  rw [length_ofBlocks, ← Nat.mul_succ] at hinside
  have hindex : index < blocks.length := Nat.le_of_mul_le_mul_left hinside (by decide)
  have hread := read_ofBlocks (getElem?_eq_getElem hindex)
  rw [hread] at h
  exact ok.inj h ▸ getElem_mem hindex

end MetadataRegion

/-! ## Lists of writes -/

/-- The writes are to whole blocks. -/
def Aligned (writes : List RegionWrite) : Prop := ∀ write ∈ writes, write.offset % blockSize = 0

variable {writes : List RegionWrite} {region : MetadataRegion} {write : RegionWrite}

theorem Aligned.tail (h : Aligned (write :: writes)) : Aligned writes :=
  fun other hmem => h other (mem_cons_of_mem _ hmem)

/-- A block that is not written stays, whatever becomes of the writes. -/
theorem settle_read_other {offset : Nat} (haligned : offset % blockSize = 0) :
    ∀ {region : MetadataRegion} {fates : List Fate}, Aligned writes →
      (∀ write ∈ writes, write.offset ≠ offset) →
      (settle region writes fates).read offset = region.read offset := by
  induction writes with
  | nil => exact fun _ _ => rfl
  | cons write rest ih =>
    intro region fates h hother
    cases fates with
    | nil => rfl
    | cons fate fates =>
      have hwrite : write.offset % blockSize = 0 := h write mem_cons_self
      have hne : offset ≠ write.offset := (hother write mem_cons_self).symm
      have hafter : (region.after write fate).read offset = region.read offset := by
        cases fate with
        | durable => exact read_put_other hwrite haligned hne
        | lost => rfl
        | torn left => exact read_put_other hwrite haligned hne
      show (settle (region.after write fate) rest fates).read offset = _
      rw [ih h.tail fun other hmem => hother other (mem_cons_of_mem _ hmem), hafter]

theorem complete_read_other {offset : Nat} (h : Aligned writes) (haligned : offset % blockSize = 0)
    (hother : ∀ write ∈ writes, write.offset ≠ offset) :
    (complete region writes).read offset = region.read offset :=
  settle_read_other haligned h hother

theorem position_eq_ok :
    region.position write = .ok () ↔ write.offset + blockSize ≤ region.bytes.length := by
  simp [position]

/-- What was written is read back, when no write is refused and no block is written twice. -/
theorem complete_read_self : ∀ {region : MetadataRegion}, Aligned writes →
      (∀ write ∈ writes, write.offset + blockSize ≤ region.bytes.length) →
      (writes.map RegionWrite.offset).Nodup → ∀ write ∈ writes,
      (complete region writes).read write.offset = .ok write.block := by
  induction writes with
  | nil => simp
  | cons first rest ih =>
    intro region h hinside hdistinct write hmem
    rw [map_cons, nodup_cons] at hdistinct
    show (complete (region.put first.offset first.block) rest).read _ = _
    rcases mem_cons.mp hmem with rfl | hrest
    · rw [complete_read_other h.tail (h write mem_cons_self),
        read_put_self (hinside write mem_cons_self)]
      intro other hother heq
      exact hdistinct.1 (mem_map.mpr ⟨other, hother, heq⟩)
    · refine ih h.tail (fun other hother => ?_) hdistinct.2 write hrest
      rw [put_length]
      exact hinside other (mem_cons_of_mem _ hother)

/-! ## Root copies -/

theorem rootOffset_aligned (slot : RootSlot) : rootOffset slot % blockSize = 0 := by
  cases slot <;> decide

theorem rootOffset_injective {slot other : RootSlot} (h : rootOffset slot = rootOffset other) :
    slot = other := by
  cases slot <;> cases other <;> first | rfl | exact absurd h (by decide)

/-! ## Loading -/

variable [Codec]

/-- The region holds the bytes to which the graph resolves the pages. -/
def Holds (region : MetadataRegion) (graph : Graph) (pages : List PageReference) : Prop :=
  ∀ reference ∈ pages, ∀ block, resolveReference graph reference = .ok block →
    region.read reference.offset = .ok block

/-- The images of the pages of a graph. -/
def Images (graph : Graph) (pages : List PageReference) (images : List PageImage) : Prop :=
  List.Forall₂ (fun reference image => image.offset = reference.offset ∧
    resolveReference graph reference = .ok image.block) pages images

variable {region : MetadataRegion} {graph : Graph} {authority : PoolAuthority.Authority}
  {block : Block} {images : List PageImage} {pages references : List PageReference}
  {members : List MemberGeometry} {root : Root} {slot : RootSlot} {loaded : LoadedCatalog}
  {selection : RootSelection} {catalog : ValidatedCatalog} {reference : PageReference}

section

variable (h : Images graph pages images)
include h

theorem Images.offsets : images.map PageImage.offset = pages.map offset := by
  induction h with
  | nil => rfl
  | cons hhead _ ih => simp [hhead.1, ih]

theorem Images.find (hdistinct : (pages.map offset).Nodup) (hmem : reference ∈ pages)
    (hresolve : resolveReference graph reference = .ok block) :
    images.find? (fun image => image.offset = reference.offset) =
      some ⟨reference.offset, block⟩ := by
  induction h with
  | nil => simp at hmem
  | @cons first image rest images hhead htail ih =>
    rw [map_cons, nodup_cons] at hdistinct
    rcases mem_cons.mp hmem with rfl | hrest
    · rw [find?_cons_of_pos (by simp [hhead.1])]
      obtain ⟨offset, imageBlock⟩ := image
      obtain ⟨rfl, hblock⟩ := hhead
      obtain rfl : imageBlock = block := ok.inj (hblock.symm.trans hresolve)
      rfl
    · have hne : first.offset ≠ reference.offset := fun heq =>
        hdistinct.1 (heq ▸ mem_map_of_mem hrest)
      rw [find?_cons_of_neg (by simp [hhead.1, hne])]
      exact ih hdistinct.2 hrest

theorem Images.page_of_image {image : PageImage} (hmem : image ∈ images) :
    ∃ reference ∈ pages, image.offset = reference.offset ∧
      resolveReference graph reference = .ok image.block := by
  induction h with
  | nil => exact absurd hmem not_mem_nil
  | cons hhead _ ih =>
    rcases mem_cons.mp hmem with rfl | hrest
    · exact ⟨_, mem_cons_self, hhead⟩
    · obtain ⟨reference, href, hresolve⟩ := ih hrest
      exact ⟨reference, mem_cons_of_mem _ href, hresolve⟩

/-- The images resolve the pages as the graph does. -/
theorem Images.agrees (hdistinct : (pages.map offset).Nodup)
    (root : Block) : PoolCatalogGraph.Agrees graph ⟨root, images⟩ pages := by
  intro reference hmem block hresolve
  obtain ⟨hvalid, image, -, hdigest, rfl⟩ := resolveReference_eq_ok.mp hresolve
  exact resolveReference_eq_ok.mpr ⟨hvalid, _, h.find hdistinct hmem hresolve, hdigest, rfl⟩

theorem loadPage_of_holds (hresolved : Resolved graph (pages ++ [reference]))
    (hholds : Holds region graph (pages ++ [reference])) :
    ∃ images', loadPage region images reference = .ok images' ∧
      Images graph (pages ++ [reference]) images' := by
  have hmem : reference ∈ pages ++ [reference] := by simp
  obtain ⟨block, hresolve⟩ := hresolved.resolves reference hmem
  obtain ⟨hvalid, image, -, hdigest, rfl⟩ := resolveReference_eq_ok.mp hresolve
  have hfresh : images.find? (fun image => image.offset = reference.offset) = none := by
    rw [find?_eq_none]
    intro other hother
    have hoffset : other.offset ∈ pages.map offset := by
      rw [← h.offsets]
      exact mem_map_of_mem hother
    have hdistinct := hresolved.distinct
    rw [map_append, nodup_append] at hdistinct
    simpa using hdistinct.2.2 _ hoffset reference.offset (by simp)
  have hroom : images.length ≠ maxCurrentPageCount := by
    have hbounded := hresolved.bounded
    have hlength : images.length = pages.length := (List.Forall₂.length_eq h).symm
    rw [length_append, length_singleton] at hbounded
    omega
  refine ⟨images ++ [⟨reference.offset, image.block⟩], ?_,
    rel_append h (List.Forall₂.cons ⟨rfl, hresolve⟩ .nil)⟩
  simp only [loadPage, if_neg (hresolved.page reference hmem), ok_iff]
  refine ⟨hvalid, ?_⟩
  rw [hfresh]
  simp only [ok_iff]
  exact ⟨hroom, image.block, hholds reference hmem _ hresolve, not_not.mpr hdigest, rfl⟩

end

theorem loadPages_of_holds :
    ∀ {pages : List PageReference} {images : List PageImage}, Images graph pages images →
      Resolved graph (pages ++ pagesOf references) →
      Holds region graph (pages ++ pagesOf references) →
      ∃ images', loadPages region references images = .ok images' ∧
        Images graph (pages ++ pagesOf references) images' := by
  induction references with
  | nil =>
    intro pages images h _ _
    exact ⟨images, rfl, by simpa [pagesOf] using h⟩
  | cons reference rest ih =>
    intro pages images h hresolved hholds
    by_cases hnull : reference.isNull
    · have hpages : pagesOf (reference :: rest) = pagesOf rest := by simp [pagesOf, hnull]
      rw [hpages] at hresolved hholds ⊢
      obtain ⟨images', hload, himages⟩ := ih h hresolved hholds
      refine ⟨images', ?_, himages⟩
      simp only [loadPages, loadPage, if_pos hnull, ok_iff, exists_eq_left']
      exact hload
    · have hpages : pages ++ pagesOf (reference :: rest) =
          (pages ++ [reference]) ++ pagesOf rest := by simp [pagesOf, hnull]
      rw [hpages] at hresolved hholds ⊢
      obtain ⟨middle, hload, hmiddle⟩ := loadPage_of_holds h hresolved.left
        fun other hmem => hholds other (mem_append_left _ hmem)
      obtain ⟨images', hrest, himages⟩ := ih hmiddle hresolved hholds
      exact ⟨images', (bind_eq_ok _ _ _).mpr ⟨middle, hload, hrest⟩, himages⟩

/-- The loaded images pass the checks that a graph has to pass on entry. -/
theorem Images.inputs {binding : AuthorityBinding} (root : Block)
    (hinputs : validateInputs binding graph members = .ok ()) (hresolved : Resolved graph pages)
    (h : Images graph pages images) : validateInputs binding ⟨root, images⟩ members = .ok () := by
  simp only [validateInputs, ok_iff] at hinputs ⊢
  obtain ⟨htopology, hlayout, access, haccess, hbinding, hsome, hmembers, hall, -⟩ := hinputs
  refine ⟨htopology, hlayout, access, haccess, hbinding, hsome, hmembers, hall, ?_⟩
  have hvalid : ∀ image ∈ images, validate ⟨image.offset, 1⟩ = .ok () := by
    intro image hmem
    obtain ⟨reference, href, hoffset⟩ : ∃ reference ∈ pages, reference.offset = image.offset := by
      have hoffset : image.offset ∈ pages.map offset := by
        rw [← h.offsets]
        exact mem_map_of_mem hmem
      simpa using hoffset
    obtain ⟨block, hresolve⟩ := hresolved.resolves reference href
    have hpage : ¬ reference.offset = 0 := hresolved.page reference href
    have hreference := (resolveReference_eq_ok.mp hresolve).1
    simp only [validate, ← hoffset, if_neg hpage, ok_iff, not_or] at hreference ⊢
    exact ⟨⟨hreference.1.1, hreference.1.2.1, by decide⟩, hreference.2⟩
  have hdistinct : (images.map PageImage.offset).Nodup := h.offsets ▸ hresolved.distinct
  refine forAllWithPrevious_eq_ok.mpr fun before image after heq => ?_
  simp only [validatePageImage, ok_iff]
  refine ⟨hvalid image (by simp [heq]), ?_⟩
  rintro ⟨other, hother, hsame⟩
  rw [heq, map_append, nodup_append] at hdistinct
  exact hdistinct.2.2 _ (mem_map_of_mem hother) _ (by simp) hsame

/-! ## Finding the root -/

/-- The digest by which an authority names the root in a block. -/
def contentDigest (block : Block) : Digest := Codec.blake3 (slice block.bytes 0 rootChecksumOffset)

theorem isZero_of_decodeRoot (h : decodeRoot block = .ok root) : isZero block.bytes = false := by
  by_contra hzero
  have hbytes := (isZero_iff block.bytes).mp (by simpa using hzero)
  simp only [decodeRoot, ok_iff, not_not, ne_eq] at h
  obtain ⟨-, hmagic, -⟩ := h
  rw [hbytes, block.length_bytes] at hmagic
  exact absurd hmagic (by decide)

theorem decodeRootCandidate_of_decodeRoot (h : decodeRoot block = .ok root) :
    decodeRootCandidate block = .valid ⟨root, block, contentDigest block⟩ := by
  unfold decodeRootCandidate
  rw [isZero_of_decodeRoot h, h]
  simp [rootDigest_of_decodeRoot h, contentDigest]

theorem decodeRootCandidate_valid {valid : ValidRoot}
    (h : decodeRootCandidate block = .valid valid) :
    decodeRoot block = .ok valid.root ∧ valid = ⟨valid.root, block, contentDigest block⟩ := by
  cases hdecode : decodeRoot block with
  | error reason =>
    unfold decodeRootCandidate at h
    rw [hdecode] at h
    by_cases hzero : isZero block.bytes = true
    · simp [hzero] at h
    · simp [hzero] at h
  | ok root =>
    rw [decodeRootCandidate_of_decodeRoot hdecode] at h
    cases h
    exact ⟨rfl, rfl⟩

/-- The root copy of a slot holds the root that the authority names. -/
structure Names (region : MetadataRegion) (authority : PoolAuthority.Authority) (slot : RootSlot)
    (block : Block) (root : Root) : Prop where
  read : region.read (rootOffset slot) = .ok block
  decode : decodeRoot block = .ok root
  generation : root.generation = authority.generation
  setId : root.setId = authority.topology.setId
  digest : contentDigest block = authority.dataRootDigest

theorem Names.candidate (h : Names region authority slot block root) :
    readRootCandidate region slot = .valid ⟨root, block, contentDigest block⟩ := by
  unfold readRootCandidate
  rw [h.read]
  exact decodeRootCandidate_of_decodeRoot h.decode

theorem candidateMatches_iff : candidateMatches (readRootCandidate region slot) authority = true ↔
      ∃ block root, Names region authority slot block root := by
  constructor
  · intro h
    rcases hread : region.read (rootOffset slot) with _ | block
    · simp [readRootCandidate, hread, candidateMatches] at h
    simp only [readRootCandidate, hread] at h
    cases hcandidate : decodeRootCandidate block with
    | valid valid =>
      obtain ⟨hdecode, heq⟩ := decodeRootCandidate_valid hcandidate
      rw [hcandidate, heq] at h
      simp only [candidateMatches, Bool.and_eq_true, decide_eq_true_eq] at h
      exact ⟨block, valid.root, hread, hdecode, h.1.1, h.1.2, h.2⟩
    | zero | unreadable reason | invalid bytes reason => simp [hcandidate, candidateMatches] at h
  · rintro ⟨block, root, h⟩
    simp [h.candidate, candidateMatches, h.generation, h.setId, h.digest]

/-- The copy that a selection takes the root from. -/
theorem chosen_copy (hsome : ¬ (candidateMatches (readRootCopies region).a authority = false ∧
      candidateMatches (readRootCopies region).b authority = false)) :
    ∃ slot block root, Names region authority slot block root ∧
      (if candidateMatches (readRootCopies region).a authority = true then
        (readRootCopies region).a.validRoot else (readRootCopies region).b.validRoot) =
          some ⟨root, block, contentDigest block⟩ ∧
      (slot = .a ↔ candidateMatches (readRootCopies region).a authority = true) := by
  by_cases ha : candidateMatches (readRootCopies region).a authority = true
  · obtain ⟨block, root, hnames⟩ := candidateMatches_iff.mp ha
    have hcandidate : (readRootCopies region).a = _ := hnames.candidate
    exact ⟨.a, block, root, hnames, by rw [if_pos ha, hcandidate]; rfl, by simp [ha]⟩
  · have hb : candidateMatches (readRootCopies region).b authority = true := by
      by_contra hb
      exact hsome ⟨by simpa using ha, by simpa using hb⟩
    obtain ⟨block, root, hnames⟩ := candidateMatches_iff.mp hb
    have hcandidate : (readRootCopies region).b = _ := hnames.candidate
    exact ⟨.b, block, root, hnames, by rw [if_neg ha, hcandidate]; rfl, by simp [ha]⟩

/-- A selection that succeeds returns the root of a copy, and never aims at the only copy that
matches. -/
theorem selectAuthorityRoot_eq_ok
    (h : selectAuthorityRoot (readRootCopies region) authority = .ok selection) :
    ∃ slot block root, Names region authority slot block root ∧
      selection.authoritative = ⟨root, block, contentDigest block⟩ ∧
      (selection.target = slot → ∃ other otherBlock otherRoot, other ≠ slot ∧
        Names region authority other otherBlock otherRoot) := by
  simp only [selectAuthorityRoot, ok_iff] at h
  obtain ⟨-, hsome, authoritative, hauthoritative, rfl⟩ := h
  obtain ⟨slot, block, root, hnames, hchosen, hslot⟩ := chosen_copy hsome
  rw [hchosen] at hauthoritative
  refine ⟨slot, block, root, hnames, (Option.some.inj hauthoritative).symm, fun htarget => ?_⟩
  dsimp only at htarget
  split at htarget
  case isTrue hboth => exact absurd (htarget.trans (hslot.mpr hboth.1)) (by decide)
  case isFalse hboth =>
    have hb := not_not.mp fun hb => hboth ⟨hslot.mp htarget.symm, hb⟩
    obtain ⟨otherBlock, otherRoot, hother⟩ := candidateMatches_iff.mp hb
    exact ⟨.b, otherBlock, otherRoot, htarget ▸ by decide, hother⟩

/-- A copy that matches is enough for a selection to succeed. -/
theorem selectAuthorityRoot_of_names (h : Names region authority slot block root)
    (hgeneration : authority.generation ≠ 0) (hdigest : authority.dataRootDigest ≠ 0) :
    ∃ selection, selectAuthorityRoot (readRootCopies region) authority = .ok selection := by
  have hslot := candidateMatches_iff.mpr ⟨block, root, h⟩
  have hsome : ¬ (candidateMatches (readRootCopies region).a authority = false ∧
      candidateMatches (readRootCopies region).b authority = false) := by
    rintro ⟨ha, hb⟩
    cases slot with
    | a => exact absurd (hslot.symm.trans ha) (by decide)
    | b => exact absurd (hslot.symm.trans hb) (by decide)
  obtain ⟨_, _, _, -, hchosen, -⟩ := chosen_copy hsome
  simp only [selectAuthorityRoot, ok_iff, not_or]
  exact ⟨_, ⟨hgeneration, hdigest⟩, hsome, _, hchosen, rfl⟩

/-! ## The load -/

section

variable (haccepted : PoolCatalogGraph.Accepted (bindingOf authority) graph members [] catalog)
include haccepted

/-- A load succeeds when a copy holds the root and the region holds the pages of the catalog; what
it leaves in the scratch are the images of those pages, in their order. -/
theorem load_of_holds
    (hselect : selectAuthorityRoot (readRootCopies region) authority = .ok selection)
    (hroot : selection.authoritative.root = catalog.root)
    (hholds : Holds region graph catalog.currentPages) :
    ∃ images, loadAuthorityCatalog region authority members =
        .ok ⟨selection, catalog, ⟨selection.authoritative.bytes, images⟩⟩ ∧
      Images graph catalog.currentPages images := by
  have hpages := haccepted.currentPages_eq
  rw [pagesOf_append] at hpages
  have hresolved := haccepted.resolved
  rw [hpages] at hresolved hholds
  obtain ⟨middle, hmiddle, himages⟩ : ∃ middle,
      loadPages region catalog.root.references [] = .ok middle ∧
        Images graph (pagesOf catalog.root.references) middle :=
    loadPages_of_holds .nil hresolved.left fun other hmem => hholds other (mem_append_left _ hmem)
  -- The volumes that the load finds are those of the catalog.
  obtain ⟨images, hvolumes, hall⟩ : ∃ images, loadVolumePages region catalog.root middle =
      .ok images ∧ Images graph catalog.currentPages images := by
    unfold loadVolumePages
    rw [hpages]
    rcases haccepted.volumeIndex with ⟨hnull, hnone⟩ | ⟨hpage, block, hresolve, hdecode⟩
    · refine ⟨middle, by rw [if_pos hnull], ?_⟩
      rw [hnone]
      simpa [pagesOf] using himages
    have hmem : catalog.root.volumeTreeRoot ∈ pagesOf catalog.root.references := by
      simp [Root.references, hpage]
    obtain ⟨images, hload, hall⟩ := loadPages_of_holds himages hresolved hholds
    refine ⟨images, ?_, hall⟩
    rw [if_neg hpage, himages.find hresolved.left.distinct hmem hresolve]
    simp only [orElseFail, ok_iff, exists_eq_left']
    exact ⟨catalog.descriptors, hdecode, hload⟩
  obtain ⟨slot, block, root, hnames, hauthoritative, -⟩ := selectAuthorityRoot_eq_ok hselect
  have hdecode : decodeRoot selection.authoritative.bytes = .ok catalog.root := by
    rw [← hroot, hauthoritative]
    exact hnames.decode
  have hloaded : PoolCatalogGraph.Accepted (bindingOf authority)
      ⟨selection.authoritative.bytes, images⟩ members [] catalog :=
    haccepted.of_agrees (hall.inputs _ haccepted.inputs haccepted.resolved) hdecode
      (hall.agrees haccepted.resolved.distinct _)
  refine ⟨images, ?_, hall⟩
  simp only [loadAuthorityCatalog, ok_iff]
  exact ⟨selection, hselect, middle, hroot ▸ hmiddle, images, hroot ▸ hvolumes, catalog,
    accepted_iff.mpr hloaded, rfl⟩

/-- A load succeeds when the region holds the pages of the catalog, some copy holds its root, and no
copy holds another root that the authority names. -/
theorem load_of_named (hnames : Names region authority slot block catalog.root)
    (hunique : ∀ other otherBlock otherRoot, Names region authority other otherBlock otherRoot →
      otherRoot = catalog.root) (hholds : Holds region graph catalog.currentPages) :
    ∃ loaded, loadAuthorityCatalog region authority members = .ok loaded ∧
      loaded.validated = catalog := by
  have hinputs := haccepted.inputs
  simp only [validateInputs, ok_iff, not_or] at hinputs
  obtain ⟨-, -, _, -, ⟨hgeneration, hdigest⟩, -⟩ := hinputs
  obtain ⟨selection, hselect⟩ := selectAuthorityRoot_of_names hnames hgeneration hdigest
  obtain ⟨other, otherBlock, otherRoot, hother, hauthoritative, -⟩ :=
    selectAuthorityRoot_eq_ok hselect
  have hroot : selection.authoritative.root = catalog.root := by
    rw [hauthoritative]
    exact hunique other otherBlock otherRoot hother
  obtain ⟨images, hload, -⟩ := load_of_holds haccepted hselect hroot hholds
  exact ⟨_, hload, rfl⟩

end

/-- Everything that a load puts into the scratch was read from the region. -/
theorem loadPages_read :
    ∀ {images images' : List PageImage}, loadPages region references images = .ok images' →
      (∀ image ∈ images, region.read image.offset = .ok image.block) →
      ∀ image ∈ images', region.read image.offset = .ok image.block := by
  induction references with
  | nil =>
    intro images images' h hread
    cases h
    exact hread
  | cons reference rest ih =>
    intro images images' h hread
    obtain ⟨middle, hpage, hrest⟩ := (bind_eq_ok _ _ _).mp h
    refine ih hrest ?_
    unfold loadPage at hpage
    split at hpage
    · cases hpage
      exact hread
    simp only [ok_iff] at hpage
    obtain ⟨-, hpage⟩ := hpage
    split at hpage
    · simp only [ok_iff] at hpage
      rw [← hpage.2]
      exact hread
    simp only [ok_iff] at hpage
    obtain ⟨-, block, hblock, -, rfl⟩ := hpage
    intro image hmem
    rcases mem_append.mp hmem with hold | hnew
    · exact hread image hold
    · rw [mem_singleton.mp hnew]
      exact hblock

section

variable (h : loadAuthorityCatalog region authority members = .ok loaded)
include h

/-- What a successful load found: a copy of the root, and in the region the pages of the catalog. -/
theorem load_eq_ok : selectAuthorityRoot (readRootCopies region) authority = .ok loaded.selection ∧
      PoolCatalogGraph.Accepted (bindingOf authority) loaded.graph members [] loaded.validated ∧
      loaded.selection.authoritative.root = loaded.validated.root ∧
      loaded.graph.rootBytes = loaded.selection.authoritative.bytes ∧
      Holds region loaded.graph loaded.validated.currentPages := by
  simp only [loadAuthorityCatalog, ok_iff] at h
  obtain ⟨selection, hselect, middle, hmiddle, images, hvolumes, catalog, hgraph, rfl⟩ := h
  have haccepted := accepted_iff.mp hgraph
  obtain ⟨slot, block, root, hnames, hauthoritative, -⟩ := selectAuthorityRoot_eq_ok hselect
  have hroot : selection.authoritative.root = catalog.root := by
    have hdecode := haccepted.root
    rw [hauthoritative] at hdecode ⊢
    exact ok.inj (hnames.decode.symm.trans hdecode)
  refine ⟨hselect, haccepted, hroot, rfl, ?_⟩
  have hread : ∀ image ∈ images, region.read image.offset = .ok image.block := by
    have hfirst := loadPages_read hmiddle (by simp)
    unfold loadVolumePages at hvolumes
    split at hvolumes
    · cases hvolumes
      exact hfirst
    · simp only [bind_eq_ok] at hvolumes
      obtain ⟨_, -, _, -, hrest⟩ := hvolumes
      exact loadPages_read hrest hfirst
  intro reference _ block hresolve
  obtain ⟨-, image, hfind, -, rfl⟩ := resolveReference_eq_ok.mp hresolve
  have hoffset : image.offset = reference.offset := by simpa using find?_some hfind
  rw [← hoffset]
  exact hread image (mem_of_find?_eq_some hfind)

/-- The scratch of a load holds the images of the pages of the catalog, in their order. -/
theorem load_images : Images loaded.graph loaded.validated.currentPages loaded.graph.pages := by
  obtain ⟨hselect, haccepted, hroot, -, hholds⟩ := load_eq_ok h
  obtain ⟨images, hagain, himages⟩ := load_of_holds haccepted hselect hroot hholds
  have hpages : loaded.graph.pages = images :=
    congrArg (fun result => result.graph.pages) (ok.inj (h.symm.trans hagain))
  rw [hpages]
  exact himages

end

end Zettide.PoolCatalogStore
