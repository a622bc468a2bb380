import Zettide.Catalog.Loading
import Mathlib.Data.Set.Function

/-! # Staging is crash safe

While the catalog of the next authority is staged, the catalog of the current one stays loadable,
however many attempts are made and wherever each of them stops: pages are written only where the
current catalog has none, and the root only over a copy that the current authority does not need.
Once an attempt completes, the new catalog loads under the new authority.

Pages and roots are recognised by their digests, so all this is relative to the assumption that no
two of the byte strings in play have the same digest. A 32-byte digest cannot be injective on all
blocks; the assumption is about a set `strings` that contains the blocks of the region, those of
the graphs, and whatever an interrupted write leaves. -/

namespace Zettide

open List PoolCatalogGraph PoolAuthority Except Sample

namespace PoolCatalogStore

open Bytes PoolCatalog PoolCatalogPage MetadataRegion

variable {members : List MemberGeometry} {catalog : ValidatedCatalog}

section

variable [Codec]

/-! ## Blocks in play -/

/-- The bytes that are hashed for a block, as a page and as a root, are among the given strings. -/
def Known (strings : Set (List UInt8)) (block : Block) : Prop :=
  block.bytes ∈ strings ∧ slice block.bytes 0 rootChecksumOffset ∈ strings

/-- Every block of the region is known. -/
def KnownRegion (strings : Set (List UInt8)) (region : MetadataRegion) : Prop :=
  ∀ offset block, offset % blockSize = 0 → region.read offset = .ok block → Known strings block

/-- Every block of the graph is known. -/
def KnownGraph (strings : Set (List UInt8)) (graph : Graph) : Prop :=
  Known strings graph.rootBytes ∧ ∀ image ∈ graph.pages, Known strings image.block

/-- What an interrupted write leaves is known. -/
def KnownFate (strings : Set (List UInt8)) : Fate → Prop
  | .torn left => Known strings left
  | _ => True

variable {strings : Set (List UInt8)}

variable {graph : Graph} {reference : PageReference} {block : Block}
  {previousPages : List PageReference} {slot : RootSlot} {root : Root}

omit [Codec] in
theorem KnownRegion.put {region : MetadataRegion} {offset : Nat}
    (h : KnownRegion strings region) (hoffset : offset % blockSize = 0)
    (hblock : Known strings block) : KnownRegion strings (region.put offset block) := by
  intro other found haligned hread
  by_cases hsame : other = offset
  · subst hsame
    by_cases hinside : other + blockSize ≤ region.bytes.length
    · rw [MetadataRegion.read_put_self hinside] at hread
      exact ok.inj hread ▸ hblock
    · rw [MetadataRegion.put, if_neg hinside] at hread
      exact h other found haligned hread
  · rw [MetadataRegion.read_put_other hoffset haligned hsame] at hread
    exact h other found haligned hread

omit [Codec] in
theorem settle_known {writes : List RegionWrite} :
    ∀ {region : MetadataRegion} {fates : List Fate}, Aligned writes →
      (∀ write ∈ writes, Known strings write.block) → (∀ fate ∈ fates, KnownFate strings fate) →
      KnownRegion strings region → KnownRegion strings (settle region writes fates) := by
  induction writes with
  | nil => exact fun _ _ _ h => h
  | cons write rest ih =>
    intro region fates haligned hwrites hfates hregion
    cases fates with
    | nil => exact hregion
    | cons fate fates =>
      have hoffset : write.offset % blockSize = 0 := haligned write mem_cons_self
      have hafter : KnownRegion strings (region.after write fate) := by
        cases fate with
        | durable => exact hregion.put hoffset (hwrites write mem_cons_self)
        | lost => exact hregion
        | torn left => exact hregion.put hoffset (hfates (.torn left) mem_cons_self)
      exact ih haligned.tail (fun other hmem => hwrites other (mem_cons_of_mem _ hmem))
        (fun other hmem => hfates other (mem_cons_of_mem _ hmem)) hafter

section

variable (hfree : Set.InjOn Codec.blake3 strings)
include hfree

/-- Two known root blocks that an authority names are one block. -/
theorem Names.eq {region other : MetadataRegion} {authority : Authority} {otherSlot : RootSlot}
    {otherBlock : Block} {otherRoot : Root} (h : Names region authority slot block root)
    (hother : Names other authority otherSlot otherBlock otherRoot) (hknown : Known strings block)
    (hotherKnown : Known strings otherBlock) :
    block = otherBlock ∧ root = otherRoot := by
  have hcontent := hfree hknown.2 hotherKnown.2 (h.digest.trans hother.digest.symm)
  obtain rfl : block = otherBlock := bytes_of_content h.decode hother.decode hcontent
  exact ⟨rfl, ok.inj (h.decode.symm.trans hother.decode)⟩

/-- In a region of known blocks the authority names one root. -/
theorem Names.unique {region : MetadataRegion}
    {authority : Authority} (h : Names region authority slot block root)
    (hknown : KnownRegion strings region) (other : RootSlot) (otherBlock : Block) (otherRoot : Root)
    (hother : Names region authority other otherBlock otherRoot) : otherRoot = root :=
  (hother.eq hfree h (hknown _ _ (rootOffset_aligned _) hother.read)
    (hknown _ _ (rootOffset_aligned _) h.read)).2

/-- Two graphs of known blocks never resolve a reference differently. -/
theorem KnownGraph.consistent {other : Graph}
    (h : KnownGraph strings graph) (hother : KnownGraph strings other) :
    Consistent graph other := by
  intro reference block otherBlock hblock hotherBlock
  obtain ⟨-, image, hfind, hdigest, rfl⟩ := resolveReference_eq_ok.mp hblock
  obtain ⟨-, otherImage, hotherFind, hotherDigest, rfl⟩ := resolveReference_eq_ok.mp hotherBlock
  have hbytes := hfree (h.2 image (mem_of_find?_eq_some hfind)).1
    (hother.2 otherImage (mem_of_find?_eq_some hotherFind)).1
    (hdigest.trans hotherDigest.symm)
  exact Block.ext hbytes

end

/-! ## What staging writes -/

theorem findImage_eq_some {image : PageImage}
    (hvalid : reference.validate = .ok ()) (h : findImage graph.pages reference = some image) :
    image ∈ graph.pages ∧ resolveReference graph reference = .ok image.block := by
  unfold findImage at h
  split at h
  · cases h
  case h_2 found hfind =>
    split at h
    · cases h
    case isFalse hdigest =>
      obtain rfl := Option.some.inj h
      exact ⟨mem_of_find?_eq_some hfind,
        resolveReference_eq_ok.mpr ⟨hvalid, found, hfind, not_not.mp hdigest, rfl⟩⟩

/-- A page that is kept: the previous catalog has it at the same place, and the region holds bytes
with its digest. -/
def Kept (region : MetadataRegion) (previousPages : List PageReference)
    (reference : PageReference) : Prop :=
  (∃ previous ∈ previousPages, previous.offset = reference.offset) ∧
    ∃ block, region.read reference.offset = .ok block ∧ Codec.blake3 block.bytes = reference.digest

/-- A page that is written: the previous catalog has nothing at its place. -/
def Written (previousPages : List PageReference) (graph : Graph) (reference : PageReference)
    (write : RegionWrite) : Prop :=
  (∀ previous ∈ previousPages, previous.offset ≠ reference.offset) ∧
    ∃ image, findImage graph.pages reference = some image ∧ write = ⟨reference.offset, image.block⟩

theorem stagePage_eq_ok {region : MetadataRegion} {write : Option RegionWrite}
    (h : stagePage region previousPages graph reference = .ok write) :
    (write = none → Kept region previousPages reference) ∧
      ∀ made ∈ write, Written previousPages graph reference made := by
  unfold stagePage at h
  split at h
  case h_1 previous hfind =>
    simp only [ok_iff, ne_eq, not_not] at h
    obtain ⟨-, block, hread, hdigest, rfl⟩ := h
    have hoffset : previous.offset = reference.offset := by simpa using find?_some hfind
    exact ⟨fun _ => ⟨⟨previous, mem_of_find?_eq_some hfind, hoffset⟩, block, hread, hdigest⟩,
      by simp⟩
  case h_2 hfind =>
    simp only [ok_iff] at h
    obtain ⟨image, himage, rfl⟩ := h
    refine ⟨by simp, ?_⟩
    rintro made ⟨⟩
    exact ⟨by simpa using hfind, image, himage, rfl⟩

/-- Every page of the new catalog is kept or written, nothing else is written, and nothing is
written twice. -/
theorem stageEach_eq_ok {region : MetadataRegion} {references : List PageReference} :
    ∀ {writes : List RegionWrite}, stageEach region previousPages graph references = .ok writes →
      (∀ reference ∈ references, Kept region previousPages reference ∨
        ∃ write ∈ writes, Written previousPages graph reference write) ∧
      (∀ write ∈ writes, ∃ reference ∈ references, Written previousPages graph reference write) ∧
      (writes.map RegionWrite.offset).Sublist (references.map PageReference.offset) := by
  induction references with
  | nil =>
    rintro writes ⟨⟩
    simp
  | cons first rest ih =>
    intro writes h
    simp only [stageEach, ok_iff] at h
    obtain ⟨write, hwrite, others, hothers, rfl⟩ := h
    obtain ⟨hpages, hmade, hsub⟩ := ih hothers
    have hothers : ∀ write ∈ others,
        ∃ reference ∈ first :: rest, Written previousPages graph reference write := by
      intro write hmem
      obtain ⟨reference, href, hwritten⟩ := hmade write hmem
      exact ⟨reference, mem_cons_of_mem _ href, hwritten⟩
    cases write with
    | none =>
      have hkept := (stagePage_eq_ok hwrite).1 rfl
      exact ⟨forall_mem_cons.mpr ⟨.inl hkept, hpages⟩, hothers, hsub.cons _⟩
    | some made =>
      have hwritten := (stagePage_eq_ok hwrite).2 made rfl
      obtain ⟨-, image, -, rfl⟩ := id hwritten
      refine ⟨forall_mem_cons.mpr ⟨.inr ⟨_, mem_cons_self, hwritten⟩, ?_⟩,
        forall_mem_cons.mpr ⟨⟨first, mem_cons_self, hwritten⟩, hothers⟩,
        hsub.cons_cons _⟩
      intro reference href
      refine (hpages reference href).imp_right ?_
      rintro ⟨write, hmem, hwritten⟩
      exact ⟨write, mem_cons_of_mem _ hmem, hwritten⟩

/-- The pages of a catalog are blocks behind the two root copies. -/
theorem page_offset {pages : List PageReference} (h : Resolved graph pages)
    (hmem : reference ∈ pages) :
    reference.validate = .ok () ∧ reference.offset % blockSize = 0 ∧
      ∀ slot, rootOffset slot ≠ reference.offset := by
  obtain ⟨block, hresolve⟩ := h.resolves reference hmem
  have hvalid := (resolveReference_eq_ok.mp hresolve).1
  obtain ⟨hbehind, haligned⟩ := PageReference.aligned_of_validate hvalid (h.page reference hmem)
  refine ⟨hvalid, haligned, fun slot => ?_⟩
  cases slot <;> simp only [rootOffset, pageSize] at hbehind ⊢ <;> omega

/-! ## Transitions -/

/-- A transition that was accepted: the catalog of the authority as some graph shows it, and the
catalog that is to follow it. -/
structure Transition [Blake3] (authority : Authority)
    (geometry : List MemberGeometry) where
  previousGraph : Graph
  previous : ValidatedCatalog
  binding : AuthorityBinding
  graph : Graph
  members : List MemberGeometry
  current : ValidatedCatalog
  validates : validateGraph (bindingOf authority) previousGraph geometry = .ok previous
  accepted : validateTransition (bindingOf authority) previousGraph geometry binding graph members =
    .ok current

variable [Blake3] {authority : Authority} {geometry : List MemberGeometry}

/-- The blocks of both graphs are known. -/
def Transition.Known (strings : Set (List UInt8)) (transition : Transition authority geometry) :
    Prop :=
  KnownGraph strings transition.previousGraph ∧ KnownGraph strings transition.graph

theorem Transition.previous_accepted (transition : Transition authority geometry) :
    PoolCatalogGraph.Accepted (bindingOf authority) transition.previousGraph geometry
      [] transition.previous :=
  accepted_iff.mp transition.validates

theorem Transition.current_accepted (transition : Transition authority geometry) :
    PoolCatalogGraph.Accepted transition.binding transition.graph transition.members
      [] transition.current := by
  have h := transition.accepted
  simp only [validateTransition, ok_iff] at h
  obtain ⟨previous, -, current, hcurrent, _, -, _, -, -, _, -, _, -, -, -, rfl⟩ := h
  exact (accepted_iff.mp hcurrent).unprotected

/-- Staging of a transition in a region, up to its first write. -/
def Transition.stage (transition : Transition authority geometry) (region : MetadataRegion) :
    Except CatalogError Staging :=
  stageTransition region authority transition.previous transition.current transition.graph

/-- What a staging that is not refused is about to do. -/
structure Staged (region : MetadataRegion) (transition : Transition authority geometry)
    (staging : Staging) : Prop where
  /-- A copy that is not written over holds the root of the authority. -/
  spared : ∃ slot block root, slot ≠ staging.target ∧ Names region authority slot block root
  previousRoot : ∃ slot block, Names region authority slot block transition.previous.root
  pages : stageEach region transition.previous.currentPages transition.graph
    transition.current.currentPages = .ok staging.pages
  root : staging.root = transition.graph.rootBytes

omit [Blake3] in
theorem spared_of_select {region : MetadataRegion} {selection : RootSelection}
    (h : selectAuthorityRoot (readRootCopies region) authority = .ok selection) :
    ∃ slot block root, slot ≠ selection.target ∧ Names region authority slot block root := by
  obtain ⟨slot, block, root, hnames, -, hother⟩ := selectAuthorityRoot_eq_ok h
  by_cases htarget : selection.target = slot
  · obtain ⟨other, otherBlock, otherRoot, hne, hnames⟩ := hother htarget
    exact ⟨other, otherBlock, otherRoot, htarget ▸ hne, hnames⟩
  · exact ⟨slot, block, root, fun heq => htarget heq.symm, hnames⟩

theorem Transition.stage_eq_ok {transition : Transition authority geometry}
    {region : MetadataRegion} {staging : Staging} (h : transition.stage region = .ok staging) :
    Staged region transition staging := by
  simp only [Transition.stage, stageTransition, stagePages, ok_iff, ne_eq, not_not] at h
  obtain ⟨selection, hselect, hroot, -, _, ⟨writes, hwrites, -, rfl⟩, rfl⟩ := h
  refine ⟨spared_of_select hselect, ?_, hwrites, rfl⟩
  obtain ⟨slot, block, root, hnames, hauthoritative, -⟩ := selectAuthorityRoot_eq_ok hselect
  rw [hauthoritative] at hroot
  exact ⟨slot, block, hroot ▸ hnames⟩

namespace Staged

variable {region : MetadataRegion} {transition : Transition authority geometry} {staging : Staging}

variable (h : Staged region transition staging) {write : RegionWrite}
include h

theorem aligned : Aligned staging.writes := by
  intro write hmem
  rcases mem_append.mp hmem with hpage | hroot
  · obtain ⟨reference, href, -, image, -, rfl⟩ := (stageEach_eq_ok h.pages).2.1 write hpage
    exact (page_offset transition.current_accepted.resolved href).2.1
  · rw [mem_singleton.mp hroot]
    exact rootOffset_aligned _

/-- No write is to a page of the previous catalog. -/
theorem apart_previous (hmem : write ∈ staging.writes)
    (href : reference ∈ transition.previous.currentPages) : write.offset ≠ reference.offset := by
  rcases mem_append.mp hmem with hpage | hroot
  · obtain ⟨_, -, hfresh, image, -, rfl⟩ := (stageEach_eq_ok h.pages).2.1 write hpage
    exact fun heq => hfresh reference href heq.symm
  · rw [mem_singleton.mp hroot]
    exact (page_offset transition.previous_accepted.resolved href).2.2 _

/-- No write is to a root copy, but the one to the target. -/
theorem apart_root (hmem : write ∈ staging.writes) (hslot : slot ≠ staging.target) :
    write.offset ≠ rootOffset slot := by
  rcases mem_append.mp hmem with hpage | hroot
  · obtain ⟨reference, href, -, image, -, rfl⟩ := (stageEach_eq_ok h.pages).2.1 write hpage
    exact fun heq => (page_offset transition.current_accepted.resolved href).2.2 slot heq.symm
  · rw [mem_singleton.mp hroot]
    exact fun heq => hslot (rootOffset_injective heq.symm)

theorem known (hknown : transition.Known strings) :
    ∀ write ∈ staging.writes, Known strings write.block := by
  intro write hmem
  rcases mem_append.mp hmem with hpage | hroot
  · obtain ⟨reference, href, -, image, himage, rfl⟩ := (stageEach_eq_ok h.pages).2.1 write hpage
    have hvalid := (page_offset transition.current_accepted.resolved href).1
    exact hknown.2.2 image (findImage_eq_some hvalid himage).1
  · rw [mem_singleton.mp hroot, h.root]
    exact hknown.2.1

end Staged

/-! ## Attempts -/

/-- One attempt to stage a transition, stopped anywhere: each write may be durable, lost or torn,
or may not have been reached. -/
inductive Attempt (strings : Set (List UInt8)) (authority : Authority)
    (geometry : List MemberGeometry) : MetadataRegion → MetadataRegion → Prop where
  | stop {region : MetadataRegion} (transition : Transition authority geometry)
      (known : transition.Known strings) {staging : Staging}
      (staged : transition.stage region = .ok staging) (fates : List Fate)
      (knownFates : ∀ fate ∈ fates, KnownFate strings fate) :
      Attempt strings authority geometry region (settle region staging.writes fates)

/-- The region still holds what a load under the authority found. -/
structure Keeps (strings : Set (List UInt8)) (authority : Authority)
    (loaded : LoadedCatalog) (region : MetadataRegion) : Prop where
  names : ∃ slot block, Names region authority slot block loaded.validated.root
  holds : Holds region loaded.graph loaded.validated.currentPages
  known : KnownRegion strings region

variable {start region : MetadataRegion} {loaded : LoadedCatalog}

omit [Blake3] in
theorem loaded_known (hload : loadAuthorityCatalog start authority geometry = .ok loaded)
    (hknown : KnownRegion strings start) : KnownGraph strings loaded.graph := by
  obtain ⟨hselect, haccepted, -, hbytes, hholds⟩ := load_eq_ok hload
  obtain ⟨slot, block, root, hnames, hauthoritative, -⟩ := selectAuthorityRoot_eq_ok hselect
  have hblock : loaded.graph.rootBytes = block := by rw [hbytes, hauthoritative]
  refine ⟨hblock ▸ hknown _ _ (rootOffset_aligned slot) hnames.read, ?_⟩
  intro image hmem
  obtain ⟨reference, href, -, hresolve⟩ := (load_images hload).page_of_image hmem
  have haligned := (page_offset haccepted.resolved href).2.1
  exact hknown _ _ haligned (hholds reference href _ hresolve)

omit [Blake3] in
/-- A region that was loaded holds what the load found. -/
theorem Keeps.of_load (hload : loadAuthorityCatalog start authority geometry = .ok loaded)
    (hknown : KnownRegion strings start) : Keeps strings authority loaded start := by
  obtain ⟨hselect, -, hroot, -, hholds⟩ := load_eq_ok hload
  obtain ⟨slot, block, root, hnames, hauthoritative, -⟩ := selectAuthorityRoot_eq_ok hselect
  rw [hauthoritative] at hroot
  exact ⟨⟨slot, block, hroot ▸ hnames⟩, hholds, hknown⟩

omit [Blake3] in
theorem Keeps.load (hfree : Set.InjOn Codec.blake3 strings)
    (hload : loadAuthorityCatalog start authority geometry = .ok loaded)
    (h : Keeps strings authority loaded region) :
    ∃ again, loadAuthorityCatalog region authority geometry = .ok again ∧
      again.validated = loaded.validated := by
  obtain ⟨-, haccepted, -, -, -⟩ := load_eq_ok hload
  obtain ⟨slot, block, hnames⟩ := h.names
  exact load_of_named haccepted hnames (hnames.unique hfree h.known) h.holds

variable {staging : Staging} {transition : Transition authority geometry} {after : MetadataRegion}

/-- An attempt, stopped anywhere, leaves what the authority needs. -/
theorem Keeps.attempt (hfree : Set.InjOn Codec.blake3 strings)
    (hload : loadAuthorityCatalog start authority geometry = .ok loaded)
    (hstart : KnownRegion strings start) (h : Keeps strings authority loaded region)
    (hattempt : Attempt strings authority geometry region after) :
    Keeps strings authority loaded after := by
  obtain ⟨transition, hknown, hstage, fates, hfates⟩ := hattempt
  have hstaged := Transition.stage_eq_ok hstage
  obtain ⟨-, haccepted, -, -, -⟩ := load_eq_ok hload
  obtain ⟨slot, block, hnames⟩ := h.names
  have hblock := h.known _ _ (rootOffset_aligned _) hnames.read
  -- The graph that the transition starts from shows the catalog that is in the region.
  have hpages : transition.previous.currentPages = loaded.validated.currentPages := by
    obtain ⟨other, otherBlock, hother⟩ := hstaged.previousRoot
    have hroot := (hother.eq hfree hnames (h.known _ _ (rootOffset_aligned _) hother.read) hblock).2
    exact transition.previous_accepted.unique haccepted hroot
      (hknown.1.consistent hfree (loaded_known hload hstart))
  refine ⟨?_, ?_, settle_known hstaged.aligned (hstaged.known hknown) hfates h.known⟩
  · obtain ⟨spared, otherBlock, otherRoot, hspared, hother⟩ := hstaged.spared
    have heq := hother.eq hfree hnames (h.known _ _ (rootOffset_aligned _) hother.read) hblock
    refine ⟨spared, otherBlock, ?_, hother.decode.trans (congrArg _ heq.2), heq.2 ▸ hother.generation,
      heq.2 ▸ hother.setId, hother.digest⟩
    rw [settle_read_other (rootOffset_aligned _) hstaged.aligned
      fun write hmem => hstaged.apart_root hmem hspared]
    exact hother.read
  · intro reference href found hresolve
    have haligned := (page_offset haccepted.resolved href).2.1
    rw [settle_read_other haligned hstaged.aligned
      fun write hmem => hstaged.apart_previous hmem (hpages ▸ href)]
    exact h.holds reference href found hresolve

/-! ## A completed staging -/

omit [Blake3] in
/-- A root copy with the root of an accepted graph is named by the authority of that graph. -/
theorem names_of_accepted {binding : AuthorityBinding} {graph : Graph}
    (haccepted : PoolCatalogGraph.Accepted binding graph members [] catalog)
    (hbinding : bindingOf authority = binding)
    (hread : region.read (rootOffset slot) = .ok graph.rootBytes) :
    Names region authority slot graph.rootBytes catalog.root := by
  subst hbinding
  have hbound := haccepted.bound
  simp only [validateRootBinding, ok_iff, ne_eq, not_not] at hbound
  obtain ⟨hgeneration, hset, digest, hrootDigest, hdigest, -⟩ := hbound
  have hcontent := rootDigest_of_decodeRoot haccepted.root
  refine ⟨hread, haccepted.root, hgeneration, hset, ?_⟩
  rw [contentDigest, Except.ok.inj (hcontent.symm.trans hrootDigest)]
  exact hdigest

/-- The writes of a staging are to different blocks. -/
theorem Staged.distinct
    (h : Staged region transition staging) : (staging.writes.map RegionWrite.offset).Nodup := by
  have hresolved := transition.current_accepted.resolved
  obtain ⟨-, hmade, hsub⟩ := stageEach_eq_ok h.pages
  rw [Staging.writes, map_append, nodup_append]
  refine ⟨hsub.nodup hresolved.distinct, nodup_singleton _, ?_⟩
  intro offset hmem other hother heq
  obtain ⟨write, hwrite, rfl⟩ := mem_map.mp hmem
  obtain ⟨reference, href, -, image, -, rfl⟩ := hmade write hwrite
  simp only [map_cons, map_nil, mem_singleton] at hother
  exact (page_offset hresolved href).2.2 staging.target (hother.symm.trans heq.symm)

section

variable (hfree : Set.InjOn Codec.blake3 strings) (h : Staged region transition staging)
  (hknown : transition.Known strings) (hregion : KnownRegion strings region)
include hfree h hknown hregion

/-- After a staging without interruption the region holds the pages of the new catalog. -/
theorem Staged.holds
    (hinside : ∀ write ∈ staging.writes, write.offset + blockSize ≤ region.bytes.length) :
    Holds (complete region staging.writes) transition.graph transition.current.currentPages := by
  intro reference href block hresolve
  have hresolved := transition.current_accepted.resolved
  obtain ⟨hvalid, haligned, hroots⟩ := page_offset hresolved href
  rcases (stageEach_eq_ok h.pages).1 reference href with hkept | ⟨write, hwrite, hwritten⟩
  · -- A kept page is not written, and its bytes are those of the graph by their digest.
    obtain ⟨⟨previous, hprevious, hoffset⟩, found, hread, hdigest⟩ := hkept
    rw [complete_read_other h.aligned haligned
      fun write hmem => hoffset ▸ h.apart_previous hmem hprevious, hread]
    obtain ⟨-, image, hfind, himage, rfl⟩ := resolveReference_eq_ok.mp hresolve
    exact congrArg _ (Block.ext (hfree (hregion _ _ haligned hread).1
      (hknown.2.2 image (mem_of_find?_eq_some hfind)).1 (hdigest.trans himage.symm)))
  · obtain ⟨-, image, himage, rfl⟩ := hwritten
    have hblock := (findImage_eq_some hvalid himage).2
    obtain rfl := ok.inj (hblock.symm.trans hresolve)
    exact complete_read_self h.aligned hinside h.distinct _ (mem_append_left _ hwrite)

theorem Staged.loads (hrun : staging.run region = .ok after) {next : Authority}
    (hnext : bindingOf next = transition.binding) :
    ∃ staged, loadAuthorityCatalog after next transition.members = .ok staged ∧
      staged.validated = transition.current := by
  have haccepted : PoolCatalogGraph.Accepted (bindingOf next) transition.graph
      transition.members [] transition.current := hnext ▸ transition.current_accepted
  simp only [Staging.run, ok_iff, forAll_eq_ok, position_eq_ok] at hrun
  obtain ⟨hinside, rfl⟩ := hrun
  have hmem : ⟨rootOffset staging.target, staging.root⟩ ∈ staging.writes := by
    simp [Staging.writes]
  have hread : (complete region staging.writes).read (rootOffset staging.target) =
      .ok transition.graph.rootBytes :=
    h.root ▸ complete_read_self h.aligned hinside h.distinct _ hmem
  have hafter : KnownRegion strings (complete region staging.writes) :=
    settle_known h.aligned (h.known hknown)
      (fun fate hfate => by obtain ⟨_, -, rfl⟩ := mem_map.mp hfate; trivial) hregion
  have hnames := names_of_accepted haccepted rfl hread
  exact load_of_named haccepted hnames (hnames.unique hfree hafter)
    (h.holds hfree hknown hregion hinside)

end

/-! ## The copy that is spared -/

/-- Some root copy that matches the authority is not touched by any write. -/
def Spares (region : MetadataRegion) (authority : Authority) (staging : Staging) :
    Prop :=
  ∃ slot, candidateMatches (readRootCandidate region slot) authority = true ∧
    ∀ write ∈ staging.writes, write.offset + blockSize ≤ rootOffset slot ∨
      rootOffset slot + blockSize ≤ write.offset

theorem Staged.spares (h : Staged region transition staging) : Spares region authority staging := by
  obtain ⟨slot, block, root, hslot, hnames⟩ := h.spared
  refine ⟨slot, candidateMatches_iff.mpr ⟨block, root, hnames⟩, ?_⟩
  intro write hmem
  exact MetadataRegion.apart_of_aligned (rootOffset_aligned slot) (h.aligned write hmem)
    (h.apart_root hmem hslot)

omit [Blake3] in
theorem repairRootMirror_spares {rootBytes : Block}
    (h : repairRootMirror region authority rootBytes = .ok staging) :
    Spares region authority staging := by
  simp only [repairRootMirror, ok_iff] at h
  obtain ⟨selection, hselect, -, -, -, -, -, rfl⟩ := h
  obtain ⟨slot, block, root, hslot, hnames⟩ := spared_of_select hselect
  refine ⟨slot, candidateMatches_iff.mpr ⟨block, root, hnames⟩, ?_⟩
  intro write hmem
  obtain rfl : write = ⟨rootOffset selection.target, rootBytes⟩ := by
    simpa [Staging.writes] using hmem
  exact MetadataRegion.apart_of_aligned (rootOffset_aligned slot) (rootOffset_aligned _)
    fun heq => hslot (rootOffset_injective heq).symm

end

/-! ## A staged region -/

variable [Codec] {strings : Set (List UInt8)}

omit [Codec] in
/-- What is hashed of the blocks of a region is known from the blocks that differ. -/
theorem known_ofBlocks {known blocks : List Block} (h : ∀ block ∈ blocks, block ∈ known) :
    KnownRegion {bytes | bytes ∈ known.flatMap fun block =>
      [block.bytes, slice block.bytes 0 rootChecksumOffset]} (.ofBlocks blocks) := by
  intro offset block haligned hread
  have hmem := h block (MetadataRegion.mem_of_read_ofBlocks haligned hread)
  exact ⟨List.mem_flatMap.mpr ⟨block, hmem, List.mem_cons_self⟩,
    List.mem_flatMap.mpr ⟨block, hmem, List.mem_cons_of_mem _ List.mem_cons_self⟩⟩

/-- A catalog that lies in the first blocks of a region loads, unless its mirror is a root too. -/
theorem load_ofBlocks {authority : Authority} {graph : Graph} {mirror : Block}
    {pages rest : List Block}
    (haccepted : PoolCatalogGraph.Accepted (bindingOf authority) graph members [] catalog)
    (hpages : graph.pages = pages.mapIdx fun index block => ⟨(index + 2) * pageSize, block⟩)
    (hmirror : ∀ root, decodeRoot mirror ≠ .ok root) :
    ∃ loaded, loadAuthorityCatalog (.ofBlocks (graph.rootBytes :: mirror :: pages ++ rest))
      authority members = .ok loaded ∧ loaded.validated = catalog := by
  have hread : (ofBlocks (graph.rootBytes :: mirror :: pages ++ rest)).read
      (rootOffset .a) = .ok graph.rootBytes := by
    show MetadataRegion.read _ (blockSize * 0) = _
    exact read_ofBlocks rfl
  have hother : (ofBlocks (graph.rootBytes :: mirror :: pages ++ rest)).read
      (rootOffset .b) = .ok mirror := by
    show MetadataRegion.read _ (blockSize * 1) = _
    exact read_ofBlocks rfl
  refine load_of_named haccepted (names_of_accepted haccepted rfl hread) ?_ ?_
  · intro slot block root hnames
    cases slot with
    | a =>
      have hblock := hnames.read.symm.trans hread
      rw [ok.injEq] at hblock
      have hdecode := hnames.decode
      rw [hblock, haccepted.root, ok.injEq] at hdecode
      exact hdecode.symm
    | b =>
      have hblock := hnames.read.symm.trans hother
      rw [ok.injEq] at hblock
      exact (hmirror root (hblock ▸ hnames.decode)).elim
  intro reference hmem block hresolve
  obtain ⟨-, image, hfind, -, rfl⟩ := resolveReference_eq_ok.mp hresolve
  have hoffset : image.offset = reference.offset := by simpa using find?_some hfind
  have himage := mem_of_find?_eq_some hfind
  rw [hpages] at himage
  obtain ⟨index, hindex, rfl⟩ := mem_mapIdx.mp himage
  rw [← hoffset]
  show MetadataRegion.read _ ((index + 2) * pageSize) = _
  rw [Nat.mul_comm]
  refine read_ofBlocks ?_
  show (pages ++ rest)[index]? = _
  rw [getElem?_append_left hindex, getElem?_eq_getElem hindex]

end PoolCatalogStore

namespace Sample

open Bytes PoolCatalog PoolCatalogStore

def authority : Authority where
  kind := .generationCommit
  historyDigest := 5
  dataRootDigest := binding.dataRootDigest
  topology := topology
  layout := layout
  membershipEpoch := 1
  writerTerm := 1
  generation := 1
  witnessCount := 1
  administrativeRecovery := false

def zeroBlock : Block := ⟨zeros blockSize, length_zeros _⟩

/-- The blocks of the region that differ: the root, a block of zeros, and the pages. -/
def known : List Block := graph.rootBytes :: zeroBlock :: pages

def region : MetadataRegion := .ofBlocks (known ++ replicate 5 zeroBlock)

/-- What is hashed of them. -/
def strings : List (List UInt8) :=
  known.flatMap fun block => [block.bytes, slice block.bytes 0 rootChecksumOffset]

theorem strings_injOn : Set.InjOn Codec.blake3 {bytes | bytes ∈ strings} := by
  have hnodup : (strings.map Codec.blake3).Nodup := by decide +kernel
  exact fun _ hleft _ hright => inj_on_of_nodup_map hnodup hleft hright

theorem known_region : KnownRegion {bytes | bytes ∈ strings} region := by
  refine known_ofBlocks fun block hmem => ?_
  rcases mem_append.mp hmem with hknown | hfree
  · exact hknown
  · exact eq_of_mem_replicate hfree ▸ mem_cons_of_mem _ mem_cons_self

theorem zeroBlock_not_root (root : Root) : decodeRoot zeroBlock ≠ .ok root := by
  have herror : decodeRoot zeroBlock = .error .checksumMismatch := by decide +kernel
  simp [herror]

theorem loads : ∃ loaded, loadAuthorityCatalog region authority members = .ok loaded ∧
    loaded.validated = catalog :=
  load_ofBlocks (accepted_iff.mp accepted) rfl zeroBlock_not_root

end Sample

namespace PoolCatalogStore

end PoolCatalogStore

end Zettide
