import Zettide.Catalog.Ownership

/-! # Leaf pages are stored in one way

The six kinds of leaf page share a frame: a header, entries of one width, zeros and a checksum. A
page kind is described by its entry, for which decoding is the inverse of encoding; that the whole
page decodes to a list exactly when it is the encoding of it then follows for all kinds at once. -/

namespace Zettide.PoolCatalogPage

open Bytes PoolCatalog List Except MetadataIntervalState Kind PhysicalInterval Codec

/-! ## Entries -/

section

variable {α : Type} {width : Nat} {fits : α → Prop} {check : α → Except CatalogError Unit}
  {order : α → α → Except CatalogError Unit} {encode : α → Except CatalogError (List UInt8)}
  {decode : List UInt8 → Except CatalogError α}

/-- An entry decodes to a value exactly when it is the encoding of it. -/
structure EntryLaw (width : Nat) (fits : α → Prop) (check : α → Except CatalogError Unit)
    (encode : α → Except CatalogError (List UInt8)) (decode : List UInt8 → Except CatalogError α) :
    Prop where
  decoded : ∀ {bytes a}, bytes.length = width →
    (decode bytes = .ok a ↔ fits a ∧ check a = .ok () ∧ encode a = .ok bytes)
  length : ∀ {a bytes}, encode a = .ok bytes → bytes.length = width

theorem EntryLaw.decodeEntries_iff (law : EntryLaw width fits check encode decode)
    {pieces : List (List UInt8)} : ∀ {previous : Option α} {entries : List α},
    (∀ piece ∈ pieces, piece.length = width) →
      (decodeEntries decode order previous pieces = .ok entries ↔
        (∀ a ∈ entries, fits a) ∧ entries.length = pieces.length ∧
          encodeEntries check order encode previous entries = .ok pieces.flatten) := by
  induction pieces with
  | nil =>
    intro previous entries _
    cases entries <;> simp [decodeEntries, encodeEntries]
  | cons piece pieces ih =>
    intro previous entries hwidth
    obtain ⟨hpiece, hpieces⟩ := forall_mem_cons.mp hwidth
    cases entries with
    | nil => simp [decodeEntries]
    | cons a entries =>
      simp only [decodeEntries, encodeEntries, ok_iff, cons.injEq, existsAndEq,
        law.decoded hpiece, ih hpieces, forall_mem_cons, length_cons, flatten_cons,
        and_true]
      constructor
      · rintro ⟨⟨hfits, hcheck, hencode⟩, horder, hall, hlength, hrest⟩
        exact ⟨⟨hfits, hall⟩, by rw [hlength], hcheck, horder, piece, hencode, _, hrest, rfl⟩
      · rintro ⟨⟨hfits, hall⟩, hlength, hcheck, horder, bytes, hencode, others, hrest, happend⟩
        obtain ⟨rfl, rfl⟩ := append_inj happend ((law.length hencode).trans hpiece.symm)
        exact ⟨⟨hfits, hcheck, hencode⟩, horder, hall, Nat.succ.inj hlength, hrest⟩

theorem EntryLaw.length_encodeEntries (law : EntryLaw width fits check encode decode)
    {entries : List α} : ∀ {previous : Option α} {body : List UInt8},
    encodeEntries check order encode previous entries = .ok body →
      body.length = width * entries.length := by
  induction entries with
  | nil =>
    intro previous body h
    simp [← ok.inj h]
  | cons a entries ih =>
    intro previous body h
    simp only [encodeEntries, ok_iff] at h
    obtain ⟨-, -, bytes, hbytes, others, hothers, rfl⟩ := h
    rw [length_append, law.length hbytes, ih hothers, length_cons, Nat.mul_succ, Nat.add_comm]

/-- The entries of a page pass their checks, each with the one before it. -/
theorem chain_of_encodeEntries {entries : List α} : ∀ {previous : Option α} {body : List UInt8},
    encodeEntries check order encode previous entries = .ok body →
      (∀ a ∈ previous, check a = .ok ()) →
      (previous.toList ++ entries).IsChain fun a b => check a = .ok () ∧ order a b = .ok () := by
  induction entries with
  | nil =>
    intro previous body _ _
    cases previous <;> simp
  | cons a entries ih =>
    intro previous body h hprevious
    simp only [encodeEntries, ok_iff] at h
    obtain ⟨hcheck, horder, _, -, _, hothers, -⟩ := h
    have hrest := ih hothers (by simpa using hcheck)
    cases previous with
    | none => exact hrest
    | some b => exact isChain_cons_cons.mpr ⟨⟨hprevious b rfl, horder⟩, hrest⟩

end

/-! ## Pages -/

theorem Kind.fromInt_iff {n : Nat} {kind : Kind} : fromInt n = some kind ↔ n = kind.toInt := by
  cases kind <;> simp only [fromInt, toInt] <;> split <;> simp_all

section

variable [Codec] {block : Block} {kind : Kind} {generation count : Nat} {ownerId : Id}

/-- The header of a page, the zeros behind its entries and its checksum. -/
theorem decodeHeader_iff :
    decodeHeader block kind = .ok ⟨kind, count, entrySize kind, generation, ownerId⟩ ↔
    InRange [(2, count), (8, generation), (16, ownerId)] ∧
      (∃ bytes, beginPage kind generation ownerId count = .ok bytes ∧
        bytes ++ block.bytes.drop 64 = block.bytes) ∧
      isZero (slice block.bytes (64 + entrySize kind * count)
        (4092 - (64 + entrySize kind * count))) = true ∧
      getInt 4 block.bytes 4092 = crc32c (slice block.bytes 0 4092) := by
  have hsize : block.bytes.length = 4096 := block.length_bytes
  refine (and_iff_right_of_imp ?_).symm.trans (and_congr_right fun fits => ?_)
  · simp only [decodeHeader, ok_iff, Header.mk.injEq]
    rintro ⟨-, -, -, _, -, -, -, -, -, _, -, -, -, rfl, -, rfl, rfl⟩
    simp only [inRange_cons, inRange_nil, getInt_lt, getId_lt, and_self]
  · simp only [inRange_cons] at fits
    obtain ⟨hcount, _, _, -⟩ := fits
    have hmagic : magic.length = 8 := rfl
    have hkind : kind.toInt < 256 ^ 2 := by cases kind <;> decide
    have hentry : entrySize kind < 256 ^ 2 := by cases kind <;> decide
    simp only [decodeHeader, beginPage, usedEnd, ok_iff]
    simp only [headerSize, checksumOffset, existsAndEq, and_true, Header.mk.injEq]
    delta headerBytes
    simp only [append_assoc, headerSize]
    rw [append_eq_iff]
    simp (disch := first | assumption | omega | decide) only [append_eq_drop,
      hmagic, length_ofNat, length_putId, length_zeros, Nat.reduceAdd, Nat.reduceSub,
      slice_eq_ofNat, slice_eq_putId, slice_eq_zeros, fromInt_iff]
    grind

theorem decodeHeader_eq {header : Header} (h : decodeHeader block kind = .ok header) :
    header = ⟨kind, header.entryCount, entrySize kind, header.generation, header.ownerId⟩ ∧
      (kind = .extentMap ↔ header.ownerId ≠ 0) := by
  simp only [decodeHeader, ok_iff] at h
  grind

theorem finishPage_iff {used : List UInt8} (hused : used.length = count) (hcount : count ≤ 4092) :
    finishPage used = block ↔ isZero (slice block.bytes count (4092 - count)) = true ∧
      used ++ block.bytes.drop count = block.bytes ∧
      getInt 4 block.bytes 4092 = crc32c (slice block.bytes 0 4092) := by
  have hsize : block.bytes.length = 4096 := block.length_bytes
  have hsame : finishPage used = block ↔ (finishPage used).bytes = block.bytes := by
    cases block
    simp [finishPage]
  rw [hsame]
  show fit 4092 used ++ ofNat 4 (crc32c (fit 4092 used)) = block.bytes ↔ _
  rw [sealed_iff (length_fit _ _) hsize, fit_append_drop hused hcount (by omega), and_assoc]

omit [Codec] in
theorem length_beginPage {bytes : List UInt8}
    (h : beginPage kind generation ownerId count = .ok bytes) : bytes.length = 64 := by
  simp only [beginPage, ok_iff] at h
  obtain ⟨-, -, -, _, -, rfl⟩ := h
  simp [headerBytes, magic, headerSize]

variable {α : Type} {fits : α → Prop} {check : α → Except CatalogError Unit}
  {order : α → α → Except CatalogError Unit} {encode : α → Except CatalogError (List UInt8)}
  {decode : List UInt8 → Except CatalogError α}

/-- A page decodes to a list exactly when it is the encoding of it. -/
theorem EntryLaw.page_iff (law : EntryLaw (entrySize kind) fits check encode decode)
    {entries : List α} : decodeHeader block kind =
          .ok ⟨kind, count, entrySize kind, generation, ownerId⟩ ∧
        decodeEntries decode order none
          (entriesOf block ⟨kind, count, entrySize kind, generation, ownerId⟩) = .ok entries ↔
      InRange [(8, generation), (16, ownerId)] ∧ (∀ a ∈ entries, fits a) ∧ entries.length = count ∧
        encodePage kind ownerId check order encode generation entries = .ok block := by
  have hsize : block.bytes.length = 4096 := block.length_bytes
  by_cases hroom : 64 + entrySize kind * count ≤ 4092
  · have hwidth : ∀ piece ∈ entriesOf block ⟨kind, count, entrySize kind, generation, ownerId⟩,
        piece.length = entrySize kind := by
      refine forall_mem_map.mpr fun index hindex => slice_length ?_
      have hindex : index + 1 ≤ count := mem_range.mp hindex
      have hnext := Nat.mul_le_mul_left (entrySize kind) hindex
      rw [Nat.mul_succ] at hnext
      show 64 + entrySize kind * index + entrySize kind ≤ block.bytes.length
      omega
    have hpieces : (entriesOf block ⟨kind, count, entrySize kind, generation, ownerId⟩).length =
        count := by simp [entriesOf]
    have hbody := (flatten_eq_drop hwidth (block.bytes.drop (64 + entrySize kind * count))
      block.bytes 64).mpr (by rw [hpieces]; exact ⟨rfl, rfl⟩)
    have hlength {bytes body : List UInt8} (hbegin : beginPage kind generation ownerId count =
          .ok bytes) (hcount : entries.length = count)
        (hencode : encodeEntries check order encode none entries = .ok body) :
        (bytes ++ body).length = 64 + entrySize kind * count := by
      rw [length_append, length_beginPage hbegin, law.length_encodeEntries hencode, hcount]
    rw [law.decodeEntries_iff hwidth, decodeHeader_iff, hpieces, inRange_cons]
    simp only [encodePage, ok_iff]
    constructor
    · rintro ⟨⟨⟨-, hrange⟩, ⟨bytes, hbegin, hstart⟩, hzero, hsum⟩, hfits, rfl, hencode⟩
      refine ⟨hrange, hfits, rfl, bytes, hbegin, _, hencode, ?_⟩
      rw [finishPage_iff (hlength hbegin rfl hencode) hroom, append_assoc, hbody]
      exact ⟨hzero, hstart, hsum⟩
    · rintro ⟨hrange, hfits, rfl, bytes, hbegin, body, hencode, hfinish⟩
      have hcount : entries.length < 256 ^ 2 := by
        simp only [beginPage, ok_iff] at hbegin
        omega
      rw [finishPage_iff (hlength hbegin rfl hencode) hroom, append_assoc, append_eq_iff,
        length_beginPage hbegin, ← hbody, append_left_inj] at hfinish
      obtain ⟨hzero, ⟨hstart, rfl⟩, hsum⟩ := hfinish
      have hframe : bytes ++ block.bytes.drop 64 = block.bytes := by
        rw [append_eq_iff, length_beginPage hbegin]
        exact ⟨hstart, rfl⟩
      exact ⟨⟨⟨hcount, hrange⟩, ⟨bytes, hbegin, hframe⟩, hzero, hsum⟩, hfits, rfl, hencode⟩
  · constructor
    · simp [decodeHeader_iff, beginPage, usedEnd, headerSize, checksumOffset, hroom]
    · rintro ⟨-, -, rfl, h⟩
      simp [encodePage, beginPage, usedEnd, headerSize, checksumOffset, hroom] at h

/-! ## Lists of entries -/

/-- The pages of a kind are canonical: what the encoder makes decodes to the list it was made from,
and what the decoder accepts is what the encoder makes of the list, which is in order and has no
neighbours that could be one entry. -/
structure Canonical (kind : Kind) (fits : α → Prop)
    (encode : Nat → List α → Except CatalogError Block)
    (decode : Block → Nat → Except CatalogError (List α)) (before mergeable : α → α → Prop) :
    Prop where
  decoded : ∀ {generation entries block capacity}, generation < 256 ^ 8 →
    (∀ a ∈ entries, fits a) → entries.length ≤ capacity → encode generation entries = .ok block →
      decode block capacity = .ok entries ∧
        ∃ header, decodeHeader block kind = .ok header ∧ header.generation = generation
  encoded : ∀ {block capacity entries}, decode block capacity = .ok entries →
    (∃ header, decodeHeader block kind = .ok header ∧
      encode header.generation entries = .ok block) ∧
    entries.Pairwise before ∧ entries.IsChain fun a b => ¬ mergeable a b

theorem canonical_of_law (order : α → α → Except CatalogError Unit)
    {check : Nat → α → Except CatalogError Unit}
    {decode : Nat → List UInt8 → Except CatalogError α}
    (law : ∀ generation, EntryLaw (entrySize kind) fits (check generation) encode
      (decode generation)) {before mergeable : α → α → Prop}
    (htrans : ∀ {a b c}, before a b → before b c → before a c) (hbefore : ∀ generation a b,
      check generation a = .ok () → order a b = .ok () →
      before a b ∧ ¬ mergeable a b) (howner : ownerId < 256 ^ 16)
    {encodePages : Nat → List α → Except CatalogError Block}
    {decodePages : Block → Nat → Except CatalogError (List α)}
    (hencode : ∀ generation entries block, encodePages generation entries = .ok block ↔
      encodePage kind ownerId (check generation) order encode generation entries = .ok block)
    (hdecode : ∀ block capacity entries, decodePages block capacity = .ok entries ↔
      ∃ header, decodeHeader block kind = .ok header ∧ header.ownerId = ownerId ∧
        header.entryCount ≤ capacity ∧
        decodeEntries (decode header.generation) order none (entriesOf block header) =
          .ok entries) :
    Canonical kind fits encodePages decodePages before mergeable where
  decoded hgeneration hfits hcapacity h := by
    obtain ⟨hheader, hentries⟩ := (law _).page_iff.mpr
      ⟨inRange_cons.mpr ⟨hgeneration, inRange_cons.mpr ⟨howner, inRange_nil.mpr trivial⟩⟩, hfits, rfl,
        (hencode _ _ _).mp h⟩
    exact ⟨(hdecode _ _ _).mpr ⟨_, hheader, rfl, hcapacity, hentries⟩, _, hheader, rfl⟩
  encoded h := by
    obtain ⟨header, hheader, rfl, -, hentries⟩ := (hdecode _ _ _).mp h
    have hsame := hheader
    rw [(decodeHeader_eq hheader).1] at hsame hentries
    obtain ⟨-, -, -, hpage⟩ := (law _).page_iff.mp ⟨hsame, hentries⟩
    refine ⟨⟨header, hheader, (hencode _ _ _).mpr hpage⟩, ?_⟩
    simp only [encodePage, ok_iff] at hpage
    obtain ⟨_, -, _, hbody, -⟩ := hpage
    have : IsTrans α before := ⟨fun _ _ _ => htrans⟩
    have hchain := (chain_of_encodeEntries hbody (by simp)).imp fun a b h =>
      hbefore _ a b h.1 h.2
    exact ⟨isChain_iff_pairwise.mp (hchain.imp fun _ _ h => h.1), hchain.imp fun _ _ h => h.2⟩

end

/-! ## The entries of each kind -/

def NameEntry.Fits (entry : NameEntry) : Prop :=
  InRange [(16, entry.volumeId)] ∧ entry.name.length ≤ maxVolumeNameLen

def PhysicalInterval.Fits (interval : PhysicalInterval) : Prop :=
  InRange [(2, interval.memberSlot), (8, interval.physicalStart), (8, interval.extentCount),
    (8, interval.retiredGeneration)]

def MetadataInterval.Fits (interval : MetadataInterval) : Prop :=
  InRange [(8, interval.pageStart), (4, interval.pageCount), (8, interval.retiredGeneration)]

theorem nameLaw : EntryLaw (entrySize .nameIndex) NameEntry.Fits validateNameEntry
    (fun entry => .ok (encodeNameEntry entry)) decodeNameEntry where
  length h := by simp [← ok.inj h, encodeNameEntry, entrySize]
  decoded {bytes entry} hsize := by
    have hsize : bytes.length = 160 := hsize
    refine (and_iff_right_of_imp ?_).symm.trans (and_congr_right fun fits => ?_)
    · simp only [decodeNameEntry, ok_iff]
      rintro ⟨hname, -, -, rfl⟩
      simp only [NameEntry.Fits, inRange_cons, inRange_nil, getId_lt]
      simp [slice]
      omega
    · obtain ⟨hid, hname⟩ := fits
      have hid := (inRange_cons.mp hid).1
      have hname : entry.name.length ≤ 127 := hname
      have hnil : bytes.drop 160 = [] := drop_of_length_le hsize.le
      have hrest (n : Nat) : slice bytes n (160 - n) = bytes.drop n :=
        take_of_length_le (by simp [hsize])
      simp only [decodeNameEntry, ok_iff]
      delta encodeNameEntry
      rw [← append_nil (fit _ _), ← hnil]
      simp only [nameEntrySize]
      rw [fit_append_drop (n := 32 + entry.name.length)]
      · simp only [append_assoc]
        rw [append_eq_iff]
        simp (disch := first | assumption | omega | decide) only [append_eq_drop,
          length_ofNat, length_putId, length_zeros, Nat.reduceAdd, Nat.reduceSub, slice_eq_ofNat,
          slice_eq_putId, slice_eq_zeros, hrest]
        have hvalid : validateNameEntry entry = .ok () → 0 < entry.name.length ∧
            utf8ValidateSlice entry.name = true := by
          simp only [validateNameEntry, validateName, ok_iff]
          grind
        have hstored : getInt 2 bytes 16 ≤ 127 →
            (slice bytes 32 (getInt 2 bytes 16)).length = getInt 2 bytes 16 :=
          fun hle => slice_length (by omega)
        cases entry
        simp only [NameEntry.mk.injEq, maxVolumeNameLen]
        grind
      · simp only [length_append, length_ofNat, length_putId, length_zeros]
      · omega
      · omega

theorem physicalLaw (kind : IntervalKind) (generation : Nat) :
    EntryLaw (entrySize kind.page) Fits (validatePhysicalInterval kind generation)
      (fun interval => .ok (encodePhysicalInterval interval))
      (decodePhysicalInterval kind generation) where
  length h := by
    rw [← ok.inj h]
    cases kind <;> simp [encodePhysicalInterval, IntervalKind.page, entrySize,
      physicalIntervalEntrySize]
  decoded {bytes interval} hsize := by
    have hsize : bytes.length = 32 := by cases kind <;> exact hsize
    refine (and_iff_right_of_imp ?_).symm.trans (and_congr_right fun fits => ?_)
    · simp only [decodePhysicalInterval, ok_iff]
      rintro ⟨-, -, rfl⟩
      simp only [Fits, inRange_cons, inRange_nil, getInt_lt, and_self]
    · simp only [Fits, inRange_cons] at fits
      simp only [decodePhysicalInterval, ok_iff]
      delta encodePhysicalInterval
      simp only [append_assoc]
      rw [append_eq_iff]
      simp only [append_eq_drop, length_ofNat, length_zeros, Nat.reduceAdd]
      rw [eq_drop (by simp [hsize])]
      simp (disch := first | assumption | omega | decide) only [length_ofNat,
        Nat.reduceSub, slice_eq_ofNat, slice_eq_zeros]
      cases interval
      grind

theorem MetadataIntervalState.fromInt_iff {n : Nat} {state : MetadataIntervalState} :
    fromInt n = some state ↔ n = state.toInt := by
  cases state <;> simp only [fromInt, toInt] <;> split <;> simp_all

theorem metadataLaw (generation : Nat) : EntryLaw (entrySize .metadataAllocator)
    MetadataInterval.Fits (validateMetadataInterval generation) (fun interval => .ok
      (encodeMetadataInterval interval))
    (decodeMetadataInterval generation) where
  length h := by
    rw [← ok.inj h]
    simp [encodeMetadataInterval, entrySize, metadataIntervalEntrySize]
  decoded {bytes interval} hsize := by
    have hsize : bytes.length = 32 := hsize
    refine (and_iff_right_of_imp ?_).symm.trans (and_congr_right fun fits => ?_)
    · simp only [decodeMetadataInterval, ok_iff]
      rintro ⟨state, -, -, -, rfl⟩
      simp only [MetadataInterval.Fits, inRange_cons, inRange_nil, getInt_lt, and_self]
    · simp only [MetadataInterval.Fits, inRange_cons] at fits
      have hstate : interval.state.toInt < 256 ^ 2 := by cases interval.state <;> decide
      simp only [decodeMetadataInterval, ok_iff]
      delta encodeMetadataInterval
      simp only [append_assoc]
      rw [append_eq_iff]
      simp only [append_eq_drop, length_ofNat, length_zeros, Nat.reduceAdd]
      rw [eq_drop (by simp [hsize])]
      simp (disch := first | assumption | omega | decide) only [length_zeros,
        slice_eq_ofNat, slice_eq_zeros, MetadataIntervalState.fromInt_iff]
      cases interval
      grind

variable [Codec]

theorem volumeLaw : EntryLaw (entrySize .volumeIndex) VolumeDescriptor.Fits (fun _ => .ok ())
    encodeVolume decodeVolume where
  length := length_encodeVolume
  decoded hsize := by simp [decodeVolume_iff hsize]

theorem runLaw : EntryLaw (entrySize .extentMap) ExtentRun.Fits validateExtentRun encodeExtentRun
    decodeExtentRun where
  length := length_encodeExtentRun
  decoded hsize := by
    rw [decodeExtentRun_iff hsize]
    simp only [encodeExtentRun, ok_iff]
    tauto

/-- Only the pages of an extent map have an owner. -/
theorem ownerless {block : Block} {kind : Kind} (hkind : kind ≠ .extentMap) {rest : Header → Prop} :
    (∃ header, decodeHeader block kind = .ok header ∧ rest header) ↔
      ∃ header, decodeHeader block kind = .ok header ∧ header.ownerId = 0 ∧ rest header := by
  refine exists_congr fun header => and_congr_right fun h => ?_
  have howner : header.ownerId = 0 := by simpa [hkind] using (decodeHeader_eq h).2
  rw [and_iff_right howner]

/-- **Leaf pages are canonical.** -/
theorem pages_canonical :
    Canonical .volumeIndex VolumeDescriptor.Fits encodeVolumeIndex decodeVolumeIndex
      (fun a b => a.volumeId < b.volumeId) (fun _ _ => False) ∧
    Canonical .nameIndex NameEntry.Fits encodeNameIndex decodeNameIndex
      (fun a b => a.name < b.name) (fun _ _ => False) ∧
    (∀ volumeId, volumeId < 256 ^ 16 → Canonical .extentMap ExtentRun.Fits
      (fun generation => encodeExtentMap generation volumeId)
      (fun block => decodeExtentMap block volumeId)
      (fun a b => a.logicalStart < b.logicalStart ∧ a.Before b) (fun a b => a.canMerge b)) ∧
    (∀ kind : IntervalKind, Canonical kind.page PhysicalInterval.Fits (encodePhysicalIntervals kind)
      (fun block => decodePhysicalIntervals block kind)
      (fun a b => (a.memberSlot < b.memberSlot ∨
        a.memberSlot = b.memberSlot ∧ a.physicalStart < b.physicalStart) ∧ a.Before b)
      (fun a b => a.memberSlot = b.memberSlot ∧ a.physicalStart + a.extentCount = b.physicalStart ∧
        (kind = .free ∨ a.retiredGeneration = b.retiredGeneration))) ∧
    Canonical .metadataAllocator MetadataInterval.Fits encodeMetadataAllocator
      decodeMetadataAllocator (fun a b => a.pageStart < b.pageStart ∧ a.Before b)
      (fun a b => a.pageStart + a.pageCount = b.pageStart ∧ a.state = b.state ∧
        a.retiredGeneration = b.retiredGeneration) := by
  have hzero : 0 < 256 ^ 16 := by decide
  refine ⟨?volumes, ?names, fun volumeId hvolume => ?runs, fun kind => ?physical, ?metadata⟩
  case volumes =>
    refine canonical_of_law validateVolumeOrder (fun _ => volumeLaw) ?_ (fun _ a b _ horder => ?_)
      hzero (fun _ _ _ => Iff.rfl) fun _ _ _ => ?_
    · exact lt_trans
    · simpa [validateVolumeOrder] using horder
    · simp only [decodeVolumeIndex, ok_iff, not_lt]
      exact ownerless (by decide)
  case names =>
    refine canonical_of_law validateNameOrder (fun _ => nameLaw) ?_ (fun _ a b _ horder => ?_)
      hzero (fun _ _ _ => Iff.rfl) fun _ _ _ => ?_
    · exact List.lt_trans
    · simpa [validateNameOrder] using horder
    · simp only [decodeNameIndex, ok_iff, not_lt]
      exact ownerless (by decide)
  case runs =>
    refine canonical_of_law validateRunOrder (fun _ => runLaw) ?_ (fun _ a b hcheck horder => ?_)
      hvolume (fun _ _ _ => ?_) fun _ _ _ => ?_
    · unfold ExtentRun.Before
      omega
    · simp only [validateExtentRun, validateRunOrder, ok_iff] at hcheck horder
      unfold ExtentRun.Before
      grind
    · simp only [encodeExtentMap, encodePage, beginPage, ok_iff]
      grind
    · simp only [decodeExtentMap, ok_iff, not_lt, ne_eq, not_not]
  case physical =>
    have hkind : kind.page ≠ .extentMap := by cases kind <;> decide
    refine canonical_of_law (validatePhysicalOrder kind) (physicalLaw kind) ?_
      (fun _ a b hcheck horder => ?_)
      hzero (fun _ _ _ => Iff.rfl) fun _ _ _ => ?_
    · unfold Before
      omega
    · have hbefore := validatePhysicalOrder_eq_ok horder
      simp only [validatePhysicalInterval, validatePhysicalOrder, addU64, ok_iff] at hcheck horder
      split at horder <;> simp only [ok_iff] at horder <;> grind
    · simp only [decodePhysicalIntervals, ok_iff, not_lt]
      exact ownerless hkind
  case metadata =>
    refine canonical_of_law validateMetadataOrder metadataLaw ?_ (fun _ a b hcheck horder => ?_) hzero
      (fun _ _ _ => Iff.rfl) fun _ _ _ => ?_
    · unfold MetadataInterval.Before
      omega
    · simp only [validateMetadataInterval, validateMetadataOrder, addU64, ok_iff] at hcheck horder
      unfold MetadataInterval.Before
      grind
    · simp only [decodeMetadataAllocator, ok_iff, not_lt]
      exact ownerless (by decide)

end Zettide.PoolCatalogPage
