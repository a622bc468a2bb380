import Zettide.Catalog.Frame

/-! # Roots, volumes and extent runs are stored in one way -/

namespace Zettide.PoolCatalog

open Bytes ExtentState List Provisioning Root VolumeState Codec And

section

variable [Codec] {bytes : List UInt8} {descriptor : VolumeDescriptor} {n : Nat} {run : ExtentRun}
  {root : Root}

/-! ## Roots -/

def Root.Fits (root : Root) : Prop :=
  InRange [(16, root.setId), (8, root.generation), (8, root.sequence),
    (32, root.previousRootDigest), (4, root.volumeCount), (4, root.extentSize), (4, root.flags),
    (2, root.extentFormatVersion), (2, root.extentEntrySize)] ∧
    ∀ reference ∈ root.references, reference.Fits

/-- A block decodes to a root exactly when it is the encoding of it. -/
theorem decodeRoot_iff {block : Block} :
    decodeRoot block = .ok root ↔ root.Fits ∧ encodeRoot root = .ok block.bytes := by
  have hsize : block.bytes.length = 4096 := block.length_bytes
  simp only [encodeRoot, ok_iff]
  refine canonical_of (length_rootContent root) hsize ?_ ?_ fun fits hsum => ?_
  · simp only [decodeRoot, ok_iff, not_not, ne_eq]
    exact left
  · simp only [decodeRoot, ok_iff]
    rintro ⟨-, -, -, -, -, -, rfl⟩
    simp only [Fits, inRange_cons, inRange_nil, rootFields, references,
      forall_mem_cons, getInt_lt, getId_lt, getDigest_lt, getPageReference_fits]
    simp
  · simp only [Fits, inRange_cons, references, forall_mem_cons] at fits
    obtain ⟨⟨_, _, _, _, _, _, _, _, _, _⟩, _, _, _, _, _, _⟩ := fits
    have hmagic : rootMagic.length = 8 := rfl
    simp only [decodeRoot, ok_iff, hsum]
    delta rootContent
    simp only [append_assoc]
    rw [append_eq_iff]
    simp (disch := first | assumption | (rw [hsize]; decide) | decide) only [append_eq_drop,
      hmagic, length_ofNat, length_putId, length_putDigest, length_putPageReference, length_zeros,
      Nat.reduceAdd, Nat.reduceSub, rootChecksumOffset, rootReservedOffset, slice_eq_ofNat,
      slice_eq_putId, slice_eq_putDigest, slice_eq_putPageReference, slice_eq_zeros]
    cases root
    simp only [rootFields, mk.injEq]
    grind

/-! ## Volumes -/

omit [Codec] in
theorem VolumeState.fromInt_iff {state : VolumeState} :
    fromInt n = some state ↔ n = state.toInt := by
  cases state <;> simp only [fromInt, toInt] <;> split <;> simp_all

omit [Codec] in
theorem Provisioning.fromInt_iff {provisioning : Provisioning} :
    fromInt n = some provisioning ↔ n = provisioning.toInt := by
  cases provisioning <;> simp only [fromInt, toInt] <;> split <;> simp_all

def VolumeDescriptor.Fits (descriptor : VolumeDescriptor) : Prop :=
  InRange [(16, descriptor.volumeId), (8, descriptor.logicalSize),
    (8, descriptor.allocatedExtentCount), (8, descriptor.reservedExtentCount),
    (4, descriptor.extentSize), (4, descriptor.flags)] ∧ I64 descriptor.createdNs ∧
    descriptor.headerPage.Fits ∧ descriptor.extentMapRoot.Fits ∧
    descriptor.name.length ≤ maxVolumeNameLen

theorem decodeVolume_iff (hsize : bytes.length = volumeEncodedSize) :
    decodeVolume bytes = .ok descriptor ↔
      descriptor.Fits ∧ encodeVolume descriptor = .ok bytes := by
  have hsize : bytes.length = 512 := hsize
  simp only [encodeVolume, ok_iff]
  refine canonical_of (length_fit _ _) hsize ?_ ?_ fun fits hsum => ?_
  · simp only [decodeVolume, ok_iff, not_not, ne_eq]
    exact left
  · simp only [decodeVolume, ok_iff]
    rintro ⟨-, -, -, -, hname, -, state, -, provisioning, -, -, -, rfl⟩
    simp only [VolumeDescriptor.Fits, inRange_cons, inRange_nil, getInt_lt, getId_lt, getI64_range,
      getPageReference_fits]
    simp [slice]
    omega
  · simp only [VolumeDescriptor.Fits, inRange_cons] at fits
    obtain ⟨⟨_, _, _, _, _, _, _⟩, _, _, _, hname⟩ := fits
    have hmagic : volumeMagic.length = 8 := rfl
    have hstate : descriptor.state.toInt < 256 ^ 2 := by cases descriptor.state <;> decide
    have hprovisioning : descriptor.provisioning.toInt < 256 ^ 2 := by
      cases descriptor.provisioning <;> decide
    have hname : descriptor.name.length ≤ 127 := hname
    have hlength : descriptor.name.length < 256 ^ 2 := by omega
    simp only [decodeVolume, ok_iff, hsum]
    delta volumeContent
    simp only [volumeChecksumOffset, volumeNameOffset]
    rw [fit_append_drop (n := 160 + descriptor.name.length)]
    · simp only [append_assoc]
      rw [append_eq_iff]
      simp (disch := first | assumption | (rw [hsize]; decide) | decide) only [append_eq_drop,
        hmagic, length_ofNat, length_putId, length_putI64, length_putPageReference, length_zeros,
        Nat.reduceAdd, Nat.reduceSub, slice_eq_ofNat, slice_eq_putId, slice_eq_putI64,
        slice_eq_putPageReference, slice_eq_zeros, VolumeState.fromInt_iff,
        Provisioning.fromInt_iff]
      have hvalid : validateVolume descriptor = .ok () → 0 < descriptor.name.length ∧
          utf8ValidateSlice descriptor.name = true := by
        simp only [validateVolume, validateName, ok_iff]
        grind
      have hstored : getInt 2 bytes 144 ≤ maxVolumeNameLen →
          (slice bytes 160 (getInt 2 bytes 144)).length = getInt 2 bytes 144 := by
        intro hle
        have hle : getInt 2 bytes 144 ≤ 127 := hle
        exact slice_length (by omega)
      cases descriptor
      grind
    · simp only [List.length_append, hmagic, length_ofNat, length_putId, length_putI64,
        length_putPageReference, length_zeros]
    · omega
    · omega

/-! ## Extent runs -/

omit [Codec] in
theorem ExtentState.fromInt_iff {state : ExtentState} :
    fromInt n = some state ↔ n = state.toInt := by
  cases state <;> simp only [fromInt, toInt] <;> split <;> simp_all

/-- The source keeps the member slots in an array of three. -/
def ExtentRun.Fits (run : ExtentRun) : Prop :=
  InRange [(8, run.logicalStart), (8, run.physicalStart), (4, run.extentCount), (4, run.flags)] ∧
    run.memberSlots.length ≤ 3 ∧ ∀ slot ∈ run.memberSlots, slot < 256 ^ 2

omit [Codec] in
/-- The array of member slots: the used ones, then zeros. -/
theorem slice_eq_slots {slots : List Nat} (hsize : 0x020 ≤ bytes.length)
    (hlength : slots.length ≤ 3) (hslots : ∀ slot ∈ slots, slot < 256 ^ 2) :
    slice bytes 0x018 8 = fit 8 (slots.flatMap (ofNat 2)) ↔
      (List.range slots.length).map (fun index => getInt 2 bytes (0x018 + index * 2)) = slots ∧
        isZero (slice bytes (0x018 + slots.length * 2) (0x020 - (0x018 + slots.length * 2))) =
          true := by
  have hflat : (slots.flatMap (ofNat 2)).length = 2 * slots.length := by
    simp [List.length_flatMap, Nat.mul_comm]
  have hdrop := append_eq_drop (fit 8 (slots.flatMap (ofNat 2))) (bytes.drop 0x020) bytes 0x018
  simp only [length_fit, Nat.reduceAdd, and_true] at hdrop
  have hpieces : (List.range slots.length).map (fun i => slice bytes (0x018 + 2 * i) 2) =
      slots.map (ofNat 2) ↔
        (List.range slots.length).map (fun i => getInt 2 bytes (0x018 + i * 2)) = slots := by
    simp only [Nat.mul_comm _ 2]
    constructor
    · intro h
      have hback := congrArg (List.map toNat) h
      rw [List.map_map, List.map_map] at hback
      refine hback.trans ((List.map_congr_left fun slot hslot => ?_).trans slots.map_id)
      exact toNat_ofNat (hslots slot hslot)
    · intro h
      conv_rhs => rw [← h, List.map_map]
      refine List.map_congr_left fun i hi => ?_
      have hi := List.mem_range.mp hi
      exact (ofNat_getInt (by omega)).symm
  have hwidth : ∀ piece ∈ slots.map (ofNat 2), piece.length = 2 :=
    List.forall_mem_map.mpr fun slot _ => length_ofNat 2 slot
  rw [← hdrop, fit_eq (by omega), hflat, List.append_assoc, List.flatMap,
    flatten_eq_drop hwidth, List.length_map, hpieces, append_eq_drop, length_zeros,
    slice_eq_zeros (by omega), Nat.mul_comm 2, show 8 - slots.length * 2 =
      0x020 - (0x018 + slots.length * 2) by omega]
  simp
  omega

theorem decodeExtentRun_iff (hsize : bytes.length = extentRunEncodedSize) :
    decodeExtentRun bytes = .ok run ↔ run.Fits ∧ encodeExtentRun run = .ok bytes := by
  have hsize : bytes.length = 64 := hsize
  simp only [encodeExtentRun, ok_iff]
  refine canonical_of (length_fit _ _) hsize ?_ ?_ fun fits hsum => ?_
  · simp only [decodeExtentRun, ok_iff, not_not, ne_eq]
    exact left
  · simp only [decodeExtentRun, ok_iff]
    rintro ⟨-, -, state, -, hcount, -, -, rfl⟩
    simp only [ExtentRun.Fits, inRange_cons, inRange_nil, getInt_lt, forall_mem_map]
    simp
    omega
  · simp only [ExtentRun.Fits, inRange_cons] at fits
    obtain ⟨⟨_, _, _, _, _⟩, hlength, hslots⟩ := fits
    have hstate : run.state.toInt < 256 ^ 2 := by cases run.state <;> decide
    have hcount : run.memberSlots.length < 256 ^ 2 := by omega
    simp only [decodeExtentRun, ok_iff, hsum]
    delta extentRunContent
    simp only [extentChecksumOffset, extentReservedOffset]
    rw [fit_append_drop (n := 0x024)]
    · simp only [append_assoc]
      rw [append_eq_iff]
      simp (disch := first | assumption | (rw [hsize]; decide) | decide) only [append_eq_drop,
        length_ofNat, length_fit, Nat.reduceAdd, Nat.reduceSub, slice_eq_ofNat, slice_eq_slots,
        ExtentState.fromInt_iff]
      have hvalid : validateExtentRun run = .ok () → run.memberSlots.length = 1 ∨
          run.memberSlots.length = 3 := by
        simp only [validateExtentRun, ok_iff]
        grind
      cases run
      grind
    · simp only [List.length_append, length_ofNat, length_fit]
    · omega
    · omega

theorem length_encodeVolume
    (h : encodeVolume descriptor = .ok bytes) : bytes.length = volumeEncodedSize := by
  simp only [encodeVolume, ok_iff] at h
  simp [← h.2, volumeContent, volumeChecksumOffset, volumeEncodedSize]

theorem length_encodeExtentRun
    (h : encodeExtentRun run = .ok bytes) : bytes.length = extentRunEncodedSize := by
  simp only [encodeExtentRun, ok_iff] at h
  simp [← h.2, extentRunContent, extentChecksumOffset, extentRunEncodedSize]

/-! ## The formats -/

/-- Roots whose digests are equal are equal, if no two of the hashed strings have one digest. -/
theorem rootDigest_inj {strings : Set (List UInt8)} (hfree : Set.InjOn Codec.blake3 strings)
    {other : Root} {digest : Digest} (fits : root.Fits) (fitsOther : other.Fits)
    (hmem : rootContent root ∈ strings) (hmemOther : rootContent other ∈ strings)
    (h : rootDigest root = .ok digest) (hother : rootDigest other = .ok digest) :
    root = other := by
  have hslice (root : Root) : slice (rootContent root ++
      ofNat 4 (crc32c (rootContent root))) 0 rootChecksumOffset = rootContent root := by
    rw [slice_zero, ← length_rootContent root, take_left]
  simp only [rootDigest, encodeRoot, ok_iff] at h hother
  obtain ⟨_, ⟨hvalid, rfl⟩, hdigest⟩ := h
  obtain ⟨_, ⟨hvalidOther, rfl⟩, rfl⟩ := hother
  rw [hslice, hslice] at hdigest
  have hcontent := hfree hmem hmemOther hdigest
  -- one block decodes to both
  have hroot : decodeRoot (rootBlock root) = .ok root := by
    simp only [decodeRoot_iff, encodeRoot, ok_iff, rootBlock]
    exact ⟨fits, hvalid, trivial⟩
  have hblock : decodeRoot (rootBlock root) = .ok other := by
    simp only [decodeRoot_iff, encodeRoot, ok_iff, rootBlock, hcontent]
    exact ⟨fitsOther, hvalidOther, trivial⟩
  exact Except.ok.inj (hroot.symm.trans hblock)

/-- **Roots, volume descriptors and extent runs are stored in one way.**  What an encoder makes
decodes to the value it was made from, what a decoder accepts is what the encoder makes of the
decoded value, and so the digest of a root names one root. -/
theorem formats_canonical {strings : Set (List UInt8)} (hfree : Set.InjOn Codec.blake3 strings) :
    (∀ root bytes, root.Fits → encodeRoot root = .ok bytes →
      ∃ block : Block, block.bytes = bytes ∧ decodeRoot block = .ok root) ∧
    (∀ block root, decodeRoot block = .ok root → encodeRoot root = .ok block.bytes) ∧
    (∀ descriptor bytes, descriptor.Fits → encodeVolume descriptor = .ok bytes →
      bytes.length = volumeEncodedSize ∧ decodeVolume bytes = .ok descriptor) ∧
    (∀ bytes descriptor, bytes.length = volumeEncodedSize → decodeVolume bytes = .ok descriptor →
      encodeVolume descriptor = .ok bytes) ∧
    (∀ run bytes, run.Fits → encodeExtentRun run = .ok bytes →
      bytes.length = extentRunEncodedSize ∧ decodeExtentRun bytes = .ok run) ∧
    (∀ bytes run, bytes.length = extentRunEncodedSize → decodeExtentRun bytes = .ok run →
      encodeExtentRun run = .ok bytes) ∧
    ∀ root other digest, root.Fits → other.Fits → rootContent root ∈ strings →
      rootContent other ∈ strings → rootDigest root = .ok digest →
        rootDigest other = .ok digest → root = other := by
  refine ⟨fun root bytes fits h => ?_, fun block root h => (decodeRoot_iff.mp h).2,
    fun descriptor bytes fits h => ?_, fun bytes descriptor hsize h =>
      ((decodeVolume_iff hsize).mp h).2, fun run bytes fits h => ?_, fun bytes run hsize h =>
      ((decodeExtentRun_iff hsize).mp h).2, fun root other digest fits fitsOther hmem hmemOther =>
      rootDigest_inj hfree fits fitsOther hmem hmemOther⟩
  · have hbytes : (rootBlock root).bytes = bytes := by
      simp only [encodeRoot, ok_iff] at h
      exact h.2
    exact ⟨rootBlock root, hbytes, decodeRoot_iff.mpr ⟨fits, hbytes ▸ h⟩⟩
  · have hsize := length_encodeVolume h
    exact ⟨hsize, (decodeVolume_iff hsize).mpr ⟨fits, h⟩⟩
  · have hsize := length_encodeExtentRun h
    exact ⟨hsize, (decodeExtentRun_iff hsize).mpr ⟨fits, h⟩⟩

end

theorem formats_canonical_sample : ∃ bytes,
    encodeExtentRun ⟨0, 7, 2, .mapped, [1, 2, 5], 0⟩ = .ok bytes ∧
      decodeExtentRun bytes = .ok ⟨0, 7, 2, .mapped, [1, 2, 5], 0⟩ :=
  ⟨_, rfl, ((formats_canonical (Set.injOn_singleton _ (rootContent Sample.root))).2.2.2.2.1 _ _
    (by simp [ExtentRun.Fits, inRange_cons, inRange_nil]) rfl).2⟩

end Zettide.PoolCatalog
