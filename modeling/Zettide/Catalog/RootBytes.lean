import Zettide.Catalog.Canonical
import Zettide.Catalog.Store

/-! # The bytes of a root

A root block that decodes is the encoding of what it decodes to, so the digest of the root is the
digest of the bytes on the disk. A root write that was interrupted over zeros is never mistaken
for another root: either the missing bytes were zeros anyway, or the block does not decode. This
needs nothing of the checksum. The last field before the reserved bytes is the size of an extent
entry, which is not zero, so a shorter piece lacks it; and a longer piece has the whole content, so
its checksum has to be the right one. -/

namespace Zettide

open List Codec

namespace PoolCatalog

open Bytes

variable [Codec]

variable {block : Block} {root : Root}

section

variable (h : decodeRoot block = .ok root)
include h

/-- What a block that decodes to a root looks like. -/
theorem decodeRoot_eq_ok : getInt 4 block.bytes rootChecksumOffset =
        crc32c (slice block.bytes 0 rootChecksumOffset) ∧
      rootContent root = slice block.bytes 0 rootChecksumOffset ∧
      rootFields block.bytes = root ∧ validateRoot root = .ok () ∧
      slice block.bytes rootReservedOffset (rootChecksumOffset - rootReservedOffset) =
        zeros (rootChecksumOffset - rootReservedOffset) := by
  have hsize : block.bytes.length = 4096 := block.length_bytes
  have hencoded := (decodeRoot_iff.mp h).2
  simp only [encodeRoot, ok_iff] at hencoded
  obtain ⟨hcontent, hchecksum⟩ := (sealed_iff (length_rootContent root) hsize).mp hencoded.2
  rw [append_eq_iff, length_rootContent] at hcontent
  simp only [decodeRoot, ok_iff, not_not] at h
  obtain ⟨-, -, -, -, hreserved, -, hfields⟩ := h
  exact ⟨hchecksum, hcontent.1.symm, hfields, hencoded.1,
    (slice_eq_zeros (by rw [hsize]; decide)).mpr hreserved⟩

theorem rootContent_length : (rootContent root).length = rootChecksumOffset := by
  have hsize : block.bytes.length = 4096 := block.length_bytes
  rw [(decodeRoot_eq_ok h).2.1, slice_length (by simp [rootChecksumOffset, hsize])]

/-- The digest of a decoded root is the digest of the bytes it was decoded from. -/
theorem rootDigest_of_decodeRoot :
    rootDigest root = .ok (Codec.blake3 (slice block.bytes 0 rootChecksumOffset)) := by
  have hlength := rootContent_length h
  obtain ⟨-, hcontent, -, hvalid, -⟩ := decodeRoot_eq_ok h
  have hslice : slice (rootContent root ++ ofNat 4 (crc32c (rootContent root))) 0
      rootChecksumOffset = rootContent root := by
    rw [slice_zero, ← hlength, take_left]
  simp only [rootDigest, encodeRoot, ok_iff, hvalid, true_and, exists_eq_left']
  rw [hslice, hcontent]

/-- The bytes of a block that decodes are given by its content: the checksum follows from it. -/
theorem bytes_of_content {other : Block} {otherRoot : Root}
    (hother : decodeRoot other = .ok otherRoot)
    (hcontent : slice block.bytes 0 rootChecksumOffset = slice other.bytes 0 rootChecksumOffset) :
    block = other := by
  have hwhole : ∀ {b : Block} {r : Root}, decodeRoot b = .ok r → b.bytes =
      slice b.bytes 0 rootChecksumOffset ++
        ofNat 4 (crc32c (slice b.bytes 0 rootChecksumOffset)) := by
    intro b r hb
    have hsize : b.bytes.length = 4096 := b.length_bytes
    rw [ofNat_of_getInt (by simp [rootChecksumOffset, hsize]) (decodeRoot_eq_ok hb).1,
      slice_append_of_eq _ _ (Nat.zero_add _), slice_zero, take_of_length_le (by
        simp [rootChecksumOffset, hsize])]
  apply Block.ext
  rw [hwhole h, hwhole hother, hcontent]

end

/-! ## Interrupted root writes -/

/-- The size of an extent entry is read from the two bytes before the reserved part. -/
theorem extentEntrySize_of_decodeRoot (h : decodeRoot block = .ok root) :
    getInt 2 block.bytes 0x126 = extentRunEncodedSize := by
  obtain ⟨-, -, rfl, hvalid, -⟩ := decodeRoot_eq_ok h
  simp only [validateRoot, ok_iff, not_or, not_not, ne_eq] at hvalid
  exact hvalid.2.2.2.2.1.2

/-- A block that decodes and is a piece of a root block, followed by zeros, is that root block. -/
theorem eq_of_decodeRoot_torn {expected : Block} {expectedRoot : Root} {count : Nat}
    (htorn : block.bytes = torn count expected.bytes (zeros blockSize))
    (h : decodeRoot block = .ok root) (hexpected : decodeRoot expected = .ok expectedRoot) :
    block = expected := by
  have hsize : expected.bytes.length = 4096 := expected.length_bytes
  have hzeros : expected.bytes.length = (zeros blockSize).length := by
    rw [length_zeros, expected.length_bytes]
  have hget : ∀ i, block.bytes[i]? =
      if i < count then expected.bytes[i]? else (zeros blockSize)[i]? := by
    intro i
    rw [htorn, getElem?_torn hzeros]
  have hzero : ∀ i, i < 4096 → (zeros blockSize)[i]? = some 0 := by
    intro i hi
    rw [zeros, getElem?_replicate, if_pos (show i < blockSize from hi)]
  -- The low byte of the extent entry size is not zero, so the piece reaches behind it.
  have hreaches : 0x126 < count := by
    by_contra hshort
    have hslice : slice block.bytes 0x126 2 = zeros 2 := by
      apply ext_getElem?
      intro i
      rw [getElem?_slice, zeros, getElem?_replicate]
      by_cases hi : i < 2
      · rw [if_pos hi, if_pos hi, hget, if_neg (by omega), hzero _ (by omega)]
      · rw [if_neg hi, if_neg hi]
    have hentry := extentEntrySize_of_decodeRoot h
    rw [getInt, hslice] at hentry
    exact absurd hentry (by decide)
  -- Behind it, the expected block has only zeros up to the checksum.
  have hrest : ∀ i, 0x127 ≤ i → i < 4092 → expected.bytes[i]? = some 0 := by
    intro i hlow hhigh
    by_cases hentry : i = 0x127
    · have hslice := ofNat_of_getInt (by omega) (extentEntrySize_of_decodeRoot hexpected)
      have hbyte := getElem?_slice expected.bytes 0x126 2 1
      rw [← hslice, if_pos (by omega)] at hbyte
      rw [hentry, ← hbyte]
      decide
    · have hbyte := getElem?_slice expected.bytes rootReservedOffset
        (rootChecksumOffset - rootReservedOffset) (i - 0x128)
      have hinside : i - 0x128 < rootChecksumOffset - rootReservedOffset := by
        show i - 0x128 < 4092 - 0x128
        omega
      rw [(decodeRoot_eq_ok hexpected).2.2.2.2, zeros, getElem?_replicate, if_pos hinside,
        if_pos hinside] at hbyte
      rw [hbyte, rootReservedOffset, show 0x128 + (i - 0x128) = i by omega]
  apply bytes_of_content h hexpected
  apply ext_getElem?
  intro i
  rw [getElem?_slice, getElem?_slice]
  by_cases hi : i < rootChecksumOffset
  · have hbound : i < 4092 := hi
    rw [if_pos hi, if_pos hi, Nat.zero_add, hget]
    by_cases hcount : i < count
    · rw [if_pos hcount]
    · rw [if_neg hcount, hzero i (by omega), hrest i (by omega) hbound]
  · rw [if_neg hi, if_neg hi]

end PoolCatalog

/-! ## Expected prefixes -/

namespace PoolCatalogStore

open Bytes

theorem getElem?_commonPrefix {xs ys : List UInt8} {i : Nat} (h : i < commonPrefix xs ys) :
    xs[i]? = ys[i]? := by
  induction xs, ys using commonPrefix.induct generalizing i with
  | case1 x xs ys ih =>
    rw [commonPrefix, if_pos rfl] at h
    cases i with
    | zero => rfl
    | succ i => exact ih (by omega)
  | case2 x xs y ys hne =>
    rw [commonPrefix, if_neg hne] at h
    omega
  | case3 xs ys hnot =>
    simp [commonPrefix] at h

/-- Behind the common part the two strings differ. -/
theorem getElem?_split {xs ys : List UInt8} (hlength : xs.length = ys.length)
    (h : commonPrefix xs ys < xs.length) :
    xs[commonPrefix xs ys]? ≠ ys[commonPrefix xs ys]? := by
  induction xs, ys using commonPrefix.induct with
  | case1 x xs ys ih =>
    simp only [commonPrefix, if_true, length_cons] at h hlength ⊢
    exact ih (by omega) (by omega)
  | case2 x xs y ys hne => simp [commonPrefix, hne]
  | case3 xs ys hnot =>
    cases xs with
    | nil => simp at h
    | cons x xs =>
      cases ys with
      | nil => simp at hlength
      | cons y ys => exact absurd rfl (hnot x xs y ys rfl)

theorem commonPrefix_le (xs ys : List UInt8) : commonPrefix xs ys ≤ xs.length := by
  induction xs, ys using commonPrefix.induct with
  | case1 x xs ys ih =>
    simp only [commonPrefix, if_true, length_cons]
    omega
  | case2 x xs y ys hne => simp [commonPrefix, hne]
  | case3 xs ys hnot => simp [commonPrefix]

variable {expected actual : List UInt8}

/-- What an interrupted write over zeros leaves is the whole, nothing, or an expected prefix. -/
theorem torn_cases {count : Nat} (h : actual = torn count expected (zeros expected.length)) :
    actual = expected ∨ isZero actual = true ∨ isExpectedPrefix actual expected = true := by
  have hzeros : expected.length = (zeros expected.length).length := (length_zeros _).symm
  have hlength : actual.length = expected.length := by rw [h, torn_length hzeros, length_zeros]
  have hget : ∀ i, actual[i]? =
      if i < count then expected[i]? else (zeros expected.length)[i]? := by
    intro i
    rw [h, getElem?_torn hzeros]
  -- Where the two differ, the write had not arrived yet.
  have hbehind : commonPrefix actual expected < actual.length →
      count ≤ commonPrefix actual expected := by
    intro hsplit
    by_contra hcount
    apply getElem?_split hlength hsplit
    rw [hget, if_pos (by omega)]
  have hdrop : ∀ split, count ≤ split → isZero (actual.drop split) = true := by
    intro split hsplit
    rw [isZero_iff]
    apply ext_getElem?
    intro i
    rw [getElem?_drop, hget, if_neg (by omega), zeros, zeros, getElem?_replicate,
      getElem?_replicate, length_drop, hlength]
    by_cases hi : split + i < expected.length
    · rw [if_pos hi, if_pos (by omega)]
    · rw [if_neg hi, if_neg (by omega)]
  have hle := commonPrefix_le actual expected
  by_cases hwhole : commonPrefix actual expected = actual.length
  · left
    apply ext_getElem?
    intro i
    by_cases hi : i < actual.length
    · exact getElem?_commonPrefix (by omega)
    · rw [getElem?_eq_none (by omega), getElem?_eq_none (by omega)]
  by_cases hnone : commonPrefix actual expected = 0
  · right; left
    simpa using hdrop 0 (by omega)
  · right; right
    simp [isExpectedPrefix, hlength, hnone, hlength ▸ hwhole, hdrop _ (hbehind (by omega))]

/-- An expected prefix is what an interrupted write over zeros leaves. -/
theorem torn_of_isExpectedPrefix (h : isExpectedPrefix actual expected = true) :
    ∃ count, actual = torn count expected (zeros expected.length) := by
  unfold isExpectedPrefix at h
  split at h
  · exact absurd h (by decide)
  case isFalse hlength =>
    simp only [Bool.and_eq_true, decide_eq_true_eq] at h
    have hzeros : expected.length = (zeros expected.length).length := (length_zeros _).symm
    refine ⟨commonPrefix actual expected, ext_getElem? fun i => ?_⟩
    rw [getElem?_torn hzeros]
    by_cases hi : i < commonPrefix actual expected
    · rw [if_pos hi, getElem?_commonPrefix hi]
    have hrest := (isZero_iff _).mp h.2
    have hbyte := congrArg (·[i - commonPrefix actual expected]?) hrest
    simp only [getElem?_drop, length_drop, zeros, getElem?_replicate] at hbyte
    rw [if_neg hi, show i = commonPrefix actual expected +
      (i - commonPrefix actual expected) by omega, hbyte, zeros, getElem?_replicate]
    by_cases hinside : i < expected.length
    · rw [if_pos (by omega), if_pos (by omega)]
    · rw [if_neg (by omega), if_neg (by omega)]

end PoolCatalogStore

end Zettide
