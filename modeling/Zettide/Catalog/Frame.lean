import Zettide.Catalog.Encode

/-! # Fields of the formats

The formats of the pool are frames: fields of fixed width, one after the other, and at the end a
checksum of the bytes before it. For each kind of field, a slice holds the bytes of a value exactly
when reading it gives that value. The source's values are in the ranges of their types; here that
is the hypothesis of the lemma, because the model's numbers have no bound. -/

namespace Zettide

open Bytes Codec List

variable {bytes : List UInt8} {offset : Nat}

/-! ## Identifiers, digests and signed integers -/

theorem getId_lt (bytes : List UInt8) (offset : Nat) : getId bytes offset < 256 ^ 16 := by
  have hlength : (slice bytes offset 16).reverse.length ≤ 16 := by simp [slice]
  exact (toNat_lt _).trans_le (Nat.pow_le_pow_right (by decide) hlength)

theorem getDigest_lt (bytes : List UInt8) (offset : Nat) : getDigest bytes offset < 256 ^ 32 :=
  getInt_lt 32 bytes offset

theorem slice_eq_putId {id : Id} (h : offset + 16 ≤ bytes.length) (fits : id < 256 ^ 16) :
    slice bytes offset 16 = putId id ↔ getId bytes offset = id := by
  constructor
  · intro hslice
    rw [getId, hslice, putId, reverse_reverse, toNat_ofNat fits]
  · rintro rfl
    exact (putId_getId h).symm

theorem slice_eq_putDigest {digest : Digest} (h : offset + 32 ≤ bytes.length)
    (fits : digest < 256 ^ 32) :
    slice bytes offset 32 = putDigest digest ↔ getDigest bytes offset = digest :=
  slice_eq_ofNat h fits

/-- A signed 64-bit integer. -/
def I64 (n : Int) : Prop := -2 ^ 63 ≤ n ∧ n < 2 ^ 63

@[simp] theorem length_putI64 (n : Int) : (putI64 n).length = 8 := length_ofNat _ _

namespace PoolCatalog

theorem getI64_range (bytes : List UInt8) (offset : Nat) : I64 (getI64 bytes offset) := by
  have hlt := getInt_lt 8 bytes offset
  unfold I64 getI64
  dsimp only
  split <;> omega

theorem slice_eq_putI64 {n : Int} (h : offset + 8 ≤ bytes.length) (fits : I64 n) :
    slice bytes offset 8 = putI64 n ↔ getI64 bytes offset = n := by
  obtain ⟨hlow, hhigh⟩ := fits
  have hlt := getInt_lt 8 bytes offset
  rw [putI64, slice_eq_ofNat h (by omega), getI64]
  split <;> omega

/-! ## Page references -/

def PageReference.Fits (reference : PageReference) : Prop :=
  InRange [(8, reference.offset), (32, reference.digest)]

theorem getPageReference_fits (bytes : List UInt8) (offset : Nat) :
    (getPageReference bytes offset).Fits := by
  simp only [PageReference.Fits, inRange_cons, inRange_nil]
  exact ⟨getInt_lt _ _ _, getDigest_lt _ _, trivial⟩

theorem slice_eq_putPageReference {reference : PageReference} (h : offset + 40 ≤ bytes.length)
    (fits : reference.Fits) :
    slice bytes offset 40 = putPageReference reference ↔
      getPageReference bytes offset = reference := by
  simp only [PageReference.Fits, inRange_cons] at fits
  constructor
  · intro hslice
    rw [← slice_append bytes offset 8 32, putPageReference] at hslice
    obtain ⟨hoffset, hdigest⟩ := append_inj hslice (by rw [slice_length (by omega)]; simp)
    rw [slice_eq_ofNat (by omega) fits.1] at hoffset
    rw [slice_eq_putDigest (by omega) fits.2.1] at hdigest
    simp only [getPageReference, hoffset, hdigest]
  · rintro rfl
    exact (putPageReference_getPageReference h).symm

end PoolCatalog

/-! ## Checksums -/

variable [Codec] {content : List UInt8} {size : Nat}

/-- Bytes that end in the checksum of what is before it. -/
theorem sealed_iff (hcontent : content.length = size) (hsize : bytes.length = size + 4) :
    content ++ ofNat 4 (crc32c content) = bytes ↔ content ++ bytes.drop size = bytes ∧
        getInt 4 bytes size = crc32c (slice bytes 0 size) := by
  rw [append_eq_iff, append_eq_iff, hcontent, and_assoc]
  refine and_congr_right fun hslice => ?_
  have hrest : bytes.drop size = slice bytes size 4 :=
    (take_of_length_le (by simp [hsize])).symm
  rw [hslice, hrest, eq_comm, slice_eq_ofNat hsize.ge (crc32c_lt _)]
  simp

/-- A format with a checksum is canonical: what decodes to a value is the encoding of that value.
It is enough that, under the right checksum, the bytes before it are those of a valid value exactly
when they decode to it. -/
theorem canonical_of {decoded valid fits : Prop} (hcontent : content.length = size)
    (hsize : bytes.length = size + 4)
    (hsum : decoded → getInt 4 bytes size = crc32c (slice bytes 0 size)) (hfits : decoded → fits)
    (hreads : fits → getInt 4 bytes size = crc32c (slice bytes 0 size) →
      (valid ∧ content ++ bytes.drop size = bytes ↔ decoded)) :
    decoded ↔ fits ∧ valid ∧ content ++ ofNat 4 (crc32c content) = bytes := by
  rw [sealed_iff hcontent hsize]
  constructor
  · intro h
    obtain ⟨hvalid, hbytes⟩ := (hreads (hfits h) (hsum h)).mpr h
    exact ⟨hfits h, hvalid, hbytes, hsum h⟩
  · rintro ⟨hrange, hvalid, hbytes, hchecksum⟩
    exact (hreads hrange hchecksum).mp ⟨hvalid, hbytes⟩

end Zettide
