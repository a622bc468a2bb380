import Mathlib.Algebra.GroupWithZero.Nat
import Mathlib.Algebra.Ring.Int.Defs
import Mathlib.Data.List.Basic
import Mathlib.Tactic.Common

/-! # Byte strings

Slices of a byte string, little-endian integers in it, and the effect of a write: a string of
bytes with a piece of it replaced. Nothing here knows what the bytes mean.

A write that is interrupted leaves the first bytes of the new piece in front of the rest of the
old one; `torn` is that string. -/

namespace Zettide.Bytes

open List

/-! ## Slices -/

/-- The `width` bytes from `offset` on. -/
def slice (bytes : List UInt8) (offset width : Nat) : List UInt8 := (bytes.drop offset).take width

variable {width offset : Nat} {new bytes old : List UInt8} {n : Nat}

theorem slice_length
    (h : offset + width ≤ bytes.length) : (slice bytes offset width).length = width := by
  simp only [slice, length_take, length_drop]
  omega

theorem slice_append (bytes : List UInt8) (offset width more : Nat) :
    slice bytes offset width ++ slice bytes (offset + width) more =
      slice bytes offset (width + more) := by
  simp only [slice, take_add, drop_drop]

theorem slice_append_of_eq (bytes : List UInt8) {next : Nat} (more : Nat)
    (h : offset + width = next) :
    slice bytes offset width ++ slice bytes next more = slice bytes offset (width + more) := by
  rw [← h, slice_append]

theorem slice_zero (bytes : List UInt8) (width : Nat) : slice bytes 0 width = bytes.take width := by
  simp [slice]

theorem getElem?_slice (bytes : List UInt8) (offset width i : Nat) :
    (slice bytes offset width)[i]? = if i < width then bytes[offset + i]? else none := by
  simp only [slice, getElem?_take, getElem?_drop]

/-! ## Zero bytes -/

def isZero (bytes : List UInt8) : Bool := bytes.all (· = 0)

def zeros (count : Nat) : List UInt8 := replicate count 0

@[simp] theorem length_zeros (count : Nat) : (zeros count).length = count := length_replicate

theorem isZero_iff (bytes : List UInt8) : isZero bytes = true ↔ bytes = zeros bytes.length := by
  simp [isZero, zeros, eq_replicate_iff]

/-- The bytes at the beginning of a zeroed array of the given length. -/
def fit (width : Nat) (bytes : List UInt8) : List UInt8 := (bytes ++ zeros width).take width

@[simp] theorem length_fit (width : Nat) (bytes : List UInt8) : (fit width bytes).length = width := by
  simp [fit]

theorem fit_of_length (h : bytes.length = width) : fit width bytes = bytes := by
  subst h
  simp [fit]

/-! ## Little-endian integers -/

/-- The number that the bytes spell, the first byte being the lowest. -/
def toNat (bytes : List UInt8) : Nat := bytes.foldr (fun byte high => byte.toNat + 256 * high) 0

/-- The lowest `width` bytes of a number, the lowest byte first. -/
def ofNat : Nat → Nat → List UInt8
  | 0, _ => []
  | width + 1, n => UInt8.ofNat n :: ofNat width (n / 256)

@[simp] theorem length_ofNat (width n : Nat) : (ofNat width n).length = width := by
  induction width generalizing n with
  | zero => rfl
  | succ width ih => simp [ofNat, ih]

theorem ofNat_toNat (bytes : List UInt8) : ofNat bytes.length (toNat bytes) = bytes := by
  induction bytes with
  | nil => rfl
  | cons byte rest ih =>
    have hbyte : byte.toNat < 256 := byte.toNat_lt
    have hlow : UInt8.ofNat (byte.toNat + 256 * toNat rest) = byte := by
      apply UInt8.toNat.inj
      simp only [UInt8.toNat_ofNat']
      omega
    have hhigh : (byte.toNat + 256 * toNat rest) / 256 = toNat rest := by omega
    show UInt8.ofNat (byte.toNat + 256 * toNat rest) ::
      ofNat rest.length ((byte.toNat + 256 * toNat rest) / 256) = byte :: rest
    rw [hlow, hhigh, ih]

theorem toNat_lt (bytes : List UInt8) : toNat bytes < 256 ^ bytes.length := by
  induction bytes with
  | nil => simp [toNat]
  | cons byte rest ih =>
    have hbyte : byte.toNat < 256 := byte.toNat_lt
    show byte.toNat + 256 * toNat rest < 256 ^ (rest.length + 1)
    omega

theorem toNat_ofNat (h : n < 256 ^ width) : toNat (ofNat width n) = n := by
  induction width generalizing n with
  | zero =>
    have hzero : n = 0 := by simpa using h
    rw [hzero]
    rfl
  | succ width ih =>
    have hhigh : toNat (ofNat width (n / 256)) = n / 256 := ih (by omega)
    show (UInt8.ofNat n).toNat + 256 * toNat (ofNat width (n / 256)) = n
    rw [hhigh, UInt8.toNat_ofNat']
    omega

/-- The little-endian integer of `width` bytes at `offset`. -/
def getInt (width : Nat) (bytes : List UInt8) (offset : Nat) : Nat := toNat
    (slice bytes offset width)

/-- The bytes of an integer that was read from a byte string. -/
theorem ofNat_getInt (h : offset + width ≤ bytes.length) :
    ofNat width (getInt width bytes offset) = slice bytes offset width := by
  have hround := ofNat_toNat (slice bytes offset width)
  rwa [slice_length h] at hround

theorem ofNat_of_getInt
    (hlength : offset + width ≤ bytes.length) (h : getInt width bytes offset = n) :
    ofNat width n = slice bytes offset width := by
  rw [← h, ofNat_getInt hlength]

theorem getInt_lt (width : Nat) (bytes : List UInt8) (offset : Nat) :
    getInt width bytes offset < 256 ^ width := by
  have hlength : (slice bytes offset width).length ≤ width := length_take_le _ _
  exact Nat.lt_of_lt_of_le (toNat_lt _) (Nat.pow_le_pow_right (by decide) hlength)

/-! ## Frames

A frame is a string of fields, one after the other. A string is a frame exactly when each of its
slices is the field that belongs there. -/

theorem append_eq_drop (piece rest bytes : List UInt8) (offset : Nat) :
    piece ++ rest = bytes.drop offset ↔
      slice bytes offset piece.length = piece ∧ rest = bytes.drop (offset + piece.length) := by
  rw [← drop_drop]
  constructor
  · intro h
    simp [slice, ← h]
  · rintro ⟨hpiece, rfl⟩
    nth_rewrite 1 [← hpiece]
    exact take_append_drop _ _

theorem append_eq_iff (piece rest bytes : List UInt8) :
    piece ++ rest = bytes ↔ slice bytes 0 piece.length = piece ∧ rest = bytes.drop piece.length := by
  simpa using append_eq_drop piece rest bytes 0

theorem eq_drop {piece : List UInt8} (h : bytes.length = offset + piece.length) :
    piece = bytes.drop offset ↔ slice bytes offset piece.length = piece := by
  rw [slice, take_of_length_le (by simp [h]), eq_comm]

/-- A string that starts with pieces of equal width. -/
theorem flatten_eq_drop {pieces : List (List UInt8)}
    (hwidth : ∀ piece ∈ pieces, piece.length = width)
    (rest bytes : List UInt8) (offset : Nat) :
    pieces.flatten ++ rest = bytes.drop offset ↔
      (range pieces.length).map (fun i => slice bytes (offset + width * i) width) = pieces ∧
        rest = bytes.drop (offset + width * pieces.length) := by
  induction pieces generalizing offset with
  | nil => simp
  | cons piece pieces ih =>
    obtain ⟨hpiece, hpieces⟩ := forall_mem_cons.mp hwidth
    rw [flatten_cons, append_assoc, append_eq_drop, hpiece, ih hpieces,
      length_cons, range_succ_eq_map, map_cons, map_map, cons.injEq,
      and_assoc]
    simp only [Function.comp_def, Nat.mul_succ, Nat.add_assoc, Nat.add_comm width, Nat.mul_zero,
      Nat.add_zero, Nat.succ_eq_add_one]

theorem slice_eq_ofNat (h : offset + width ≤ bytes.length) (fits : n < 256 ^ width) :
    slice bytes offset width = ofNat width n ↔ getInt width bytes offset = n := by
  refine ⟨fun hslice => ?_, fun hint => (ofNat_of_getInt h hint).symm⟩
  rw [getInt, hslice, toNat_ofNat fits]

theorem slice_eq_zeros (h : offset + width ≤ bytes.length) :
    slice bytes offset width = zeros width ↔ isZero (slice bytes offset width) = true := by
  rw [isZero_iff, slice_length h]

theorem fit_eq (h : bytes.length ≤ width) :
    fit width bytes = bytes ++ zeros (width - bytes.length) := by
  simp [fit, take_append, zeros, take_of_length_le h]

theorem fit_append_drop {used : List UInt8} (hused : used.length = n) (h : n ≤ width)
    (hsize : width ≤ bytes.length) :
    fit width used ++ bytes.drop width = bytes ↔
      isZero (slice bytes n (width - n)) = true ∧ used ++ bytes.drop n = bytes := by
  subst hused
  rw [fit_eq h, append_assoc, append_eq_iff, append_eq_drop, append_eq_iff, length_zeros,
    Nat.add_sub_cancel' h, slice_eq_zeros (by omega)]
  simp [and_comm]

/-- The fields of a value, each with its width, are in the range of their types. -/
def InRange (fields : List (Nat × Nat)) : Prop := ∀ field ∈ fields, field.2 < 256 ^ field.1

theorem inRange_nil : InRange [] ↔ True := by simp [InRange]

theorem inRange_cons {rest : List (Nat × Nat)} :
    InRange ((width, n) :: rest) ↔ n < 256 ^ width ∧ InRange rest := forall_mem_cons

/-! ## Writes -/

/-- The bytes after `piece` was written at `offset`. -/
def patch (bytes : List UInt8) (offset : Nat) (piece : List UInt8) : List UInt8 :=
  bytes.take offset ++ piece ++ bytes.drop (offset + piece.length)

section

variable {bytes piece : List UInt8} {offset : Nat}

theorem patch_length (h : offset + piece.length ≤ bytes.length) :
    (patch bytes offset piece).length = bytes.length := by
  simp only [patch, length_append, length_take, length_drop]
  omega

theorem getElem?_patch (h : offset + piece.length ≤ bytes.length) (i : Nat) :
    (patch bytes offset piece)[i]? =
      if offset ≤ i ∧ i < offset + piece.length then piece[i - offset]? else bytes[i]? := by
  have htake : (bytes.take offset).length = offset := by simp; omega
  unfold patch
  rw [append_assoc]
  by_cases hbefore : i < offset
  · rw [getElem?_append_left (by omega), getElem?_take_of_lt hbefore, if_neg (by omega)]
  rw [getElem?_append_right (by omega), htake]
  by_cases hinside : i < offset + piece.length
  · rw [getElem?_append_left (by omega), if_pos (by omega)]
  · rw [getElem?_append_right (by omega), getElem?_drop, if_neg (by omega)]
    congr 1
    omega

theorem patch_append {second : List UInt8}
    (h : offset + piece.length + second.length ≤ bytes.length) :
    patch (patch bytes offset piece) (offset + piece.length) second =
      patch bytes offset (piece ++ second) := by
  have hfirst : offset + piece.length ≤ bytes.length := by omega
  have hlength : (patch bytes offset piece).length = bytes.length := patch_length hfirst
  have hboth : offset + (piece ++ second).length ≤ bytes.length := by
    rw [length_append]
    omega
  apply ext_getElem?
  intro i
  rw [getElem?_patch (by omega), getElem?_patch hfirst, getElem?_patch hboth, length_append]
  by_cases hbehind : offset + piece.length ≤ i ∧ i < offset + piece.length + second.length
  · rw [if_pos hbehind, if_pos (by omega), getElem?_append_right (by omega)]
    congr 1
    omega
  rw [if_neg hbehind]
  by_cases hin : offset ≤ i ∧ i < offset + piece.length
  · rw [if_pos hin, if_pos (by omega), getElem?_append_left (by omega)]
  · rw [if_neg hin, if_neg (by omega)]

theorem slice_patch_self (h : offset + piece.length ≤ bytes.length) :
    slice (patch bytes offset piece) offset piece.length = piece := by
  apply ext_getElem?
  intro i
  rw [getElem?_slice, getElem?_patch h]
  by_cases hi : i < piece.length
  · rw [if_pos hi, if_pos (by omega), Nat.add_sub_cancel_left]
  · rw [if_neg hi, getElem?_eq_none (by omega)]

/-- A slice beside the written piece does not change. -/
theorem slice_patch_other (h : offset + piece.length ≤ bytes.length) {at' : Nat}
    (hapart : at' + width ≤ offset ∨ offset + piece.length ≤ at') :
    slice (patch bytes offset piece) at' width = slice bytes at' width := by
  apply ext_getElem?
  intro i
  rw [getElem?_slice, getElem?_slice]
  by_cases hi : i < width
  · rw [if_pos hi, if_pos hi, getElem?_patch h, if_neg (by omega)]
  · rw [if_neg hi, if_neg hi]

end

/-! ## Interrupted writes -/

/-- The first `count` bytes of `new`, then the old bytes. -/
def torn (count : Nat) (new old : List UInt8) : List UInt8 := new.take count ++ old.drop count

section

variable (h : new.length = old.length)
include h

theorem torn_length (count : Nat) : (torn count new old).length = old.length := by
  simp only [torn, length_append, length_take, length_drop]
  omega

theorem getElem?_torn (count i : Nat) :
    (torn count new old)[i]? = if i < count then new[i]? else old[i]? := by
  unfold torn
  by_cases hi : i < count
  · rw [if_pos hi]
    by_cases hlength : i < new.length
    · rw [getElem?_append_left (by simp; omega), getElem?_take_of_lt hi]
    · rw [getElem?_eq_none (by simp; omega), getElem?_eq_none (by omega)]
  · rw [if_neg hi]
    by_cases hlength : count ≤ new.length
    · rw [getElem?_append_right (by simp; omega), getElem?_drop]
      congr 1
      simp
      omega
    · rw [getElem?_eq_none (by simp; omega), getElem?_eq_none (by omega)]

/-- A second interrupted write of the same bytes leaves what one longer write leaves. -/
theorem torn_torn (count more : Nat) :
    torn count new (torn more new old) = torn (max count more) new old := by
  apply ext_getElem?
  intro i
  rw [getElem?_torn (by rw [torn_length h]; exact h), getElem?_torn h, getElem?_torn h]
  by_cases hcount : i < count
  · rw [if_pos hcount, if_pos (by omega)]
  · by_cases hmore : i < more
    · rw [if_neg hcount, if_pos hmore, if_pos (by omega)]
    · rw [if_neg hcount, if_neg hmore, if_neg (by omega)]

end

theorem torn_zero (new old : List UInt8) : torn 0 new old = old := by simp [torn]

theorem torn_full (h : new.length = old.length) {count : Nat}
    (hcount : new.length ≤ count) : torn count new old = new := by
  simp [torn, take_of_length_le hcount, drop_of_length_le (h ▸ hcount)]

end Zettide.Bytes
