import Mathlib.Data.Nat.ModEq
import Mathlib.Tactic.Common

/-! # A log in a ring

A log whose item `0` stays in cell `0`, while the items from `1` on go around the other cells.
`ringSlot n i` is the cell of item `i` in a region of `n` cells; item `i + (n - 1)` reuses the cell
of item `i`. -/

namespace Zettide

/-- The cell of the `index`-th item. -/
def ringSlot (cells index : Nat) : Nat :=
  if index = 0 then 0 else 1 + (index - 1) % (cells - 1)

section

variable {n i j : Nat}

@[simp] theorem ringSlot_zero : ringSlot n 0 = 0 := rfl

theorem ringSlot_of_pos (hi : 0 < i) : ringSlot n i = 1 + (i - 1) % (n - 1) := by
  unfold ringSlot
  rw [if_neg (by omega)]

theorem ringSlot_pos (hi : 0 < i) : 0 < ringSlot n i := by
  rw [ringSlot_of_pos hi]
  omega

theorem ringSlot_lt (hn : 2 ≤ n) : ringSlot n i < n := by
  rcases Nat.eq_zero_or_pos i with rfl | hi
  · rw [ringSlot_zero]
    omega
  · have := Nat.mod_lt (i - 1) (show 0 < n - 1 by omega)
    rw [ringSlot_of_pos hi]
    omega

/-- Until the ring closes, an item is in the cell of its own number. -/
theorem ringSlot_of_lt (hi : i < n) : ringSlot n i = i := by
  rcases Nat.eq_zero_or_pos i with rfl | hpos
  · rfl
  · rw [ringSlot_of_pos hpos, Nat.mod_eq_of_lt (by omega)]
    omega

/-- The cell after the cell of item `i` is the cell of item `i + 1`. -/
theorem ringSlot_succ (hn : 2 ≤ n) :
    ringSlot n (i + 1) = if ringSlot n i + 1 = n then 1 else ringSlot n i + 1 := by
  rcases Nat.eq_zero_or_pos i with rfl | hi
  · rw [ringSlot_zero, ringSlot_of_lt (by omega)]
    simp
  have hlt := Nat.mod_lt (i - 1) (show 0 < n - 1 by omega)
  have hmod : i % (n - 1) = ((i - 1) % (n - 1) + 1) % (n - 1) := by
    rw [← Nat.add_mod_left, Nat.mod_add_mod, Nat.add_mod_left]
    congr 1
    omega
  rw [ringSlot_of_pos hi, ringSlot_of_pos (by omega), Nat.add_sub_cancel, hmod]
  split
  case isTrue h =>
    rw [show (i - 1) % (n - 1) + 1 = n - 1 by omega, Nat.mod_self]
  case isFalse h =>
    rw [Nat.mod_eq_of_lt (by omega)]
    omega

theorem ringSlot_add (hi : 0 < i) : ringSlot n (i + (n - 1)) = ringSlot n i := by
  rw [ringSlot_of_pos hi, ringSlot_of_pos (by omega),
    show i + (n - 1) - 1 = i - 1 + (n - 1) by omega, Nat.add_mod_right]

/-- Within one turn different items are in different cells. -/
theorem ringSlot_inj (hi : 0 < i) (hij : i ≤ j) (hj : j < i + (n - 1))
    (h : ringSlot n i = ringSlot n j) : i = j := by
  rw [ringSlot_of_pos hi, ringSlot_of_pos (by omega)] at h
  have hmod : (i - 1) % (n - 1) = (j - 1) % (n - 1) := by omega
  have hdvd := (Nat.modEq_iff_dvd' (show i - 1 ≤ j - 1 by omega)).mp hmod
  have hzero := Nat.eq_zero_of_dvd_of_lt hdvd (by omega)
  omega

/-- Every cell of the ring belongs to exactly one item of each turn. -/
theorem exists_ringSlot {s : Nat} (hs : 0 < s) (hlt : s < n) (start : Nat) (hstart : 0 < start) :
    ∃ i, start ≤ i ∧ i < start + (n - 1) ∧ ringSlot n i = s := by
  induction start with
  | zero => omega
  | succ start ih =>
    rcases Nat.eq_zero_or_pos start with rfl | hpos
    · exact ⟨s, by omega, by omega, ringSlot_of_lt hlt⟩
    obtain ⟨i, hle, hub, hi⟩ := ih hpos
    rcases Nat.lt_or_ge start i with h | h
    · exact ⟨i, by omega, by omega, hi⟩
    · obtain rfl : i = start := by omega
      exact ⟨i + (n - 1), by omega, by omega, (ringSlot_add hpos).trans hi⟩

/-- The cells from item `j` up to item `i`, going around, are those that the items between them do
not take. -/
theorem ringSlot_gap (hn : 2 ≤ n) (hi : 0 < i) (hij : i < j) (hj : j ≤ i + (n - 1)) :
    (if ringSlot n j ≤ ringSlot n i then ringSlot n i - ringSlot n j
      else n - ringSlot n j + (ringSlot n i - 1)) = n - 1 - (j - i) := by
  have hlt := Nat.mod_lt (i - 1) (show 0 < n - 1 by omega)
  have hmod : (j - 1) % (n - 1) = ((i - 1) % (n - 1) + (j - i)) % (n - 1) := by
    rw [Nat.mod_add_mod]
    congr 1
    omega
  rw [ringSlot_of_pos hi, ringSlot_of_pos (by omega), hmod]
  rcases Nat.lt_or_ge ((i - 1) % (n - 1) + (j - i)) (n - 1) with hbefore | hafter
  · rw [Nat.mod_eq_of_lt hbefore, if_neg (by omega)]
    omega
  · rw [Nat.mod_eq_sub_mod hafter, Nat.mod_eq_of_lt (by omega), if_pos (by omega)]
    omega

end

end Zettide
