import Mathlib.Data.List.Chain

/-! # Exchange sort

The sort that compares each position with every later one and exchanges the two when the later key
is smaller, on lists. It leaves a list alone whose keys already increase. -/

namespace Zettide

open List

section

variable {α : Type} (key : α → Nat)

/-- One pass for the first position: the element that ends up there, and the other elements in the
order in which the exchanges leave them. -/
def sweep (target : α) : List α → α × List α
  | [] => (target, [])
  | candidate :: rest =>
    if key candidate < key target then
      ((sweep candidate rest).1, target :: (sweep candidate rest).2)
    else
      ((sweep target rest).1, candidate :: (sweep target rest).2)

/-- Passes for the first `n` positions. -/
def sortFrom : Nat → List α → List α
  | _, [] => []
  | 0, items => items
  | n + 1, target :: rest => (sweep key target rest).1 :: sortFrom n (sweep key target rest).2

/-- Sort by key. -/
def exchangeSort (items : List α) : List α := sortFrom key items.length items

/-- Keys strictly increase along the list. -/
def KeyOrdered (items : List α) : Prop := items.IsChain fun a b => key a < key b

instance (items : List α) : Decidable (KeyOrdered key items) :=
  inferInstanceAs (Decidable (items.IsChain fun a b => key a < key b))

variable {key}

theorem sweep_of_forall_lt {target : α} {rest : List α}
    (h : ∀ a ∈ rest, key target < key a) : sweep key target rest = (target, rest) := by
  induction rest with
  | nil => rfl
  | cons candidate rest ih =>
    have hlt : ¬ key candidate < key target := by
      have := h candidate mem_cons_self
      omega
    have hrest := ih fun a ha => h a (mem_cons_of_mem _ ha)
    simp [sweep, hlt, hrest]

theorem sortFrom_of_pairwise {items : List α} (h : items.Pairwise fun a b => key a < key b) :
    ∀ n, sortFrom key n items = items := by
  induction items with
  | nil => intro n; cases n <;> rfl
  | cons target rest ih =>
    intro n
    rw [pairwise_cons] at h
    cases n with
    | zero => rfl
    | succ n => simp [sortFrom, sweep_of_forall_lt h.1, ih h.2 n]

theorem KeyOrdered.exchangeSort_eq {items : List α} (h : KeyOrdered key items) :
    exchangeSort key items = items :=
  sortFrom_of_pairwise (isChain_iff_pairwise.mp h) _

theorem sweep_perm (target : α) (rest : List α) :
    ((sweep key target rest).1 :: (sweep key target rest).2).Perm (target :: rest) := by
  induction rest generalizing target with
  | nil => exact .refl _
  | cons candidate rest ih =>
    by_cases h : key candidate < key target
    · simp only [sweep, h, if_true]
      exact (List.Perm.swap _ _ _).trans ((ih candidate).cons target)
    · simp only [sweep, h, if_false]
      exact ((List.Perm.swap _ _ _).trans ((ih target).cons candidate)).trans (List.Perm.swap _ _ _)

theorem sortFrom_perm (n : Nat) (items : List α) : (sortFrom key n items).Perm items := by
  induction n generalizing items with
  | zero => cases items <;> exact .refl _
  | succ n ih =>
    cases items with
    | nil => exact .refl _
    | cons target rest =>
      exact ((ih _).cons _).trans (sweep_perm target rest)

theorem exchangeSort_perm (items : List α) : (exchangeSort key items).Perm items :=
  sortFrom_perm _ _

end

end Zettide
