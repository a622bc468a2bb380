import Mathlib.Algebra.BigOperators.Intervals
import Mathlib.Algebra.Order.BigOperators.Group.Finset
import Mathlib.Tactic.Common

/-! # Lists of half-open intervals

An item of a list covers the positions from its start up to its start plus its count. When no two
items cover the same position, a position is covered at most once; when the counts add up to the
size of the window that holds all items, every position of the window is covered exactly once.
Nothing there asks the list to be sorted. `Spans` says of a list that it begins with the maximal
intervals of the positions with a property, in order. -/

namespace Zettide.Intervals

open List Finset

/-- The positions of the interval that begins at `start`. -/
def Within (start count position : Nat) : Prop := start ≤ position ∧ position < start + count

instance (start count position : Nat) : Decidable (Within start count position) :=
  inferInstanceAs (Decidable (_ ∧ _))

variable {α : Type}

/-- Items of which no two satisfy a predicate at once satisfy it at most once. -/
theorem countP_le_one {p : α → Bool} {items : List α}
    (h : items.Pairwise fun a b => ¬ (p a = true ∧ p b = true)) : items.countP p ≤ 1 := by
  induction items with
  | nil => simp
  | cons a rest ih =>
    obtain ⟨hfirst, hrest⟩ := pairwise_cons.mp h
    by_cases ha : p a = true
    · have hnone : rest.countP p = 0 := by
        rw [countP_eq_zero]
        exact fun b hb hpb => hfirst b hb ⟨ha, hpb⟩
      simp [ha, hnone]
    · have := ih hrest
      simpa [ha] using this

variable {start count : α → Nat} {items : List α} {low high : Nat}

/-- The number of items that cover a position. -/
def cover (start count : α → Nat) (items : List α) (position : Nat) : Nat :=
  items.countP fun item => Within (start item) (count item) position

/-- No position is covered by both. -/
def Apart (start count : α → Nat) (a b : α) : Prop :=
  ∀ position, ¬ (Within (start a) (count a) position ∧ Within (start b) (count b) position)

theorem apart_of_le {a b : α} (h : start a + count a ≤ start b) : Apart start count a b := by
  rintro position ⟨⟨_, ha⟩, hb, _⟩
  omega

theorem cover_le_one (h : items.Pairwise (Apart start count)) (position : Nat) :
    cover start count items position ≤ 1 := by
  refine countP_le_one (h.imp fun hapart => ?_)
  simpa using hapart position

/-- A window that holds an interval counts its positions. -/
theorem sum_within {first size : Nat} (hlow : low ≤ first) (hhigh : first + size ≤ high) :
    ∑ position ∈ Finset.Ico low high, (if Within first size position then 1 else 0) = size := by
  rw [← card_filter]
  have hfilter : (Finset.Ico low high).filter (fun position => Within first size position) =
      Finset.Ico first (first + size) := by
    ext position
    rw [Finset.mem_filter, Finset.mem_Ico, Finset.mem_Ico]
    unfold Within
    omega
  rw [hfilter, Nat.card_Ico]
  omega

/-- Counting the positions that are covered, with multiplicity, adds up the counts. -/
theorem sum_cover (h : ∀ item ∈ items, low ≤ start item ∧ start item + count item ≤ high) :
    ∑ position ∈ Finset.Ico low high, cover start count items position = (items.map count).sum := by
  induction items with
  | nil => simp [cover]
  | cons item rest ih =>
    obtain ⟨hlow, hhigh⟩ := h item mem_cons_self
    have hrest := ih fun other hmem => h other (List.mem_cons_of_mem _ hmem)
    simp only [cover, List.countP_cons, decide_eq_true_eq, sum_add_distrib]
    rw [List.map_cons, List.sum_cons, sum_within hlow hhigh, add_comm (count item)]
    exact congrArg (· + count item) hrest

section

variable (hapart : items.Pairwise (Apart start count))
  (hinside : ∀ item ∈ items, low ≤ start item ∧ start item + count item ≤ high)
include hapart hinside

/-- Disjoint items whose counts add up to the size of the window cover each of its positions
exactly once. -/
theorem cover_eq_one (htotal : (items.map count).sum = high - low) {position : Nat}
    (hlow : low ≤ position) (hhigh : position < high) : cover start count items position = 1 := by
  have hle : ∀ p ∈ Finset.Ico low high, cover start count items p ≤ 1 :=
    fun p _ => cover_le_one hapart p
  have hsum : ∑ p ∈ Finset.Ico low high, cover start count items p =
      ∑ p ∈ Finset.Ico low high, 1 := by
    rw [sum_cover hinside, htotal, ← card_eq_sum_ones, Nat.card_Ico]
  exact (sum_eq_sum_iff_of_le hle).mp hsum position (mem_Ico.mpr ⟨hlow, hhigh⟩)

/-- The number of positions that disjoint items cover. -/
theorem card_covered : ((Finset.Ico low high).filter fun position =>
      ∃ item ∈ items, Within (start item) (count item) position).card =
      (items.map count).sum := by
  rw [← sum_cover hinside, card_filter]
  refine sum_congr rfl fun position _ => ?_
  have hle := cover_le_one hapart position
  by_cases hsome : ∃ item ∈ items, Within (start item) (count item) position
  · have hpos : 0 < cover start count items position := by
      obtain ⟨item, hmem, hwithin⟩ := hsome
      exact countP_pos_iff.mpr ⟨item, hmem, by simpa using hwithin⟩
    rw [if_pos hsome]
    omega
  · have hzero : cover start count items position = 0 := by
      refine countP_eq_zero.mpr fun item hmem hwithin => hsome ⟨item, hmem, ?_⟩
      simpa using hwithin
    rw [if_neg hsome, hzero]

end

/-! ## Maximal spans -/

/-- The list begins with the maximal spans of the positions from `low` up to `high` that satisfy
`p`, in order, and `unused` is the rest of it. A position that does not satisfy `p` is passed over;
from one that does, the next item reaches as far as all of them do. -/
inductive Spans (start count : α → Nat) (ok : α → Prop) (p : Nat → Prop) (high : Nat) :
    Nat → List α → List α → Prop where
  | done {low : Nat} {items : List α} : high ≤ low → Spans start count ok p high low items items
  | skip {low : Nat} {items unused : List α} : low < high → ¬ p low →
      Spans start count ok p high (low + 1) items unused →
      Spans start count ok p high low items unused
  | span {low next : Nat} {first : α} {rest unused : List α} : low < next → next ≤ high →
      (∀ position, low ≤ position → position < next → p position) → (next < high → ¬ p next) →
      start first = low → start first + count first = next → ok first →
      Spans start count ok p high next rest unused →
      Spans start count ok p high low (first :: rest) unused

namespace Spans

variable {ok : α → Prop} {p : Nat → Prop} {next : Nat} {unused : List α}

theorem done_iff (hle : high ≤ low) :
    Spans start count ok p high low items unused ↔ items = unused := by
  constructor
  · intro h
    cases h with
    | done => rfl
    | skip hlt | span => omega
  · rintro rfl
    exact .done hle

theorem skip_iff (hle : low ≤ next) (hhigh : next ≤ high)
    (hskip : ∀ position, low ≤ position → position < next → ¬ p position) :
    Spans start count ok p high low items unused ↔
      Spans start count ok p high next items unused := by
  induction next, hle using Nat.le_induction with
  | base => rfl
  | succ next hle ih =>
    have hnot := hskip next hle (Nat.lt_succ_self next)
    rw [ih (by omega) fun position hfrom hto => hskip position hfrom (by omega)]
    refine ⟨fun h => ?_, .skip hhigh hnot⟩
    cases h with
    | done => omega
    | skip _ _ hrest => exact hrest
    | span hlt _ hall => exact absurd (hall next le_rfl hlt) hnot

theorem span_iff (hlt : low < next) (hle : next ≤ high)
    (hall : ∀ position, low ≤ position → position < next → p position)
    (hend : next < high → ¬ p next) :
    Spans start count ok p high low items unused ↔ ∃ first rest, items = first :: rest ∧
      start first = low ∧ start first + count first = next ∧ ok first ∧
      Spans start count ok p high next rest unused := by
  constructor
  · intro h
    cases h with
    | done => omega
    | skip _ hnot => exact absurd (hall low le_rfl hlt) hnot
    | @span _ other first rest _ hlt' hle' hall' hend' hstart hcount hok hrest =>
      -- both ends are the first position that does not satisfy the predicate
      obtain rfl : other = next := by
        rcases Nat.lt_trichotomy other next with hbefore | heq | hbehind
        · exact absurd (hall other hlt'.le hbefore) (hend' (by omega))
        · exact heq
        · exact absurd (hall' next hlt.le hbehind) (hend (by omega))
      exact ⟨first, rest, rfl, hstart, hcount, hok, hrest⟩
  · rintro ⟨first, rest, rfl, hstart, hcount, hok, hrest⟩
    exact .span hlt hle hall hend hstart hcount hok hrest

/-- What the spans of the positions are: they come in order, consist of positions that satisfy `p`,
and leave none of those out. -/
theorem taken (h : Spans start count ok p high low items unused) :
    ∃ used, items = used ++ unused ∧ used.Pairwise (fun a b => start a + count a ≤ start b) ∧
      (∀ item ∈ used, low ≤ start item ∧ 0 < count item ∧ start item + count item ≤ high ∧
        ok item ∧ ∀ position, Within (start item) (count item) position → p position) ∧
      ∀ position, low ≤ position → position < high → p position →
        ∃ item ∈ used, Within (start item) (count item) position := by
  induction h with
  | done hle => exact ⟨[], rfl, .nil, by simp, fun position hfrom hto => by omega⟩
  | skip _ hnot _ ih =>
    obtain ⟨used, rfl, hordered, hitems, hcovers⟩ := ih
    refine ⟨used, rfl, hordered, fun item hmem => ?_, fun position hfrom hto hp => ?_⟩
    · obtain ⟨hstart, hrest⟩ := hitems item hmem
      exact ⟨by omega, hrest⟩
    · refine hcovers position (Nat.lt_of_le_of_ne hfrom ?_) hto hp
      rintro rfl
      exact hnot hp
  | @span _ _ first _ _ hlt hle hall _ hstart hcount hok _ ih =>
    subst hstart hcount
    obtain ⟨used, rfl, hordered, hitems, hcovers⟩ := ih
    have hbehind := fun item hmem => (hitems item hmem).1
    refine ⟨first :: used, rfl, pairwise_cons.mpr ⟨hbehind, hordered⟩,
      forall_mem_cons.mpr ⟨⟨le_rfl, by omega, hle, hok, fun position h => hall position h.1 h.2⟩,
        fun item hmem => ⟨hlt.le.trans (hbehind item hmem), (hitems item hmem).2⟩⟩,
      fun position hfrom hto hp => ?_⟩
    by_cases hin : position < start first + count first
    · exact ⟨first, mem_cons_self, hfrom, hin⟩
    · obtain ⟨item, hmem, hcontains⟩ := hcovers position (not_lt.mp hin) hto hp
      exact ⟨item, mem_cons_of_mem _ hmem, hcontains⟩

end Spans

end Zettide.Intervals
