import Mathlib.Data.List.Chain
import Mathlib.Logic.Relation

/-! # Hash chains

Items carry their own digest and the digest of a predecessor. In a list in which every item names
the digest of the item before it, digests are ordered by the relation "names directly or through
others", whatever the digests are. -/

namespace Zettide

open Relation List

section

variable {α D : Type} {digest previous : α → D} {Precedes : D → D → Prop}

/-- Every item of the list names the digest of the item before it. -/
def HashLinked (digest previous : α → D) (items : List α) : Prop :=
  items.IsChain fun a b => previous b = digest a

section

variable {x : α} {items : List α} (h : HashLinked digest previous (x :: items))
include h

theorem HashLinked.tail : HashLinked digest previous items :=
  List.IsChain.tail h

/-- The digest of the first item leads to the digest of every item. -/
theorem HashLinked.reaches (names : ∀ a ∈ x :: items, Precedes (previous a) (digest a)) :
    ∀ y ∈ x :: items, ReflTransGen Precedes (digest x) (digest y) := by
  induction items generalizing x with
  | nil =>
    intro y hy
    rw [mem_singleton.mp hy]
  | cons second rest ih =>
    intro y hy
    rcases mem_cons.mp hy with rfl | hy
    · exact .refl
    have hlink : previous second = digest x := (isChain_cons_cons.mp h).1
    have hstep : Precedes (digest x) (digest second) :=
      hlink ▸ names second (mem_cons_of_mem _ mem_cons_self)
    exact .head hstep (ih h.tail (fun a ha => names a (mem_cons_of_mem _ ha)) y hy)

/-- Every item but the first has its predecessor in the list. -/
theorem HashLinked.exists_predecessor {y : α} (hy : y ∈ items) :
    ∃ z ∈ x :: items, previous y = digest z := by
  induction items generalizing x with
  | nil => cases hy
  | cons second rest ih =>
    rcases mem_cons.mp hy with rfl | hy
    · exact ⟨x, mem_cons_self, (isChain_cons_cons.mp h).1⟩
    · obtain ⟨z, hz, hlink⟩ := ih h.tail hy
      exact ⟨z, mem_cons_of_mem _ hz, hlink⟩

end

/-- Two items of a list are equal or one stands behind the other. -/
theorem split_of_mem {items : List α} {x y : α} (hx : x ∈ items) (hy : y ∈ items) :
    x = y ∨ (∃ before after, items = before ++ x :: after ∧ y ∈ after) ∨
      ∃ before after, items = before ++ y :: after ∧ x ∈ after := by
  obtain ⟨before, after, rfl⟩ := append_of_mem hx
  rcases mem_append.mp hy with hy | hy
  · obtain ⟨before', middle, rfl⟩ := append_of_mem hy
    exact .inr (.inr ⟨before', middle ++ x :: after, by simp, by simp⟩)
  · rcases mem_cons.mp hy with rfl | hy
    · exact .inl rfl
    · exact .inr (.inl ⟨before, after, rfl, hy⟩)

theorem HashLinked.of_append {before items : List α}
    (h : HashLinked digest previous (before ++ items)) : HashLinked digest previous items :=
  (isChain_append.mp h).2.1

end

end Zettide
