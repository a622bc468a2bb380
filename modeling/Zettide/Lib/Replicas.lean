import Mathlib.Data.List.Basic
import Mathlib.Tactic.Common

/-! # Replicated cells behind an address translation

A memory is a family of stores of cells. An address is translated to the stores that hold a
replica of it and to the cell, the same in all of them; some addresses are not translated at all.
If no cell backs two addresses, a write to all replicas of some addresses changes what is loaded
from these addresses and nothing else, and replicas that agree go on to agree.

What a write did is described by `Stores` without saying how: cell by cell, store by store, or in
pieces that follow each other. -/

namespace Zettide.Replicas

open Option List

variable {α σ β : Type} {cell : Nat}

/-- No cell backs two addresses. -/
def Separate (locate : α → Option (List σ × Nat)) : Prop :=
  ∀ a b storesA storesB cell store, locate a = some (storesA, cell) →
    locate b = some (storesB, cell) → store ∈ storesA → store ∈ storesB → a = b

/-- The replicas of an address hold one value. -/
def Agree (locate : α → Option (List σ × Nat)) (memory : σ → Nat → β) : Prop :=
  ∀ a stores cell, locate a = some (stores, cell) →
    ∀ store ∈ stores, ∀ other ∈ stores, memory store cell = memory other cell

/-- The value at an address, from the first of its replicas. -/
def load (locate : α → Option (List σ × Nat)) (memory : σ → Nat → β) (a : α) : Option β :=
  match locate a with
  | none => none
  | some (stores, cell) => stores.head?.map fun store => memory store cell

theorem load_eq_none {locate : α → Option (List σ × Nat)} {memory : σ → Nat → β} {a : α}
    (h : locate a = none) : load locate memory a = none := by
  unfold load
  rw [h]

theorem Agree.load_eq {locate : α → Option (List σ × Nat)} {memory : σ → Nat → β}
    (h : Agree locate memory) {a : α} {stores : List σ}
    (hlocate : locate a = some (stores, cell)) {store : σ} (hmem : store ∈ stores) :
    load locate memory a = some (memory store cell) := by
  unfold load
  rw [hlocate]
  cases stores with
  | nil => simp at hmem
  | cons first rest =>
    exact congrArg some (h a _ cell hlocate first mem_cons_self store hmem)

/-- The memory after a write of some addresses: all their replicas have the new values, and the
other cells the old ones. -/
structure Stores (locate : α → Option (List σ × Nat)) (written : α → Option β)
    (before after : σ → Nat → β) : Prop where
  hit : ∀ a value stores cell store, written a = some value → locate a = some (stores, cell) →
    store ∈ stores → after store cell = value
  miss : ∀ store cell, (∀ a value stores, written a = some value →
    locate a = some (stores, cell) → store ∉ stores) → after store cell = before store cell

namespace Stores

variable {locate : α → Option (List σ × Nat)} {written first second : α → Option β}
  {before between after : σ → Nat → β}

theorem nothing (locate : α → Option (List σ × Nat)) (memory : σ → Nat → β) :
    Stores locate (fun _ => none) memory memory where
  hit := by simp
  miss := fun _ _ _ => rfl

theorem other (h : Stores locate written before after) (hseparate : Separate locate) {a : α}
    (hnot : written a = none) {stores : List σ}
    (hlocate : locate a = some (stores, cell)) {store : σ} (hmem : store ∈ stores) :
    after store cell = before store cell := by
  apply h.miss
  intro b value storesB hwritten hlocateB hmemB
  have hsame : b = a := hseparate b a storesB stores cell store hlocateB hlocate hmemB hmem
  rw [hsame, hnot] at hwritten
  cases hwritten

/-- Two writes behind each other: the later value counts. -/
theorem trans (h : Stores locate first before between) (h' : Stores locate second between after)
    (hseparate : Separate locate) :
    Stores locate (fun a => (second a).or (first a)) before after where
  hit := by
    intro a value stores cell store hwritten hlocate hmem
    cases hsecond : second a with
    | some later =>
      rw [hsecond, some_or, some.injEq] at hwritten
      rw [h'.hit a later stores cell store hsecond hlocate hmem, hwritten]
    | none =>
      rw [hsecond, none_or] at hwritten
      rw [h'.other hseparate hsecond hlocate hmem]
      exact h.hit a value stores cell store hwritten hlocate hmem
  miss := by
    intro store cell hnot
    rw [h'.miss store cell, h.miss store cell]
    · intro a value stores hwritten
      cases hsecond : second a with
      | some later => exact hnot a later stores (by rw [hsecond, some_or])
      | none => exact hnot a value stores (by rw [hsecond, none_or, hwritten])
    · intro a value stores hwritten
      exact hnot a value stores (by rw [hwritten, some_or])

theorem agree (h : Stores locate written before after) (hseparate : Separate locate)
    (hagree : Agree locate before) : Agree locate after := by
  intro a stores cell hlocate store hstore other hother
  cases hwritten : written a with
  | some value =>
    rw [h.hit a value stores cell store hwritten hlocate hstore,
      h.hit a value stores cell other hwritten hlocate hother]
  | none =>
    rw [h.other hseparate hwritten hlocate hstore, h.other hseparate hwritten hlocate hother]
    exact hagree a stores cell hlocate store hstore other hother

/-- Every address holds the value written to it, or what it held before. -/
theorem load (h : Stores locate written before after) (hseparate : Separate locate) (a : α) :
    load locate after a = (load locate before a).map fun old => (written a).getD old := by
  unfold Replicas.load
  rcases hlocate : locate a with _ | place
  · rfl
  obtain ⟨stores, cell⟩ := place
  cases stores with
  | nil => rfl
  | cons store rest =>
    simp only [head?_cons, map_some, some.injEq]
    cases hwritten : written a with
    | some value => exact h.hit a value _ cell store hwritten hlocate mem_cons_self
    | none => exact h.other hseparate hwritten hlocate mem_cons_self

end Stores

end Zettide.Replicas
