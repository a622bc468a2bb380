import Mathlib

/-! # Parties that share a state

Threads, requests or objects with a state of their own act on a shared one, in any order. What is
counted in the shared state is the sum of what the parties hold. -/

namespace Zettide

open Relation List

/-- A shared state and the parties that have joined. -/
structure Parties (G L : Type) where
  shared : G
  parties : List L

/-- Which parties may join, what a party does, and what the shared state does by itself. -/
structure Protocol (G L : Type) where
  joins : L → Prop
  acts : G → L → G → L → Prop
  moves : G → G → Prop

namespace Protocol

variable {G L : Type}

inductive Step (p : Protocol G L) : Parties G L → Parties G L → Prop where
  | join {shared : G} {parties : List L} {party : L} :
      p.joins party → Step p ⟨shared, parties⟩ ⟨shared, parties ++ [party]⟩
  | act {shared after : G} {parties : List L} {i : Nat} {party next : L} :
      parties[i]? = some party → p.acts shared party after next →
      Step p ⟨shared, parties⟩ ⟨after, parties.set i next⟩
  | move {shared after : G} {parties : List L} :
      p.moves shared after → Step p ⟨shared, parties⟩ ⟨after, parties⟩

def Reachable (p : Protocol G L) (start : G) (state : Parties G L) : Prop :=
  ReflTransGen p.Step ⟨start, []⟩ state

/-- The shared state counts what the parties hold, beside an invariant of each that no step of
another breaks. -/
structure Counts (p : Protocol G L) (count : G → Nat) (held : L → Nat) (Shared : G → Prop)
    (Party : G → L → Prop) : Prop where
  join : ∀ {shared party}, p.joins party → held party = 0 ∧ Party shared party
  act : ∀ {shared party after next}, Shared shared → Party shared party →
    held party ≤ count shared → p.acts shared party after next →
      Shared after ∧ Party after next ∧ count after + held party = count shared + held next
  move : ∀ {shared after}, Shared shared → p.moves shared after →
    Shared after ∧ count after = count shared
  act_keeps : ∀ {shared party after next other}, p.acts shared party after next →
    Party shared other → Party after other
  move_keeps : ∀ {shared after other}, p.moves shared after → Party shared other → Party after other

theorem sum_map_set (held : L → Nat) {parties : List L} {party : L} {i : Nat}
    (h : parties[i]? = some party) : ∃ others, (parties.map held).sum = others + held party ∧
      ∀ next, ((parties.set i next).map held).sum = others + held next := by
  induction parties generalizing i with
  | nil => simp at h
  | cons head rest ih =>
    cases i with
    | zero =>
      obtain rfl : head = party := by simpa using h
      exact ⟨(rest.map held).sum, by simp [Nat.add_comm], by simp [Nat.add_comm]⟩
    | succ i =>
      obtain ⟨others, hsum, hset⟩ := ih (by simpa using h)
      refine ⟨held head + others, by simp [hsum, Nat.add_assoc], fun next => ?_⟩
      rw [set_cons_succ, map_cons, sum_cons, hset, Nat.add_assoc]

theorem sum_map_ite (p : L → Bool) (parties : List L) :
    (parties.map fun party => if p party then 1 else 0).sum = parties.countP p := by
  induction parties with
  | nil => rfl
  | cons party rest ih => rw [map_cons, sum_cons, ih, countP_cons, Nat.add_comm]

variable {p : Protocol G L} {count : G → Nat} {held : L → Nat} {Shared : G → Prop}
  {Party : G → L → Prop} {start : G} {state : Parties G L}

/-- **Along every run the count is the sum of what the parties hold.** -/
theorem Counts.run (h : p.Counts count held Shared Party) (first : Shared start)
    (none : count start = 0) (run : p.Reachable start state) :
    Shared state.shared ∧ (∀ party ∈ state.parties, Party state.shared party) ∧
      count state.shared = (state.parties.map held).sum := by
  induction run with
  | refl => exact ⟨first, by simp, none⟩
  | tail _ step ih =>
    obtain ⟨hshared, hparties, hcount⟩ := ih
    cases step with
    | join hjoins =>
      obtain ⟨hnothing, hparty⟩ := h.join hjoins
      refine ⟨hshared, ?_, ?_⟩
      · simpa [or_imp, forall_and] using ⟨hparties, hparty⟩
      · simp [hcount, hnothing]
    | @act _ _ parties i party next hget hacts =>
      obtain ⟨others, hsum, hset⟩ := sum_map_set held hget
      dsimp only at hshared hcount ⊢
      obtain ⟨hafter, hnext, hchange⟩ :=
        h.act hshared (hparties party (mem_of_getElem? hget)) (by omega) hacts
      refine ⟨hafter, fun other hother => ?_, by rw [hset]; omega⟩
      rcases mem_or_eq_of_mem_set hother with hold | rfl
      · exact h.act_keeps hacts (hparties other hold)
      · exact hnext
    | move hmoves =>
      obtain ⟨hafter, hsame⟩ := h.move hshared hmoves
      exact ⟨hafter, fun party hmem => h.move_keeps hmoves (hparties party hmem),
        hsame.trans hcount⟩

end Protocol

end Zettide
