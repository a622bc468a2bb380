import Mathlib.Data.Finset.Card
import Mathlib.Data.Finset.Dedup

/-! # Quorum intersection

Items (votes, histories, acknowledgements) carry the key of the member they come from. Two lists in
which every member occurs at most once, and that together hold more accepted items than there are
voters, hold accepted items of one common member. -/

namespace Zettide

open Finset List

section

variable {α κ : Type} [DecidableEq κ] {key : α → κ}

/-- The members whose item is accepted. -/
def acceptedKeys (key : α → κ) (accepts : α → Bool) (items : List α) : Finset κ :=
  ((items.filter accepts).map key).toFinset

theorem mem_acceptedKeys {accepts : α → Bool} {items : List α} {k : κ} :
    k ∈ acceptedKeys key accepts items ↔ ∃ a ∈ items, accepts a = true ∧ key a = k := by
  simp [acceptedKeys, and_assoc]

theorem card_acceptedKeys {accepts : α → Bool} {items : List α} (distinct : (items.map key).Nodup) :
    (acceptedKeys key accepts items).card = items.countP accepts := by
  have hsub : ((items.filter accepts).map key).Nodup :=
    distinct.sublist (filter_sublist.map key)
  rw [acceptedKeys, toFinset_card_of_nodup hsub, length_map, countP_eq_length_filter]

/-- **Quorum intersection.** -/
theorem exists_common_member {voters : Finset κ} {items₁ items₂ : List α}
    {accepts₁ accepts₂ : α → Bool} (distinct₁ : (items₁.map key).Nodup)
    (distinct₂ : (items₂.map key).Nodup) (votes₁ : ∀ a ∈ items₁, accepts₁ a = true → key a ∈ voters)
    (votes₂ : ∀ a ∈ items₂, accepts₂ a = true → key a ∈ voters)
    (majority : voters.card < items₁.countP accepts₁ + items₂.countP accepts₂) :
    ∃ a ∈ items₁, ∃ b ∈ items₂, accepts₁ a = true ∧ accepts₂ b = true ∧ key a = key b := by
  have hsub₁ : acceptedKeys key accepts₁ items₁ ⊆ voters := by
    intro k hk
    obtain ⟨a, ha, hacc, rfl⟩ := mem_acceptedKeys.mp hk
    exact votes₁ a ha hacc
  have hsub₂ : acceptedKeys key accepts₂ items₂ ⊆ voters := by
    intro k hk
    obtain ⟨a, ha, hacc, rfl⟩ := mem_acceptedKeys.mp hk
    exact votes₂ a ha hacc
  rw [← card_acceptedKeys distinct₁, ← card_acceptedKeys distinct₂] at majority
  obtain ⟨k, hk⟩ := inter_nonempty_of_card_lt_card_add_card hsub₁ hsub₂ majority
  rw [mem_inter] at hk
  obtain ⟨a, ha, hacc, hak⟩ := mem_acceptedKeys.mp hk.1
  obtain ⟨b, hb, hbcc, hbk⟩ := mem_acceptedKeys.mp hk.2
  exact ⟨a, ha, b, hb, hacc, hbcc, hak.trans hbk.symm⟩

/-- Different members that are voters, and as many as there are voters, are all of them. -/
theorem mem_of_card_le {members : List κ} {voters : Finset κ} (distinct : members.Nodup)
    (votes : ∀ k ∈ members, k ∈ voters) (enough : voters.card ≤ members.length) {k : κ}
    (hk : k ∈ voters) : k ∈ members := by
  have hsub : members.toFinset ⊆ voters := fun other hother => votes other (by simpa using hother)
  have hall : members.toFinset = voters :=
    eq_of_subset_of_card_le hsub (by rwa [toFinset_card_of_nodup distinct])
  rw [← hall] at hk
  simpa using hk

end

end Zettide
