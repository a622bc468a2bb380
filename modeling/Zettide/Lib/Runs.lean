import Mathlib.Logic.Relation

/-! # Runs that agree

Two step relations agree when, from states that are the same up to `Same`, their steps lead to
states that are the same again. Then of any two runs one is reached on the way of the other. -/

namespace Zettide

open Relation

section

variable {σ : Type} {Step₁ Step₂ Same : σ → σ → Prop}

/-- The run from `start` to `finish` passes through a state that is the same as `state`. -/
def PassesThrough (Step : σ → σ → Prop) (Same : σ → σ → Prop) (start finish state : σ) : Prop :=
  ∃ middle, ReflTransGen Step start middle ∧ ReflTransGen Step middle finish ∧ Same middle state

/-- **Of two agreeing runs one is a part of the other.** -/
theorem passesThrough_of_agree
    (agree : ∀ a b a' b', Same a b → Step₁ a a' → Step₂ b b' → Same a' b')
    (symm : ∀ a b, Same a b → Same b a)
    {start₁ finish₁ : σ} (run₁ : ReflTransGen Step₁ start₁ finish₁) :
    ∀ {start₂ finish₂ : σ}, Same start₁ start₂ → ReflTransGen Step₂ start₂ finish₂ →
      PassesThrough Step₂ Same start₂ finish₂ finish₁ ∨
        PassesThrough Step₁ Same start₁ finish₁ finish₂ := by
  induction run₁ using ReflTransGen.head_induction_on with
  | refl =>
    intro start₂ finish₂ same run₂
    exact .inl ⟨start₂, .refl, run₂, symm _ _ same⟩
  | @head start₁ next₁ step₁ rest₁ ih =>
    intro start₂ finish₂ same run₂
    rcases run₂.cases_head with rfl | ⟨next₂, step₂, rest₂⟩
    · exact .inr ⟨start₁, .refl, .head step₁ rest₁, same⟩
    · rcases ih (agree _ _ _ _ same step₁ step₂) rest₂ with ⟨m, upto, onward, h⟩ | ⟨m, upto, onward, h⟩
      · exact .inl ⟨m, .head step₂ upto, onward, h⟩
      · exact .inr ⟨m, .head step₁ upto, onward, h⟩

end

end Zettide
