import Mathlib.Data.List.Basic
import Mathlib.Tactic.Common

/-! # Fallible computations

Functions that may fail are computations in `Except ε`. A guard of the form
"if this holds, return that error" is `rejectIf`; a sequence of guards followed by a result is a
`do` block. The lemmas below turn "this block returned `a`" into the conjunction of what every
line of the block returned, so that proofs about guarded code never unfold the monad. -/

namespace Zettide

open Except

section

variable {ε α β : Type}

/-- Leave with the error `e` when `c` holds. -/
def rejectIf (c : Prop) [Decidable c] (e : ε) : Except ε Unit :=
  if c then .error e else .ok ()

/-- The value of an optional, or the error `e` when there is none. -/
def orElseFail (o : Option α) (e : ε) : Except ε α :=
  match o with
  | some a => .ok a
  | none => .error e

@[simp] theorem rejectIf_eq_ok (c : Prop) [Decidable c] (e : ε) (u : Unit) :
    rejectIf c e = .ok u ↔ ¬ c := by
  unfold rejectIf
  split <;> simp_all

@[simp] theorem rejectIf_eq_error (c : Prop) [Decidable c] (e e' : ε) :
    rejectIf c e = .error e' ↔ c ∧ e = e' := by
  unfold rejectIf
  split <;> simp_all

@[simp] theorem orElseFail_eq_ok (o : Option α) (e : ε) (a : α) :
    orElseFail o e = .ok a ↔ o = some a := by
  cases o <;> simp [orElseFail]

@[simp] theorem orElseFail_eq_error (o : Option α) (e e' : ε) :
    orElseFail o e = .error e' ↔ o = none ∧ e = e' := by
  cases o <;> simp [orElseFail]

@[simp] theorem exists_unit_iff (p : Unit → Prop) : (∃ u, p u) ↔ p () :=
  ⟨fun ⟨_, h⟩ => h, fun h => ⟨(), h⟩⟩

@[simp] theorem bind_eq_ok (x : Except ε α) (f : α → Except ε β) (b : β) :
    (x >>= f) = .ok b ↔ ∃ a, x = .ok a ∧ f a = .ok b := by
  cases x <;> simp [bind, Except.bind]

@[simp] theorem bind_eq_error (x : Except ε α) (f : α → Except ε β) (e : ε) :
    (x >>= f) = .error e ↔ x = .error e ∨ ∃ a, x = .ok a ∧ f a = .error e := by
  cases x <;> simp [bind, Except.bind]

/-- The same computation with its errors seen as errors of another kind. -/
def withError {ε' : Type} (f : ε → ε') (x : Except ε α) : Except ε' α :=
  match x with
  | .ok a => .ok a
  | .error e => .error (f e)

@[simp] theorem withError_eq_ok {ε' : Type} (f : ε → ε') (x : Except ε α) (a : α) :
    withError f x = .ok a ↔ x = .ok a := by
  cases x <;> simp [withError]

@[simp] theorem withError_eq_error {ε' : Type} (f : ε → ε') (x : Except ε α) (e' : ε') :
    withError f x = .error e' ↔ ∃ e, x = .error e ∧ f e = e' := by
  cases x <;> simp [withError]

/-- The rules that take a block apart that returned a result. -/
theorem ok_iff : (∀ {ε α β : Type} (x : Except ε α) (f : α → Except ε β) (b : β),
      (x >>= f) = .ok b ↔ ∃ a, x = .ok a ∧ f a = .ok b) ∧
    (∀ {ε : Type} (c : Prop) [Decidable c] (e : ε) (u : Unit), rejectIf c e = .ok u ↔ ¬ c) ∧
    (∀ {ε α : Type} (o : Option α) (e : ε) (a : α), orElseFail o e = .ok a ↔ o = some a) ∧
    (∀ {ε ε' α : Type} (f : ε → ε') (x : Except ε α) (a : α), withError f x = .ok a ↔ x = .ok a) ∧
    (∀ p : Unit → Prop, (∃ u, p u) ↔ p ()) ∧
    ∀ {ε α : Type} (a b : α), (ok a : Except ε α) = .ok b ↔ a = b :=
  ⟨bind_eq_ok, rejectIf_eq_ok, orElseFail_eq_ok, withError_eq_ok, exists_unit_iff,
    fun _ _ => iff_of_eq (ok.injEq ..)⟩

/-- The result satisfies `P`, or the error satisfies `Q`. -/
def Ensures (x : Except ε α) (P : α → Prop) (Q : ε → Prop) : Prop :=
  (∀ a, x = .ok a → P a) ∧ ∀ e, x = .error e → Q e

theorem Ensures.ok {a : α} {P : α → Prop} {Q : ε → Prop} (h : P a) : Ensures (.ok a) P Q :=
  ⟨by rintro b ⟨⟩; exact h, by rintro e ⟨⟩⟩

theorem Ensures.bind {x : Except ε α} {f : α → Except ε β} {P : α → Prop} {R : β → Prop}
    {Q : ε → Prop} (hx : Ensures x P Q) (hf : ∀ a, P a → Ensures (f a) R Q) :
    Ensures (x >>= f) R Q := by
  cases x with
  | ok a => exact hf a (hx.1 a rfl)
  | error e => exact ⟨by rintro b ⟨⟩, by rintro e' ⟨⟩; exact hx.2 e rfl⟩

/-- The result of a computation with its error forgotten. -/
def value (x : Except ε α) : Option α :=
  match x with
  | .ok a => some a
  | .error _ => none

@[simp] theorem value_eq_some (x : Except ε α) (a : α) : value x = some a ↔ x = .ok a := by
  cases x <;> simp [value]

end

end Zettide
