/-
  File:      Lib/Ownership.lean
  Subject:   ONE OWNER AT A TIME, and machines that simulate it.

  The abstract lock is the owner, if there is one: it is taken when it is free and given back by its
  owner.

  * `OwnerStep` -- the steps of the abstract lock;
  * `HeldBy holds owner` -- exactly the owner holds: `HeldBy.unique`, `HeldBy.exists_iff`, and what
    taking and giving back do to it;
  * `simulates_run` -- the rule of forward simulation: where each step of a machine is matched by
    steps of another one, so is each run.
-/
import Mathlib

namespace Ownership

/-! ## The abstract lock -/

section Owner

variable {κ : Type*}

/-- One step of the lock. -/
inductive OwnerStep : Option κ → Option κ → Prop where
  | take (c : κ) : OwnerStep none (some c)
  | giveBack (c : κ) : OwnerStep (some c) none

/-- Exactly the owner holds. -/
def HeldBy (holds : κ → Bool) (owner : Option κ) : Prop := ∀ c, holds c = true ↔ owner = some c

variable {holds : κ → Bool} {owner : Option κ} {c c' : κ}

theorem HeldBy.unique (h : HeldBy holds owner) (hc : holds c = true) (hc' : holds c' = true) :
    c = c' :=
  Option.some.inj (((h c).mp hc).symm.trans ((h c').mp hc'))

theorem HeldBy.exists_iff (h : HeldBy holds owner) :
    (∃ c, holds c = true) ↔ owner ≠ none := by
  rw [Option.ne_none_iff_exists']
  exact exists_congr h

theorem heldBy_nobody : HeldBy (fun _ : κ => false) none :=
  fun _ => iff_of_false Bool.false_ne_true (Option.some_ne_none _).symm

variable [DecidableEq κ]

theorem HeldBy.take (h : HeldBy holds none) (c : κ) :
    HeldBy (Function.update holds c true) (some c) := by
  intro d
  by_cases hd : d = c
  · subst hd
    exact iff_of_true (Function.update_self _ _ _) rfl
  · rw [Function.update_of_ne hd, h d]
    exact iff_of_false (Option.some_ne_none _).symm fun e => hd (Option.some.inj e).symm

theorem HeldBy.giveBack (h : HeldBy holds (some c)) :
    HeldBy (Function.update holds c false) none := by
  intro d
  by_cases hd : d = c
  · subst hd
    rw [Function.update_self]
    exact iff_of_false Bool.false_ne_true (Option.some_ne_none _).symm
  · rw [Function.update_of_ne hd, h d]
    exact iff_of_false (fun e => hd (Option.some.inj e).symm) (Option.some_ne_none _).symm

end Owner

/-! ## Simulation -/

section Simulation

variable {σ τ : Type*} {step : σ → σ → Prop} {astep : τ → τ → Prop} {R : σ → τ → Prop}

open Relation in
/-- **Forward simulation**: if each step is matched, each run is. -/
theorem simulates_run
    (hstep : ∀ s s' t, R s t → step s s' → ∃ t', ReflTransGen astep t t' ∧ R s' t')
    {s s' : σ} {t : τ} (h : R s t) (hrun : ReflTransGen step s s') :
    ∃ t', ReflTransGen astep t t' ∧ R s' t' := by
  induction hrun with
  | refl => exact ⟨t, .refl, h⟩
  | tail _ hlast ih =>
      obtain ⟨t₁, hrun₁, h₁⟩ := ih
      obtain ⟨t₂, hrun₂, h₂⟩ := hstep _ _ t₁ h₁ hlast
      exact ⟨t₂, hrun₁.trans hrun₂, h₂⟩

end Simulation

end Ownership
