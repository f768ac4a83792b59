/-
  File:      Lib/Retry.lean
  Subject:   BOUNDED RETRIES: a loop makes an attempt, makes another one while the outcome asks for
             it, and gives up when its budget is spent.

  * `Attempts again n l` -- the outcomes `l` of such a loop with a budget of `n` attempts;
  * `Attempts.length_le`, `Attempts.ne_nil` -- how many attempts there are;
  * `Attempts.cases_last` -- the last outcome is the only one that need not ask for another attempt;
  * `Attempts.follows` -- an attempt that is not the first follows an outcome that asked for it.
-/
import Mathlib

namespace Retry

variable {α : Type*} {again : α → Prop} {n : Nat} {l : List α}

/-- **The outcomes of a loop with a budget of `n` attempts**, in order. -/
inductive Attempts (again : α → Prop) : Nat → List α → Prop where
  | spent : Attempts again 0 []
  | ends {n : Nat} {a : α} (h : ¬ again a) : Attempts again (n + 1) [a]
  | another {n : Nat} {a : α} {l : List α} (h : again a) (hl : Attempts again n l) :
      Attempts again (n + 1) (a :: l)

theorem Attempts.length_le (h : Attempts again n l) : l.length ≤ n := by
  induction h with
  | spent => exact Nat.le_refl 0
  | ends => exact Nat.succ_le_succ (Nat.zero_le _)
  | another _ _ ih => exact Nat.succ_le_succ ih

/-- With a budget there is a first attempt. -/
theorem Attempts.ne_nil (h : Attempts again (n + 1) l) : l ≠ [] := by
  cases h <;> exact List.cons_ne_nil _ _

/-- **The loop ends with an outcome that asks for nothing, or with its budget spent**; all other
    outcomes asked for another attempt. -/
theorem Attempts.cases_last (h : Attempts again n l) :
    (∃ m a, l = m ++ [a] ∧ (∀ b ∈ m, again b) ∧ ¬ again a) ∨
      (l.length = n ∧ ∀ b ∈ l, again b) := by
  induction h with
  | spent => exact .inr ⟨rfl, fun _ hb => absurd hb List.not_mem_nil⟩
  | @ends n a h => exact .inl ⟨[], a, rfl, fun _ hb => absurd hb List.not_mem_nil, h⟩
  | another h _ ih =>
      rcases ih with ⟨m, a, rfl, hm, ha⟩ | ⟨hlen, hall⟩
      · exact .inl ⟨_ :: m, a, rfl, List.forall_mem_cons.mpr ⟨h, hm⟩, ha⟩
      · exact .inr ⟨congrArg Nat.succ hlen, List.forall_mem_cons.mpr ⟨h, hall⟩⟩

/-- All outcomes before an attempt asked for another one. -/
theorem Attempts.before {l₁ l₂ : List α} {a : α} (h : Attempts again n (l₁ ++ a :: l₂)) :
    ∀ b ∈ l₁, again b := by
  intro b hb
  rcases h.cases_last with ⟨m, c, heq, hm, -⟩ | ⟨-, hall⟩
  · obtain ⟨k, hk⟩ : l₁ <+: m := by
      refine List.prefix_of_prefix_length_le (List.prefix_append l₁ (a :: l₂))
        (heq ▸ List.prefix_append m [c]) ?_
      have hlen := congrArg List.length heq
      simp only [List.length_append, List.length_cons, List.length_nil] at hlen
      omega
    exact hm b (hk ▸ List.mem_append_left k hb)
  · exact hall b (List.mem_append_left _ hb)

/-- **An attempt that is not the first follows an outcome that asked for it.** -/
theorem Attempts.follows {l₁ l₂ : List α} {a : α} (h : Attempts again n (l₁ ++ a :: l₂))
    (hne : l₁ ≠ []) : ∃ m b, l₁ = m ++ [b] ∧ again b := by
  refine ⟨l₁.dropLast, l₁.getLast hne, (List.dropLast_append_getLast hne).symm, ?_⟩
  exact h.before _ (List.getLast_mem hne)

end Retry
