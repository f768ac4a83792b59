/-
  File:      Lib/LastWrite.lean
  Subject:   A TABLE AS THE LAST WRITES OF ITS HISTORY.

  Cells are addressed by keys, a history is the list of writes `(key, value)` in order. The table
  after a history is the fold of the writes over the initial table:

  * `memAfter_of_last` -- a write that no later write of its key follows is what the cell holds;
  * `memAfter_cases` -- and conversely a cell holds its initial value, untouched, or the value of
    a write with no later write of its key behind it.
-/
import Mathlib

namespace LastWrite

variable {κ ω : Type*} [DecidableEq κ]

/-- The table after the writes `h`, taken in order from `init`. -/
def memAfter (init : κ → ω) (h : List (κ × ω)) : κ → ω :=
  h.foldl (fun m e => Function.update m e.1 e.2) init

/-- No write of `h` is to the cell `k`. -/
def Untouched (k : κ) (h : List (κ × ω)) : Prop := ∀ e ∈ h, e.1 ≠ k

@[simp] theorem memAfter_nil (init : κ → ω) : memAfter init [] = init := rfl

theorem memAfter_concat (init : κ → ω) (h : List (κ × ω)) (e : κ × ω) :
    memAfter init (h ++ [e]) = Function.update (memAfter init h) e.1 e.2 := by
  simp only [memAfter, List.foldl_append, List.foldl_cons, List.foldl_nil]

theorem memAfter_append (init : κ → ω) (h h' : List (κ × ω)) :
    memAfter init (h ++ h') = memAfter (memAfter init h) h' := by
  simp only [memAfter, List.foldl_append]

theorem memAfter_of_untouched {init : κ → ω} {h : List (κ × ω)} {k : κ} (hk : Untouched k h) :
    memAfter init h k = init k := by
  induction h generalizing init with
  | nil => rfl
  | cons e h ih =>
      have hrest : Untouched k h := fun e' he' => hk e' (List.mem_cons_of_mem e he')
      have hne : k ≠ e.1 := fun heq => hk e List.mem_cons_self heq.symm
      exact (ih hrest).trans (Function.update_of_ne hne _ _)

/-- **The last write of a cell is its value.** -/
theorem memAfter_of_last {init : κ → ω} {pre post : List (κ × ω)} {k : κ} {v : ω}
    (hk : Untouched k post) : memAfter init (pre ++ (k, v) :: post) k = v := by
  have hsplit : pre ++ (k, v) :: post = (pre ++ [(k, v)]) ++ post := by simp
  rw [hsplit, memAfter_append, memAfter_of_untouched hk, memAfter_concat]
  exact Function.update_self _ _ _

/-- **Where a cell's value comes from**: it is the initial one, or that of its last write. -/
theorem memAfter_cases (init : κ → ω) (h : List (κ × ω)) (k : κ) :
    (memAfter init h k = init k ∧ Untouched k h) ∨
    ∃ pre post, h = pre ++ (k, memAfter init h k) :: post ∧ Untouched k post := by
  induction h using List.reverseRecOn with
  | nil => exact .inl ⟨rfl, fun e he => absurd he List.not_mem_nil⟩
  | append_singleton h e ih =>
      rw [memAfter_concat]
      by_cases hk : k = e.1
      · -- the newest write is to this cell
        subst hk
        rw [Function.update_self]
        exact .inr ⟨h, [], rfl, fun e he => absurd he List.not_mem_nil⟩
      · rw [Function.update_of_ne hk]
        have hone : ∀ {h' : List (κ × ω)}, Untouched k h' → Untouched k (h' ++ [e]) := by
          intro h' hh e' he'
          rcases List.mem_append.mp he' with he' | he'
          · exact hh e' he'
          · exact List.mem_singleton.mp he' ▸ fun heq => hk heq.symm
        rcases ih with ⟨hv, hu⟩ | ⟨pre, post, hsplit, hu⟩
        · exact .inl ⟨hv, hone hu⟩
        · refine .inr ⟨pre, post ++ [e], ?_, hone hu⟩
          nth_rewrite 1 [hsplit]
          simp

/-- Writes that agree on a cell, one of which is to it. -/
theorem memAfter_of_agree {init : κ → ω} {h : List (κ × ω)} {k : κ} {v : ω}
    (hmem : (k, v) ∈ h) (hagree : ∀ e ∈ h, e.1 = k → e.2 = v) : memAfter init h k = v := by
  rcases memAfter_cases init h k with ⟨-, huntouched⟩ | ⟨pre, post, hsplit, -⟩
  · exact absurd rfl (huntouched _ hmem)
  · have hlast : (k, memAfter init h k) ∈ pre ++ (k, memAfter init h k) :: post :=
      List.mem_append_right pre List.mem_cons_self
    rw [← hsplit] at hlast
    exact hagree _ hlast rfl

end LastWrite
