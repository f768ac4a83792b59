/-
  File:      Lib/Loop.lean
  Subject:   COUNTING LOOPS, and the loops that fill a grid.

  `forRange n body s` is `for (i = 0; i < n; i++) body` on a state. `forRange_inv` is its
  invariant rule. `forGrid_fill` is the closed form of the nested loop that assigns every cell of
  an `h × w` window of a grid, whatever state the grid is a part of.
-/
import Mathlib

namespace Loops

variable {σ α : Type*}

/-- `for (i = 0; i < n; i++) body`. -/
def forRange (n : Nat) (body : Nat → σ → σ) (s : σ) : σ :=
  (List.range n).foldl (fun s i => body i s) s

@[simp] theorem forRange_zero (body : Nat → σ → σ) (s : σ) : forRange 0 body s = s := rfl

theorem forRange_succ (n : Nat) (body : Nat → σ → σ) (s : σ) :
    forRange (n + 1) body s = body n (forRange n body s) := by
  simp only [forRange, List.range_succ, List.foldl_append, List.foldl_cons, List.foldl_nil]

/-- **The invariant rule of a counting loop.** -/
theorem forRange_inv {P : Nat → σ → Prop} {f : Nat → σ → σ} {s : σ} (n : Nat) (h0 : P 0 s)
    (hstep : ∀ i s, i < n → P i s → P (i + 1) (f i s)) : P n (forRange n f s) := by
  induction n with
  | zero => exact h0
  | succ n ih =>
      rw [forRange_succ]
      exact hstep n _ (Nat.lt_succ_self n) (ih fun i s hi => hstep i s (by omega))

theorem forRange_congr {f g : Nat → σ → σ} {n : Nat} (h : ∀ i, i < n → f i = g i) (s : σ) :
    forRange n f s = forRange n g s := by
  induction n with
  | zero => rfl
  | succ n ih =>
      rw [forRange_succ, forRange_succ, ih fun i hi => h i (Nat.lt_succ_of_lt hi),
        h n (Nat.lt_succ_self n)]

theorem forRange_const_eq_foldl (f : α → σ → σ) (a : α) (n : Nat) (s : σ) :
    forRange n (fun _ => f a) s = (List.replicate n a).foldl (fun s b => f b s) s := by
  induction n with
  | zero => rfl
  | succ n ih =>
      rw [forRange_succ, ih, List.replicate_succ', List.foldl_append, List.foldl_cons,
        List.foldl_nil]

/-! ## Grids -/

/-- A grid with one cell assigned. -/
def put (g : Nat → Nat → α) (y x : Nat) (v : α) : Nat → Nat → α :=
  fun y' x' => if y' = y ∧ x' = x then v else g y' x'

theorem put_self (g : Nat → Nat → α) (y x : Nat) (v : α) : put g y x v y x = v :=
  if_pos ⟨rfl, rfl⟩

theorem put_of_ne {g : Nat → Nat → α} {y x y' x' : Nat} {v : α} (h : ¬ (y' = y ∧ x' = x)) :
    put g y x v y' x' = g y' x' := if_neg h

section Fill

variable (wrap : (Nat → Nat → α) → σ) (val : Nat → Nat → α) (body : Nat → Nat → σ → σ) {h w : Nat}

/-- One row, filled cell by cell. -/
theorem forRange_fillRow {y : Nat}
    (hbody : ∀ x g, x < w → body y x (wrap g) = wrap (put g y x (val y x))) (g : Nat → Nat → α) :
    forRange w (body y) (wrap g)
      = wrap fun y' x' => if y' = y ∧ x' < w then val y' x' else g y' x' := by
  refine forRange_inv (P := fun k s =>
    s = wrap fun y' x' => if y' = y ∧ x' < k then val y' x' else g y' x') w (by simp) ?_
  intro k s hk hs
  subst hs
  rw [hbody k _ hk]
  congr 1
  funext y' x'
  by_cases hy : y' = y
  · subst hy
    by_cases hx : x' = k
    · subst hx; simp [put]
    · have : x' < k + 1 ↔ x' < k := by omega
      simp [put, hx, this]
  · simp [put, hy]

/-- **The nested loop that assigns every cell of a window**: afterwards the window holds `val`,
    and every other cell is as it was. -/
theorem forGrid_fill
    (hbody : ∀ y x g, y < h → x < w → body y x (wrap g) = wrap (put g y x (val y x)))
    (g : Nat → Nat → α) :
    forRange h (fun y => forRange w (body y)) (wrap g)
      = wrap fun y x => if y < h ∧ x < w then val y x else g y x := by
  refine forRange_inv (P := fun k s =>
    s = wrap fun y x => if y < k ∧ x < w then val y x else g y x) h (by simp) ?_
  intro k s hk hs
  subst hs
  rw [forRange_fillRow wrap val body fun x g hx => hbody k x g hk hx]
  congr 1
  funext y x
  by_cases hy : y = k
  · subst hy; by_cases hx : x < w <;> simp [hx]
  · have : y < k + 1 ↔ y < k := by omega
    simp [hy, this]

end Fill

end Loops
