/-
  File:      Lib/GridLine.lean
  Subject:   LINES ON A GRID drawn with one error term.

  A walk from the origin to `(dx, dy)`, with `dx` and `dy` not negative, steps right, up or both.
  Which of them it does is decided by its deviation from the exact line, `dx * up - dy * right`,
  alone.

  * `next` -- one step; mirrored at the diagonal it is the step of the mirrored line
    (`next_swap`), so only the flat lines are looked at.
  * `Flat.step` -- on a flat line every step goes right, and the deviation stays within one half
    of `dx`.
  * `walk_eq` -- the points of the walk in closed form: rounded to the nearest, down from halves.
  * `walk_near`, `walk_eq_end_iff` -- the walk counts its steps in the longer direction, stays in
    the rectangle and within one half of the line, and is at `(dx, dy)` after `max dx dy` steps
    and not before.
-/
import Mathlib

namespace GridLine

@[ext] structure Point where
  right : Int
  up : Int
  deriving DecidableEq, Repr

def Point.origin : Point := ⟨0, 0⟩

def Point.swap (p : Point) : Point := ⟨p.up, p.right⟩

section Walk

variable (dx dy : Int)

/-- How far `p` is above the line, times `dx`. -/
def deviation (p : Point) : Int := dx * p.up - dy * p.right

def StepsRight (p : Point) : Prop := dy - 2 * dx < 2 * deviation dx dy p

def StepsUp (p : Point) : Prop := 2 * deviation dx dy p < 2 * dy - dx

instance (p : Point) : Decidable (StepsRight dx dy p) := inferInstanceAs (Decidable (_ < _))

instance (p : Point) : Decidable (StepsUp dx dy p) := inferInstanceAs (Decidable (_ < _))

def next (p : Point) : Point where
  right := if StepsRight dx dy p then p.right + 1 else p.right
  up := if StepsUp dx dy p then p.up + 1 else p.up

/-- The point after `i` steps from the origin. -/
def walk (i : Nat) : Point := (next dx dy)^[i] .origin

variable {dx dy}

theorem walk_succ (i : Nat) : walk dx dy (i + 1) = next dx dy (walk dx dy i) :=
  Function.iterate_succ_apply' _ _ _

/-! ## The mirrored line -/

theorem deviation_swap (p : Point) : deviation dy dx p.swap = -deviation dx dy p := by
  unfold deviation Point.swap
  ring

theorem stepsRight_swap (p : Point) : StepsRight dy dx p.swap ↔ StepsUp dx dy p := by
  unfold StepsRight StepsUp
  rw [deviation_swap]
  omega

theorem stepsUp_swap (p : Point) : StepsUp dy dx p.swap ↔ StepsRight dx dy p := by
  unfold StepsRight StepsUp
  rw [deviation_swap]
  omega

theorem next_swap (p : Point) : next dy dx p.swap = (next dx dy p).swap := by
  ext
  · exact if_congr (stepsRight_swap p) rfl rfl
  · exact if_congr (stepsUp_swap p) rfl rfl

theorem walk_swap (i : Nat) : walk dy dx i = (walk dx dy i).swap := by
  induction i with
  | zero => rfl
  | succ i ih => rw [walk_succ, walk_succ, ih, next_swap]

/-! ## Flat lines -/

/-- The invariant of a flat line after `i` steps: the deviation is less than one half of `dx`
    above, and low enough below for the next step to go right. -/
structure Flat (dx dy : Int) (i : Nat) (p : Point) : Prop where
  right : p.right = i
  low : -dx ≤ 2 * deviation dx dy p
  high : 2 * deviation dx dy p < dx
  stepsRight : StepsRight dx dy p

theorem flat_origin (h : dy ≤ dx) (hpos : 0 < dx) : Flat dx dy 0 .origin := by
  have hdev : deviation dx dy .origin = 0 := by simp [deviation, Point.origin]
  refine ⟨rfl, ?_, ?_, ?_⟩
  · omega
  · omega
  · unfold StepsRight
    omega

/-- What a step does to the deviation. -/
theorem deviation_next (p : Point) : deviation dx dy (next dx dy p) = deviation dx dy p
    + (if StepsUp dx dy p then dx else 0) - (if StepsRight dx dy p then dy else 0) := by
  by_cases hu : StepsUp dx dy p <;> by_cases hr : StepsRight dx dy p <;>
    simp only [next, deviation, hu, hr, if_true, if_false] <;> ring

theorem Flat.step {i : Nat} {p : Point} (h : Flat dx dy i p) (h0 : 0 ≤ dy) (hle : dy ≤ dx) :
    Flat dx dy (i + 1) (next dx dy p) := by
  have hdev := @deviation_next dx dy p
  have hlow := h.low
  have hhigh := h.high
  have hright := h.stepsRight
  rw [if_pos hright] at hdev
  have hcount : (next dx dy p).right = (i + 1 : Nat) := by
    simp only [next, if_pos hright, h.right]
    push_cast
    rfl
  unfold StepsRight at hright
  by_cases hu : StepsUp dx dy p
  · rw [if_pos hu] at hdev
    unfold StepsUp at hu
    exact ⟨hcount, by omega, by omega, by unfold StepsRight; omega⟩
  · rw [if_neg hu] at hdev
    unfold StepsUp at hu
    exact ⟨hcount, by omega, by omega, by unfold StepsRight; omega⟩

theorem walk_flat (h0 : 0 ≤ dy) (hle : dy ≤ dx) (hpos : 0 < dx) (i : Nat) :
    Flat dx dy i (walk dx dy i) := by
  induction i with
  | zero => exact flat_origin hle hpos
  | succ i ih => rw [walk_succ]; exact ih.step h0 hle

/-! ## Every line -/

/-- Where a drawing of the line is after `i` steps. -/
structure Near (dx dy : Int) (i : Nat) (p : Point) : Prop where
  right_longer : dy ≤ dx → p.right = i
  up_longer : dx ≤ dy → p.up = i
  right_range : 0 ≤ p.right ∧ p.right ≤ dx
  up_range : 0 ≤ p.up ∧ p.up ≤ dy
  close : |2 * deviation dx dy p| ≤ max dx dy

theorem Near.swap {i : Nat} {p : Point} (h : Near dx dy i p) : Near dy dx i p.swap where
  right_longer := h.up_longer
  up_longer := h.right_longer
  right_range := h.up_range
  up_range := h.right_range
  close := by
    rw [deviation_swap, mul_neg, abs_neg, max_comm]
    exact h.close

/-- A deviation of at most one half of `dx` keeps `up` between 0 and `dy`. -/
theorem Flat.up_range {i : Nat} {p : Point} (h : Flat dx dy i p) (h0 : 0 ≤ dy) (hpos : 0 < dx)
    (hi : (i : Int) ≤ dx) : 0 ≤ p.up ∧ p.up ≤ dy := by
  have hlow := h.low
  have hhigh := h.high
  have hright := h.right
  unfold deviation at hlow hhigh
  rw [hright] at hlow hhigh
  have hnonneg : 0 ≤ dy * (i : Int) := Int.mul_nonneg h0 (Int.natCast_nonneg i)
  have hbound : dy * (i : Int) ≤ dy * dx := Int.mul_le_mul_of_nonneg_left hi h0
  constructor
  · by_contra hneg
    have hm : dx * p.up ≤ dx * (-1) := Int.mul_le_mul_of_nonneg_left (by omega) (by omega)
    omega
  · by_contra hbig
    have hm : dx * (dy + 1) ≤ dx * p.up := Int.mul_le_mul_of_nonneg_left (by omega) (by omega)
    have hring : dx * (dy + 1) = dy * dx + dx := by ring
    omega

/-- On a diagonal the deviation is a multiple of `dx`. -/
theorem Flat.up_eq {i : Nat} {p : Point} (h : Flat dx dx i p) (hpos : 0 < dx) : p.up = i := by
  have hlow := h.low
  have hhigh := h.high
  have hdev : deviation dx dx p = dx * (p.up - i) := by
    unfold deviation
    rw [h.right]
    ring
  rw [hdev] at hlow hhigh
  by_contra hne
  rcases Int.lt_or_gt_of_ne hne with hlt | hgt
  · have hm : dx * (p.up - i) ≤ dx * (-1) := Int.mul_le_mul_of_nonneg_left (by omega) (by omega)
    omega
  · have hm : dx * 1 ≤ dx * (p.up - i) := Int.mul_le_mul_of_nonneg_left (by omega) (by omega)
    omega

theorem walk_near_flat (h0 : 0 ≤ dy) (hle : dy ≤ dx) {i : Nat} (hi : (i : Int) ≤ dx) :
    Near dx dy i (walk dx dy i) := by
  rcases Int.lt_or_eq_of_le (Int.le_trans h0 hle) with hpos | hzero
  · have hflat := walk_flat h0 hle hpos i
    have hright := hflat.right
    have hlow := hflat.low
    have hhigh := hflat.high
    refine ⟨fun _ => hright, fun hge => ?_, ⟨by omega, by omega⟩, hflat.up_range h0 hpos hi, ?_⟩
    · obtain rfl : dy = dx := Int.le_antisymm hle hge
      exact hflat.up_eq hpos
    · rw [max_eq_left hle, abs_le]
      omega
  · -- a single point
    obtain rfl : i = 0 := by omega
    obtain rfl : dx = 0 := hzero.symm
    obtain rfl : dy = 0 := Int.le_antisymm hle h0
    exact ⟨fun _ => rfl, fun _ => rfl, by decide, by decide, by decide⟩

/-- **Where the walk is**, on every line. -/
theorem walk_near (hx : 0 ≤ dx) (hy : 0 ≤ dy) {i : Nat} (hi : (i : Int) ≤ max dx dy) :
    Near dx dy i (walk dx dy i) := by
  rcases Int.le_total dy dx with hle | hle
  · exact walk_near_flat hy hle (by rwa [max_eq_left hle] at hi)
  · rw [walk_swap]
    exact (walk_near_flat hx hle (by rwa [max_eq_right hle] at hi)).swap

/-- At the end of a flat line the deviation leaves no other point. -/
theorem Near.up_eq_end {i : Nat} {p : Point} (h : Near dx dy i p) (hle : dy ≤ dx)
    (hi : (i : Int) = dx) : p.up = dy := by
  have hclose := abs_le.mp h.close
  rw [max_eq_left hle] at hclose
  have hdev : deviation dx dy p = dx * (p.up - dy) := by
    unfold deviation
    rw [h.right_longer hle, hi]
    ring
  rw [hdev] at hclose
  have hrange := h.up_range
  by_contra hne
  have hm : dx * (p.up - dy) ≤ dx * (-1) := Int.mul_le_mul_of_nonneg_left (by omega) (by omega)
  omega

/-- **When the walk is at its end**: after `max dx dy` steps and not before. -/
theorem walk_eq_end_iff (hx : 0 ≤ dx) (hy : 0 ≤ dy) {i : Nat} (hi : (i : Int) ≤ max dx dy) :
    ((walk dx dy i).right = dx ∧ (walk dx dy i).up = dy) ↔ (i : Int) = max dx dy := by
  have hnear := walk_near hx hy hi
  rcases Int.le_total dy dx with hle | hle
  · have hright := hnear.right_longer hle
    rw [max_eq_left hle, hright]
    exact ⟨fun h => h.1, fun h => ⟨h, hnear.up_eq_end hle h⟩⟩
  · have hup := hnear.up_longer hle
    rw [max_eq_right hle, hup]
    exact ⟨fun h => h.2, fun h => ⟨hnear.swap.up_eq_end hle h, h⟩⟩

/-- The deviation as a distance on the shorter axis. -/
theorem Near.up_close {i : Nat} {p : Point} (h : Near dx dy i p) (hy : 0 ≤ dy) (hle : dy ≤ dx) :
    |(p.up : ℚ) - p.right * (dy / dx)| ≤ 1 / 2 := by
  rcases Int.lt_or_eq_of_le (Int.le_trans hy hle) with hpos | hzero
  · have hpos' : (0 : ℚ) < dx := Int.cast_pos.mpr hpos
    have hclose : |2 * (dx * p.up - dy * p.right : ℚ)| ≤ dx := by
      have hc := h.close
      rw [max_eq_left hle] at hc
      exact_mod_cast hc
    have hfrac : (p.up : ℚ) - p.right * (dy / dx) = (dx * p.up - dy * p.right) / dx := by
      field_simp
    rw [hfrac, abs_div, abs_of_pos hpos', div_le_iff₀ hpos']
    rw [abs_mul, abs_two] at hclose
    linarith
  · have hup := h.up_range
    have hright := h.right_range
    have hup0 : p.up = 0 := by omega
    have hright0 : p.right = 0 := by omega
    rw [hup0, hright0]
    norm_num

/-! ## The points of a line -/

/-- How high a flat line is over `i`: the nearest number, and the lower one of two. -/
def rise (dx dy i : Int) : Int := (2 * dy * i + dx - 1) / (2 * dx)

theorem Flat.up_eq_rise {i : Nat} {p : Point} (h : Flat dx dy i p) (hpos : 0 < dx) :
    p.up = rise dx dy i := by
  have hlow := h.low
  have hhigh := h.high
  unfold deviation at hlow hhigh
  rw [h.right] at hlow hhigh
  have hassoc : 2 * dy * (i : Int) = 2 * (dy * i) := by ring
  have hup : 2 * (dx * p.up) = p.up * (2 * dx) := by ring
  unfold rise
  symm
  rw [Int.ediv_eq_iff_of_pos (by omega), hassoc]
  constructor
  · omega
  · omega

theorem walk_eq_rise (h0 : 0 ≤ dy) (hle : dy ≤ dx) {i : Nat} (hi : (i : Int) ≤ dx) :
    walk dx dy i = ⟨i, rise dx dy i⟩ := by
  rcases Int.lt_or_eq_of_le (Int.le_trans h0 hle) with hpos | hzero
  · have hflat := walk_flat h0 hle hpos i
    ext
    · exact hflat.right
    · exact hflat.up_eq_rise hpos
  · -- a single point
    obtain rfl : i = 0 := by omega
    obtain rfl : dx = 0 := hzero.symm
    simp [walk, Point.origin, rise]

/-- **Every point of the walk**, on every line. -/
theorem walk_eq (hx : 0 ≤ dx) (hy : 0 ≤ dy) {i : Nat} (hi : (i : Int) ≤ max dx dy) :
    walk dx dy i = if dy ≤ dx then ⟨i, rise dx dy i⟩ else ⟨rise dy dx i, i⟩ := by
  by_cases hle : dy ≤ dx
  · rw [if_pos hle, walk_eq_rise hy hle (by omega)]
  · rw [if_neg hle, walk_swap, walk_eq_rise hx (by omega) (by omega)]
    rfl

end Walk

end GridLine
