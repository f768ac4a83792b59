/-
  File:      Lib/RowScan.lean
  Subject:   TWO NESTED LOOPS as the list of what their bodies see, and cells in rows.

  * `scan rows cols f` -- `for j < rows, for i < cols` on `f j i`; `mem_takeWhile_scan` is what
    is reached by a loop that stops at the first `f j i` that fails.
  * `cell_inj` -- rows of `pitch` cells: the cell of `(x, y)` is that of no other `x < pitch`.
-/
import Mathlib

namespace RowScan

variable {α : Type*}

/-! ## Cells -/

/-- The row of a cell. -/
theorem cell_div {pitch x y : Nat} (hx : x < pitch) : (y * pitch + x) / pitch = y := by
  rw [Nat.mul_comm, Nat.mul_add_div (by omega), Nat.div_eq_of_lt hx, Nat.add_zero]

theorem cell_inj {pitch x y x' y' : Nat} (hx : x < pitch) (hx' : x' < pitch)
    (h : y * pitch + x = y' * pitch + x') : x = x' ∧ y = y' := by
  have hmod := congrArg (· % pitch) h
  have hdiv := congrArg (· / pitch) h
  simp only [Nat.mul_add_mod_of_lt hx, Nat.mul_add_mod_of_lt hx'] at hmod
  simp only [cell_div hx, cell_div hx'] at hdiv
  exact ⟨hmod, hdiv⟩

/-! ## Loops -/

/-- What two nested loops see, in their order. -/
def scan (rows cols : Nat) (f : Nat → Nat → α) : List α :=
  (List.range rows).flatMap fun j => (List.range cols).map (f j)

@[simp] theorem mem_scan {rows cols : Nat} {f : Nat → Nat → α} {a : α} :
    a ∈ scan rows cols f ↔ ∃ j i, j < rows ∧ i < cols ∧ a = f j i := by
  simp only [scan, List.mem_flatMap, List.mem_map, List.mem_range]
  constructor
  · rintro ⟨j, hj, i, hi, rfl⟩
    exact ⟨j, i, hj, hi, rfl⟩
  · rintro ⟨j, i, hj, hi, rfl⟩
    exact ⟨j, hj, i, hi, rfl⟩

/-- The loops as one. -/
theorem scan_eq_map_range (rows cols : Nat) (f : Nat → Nat → α) :
    scan rows cols f = (List.range (rows * cols)).map fun k => f (k / cols) (k % cols) := by
  induction rows with
  | zero => simp [scan]
  | succ rows ih =>
      have hlast : (List.range cols).map (f rows)
          = ((List.range cols).map (rows * cols + ·)).map fun k => f (k / cols) (k % cols) := by
        rw [List.map_map]
        refine List.map_congr_left fun i hi => ?_
        have hi' : i < cols := List.mem_range.mp hi
        simp only [Function.comp_apply, cell_div hi', Nat.mul_add_mod_of_lt hi']
      have hsplit : scan (rows + 1) cols f =
          scan rows cols f ++ (List.range cols).map (f rows) := by
        simp [scan, List.range_succ]
      rw [hsplit, ih, hlast, Nat.succ_mul, List.range_add, List.map_append]

/-- What one loop reaches. -/
theorem mem_takeWhile_range {n k : Nat} {p : Nat → Bool} :
    k ∈ (List.range n).takeWhile p ↔ k < n ∧ ∀ k' ≤ k, p k' = true := by
  rw [List.takeWhile_eq_take_findIdx_not, List.take_range, List.mem_range, Nat.lt_min, and_comm,
    List.lt_findIdx_iff]
  simp only [List.length_range, List.getElem_range, Bool.not_eq_eq_eq_not, Bool.not_false]
  constructor
  · rintro ⟨hk, -, hp⟩
    exact ⟨hk, hp⟩
  · rintro ⟨hk, hp⟩
    exact ⟨hk, hk, hp⟩

/-- **What the loops reach**: everything before it in the order of the loops passes as well. -/
theorem mem_takeWhile_scan {rows cols : Nat} {f : Nat → Nat → α} {p : α → Bool} {a : α} :
    a ∈ (scan rows cols f).takeWhile p ↔ ∃ j i, j < rows ∧ i < cols ∧ a = f j i ∧
      ∀ j' i', i' < cols → (j' < j ∨ j' = j ∧ i' ≤ i) → p (f j' i') = true := by
  rw [scan_eq_map_range, List.takeWhile_map, List.mem_map]
  simp only [mem_takeWhile_range, Function.comp_apply]
  constructor
  · rintro ⟨k, ⟨hk, hp⟩, rfl⟩
    have hcols : 0 < cols := Nat.pos_of_mul_pos_left (Nat.lt_of_le_of_lt (Nat.zero_le k) hk)
    have hk' := Nat.div_add_mod k cols
    refine ⟨k / cols, k % cols, Nat.div_lt_of_lt_mul (by rwa [Nat.mul_comm]),
      Nat.mod_lt k hcols, rfl, fun j i hi hbefore => ?_⟩
    have hle : j * cols + i ≤ k := by
      rcases hbefore with hj | ⟨rfl, hle⟩
      · have hmul : (j + 1) * cols ≤ k / cols * cols := Nat.mul_le_mul_right cols hj
        rw [Nat.add_mul, Nat.one_mul] at hmul
        rw [Nat.mul_comm cols] at hk'
        omega
      · rw [Nat.mul_comm cols] at hk'
        omega
    have hpass := hp (j * cols + i) hle
    rw [cell_div hi, Nat.mul_add_mod_of_lt hi] at hpass
    exact hpass
  · rintro ⟨j, i, hj, hi, rfl, hp⟩
    refine ⟨j * cols + i, ⟨?_, fun k hk => ?_⟩, ?_⟩
    · have hmul : (j + 1) * cols ≤ rows * cols := Nat.mul_le_mul_right cols hj
      rw [Nat.add_mul, Nat.one_mul] at hmul
      omega
    · have hcols : 0 < cols := by omega
      refine hp _ _ (Nat.mod_lt k hcols) ?_
      have hdiv : k / cols ≤ j := by
        have hle := Nat.div_le_div_right (c := cols) hk
        rwa [cell_div hi] at hle
      rcases Nat.lt_or_eq_of_le hdiv with hlt | heq
      · exact Or.inl hlt
      · have hk' := Nat.div_add_mod k cols
        rw [heq, Nat.mul_comm] at hk'
        exact Or.inr ⟨heq, by omega⟩
    · rw [cell_div hi, Nat.mul_add_mod_of_lt hi]

end RowScan
