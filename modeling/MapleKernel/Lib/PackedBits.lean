/-
  File:      Lib/PackedBits.lean
  Subject:   SETS OF NUMBERS PACKED EIGHT TO A BYTE, and the first-fit search in them.

  * `test`, `set`, `clear` -- the byte and bit arithmetic of a bitmap. `test_set`, `test_clear`
    and their loops `test_setRange`, `test_clearRange` say what they do to the set.
  * `scan` -- one pass over a sequence of used and free places for a run of `n` free ones, with
    the start and the length of the current run as its only memory. `scan_some` and `scan_none`:
    it finds the lowest such run, and finds none only when there is none.
-/
import MapleKernel.Lib.Loop

namespace PackedBits

open Loops

/-! ## 1. Bits -/

abbrev Bytes := Nat → BitVec 8

def test (b : Bytes) (i : Nat) : Bool := (b (i / 8) &&& (1#8 <<< (i % 8))) != 0#8

def set (i : Nat) (b : Bytes) : Bytes :=
  fun k => if k = i / 8 then b k ||| (1#8 <<< (i % 8)) else b k

def clear (i : Nat) (b : Bytes) : Bytes :=
  fun k => if k = i / 8 then b k &&& ~~~(1#8 <<< (i % 8)) else b k

theorem test_eq_getLsbD (b : Bytes) (i : Nat) : test b i = (b (i / 8)).getLsbD (i % 8) := by
  have hi : i % 8 < 8 := Nat.mod_lt i (by decide)
  have hne : BitVec.twoPow 8 (i % 8) ≠ 0#8 := by
    intro h
    have hbit := congrArg (fun x => BitVec.getLsbD x (i % 8)) h
    simp [hi] at hbit
  rw [test, ← BitVec.twoPow_eq, BitVec.and_twoPow]
  cases (b (i / 8)).getLsbD (i % 8) with
  | true => simpa using hne
  | false => rfl

/-- The mask of place `i` has, in `i`'s byte, the bit of place `j` exactly if `j` is `i`. -/
theorem getLsbD_mask {i j : Nat} (h : j / 8 = i / 8) :
    (1#8 <<< (i % 8)).getLsbD (j % 8) = decide (j = i) := by
  have hi : i % 8 < 8 := Nat.mod_lt i (by decide)
  have hij : i % 8 = j % 8 ↔ j = i := by omega
  rw [← BitVec.twoPow_eq, BitVec.getLsbD_twoPow]
  simp [hi, hij]

theorem test_set (b : Bytes) (i j : Nat) : test (set i b) j = (decide (j = i) || test b j) := by
  rw [test_eq_getLsbD, test_eq_getLsbD, set]
  by_cases h : j / 8 = i / 8
  · rw [if_pos h, BitVec.getLsbD_or, getLsbD_mask h, Bool.or_comm]
  · have hne : j ≠ i := fun e => h (e ▸ rfl)
    rw [if_neg h]
    simp [hne]

theorem test_clear (b : Bytes) (i j : Nat) :
    test (clear i b) j = (!decide (j = i) && test b j) := by
  have hj : j % 8 < 8 := Nat.mod_lt j (by decide)
  rw [test_eq_getLsbD, test_eq_getLsbD, clear]
  by_cases h : j / 8 = i / 8
  · rw [if_pos h, BitVec.getLsbD_and, BitVec.getLsbD_not, getLsbD_mask h, Bool.and_comm]
    simp [hj]
  · have hne : j ≠ i := fun e => h (e ▸ rfl)
    rw [if_neg h]
    simp [hne]

theorem test_setRange (b : Bytes) (start n i : Nat) :
    test (forRange n (fun j => set (start + j)) b) i
      = (decide (start ≤ i ∧ i < start + n) || test b i) := by
  induction n with
  | zero =>
      have hnone : ¬ (start ≤ i ∧ i < start + 0) := by omega
      rw [decide_eq_false hnone]
      rfl
  | succ n ih =>
      have hsplit : (start ≤ i ∧ i < start + (n + 1)) ↔
          i = start + n ∨ (start ≤ i ∧ i < start + n) := by omega
      rw [forRange_succ, test_set, ih, ← Bool.or_assoc, ← Bool.decide_or]
      simp only [hsplit]

theorem test_clearRange (b : Bytes) (start n i : Nat) :
    test (forRange n (fun j => clear (start + j)) b) i
      = (!decide (start ≤ i ∧ i < start + n) && test b i) := by
  induction n with
  | zero =>
      have hnone : ¬ (start ≤ i ∧ i < start + 0) := by omega
      rw [decide_eq_false hnone]
      rfl
  | succ n ih =>
      have hsplit : (start ≤ i ∧ i < start + (n + 1)) ↔
          i = start + n ∨ (start ≤ i ∧ i < start + n) := by omega
      rw [forRange_succ, test_clear, ih, ← Bool.and_assoc, ← Bool.not_or, ← Bool.decide_or]
      simp only [hsplit]

/-! ## 2. First fit -/

section FirstFit

variable (used : Nat → Bool) (n : Nat)

/-- The pass from place `i` on, with `k` places to go; `start` is meaningful while `count > 0`. -/
def scan : Nat → Nat → Nat → Nat → Option Nat
  | 0, _, _, _ => none
  | k + 1, i, start, count =>
      if used i = false then
        let start := if count = 0 then i else start
        let count := count + 1
        if count = n then some start else scan k (i + 1) start count
      else scan k (i + 1) start 0

/-- The `n` places from `s` on are free. -/
def FreeRun (s : Nat) : Prop := ∀ j, j < n → used (s + j) = false

/-- What the pass knows at place `i`: the current run is free, cannot be extended to the left,
    is shorter than `n`, and no run of `n` lies wholly before `i`. -/
structure ScanInv (i start count : Nat) : Prop where
  count_lt : count < n
  count_le : count ≤ i
  start_eq : 0 < count → start = i - count
  free : ∀ j, i - count ≤ j → j < i → used j = false
  maximal : count < i → used (i - count - 1) = true
  none_before : ∀ s, s + n ≤ i → ¬ FreeRun used n s

variable {used n} {i start count : Nat}

theorem ScanInv.initial (used : Nat → Bool) (start : Nat) (hn : 0 < n) :
    ScanInv used n 0 start 0 where
  count_lt := hn
  count_le := Nat.le_refl 0
  start_eq := fun h => absurd h (Nat.lt_irrefl 0)
  free := fun j _ hj => absurd hj (Nat.not_lt_zero j)
  maximal := fun h => absurd h (Nat.lt_irrefl 0)
  none_before := fun s hs => by omega

theorem ScanInv.step_used (h : ScanInv used n i start count) (hu : used i = true) :
    ScanInv used n (i + 1) start 0 where
  count_lt := Nat.lt_of_le_of_lt (Nat.zero_le _) h.count_lt
  count_le := Nat.zero_le _
  start_eq := fun h0 => absurd h0 (Nat.lt_irrefl 0)
  free := fun j hj hj' => by omega
  maximal := fun _ => hu
  none_before := by
    intro s hs hfree
    rcases Nat.lt_or_ge i (s + n) with hlt | hle
    · have hn := h.count_lt
      have hlast := hfree (n - 1) (by omega)
      have e : s + (n - 1) = i := by omega
      rw [e, hu] at hlast
      cases hlast
    · exact h.none_before s hle hfree

/-- A run of `n` that ends at `i` is the current run, if that has `n - 1` places before `i`. -/
theorem ScanInv.run_at (h : ScanInv used n i start count) {s : Nat} (hs : s + n ≤ i + 1)
    (hfree : FreeRun used n s) : s + n = i + 1 ∧ count + 1 = n := by
  have hn := h.count_lt
  have hend : s + n = i + 1 := by
    by_contra hne
    exact h.none_before s (by omega) hfree
  refine ⟨hend, ?_⟩
  by_contra hne
  have hle := h.count_le
  have hused := h.maximal (by omega)
  have hf := hfree (i - count - 1 - s) (by omega)
  have e : s + (i - count - 1 - s) = i - count - 1 := by omega
  rw [e, hused] at hf
  cases hf

theorem ScanInv.step_free (h : ScanInv used n i start count) (hf : used i = false)
    (hne : count + 1 ≠ n) :
    ScanInv used n (i + 1) (if count = 0 then i else start) (count + 1) where
  count_lt := Nat.lt_of_le_of_ne h.count_lt hne
  count_le := Nat.succ_le_succ h.count_le
  start_eq := by
    intro _
    have hle := h.count_le
    split
    · omega
    · have := h.start_eq (by omega)
      omega
  free := by
    intro j hj hj'
    rcases Nat.lt_or_ge j i with hlt | hge
    · exact h.free j (by omega) hlt
    · have e : j = i := by omega
      rw [e]; exact hf
  maximal := by
    intro hlt
    have := h.maximal (by omega)
    have e : i + 1 - (count + 1) - 1 = i - count - 1 := by omega
    rw [e]; exact this
  none_before := fun s hs hfree => hne (h.run_at hs hfree).2

theorem ScanInv.found (h : ScanInv used n i start count) (hf : used i = false)
    (hn : count + 1 = n) :
    (if count = 0 then i else start) + n = i + 1 ∧
      FreeRun used n (if count = 0 then i else start) := by
  have hle := h.count_le
  have hend : (if count = 0 then i else start) + n = i + 1 := by
    split
    · omega
    · have := h.start_eq (by omega)
      omega
  refine ⟨hend, fun j hj => ?_⟩
  rcases Nat.lt_or_ge ((if count = 0 then i else start) + j) i with hlt | hge
  · exact h.free _ (by omega) hlt
  · have e : (if count = 0 then i else start) + j = i := by omega
    rw [e]; exact hf

/-- **The pass finds the lowest run.** -/
theorem scan_some {k s : Nat} (h : ScanInv used n i start count)
    (hs : scan used n k i start count = some s) :
    s + n ≤ i + k ∧ FreeRun used n s ∧ ∀ s', s' < s → ¬ FreeRun used n s' := by
  induction k generalizing i start count with
  | zero => cases hs
  | succ k ih =>
      rw [scan] at hs
      by_cases hf : used i = false
      · rw [if_pos hf] at hs
        by_cases hn : count + 1 = n
        · rw [if_pos hn] at hs
          obtain ⟨hend, hfree⟩ := h.found hf hn
          obtain rfl := Option.some.inj hs
          exact ⟨by omega, hfree, fun s' hs' => h.none_before s' (by omega)⟩
        · rw [if_neg hn] at hs
          have := ih (h.step_free hf hn) hs
          exact ⟨by omega, this.2⟩
      · rw [if_neg hf] at hs
        have := ih (h.step_used (Bool.of_not_eq_false hf)) hs
        exact ⟨by omega, this.2⟩

/-- **The pass finds nothing only when there is nothing.** -/
theorem scan_none {k : Nat} (h : ScanInv used n i start count)
    (hs : scan used n k i start count = none) : ∀ s, s + n ≤ i + k → ¬ FreeRun used n s := by
  induction k generalizing i start count with
  | zero => exact h.none_before
  | succ k ih =>
      rw [scan] at hs
      have e : i + (k + 1) = i + 1 + k := by omega
      rw [e]
      by_cases hf : used i = false
      · rw [if_pos hf] at hs
        by_cases hn : count + 1 = n
        · rw [if_pos hn] at hs
          cases hs
        · rw [if_neg hn] at hs
          exact ih (h.step_free hf hn) hs
      · rw [if_neg hf] at hs
        exact ih (h.step_used (Bool.of_not_eq_false hf)) hs

end FirstFit

/-- The pass for the first free place. -/
def scanOne (used : Nat → Bool) : Nat → Nat → Option Nat
  | 0, _ => none
  | k + 1, i => if used i = false then some i else scanOne used k (i + 1)

theorem scanOne_eq_scan (used : Nat → Bool) (k i start : Nat) :
    scanOne used k i = scan used 1 k i start 0 := by
  induction k generalizing i with
  | zero => rfl
  | succ k ih => rw [scanOne, scan, ih (i + 1)]; simp

attribute [irreducible] scan scanOne

end PackedBits
