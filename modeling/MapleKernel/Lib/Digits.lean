/-
  File:      Lib/Digits.lean
  Subject:   A FIXED NUMBER OF DIGITS of a number.

  `lowDigits b m n` are the `m` lowest digits of `n` in base `b`, lowest first. They are the
  digits of `n` and zeros above them (`lowDigits_eq_append`), so a text without the leading
  zeros is the text of the digits (`dropWhile_lowDigits`).
-/
import Mathlib

namespace Digits

/-- The `m` lowest digits of `n` in base `b`, lowest first. -/
def lowDigits (b m n : Nat) : List Nat := (List.range m).map fun i => n / b ^ i % b

@[simp] theorem lowDigits_length (b m n : Nat) : (lowDigits b m n).length = m := by
  simp [lowDigits]

theorem lowDigits_succ (b m n : Nat) :
    lowDigits b (m + 1) n = n % b :: lowDigits b m (n / b) := by
  rw [lowDigits, List.range_succ_eq_map, List.map_cons, List.map_map]
  congr 1
  · rw [Nat.pow_zero, Nat.div_one]
  · refine List.map_congr_left fun i _ => ?_
    rw [Function.comp_apply, Nat.pow_succ', Nat.div_div_eq_div_mul]

theorem lowDigits_lt {b m n d : Nat} (hb : 0 < b) (h : d ∈ lowDigits b m n) : d < b := by
  obtain ⟨i, -, rfl⟩ := List.mem_map.mp h
  exact Nat.mod_lt _ hb

/-- The digits of a number that fits, and zeros above them. -/
theorem lowDigits_eq_append {b m n : Nat} (hb : 1 < b) (h : n < b ^ m) :
    lowDigits b m n
      = Nat.digits b n ++ List.replicate (m - (Nat.digits b n).length) 0 := by
  induction m generalizing n with
  | zero =>
      have hn : n = 0 := by simpa using h
      simp [hn, lowDigits]
  | succ m ih =>
      have hq : n / b < b ^ m := Nat.div_lt_of_lt_mul (by rw [← Nat.pow_succ']; exact h)
      rw [lowDigits_succ, ih hq]
      by_cases hn : n = 0
      · subst hn
        simp [List.replicate_succ]
      · rw [Nat.digits_def' hb (Nat.pos_of_ne_zero hn), List.length_cons, List.cons_append,
          Nat.add_sub_add_right]

/-- Highest digit first and without the leading zeros: the digits of the number. -/
theorem dropWhile_lowDigits {b m n : Nat} (hb : 1 < b) (h : n < b ^ m) :
    (lowDigits b m n).reverse.dropWhile (· = 0) = (Nat.digits b n).reverse := by
  rw [lowDigits_eq_append hb h, List.reverse_append, List.reverse_replicate,
    List.dropWhile_append_of_pos (by simp)]
  by_cases hn : n = 0
  · subst hn
    simp
  have hne : Nat.digits b n ≠ [] := Nat.digits_ne_nil_iff_ne_zero.mpr hn
  obtain ⟨top, rest, hds⟩ := List.exists_cons_of_ne_nil (List.reverse_ne_nil_iff.mpr hne)
  have htop : top ≠ 0 := by
    have hlast := Nat.getLast_digit_ne_zero b hn
    rw [← List.head_reverse (by simpa using hne)] at hlast
    simpa [hds] using hlast
  rw [hds, List.dropWhile_cons_of_neg (by simpa using htop)]

/-- The lowest digits, and the ones above them. -/
theorem lowDigits_add (b w k n : Nat) :
    lowDigits b (w + k) n = lowDigits b w n ++ lowDigits b k (n / b ^ w) := by
  rw [lowDigits, List.range_add, List.map_append, List.map_map]
  congr 1
  refine List.map_congr_left fun i _ => ?_
  rw [Function.comp_apply, Nat.pow_add, Nat.div_div_eq_div_mul]

/-- Reading them back gives the number, as far as it fits. -/
theorem ofDigits_lowDigits (b m n : Nat) : Nat.ofDigits b (lowDigits b m n) = n % b ^ m := by
  induction m generalizing n with
  | zero => simp [lowDigits, Nat.mod_one]
  | succ m ih =>
      rw [lowDigits_succ, Nat.ofDigits_cons, ih, Nat.pow_succ', Nat.mod_mul]

end Digits
