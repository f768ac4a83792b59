/-
  File:      Lib/WordField.lean
  Subject:   BIT FIELDS OF A WORD, read with masks and shifts.

  C code reads a field of a machine word by masking and shifting. Over the value of the word the
  same reads are division and remainder by powers of two; the lemmas below say so for the four
  shapes that occur: the low bits, the high bits, a single bit, and a field in the middle.
  `and_split`: a word in two parts is masked part by part.
-/
import Mathlib

namespace WordField

/-- The low `k` bits: mask `2^k - 1`. -/
theorem toNat_and_low {w : Nat} (x : BitVec w) (k : Nat) (hk : k < w) :
    (x &&& BitVec.ofNat w (2 ^ k - 1)).toNat = x.toNat % 2 ^ k := by
  have hlt : 2 ^ k - 1 < 2 ^ w :=
    Nat.lt_of_le_of_lt (Nat.sub_le _ _) (Nat.pow_lt_pow_right (by decide) hk)
  rw [BitVec.toNat_and, BitVec.toNat_ofNat, Nat.mod_eq_of_lt hlt, Nat.and_two_pow_sub_one_eq_mod]

/-- All but the low `k` bits. -/
theorem toNat_and_high {w : Nat} (x : BitVec w) (k : Nat) :
    (x &&& ~~~BitVec.ofNat w (2 ^ k - 1)).toNat = x.toNat / 2 ^ k * 2 ^ k := by
  have hshift : x &&& ~~~BitVec.ofNat w (2 ^ k - 1) = (x >>> k) <<< k := by
    refine BitVec.eq_of_getLsbD_eq fun i hi => ?_
    have hmask : (BitVec.ofNat w (2 ^ k - 1)).getLsbD i = decide (i < k) := by
      rw [BitVec.getLsbD_ofNat, Nat.testBit_two_pow_sub_one]
      simp [hi]
    rw [BitVec.getLsbD_and, BitVec.getLsbD_not, hmask, BitVec.getLsbD_shiftLeft,
      BitVec.getLsbD_ushiftRight]
    by_cases h : i < k
    · simp [h]
    · have hback : k + (i - k) = i := by omega
      simp [h, hi, hback]
  have hlt : x.toNat / 2 ^ k * 2 ^ k < 2 ^ w :=
    Nat.lt_of_le_of_lt (Nat.div_mul_le_self _ _) x.isLt
  rw [hshift, BitVec.toNat_shiftLeft, BitVec.toNat_ushiftRight, Nat.shiftRight_eq_div_pow,
    Nat.shiftLeft_eq, Nat.mod_eq_of_lt hlt]

/-- A single bit: mask `2^k`. -/
theorem and_bit_eq_zero_iff {w : Nat} (x : BitVec w) (k : Nat) (hk : k < w) :
    x &&& BitVec.ofNat w (2 ^ k) = 0#w ↔ x.toNat / 2 ^ k % 2 = 0 := by
  have hlt : 2 ^ k < 2 ^ w := Nat.pow_lt_pow_right (by decide) hk
  rw [← BitVec.toNat_inj, BitVec.toNat_and, BitVec.toNat_ofNat, Nat.mod_eq_of_lt hlt,
    Nat.and_two_pow, Nat.testBit_eq_decide_div_mod_eq]
  have h2 : x.toNat / 2 ^ k % 2 < 2 := Nat.mod_lt _ (by decide)
  have hp : 0 < 2 ^ k := Nat.two_pow_pos k
  by_cases h : x.toNat / 2 ^ k % 2 = 1
  · simp [h]
  · have h0 : x.toNat / 2 ^ k % 2 = 0 := by omega
    simp [h0]

/-- A field of `m` bits at position `k`: mask, then shift down. -/
theorem toNat_and_shift {w : Nat} (x : BitVec w) (k m : Nat) (hkm : k + m < w) :
    ((x &&& BitVec.ofNat w ((2 ^ m - 1) <<< k)) >>> k).toNat = x.toNat / 2 ^ k % 2 ^ m := by
  have hlt : (2 ^ m - 1) <<< k < 2 ^ w := by
    rw [Nat.shiftLeft_eq]
    calc (2 ^ m - 1) * 2 ^ k < 2 ^ m * 2 ^ k :=
          Nat.mul_lt_mul_of_pos_right (Nat.sub_lt (Nat.two_pow_pos m) (by decide))
            (Nat.two_pow_pos k)
      _ = 2 ^ (k + m) := by rw [Nat.mul_comm, ← Nat.pow_add]
      _ ≤ 2 ^ w := Nat.pow_le_pow_right (by decide) (Nat.le_of_lt hkm)
  rw [BitVec.toNat_ushiftRight, BitVec.toNat_and, BitVec.toNat_ofNat, Nat.mod_eq_of_lt hlt,
    Nat.shiftRight_and_distrib, Nat.shiftLeft_shiftRight, Nat.and_two_pow_sub_one_eq_mod,
    Nat.shiftRight_eq_div_pow]

/-! ## Words in two parts -/

section Parts

variable {k b : Nat}

/-- A mask acts on the high and on the low part alone. -/
theorem and_split (n a : Nat) (hb : b < 2 ^ k) :
    n &&& (2 ^ k * a + b) = 2 ^ k * (n / 2 ^ k &&& a) + (n % 2 ^ k &&& b) := by
  have hlow : n % 2 ^ k &&& b < 2 ^ k := Nat.and_lt_two_pow _ hb
  refine Nat.eq_of_testBit_eq fun j => ?_
  rw [Nat.testBit_and, Nat.testBit_two_pow_mul_add _ hb, Nat.testBit_two_pow_mul_add _ hlow]
  by_cases hj : j < k
  · rw [if_pos hj, if_pos hj, Nat.testBit_and, Nat.testBit_mod_two_pow]
    simp [hj]
  · have hback : j - k + k = j := by omega
    rw [if_neg hj, if_neg hj, Nat.testBit_and, Nat.testBit_div_two_pow, hback]

/-- A mask that leaves `w` bits from `k + m` on and `k` bits below. -/
theorem and_hole {n m w : Nat} (h : n < 2 ^ (k + m + w)) :
    n &&& (2 ^ (k + m) * (2 ^ w - 1) + (2 ^ k - 1)) =
      2 ^ (k + m) * (n / 2 ^ (k + m)) + n % 2 ^ k := by
  have hpos := Nat.two_pow_pos k
  have hle : 2 ^ k ≤ 2 ^ (k + m) := Nat.pow_le_pow_right (by decide) (Nat.le_add_right k m)
  have hhigh : n / 2 ^ (k + m) < 2 ^ w := Nat.div_lt_of_lt_mul (by rwa [← Nat.pow_add])
  have hdvd : 2 ^ k ∣ 2 ^ (k + m) := Nat.pow_dvd_pow 2 (Nat.le_add_right k m)
  rw [and_split n _ (by omega), Nat.and_two_pow_sub_one_eq_mod, Nat.mod_eq_of_lt hhigh,
    Nat.and_two_pow_sub_one_eq_mod, Nat.mod_mod_of_dvd n hdvd]

end Parts

end WordField
