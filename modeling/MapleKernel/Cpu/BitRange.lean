/-
  File:      Cpu/BitRange.lean
  Subject:   THE LAWS OF THE BIT HELPER (`f1_binary_operation.c`) on ranges inside a word.

  `setBits` clears the range and puts the value over it without cutting it to the width, so a value
  that is too wide sets bits above the range. `getBits2` makes its mask with one shift, where
  `generateMask` looks after the full width first: a shift by 32 is one by 0 on this processor (and
  undefined in C).

  * `BitRange` -- a range of bits of a word;
  * `testBit_mask`, `testBit_set`, `testBit_get` -- the helper bit by bit, on every range;
  * `BitRangeLaws` -- what is read after a write, in the range and outside it, and that the two
    getters agree;
  * `bitRangeLaws_iff` -- the laws hold exactly when no bit of the value falls on a clear bit above
    the range, and the range is not the whole word, or the word is 0.
-/
import MapleKernel.Cpu.SegmentDescriptor

namespace MapleKernel.Cpu

/-! ## 1. Ranges -/

/-- The bits from `startSmall` to `endBig` of a word. -/
structure BitRange where
  endBig : UInt8
  startSmall : UInt8
  start_le_end : startSmall ≤ endBig
  end_le : endBig ≤ 31

namespace BitRange

variable (r r' : BitRange)

def start : Nat := r.startSmall.toNat

def width : Nat := r.endBig.toNat - r.startSmall.toNat + 1

/-- Bit `j` is in the range. -/
def Mem (j : Nat) : Prop := r.start ≤ j ∧ j < r.start + r.width

instance (j : Nat) : Decidable (r.Mem j) := inferInstanceAs (Decidable (_ ∧ _))

/-- No bit is in both. -/
def Disjoint : Prop := ∀ j, r.Mem j → ¬ r'.Mem j

/-- The bit `j` alone. -/
def single (j : Nat) (h : j < 32) : BitRange where
  endBig := .ofNat j
  startSmall := .ofNat j
  start_le_end := UInt8.le_refl _
  end_le := by
    rw [UInt8.le_iff_toNat_le, UInt8.toNat_ofNat', Nat.mod_eq_of_lt (by omega)]
    exact Nat.le_of_lt_succ h

end BitRange

/-- `getBits2`, and what it writes to the terminal. -/
def getBits2 (value : UInt32) (endBig startSmall : UInt8) : UInt32 × String :=
  if endBig < startSmall then (-1, "[ERROR]: big >= small ")
  else
    let shiftedValue := value >>> startSmall.toUInt32
    let maskPlusOne : UInt32 := 1 <<< (endBig.toUInt32 - startSmall.toUInt32 + 1)
    let mask := maskPlusOne - 1
    (shiftedValue &&& mask, "")

/-! ## 2. The helper bit by bit -/

section Bits

variable {r : BitRange}

theorem BitRange.fits (r : BitRange) : r.start + r.width ≤ 32 := by
  have hle := UInt8.le_iff_toNat_le.mp r.start_le_end
  have hend : r.endBig.toNat ≤ 31 := UInt8.le_iff_toNat_le.mp r.end_le
  unfold BitRange.start BitRange.width
  omega

/-- A range that is not the whole word. -/
theorem BitRange.span (h : r.width < 32) : Span r.endBig r.startSmall r.start r.width where
  start_eq := by
    have hfits := r.fits
    exact Nat.mod_eq_of_lt (show r.start < 32 by unfold BitRange.width at hfits; omega)
  width_eq := by
    have hle := UInt8.le_iff_toNat_le.mp r.start_le_end
    have hsub := UInt8.toNat_sub_of_le _ _ r.start_le_end
    rw [UInt8.toNat_add, hsub, UInt8.toNat_one]
    exact Nat.mod_eq_of_lt (show r.width < 2 ^ 8 by omega)
  fits := r.fits
  lt := h

/-- The whole word. -/
theorem BitRange.eq_full (h : ¬ r.width < 32) : r.endBig = 31 ∧ r.startSmall = 0 := by
  have hend : r.endBig.toNat ≤ 31 := UInt8.le_iff_toNat_le.mp r.end_le
  have h31 : (31 : UInt8).toNat = 31 := rfl
  have h0 : (0 : UInt8).toNat = 0 := rfl
  unfold BitRange.width at h
  exact ⟨UInt8.toNat_inj.mp (by omega), UInt8.toNat_inj.mp (by omega)⟩

theorem testBit_mask (r : BitRange) (j : Nat) :
    (generateMask r.endBig r.startSmall).toNat.testBit j = decide (r.Mem j) := by
  by_cases h : r.width < 32
  · exact testBit_generateMask (BitRange.span h) j
  · obtain ⟨hend, hstart⟩ := BitRange.eq_full h
    have hmask : (generateMask 31 0).toNat = 2 ^ 32 - 1 := by decide
    have hmem : r.Mem j ↔ j < 32 := by
      simp [BitRange.Mem, BitRange.start, BitRange.width, hend, hstart]
    rw [hend, hstart, hmask, Nat.testBit_two_pow_sub_one]
    exact decide_eq_decide.mpr hmem.symm

theorem start_mod (r : BitRange) : r.startSmall.toNat % 32 = r.start := by
  have hfits := r.fits
  exact Nat.mod_eq_of_lt (show r.start < 32 by unfold BitRange.width at hfits; omega)

/-- What the getter reads. -/
theorem testBit_get (r : BitRange) (value : UInt32) (i : Nat) :
    (getBits value r.endBig r.startSmall).toNat.testBit i =
      (decide (i < r.width) && value.toNat.testBit (r.start + i)) := by
  rw [getBits, UInt32.toNat_shiftRight, UInt8.toNat_toUInt32, start_mod, Nat.testBit_shiftRight,
    UInt32.toNat_and, Nat.testBit_and, testBit_mask, Bool.and_comm]
  congr 1
  rw [decide_eq_decide, BitRange.Mem]
  omega

/-- What the setter leaves: above the range the bits of the value are added. -/
theorem testBit_set (r : BitRange) (a b : UInt32) {j : Nat} (hj : j < 32) :
    (setBits a b r.endBig r.startSmall).toNat.testBit j =
      ((a.toNat.testBit j && !decide (r.Mem j)) ||
        (decide (r.start ≤ j) && b.toNat.testBit (j - r.start))) := by
  rw [setBits, UInt32.toNat_or, Nat.testBit_or, UInt32.toNat_and, Nat.testBit_and,
    generateAntiMask, testBit_not _ hj, testBit_mask, UInt32.toNat_shiftLeft,
    UInt8.toNat_toUInt32, start_mod, Nat.testBit_mod_two_pow, Nat.testBit_shiftLeft]
  simp [hj]

theorem eq_of_testBit {a b : UInt32}
    (h : ∀ j, j < 32 → a.toNat.testBit j = b.toNat.testBit j) : a = b := by
  refine UInt32.toNat.inj (Nat.eq_of_testBit_eq fun j => ?_)
  by_cases hj : j < 32
  · exact h j hj
  · rw [testBit_of_ge a (not_lt.mp hj), testBit_of_ge b (not_lt.mp hj)]

/-- The other getter, on a range that is not the whole word. -/
theorem getBits2_of_lt (h : r.width < 32) (value : UInt32) :
    (getBits2 value r.endBig r.startSmall).1 = getBits value r.endBig r.startSmall := by
  have hle : r.startSmall.toNat ≤ r.endBig.toNat := UInt8.le_iff_toNat_le.mp r.start_le_end
  have hcount : (r.endBig.toUInt32 - r.startSmall.toUInt32 + 1).toNat = r.width := by
    have hsub : r.startSmall.toUInt32 ≤ r.endBig.toUInt32 := by
      rw [UInt32.le_iff_toNat_le, UInt8.toNat_toUInt32, UInt8.toNat_toUInt32]
      exact hle
    rw [UInt32.toNat_add, UInt32.toNat_sub_of_le _ _ hsub, UInt8.toNat_toUInt32,
      UInt8.toNat_toUInt32, UInt32.toNat_one]
    exact Nat.mod_eq_of_lt (show r.width < 2 ^ 32 by omega)
  have hpow : 2 ^ r.width < 2 ^ 32 := Nat.pow_lt_pow_right (by decide) h
  have hone : ((1 : UInt32) <<< (r.endBig.toUInt32 - r.startSmall.toUInt32 + 1)).toNat
      = 2 ^ r.width := by
    rw [UInt32.toNat_shiftLeft, hcount, Nat.mod_eq_of_lt h, UInt32.toNat_one, Nat.shiftLeft_eq,
      Nat.one_mul, Nat.mod_eq_of_lt hpow]
  have hmask : ((1 : UInt32) <<< (r.endBig.toUInt32 - r.startSmall.toUInt32 + 1) - 1).toNat
      = 2 ^ r.width - 1 := by
    have hpos : 0 < 2 ^ r.width := Nat.two_pow_pos _
    rw [UInt32.toNat_sub_of_le _ _ (by rw [UInt32.le_iff_toNat_le, hone, UInt32.toNat_one]; omega),
      hone, UInt32.toNat_one]
  rw [getBits2, if_neg (UInt8.not_lt.mpr r.start_le_end)]
  refine eq_of_testBit fun i _ => ?_
  rw [testBit_get, UInt32.toNat_and, Nat.testBit_and, hmask, Nat.testBit_two_pow_sub_one,
    UInt32.toNat_shiftRight, UInt8.toNat_toUInt32, start_mod, Nat.testBit_shiftRight, Bool.and_comm]

end Bits

/-! ## 3. The laws -/

/-- What a getter and a setter of a range should do for each other. -/
structure BitRangeLaws (r : BitRange) (a b : UInt32) : Prop where
  readBack : (getBits (setBits a b r.endBig r.startSmall) r.endBig r.startSmall).toNat =
    b.toNat % 2 ^ r.width
  others : ∀ r' : BitRange, r.Disjoint r' →
    getBits (setBits a b r.endBig r.startSmall) r'.endBig r'.startSmall =
      getBits a r'.endBig r'.startSmall
  writeBack : setBits a (getBits a r.endBig r.startSmall) r.endBig r.startSmall = a
  agree : (getBits2 a r.endBig r.startSmall).1 = getBits a r.endBig r.startSmall

/-- No bit of `b` falls on a clear bit of `a` above the range. -/
def BitRange.NothingBeyond (r : BitRange) (a b : UInt32) : Prop :=
  ∀ j, r.start + r.width ≤ j → j < 32 → b.toNat.testBit (j - r.start) = true →
    a.toNat.testBit j = true

section Laws

variable {r : BitRange} {a b : UInt32}

theorem readBack_set (r : BitRange) (a b : UInt32) :
    (getBits (setBits a b r.endBig r.startSmall) r.endBig r.startSmall).toNat =
      b.toNat % 2 ^ r.width := by
  have hfits := r.fits
  refine Nat.eq_of_testBit_eq fun i => ?_
  rw [testBit_get, Nat.testBit_mod_two_pow]
  by_cases hi : i < r.width
  · have hmem : r.Mem (r.start + i) := ⟨by omega, by omega⟩
    rw [testBit_set r a b (by omega), Nat.add_sub_cancel_left]
    simp [hmem]
  · simp [hi]

theorem writeBack_get (r : BitRange) (a : UInt32) :
    setBits a (getBits a r.endBig r.startSmall) r.endBig r.startSmall = a := by
  refine eq_of_testBit fun j hj => ?_
  rw [testBit_set r _ _ hj, testBit_get]
  by_cases hmem : r.Mem j
  · obtain ⟨hlo, hhi⟩ := hmem
    have hindex : j - r.start < r.width := by omega
    have hback : r.start + (j - r.start) = j := by omega
    simp [BitRange.Mem, hlo, hhi, hindex, hback]
  · by_cases hlo : r.start ≤ j
    · have hindex : ¬ j - r.start < r.width := fun h => hmem ⟨hlo, by omega⟩
      simp [hmem, hindex]
    · simp [hmem, hlo]

/-- A bit outside the range after a write. -/
theorem testBit_set_outside {j : Nat} (hj : j < 32) (hout : ¬ r.Mem j) :
    (setBits a b r.endBig r.startSmall).toNat.testBit j = a.toNat.testBit j ↔
      (r.start + r.width ≤ j → b.toNat.testBit (j - r.start) = true →
        a.toNat.testBit j = true) := by
  rw [testBit_set r a b hj]
  by_cases hlo : r.start ≤ j
  · have habove : r.start + r.width ≤ j := not_lt.mp fun h => hout ⟨hlo, h⟩
    cases ha : a.toNat.testBit j <;> cases hb : b.toNat.testBit (j - r.start) <;>
      simp [hout, hlo, habove]
  · have hbelow : ¬ r.start + r.width ≤ j := fun h => hlo (by omega)
    simp [hout, hlo, hbelow]

/-- **Other ranges are kept exactly when nothing beyond this one is set.** -/
theorem others_iff : (∀ r' : BitRange, r.Disjoint r' →
    getBits (setBits a b r.endBig r.startSmall) r'.endBig r'.startSmall =
      getBits a r'.endBig r'.startSmall) ↔ r.NothingBeyond a b := by
  constructor
  · intro hothers j habove hj
    have hout : ¬ r.Mem j := fun h => absurd h.2 (not_lt.mpr habove)
    have hstart : (BitRange.single j hj).start = j := by
      show (UInt8.ofNat j).toNat = j
      rw [UInt8.toNat_ofNat', Nat.mod_eq_of_lt (by omega)]
    have hwidth : (BitRange.single j hj).width = 1 := by
      show (UInt8.ofNat j).toNat - (UInt8.ofNat j).toNat + 1 = 1
      omega
    have hdis : r.Disjoint (BitRange.single j hj) := by
      intro k hk hk'
      obtain ⟨hlo, hhi⟩ := hk'
      rw [hstart] at hlo hhi
      rw [hwidth] at hhi
      obtain rfl : k = j := by omega
      exact hout hk
    have hbit := congrArg (fun x => x.toNat.testBit 0) (hothers _ hdis)
    simp only [testBit_get, hstart, hwidth, Nat.add_zero] at hbit
    exact (testBit_set_outside hj hout).mp hbit habove
  · intro hbeyond r' hdis
    refine eq_of_testBit fun i _ => ?_
    have hfits := r'.fits
    rw [testBit_get, testBit_get]
    by_cases hi : i < r'.width
    · have hj : r'.start + i < 32 := by omega
      have hout : ¬ r.Mem (r'.start + i) := fun h => hdis _ h ⟨by omega, by omega⟩
      rw [(testBit_set_outside hj hout).mpr fun habove => hbeyond _ habove hj]
    · simp [hi]

/-- **The two getters agree, but on the whole word only for 0.** -/
theorem agree_iff : (getBits2 a r.endBig r.startSmall).1 = getBits a r.endBig r.startSmall ↔
    r.width < 32 ∨ a = 0 := by
  by_cases h : r.width < 32
  · exact iff_of_true (getBits2_of_lt h a) (Or.inl h)
  · obtain ⟨hend, hstart⟩ := BitRange.eq_full h
    have hget2 : (getBits2 a 31 0).1 = 0 := by
      have hmask : (1 : UInt32) <<< ((31 : UInt8).toUInt32 - (0 : UInt8).toUInt32 + 1) - 1 = 0 := by
        decide
      rw [getBits2, if_neg (by decide)]
      show a >>> (0 : UInt8).toUInt32 &&& _ = 0
      rw [hmask, UInt32.and_zero]
    have hget : getBits a 31 0 = a := by
      have hzero : r.start = 0 := congrArg UInt8.toNat hstart
      refine eq_of_testBit fun i hi => ?_
      have hin : i < r.width := by omega
      rw [← hend, ← hstart, testBit_get, hzero, Nat.zero_add]
      simp [hin]
    rw [hend, hstart, hget2, hget, or_iff_right h]
    exact eq_comm

example : (getBits2 0xFFFFFFFF 31 0).1 = 0 ∧ getBits 0xFFFFFFFF 31 0 = 0xFFFFFFFF := by decide

/-- **The laws of the bit helper hold exactly when no bit of the value falls on a clear bit above
    the range, and the range is not the whole word, or the word is 0.** -/
theorem bitRangeLaws_iff (r : BitRange) (a b : UInt32) :
    BitRangeLaws r a b ↔ r.NothingBeyond a b ∧ (r.width < 32 ∨ a = 0) := by
  constructor
  · exact fun h => ⟨others_iff.mp h.others, agree_iff.mp h.agree⟩
  · rintro ⟨hbeyond, hfull⟩
    exact ⟨readBack_set r a b, others_iff.mpr hbeyond, writeBack_get r a, agree_iff.mpr hfull⟩

/-- A value of two bits in the range of bit 4 sets bit 5. -/
theorem not_bitRangeLaws_wide :
    ¬ ∀ (r : BitRange) (a b : UInt32), BitRangeLaws r a b := by
  intro hall
  have hdis : (BitRange.single 4 (by decide)).Disjoint (.single 5 (by decide)) := by
    intro j h h'
    have hlt : j < 4 + 1 := h.2
    have hge : 5 ≤ j := h'.1
    omega
  exact absurd ((hall _ 0 3).others _ hdis) (by decide)

end Laws

end MapleKernel.Cpu
