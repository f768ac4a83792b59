/-
  File:      Stdio/BitHexString.lean
  Subject:   THE NUMBER PRINTERS of `bit_hex_string.c`.

  A printer is the list of characters it hands to `terminal_putchar`, or the assertion that
  stopped it. `uint8_t` and `int16_t` results are reduced where the source's types reduce them.

  * `hexSize_eq_length`: the size computed from the bit length is the length of the text, so the
    second assertion of `print_hex_f` never fails.
  * `printIntF_ok`, `printUintF_ok`, `printHexF_ok`: the printers return for every value and
    every pad up to 16.
-/
import MapleKernel.Lib.Loop
import MapleKernel.Stdio.StringHelper

namespace MapleKernel.Stdio

open Loops

/-! ## 1. Binary -/

/-- `getSpacelessBitString`: 32 binary digits, highest first. -/
def getSpacelessBitString (a : BitVec 32) : List UInt8 :=
  (List.range 32).map fun i => UInt8.ofNat (0x30 + ((a >>> (31 - i)) &&& 1#32).toNat)

/-- `addSpacesEvery4bits`: one turn of the loop, on `bitIndex` and the output so far. -/
def addSpacesStep (spacelessBits : List UInt8) (printIndex : Nat) (s : Nat × List UInt8) :
    Nat × List UInt8 :=
  if (printIndex + 1) % 5 = 0 then (s.1, s.2 ++ [0x20])
  else (s.1 + 1, s.2 ++ [spacelessBits.getD s.1 0])

def addSpacesEvery4bits (spacelessBits : List UInt8) : List UInt8 :=
  (forRange 39 (addSpacesStep spacelessBits) (0, [])).2

/-- The loop of `binary_size`; `fuel` bounds its turns. -/
def binarySizeLoop : Nat → Nat → Nat
  | 0, _ => 0
  | fuel + 1, n => if n > 0 then binarySizeLoop fuel (n / 2) + 1 else 0

def binarySize (n : BitVec 32) : Nat := if n = 0#32 then 1 else binarySizeLoop 32 n.toNat

def hexSize (n : BitVec 32) : Nat :=
  if binarySize n % 4 ≠ 0 then binarySize n / 4 + 1 else binarySize n / 4

/-- `max` of `bit_hex_string.c`: on `uint8_t`. -/
def max8 (a b : Nat) : Nat := if a % 2 ^ 8 > b % 2 ^ 8 then a % 2 ^ 8 else b % 2 ^ 8

def toInt16 (x : Int) : Int := Int.bmod x (2 ^ 16)

def max16i (a b : Int) : Int := if toInt16 a > toInt16 b then toInt16 a else toInt16 b

def printBinaryVarNoNewline (n : BitVec 32) (numberOfBits : Nat) : List UInt8 :=
  let spaceSeparatedBits := addSpacesEvery4bits (getSpacelessBitString n)
  let numberOfBits := max8 (binarySize n) numberOfBits
  let firstIndex :=
    if numberOfBits ≥ 32 then 0
    else
      let firstIndex := 39 - (numberOfBits + numberOfBits / 4)
      if numberOfBits % 4 = 0 then firstIndex + 1 else firstIndex
  spaceSeparatedBits.drop firstIndex

/-! ## 2. Hexadecimal and decimal -/

/-- The leading zeros of `print_hex_f`, with the spaces between groups of four. -/
def hexZeros (hexToPrint zeros : Nat) : List UInt8 :=
  (List.range zeros).flatMap fun i =>
    let left := (hexToPrint + 2 ^ 8 - (i + 1)) % 2 ^ 8
    if left % 4 = 0 then [0x30, 0x20] else [0x30]

/-- The digits of `print_hex_f`. `(j - 1) % 4` is an `int` remainder. -/
def hexBody (hexToPrint zeros : Nat) (text : List UInt8) : List UInt8 :=
  (List.range text.length).flatMap fun i =>
    let j : Nat := (hexToPrint + 2 ^ 9 - i - zeros) % 2 ^ 8
    if ((j : Int) - 1).tmod 4 = 0 ∧ i ≠ text.length - 1 then [text.getD i 0, 0x20]
    else [text.getD i 0]

def printHexF (n : BitVec 32) (numberOfHex : Nat) : Except Failure (List UInt8) :=
  if numberOfHex ≤ 16 then
    let hexToPrint := max8 (hexSize n) numberOfHex
    let text := uintToHex n false
    if hexSize n = text.length then
      let zeros := if hexToPrint < text.length then 0
        else (hexToPrint + 2 ^ 8 - text.length) % 2 ^ 8
      .ok ([0x30, 0x78] ++ hexZeros hexToPrint zeros ++ hexBody hexToPrint zeros text)
    else .error .assertFailed
  else .error .assertFailed

/-- The spaces in front of a number that needs `len` of `padsize` columns. -/
def morePad (padsize len : Int) : List UInt8 :=
  List.replicate ((max16i 0 (padsize - len)) % 2 ^ 8).toNat 0x20

def printUintF (n : BitVec 32) (padsize : Nat) : Except Failure (List UInt8) :=
  if padsize ≤ 16 then
    let text := uitoa n
    .ok (morePad padsize text.length ++ text)
  else .error .assertFailed

/-- `print_int_f`: the sign of a negative number comes before the padding. -/
def printIntF (n : BitVec 32) (padsize : Nat) : Except Failure (List UInt8) :=
  if padsize ≤ 16 then
    let text := itoa n
    if n.slt 0#32 then .ok ([0x2D] ++ morePad padsize (text.length + 1) ++ text.drop 1)
    else .ok (morePad padsize text.length ++ text)
  else .error .assertFailed

/-! ## 3. The printers return -/

theorem binarySizeLoop_eq {fuel n : Nat} (h0 : n ≠ 0) (h : n < 2 ^ fuel) :
    binarySizeLoop fuel n = Nat.log2 n + 1 := by
  induction fuel generalizing n with
  | zero => omega
  | succ fuel ih =>
      rw [binarySizeLoop, if_pos (Nat.pos_of_ne_zero h0)]
      by_cases h1 : n / 2 = 0
      · have hone : n = 1 := by omega
        subst hone
        cases fuel <;> rfl
      · have hlog : Nat.log2 n = Nat.log2 (n / 2) + 1 := by
          rw [Nat.log2_def n, if_pos (by omega)]
        rw [ih h1 (by rw [Nat.pow_succ] at h; omega), hlog]

/-- `binary_size` is the bit length, and 1 for 0. -/
theorem binarySize_eq (v : BitVec 32) : binarySize v = max (Nat.size v.toNat) 1 := by
  unfold binarySize
  split
  next h0 =>
    subst h0
    rfl
  next h0 =>
    have hne := toNat_ne_zero h0
    have hsize : Nat.size v.toNat = Nat.log2 v.toNat + 1 := by
      refine Nat.le_antisymm (Nat.size_le.mpr ?_) (Nat.lt_size.mpr ?_)
      · exact Nat.lt_log2_self
      · exact Nat.log2_self_le hne
    rw [binarySizeLoop_eq hne v.isLt, hsize]
    omega

theorem binarySize_range (v : BitVec 32) : 1 ≤ binarySize v ∧ binarySize v ≤ 32 := by
  have hsize : Nat.size v.toNat ≤ 32 := Nat.size_le.mpr v.isLt
  rw [binarySize_eq]
  omega

theorem hexSize_range (v : BitVec 32) : 1 ≤ hexSize v ∧ hexSize v ≤ 8 := by
  have h := binarySize_range v
  unfold hexSize
  split
  · omega
  · omega

/-- A number with `k + 1` hexadecimal digits has between `4k + 1` and `4k + 4` binary ones. -/
theorem hexSize_of_range {n : BitVec 32} {k : Nat} (hlo : 16 ^ k ≤ n.toNat)
    (hhi : n.toNat < 16 ^ (k + 1)) : hexSize n = k + 1 := by
  have hpos : 0 < 16 ^ k := Nat.pos_of_ne_zero (by simp)
  have h0 : n.toNat ≠ 0 := by omega
  have hn : n ≠ 0#32 := fun e => h0 (by rw [e]; rfl)
  have hsize : binarySize n = Nat.log2 n.toNat + 1 := by
    rw [binarySize, if_neg hn, binarySizeLoop_eq h0 n.isLt]
  have hge : 4 * k ≤ Nat.log2 n.toNat := by
    rw [Nat.le_log2 h0, Nat.pow_mul]
    exact hlo
  have hlt : Nat.log2 n.toNat < 4 * (k + 1) := by
    rw [Nat.log2_lt h0, Nat.pow_mul]
    exact hhi
  rw [hexSize, hsize]
  split <;> omega

/-- **The size from the bit length is the length of the text.** -/
theorem hexSize_eq_length (n : BitVec 32) : hexSize n = (uintToHex n false).length := by
  by_cases hn : n = 0#32
  · subst hn; decide
  have h0 := toNat_ne_zero hn
  have hlo : 16 ^ Nat.log 16 n.toNat ≤ n.toNat := Nat.pow_log_le_self 16 h0
  have hhi : n.toNat < 16 ^ (Nat.log 16 n.toNat + 1) := Nat.lt_pow_succ_log_self (by decide) _
  rw [hexSize_of_range hlo hhi, uintToHex_eq_numeral, numeral, if_neg h0, List.length_map,
    List.length_reverse, Nat.length_digits 16 _ (by decide) h0]

/-- The spaces in front of a number: as many as its text has fewer columns than the pad. -/
theorem morePad_eq {pad len : Nat} (hpad : pad < 2 ^ 8) (hlen : len < 2 ^ 15) :
    morePad pad len = List.replicate (pad - len) 0x20 := by
  have hint : toInt16 ((pad : Int) - len) = (pad : Int) - len := by
    unfold toInt16
    rw [Int.bmod_eq_of_le (by omega) (by omega)]
  have hzero : toInt16 0 = 0 := by decide
  have hmax : max16i 0 ((pad : Int) - len) = ((pad - len : Nat) : Int) := by
    unfold max16i
    rw [hint, hzero]
    split
    · omega
    · omega
  rw [morePad, hmax]
  congr 1
  omega

theorem uitoa_length (v : BitVec 32) : 1 ≤ (uitoa v).length ∧ (uitoa v).length ≤ 10 := by
  have hv := v.isLt
  rw [uitoa_eq_numeral]
  exact ⟨numeral_length_pos, numeral_length_le (by decide) (by decide) (by omega)⟩

theorem itoa_length (v : BitVec 32) : 1 ≤ (itoa v).length ∧ (itoa v).length ≤ 11 := by
  have hlt := @BitVec.toInt_lt 32 v
  have hge := @BitVec.le_toInt 32 v
  have hlen : (numeral 10 v.toInt.natAbs).length ≤ 10 :=
    numeral_length_le (by decide) (by decide) (by omega)
  rw [itoa_eq]
  split
  · split
    · decide
    · rw [List.length_cons]
      omega
  · exact ⟨numeral_length_pos, by omega⟩

theorem printUintF_ok (n : BitVec 32) {pad : Nat} (h : pad ≤ 16) :
    ∃ out, printUintF n pad = .ok out := ⟨_, if_pos h⟩

theorem printIntF_ok (n : BitVec 32) {pad : Nat} (h : pad ≤ 16) :
    ∃ out, printIntF n pad = .ok out := by
  rw [printIntF, if_pos h]
  split
  · exact ⟨_, rfl⟩
  · exact ⟨_, rfl⟩

theorem printHexF_ok (n : BitVec 32) {pad : Nat} (h : pad ≤ 16) :
    ∃ out, printHexF n pad = .ok out := by
  rw [printHexF, if_pos h]
  simp only [hexSize_eq_length, if_true]
  exact ⟨_, rfl⟩

end MapleKernel.Stdio
