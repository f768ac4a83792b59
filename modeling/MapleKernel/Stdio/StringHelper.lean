/-
  File:      Stdio/StringHelper.lean
  Subject:   NUMBERS AS TEXT: the conversions of `string_helper.c`.

  A text is the list of its bytes without the final NUL. `string_to_uint` walks from the last
  byte of its argument down to the first NUL it meets, which is not a byte of the argument, so
  it also takes the bytes that lie below the argument in memory, nearest first.

  * `stringToUint_ok`: whatever lies below, the walk ends if a byte there is no digit.
  * `numeral b n` -- the text of a number in base `b`: `uitoa_eq_numeral`, `itoa_eq` and
    `uintToHex_eq_numeral` are what the conversions write.
-/
import Mathlib
import MapleKernel.Lib.Digits

namespace MapleKernel.Stdio

/-- The ways a run can end other than by returning. -/
inductive Failure where
  | assertFailed
  | aborted
  | outOfBounds
  | missingArgument
  | outOfFuel
  deriving DecidableEq, Repr

/-! ## 1. Decimal text -/

/-- The digits of `value`, lowest first; `fuel` bounds the turns of the loop. -/
def writeDigits : Nat → Nat → List UInt8
  | 0, _ => []
  | fuel + 1, value =>
      if value > 0 then UInt8.ofNat (0x30 + value % 10) :: writeDigits fuel (value / 10) else []

/-- `itoa`. The swap loop at its end reverses the buffer. The negation wraps, so the most negative
    value stays negative and the loop writes no digit for it. -/
def itoa (value : BitVec 32) : List UInt8 :=
  if value = 0#32 then [0x30]
  else
    let negative := value.slt 0#32
    let value := if negative then -value else value
    let digits := if value.slt 0#32 then [] else writeDigits 10 value.toNat
    (digits ++ if negative then [0x2D] else []).reverse

def uitoa (value : BitVec 32) : List UInt8 :=
  if value = 0#32 then [0x30] else (writeDigits 10 value.toNat).reverse

def isDigit (c : UInt8) : Bool := 0x30 ≤ c && c ≤ 0x39

def charToUintInvalid : Nat := 11

def charToUint (c : UInt8) : Nat := if isDigit c then c.toNat - 0x30 else charToUintInvalid

/-- The loop of `string_to_uint` over the bytes from the last one of its argument downwards. -/
def stringToUintLoop : List UInt8 → Nat → Nat → Except Failure Nat
  | [], _, _ => .error .outOfBounds
  | c :: cs, power, sum =>
      if c = 0 then .ok sum
      else
        let digit := charToUint c
        if digit = charToUintInvalid then .ok (2 ^ 32 - 1)
        else stringToUintLoop cs (power * 10 % 2 ^ 32) ((sum + digit * power) % 2 ^ 32)

/-- `string_to_uint` of the text `str` in a memory that holds `below` below it. The length is
    truncated to one byte. -/
def stringToUint (str below : List UInt8) : Except Failure Nat :=
  stringToUintLoop ((str.take (str.length % 2 ^ 8)).reverse ++ below) 1 0

/-- The number a list of digits denotes. -/
def decimalValue (digits : List UInt8) : Nat :=
  Nat.ofDigits 10 (digits.reverse.map fun c => c.toNat - 0x30)

theorem charToUint_of_digit {c : UInt8} (h : isDigit c = true) : charToUint c = c.toNat - 0x30 :=
  if_pos h

theorem isDigit_iff {c : UInt8} : isDigit c = true ↔ 0x30 ≤ c.toNat ∧ c.toNat ≤ 0x39 := by
  simp only [isDigit, Bool.and_eq_true, decide_eq_true_eq, UInt8.le_iff_toNat_le]
  rfl

theorem charToUint_ne_invalid {c : UInt8} (h : isDigit c = true) :
    charToUint c ≠ charToUintInvalid := by
  rw [charToUint_of_digit h]
  have := isDigit_iff.mp h
  unfold charToUintInvalid
  omega

theorem digit_ne_zero {c : UInt8} (h : isDigit c = true) : c ≠ 0 := by
  intro h
  obtain rfl := h
  exact absurd h (by decide)

/-- The walk over digits adds up their value, lowest digit first. -/
theorem stringToUintLoop_digits (ds : List UInt8) (hds : ∀ c ∈ ds, isDigit c = true)
    (rest : List UInt8) (power sum : Nat) :
    stringToUintLoop (ds ++ 0 :: rest) (power % 2 ^ 32) (sum % 2 ^ 32)
      = .ok ((sum + power * Nat.ofDigits 10 (ds.map fun c => c.toNat - 0x30)) % 2 ^ 32) := by
  induction ds generalizing power sum with
  | nil => simp [stringToUintLoop]
  | cons c ds ih =>
      have hc := hds c List.mem_cons_self
      have hrest := fun d hd => hds d (List.mem_cons_of_mem c hd)
      have hpower : power % 2 ^ 32 * 10 % 2 ^ 32 = power * 10 % 2 ^ 32 := by
        rw [Nat.mod_mul_mod]
      have hsum : (sum % 2 ^ 32 + charToUint c * (power % 2 ^ 32)) % 2 ^ 32
          = (sum + charToUint c * power) % 2 ^ 32 := by
        rw [Nat.add_mod, Nat.mod_mod, Nat.mul_mod, Nat.mod_mod, ← Nat.mul_mod, ← Nat.add_mod]
      rw [List.cons_append, stringToUintLoop, if_neg (digit_ne_zero hc)]
      simp only [charToUint_ne_invalid hc, if_false]
      rw [hpower, hsum, ih hrest, charToUint_of_digit hc, List.map_cons, Nat.ofDigits_cons]
      congr 2
      ring

/-- The walk ends, with some value, as soon as one of the bytes is no digit. -/
theorem stringToUintLoop_ok {cs : List UInt8} (h : ∃ c ∈ cs, isDigit c = false)
    (power sum : Nat) : ∃ v, stringToUintLoop cs power sum = .ok v := by
  induction cs generalizing power sum with
  | nil =>
      obtain ⟨c, hc, -⟩ := h
      exact absurd hc List.not_mem_nil
  | cons c cs ih =>
      rw [stringToUintLoop]
      by_cases h0 : c = 0
      · rw [if_pos h0]
        exact ⟨sum, rfl⟩
      rw [if_neg h0]
      by_cases hd : isDigit c = true
      · simp only [charToUint_ne_invalid hd, if_false]
        refine ih ?_ _ _
        obtain ⟨d, hmem, hd'⟩ := h
        rcases List.mem_cons.mp hmem with rfl | hmem
        · rw [hd] at hd'
          cases hd'
        · exact ⟨d, hmem, hd'⟩
      · have hinvalid : charToUint c = charToUintInvalid := if_neg hd
        simp only [hinvalid, if_true]
        exact ⟨_, rfl⟩

theorem stringToUint_ok (str : List UInt8) {below : List UInt8}
    (h : ∃ c ∈ below, isDigit c = false) : ∃ v, stringToUint str below = .ok v := by
  obtain ⟨c, hc, hd⟩ := h
  exact stringToUintLoop_ok ⟨c, List.mem_append_right _ hc, hd⟩ 1 0

/-! ## 2. Hexadecimal text -/

def hexDigits (uppercase : Bool) : List UInt8 :=
  [0x30, 0x31, 0x32, 0x33, 0x34, 0x35, 0x36, 0x37, 0x38, 0x39] ++
    if uppercase then [0x41, 0x42, 0x43, 0x44, 0x45, 0x46]
    else [0x61, 0x62, 0x63, 0x64, 0x65, 0x66]

/-- The eight hexadecimal digits of `value`, highest first: the array `temp` of `uint_to_hex`. -/
def hexTemp (value : BitVec 32) (uppercase : Bool) : List UInt8 :=
  (List.range 8).map fun i =>
    (hexDigits uppercase).getD ((value >>> (4 * (7 - i))) &&& 0xF#32).toNat 0

/-- `uint_to_hex`: the digits without the leading zeros. -/
def uintToHex (value : BitVec 32) (uppercase : Bool) : List UInt8 :=
  if value = 0#32 then [0x30] else (hexTemp value uppercase).dropWhile (· = 0x30)

/-! ## 3. Numerals -/

/-- A digit below 16, in lower case. -/
def digitChar (d : Nat) : UInt8 := UInt8.ofNat (if d < 10 then 0x30 + d else 0x57 + d)

/-- The text of `n` in base `b`. -/
def numeral (b n : Nat) : List UInt8 :=
  if n = 0 then [0x30] else (Nat.digits b n).reverse.map digitChar

theorem digitChar_eq_zero_iff {d : Nat} (h : d < 16) : digitChar d = 0x30 ↔ d = 0 := by
  interval_cases d <;> decide

theorem digitChar_ne_space {d : Nat} (h : d < 16) : digitChar d ≠ 0x20 := by
  interval_cases d <;> decide

/-- No digit is a space. -/
theorem space_not_mem_numeral {b : Nat} (hb : 1 < b) (hb' : b ≤ 16) (n : Nat) :
    0x20 ∉ numeral b n := by
  unfold numeral
  split
  · decide
  · intro hmem
    obtain ⟨d, hd, hchar⟩ := List.mem_map.mp hmem
    have hlt : d < b := Nat.digits_lt_base hb (List.mem_reverse.mp hd)
    exact digitChar_ne_space (by omega) hchar

theorem numeral_length_pos {b n : Nat} : 0 < (numeral b n).length := by
  unfold numeral
  split
  · decide
  next h =>
    rw [List.length_map, List.length_reverse]
    exact List.length_pos_iff.mpr (Nat.digits_ne_nil_iff_ne_zero.mpr h)

theorem numeral_length_le {b n k : Nat} (hb : 1 < b) (hk : 0 < k) (h : n < b ^ k) :
    (numeral b n).length ≤ k := by
  unfold numeral
  split
  · exact hk
  next h0 =>
    rw [List.length_map, List.length_reverse, Nat.length_digits b n hb h0]
    exact Nat.log_lt_of_lt_pow h0 h

/-- The loop of `itoa` and `uitoa` writes the digits, lowest first. -/
theorem writeDigits_eq {fuel value : Nat} (h : value < 10 ^ fuel) :
    writeDigits fuel value = (Nat.digits 10 value).map digitChar := by
  induction fuel generalizing value with
  | zero =>
      have h0 : value = 0 := by simpa using h
      simp [h0, writeDigits]
  | succ fuel ih =>
      rw [writeDigits]
      split
      next hpos =>
        have hlt : value % 10 < 10 := Nat.mod_lt _ (by decide)
        rw [Nat.digits_def' (by decide) hpos, List.map_cons, ih (by rw [Nat.pow_succ] at h; omega),
          digitChar, if_pos hlt]
      next hpos =>
        have h0 : value = 0 := by omega
        simp [h0]

theorem toNat_ne_zero {v : BitVec 32} (h : v ≠ 0#32) : v.toNat ≠ 0 :=
  fun e => h (BitVec.eq_of_toNat_eq e)

theorem toInt_ne_zero {v : BitVec 32} (h : v ≠ 0#32) : v.toInt ≠ 0 :=
  fun e => h (BitVec.eq_of_toInt_eq (e.trans BitVec.toInt_zero.symm))

/-- The test for a negative `int`. -/
theorem slt_zero_eq (v : BitVec 32) : v.slt 0#32 = decide (v.toInt < 0) := by
  rw [BitVec.slt_eq_decide, BitVec.toInt_zero]

/-- `uitoa` writes the decimal numeral. -/
theorem uitoa_eq_numeral (v : BitVec 32) : uitoa v = numeral 10 v.toNat := by
  have hv := v.isLt
  by_cases h0 : v = 0#32
  · subst h0
    rfl
  have hne := toNat_ne_zero h0
  rw [uitoa, numeral, if_neg h0, if_neg hne, writeDigits_eq (by omega), List.map_reverse]

/-- `itoa` writes the decimal numeral behind the sign, but no digit of the most negative number. -/
theorem itoa_eq (v : BitVec 32) : itoa v
    = if v.toInt < 0 then
        0x2D :: if v.toInt = -2 ^ 31 then [] else numeral 10 v.toInt.natAbs
      else numeral 10 v.toInt.natAbs := by
  by_cases h0 : v = 0#32
  · subst h0
    rfl
  have hv := v.isLt
  have hne := toNat_ne_zero h0
  have hint := BitVec.toInt_eq_toNat_cond v
  have hslt := slt_zero_eq v
  rw [itoa, if_neg h0]
  by_cases hneg : v.toInt < 0
  · have hbig : 2 ^ 31 ≤ v.toNat := by
      by_contra hlt
      rw [if_pos (by omega)] at hint
      omega
    have hminus : (-v).toNat = 2 ^ 32 - v.toNat := by
      rw [BitVec.toNat_neg, Nat.mod_eq_of_lt (by omega)]
    rw [if_neg (by omega)] at hint
    have habs : v.toInt.natAbs = 2 ^ 32 - v.toNat := by omega
    have hslt' : (-v).slt 0#32 = decide (v.toInt = -2 ^ 31) := by
      rw [slt_zero_eq, decide_eq_decide, BitVec.toInt_eq_toNat_cond, hminus]
      split
      · omega
      · omega
    simp only [hslt, hneg, decide_true, if_true, hslt', decide_eq_true_eq]
    by_cases hmin : v.toInt = -2 ^ 31
    · simp [hmin]
    · rw [if_neg hmin, if_neg hmin, hminus, habs, numeral, if_neg (by omega),
        writeDigits_eq (by omega), List.reverse_append, List.map_reverse]
      rfl
  · have hsmall : v.toNat < 2 ^ 31 := by
      by_contra hge
      rw [if_neg (by omega)] at hint
      omega
    rw [if_pos (by omega)] at hint
    have habs : v.toInt.natAbs = v.toNat := by omega
    have hfalse : decide (v.toInt < 0) = false := decide_eq_false hneg
    rw [if_neg hneg, habs, numeral, if_neg hne]
    simp only [hslt, hfalse, Bool.false_eq_true, if_false, List.append_nil]
    rw [writeDigits_eq (by omega), List.map_reverse]

/-- The array `temp` holds the eight lowest digits, highest first. -/
theorem hexTemp_eq (v : BitVec 32) :
    hexTemp v false = (Digits.lowDigits 16 8 v.toNat).reverse.map digitChar := by
  have hdigit : ∀ d, d < 16 → (hexDigits false).getD d 0 = digitChar d := by decide
  refine List.ext_getElem (by simp [hexTemp]) fun i hi _ => ?_
  have hi8 : i < 8 := by simpa [hexTemp] using hi
  have hmask : (0xF#32).toNat = 2 ^ 4 - 1 := rfl
  have hnib : ((v >>> (4 * (7 - i))) &&& 0xF#32).toNat = v.toNat / 16 ^ (7 - i) % 16 := by
    rw [BitVec.toNat_and, BitVec.toNat_ushiftRight, Nat.shiftRight_eq_div_pow, hmask,
      Nat.and_two_pow_sub_one_eq_mod, Nat.pow_mul]
  simp only [hexTemp, Digits.lowDigits, List.getElem_map, List.getElem_range,
    List.getElem_reverse, List.length_map, List.length_range]
  rw [hnib, hdigit _ (Nat.mod_lt _ (by decide))]

/-- Leaving out the leading `0` characters is leaving out the leading zero digits. -/
theorem dropWhile_digitChars {ds : List Nat} (h : ∀ d ∈ ds, d < 16) :
    (ds.map digitChar).dropWhile (· = 0x30) = (ds.dropWhile (· = 0)).map digitChar := by
  induction ds with
  | nil => rfl
  | cons d ds ih =>
      have hd := digitChar_eq_zero_iff (h d List.mem_cons_self)
      rw [List.map_cons]
      by_cases h0 : d = 0
      · rw [List.dropWhile_cons_of_pos (by simpa using hd.mpr h0),
          List.dropWhile_cons_of_pos (by simpa using h0)]
        exact ih fun e he => h e (List.mem_cons_of_mem d he)
      · rw [List.dropWhile_cons_of_neg (by simpa using mt hd.mp h0),
          List.dropWhile_cons_of_neg (by simpa using h0), List.map_cons]

/-- `uint_to_hex` writes the hexadecimal numeral. -/
theorem uintToHex_eq_numeral (v : BitVec 32) : uintToHex v false = numeral 16 v.toNat := by
  by_cases h0 : v = 0#32
  · subst h0
    rfl
  have hne := toNat_ne_zero h0
  have hdrop := Digits.dropWhile_lowDigits (b := 16) (m := 8) (by decide) v.isLt
  have hlt : ∀ d ∈ (Digits.lowDigits 16 8 v.toNat).reverse, d < 16 := fun d hd =>
    Digits.lowDigits_lt (by decide) (List.mem_reverse.mp hd)
  rw [uintToHex, if_neg h0, numeral, if_neg hne, hexTemp_eq, dropWhile_digitChars hlt, hdrop]

end MapleKernel.Stdio
