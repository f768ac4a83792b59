/-
  File:      Stdio/NumberText.lean
  Subject:   WHAT THE NUMBER PRINTERS PRINT.

  * `printHexF_output`, `printBinary_output`: the digits of the number in groups of four, counted
    from the right. Each printer writes its text in two parts or cuts it from a fixed one; both
    are the one text `grouped`.
  * `printHexFStored` is `print_hex_f` with the array its digits are put in.
  * `printIntF_pads_iff`: which negative numbers are padded to the width that is asked for.
-/
import MapleKernel.Lib.Grouped
import MapleKernel.Stdio.BitHexString

namespace MapleKernel.Stdio

open Loops Grouping Digits

/-- The `w` lowest digits of `n` in base `b`, highest first. -/
def lowNumeral (b w n : Nat) : List UInt8 := (lowDigits b w n).reverse.map digitChar

@[simp] theorem lowNumeral_length (b w n : Nat) : (lowNumeral b w n).length = w := by
  simp [lowNumeral]

theorem lowNumeral_add (b w k n : Nat) :
    lowNumeral b (w + k) n = lowNumeral b k (n / b ^ w) ++ lowNumeral b w n := by
  rw [lowNumeral, lowDigits_add, List.reverse_append, List.map_append]
  rfl

theorem space_not_mem_lowNumeral {b : Nat} (hb : 0 < b) (hb' : b ≤ 16) (w n : Nat) :
    0x20 ∉ lowNumeral b w n := by
  intro hmem
  obtain ⟨d, hd, hchar⟩ := List.mem_map.mp hmem
  have hlt : d < b := lowDigits_lt hb (List.mem_reverse.mp hd)
  exact digitChar_ne_space (by omega) hchar

/-! ## 1. Hexadecimal -/

/-- `uint_to_hex` into an array of `size` bytes: the digits and a NUL from the index 0 upwards. -/
def uintToHexStored (size : Nat) (value : BitVec 32) (uppercase : Bool) :
    Except Failure (List UInt8) :=
  let text := uintToHex value uppercase
  if text.length < size then .ok text else .error .outOfBounds

/-- `print_hex_f` with its `output_array`. -/
def printHexFStored (n : BitVec 32) (numberOfHex : Nat) : Except Failure (List UInt8) :=
  if numberOfHex ≤ 16 then do
    let hexToPrint := max8 (hexSize n) numberOfHex
    let text ← uintToHexStored (hexToPrint + 1) n false
    if hexSize n = text.length then
      let zeros := if hexToPrint < text.length then 0
        else (hexToPrint + 2 ^ 8 - text.length) % 2 ^ 8
      .ok ([0x30, 0x78] ++ hexZeros hexToPrint zeros ++ hexBody hexToPrint zeros text)
    else .error .assertFailed
  else .error .assertFailed

theorem max8_eq {a b : Nat} (ha : a < 2 ^ 8) (hb : b < 2 ^ 8) : max8 a b = max a b := by
  rw [max8, Nat.mod_eq_of_lt ha, Nat.mod_eq_of_lt hb]
  split
  · omega
  · omega

/-- The array has room for the text. -/
theorem printHexFStored_eq (v : BitVec 32) {n : Nat} (h : n ≤ 16) :
    printHexFStored v n = printHexF v n := by
  have hsize := hexSize_range v
  have hroom : (uintToHex v false).length < max8 (hexSize v) n + 1 := by
    rw [← hexSize_eq_length, max8_eq (by omega) (by omega)]
    omega
  have hstored : uintToHexStored (max8 (hexSize v) n + 1) v false = .ok (uintToHex v false) :=
    if_pos hroom
  rw [printHexFStored, printHexF, if_pos h, if_pos h]
  simp only [hstored]
  rfl

/-- **The two loops of `print_hex_f` write one grouped text.** -/
theorem hexLoops_eq_grouped {hexToPrint zeros : Nat} {text : List UInt8} (hne : text ≠ [])
    (hlen : hexToPrint = zeros + text.length) (hle : hexToPrint < 2 ^ 8) :
    hexZeros hexToPrint zeros ++ hexBody hexToPrint zeros text
      = grouped 0x20 4 (List.replicate zeros 0x30 ++ text) := by
  have hpos : 0 < text.length := List.length_pos_iff.mpr hne
  rw [grouped_eq_flatMap 0x20 4 _ 0, List.length_append, List.length_replicate, List.range_add,
    List.flatMap_append, List.flatMap_map]
  congr 1
  · -- a zero is never the last digit
    refine List.flatMap_congr fun i hi => ?_
    have hi' : i < zeros := List.mem_range.mp hi
    have hleft : (hexToPrint + 2 ^ 8 - (i + 1)) % 2 ^ 8 = zeros + text.length - 1 - i := by omega
    have hget : (List.replicate zeros 0x30 ++ text).getD i 0 = 0x30 := by
      rw [List.getD_append _ _ _ _ (by simpa using hi'), List.getD_replicate _ hi']
    have hmore : zeros + text.length - 1 - i ≠ 0 := by omega
    simp only [hleft, hget, hmore, ne_eq, not_false_eq_true, true_and]
  · refine List.flatMap_congr fun i hi => ?_
    have hi' : i < text.length := List.mem_range.mp hi
    have hj : (hexToPrint + 2 ^ 9 - i - zeros) % 2 ^ 8 = text.length - i := by omega
    have hget : (List.replicate zeros 0x30 ++ text).getD (zeros + i) 0 = text.getD i 0 := by
      rw [List.getD_append_right _ _ _ _ (by simp), List.length_replicate, Nat.add_sub_cancel_left]
    have hleft : zeros + text.length - 1 - (zeros + i) = text.length - 1 - i := by omega
    have hint : ((text.length - i : Nat) : Int) - 1 = ((text.length - 1 - i : Nat) : Int) := by
      omega
    have htmod : ∀ q : Nat, ((q : Int).tmod 4 = 0 ↔ q % 4 = 0) := by
      intro q
      have e : (q : Int).tmod 4 = ((q % 4 : Nat) : Int) := rfl
      rw [e]
      omega
    have hlast : i ≠ text.length - 1 ↔ text.length - 1 - i ≠ 0 := by omega
    simp only [hj, hget, hleft, hint, htmod, hlast, and_comm]

/-- What `print_hex_f` prints, as one grouped text. -/
theorem printHexF_eq_grouped (v : BitVec 32) {n : Nat} (h : n ≤ 16) :
    printHexF v n = .ok ([0x30, 0x78]
      ++ grouped 0x20 4 (List.leftpad n 0x30 (numeral 16 v.toNat))) := by
  have hsize := hexSize_range v
  have hmax : max8 (hexSize v) n = max (hexSize v) n := max8_eq (by omega) (by omega)
  have hlen := hexSize_eq_length v
  rw [uintToHex_eq_numeral] at hlen
  have hne : numeral 16 v.toNat ≠ [] := List.length_pos_iff.mp numeral_length_pos
  have hzeros : (if max (hexSize v) n < (numeral 16 v.toNat).length then 0
      else (max (hexSize v) n + 2 ^ 8 - (numeral 16 v.toNat).length) % 2 ^ 8)
      = n - (numeral 16 v.toNat).length := by
    rw [← hlen, if_neg (by omega)]
    omega
  rw [printHexF, if_pos h]
  simp only [hmax, uintToHex_eq_numeral, if_pos hlen, hzeros, List.append_assoc]
  rw [hexLoops_eq_grouped hne (by omega) (by omega)]
  rfl

/-- **`print_hex_f` prints `0x` and the digits in groups of four.** The digits are padded with
    `0` to the width that is asked for; no assertion fails and the array is large enough. -/
theorem printHexF_output (v : BitVec 32) {n : Nat} (h : n ≤ 16) :
    ∃ gs, IsGrouping 4 (List.leftpad n 0x30 (numeral 16 v.toNat)) gs
      ∧ printHexFStored v n = .ok ([0x30, 0x78] ++ [0x20].intercalate gs)
      ∧ ([0x20].intercalate gs).head? ≠ some 0x20
      ∧ ([0x20].intercalate gs).getLast? ≠ some 0x20 := by
  obtain ⟨gs, hgs, htext⟩ :=
    grouped_eq_intercalate 0x20 (by decide : 0 < 4) (List.leftpad n 0x30 (numeral 16 v.toNat))
  have hspace : 0x20 ∉ List.leftpad n 0x30 (numeral 16 v.toNat) := by
    intro hmem
    rcases List.mem_append.mp hmem with hzero | hdigit
    · exact absurd (List.eq_of_mem_replicate hzero) (by decide)
    · exact space_not_mem_numeral (by decide) (by decide) _ hdigit
  refine ⟨gs, hgs, ?_, ?_, ?_⟩
  · rw [printHexFStored_eq v h, printHexF_eq_grouped v h, htext]
  · rw [← htext, head?_grouped]
    exact fun hhead => hspace (List.mem_of_mem_head? hhead)
  · rw [← htext, getLast?_grouped]
    exact fun hlast => hspace (List.mem_of_getLast? hlast)

theorem printHexF_output_wide : ∃ gs,
    IsGrouping 4 (List.leftpad 6 0x30 (numeral 16 (0xabc#32).toNat)) gs
      ∧ printHexFStored 0xabc#32 6 = .ok ([0x30, 0x78] ++ [0x20].intercalate gs)
      ∧ ([0x20].intercalate gs).head? ≠ some 0x20
      ∧ ([0x20].intercalate gs).getLast? ≠ some 0x20 :=
  printHexF_output 0xabc#32 (by decide)

/-! ## 2. Binary -/

/-- The number a list of binary digits denotes. -/
def binaryValue (digits : List UInt8) : Nat :=
  Nat.ofDigits 2 (digits.reverse.map fun c => c.toNat - 0x30)

/-- `getSpacelessBitString` writes the 32 lowest digits. -/
theorem getSpacelessBitString_eq (v : BitVec 32) :
    getSpacelessBitString v = lowNumeral 2 32 v.toNat := by
  have hchar : ∀ d, d < 2 → UInt8.ofNat (0x30 + d) = digitChar d := by decide
  refine List.ext_getElem (by simp [getSpacelessBitString]) fun i hi _ => ?_
  have hi' : i < 32 := by simpa [getSpacelessBitString] using hi
  have hmask : (1#32).toNat = 2 ^ 1 - 1 := rfl
  have hbit : ((v >>> (31 - i)) &&& 1#32).toNat = v.toNat / 2 ^ (31 - i) % 2 := by
    rw [BitVec.toNat_and, BitVec.toNat_ushiftRight, Nat.shiftRight_eq_div_pow, hmask,
      Nat.and_two_pow_sub_one_eq_mod]
  simp only [getSpacelessBitString, lowNumeral, lowDigits, List.getElem_map, List.getElem_range,
    List.getElem_reverse, List.length_map, List.length_range]
  rw [hbit, hchar _ (Nat.mod_lt _ (by decide))]

/-- **`addSpacesEvery4bits` groups 32 digits.** After `p` turns the output and what is to come
    make the whole text; before every fifth position a separator is to come. -/
theorem addSpacesEvery4bits_eq_grouped {bits : List UInt8} (hlen : bits.length = 32) :
    addSpacesEvery4bits bits = grouped 0x20 4 bits := by
  let toCome : Nat → List UInt8 → List UInt8 := fun p rest =>
    if (p + 1) % 5 = 0 ∧ p < 39 then 0x20 :: grouped 0x20 4 rest else grouped 0x20 4 rest
  have hturns := forRange_inv (s := ((0, []) : Nat × List UInt8)) (f := addSpacesStep bits)
    (P := fun p s => s.1 = p - p / 5 ∧ s.2 ++ toCome p (bits.drop s.1) = grouped 0x20 4 bits) 39
    ⟨rfl, rfl⟩ ?_
  · obtain ⟨hindex, htext⟩ := hturns
    rw [hindex] at htext
    have hend : bits.drop (39 - 39 / 5) = [] := List.drop_eq_nil_iff.mpr (by omega)
    rw [hend] at htext
    rw [addSpacesEvery4bits]
    simpa [toCome, grouped] using htext
  · intro p s hp hinv
    obtain ⟨hindex, htext⟩ := hinv
    by_cases hsep : (p + 1) % 5 = 0
    · have hnext : ¬ ((p + 1 + 1) % 5 = 0 ∧ p + 1 < 39) := by omega
      rw [addSpacesStep, if_pos hsep]
      refine ⟨by simp only; omega, ?_⟩
      simp only [toCome, if_pos (And.intro hsep hp)] at htext
      simp only [toCome, if_neg hnext]
      rw [← htext, List.append_assoc]
      rfl
    · have hlt : s.1 < bits.length := by omega
      have hdrop : bits.drop s.1 = bits[s.1] :: bits.drop (s.1 + 1) := List.drop_eq_getElem_cons hlt
      -- the digit is the last of its group exactly before a separator
      have hgroup : (bits.drop (s.1 + 1) ≠ [] ∧ (bits.drop (s.1 + 1)).length % 4 = 0)
          ↔ ((p + 1 + 1) % 5 = 0 ∧ p + 1 < 39) := by
        rw [Ne, List.drop_eq_nil_iff, List.length_drop, hlen, hindex]
        omega
      rw [addSpacesStep, if_neg hsep]
      refine ⟨by simp only; omega, ?_⟩
      simp only [toCome, if_neg (fun h => hsep h.1 : ¬ ((p + 1) % 5 = 0 ∧ p < 39)), hdrop,
        grouped, hgroup] at htext
      have hget : bits.getD s.1 0 = bits[s.1] := List.getD_eq_getElem _ _ hlt
      simp only [toCome, hget]
      rw [← htext, List.append_assoc]
      congr 1
      split
      · rfl
      · rfl

/-- What `print_binary_var_no_newline` prints, as one grouped text. -/
theorem printBinary_eq_grouped (v : BitVec 32) {n : Nat} (h : n ≤ 255) :
    printBinaryVarNoNewline v n
      = grouped 0x20 4 (lowNumeral 2 (min 32 (max (max (Nat.size v.toNat) n) 1)) v.toNat) := by
  have hrange := binarySize_range v
  have hsize := binarySize_eq v
  have hmax : max8 (binarySize v) n = max (binarySize v) n := max8_eq (by omega) (by omega)
  have hwidth : min 32 (max (max (Nat.size v.toNat) n) 1) = min 32 (max (binarySize v) n) := by
    omega
  rw [printBinaryVarNoNewline, getSpacelessBitString_eq,
    addSpacesEvery4bits_eq_grouped (lowNumeral_length 2 32 v.toNat), hwidth]
  simp only [hmax]
  by_cases hbig : max (binarySize v) n ≥ 32
  · rw [if_pos hbig, Nat.min_eq_left hbig, List.drop_zero]
  · -- the text of the lowest digits is the end of the whole text
    obtain ⟨w, hw⟩ : ∃ w, w = max (binarySize v) n := ⟨_, rfl⟩
    rw [← hw] at hbig ⊢
    have h32 : 32 = w + (32 - w) := by omega
    have hsplit := lowNumeral_add 2 w (32 - w) v.toNat
    rw [← h32] at hsplit
    rw [if_neg hbig, Nat.min_eq_right (by omega), hsplit]
    refine drop_grouped 0x20 4 _ _ ?_
    rw [List.length_append, lowNumeral_length, lowNumeral_length]
    split
    · omega
    · omega

/-- Reading digits back. -/
theorem binaryValue_lowNumeral (w n : Nat) : binaryValue (lowNumeral 2 w n) = n % 2 ^ w := by
  have hback : ∀ d, d < 2 → (digitChar d).toNat - 0x30 = d := by decide
  have hmap : (lowDigits 2 w n).map (fun d => (digitChar d).toNat - 0x30)
      = (lowDigits 2 w n).map fun d => d :=
    List.map_congr_left fun d hd => hback d (lowDigits_lt (by decide) hd)
  rw [List.map_id'] at hmap
  rw [binaryValue, lowNumeral, ← List.map_reverse, List.reverse_reverse, List.map_map,
    ← ofDigits_lowDigits]
  exact congrArg _ hmap

/-- **`print_binary_var_no_newline` prints the lowest digits in groups of four**, as many as the
    number or the caller needs, and reading them back gives the number. -/
theorem printBinary_output (v : BitVec 32) {n : Nat} (h : n ≤ 255) :
    ∃ gs, IsGrouping 4 (lowNumeral 2 (min 32 (max (max (Nat.size v.toNat) n) 1)) v.toNat) gs
      ∧ printBinaryVarNoNewline v n = [0x20].intercalate gs
      ∧ (printBinaryVarNoNewline v n).head? ≠ some 0x20
      ∧ (printBinaryVarNoNewline v n).getLast? ≠ some 0x20
      ∧ binaryValue ((printBinaryVarNoNewline v n).filter (· ≠ 0x20)) = v.toNat := by
  obtain ⟨w, hw⟩ : ∃ w, w = min 32 (max (max (Nat.size v.toNat) n) 1) := ⟨_, rfl⟩
  have hprint := printBinary_eq_grouped v h
  rw [← hw] at hprint ⊢
  obtain ⟨gs, hgs, htext⟩ :=
    grouped_eq_intercalate 0x20 (by decide : 0 < 4) (lowNumeral 2 w v.toNat)
  have hspace : 0x20 ∉ lowNumeral 2 w v.toNat :=
    space_not_mem_lowNumeral (by decide) (by decide) w _
  have hfits : v.toNat < 2 ^ w := by
    have h32 : Nat.size v.toNat ≤ 32 := Nat.size_le.mpr v.isLt
    exact Nat.size_le.mp (by omega)
  refine ⟨gs, hgs, hprint.trans htext, ?_, ?_, ?_⟩
  · rw [hprint, head?_grouped]
    exact fun hhead => hspace (List.mem_of_mem_head? hhead)
  · rw [hprint, getLast?_grouped]
    exact fun hlast => hspace (List.mem_of_getLast? hlast)
  · rw [hprint, filter_grouped 0x20 4 hspace, binaryValue_lowNumeral, Nat.mod_eq_of_lt hfits]

theorem printBinary_output_padded : ∃ gs,
    IsGrouping 4 (lowNumeral 2 (min 32 (max (max (Nat.size (5#32).toNat) 6) 1)) (5#32).toNat) gs
      ∧ printBinaryVarNoNewline 5#32 6 = [0x20].intercalate gs
      ∧ (printBinaryVarNoNewline 5#32 6).head? ≠ some 0x20
      ∧ (printBinaryVarNoNewline 5#32 6).getLast? ≠ some 0x20
      ∧ binaryValue ((printBinaryVarNoNewline 5#32 6).filter (· ≠ 0x20)) = (5#32).toNat :=
  printBinary_output 5#32 (by decide)

/-! ## 3. Decimal -/

/-- The decimal text of an integer. -/
def decimalText (z : Int) : List UInt8 :=
  if z < 0 then 0x2D :: numeral 10 z.natAbs else numeral 10 z.natAbs

/-- What is printed is `text` with spaces put in, to a width of at least `pad`. -/
def PadsTo (pad : Nat) (text : List UInt8) (printed : Except Failure (List UInt8)) : Prop :=
  ∃ out, printed = .ok out ∧ out.length = max pad text.length ∧ out.filter (· ≠ 0x20) = text

theorem filter_spaces (k : Nat) {text : List UInt8} (h : 0x20 ∉ text) :
    (List.replicate k 0x20 ++ text).filter (· ≠ 0x20) = text := by
  have hnone : (List.replicate k 0x20).filter (· ≠ (0x20 : UInt8)) = [] :=
    List.filter_eq_nil_iff.mpr fun c hc => by simp [List.eq_of_mem_replicate hc]
  have hall : text.filter (· ≠ 0x20) = text :=
    List.filter_eq_self.mpr fun c hc => by
      have hne : c ≠ 0x20 := fun e => h (e ▸ hc)
      simpa using hne
  rw [List.filter_append, hnone, hall, List.nil_append]

/-- Spaces in front of a text, up to the width. -/
theorem padsTo_of_morePad {pad : Nat} (hpad : pad ≤ 16) {text : List UInt8}
    (hlen : text.length < 2 ^ 15) (hspace : 0x20 ∉ text) :
    PadsTo pad text (.ok (morePad pad text.length ++ text)) := by
  rw [morePad_eq (by omega) hlen]
  refine ⟨_, rfl, ?_, filter_spaces _ hspace⟩
  rw [List.length_append, List.length_replicate]
  omega

theorem printUintF_pads (v : BitVec 32) {n : Nat} (h : n ≤ 16) :
    PadsTo n (numeral 10 v.toNat) (printUintF v n) := by
  have hlen := uitoa_length v
  rw [printUintF, if_pos h, uitoa_eq_numeral]
  rw [uitoa_eq_numeral] at hlen
  exact padsTo_of_morePad h (by omega) (space_not_mem_numeral (by decide) (by decide) _)

/-- A number that is not negative. -/
theorem printIntF_of_nonneg {v : BitVec 32} (hv : 0 ≤ v.toInt) {n : Nat} (h : n ≤ 16) :
    PadsTo n (decimalText v.toInt) (printIntF v n) := by
  have hslt : v.slt 0#32 = false := by
    rw [slt_zero_eq]
    exact decide_eq_false (by omega)
  have htext : itoa v = decimalText v.toInt := by
    rw [itoa_eq, decimalText, if_neg (by omega), if_neg (by omega)]
  have hlen := itoa_length v
  have hspace : 0x20 ∉ decimalText v.toInt := by
    rw [decimalText, if_neg (by omega)]
    exact space_not_mem_numeral (by decide) (by decide) _
  rw [printIntF, if_pos h, hslt, if_neg (by decide), htext]
  rw [htext] at hlen
  exact padsTo_of_morePad h (by omega) hspace

/-- **A negative number**: the sign, then spaces that count it once more, then the digits. -/
theorem printIntF_of_neg {v : BitVec 32} (hv : v.toInt < 0) {n : Nat} (h : n ≤ 16) :
    printIntF v n = .ok (0x2D :: (List.replicate (n - ((itoa v).length + 1)) 0x20
      ++ if v.toInt = -2 ^ 31 then [] else numeral 10 v.toInt.natAbs)) := by
  have hslt : v.slt 0#32 = true := by
    rw [slt_zero_eq]
    exact decide_eq_true hv
  have hlen := itoa_length v
  have hpad := @morePad_eq n ((itoa v).length + 1) (by omega) (by omega)
  rw [Nat.cast_add, Nat.cast_one] at hpad
  rw [printIntF, if_pos h, hslt, if_pos rfl, hpad, itoa_eq, if_pos hv]
  rfl

/-- The most negative number is printed without its digits. -/
theorem printIntF_min {v : BitVec 32} (hmin : v.toInt = -2 ^ 31) {n : Nat} (h : n ≤ 16) :
    ¬ PadsTo n (decimalText v.toInt) (printIntF v n) := by
  rintro ⟨out, hout, -, hfilter⟩
  have hneg : v.toInt < 0 := by omega
  have htext : decimalText v.toInt = 0x2D :: numeral 10 v.toInt.natAbs := if_pos hneg
  have hnone := @filter_spaces (n - ((itoa v).length + 1)) [] (by simp)
  have hpos : 0 < (numeral 10 v.toInt.natAbs).length := numeral_length_pos
  rw [printIntF_of_neg hneg h, if_pos hmin] at hout
  obtain rfl := Except.ok.inj hout
  rw [List.filter_cons_of_pos (by decide), hnone, htext] at hfilter
  rw [← (List.cons.inj hfilter).2] at hpos
  exact absurd hpos (by decide)

/-- Any other negative number misses a column, unless its text fills the width by itself. -/
theorem printIntF_pads_of_neg {v : BitVec 32} (hneg : v.toInt < 0) (hmin : v.toInt ≠ -2 ^ 31)
    {n : Nat} (h : n ≤ 16) : PadsTo n (decimalText v.toInt) (printIntF v n)
      ↔ n ≤ (decimalText v.toInt).length := by
  have htext : decimalText v.toInt = 0x2D :: numeral 10 v.toInt.natAbs := if_pos hneg
  have hitoa : itoa v = decimalText v.toInt := by
    rw [itoa_eq, htext, if_pos hneg, if_neg hmin]
  have hprint := printIntF_of_neg hneg h
  rw [if_neg hmin, hitoa] at hprint
  have hwidth : (0x2D :: (List.replicate (n - ((decimalText v.toInt).length + 1)) (0x20 : UInt8)
      ++ numeral 10 v.toInt.natAbs)).length
      = n - ((decimalText v.toInt).length + 1) + (decimalText v.toInt).length := by
    rw [List.length_cons, List.length_append, List.length_replicate, htext, List.length_cons]
    omega
  constructor
  · rintro ⟨out, hout, hlen, -⟩
    rw [hprint] at hout
    obtain rfl := Except.ok.inj hout
    rw [hwidth] at hlen
    by_contra hlong
    omega
  · intro hn
    refine ⟨_, hprint, ?_, ?_⟩
    · rw [hwidth]
      omega
    · rw [List.filter_cons_of_pos (by decide),
        filter_spaces _ (space_not_mem_numeral (by decide) (by decide) _), htext]

/-- **Which padded decimal widths are right.** Unsigned numbers always fill their column; a
    negative one only where its text fills the column by itself, and the most negative number
    is printed without its digits. -/
theorem printIntF_pads_iff (v : BitVec 32) {n : Nat} (h : n ≤ 16) :
    (PadsTo n (decimalText v.toInt) (printIntF v n)
        ↔ 0 ≤ v.toInt ∨ v.toInt ≠ -2 ^ 31 ∧ n ≤ (decimalText v.toInt).length)
      ∧ PadsTo n (numeral 10 v.toNat) (printUintF v n) := by
  refine ⟨?_, printUintF_pads v h⟩
  by_cases hv : 0 ≤ v.toInt
  · exact ⟨fun _ => Or.inl hv, fun _ => printIntF_of_nonneg hv h⟩
  by_cases hmin : v.toInt = -2 ^ 31
  · refine ⟨fun hpads => absurd hpads (printIntF_min hmin h), fun hcond => ?_⟩
    rcases hcond with h0 | ⟨hne, -⟩
    · exact absurd h0 hv
    · exact absurd hmin hne
  · rw [printIntF_pads_of_neg (by omega) hmin h]
    refine ⟨fun hn => Or.inr ⟨hmin, hn⟩, fun hcond => ?_⟩
    rcases hcond with h0 | ⟨-, hn⟩
    · exact absurd h0 hv
    · exact hn

theorem printIntF_pads_iff_minus :
    (PadsTo 4 (decimalText (-5#32).toInt) (printIntF (-5#32) 4)
        ↔ 0 ≤ (-5#32).toInt ∨ (-5#32).toInt ≠ -2 ^ 31
          ∧ 4 ≤ (decimalText (-5#32).toInt).length)
      ∧ PadsTo 4 (numeral 10 (-5#32).toNat) (printUintF (-5#32) 4) :=
  printIntF_pads_iff (-5#32) (by decide)

/-- -5 in four columns takes three. -/
theorem printIntF_narrow : ¬ ∀ (v : BitVec 32) (n : Nat), n ≤ 16 →
    PadsTo n (decimalText v.toInt) (printIntF v n)
      ∧ PadsTo n (numeral 10 v.toNat) (printUintF v n) := by
  intro hall
  obtain ⟨⟨out, hout, hlen, -⟩, -⟩ := hall (-5#32) 4 (by decide)
  have hthree : printIntF (-5#32) 4 = .ok [0x2D, 0x20, 0x35] := rfl
  rw [hthree] at hout
  obtain rfl := Except.ok.inj hout
  rw [List.length_cons, List.length_cons, List.length_cons, List.length_nil] at hlen
  omega

end MapleKernel.Stdio
