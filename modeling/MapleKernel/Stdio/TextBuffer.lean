/-
  File:      Stdio/TextBuffer.lean
  Subject:   `itoa` AND `uitoa` ON THEIR BUFFER (`string_helper.c`): digits are stored lowest
             first, then the sign, a NUL, and the swap loop turns the text round.

  * `itoaBuffer`, `uitoaBuffer` -- from the source, on a buffer with any content;
  * `itoaBuffer_eq`, `uitoaBuffer_eq` -- they store the texts of `itoa` and `uitoa`, a NUL, and
    nothing else, and return the length of the text;
  * `IsDecimalText` -- the canonical decimal text of an integer, read back by `readDecimal`;
  * `itoa_canonical_iff` -- `uitoa` always writes it, `itoa` for all but the most negative number,
    whose negation is itself: of that one only the sign is written.
-/
import MapleKernel.Lib.Buffer
import MapleKernel.Stdio.StringHelper

namespace MapleKernel.Stdio

open Buffers

/-! ## 1. The functions -/

/-- What a `char *buffer` points at, by offset. -/
abbrev CharBuffer := Nat → UInt8

/-- `while (value > 0) { buffer[pos++] = '0' + (value % 10); value /= 10; }`. -/
def storeDigits (value : Nat) (buffer : CharBuffer) (pos : Nat) : Nat × CharBuffer :=
  if value > 0 then
    storeDigits (value / 10) (Function.update buffer pos (UInt8.ofNat (0x30 + value % 10))) (pos + 1)
  else (pos, buffer)
termination_by value

/-- From `buffer[pos] = '\0'` to the end: `end` is a `size_t`. -/
def terminateAndReverse (start pos : Nat) (buffer : CharBuffer) : Nat × CharBuffer :=
  let buffer := Function.update buffer pos 0
  let fin := (pos + 2 ^ 32 - 1) % 2 ^ 32
  (pos, swapLoop buffer start fin)

/-- `itoa`. The negation wraps, and the loop runs while the `int` is positive. -/
def itoaBuffer (value : BitVec 32) (buffer : CharBuffer) : Nat × CharBuffer :=
  let pos := 0
  if value = 0#32 then (pos + 1, Function.update (Function.update buffer pos 0x30) (pos + 1) 0)
  else
    let negative := value.slt 0#32
    let value := if negative then -value else value
    let start := pos
    let (pos, buffer) := storeDigits value.toInt.toNat buffer pos
    let (pos, buffer) :=
      if negative then (pos + 1, Function.update buffer pos 0x2D) else (pos, buffer)
    terminateAndReverse start pos buffer

/-- `uitoa`. -/
def uitoaBuffer (value : BitVec 32) (buffer : CharBuffer) : Nat × CharBuffer :=
  let pos := 0
  if value = 0#32 then (pos + 1, Function.update (Function.update buffer pos 0x30) (pos + 1) 0)
  else
    let start := pos
    let (pos, buffer) := storeDigits value.toNat buffer pos
    terminateAndReverse start pos buffer

/-- A text, stored with its NUL, and its length returned. -/
def written (buffer : CharBuffer) (text : List UInt8) : Nat × CharBuffer :=
  (text.length, overlay buffer 0 (text ++ [0]))

/-! ## 2. What they store -/

section Stores

variable (buffer : CharBuffer)

theorem storeDigits_eq (value pos : Nat) (cs : List UInt8) :
    storeDigits value (overlay buffer pos cs) (pos + cs.length) =
      (pos + (cs ++ (Nat.digits 10 value).map digitChar).length,
        overlay buffer pos (cs ++ (Nat.digits 10 value).map digitChar)) := by
  induction value using Nat.strong_induction_on generalizing cs with
  | _ value ih =>
      rw [storeDigits]
      split
      next hpos =>
        have hdigit : UInt8.ofNat (0x30 + value % 10) = digitChar (value % 10) := by
          rw [digitChar, if_pos (Nat.mod_lt _ (by decide))]
        have hstep := ih (value / 10) (Nat.div_lt_self hpos (by decide))
          (cs ++ [digitChar (value % 10)])
        rw [List.length_append, List.length_singleton, ← Nat.add_assoc] at hstep
        rw [hdigit, overlay_update, hstep, Nat.digits_def' (by decide) hpos, List.map_cons,
          List.append_assoc, List.singleton_append]
      next hzero =>
        obtain rfl : value = 0 := by omega
        simp

/-- A text that was stored from its last byte on is terminated and turned round. -/
theorem terminateAndReverse_eq {cs : List UInt8} (hne : cs ≠ []) (hlen : cs.length < 2 ^ 32) :
    terminateAndReverse 0 cs.length (overlay buffer 0 cs) = written buffer cs.reverse := by
  have hpos : 0 < cs.length := List.length_pos_iff.mpr hne
  have hfin : (cs.length + 2 ^ 32 - 1) % 2 ^ 32 = cs.length - 1 := by omega
  have hnul := overlay_update buffer 0 cs 0
  rw [Nat.zero_add] at hnul
  rw [terminateAndReverse, hfin, hnul, swapLoop_overlay buffer hne, written, List.length_reverse]

theorem writtenZero :
    (0 + 1, Function.update (Function.update buffer 0 0x30) (0 + 1) 0) = written buffer [0x30] := by
  have hzero := overlay_update buffer 0 [] 0x30
  have hnul := overlay_update buffer 0 [0x30] 0
  rw [overlay_nil] at hzero
  rw [written]
  exact Prod.ext rfl (hnul ▸ hzero ▸ rfl)

/-- The digits of a number, lowest first. -/
def digitTexts (n : Nat) : List UInt8 := (Nat.digits 10 n).map digitChar

theorem digitTexts_ne_nil {n : Nat} (h : n ≠ 0) : digitTexts n ≠ [] := by
  rw [digitTexts, ne_eq, List.map_eq_nil_iff]
  exact Nat.digits_ne_nil_iff_ne_zero.mpr h

theorem reverse_digitTexts {n : Nat} (h : n ≠ 0) : (digitTexts n).reverse = numeral 10 n := by
  rw [digitTexts, numeral, if_neg h, List.map_reverse]

theorem digitTexts_length {n : Nat} (h : n < 2 ^ 32) : (digitTexts n).length ≤ 10 := by
  by_cases h0 : n = 0
  · subst h0
    decide
  · rw [← List.length_reverse, reverse_digitTexts h0]
    exact numeral_length_le (by decide) (by decide) (by omega)

theorem storeDigits_start (value : Nat) :
    storeDigits value buffer 0 = ((digitTexts value).length, overlay buffer 0 (digitTexts value)) := by
  have h := storeDigits_eq buffer value 0 []
  simp only [overlay_nil, List.nil_append, List.length_nil, Nat.zero_add] at h
  exact h

/-- **`uitoa` stores its text.** -/
theorem uitoaBuffer_eq (value : BitVec 32) :
    uitoaBuffer value buffer = written buffer (uitoa value) := by
  rw [uitoaBuffer]
  by_cases h0 : value = 0#32
  · subst h0
    exact writtenZero buffer
  have hne := toNat_ne_zero h0
  have hlen := digitTexts_length value.isLt
  simp only [h0, if_false, storeDigits_start]
  rw [terminateAndReverse_eq buffer (digitTexts_ne_nil hne) (by omega), reverse_digitTexts hne,
    uitoa_eq_numeral]

/-- What the loop of `itoa` gets: the amount of the number, but for the most negative one nothing,
    since that is its own negation. -/
theorem toNat_negated (value : BitVec 32) :
    (if value.slt 0#32 then -value else value).toInt.toNat
      = if value.toInt = -2 ^ 31 then 0 else value.toInt.natAbs := by
  have hlt := @BitVec.toInt_lt 32 value
  have hge := @BitVec.le_toInt 32 value
  rw [slt_zero_eq]
  by_cases hneg : value.toInt < 0
  · rw [decide_eq_true hneg, if_pos rfl, BitVec.toInt_neg]
    by_cases hmin : value.toInt = -2 ^ 31
    · rw [if_pos hmin, hmin]
      decide
    · rw [if_neg hmin, Int.bmod_eq_of_le (by omega) (by omega)]
      omega
  · rw [decide_eq_false hneg, if_neg Bool.false_ne_true, if_neg (by omega)]
    omega

/-- **`itoa` stores its text.** -/
theorem itoaBuffer_eq (value : BitVec 32) :
    itoaBuffer value buffer = written buffer (itoa value) := by
  rw [itoaBuffer]
  by_cases h0 : value = 0#32
  · subst h0
    exact writtenZero buffer
  have hint := toInt_ne_zero h0
  have hlt := @BitVec.toInt_lt 32 value
  have hge := @BitVec.le_toInt 32 value
  have hlen : (digitTexts value.toInt.natAbs).length ≤ 10 := digitTexts_length (by omega)
  simp only [h0, if_false, toNat_negated, storeDigits_start]
  rw [itoa_eq, slt_zero_eq]
  by_cases hneg : value.toInt < 0
  · have hsign := fun ds => overlay_update buffer 0 ds 0x2D
    simp only [Nat.zero_add] at hsign
    simp only [hneg, decide_true, if_true, hsign]
    by_cases hmin : value.toInt = -2 ^ 31
    · simp only [hmin, if_true]
      exact @terminateAndReverse_eq buffer [0x2D] (by simp) (by decide)
    · have hback := @terminateAndReverse_eq buffer (digitTexts value.toInt.natAbs ++ [0x2D])
        (by simp) (by simp; omega)
      rw [List.length_append, List.length_singleton, List.reverse_append,
        reverse_digitTexts (by omega)] at hback
      simp only [hmin, if_false]
      exact hback
  · have hmin : value.toInt ≠ -2 ^ 31 := by omega
    simp only [hneg, decide_false, Bool.false_eq_true, if_false, hmin]
    rw [terminateAndReverse_eq buffer (digitTexts_ne_nil (by omega)) (by omega),
      reverse_digitTexts (by omega)]

end Stores

/-! ## 3. Canonical decimal text -/

/-- The integer that a text denotes. -/
def readDecimal : List UInt8 → Int
  | 0x2D :: digits => -(decimalValue digits : Int)
  | digits => decimalValue digits

/-- **The canonical decimal text of `z`**: digits, not none, the first is `0` only if it is the
    only one, with `-` in front exactly for a negative number; and it reads back as `z`. -/
structure IsDecimalText (z : Int) (text : List UInt8) : Prop where
  form : ∃ digits, text = (if z < 0 then [0x2D] else []) ++ digits ∧ digits ≠ [] ∧
    (∀ c ∈ digits, isDigit c = true) ∧ (digits.head? = some 0x30 → digits = [0x30])
  reads : readDecimal text = z

/-- `r` is what a conversion of `z` should leave: the text, its NUL, the rest of the buffer as it
    was; and it returns the length of the text. -/
def WritesDecimal (z : Int) (buffer : CharBuffer) (r : Nat × CharBuffer) : Prop :=
  ∃ text, IsDecimalText z text ∧ r = written buffer text

section Canonical

theorem numeral_isDigit {n : Nat} {c : UInt8} (h : c ∈ numeral 10 n) : isDigit c = true := by
  have hchar : ∀ d < 10, isDigit (digitChar d) = true := by decide
  unfold numeral at h
  split at h
  · rw [List.mem_singleton.mp h]
    rfl
  · obtain ⟨d, hd, rfl⟩ := List.mem_map.mp h
    exact hchar d (Nat.digits_lt_base (by decide) (List.mem_reverse.mp hd))

/-- The first digit is `0` only of the number 0. -/
theorem numeral_head {n : Nat} (h : (numeral 10 n).head? = some 0x30) : numeral 10 n = [0x30] := by
  by_cases hn : n = 0
  · rw [hn]
    rfl
  · have hne : Nat.digits 10 n ≠ [] := Nat.digits_ne_nil_iff_ne_zero.mpr hn
    have hlast := Nat.getLast_digit_ne_zero 10 hn
    have hlt : (Nat.digits 10 n).getLast hne < 10 :=
      Nat.digits_lt_base (by decide) (List.getLast_mem hne)
    rw [numeral, if_neg hn, List.head?_map, List.head?_reverse, List.getLast?_eq_some_getLast hne]
      at h
    exact absurd ((digitChar_eq_zero_iff (by omega)).mp (Option.some.inj h)) hlast

theorem decimalValue_numeral (n : Nat) : decimalValue (numeral 10 n) = n := by
  have hchar : ∀ d < 10, (digitChar d).toNat - 0x30 = d := by decide
  by_cases hn : n = 0
  · rw [hn]
    rfl
  · have hback : (Nat.digits 10 n).map (fun d => (digitChar d).toNat - 0x30) = Nat.digits 10 n := by
      refine List.map_congr_left (fun d hd => ?_) |>.trans (List.map_id _)
      exact hchar d (Nat.digits_lt_base (by decide) hd)
    rw [decimalValue, numeral, if_neg hn, ← List.map_reverse, List.reverse_reverse, List.map_map]
    show Nat.ofDigits 10 ((Nat.digits 10 n).map fun d => (digitChar d).toNat - 0x30) = n
    rw [hback, Nat.ofDigits_digits]

theorem readDecimal_numeral (n : Nat) : readDecimal (numeral 10 n) = n := by
  have hvalue := decimalValue_numeral n
  have hdigit := fun c => @numeral_isDigit n c
  cases hds : numeral 10 n with
  | nil => rw [hds] at hvalue; exact congrArg Nat.cast hvalue
  | cons c cs =>
      rw [hds] at hvalue hdigit
      have hc : c ≠ 0x2D := by
        rintro rfl
        exact absurd (hdigit _ List.mem_cons_self) (by decide)
      unfold readDecimal
      split
      next heq => exact absurd (List.cons.inj heq).1 hc
      · exact congrArg Nat.cast hvalue

/-- A sign in front of the numeral of the amount makes the canonical text. -/
theorem isDecimalText_numeral (z : Int) :
    IsDecimalText z ((if z < 0 then [0x2D] else []) ++ numeral 10 z.natAbs) := by
  refine ⟨⟨numeral 10 z.natAbs, rfl, ?_, fun c => numeral_isDigit, numeral_head⟩, ?_⟩
  · exact List.length_pos_iff.mp numeral_length_pos
  · split
    next hneg =>
      have hvalue := decimalValue_numeral z.natAbs
      show -(decimalValue (numeral 10 z.natAbs) : Int) = z
      omega
    next hpos =>
      rw [List.nil_append, readDecimal_numeral]
      omega

/-- No canonical text is the sign alone. -/
theorem not_isDecimalText_sign (z : Int) : ¬ IsDecimalText z [0x2D] := by
  intro h
  obtain ⟨digits, htext, hne, hdigit, -⟩ := h.form
  split at htext
  · exact hne (List.cons.inj htext).2.symm
  · rw [List.nil_append] at htext
    rw [← htext] at hdigit
    exact absurd (hdigit 0x2D List.mem_cons_self) (by decide)

end Canonical

/-- What is stored tells the text. -/
theorem written_injective (buffer : CharBuffer) {text text' : List UInt8}
    (h : written buffer text = written buffer text') : text = text' := by
  have hlen : text.length = text'.length := congrArg Prod.fst h
  have hcells := congrArg Prod.snd h
  refine List.ext_getElem hlen fun i hi hi' => ?_
  have hcell := congrFun hcells (0 + i)
  simp only [written] at hcell
  rw [overlay_add (by rw [List.length_append]; omega),
    overlay_add (by rw [List.length_append]; omega), List.getElem_append_left hi,
    List.getElem_append_left hi'] at hcell
  exact hcell

theorem writesDecimal_written_iff {z : Int} {buffer : CharBuffer} {text : List UInt8} :
    WritesDecimal z buffer (written buffer text) ↔ IsDecimalText z text := by
  constructor
  · intro h
    obtain ⟨text', htext, hwritten⟩ := h
    rwa [written_injective buffer hwritten]
  · exact fun h => ⟨text, h, rfl⟩

/-- **`uitoa` writes the canonical text of every number, `itoa` of every number but the most
    negative one.** -/
theorem itoa_canonical_iff (value : BitVec 32) (buffer : CharBuffer) :
    (WritesDecimal value.toInt buffer (itoaBuffer value buffer) ↔ value.toInt ≠ -2 ^ 31)
    ∧ WritesDecimal value.toNat buffer (uitoaBuffer value buffer) := by
  constructor
  · rw [itoaBuffer_eq, writesDecimal_written_iff, itoa_eq]
    have htext := isDecimalText_numeral value.toInt
    by_cases hmin : value.toInt = -2 ^ 31
    · rw [if_pos (by omega), if_pos hmin]
      exact iff_of_false (not_isDecimalText_sign _) (not_not.mpr hmin)
    · refine iff_of_true ?_ hmin
      rw [if_neg hmin]
      split at htext
      next hneg => rwa [if_pos hneg]
      next hpos => rwa [if_neg hpos]
  · have htext := isDecimalText_numeral (value.toNat : Int)
    rw [if_neg (by omega), List.nil_append, Int.natAbs_natCast] at htext
    rwa [uitoaBuffer_eq, writesDecimal_written_iff, uitoa_eq_numeral]

/-- Of the most negative number only the sign is written. -/
theorem itoa_mostNegative : ¬ ∀ (value : BitVec 32) (buffer : CharBuffer),
    WritesDecimal value.toInt buffer (itoaBuffer value buffer) := by
  intro hall
  have h := hall 0x80000000#32 fun _ => 0
  rw [itoaBuffer_eq, writesDecimal_written_iff] at h
  exact not_isDecimalText_sign _ h

end MapleKernel.Stdio
