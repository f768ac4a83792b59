/-
  File:      Stdio/PrintBuffers.lean
  Subject:   THE ARRAYS OF THE NUMBER PRINTERS: `res_buff` of the `print_..._var` helpers of
             `vga_terminal.c` and of `print_int_f` and `print_uint_f` of `bit_hex_string.c`.

  The conversions and the printers are translated once more, store by store, into an array of a
  given size with any content; what a printer hands to the terminal is read back from the array.
  `-value` of the most negative `int` overflows, which C leaves undefined: here it is a fault.

  * `itoa_stores`, `uitoa_stores`, `uintToHex_stores` -- a conversion stays inside an array that has
    room for the text and its NUL, and stores them;
  * `Printer.run_eq` -- what each printer prints;
  * `writesInside_iff` -- only `print_int_var` leaves its array, exactly for the negative numbers
    with ten digits: sign, digits, newline and NUL are 13 bytes, and `res_buff` has 12; of the most
    negative number nothing is promised where `itoa` is called;
  * `not_writesInside_tenDigits` -- such a number.
-/
import MapleKernel.Lib.CString
import MapleKernel.Stdio.BitHexString
import MapleKernel.Stdio.TextBuffer

namespace MapleKernel.Stdio.ResBuff

open Buffers CStrings

/-! ## 1. The conversions, store by store -/

/-- How a printer can end other than by returning. -/
inductive PrintFault where
  | assertFailed
  | writeOutside
  | readOutside
  | overflow
  deriving DecidableEq, Repr

section Conversions

variable (size : Nat)

/-- `buffer[pos] = c`. -/
def put (pos : Nat) (c : UInt8) (buffer : CharBuffer) : Except PrintFault CharBuffer :=
  store .writeOutside size pos c buffer

def storeDigits (value : Nat) (buffer : CharBuffer) (pos : Nat) :
    Except PrintFault (Nat × CharBuffer) :=
  if value > 0 then do
    let buffer ← put size pos (UInt8.ofNat (0x30 + value % 10)) buffer
    storeDigits (value / 10) buffer (pos + 1)
  else .ok (pos, buffer)
termination_by value

def terminateAndReverse (start pos : Nat) (buffer : CharBuffer) :
    Except PrintFault (Nat × CharBuffer) := do
  let buffer ← put size pos 0 buffer
  let fin := (pos + 2 ^ 32 - 1) % 2 ^ 32
  let buffer ← swapStores .writeOutside size buffer start fin
  .ok (pos, buffer)

/-- The text of 0, the same in all conversions. -/
def storeZero (buffer : CharBuffer) : Except PrintFault (Nat × CharBuffer) := do
  let buffer ← put size 0 0x30 buffer
  let buffer ← put size 1 0 buffer
  .ok (1, buffer)

/-- `value = -value`. -/
def negate (value : BitVec 32) : Except PrintFault (BitVec 32) :=
  if value.toInt = -2 ^ 31 then .error .overflow else .ok (-value)

def itoa (value : BitVec 32) (buffer : CharBuffer) : Except PrintFault (Nat × CharBuffer) :=
  if value = 0#32 then storeZero size buffer
  else do
    let negative := value.slt 0#32
    let value ← if negative then negate value else .ok value
    let (pos, buffer) ← storeDigits size value.toInt.toNat buffer 0
    if negative then
      let buffer ← put size pos 0x2D buffer
      terminateAndReverse size 0 (pos + 1) buffer
    else terminateAndReverse size 0 pos buffer

def uitoa (value : BitVec 32) (buffer : CharBuffer) : Except PrintFault (Nat × CharBuffer) :=
  if value = 0#32 then storeZero size buffer
  else do
    let (pos, buffer) ← storeDigits size value.toNat buffer 0
    terminateAndReverse size 0 pos buffer

/-- `uint_to_hex`: what is in `temp` behind the leading zeros is copied. -/
def uintToHex (value : BitVec 32) (buffer : CharBuffer) (uppercase : Bool) :
    Except PrintFault (Nat × CharBuffer) :=
  if value = 0#32 then storeZero size buffer
  else do
    let temp := hexTemp value uppercase
    let (j, buffer) ← storeAll .writeOutside size (temp.dropWhile (· = 0x30)) 0 buffer
    let buffer ← put size j 0 buffer
    .ok (j, buffer)

/-- `ptr_to_hex`: a pointer has 32 bits, so its `temp` is that of `uint_to_hex`. -/
def ptrToHex (ptr : BitVec 32) (buffer : CharBuffer) (uppercase : Bool) :
    Except PrintFault (Nat × CharBuffer) :=
  uintToHex size ptr buffer uppercase

end Conversions

/-! ## 2. The printers -/

/-- What `terminal_writestring` gets. -/
def string (size : Nat) (buffer : CharBuffer) (start : Nat) : Except PrintFault (List UInt8) :=
  readString .readOutside size buffer start

/-- `res_buff[len] = '\n'; res_buff[len + 1] = '\0'; terminal_writestring(res_buff);`. -/
def writeLine (size : Nat) (text : Nat × CharBuffer) : Except PrintFault (List UInt8) := do
  let (len, buffer) := text
  let buffer ← put size len 0x0A buffer
  let buffer ← put size (len + 1) 0 buffer
  string size buffer 0

/-- `res_buff[len] = '\0'; terminal_writestring(res_buff);`. -/
def writeText (size : Nat) (text : Nat × CharBuffer) : Except PrintFault (List UInt8) := do
  let (len, buffer) := text
  let buffer ← put size len 0 buffer
  string size buffer 0

section Printers

variable (var : BitVec 32) (resBuff : CharBuffer)

def printIntVar : Except PrintFault (List UInt8) := itoa 12 var resBuff >>= writeLine 12

def printIntVarNoNewline : Except PrintFault (List UInt8) := itoa 12 var resBuff >>= writeText 12

def printHexVar : Except PrintFault (List UInt8) := uintToHex 12 var resBuff true >>= writeLine 12

def printHexVarNoNewline : Except PrintFault (List UInt8) :=
  uintToHex 12 var resBuff true >>= writeText 12

def printHexPtr : Except PrintFault (List UInt8) := ptrToHex 12 var resBuff true >>= writeLine 12

def printUintVar : Except PrintFault (List UInt8) := uitoa 12 var resBuff >>= writeLine 12

def printUintVarNoNewline : Except PrintFault (List UInt8) := uitoa 20 var resBuff >>= writeText 20

def printUintF (padsize : Nat) : Except PrintFault (List UInt8) :=
  if padsize ≤ 16 then do
    let (len, resBuff) ← uitoa 20 var resBuff
    let resBuff ← put 20 len 0 resBuff
    let text ← string 20 resBuff 0
    .ok (morePad padsize len ++ text)
  else .error .assertFailed

def printIntF (padsize : Nat) : Except PrintFault (List UInt8) :=
  if padsize ≤ 16 then do
    let (len, resBuff) ← itoa 20 var resBuff
    let resBuff ← put 20 len 0 resBuff
    if var.slt 0#32 then
      let text ← string 20 resBuff 1
      .ok ([0x2D] ++ morePad padsize (len + 1) ++ text)
    else
      let text ← string 20 resBuff 0
      .ok (morePad padsize len ++ text)
  else .error .assertFailed

end Printers

/-- The printers; `padsize` is the second argument of the last two. -/
inductive Printer where
  | intVar
  | intVarNoNewline
  | hexVar
  | hexVarNoNewline
  | hexPtr
  | uintVar
  | uintVarNoNewline
  | intF (padsize : Nat)
  | uintF (padsize : Nat)
  deriving DecidableEq, Repr

def Printer.run : Printer → BitVec 32 → CharBuffer → Except PrintFault (List UInt8)
  | intVar => printIntVar
  | intVarNoNewline => printIntVarNoNewline
  | hexVar => printHexVar
  | hexVarNoNewline => printHexVarNoNewline
  | hexPtr => printHexPtr
  | uintVar => printUintVar
  | uintVarNoNewline => printUintVarNoNewline
  | intF padsize => fun var resBuff => printIntF var resBuff padsize
  | uintF padsize => fun var resBuff => printUintF var resBuff padsize

/-- No store is outside `res_buff`, whatever was in it, and none is undefined. -/
def WritesInside (p : Printer) (value : BitVec 32) : Prop :=
  ∀ resBuff, p.run value resBuff ≠ .error .writeOutside ∧ p.run value resBuff ≠ .error .overflow

/-- The printer gets as far as a call of `itoa`. -/
def Printer.callsItoa : Printer → Bool
  | intVar | intVarNoNewline => true
  | intF padsize => padsize ≤ 16
  | hexVar | hexVarNoNewline | hexPtr | uintVar | uintVarNoNewline | uintF _ => false

/-! ## 3. What the conversions store -/

section Stores

variable {size pos : Nat} {c : UInt8} {buffer : CharBuffer}

theorem put_ok (h : pos < size) : put size pos c buffer = .ok (Function.update buffer pos c) :=
  store_ok h

theorem put_error (h : size ≤ pos) : put size pos c buffer = .error .writeOutside := store_error h

theorem le_storeDigits (value : Nat) (buffer : CharBuffer) (pos : Nat) :
    pos ≤ (Stdio.storeDigits value buffer pos).1 := by
  induction value, buffer, pos using Stdio.storeDigits.induct with
  | case1 value buffer pos hpos ih =>
      rw [Stdio.storeDigits, if_pos hpos]
      omega
  | case2 value buffer pos hzero => rw [Stdio.storeDigits, if_neg hzero]

/-- The digits are stored if the place behind the last one is at most the size. -/
theorem storeDigits_ok {value : Nat} (h : (Stdio.storeDigits value buffer pos).1 ≤ size) :
    storeDigits size value buffer pos = .ok (Stdio.storeDigits value buffer pos) := by
  induction value, buffer, pos using Stdio.storeDigits.induct with
  | case1 value buffer pos hpos ih =>
      rw [Stdio.storeDigits, if_pos hpos] at h ⊢
      have hnext := le_storeDigits (value / 10)
        (Function.update buffer pos (UInt8.ofNat (0x30 + value % 10))) (pos + 1)
      rw [storeDigits, if_pos hpos, bind_of_ok (put_ok (by omega))]
      exact ih h
  | case2 value buffer pos hzero => rw [storeDigits, if_neg hzero, Stdio.storeDigits, if_neg hzero]

theorem terminateAndReverse_ok (hpos : 0 < pos) (h : pos < size) :
    terminateAndReverse size 0 pos buffer = .ok (Stdio.terminateAndReverse 0 pos buffer) := by
  have hfin : (pos + 2 ^ 32 - 1) % 2 ^ 32 < size := by omega
  rw [terminateAndReverse, bind_of_ok (put_ok h)]
  exact bind_of_ok (swapStores_ok hfin) _

theorem storeZero_ok (h : 1 < size) : storeZero size buffer = .ok (written buffer [0x30]) := by
  rw [storeZero, bind_of_ok (put_ok (by omega)), bind_of_ok (put_ok h), ← writtenZero]

/-- **`uitoa` stores its text where it fits with the NUL.** -/
theorem uitoa_stores (value : BitVec 32) (h : (Stdio.uitoa value).length < size) :
    uitoa size value buffer = .ok (written buffer (Stdio.uitoa value)) := by
  by_cases h0 : value = 0#32
  · subst h0
    exact storeZero_ok h
  have hne := toNat_ne_zero h0
  have hdigits := storeDigits_start buffer value.toNat
  have hpos : 0 < (digitTexts value.toNat).length :=
    List.length_pos_iff.mpr (digitTexts_ne_nil hne)
  have hlen : (Stdio.uitoa value).length = (digitTexts value.toNat).length := by
    rw [uitoa_eq_numeral, ← reverse_digitTexts hne, List.length_reverse]
  have hstored := @storeDigits_ok size 0 buffer value.toNat (by rw [hdigits]; exact (hlen ▸ h).le)
  rw [← uitoaBuffer_eq, uitoaBuffer, uitoa, if_neg h0, if_neg h0, hstored, hdigits]
  exact terminateAndReverse_ok hpos (hlen ▸ h)

theorem itoa_overflow {value : BitVec 32} (hmin : value.toInt = -2 ^ 31) :
    itoa size value buffer = .error .overflow := by
  have h0 : value ≠ 0#32 := by
    rintro rfl
    exact absurd hmin (by decide)
  have hneg : value.slt 0#32 = true := by
    rw [slt_zero_eq, hmin]
    rfl
  have hover : negate value = .error .overflow := if_pos hmin
  rw [itoa, if_neg h0]
  dsimp only
  rw [if_pos hneg, bind_of_error hover]

/-- **So does `itoa`**, of every number whose negation is one. -/
theorem itoa_stores (value : BitVec 32) (hmin : value.toInt ≠ -2 ^ 31)
    (h : (Stdio.itoa value).length < size) :
    itoa size value buffer = .ok (written buffer (Stdio.itoa value)) := by
  by_cases h0 : value = 0#32
  · subst h0
    exact storeZero_ok h
  have hint := toInt_ne_zero h0
  have hlen : (itoaBuffer value buffer).1 = (Stdio.itoa value).length :=
    congrArg Prod.fst (itoaBuffer_eq buffer value)
  rw [← itoaBuffer_eq]
  rw [← hlen] at h
  by_cases hneg : value.slt 0#32 = true
  · have hnegate : negate value = .ok (-value) := if_neg hmin
    simp only [itoaBuffer, itoa, h0, hneg, if_false, if_true, storeDigits_start,
      Stdio.terminateAndReverse] at h ⊢
    rw [bind_of_ok hnegate, storeDigits_ok (by rw [storeDigits_start]; omega), storeDigits_start]
    refine (bind_of_ok rfl _).trans ((bind_of_ok (put_ok (by omega)) _).trans ?_)
    exact terminateAndReverse_ok (Nat.succ_pos _) h
  · have hne : value.toInt.toNat ≠ 0 := by
      rw [slt_zero_eq, decide_eq_true_eq] at hneg
      omega
    have hpos : 0 < (digitTexts value.toInt.toNat).length :=
      List.length_pos_iff.mpr (digitTexts_ne_nil hne)
    simp only [itoaBuffer, itoa, h0, hneg, if_false, storeDigits_start, Stdio.terminateAndReverse,
      Bool.false_eq_true] at h ⊢
    refine (bind_of_ok rfl _).trans ?_
    rw [storeDigits_ok (by rw [storeDigits_start]; omega), storeDigits_start]
    exact terminateAndReverse_ok hpos h

/-- **So does `uint_to_hex`.** -/
theorem uintToHex_stores (value : BitVec 32) (uppercase : Bool)
    (h : (Stdio.uintToHex value uppercase).length < size) :
    uintToHex size value buffer uppercase
      = .ok (written buffer (Stdio.uintToHex value uppercase)) := by
  by_cases h0 : value = 0#32
  · subst h0
    exact storeZero_ok h
  rw [Stdio.uintToHex, if_neg h0] at h ⊢
  have hcopied := @storeAll_ok _ _ PrintFault.writeOutside size buffer []
    ((hexTemp value uppercase).dropWhile (· = 0x30)) 0 (by rw [List.length_nil]; omega)
  rw [overlay_nil, List.nil_append, List.length_nil, Nat.zero_add, Nat.zero_add] at hcopied
  have hnul := overlay_update buffer 0 ((hexTemp value uppercase).dropWhile (· = 0x30)) 0
  rw [Nat.zero_add] at hnul
  simp only [uintToHex, h0, if_false]
  rw [bind_of_ok hcopied, bind_of_ok (put_ok h), hnul]
  rfl

end Stores

/-! ## 4. What the printers print -/

section Texts

theorem nul_not_mem_numeral (n : Nat) : 0 ∉ numeral 10 n :=
  fun h => digit_ne_zero (numeral_isDigit h) rfl

theorem nul_not_mem_uitoa (value : BitVec 32) : 0 ∉ Stdio.uitoa value := by
  rw [uitoa_eq_numeral]
  exact nul_not_mem_numeral _

theorem nul_not_mem_itoa (value : BitVec 32) : 0 ∉ Stdio.itoa value := by
  have hdigits := nul_not_mem_numeral value.toInt.natAbs
  rw [itoa_eq]
  split
  · split
    · decide
    · exact fun h => (List.mem_cons.mp h).elim (fun e => absurd e (by decide)) hdigits
  · exact hdigits

theorem nul_not_mem_uintToHex (value : BitVec 32) (uppercase : Bool) :
    0 ∉ Stdio.uintToHex value uppercase := by
  have hdigit : ∀ d < 16, (hexDigits uppercase).getD d 0 ≠ 0 := by
    cases uppercase <;> decide
  rw [Stdio.uintToHex]
  split
  · decide
  · intro h
    obtain ⟨i, -, hi⟩ := List.mem_map.mp ((List.dropWhile_sublist _).mem h)
    refine hdigit _ ?_ hi
    rw [BitVec.toNat_and]
    exact Nat.lt_of_le_of_lt Nat.and_le_right (by decide)

theorem uintToHex_length (value : BitVec 32) (uppercase : Bool) :
    (Stdio.uintToHex value uppercase).length ≤ 8 := by
  have htemp : (hexTemp value uppercase).length = 8 := by
    rw [hexTemp, List.length_map, List.length_range]
  rw [Stdio.uintToHex]
  split
  · decide
  · exact htemp ▸ (List.dropWhile_sublist _).length_le

/-- Ten digits and the sign. -/
theorem itoa_length_lt_iff {value : BitVec 32} (hmin : value.toInt ≠ -2 ^ 31) :
    (Stdio.itoa value).length < 11 ↔ -10 ^ 9 < value.toInt := by
  have hlt := @BitVec.toInt_lt 32 value
  have hle : (numeral 10 value.toInt.natAbs).length ≤ 9 ↔ value.toInt.natAbs < 10 ^ 9 := by
    rw [numeral]
    split
    next h0 => exact iff_of_true (by decide) (by omega)
    next hne =>
      rw [List.length_map, List.length_reverse]
      exact Nat.digits_length_le_iff (by decide) _
  rw [itoa_eq, if_neg hmin]
  split
  · rw [List.length_cons]
    omega
  next hpos =>
    have hten : (numeral 10 value.toInt.natAbs).length ≤ 10 :=
      numeral_length_le (by decide) (by decide) (by omega)
    exact iff_of_true (by omega) (by omega)

end Texts

section Output

variable {size : Nat} {text : List UInt8}

/-- What is laid over the buffer is a string in it. -/
theorem holdsString_overlay (buffer : CharBuffer) (s : CString) :
    HoldsString (overlay buffer 0 (s.bytes ++ [0])) 0 s := by
  intro k c hk
  obtain ⟨hlt, hget⟩ := List.getElem?_eq_some_iff.mp hk
  exact (overlay_add hlt).trans hget

theorem string_ok (buffer : CharBuffer) (h0 : 0 ∉ text) (h : text.length < size) :
    string size (overlay buffer 0 (text ++ [0])) 0 = .ok text :=
  readString_ok (holdsString_overlay buffer ⟨text, h0⟩) (by rw [Nat.zero_add]; exact h)

/-- The NUL behind the text is replaced. -/
theorem update_written (buffer : CharBuffer) (text : List UInt8) (c : UInt8) :
    Function.update (written buffer text).2 (written buffer text).1 c
      = overlay buffer 0 (text ++ [c]) := by
  have hset := @overlay_set _ buffer 0 (text ++ [0]) text.length (by simp) c
  rw [Nat.zero_add, List.set_append_right _ _ (Nat.le_refl _), Nat.sub_self] at hset
  exact hset

theorem writeText_ok (buffer : CharBuffer) (h0 : 0 ∉ text) (h : text.length < size) :
    writeText size (written buffer text) = .ok text := by
  have hput := @put_ok size (written buffer text).1 0 (written buffer text).2 h
  rw [update_written] at hput
  exact (bind_of_ok hput _).trans (string_ok buffer h0 h)

theorem writeLine_ok (buffer : CharBuffer) (h0 : 0 ∉ text) (h : text.length + 1 < size) :
    writeLine size (written buffer text) = .ok (text ++ [0x0A]) := by
  have hput := @put_ok size (written buffer text).1 0x0A (written buffer text).2
    (Nat.lt_of_succ_lt h)
  have hlen : (text ++ [0x0A]).length = text.length + 1 := List.length_append
  have hnul := overlay_update buffer 0 (text ++ [0x0A]) 0
  rw [update_written] at hput
  rw [Nat.zero_add, hlen] at hnul
  refine (bind_of_ok hput _).trans ((bind_of_ok (put_ok h) _).trans ?_)
  show string size (Function.update _ (text.length + 1) 0) 0 = _
  rw [hnul]
  refine string_ok buffer (fun hmem => ?_) (hlen ▸ h)
  rcases List.mem_append.mp hmem with hmem | hmem
  · exact h0 hmem
  · exact absurd (List.mem_singleton.mp hmem) (by decide)

/-- The text and its NUL fill the array, and the newline leaves no room for the second NUL. -/
theorem writeLine_error (buffer : CharBuffer) (h : size = text.length + 1) :
    writeLine size (written buffer text) = .error .writeOutside := by
  have hput := @put_ok size (written buffer text).1 0x0A (written buffer text).2
    (h ▸ Nat.lt_succ_self _)
  exact (bind_of_ok hput _).trans (bind_of_error (put_error (Nat.le_of_eq h)) _)

end Output

/-- What a printer prints if nothing goes wrong with its array. -/
def Printer.output : Printer → BitVec 32 → Except PrintFault (List UInt8)
  | intVar, value => .ok (Stdio.itoa value ++ [0x0A])
  | intVarNoNewline, value => .ok (Stdio.itoa value)
  | hexVar, value => .ok (Stdio.uintToHex value true ++ [0x0A])
  | hexVarNoNewline, value => .ok (Stdio.uintToHex value true)
  | hexPtr, value => .ok (Stdio.uintToHex value true ++ [0x0A])
  | uintVar, value => .ok (Stdio.uitoa value ++ [0x0A])
  | uintVarNoNewline, value => .ok (Stdio.uitoa value)
  | intF padsize, value => (Stdio.printIntF value padsize).mapError fun _ => .assertFailed
  | uintF padsize, value => (Stdio.printUintF value padsize).mapError fun _ => .assertFailed

section Runs

variable (var : BitVec 32) (resBuff : CharBuffer)

theorem printIntVar_eq (hmin : var.toInt ≠ -2 ^ 31) : printIntVar var resBuff =
    if (Stdio.itoa var).length < 11 then .ok (Stdio.itoa var ++ [0x0A])
    else .error .writeOutside := by
  have hlen := itoa_length var
  rw [printIntVar, bind_of_ok (itoa_stores var hmin (by omega))]
  split
  next hlt => exact writeLine_ok resBuff (nul_not_mem_itoa var) (by omega)
  next hge => exact writeLine_error resBuff (by omega)

theorem printHexVar_eq : printHexVar var resBuff = .ok (Stdio.uintToHex var true ++ [0x0A]) := by
  have hlen := uintToHex_length var true
  rw [printHexVar, bind_of_ok (uintToHex_stores var true (by omega))]
  exact writeLine_ok resBuff (nul_not_mem_uintToHex var true) (by omega)

theorem printUintVar_eq : printUintVar var resBuff = .ok (Stdio.uitoa var ++ [0x0A]) := by
  have hlen := uitoa_length var
  rw [printUintVar, bind_of_ok (uitoa_stores var (by omega))]
  exact writeLine_ok resBuff (nul_not_mem_uitoa var) (by omega)

theorem printIntVarNoNewline_eq (hmin : var.toInt ≠ -2 ^ 31) :
    printIntVarNoNewline var resBuff = .ok (Stdio.itoa var) := by
  have hlen := itoa_length var
  rw [printIntVarNoNewline, bind_of_ok (itoa_stores var hmin (by omega))]
  exact writeText_ok resBuff (nul_not_mem_itoa var) (by omega)

theorem printHexVarNoNewline_eq :
    printHexVarNoNewline var resBuff = .ok (Stdio.uintToHex var true) := by
  have hlen := uintToHex_length var true
  rw [printHexVarNoNewline, bind_of_ok (uintToHex_stores var true (by omega))]
  exact writeText_ok resBuff (nul_not_mem_uintToHex var true) (by omega)

theorem printUintVarNoNewline_eq : printUintVarNoNewline var resBuff = .ok (Stdio.uitoa var) := by
  have hlen := uitoa_length var
  rw [printUintVarNoNewline, bind_of_ok (uitoa_stores var (by omega))]
  exact writeText_ok resBuff (nul_not_mem_uitoa var) (by omega)

/-- The NUL is stored over the NUL. -/
theorem put_nul {size : Nat} {text : List UInt8} (h : text.length < size) :
    put size (written resBuff text).1 0 (written resBuff text).2
      = .ok (overlay resBuff 0 (text ++ [0])) :=
  (put_ok (show (written resBuff text).1 < size from h)).trans
    (congrArg Except.ok (update_written resBuff text 0))

theorem printUintF_eq (padsize : Nat) : printUintF var resBuff padsize
    = (Stdio.printUintF var padsize).mapError fun _ => .assertFailed := by
  have hlen := uitoa_length var
  rw [printUintF, Stdio.printUintF]
  by_cases hpad : padsize ≤ 16
  · rw [if_pos hpad, if_pos hpad, bind_of_ok (uitoa_stores var (by omega))]
    refine (bind_of_ok (put_nul resBuff (by omega)) _).trans ?_
    exact bind_of_ok (string_ok resBuff (nul_not_mem_uitoa var) (by omega)) _
  · rw [if_neg hpad, if_neg hpad]
    rfl

/-- Behind its first byte, the text is a string too. -/
theorem string_tail {size : Nat} {text : List UInt8} (h0 : 0 ∉ text) (hne : text ≠ [])
    (h : text.length < size) :
    string size (overlay resBuff 0 (text ++ [0])) 1 = .ok (text.drop 1) := by
  cases text with
  | nil => exact absurd rfl hne
  | cons c cs =>
      have hcs : 0 ∉ cs := fun hmem => h0 (List.mem_cons_of_mem c hmem)
      have hc : c ≠ 0 := fun e => h0 (e ▸ List.mem_cons_self)
      have hholds := holdsString_overlay resBuff (CString.cons c hc ⟨cs, hcs⟩)
      rw [List.length_cons] at h
      exact readString_ok (holdsString_cons_iff.mp hholds).2 (show 0 + 1 + cs.length < size by omega)

theorem printIntF_eq {padsize : Nat} (hmin : padsize ≤ 16 → var.toInt ≠ -2 ^ 31) :
    printIntF var resBuff padsize = (Stdio.printIntF var padsize).mapError fun _ => .assertFailed := by
  have hlen := itoa_length var
  have hne : Stdio.itoa var ≠ [] := List.length_pos_iff.mp hlen.1
  rw [printIntF, Stdio.printIntF]
  by_cases hpad : padsize ≤ 16
  · rw [if_pos hpad, if_pos hpad, bind_of_ok (itoa_stores var (hmin hpad) (by omega))]
    refine (bind_of_ok (put_nul resBuff (by omega)) _).trans ?_
    by_cases hneg : var.slt 0#32 = true
    · rw [if_pos hneg, if_pos hneg]
      exact bind_of_ok (string_tail resBuff (nul_not_mem_itoa var) hne (by omega)) _
    · rw [if_neg hneg, if_neg hneg]
      exact bind_of_ok (string_ok resBuff (nul_not_mem_itoa var) (by omega)) _
  · rw [if_neg hpad, if_neg hpad]
    rfl

/-- A printer that calls `itoa` for the most negative number is at its overflow. -/
theorem Printer.run_overflow {p : Printer} (hcalls : p.callsItoa = true)
    (hmin : var.toInt = -2 ^ 31) : p.run var resBuff = .error .overflow := by
  cases p with
  | intVar => exact bind_of_error (itoa_overflow hmin) _
  | intVarNoNewline => exact bind_of_error (itoa_overflow hmin) _
  | intF padsize =>
      exact (if_pos (of_decide_eq_true hcalls)).trans (bind_of_error (itoa_overflow hmin) _)
  | hexVar | hexVarNoNewline | hexPtr | uintVar | uintVarNoNewline | uintF padsize =>
      exact Bool.noConfusion hcalls

/-- **What each printer prints** otherwise: its text, but for `print_int_var` only where that has at
    most ten characters. -/
theorem Printer.run_eq {p : Printer} (h : p.callsItoa = true → var.toInt ≠ -2 ^ 31) :
    p.run var resBuff =
      if p = .intVar ∧ 11 ≤ (Stdio.itoa var).length then .error .writeOutside
      else p.output var := by
  cases p with
  | intVar =>
      refine (printIntVar_eq var resBuff (h rfl)).trans ?_
      by_cases hlt : (Stdio.itoa var).length < 11
      · rw [if_pos hlt, if_neg (by omega)]
        rfl
      · rw [if_neg hlt, if_pos ⟨rfl, by omega⟩]
  | intVarNoNewline => exact printIntVarNoNewline_eq var resBuff (h rfl)
  | hexVar => exact printHexVar_eq var resBuff
  | hexVarNoNewline => exact printHexVarNoNewline_eq var resBuff
  | hexPtr => exact printHexVar_eq var resBuff
  | uintVar => exact printUintVar_eq var resBuff
  | uintVarNoNewline => exact printUintVarNoNewline_eq var resBuff
  | intF padsize => exact printIntF_eq var resBuff fun hpad => h (decide_eq_true hpad)
  | uintF padsize => exact printUintF_eq var resBuff padsize

end Runs

/-- A text, or the assert on the second argument. -/
theorem Printer.output_ne (p : Printer) (value : BitVec 32) {fault : PrintFault}
    (hfault : fault ≠ .assertFailed) : p.output value ≠ .error fault := by
  have hmap : ∀ x : Except Failure (List UInt8),
      x.mapError (fun _ => PrintFault.assertFailed) ≠ .error fault := by
    intro x
    cases x with
    | error e => exact fun h => hfault (Except.error.inj h).symm
    | ok out => exact nofun
  cases p with
  | intF padsize => exact hmap _
  | uintF padsize => exact hmap _
  | _ => exact nofun

/-- **The printers stay inside their arrays**, but for `print_int_var`: that does for the numbers
    above `-10 ^ 9`. A printer that calls `itoa` takes every number but the most negative one. -/
theorem writesInside_iff (p : Printer) (value : BitVec 32) :
    WritesInside p value ↔
      (p = .intVar → -10 ^ 9 < value.toInt) ∧ (p.callsItoa = true → value.toInt ≠ -2 ^ 31) := by
  constructor
  · intro h
    have hmin : p.callsItoa = true → value.toInt ≠ -2 ^ 31 := fun hcalls hmin =>
      (h fun _ => 0).2 (Printer.run_overflow value _ hcalls hmin)
    refine ⟨fun hp => ?_, hmin⟩
    rw [← itoa_length_lt_iff (hmin (hp ▸ rfl))]
    by_contra hge
    exact (h fun _ => 0).1 ((Printer.run_eq value _ hmin).trans (if_pos ⟨hp, by omega⟩))
  · intro h resBuff
    obtain ⟨hten, hmin⟩ := h
    have hinside : ¬ (p = .intVar ∧ 11 ≤ (Stdio.itoa value).length) := by
      intro hbad
      have hlt := (itoa_length_lt_iff (hmin (hbad.1 ▸ rfl))).mpr (hten hbad.1)
      omega
    rw [Printer.run_eq value resBuff hmin, if_neg hinside]
    exact ⟨p.output_ne value (by decide), p.output_ne value (by decide)⟩

/-- `print_int_var(-1000000000)`. -/
theorem not_writesInside_tenDigits : ¬ ∀ p value, WritesInside p value := by
  intro h
  exact (h .intVar (BitVec.ofInt 32 (-10 ^ 9)) (fun _ => 0)).1 (by decide +kernel)

end MapleKernel.Stdio.ResBuff
