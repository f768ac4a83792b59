/-
  File:      Stdio/StringToUint.lean
  Subject:   `string_to_uint` IN MEMORY: the loop goes from the last character of its argument down
             to a byte that is 0 or no digit.

  Nothing tells it where the argument begins. A string of digits is left behind at its start, and
  the loop goes on with the bytes below it.

  * `strlenBody`, `stringToUintBody` -- the rounds of the two loops, from the source; `reads` is
    ghost data, the addresses read so far;
  * `stringToUint_refines` -- the list `stringToUint` works on is what the loops find in memory;
  * `digitsBelow_result` -- what a string of digits gives: the digits below it belong to its number,
    and what ends them must be a NUL;
  * `parsesArgument_iff` -- the argument and nothing else is read exactly when a character of it is
    no digit.
-/
import MapleKernel.Lib.Iterate
import MapleKernel.Firmware.Memory
import MapleKernel.Stdio.OptionNumbers

namespace MapleKernel.Stdio

open Iteration
open Firmware (Memory bytesAt)

/-! ## 1. The loops -/

/-- `while (str[len]) len++`. -/
def strlenBody (mem : Memory) (str : UInt32) (s : UInt32 × List UInt32) :
    (UInt32 × List UInt32) ⊕ (UInt32 × List UInt32) :=
  let reads := s.2 ++ [str + s.1]
  if mem (str + s.1) ≠ 0 then .inl (s.1 + 1, reads) else .inr (s.1, reads)

/-- The locals of `string_to_uint`. -/
structure UintState where
  str : UInt32
  power : UInt32
  sum : UInt32
  reads : List UInt32

/-- `while (*str)`. -/
def stringToUintBody (mem : Memory) (s : UintState) : UintState ⊕ (UInt32 × List UInt32) :=
  let reads := s.reads ++ [s.str]
  if mem s.str ≠ 0 then
    let digit := charToUint (mem s.str)
    if digit = charToUintInvalid then .inr (-1, reads)
    else .inl ⟨s.str - 1, s.power * 10, s.sum + .ofNat digit * s.power, reads⟩
  else .inr (s.sum, reads)

/-- `string_to_uint(str)` returns `r`, and has read `reads`. The length is a `uint8_t`. -/
def StringToUint (mem : Memory) (str : UInt32) (r : UInt32) (reads : List UInt32) : Prop :=
  ∃ len lenReads, Returns (strlenBody mem str) (0, []) (len, lenReads) ∧
    Returns (stringToUintBody mem) ⟨str + (len.toUInt8.toUInt32 - 1), 1, 0, lenReads⟩ (r, reads)

/-! ## 2. Strings in memory -/

/-- `str` points at the string `text`. -/
structure StringAt (mem : Memory) (str : UInt32) (text : List UInt8) : Prop where
  chars : ∀ i (h : i < text.length), mem (str + .ofNat i) = text[i]
  nul : mem (str + .ofNat text.length) = 0
  noNul : 0 ∉ text

/-- The `n` bytes from `a` on downwards. -/
def downward (mem : Memory) (a : UInt32) (n : Nat) : List UInt8 :=
  (List.range n).map fun j => mem (a - .ofNat j)

section Loops

variable {mem : Memory} {str a : UInt32} {text : List UInt8}

theorem downward_succ (mem : Memory) (a : UInt32) (n : Nat) :
    downward mem a (n + 1) = mem a :: downward mem (a - 1) n := by
  rw [downward, List.range_succ_eq_map, List.map_cons, List.map_map]
  congr 1
  · exact congrArg mem (UInt32.sub_zero a)
  · refine List.map_congr_left fun j _ => congrArg mem ?_
    rw [Nat.succ_eq_add_one, UInt32.ofNat_add]
    grind

theorem downward_add (mem : Memory) (a : UInt32) (n m : Nat) :
    downward mem a (n + m) = downward mem a n ++ downward mem (a - .ofNat n) m := by
  rw [downward, List.range_add, List.map_append, List.map_map]
  congr 1
  refine List.map_congr_left fun j _ => congrArg mem ?_
  rw [UInt32.ofNat_add]
  grind

/-- The characters, counted from the last one. -/
theorem place_fromEnd {len i : Nat} (hi : i < len) (str : UInt32) :
    str + (.ofNat len - 1) - .ofNat i = str + .ofNat (len - 1 - i) := by
  have hsum : len = len - 1 - i + i + 1 := by omega
  have hlen : UInt32.ofNat len = .ofNat (len - 1 - i) + .ofNat i + 1 := by
    rw [← UInt32.ofNat_add]
    nth_rewrite 1 [hsum]
    exact UInt32.ofNat_add _ _
  rw [hlen]
  grind

/-- From its last character on downwards stands the text, and then what is below it. -/
theorem StringAt.downward_eq (h : StringAt mem str text) (m : Nat) :
    downward mem (str + (.ofNat text.length - 1)) (text.length + m)
      = text.reverse ++ downward mem (str - 1) m := by
  have hbelow : str + (.ofNat text.length - 1) - .ofNat text.length = str - 1 := by grind
  rw [downward_add, hbelow]
  congr 1
  refine List.ext_getElem (by simp [downward]) fun i hi hi' => ?_
  have hlt : i < text.length := by simpa [downward] using hi
  simp only [downward, List.getElem_reverse, List.getElem_map, List.getElem_range]
  rw [place_fromEnd hlt]
  exact h.chars _ _

theorem StringAt.strlen_from (h : StringAt mem str text) {i k : Nat} (hik : i + k = text.length) :
    Returns (strlenBody mem str) (.ofNat i, (List.range i).map fun j => str + .ofNat j)
      (.ofNat text.length, (List.range (text.length + 1)).map fun j => str + .ofNat j) := by
  have hreads : ((List.range i).map fun j => str + UInt32.ofNat j) ++ [str + .ofNat i]
      = (List.range (i + 1)).map fun j => str + .ofNat j := by
    rw [List.range_succ, List.map_append]
    rfl
  induction k generalizing i with
  | zero =>
      obtain rfl : i = text.length := hik
      refine returns_of_inr ?_
      rw [strlenBody, if_neg (not_not.mpr h.nul), hreads]
  | succ k ih =>
      have hi : i < text.length := by omega
      have hne : mem (str + .ofNat i) ≠ 0 := by
        rw [h.chars i hi]
        exact fun h0 => h.noNul (h0 ▸ List.getElem_mem hi)
      have hbody : strlenBody mem str (.ofNat i, (List.range i).map fun j => str + .ofNat j)
          = .inl (.ofNat (i + 1), (List.range (i + 1)).map fun j => str + .ofNat j) := by
        rw [strlenBody, if_pos hne, hreads, UInt32.ofNat_add]
        rfl
      rw [returns_of_inl hbody]
      refine ih (by omega) ?_
      rw [List.range_succ (n := i + 1), List.map_append]
      rfl

theorem StringAt.strlen (h : StringAt mem str text) :
    Returns (strlenBody mem str) (0, [])
      (.ofNat text.length, (List.range (text.length + 1)).map fun i => str + .ofNat i) :=
  h.strlen_from (Nat.zero_add _)

theorem toNat_charToUint (c : UInt8) : (UInt32.ofNat (charToUint c)).toNat = charToUint c := by
  have hc := c.toNat_lt
  refine UInt32.toNat_ofNat_of_lt' ?_
  unfold charToUint charToUintInvalid
  split
  · exact Nat.lt_of_le_of_lt (Nat.sub_le _ _) (by rw [UInt32.size]; omega)
  · decide

theorem charToUint_eq_invalid_iff {c : UInt8} : charToUint c = charToUintInvalid ↔ isDigit c = false := by
  constructor
  · intro h
    by_contra hd
    exact charToUint_ne_invalid (by simpa using hd) h
  · intro h
    exact if_neg (by rw [h]; decide)

/-- A round at a digit. -/
theorem stringToUintBody_of_digit {power sum : UInt32} {reads : List UInt32}
    (hd : isDigit (mem a) = true) :
    stringToUintBody mem ⟨a, power, sum, reads⟩ =
      .inl ⟨a - 1, power * 10, sum + .ofNat (charToUint (mem a)) * power, reads ++ [a]⟩ := by
  rw [stringToUintBody, if_pos (digit_ne_zero hd)]
  simp only [charToUint_ne_invalid hd, if_false]

/-- A round at a byte that ends the loop. -/
theorem stringToUintBody_of_not_digit {power sum : UInt32} {reads : List UInt32}
    (hd : isDigit (mem a) = false) :
    stringToUintBody mem ⟨a, power, sum, reads⟩ =
      .inr (if mem a = 0 then sum else -1, reads ++ [a]) := by
  by_cases h0 : mem a = 0
  · rw [stringToUintBody, if_neg (not_not.mpr h0), if_pos h0]
  · rw [stringToUintBody, if_pos h0, if_neg h0]
    simp only [charToUint_eq_invalid_iff.mpr hd, if_true]

/-- **The loop in memory is the loop over the bytes downwards**; it stops at the first of them that
    is no digit. -/
theorem returns_stringToUintLoop {n v : Nat} {power sum : UInt32} {reads : List UInt32}
    (h : stringToUintLoop (downward mem a n) power.toNat sum.toNat = .ok v) :
    Returns (stringToUintBody mem) ⟨a, power, sum, reads⟩
      (.ofNat v, reads ++ (List.range (((downward mem a n).takeWhile isDigit).length + 1)).map
        fun j => a - .ofNat j) := by
  induction n generalizing a power sum reads with
  | zero => cases h
  | succ n ih =>
      have hself : a - .ofNat 0 = a := UInt32.sub_zero a
      rw [downward_succ] at h ⊢
      rw [stringToUintLoop] at h
      cases hd : isDigit (mem a) with
      | true =>
          simp only [if_neg (digit_ne_zero hd), charToUint_ne_invalid hd, if_false] at h
          have hpower : (power * 10).toNat = power.toNat * 10 % 2 ^ 32 := UInt32.toNat_mul _ _
          have hsum : (sum + .ofNat (charToUint (mem a)) * power).toNat
              = (sum.toNat + charToUint (mem a) * power.toNat) % 2 ^ 32 := by
            rw [UInt32.toNat_add, UInt32.toNat_mul, toNat_charToUint, Nat.add_mod_mod]
          rw [← hpower, ← hsum] at h
          rw [returns_of_inl (stringToUintBody_of_digit hd), List.takeWhile_cons_of_pos hd,
            List.length_cons, List.range_succ_eq_map, List.map_cons, List.map_map, hself]
          have hrest := @ih _ _ _ (reads ++ [a]) h
          have hstep : ∀ j, a - 1 - .ofNat j = a - .ofNat (j + 1) := by
            intro j
            rw [UInt32.ofNat_add]
            grind
          simp only [hstep, List.append_assoc, List.singleton_append] at hrest
          exact hrest
      | false =>
          have hv : UInt32.ofNat v = if mem a = 0 then sum else -1 := by
            by_cases h0 : mem a = 0
            · rw [if_pos h0] at h ⊢
              cases h
              exact UInt32.ofNat_toNat
            · rw [if_neg h0] at h ⊢
              simp only [charToUint_eq_invalid_iff.mpr hd, if_true] at h
              cases h
              rfl
          rw [List.takeWhile_cons_of_neg (by rw [hd]; decide), hv]
          refine returns_of_inr ?_
          rw [stringToUintBody_of_not_digit hd]
          simp

/-- **`string_to_uint` in memory refines the function on lists**, on the text and the bytes below. -/
theorem stringToUint_refines (h : StringAt mem str text) (hlen : text.length ≤ 255) {m v : Nat}
    (hv : stringToUint text (downward mem (str - 1) m) = .ok v) :
    ∃ lenReads, (∀ a ∈ lenReads, (a - str).toNat ≤ text.length) ∧
      StringToUint mem str (.ofNat v) (lenReads ++
        (List.range (((text.reverse ++ downward mem (str - 1) m).takeWhile isDigit).length + 1)).map
          fun j => str + (.ofNat text.length - 1) - .ofNat j) := by
  have hnarrow : (UInt32.ofNat text.length).toUInt8.toUInt32 = .ofNat text.length := by
    refine UInt32.toNat.inj ?_
    rw [UInt8.toNat_toUInt32, UInt32.toNat_toUInt8, Firmware.toNat_ofNat_of_lt (by omega)]
    omega
  rw [stringToUint, Nat.mod_eq_of_lt (by omega), List.take_length, ← h.downward_eq] at hv
  rw [← h.downward_eq]
  refine ⟨(List.range (text.length + 1)).map fun i => str + .ofNat i, fun a ha => ?_,
    .ofNat text.length, _, h.strlen, ?_⟩
  · obtain ⟨i, hi, rfl⟩ := List.mem_map.mp ha
    have hlt := List.mem_range.mp hi
    have hback : str + UInt32.ofNat i - str = .ofNat i := by grind
    rw [hback, Firmware.toNat_ofNat_of_lt (by omega)]
    omega
  · rw [hnarrow]
    exact returns_stringToUintLoop hv

theorem StringToUint.unique {r r' : UInt32} {reads reads' : List UInt32}
    (h : StringToUint mem str r reads) (h' : StringToUint mem str r' reads') :
    r = r' ∧ reads = reads' := by
  obtain ⟨len, lenReads, hlen, hloop⟩ := h
  obtain ⟨len', lenReads', hlen', hloop'⟩ := h'
  obtain ⟨rfl, rfl⟩ := Prod.ext_iff.mp (hlen.unique hlen')
  exact Prod.ext_iff.mp (hloop.unique hloop')

end Loops

/-! ## 3. The argument and nothing else -/

/-- The number that a text is to give. -/
def argumentValue (text : List UInt8) : UInt32 :=
  if ∀ c ∈ text, isDigit c = true then .ofNat (decimalValue text) else -1

/-- **`string_to_uint` gives the number of its argument**, and reads no byte outside it. -/
def ParsesArgument (mem : Memory) (str : UInt32) (text : List UInt8) : Prop :=
  ∃ reads, StringToUint mem str (argumentValue text) reads ∧
    ∀ a ∈ reads, (a - str).toNat ≤ text.length

section Argument

variable {mem : Memory} {str : UInt32} {text : List UInt8}

/-- Some byte below a string is no digit: at the latest its own NUL, around the address space. -/
theorem StringAt.exists_not_digit (h : StringAt mem str text) (hlen : text.length ≤ 255) :
    ∃ m, isDigit (mem (str - 1 - .ofNat m)) = false := by
  have hround : UInt32.ofNat (2 ^ 32 - 1 - text.length) + .ofNat text.length = -1 := by
    rw [← UInt32.ofNat_add, Nat.sub_add_cancel (by omega)]
    rfl
  have hplace : str - 1 - UInt32.ofNat (2 ^ 32 - 1 - text.length) = str + .ofNat text.length := by
    grind
  refine ⟨2 ^ 32 - 1 - text.length, ?_⟩
  rw [hplace, h.nul]
  rfl

/-- The first of them. -/
theorem StringAt.exists_digitsBelow (h : StringAt mem str text) (hlen : text.length ≤ 255) :
    ∃ m, (∀ c ∈ downward mem (str - 1) m, isDigit c = true) ∧
      isDigit (mem (str - 1 - .ofNat m)) = false := by
  classical
  have hex := h.exists_not_digit hlen
  refine ⟨Nat.find hex, fun c hc => ?_, Nat.find_spec hex⟩
  obtain ⟨j, hj, rfl⟩ := List.mem_map.mp hc
  simpa using Nat.find_min hex (List.mem_range.mp hj)

/-- The bytes of a string, the digits below it and the byte that ends them, downwards. -/
theorem downward_digitsBelow (m : Nat) :
    text.reverse ++ downward mem (str - 1) (m + 1)
      = (text.reverse ++ downward mem (str - 1) m) ++ [mem (str - 1 - .ofNat m)] := by
  have hlast : downward mem (str - 1 - .ofNat m) 1 = [mem (str - 1 - .ofNat m)] := by
    rw [downward_succ]
    rfl
  rw [downward_add, hlast, List.append_assoc]

/-- What the function on lists gives for a string of digits. -/
theorem stringToUint_digitsBelow (hlen : text.length ≤ 255) {m : Nat}
    (hdigits : ∀ c ∈ text.reverse ++ downward mem (str - 1) m, isDigit c = true)
    (hstop : isDigit (mem (str - 1 - .ofNat m)) = false) :
    ∃ v, stringToUint text (downward mem (str - 1) (m + 1)) = .ok v ∧ UInt32.ofNat v =
      if mem (str - 1 - .ofNat m) = 0
        then .ofNat (decimalValue ((downward mem (str - 1) m).reverse ++ text)) else -1 := by
  rw [stringToUint, Nat.mod_eq_of_lt (by omega), List.take_length, downward_digitsBelow]
  by_cases h0 : mem (str - 1 - .ofNat m) = 0
  · have hloop := stringToUintLoop_digits _ hdigits [] 1 0
    have hvalue : Nat.ofDigits 10 ((text.reverse ++ downward mem (str - 1) m).map
        fun c => c.toNat - 0x30) = decimalValue ((downward mem (str - 1) m).reverse ++ text) := by
      rw [decimalValue, List.reverse_append, List.reverse_reverse]
    rw [hvalue, Nat.zero_add, Nat.one_mul] at hloop
    rw [h0, if_pos rfl]
    exact ⟨_, hloop, UInt32.ofNat_mod_size⟩
  · rw [if_neg h0]
    exact ⟨_, stringToUintLoop_stop hdigits hstop h0 [] 1 0, rfl⟩

/-- **A string of digits**: the digits right below it belong to the number, and what ends them must
    be a NUL; the byte below the string is read. -/
theorem digitsBelow_result (h : StringAt mem str text) (hlen : text.length ≤ 255)
    (hd : ∀ c ∈ text, isDigit c = true) {m : Nat}
    (hm : ∀ c ∈ downward mem (str - 1) m, isDigit c = true)
    (hstop : isDigit (mem (str - 1 - .ofNat m)) = false) :
    ∃ reads, str - 1 ∈ reads ∧ StringToUint mem str
      (if mem (str - 1 - .ofNat m) = 0
        then .ofNat (decimalValue ((downward mem (str - 1) m).reverse ++ text)) else -1) reads := by
  have hdigits : ∀ c ∈ text.reverse ++ downward mem (str - 1) m, isDigit c = true := by
    intro c hc
    rcases List.mem_append.mp hc with hc | hc
    · exact hd c (List.mem_reverse.mp hc)
    · exact hm c hc
  obtain ⟨v, hok, hv⟩ := stringToUint_digitsBelow hlen hdigits hstop
  obtain ⟨lenReads, -, hrun⟩ := stringToUint_refines h hlen hok
  rw [hv] at hrun
  refine ⟨_, List.mem_append_right _ (List.mem_map.mpr ⟨text.length, ?_, by grind⟩), hrun⟩
  rw [downward_digitsBelow, List.takeWhile_append_of_pos hdigits, List.length_append, List.length_append,
    List.length_reverse, List.mem_range]
  omega

theorem not_parsesArgument_of_digits (h : StringAt mem str text) (hlen : text.length ≤ 255)
    (hd : ∀ c ∈ text, isDigit c = true) : ¬ ParsesArgument mem str text := by
  intro hok
  obtain ⟨m, hm, hstop⟩ := h.exists_digitsBelow hlen
  obtain ⟨reads, hmem, hrun⟩ := digitsBelow_result h hlen hd hm hstop
  obtain ⟨reads', hrun', hinside⟩ := hok
  obtain ⟨-, rfl⟩ := hrun.unique hrun'
  have hle := hinside _ hmem
  have hback : str - 1 - str = -1 := by grind
  have hbig : (-1 : UInt32).toNat = 2 ^ 32 - 1 := rfl
  rw [hback, hbig] at hle
  omega

/-- A string that is no number is given up at its last character that is no digit. -/
theorem parsesArgument_of_not_digit (h : StringAt mem str text) (hlen : text.length ≤ 255)
    (hd : ∃ c ∈ text, isDigit c = false) : ParsesArgument mem str text := by
  have hvalue : argumentValue text = -1 := by
    refine if_neg fun hall => ?_
    obtain ⟨c, hc, hd⟩ := hd
    rw [hall c hc] at hd
    cases hd
  have hd' : ∃ c ∈ text.reverse, isDigit c = false := by simpa only [List.mem_reverse] using hd
  obtain ⟨c, rest, hsplit, hc⟩ := split_digits hd'
  have hrun : ∀ d ∈ text.reverse.takeWhile isDigit, isDigit d = true := fun d hmem =>
    List.mem_takeWhile_imp hmem
  have h0 : c ≠ 0 := by
    rintro rfl
    exact h.noNul (List.mem_reverse.mp (hsplit ▸ List.mem_append_right _ List.mem_cons_self))
  have hshort : (text.reverse.takeWhile isDigit).length < text.length := by
    have hcount := congrArg List.length hsplit
    rw [List.length_reverse, List.length_append, List.length_cons] at hcount
    omega
  have hok : stringToUint text (downward mem (str - 1) 0) = .ok (2 ^ 32 - 1) := by
    rw [stringToUint, Nat.mod_eq_of_lt (by omega), List.take_length]
    show stringToUintLoop (text.reverse ++ []) 1 0 = .ok (2 ^ 32 - 1)
    rw [List.append_nil, hsplit]
    exact stringToUintLoop_stop hrun hc h0 rest 1 0
  obtain ⟨lenReads, hinside, hreturns⟩ := stringToUint_refines h hlen hok
  have hminus : UInt32.ofNat (2 ^ 32 - 1) = -1 := rfl
  rw [hminus, ← hvalue] at hreturns
  refine ⟨_, hreturns, fun a ha => ?_⟩
  rcases List.mem_append.mp ha with ha | ha
  · exact hinside a ha
  · obtain ⟨j, hj, rfl⟩ := List.mem_map.mp ha
    have hj' : j < (text.reverse.takeWhile isDigit).length + 1 := by
      have hnil : text.reverse ++ downward mem (str - 1) 0 = text.reverse := List.append_nil _
      rw [hnil] at hj
      exact List.mem_range.mp hj
    have hback : str + UInt32.ofNat (text.length - 1 - j) - str = .ofNat (text.length - 1 - j) := by
      grind
    rw [place_fromEnd (by omega), hback, Firmware.toNat_ofNat_of_lt (by omega)]
    omega

end Argument

/-- **`string_to_uint` parses its argument and nothing else exactly when that has a character that
    is no digit.** A string of digits gives its number only if the bytes below it let it. -/
theorem parsesArgument_iff {mem : Memory} {str : UInt32} {text : List UInt8}
    (h : StringAt mem str text) (hlen : text.length ≤ 255) :
    (ParsesArgument mem str text ↔ ∃ c ∈ text, isDigit c = false)
    ∧ ((∀ c ∈ text, isDigit c = true) →
      ∃ m, (∀ c ∈ downward mem (str - 1) m, isDigit c = true) ∧
        isDigit (mem (str - 1 - .ofNat m)) = false ∧
        ∀ r reads, StringToUint mem str r reads → str - 1 ∈ reads ∧
          r = if mem (str - 1 - .ofNat m) = 0
            then .ofNat (decimalValue ((downward mem (str - 1) m).reverse ++ text)) else -1) := by
  refine ⟨⟨fun hok => ?_, parsesArgument_of_not_digit h hlen⟩, fun hd => ?_⟩
  · by_contra hnone
    refine not_parsesArgument_of_digits h hlen (fun c hc => ?_) hok
    by_contra hc'
    exact hnone ⟨c, hc, by simpa using hc'⟩
  · obtain ⟨m, hm, hstop⟩ := h.exists_digitsBelow hlen
    obtain ⟨reads, hmem, hrun⟩ := digitsBelow_result h hlen hd hm hstop
    refine ⟨m, hm, hstop, fun r reads' hrun' => ?_⟩
    obtain ⟨rfl, rfl⟩ := hrun'.unique hrun
    exact ⟨hmem, rfl⟩

/-- `"12"` with a `7` below it. -/
def sevenBelow : Memory := bytesAt 0x1000 [0x37, 0x31, 0x32]

theorem stringAt_sevenBelow : StringAt sevenBelow 0x1001 [0x31, 0x32] where
  chars := by decide +kernel
  nul := by decide +kernel
  noNul := by decide

theorem parsesArgument_iff_sevenBelow :
    (ParsesArgument sevenBelow 0x1001 [0x31, 0x32] ↔
      ∃ c ∈ [(0x31 : UInt8), 0x32], isDigit c = false) :=
  (parsesArgument_iff stringAt_sevenBelow (by simp)).1

/-- The bytes in front of a string of digits are read, and change the result: here it is 712. -/
theorem stringToUint_sevenBelow :
    (∃ reads, StringToUint sevenBelow 0x1001 712 reads) ∧
      ¬ ∀ (mem : Memory) (str : UInt32) (text : List UInt8), StringAt mem str text →
        1 ≤ text.length → text.length ≤ 255 → ParsesArgument mem str text := by
  have hlen : [(0x31 : UInt8), 0x32].length ≤ 255 := by simp
  have hd : ∀ c ∈ [(0x31 : UInt8), 0x32], isDigit c = true := by decide +kernel
  constructor
  · have hm : ∀ c ∈ downward sevenBelow (0x1001 - 1) 1, isDigit c = true := by decide +kernel
    obtain ⟨reads, -, hrun⟩ :=
      digitsBelow_result stringAt_sevenBelow hlen hd hm (by decide +kernel)
    have hvalue : (if sevenBelow (0x1001 - 1 - .ofNat 1) = 0 then UInt32.ofNat (decimalValue
        ((downward sevenBelow (0x1001 - 1) 1).reverse ++ [0x31, 0x32])) else -1) = 712 := by
      decide +kernel
    rw [hvalue] at hrun
    exact ⟨reads, hrun⟩
  · intro hall
    exact not_parsesArgument_of_digits stringAt_sevenBelow hlen hd
      (hall _ _ _ stringAt_sevenBelow (by simp) hlen)

end MapleKernel.Stdio
