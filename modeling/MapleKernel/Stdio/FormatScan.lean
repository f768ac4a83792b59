/-
  File:      Stdio/FormatScan.lean
  Subject:   WHICH MEMORY THE FORMAT PARSER TOUCHES.

  `count_char`, `set_types_and_pos` and `get_single_format_properties` scan the same bytes. Here
  each of them is the list of its accesses, in order, on a memory that holds the format, its NUL
  and whatever lies behind it. (`string_to_uint`, which walks down from `len_char`, is in
  Stdio/StringHelper.lean.)

  * `FieldFits` -- a `%` is followed by a character, and the digits of its option fit into
    `len_char`. `single_inBounds`, `single_outOfBounds`: exactly then all accesses of a field are
    in bounds; `getSingleFormatProperties_ok_iff`: exactly then the model of the call returns.
  * `setTypes_inBounds` -- the scan counts the `%` it has passed until its offset wraps, and from
    then on meets only fields it met before.
  * `parserSafe_iff` -- so the parser stays in bounds exactly on the formats that `FormatFits`.
-/
import MapleKernel.Stdio.Format

namespace MapleKernel.Stdio

/-! ## 1. The accesses -/

inductive Access where
  | readFormat (offset : Nat)
  | writeLenChar (index : Int)
  | writeInformation (index : Nat)
  | abort
  deriving DecidableEq, Repr

/-- The byte at an offset of the format, in a memory with `beyond` behind the NUL. -/
def byteAt (fmt beyond : List UInt8) (offset : Nat) : UInt8 :=
  (fmt ++ 0 :: beyond).getD offset 0

/-- `count_char`; `fuel` bounds the turns of the loop, here and below. -/
def countCharAccesses (fmt beyond : List UInt8) : Nat → Nat → List Access
  | 0, _ => []
  | fuel + 1, offset =>
      .readFormat offset
        :: if byteAt fmt beyond offset = 0 then []
          else countCharAccesses fmt beyond fuel (offset + 1)

/-- The loop over the digits of an option, on the bytes from `offset` on. `len` is a `uint8_t`;
    the last write is the NUL behind the digits. -/
def digitAccesses : List UInt8 → Nat → Nat → List Access
  | [], offset, len => [.readFormat offset, .writeLenChar (len - 3)]
  | c :: cs, offset, len =>
      .readFormat offset :: .writeLenChar (len - 3)
        :: if isDigit c then digitAccesses cs (offset + 1) ((len + 1) % 2 ^ 8) else []

/-- `get_single_format_properties`, called with the `%` at `offset`. -/
def singleFormatAccesses (fmt beyond : List UInt8) (offset : Nat) : List Access :=
  .readFormat (offset + 1) :: .readFormat (offset + 2)
    :: if charToFmtOption (byteAt fmt beyond (offset + 2)) = .none then []
      else .readFormat (offset + 3)
        :: if isDigit (byteAt fmt beyond (offset + 3))
          then digitAccesses ((fmt ++ 0 :: beyond).drop (offset + 3)) (offset + 3) 3 else []

/-- `set_types_and_pos`; an entry of the table is one write. -/
def setTypesAccesses (fmt beyond : List UInt8) (percentCount : Nat) :
    Nat → Nat → Nat → List Access
  | 0, _, _ => []
  | fuel + 1, offset, count =>
      .readFormat offset
        :: if byteAt fmt beyond offset = 0 then []
          else if byteAt fmt beyond offset = 0x25 then
            if percentCount = count then [.abort]
            else singleFormatAccesses fmt beyond offset ++ .writeInformation count
              :: setTypesAccesses fmt beyond percentCount fuel ((offset + 1) % 2 ^ 16)
                ((count + 1) % 2 ^ 8)
          else setTypesAccesses fmt beyond percentCount fuel ((offset + 1) % 2 ^ 16) count

/-- The parser as `vkprintf` calls it. -/
def parserAccesses (fmt beyond : List UInt8) (fuel : Nat) : List Access :=
  countCharAccesses fmt beyond fuel 0
    ++ if countChar fmt 0x25 = 0 then []
      else setTypesAccesses fmt beyond (countChar fmt 0x25) fuel 0 0

/-- An access inside a format of `length` bytes with its NUL, `len_char`, and a table of
    `entries` fields. -/
def Access.InBounds (length entries : Nat) : Access → Prop
  | .readFormat offset => offset ≤ length
  | .writeLenChar index => 0 ≤ index ∧ index < lenCharSize
  | .writeInformation index => index < entries
  | .abort => True

/-- What a format must not make the parser do, whatever lies behind its NUL. -/
def ParserSafe (fmt : List UInt8) : Prop :=
  ∀ beyond fuel, ∀ a ∈ parserAccesses fmt beyond fuel,
    a.InBounds fmt.length (countChar fmt 0x25) ∧ (fmt.count 0x25 ≤ 255 → a ≠ .abort)

/-! ## 2. One field -/

/-- The option of the field at `offset`. -/
def optionAt (fmt : List UInt8) (offset : Nat) : FmtOption :=
  charToFmtOption (fmt.getD (offset + 2) 0)

/-- The digits of the option of the field at `offset`. -/
def optionDigits (fmt : List UInt8) (offset : Nat) : List UInt8 :=
  (fmt.drop (offset + 3)).takeWhile isDigit

/-- The `%` at `offset` is not the last character, and its digits leave room for the NUL. -/
structure FieldFits (fmt : List UInt8) (offset : Nat) : Prop where
  not_last : offset + 1 < fmt.length
  digits : optionAt fmt offset ≠ .none →
    (optionDigits fmt offset).length < lenCharSize

section Bytes

variable {fmt beyond : List UInt8} {offset : Nat}

theorem byteAt_of_lt (h : offset < fmt.length) : byteAt fmt beyond offset = fmt[offset] := by
  unfold byteAt
  rw [List.getD_eq_getElem?_getD, List.getElem?_append_left h, List.getElem?_eq_getElem h]
  rfl

theorem byteAt_length : byteAt fmt beyond fmt.length = 0 := by simp [byteAt]

theorem byteAt_eq_getD (h : offset ≤ fmt.length) :
    byteAt fmt beyond offset = fmt.getD offset 0 := by
  rcases Nat.lt_or_eq_of_le h with h | rfl
  · rw [byteAt_of_lt h, List.getD_eq_getElem _ _ h]
  · rw [byteAt_length, List.getD_eq_default _ _ (Nat.le_refl _)]

theorem byteAt_option (h : offset + 1 < fmt.length) :
    charToFmtOption (byteAt fmt beyond (offset + 2)) = optionAt fmt offset :=
  congrArg charToFmtOption (byteAt_eq_getD h)

/-- The digits stop at the NUL. -/
theorem digits_eq_optionDigits (h : offset + 3 ≤ fmt.length) :
    ((fmt ++ 0 :: beyond).drop (offset + 3)).takeWhile isDigit = optionDigits fmt offset := by
  rw [List.drop_append_of_le_length h, optionDigits]
  induction fmt.drop (offset + 3) with
  | nil => rfl
  | cons c cs ih =>
      rw [List.cons_append, List.takeWhile_cons, List.takeWhile_cons, ih]

/-- An option has a place in the format. -/
theorem lt_of_option (h : optionAt fmt offset ≠ .none) : offset + 2 < fmt.length := by
  by_contra hge
  rw [optionAt, List.getD_eq_default _ _ (Nat.not_lt.mp hge)] at h
  exact h (by decide)

end Bytes

/-- The accesses of the digit loop, as long as `len` does not wrap. -/
theorem of_mem_digitAccesses {a : Access} {cs : List UInt8} {offset len : Nat}
    (hlen : len + (cs.takeWhile isDigit).length < 2 ^ 8) (ha : a ∈ digitAccesses cs offset len) :
    ∃ i ≤ (cs.takeWhile isDigit).length,
      a = .readFormat (offset + i) ∨ a = .writeLenChar ((len + i : Nat) - 3) := by
  induction cs generalizing offset len with
  | nil => simpa [digitAccesses] using ha
  | cons c cs ih =>
      rw [digitAccesses] at ha
      rcases List.mem_cons.mp ha with rfl | ha
      · exact ⟨0, Nat.zero_le _, Or.inl rfl⟩
      rcases List.mem_cons.mp ha with rfl | ha
      · exact ⟨0, Nat.zero_le _, Or.inr rfl⟩
      by_cases hc : isDigit c = true
      · rw [List.takeWhile_cons_of_pos hc, List.length_cons] at hlen ⊢
        rw [if_pos hc, Nat.mod_eq_of_lt (by omega)] at ha
        obtain ⟨i, hi, h⟩ := ih (by omega) ha
        refine ⟨i + 1, Nat.succ_le_succ hi, ?_⟩
        rwa [Nat.add_right_comm, Nat.add_assoc, Nat.add_right_comm len, Nat.add_assoc len] at h
      · rw [if_neg hc] at ha
        exact absurd ha List.not_mem_nil

/-- Each digit and the NUL behind them is written. -/
theorem writeLenChar_mem_digitAccesses {cs : List UInt8} {offset len i : Nat}
    (hi : i ≤ (cs.takeWhile isDigit).length) (hlen : len + i < 2 ^ 8) :
    .writeLenChar ((len + i : Nat) - 3) ∈ digitAccesses cs offset len := by
  induction cs generalizing offset len i with
  | nil =>
      obtain rfl : i = 0 := Nat.le_zero.mp hi
      exact List.mem_cons_of_mem _ List.mem_cons_self
  | cons c cs ih =>
      rw [digitAccesses]
      cases i with
      | zero => exact List.mem_cons_of_mem _ List.mem_cons_self
      | succ i =>
          have hc : isDigit c = true := by
            by_contra hc
            rw [List.takeWhile_cons_of_neg hc] at hi
            exact absurd hi (Nat.not_succ_le_zero i)
          rw [List.takeWhile_cons_of_pos hc, List.length_cons] at hi
          rw [if_pos hc, Nat.mod_eq_of_lt (by omega)]
          have hrest := @ih (offset + 1) (len + 1) i (Nat.le_of_succ_le_succ hi) (by omega)
          rw [Nat.add_right_comm, Nat.add_assoc] at hrest
          exact List.mem_cons_of_mem _ (List.mem_cons_of_mem _ hrest)

/-- The first of the digits. -/
theorem isDigit_of_digits {fmt : List UInt8} {offset : Nat} (h : optionDigits fmt offset ≠ []) :
    isDigit (fmt.getD (offset + 3) 0) = true := by
  unfold optionDigits at h
  cases hdrop : fmt.drop (offset + 3) with
  | nil => rw [hdrop] at h; exact absurd rfl h
  | cons c cs =>
      have hc : fmt[offset + 3]? = some c := by
        rw [← Nat.add_zero (offset + 3), ← List.getElem?_drop, hdrop]
        rfl
      rw [hdrop] at h
      rw [List.getD_eq_getElem?_getD, hc]
      show isDigit c = true
      by_contra hd
      rw [List.takeWhile_cons_of_neg hd] at h
      exact h rfl

theorem charAt_drop {fmt : List UInt8} {offset : Nat} (hoff : offset ≤ fmt.length) (i : Nat) :
    charAt (fmt.drop offset) i
      = if offset + i ≤ fmt.length then .ok (fmt.getD (offset + i) 0) else .error .outOfBounds := by
  unfold charAt
  rw [List.getElem?_drop, List.length_drop]
  rcases Nat.lt_trichotomy (offset + i) fmt.length with hlt | heq | hgt
  · rw [List.getElem?_eq_getElem hlt, if_pos (Nat.le_of_lt hlt), List.getD_eq_getElem _ _ hlt]
  · rw [List.getElem?_eq_none (Nat.le_of_eq heq.symm), if_pos (Nat.le_of_eq heq),
      List.getD_eq_default _ _ (Nat.le_of_eq heq.symm)]
    exact if_pos (by omega)
  · rw [List.getElem?_eq_none (Nat.le_of_lt hgt), if_neg (Nat.not_le.mpr hgt)]
    exact if_neg (by omega)

section Single

variable {fmt : List UInt8} {offset : Nat}

/-- **A field that fits**: its accesses are in bounds. -/
theorem single_inBounds (h : FieldFits fmt offset) (beyond : List UInt8) (entries : Nat) :
    ∀ a ∈ singleFormatAccesses fmt beyond offset,
      a.InBounds fmt.length entries ∧ a ≠ .abort := by
  have hlast := h.not_last
  intro a ha
  unfold singleFormatAccesses at ha
  rw [byteAt_option hlast] at ha
  rcases List.mem_cons.mp ha with rfl | ha
  · exact ⟨Nat.le_of_lt hlast, nofun⟩
  rcases List.mem_cons.mp ha with rfl | ha
  · exact ⟨hlast, nofun⟩
  by_cases hoption : optionAt fmt offset = .none
  · rw [if_pos hoption] at ha
    exact absurd ha List.not_mem_nil
  have hlt := lt_of_option hoption
  have hfit := h.digits hoption
  rw [if_neg hoption] at ha
  rcases List.mem_cons.mp ha with rfl | ha
  · exact ⟨hlt, nofun⟩
  split at ha
  · unfold lenCharSize at hfit
    have hrun := @digits_eq_optionDigits fmt beyond offset hlt
    obtain ⟨i, hi, rfl | rfl⟩ := of_mem_digitAccesses (by rw [hrun]; omega) ha
    · have hle : (optionDigits fmt offset).length ≤ (fmt.drop (offset + 3)).length :=
        (List.takeWhile_sublist _).length_le
      rw [List.length_drop] at hle
      rw [hrun] at hi
      exact ⟨show offset + 3 + i ≤ fmt.length by omega, nofun⟩
    · rw [hrun] at hi
      refine ⟨?_, nofun⟩
      show (0 : Int) ≤ _ ∧ _ < ((8 : Nat) : Int)
      omega
  · exact absurd ha List.not_mem_nil

/-- **A field that does not fit**: one of its accesses is out of bounds, whatever lies behind
    the NUL. -/
theorem single_outOfBounds (h : ¬ FieldFits fmt offset) (hoff : offset < fmt.length)
    (beyond : List UInt8) (entries : Nat) :
    ∃ a ∈ singleFormatAccesses fmt beyond offset, ¬ a.InBounds fmt.length entries := by
  by_cases hlast : offset + 1 < fmt.length
  · -- too many digits: the ninth byte of `len_char`
    have hdigits : ¬ (optionAt fmt offset ≠ .none →
        (optionDigits fmt offset).length < lenCharSize) := fun hd => h ⟨hlast, hd⟩
    rw [Classical.not_imp] at hdigits
    obtain ⟨hoption, hlong⟩ := hdigits
    have hlt := lt_of_option hoption
    have hnine : 8 ≤ (optionDigits fmt offset).length := Nat.not_lt.mp hlong
    refine ⟨.writeLenChar ((3 + 8 : Nat) - 3), ?_, ?_⟩
    · have hfirst : isDigit (byteAt fmt beyond (offset + 3)) = true := by
        rw [byteAt_eq_getD hlt]
        exact isDigit_of_digits (List.length_pos_iff.mp (by omega))
      have hrun : 8 ≤ (((fmt ++ 0 :: beyond).drop (offset + 3)).takeWhile isDigit).length := by
        rwa [digits_eq_optionDigits hlt]
      rw [singleFormatAccesses, byteAt_option hlast, if_neg hoption, if_pos hfirst]
      have hmem := @writeLenChar_mem_digitAccesses _ (offset + 3) 3 8 hrun (by decide)
      exact List.mem_cons_of_mem _ (List.mem_cons_of_mem _ (List.mem_cons_of_mem _ hmem))
    · show ¬ ((0 : Int) ≤ _ ∧ _ < ((8 : Nat) : Int))
      omega
  · refine ⟨.readFormat (offset + 2), ?_, ?_⟩
    · exact List.mem_cons_of_mem _ List.mem_cons_self
    · show ¬ offset + 2 ≤ fmt.length
      omega

/-- The call on a field inside a format. -/
theorem getSingleFormatProperties_drop (frame : Frame) (hlast : offset + 1 < fmt.length) :
    getSingleFormatProperties frame (fmt.drop offset) =
      if optionAt fmt offset = .none then
        .ok { type := charToPrintfTag (fmt.getD (offset + 1) 0), option := .none
              optionNum := 0, len := 2 }
      else if isDigit (fmt.getD (offset + 3) 0) then
        if (optionDigits fmt offset).length < lenCharSize then do
          let len32 ← stringToUint (optionDigits fmt offset) frame.below
          return { type := charToPrintfTag (fmt.getD (offset + 1) 0)
                   option := if len32 = 2 ^ 32 - 1 then .couldNotConvert
                     else optionAt fmt offset
                   optionNum := len32 % 2 ^ 8
                   len := 3 + (optionDigits fmt offset).length }
        else .error .outOfBounds
      else
        .ok { type := charToPrintfTag (fmt.getD (offset + 1) 0), option := .notImplemented
              optionNum := frame.optionNum, len := frame.len } := by
  have hoff : offset ≤ fmt.length := by omega
  have hdigits : ((fmt.drop offset).drop 3).takeWhile isDigit = optionDigits fmt offset := by
    rw [List.drop_drop]
    rfl
  have hopt : charToFmtOption (fmt.getD (offset + 2) 0) = optionAt fmt offset := rfl
  unfold getSingleFormatProperties
  simp only [charAt_drop hoff, if_pos (Nat.le_of_lt hlast), hdigits, bind, Except.bind, pure,
    Except.pure]
  rw [if_pos (show offset + 2 ≤ fmt.length from hlast)]
  by_cases hoption : optionAt fmt offset = .none
  · simp only [hopt, hoption, if_true]
  · have hlt := lt_of_option hoption
    simp only [hopt, hoption, if_false, if_pos (show offset + 3 ≤ fmt.length from hlt)]

/-- **The model of the call returns** exactly if the field fits. -/
theorem getSingleFormatProperties_ok_iff (frame : Frame) (hoff : offset < fmt.length) :
    (∃ p, getSingleFormatProperties frame (fmt.drop offset) = .ok p) ↔ FieldFits fmt offset := by
  by_cases hlast : offset + 1 < fmt.length
  · rw [getSingleFormatProperties_drop frame hlast]
    constructor
    · intro ⟨p, hp⟩
      refine ⟨hlast, fun hoption => ?_⟩
      rw [if_neg hoption] at hp
      by_contra hlong
      have hdigits : optionDigits fmt offset ≠ [] := fun e => hlong (by rw [e]; decide)
      rw [if_pos (isDigit_of_digits hdigits), if_neg hlong] at hp
      cases hp
    · intro hfit
      by_cases hoption : optionAt fmt offset = .none
      · rw [if_pos hoption]
        exact ⟨_, rfl⟩
      · rw [if_neg hoption, if_pos (hfit.digits hoption)]
        obtain ⟨len32, hlen32⟩ := stringToUint_ok (optionDigits fmt offset) frame.stops
        rw [hlen32]
        split
        · exact ⟨_, rfl⟩
        · exact ⟨_, rfl⟩
  · constructor
    · intro ⟨p, hp⟩
      unfold getSingleFormatProperties at hp
      rw [charAt_drop (Nat.le_of_lt hoff), charAt_drop (Nat.le_of_lt hoff),
        if_pos (show offset + 1 ≤ fmt.length from hoff), if_neg (by omega)] at hp
      cases hp
    · intro hfit
      exact absurd hfit.not_last hlast

end Single

/-! ## 3. The scan -/

/-- The number of `%` before `offset`. -/
def percentsBefore (fmt : List UInt8) (offset : Nat) : Nat := (fmt.take offset).count 0x25

section Percents

variable {fmt : List UInt8} {offset : Nat}

theorem percentsBefore_succ (hlt : offset < fmt.length) :
    percentsBefore fmt (offset + 1)
      = percentsBefore fmt offset + if fmt[offset] = 0x25 then 1 else 0 := by
  unfold percentsBefore
  rw [List.take_add_one, List.getElem?_eq_getElem hlt, List.count_append]
  congr 1
  simp [List.count_cons]

theorem percentsBefore_mono {o o' : Nat} (h : o ≤ o') :
    percentsBefore fmt o ≤ percentsBefore fmt o' :=
  (List.take_sublist_take_left h).count_le _

theorem percentsBefore_le : percentsBefore fmt offset ≤ fmt.count 0x25 :=
  (List.take_sublist _ _).count_le _

end Percents

/-- The fields that the scan looks at fit, and a format with few fields is short enough for the
    offset not to wrap. -/
structure FormatFits (fmt : List UInt8) : Prop where
  fields : ∀ offset < 2 ^ 16, fmt[offset]? = some 0x25 →
    percentsBefore fmt offset < countChar fmt 0x25 → FieldFits fmt offset
  length_lt : fmt.count 0x25 ≤ 255 → 0x25 ∈ fmt.take (2 ^ 16) → fmt.length < 2 ^ 16

/-- **The invariant of the scan**: before the offset wraps `count` counts the `%` passed; after
    that the table has room for all of them. -/
def Counted (fmt : List UInt8) (percentCount offset count : Nat) : Prop :=
  count ≤ percentCount ∧
    (count = percentsBefore fmt offset ∨ percentsBefore fmt (2 ^ 16) ≤ percentCount)

section Scan

variable {fmt : List UInt8} {percentCount offset count : Nat}

/-- One turn of the loop keeps the invariant. -/
theorem Counted.next (h : Counted fmt percentCount offset count) (hoff : offset < 2 ^ 16)
    (hlt : offset < fmt.length) (hroom : fmt[offset] = 0x25 → count < percentCount) :
    Counted fmt percentCount ((offset + 1) % 2 ^ 16)
      (count + if fmt[offset] = 0x25 then 1 else 0) := by
  obtain ⟨hle, hcount⟩ := h
  have hle' : count + (if fmt[offset] = 0x25 then 1 else 0) ≤ percentCount := by
    split
    · next hp => exact hroom hp
    · exact hle
  refine ⟨hle', ?_⟩
  rcases hcount with rfl | hall
  · rw [← percentsBefore_succ hlt] at hle' ⊢
    rcases Nat.lt_or_eq_of_le (Nat.succ_le_of_lt hoff) with hin | hwrap
    · rw [Nat.mod_eq_of_lt hin]
      exact Or.inl rfl
    · have hwrap' : offset + 1 = 2 ^ 16 := hwrap
      rw [hwrap'] at hle'
      exact Or.inr hle'
  · exact Or.inr hall

/-- A `%` that the scan looks at is one of the first ones. -/
theorem Counted.before (h : Counted fmt percentCount offset count) (hoff : offset < 2 ^ 16)
    (hlt : offset < fmt.length) (hp : fmt[offset] = 0x25) (hroom : count < percentCount) :
    percentsBefore fmt offset < percentCount := by
  rcases h.2 with rfl | hall
  · exact hroom
  · have hsucc := percentsBefore_succ hlt
    rw [if_pos hp] at hsucc
    have hmono := @percentsBefore_mono fmt _ _ (show offset + 1 ≤ 2 ^ 16 from hoff)
    omega

variable {beyond : List UInt8}

theorem setTypesAccesses_nul (fuel : Nat) :
    setTypesAccesses fmt beyond percentCount (fuel + 1) fmt.length count
      = [.readFormat fmt.length] := by
  rw [setTypesAccesses, byteAt_length, if_pos rfl]

theorem setTypesAccesses_percent (hlt : offset < fmt.length) (hp : fmt[offset] = 0x25)
    (fuel : Nat) :
    setTypesAccesses fmt beyond percentCount (fuel + 1) offset count
      = .readFormat offset :: if percentCount = count then [.abort]
          else singleFormatAccesses fmt beyond offset ++ .writeInformation count
            :: setTypesAccesses fmt beyond percentCount fuel ((offset + 1) % 2 ^ 16)
              ((count + 1) % 2 ^ 8) := by
  have hne : ¬ (0x25 : UInt8) = 0 := by decide
  rw [setTypesAccesses, byteAt_of_lt hlt, hp, if_neg hne, if_pos rfl]

theorem setTypesAccesses_other (hlt : offset < fmt.length) (h0 : 0 ∉ fmt)
    (hp : fmt[offset] ≠ 0x25) (fuel : Nat) :
    setTypesAccesses fmt beyond percentCount (fuel + 1) offset count
      = .readFormat offset
          :: setTypesAccesses fmt beyond percentCount fuel ((offset + 1) % 2 ^ 16) count := by
  have hne : fmt[offset] ≠ 0 := fun e => h0 (e ▸ List.getElem_mem hlt)
  rw [setTypesAccesses, byteAt_of_lt hlt, if_neg hne, if_neg hp]

theorem mod_le_length (hlt : offset < fmt.length) : (offset + 1) % 2 ^ 16 ≤ fmt.length :=
  Nat.le_trans (Nat.mod_le _ _) hlt

theorem mod_lt : (offset + 1) % 2 ^ 16 < 2 ^ 16 := Nat.mod_lt _ (by decide)

/-- **The scan stays in bounds** if the fields it looks at fit. -/
theorem setTypes_inBounds (h0 : 0 ∉ fmt) (hpercent : percentCount < 2 ^ 8)
    (hfit : ∀ offset < 2 ^ 16, fmt[offset]? = some 0x25 →
      percentsBefore fmt offset < percentCount → FieldFits fmt offset)
    (fuel : Nat) (hoff : offset < 2 ^ 16) (hle : offset ≤ fmt.length)
    (hcount : Counted fmt percentCount offset count) :
    ∀ a ∈ setTypesAccesses fmt beyond percentCount fuel offset count,
      a.InBounds fmt.length percentCount := by
  induction fuel generalizing offset count with
  | zero => exact fun a ha => absurd ha List.not_mem_nil
  | succ fuel ih =>
      intro a ha
      rcases Nat.lt_or_eq_of_le hle with hlt | rfl
      · by_cases hp : fmt[offset] = 0x25
        · rw [setTypesAccesses_percent hlt hp] at ha
          rcases List.mem_cons.mp ha with rfl | ha
          · exact hle
          by_cases hfull : percentCount = count
          · rw [if_pos hfull, List.mem_singleton] at ha
            rw [ha]
            trivial
          · have hroom : count < percentCount := Nat.lt_of_le_of_ne hcount.1 (Ne.symm hfull)
            have hbefore := hcount.before hoff hlt hp hroom
            have hnext := hcount.next hoff hlt fun _ => hroom
            rw [if_pos hp] at hnext
            rw [if_neg hfull, Nat.mod_eq_of_lt (show count + 1 < 2 ^ 8 by omega)] at ha
            rcases List.mem_append.mp ha with ha | ha
            · have hfield := hfit offset hoff
                (by rw [List.getElem?_eq_getElem hlt, hp]) hbefore
              exact (single_inBounds hfield beyond percentCount a ha).1
            rcases List.mem_cons.mp ha with rfl | ha
            · exact hroom
            · exact ih mod_lt (mod_le_length hlt) hnext a ha
        · rw [setTypesAccesses_other hlt h0 hp] at ha
          have hnext := hcount.next hoff hlt fun e => absurd e hp
          rw [if_neg hp, Nat.add_zero] at hnext
          rcases List.mem_cons.mp ha with rfl | ha
          · exact hle
          · exact ih mod_lt (mod_le_length hlt) hnext a ha
      · rw [setTypesAccesses_nul, List.mem_singleton] at ha
        rw [ha]
        exact Nat.le_refl _

/-- **No abort** while the offset does not wrap and the table has room for every `%`. -/
theorem setTypes_no_abort (h0 : 0 ∉ fmt) (hlen : fmt.length < 2 ^ 16)
    (hfew : fmt.count 0x25 ≤ 255)
    (hfit : ∀ offset < 2 ^ 16, fmt[offset]? = some 0x25 → FieldFits fmt offset)
    (fuel : Nat) (hle : offset ≤ fmt.length) :
    .abort ∉ setTypesAccesses fmt beyond (fmt.count 0x25) fuel offset
      (percentsBefore fmt offset) := by
  induction fuel generalizing offset with
  | zero => exact List.not_mem_nil
  | succ fuel ih =>
      rcases Nat.lt_or_eq_of_le hle with hlt | rfl
      · have hnext := ih (show offset + 1 ≤ fmt.length from hlt)
        have hsucc := percentsBefore_succ hlt
        have hall := @percentsBefore_le fmt (offset + 1)
        by_cases hp : fmt[offset] = 0x25
        · rw [if_pos hp] at hsucc
          rw [hsucc] at hnext hall
          have hfield := hfit offset (by omega) (by rw [List.getElem?_eq_getElem hlt, hp])
          rw [setTypesAccesses_percent hlt hp, if_neg (by omega),
            Nat.mod_eq_of_lt (show offset + 1 < 2 ^ 16 by omega),
            Nat.mod_eq_of_lt (show percentsBefore fmt offset + 1 < 2 ^ 8 by omega)]
          intro ha
          rcases List.mem_append.mp ((List.mem_cons.mp ha).resolve_left nofun) with ha | ha
          · exact (single_inBounds hfield beyond 0 _ ha).2 rfl
          · exact hnext ((List.mem_cons.mp ha).resolve_left nofun)
        · rw [if_neg hp, Nat.add_zero] at hsucc
          rw [hsucc] at hnext
          rw [setTypesAccesses_other hlt h0 hp,
            Nat.mod_eq_of_lt (show offset + 1 < 2 ^ 16 by omega)]
          exact fun ha => hnext ((List.mem_cons.mp ha).resolve_left nofun)
      · rw [setTypesAccesses_nul]
        exact fun ha => nomatch List.mem_singleton.mp ha

/-- Without a `%` before the wrap there is nothing to abort. -/
theorem setTypes_no_percent (h0 : 0 ∉ fmt)
    (hnone : ∀ offset < 2 ^ 16, fmt[offset]? ≠ some 0x25)
    (fuel : Nat) (hoff : offset < 2 ^ 16) (hle : offset ≤ fmt.length) :
    .abort ∉ setTypesAccesses fmt beyond percentCount fuel offset count := by
  induction fuel generalizing offset with
  | zero => exact List.not_mem_nil
  | succ fuel ih =>
      rcases Nat.lt_or_eq_of_le hle with hlt | rfl
      · have hp : fmt[offset] ≠ 0x25 := fun e =>
          hnone offset hoff (by rw [List.getElem?_eq_getElem hlt, e])
        rw [setTypesAccesses_other hlt h0 hp]
        exact fun ha => ih mod_lt (mod_le_length hlt) ((List.mem_cons.mp ha).resolve_left nofun)
      · rw [setTypesAccesses_nul]
        exact fun ha => nomatch List.mem_singleton.mp ha

/-- The accesses of the scan include those from an `offset` that it gets to before it wraps. -/
theorem setTypes_reach (h0 : 0 ∉ fmt) (hpercent : percentCount < 2 ^ 8)
    (hle : offset ≤ fmt.length) (hoff : offset < 2 ^ 16)
    (hroom : percentsBefore fmt offset ≤ percentCount) (fuel : Nat) {a : Access}
    (ha : a ∈ setTypesAccesses fmt beyond percentCount fuel offset (percentsBefore fmt offset)) :
    a ∈ setTypesAccesses fmt beyond percentCount (fuel + offset) 0 0 := by
  induction offset generalizing fuel with
  | zero => exact ha
  | succ offset ih =>
      have hlt : offset < fmt.length := hle
      have hsucc := percentsBefore_succ hlt
      have hstep := ih (Nat.le_of_lt hlt) (Nat.lt_of_succ_lt hoff)
        (Nat.le_trans (percentsBefore_mono (Nat.le_succ _)) hroom) (fuel + 1)
      rw [Nat.add_right_comm] at hstep
      refine hstep ?_
      by_cases hp : fmt[offset] = 0x25
      · rw [if_pos hp] at hsucc
        rw [hsucc] at ha hroom
        rw [setTypesAccesses_percent hlt hp, if_neg (by omega), Nat.mod_eq_of_lt hoff,
          Nat.mod_eq_of_lt (show percentsBefore fmt offset + 1 < 2 ^ 8 by omega)]
        exact List.mem_cons_of_mem _ (List.mem_append_right _ (List.mem_cons_of_mem _ ha))
      · rw [if_neg hp, Nat.add_zero] at hsucc
        rw [hsucc] at ha
        rw [setTypesAccesses_other hlt h0 hp, Nat.mod_eq_of_lt hoff]
        exact List.mem_cons_of_mem _ ha

/-- How far it is from `offset` to `o` for a counter that wraps. -/
def wrapDistance (offset o : Nat) : Nat := (o + 2 ^ 16 - offset) % 2 ^ 16

/-- At a `%` the scan aborts, or goes on with one entry less. -/
theorem abort_of_percent (hpercent : percentCount < 2 ^ 8) (hcount : count ≤ percentCount)
    (hlt : offset < fmt.length) (hp : fmt[offset] = 0x25)
    (hnext : count + 1 ≤ percentCount → ∃ fuel,
      .abort ∈ setTypesAccesses fmt beyond percentCount fuel ((offset + 1) % 2 ^ 16) (count + 1)) :
    ∃ fuel, .abort ∈ setTypesAccesses fmt beyond percentCount fuel offset count := by
  by_cases hfull : percentCount = count
  · refine ⟨1, ?_⟩
    rw [setTypesAccesses_percent hlt hp, if_pos hfull]
    exact List.mem_cons_of_mem _ List.mem_cons_self
  · obtain ⟨fuel, hfuel⟩ := hnext (by omega)
    refine ⟨fuel + 1, ?_⟩
    rw [setTypesAccesses_percent hlt hp, if_neg hfull,
      Nat.mod_eq_of_lt (show count + 1 < 2 ^ 8 by omega)]
    exact List.mem_cons_of_mem _ (List.mem_append_right _ (List.mem_cons_of_mem _ hfuel))

/-- **A format too long for the offset**: the scan goes round until the table is full, and
    aborts at the next `%`. -/
theorem setTypes_wrap_abort (h0 : 0 ∉ fmt) (hpercent : percentCount < 2 ^ 8)
    (hlen : 2 ^ 16 ≤ fmt.length) {o : Nat} (ho : o < 2 ^ 16) (hpo : fmt[o]? = some 0x25)
    (hoff : offset < 2 ^ 16) (hcount : count ≤ percentCount) :
    ∃ fuel, .abort ∈ setTypesAccesses fmt beyond percentCount fuel offset count := by
  have hwrap : ∀ o', o' < 2 ^ 16 → o' < fmt.length := fun o' h => Nat.lt_of_lt_of_le h hlen
  have hlt := hwrap offset hoff
  -- by the free entries of the table, then by the way to the `%` at `o`
  obtain ⟨free, hfree⟩ : ∃ free, free = percentCount - count := ⟨_, rfl⟩
  induction free using Nat.strong_induction_on generalizing offset count with
  | _ free ihFree =>
      obtain ⟨d, hd⟩ : ∃ d, d = wrapDistance offset o := ⟨_, rfl⟩
      induction d generalizing offset with
      | zero =>
          have heq : offset = o := by unfold wrapDistance at hd; omega
          have hp : fmt[offset] = 0x25 := by
            rw [← heq, List.getElem?_eq_getElem hlt] at hpo
            exact Option.some.inj hpo
          exact abort_of_percent hpercent hcount hlt hp fun hroom =>
            ihFree (percentCount - (count + 1)) (by omega) mod_lt hroom
              (hwrap _ mod_lt) rfl
      | succ d ih =>
          by_cases hp : fmt[offset] = 0x25
          · exact abort_of_percent hpercent hcount hlt hp fun hroom =>
              ihFree (percentCount - (count + 1)) (by omega) mod_lt hroom
                (hwrap _ mod_lt) rfl
          · have hstep : d = wrapDistance ((offset + 1) % 2 ^ 16) o := by
              unfold wrapDistance at hd ⊢
              omega
            obtain ⟨fuel, hfuel⟩ := ih mod_lt (hwrap _ mod_lt) hstep
            refine ⟨fuel + 1, ?_⟩
            rw [setTypesAccesses_other hlt h0 hp]
            exact List.mem_cons_of_mem _ hfuel

end Scan

/-! ## 4. The parser -/

section Parser

variable {fmt : List UInt8}

theorem countChar_inBounds (h0 : 0 ∉ fmt) (beyond : List UInt8) (entries fuel : Nat)
    {offset : Nat} (hle : offset ≤ fmt.length) :
    ∀ a ∈ countCharAccesses fmt beyond fuel offset, a.InBounds fmt.length entries ∧ a ≠ .abort := by
  induction fuel generalizing offset with
  | zero => exact fun a ha => absurd ha List.not_mem_nil
  | succ fuel ih =>
      intro a ha
      rcases List.mem_cons.mp ha with rfl | ha
      · exact ⟨hle, nofun⟩
      rcases Nat.lt_or_eq_of_le hle with hlt | rfl
      · have hne : fmt[offset] ≠ 0 := fun e => h0 (e ▸ List.getElem_mem hlt)
        rw [byteAt_of_lt hlt, if_neg hne] at ha
        exact ih (show offset + 1 ≤ fmt.length from hlt) a ha
      · rw [byteAt_length, if_pos rfl] at ha
        exact absurd ha List.not_mem_nil

theorem countChar_lt : countChar fmt 0x25 < 2 ^ 8 := Nat.mod_lt _ (by decide)

/-- A `%` before the wrap is one of the bytes the scan can see. -/
theorem percent_mem_take {offset : Nat} (hoff : offset < 2 ^ 16)
    (hp : fmt[offset]? = some 0x25) : 0x25 ∈ fmt.take (2 ^ 16) := by
  refine List.mem_iff_getElem?.mpr ⟨offset, ?_⟩
  rw [List.getElem?_take, if_pos hoff, hp]

theorem parserSafe_of_fits (h0 : 0 ∉ fmt) (h : FormatFits fmt) : ParserSafe fmt := by
  intro beyond fuel a ha
  rcases List.mem_append.mp ha with ha | ha
  · obtain ⟨hin, hne⟩ := countChar_inBounds h0 beyond _ fuel (Nat.zero_le _) a ha
    exact ⟨hin, fun _ => hne⟩
  · split at ha
    · exact absurd ha List.not_mem_nil
    next hsome =>
    refine ⟨setTypes_inBounds h0 countChar_lt h.fields fuel (by decide) (Nat.zero_le _)
      ⟨Nat.zero_le _, Or.inl rfl⟩ a ha, fun hfew => ?_⟩
    intro e
    rw [e] at ha
    have hcount : countChar fmt 0x25 = fmt.count 0x25 := Nat.mod_eq_of_lt (by omega)
    by_cases hseen : 0x25 ∈ fmt.take (2 ^ 16)
    · have hlen := h.length_lt hfew hseen
      rw [hcount] at ha
      refine setTypes_no_abort h0 hlen hfew (fun offset hoff hp => ?_) fuel (Nat.zero_le _) ha
      obtain ⟨hlt, hpl⟩ := List.getElem?_eq_some_iff.mp hp
      have hsucc := percentsBefore_succ hlt
      rw [if_pos hpl] at hsucc
      have hall := @percentsBefore_le fmt (offset + 1)
      exact h.fields offset hoff hp (by omega)
    · exact setTypes_no_percent h0 (fun offset hoff hp => hseen (percent_mem_take hoff hp)) fuel
        (by decide) (Nat.zero_le _) ha

/-- **When the parser is memory safe**: exactly on the formats that fit. -/
theorem parserSafe_iff (fmt : List UInt8) (h0 : 0 ∉ fmt) : ParserSafe fmt ↔ FormatFits fmt := by
  refine ⟨fun h => ⟨fun offset hoff hp hbefore => ?_, fun hfew hseen => ?_⟩,
    parserSafe_of_fits h0⟩
  · by_contra hfit
    obtain ⟨hlt, hpl⟩ := List.getElem?_eq_some_iff.mp hp
    obtain ⟨a, ha, hout⟩ := single_outOfBounds hfit hlt [] (countChar fmt 0x25)
    have hscan : a ∈ setTypesAccesses fmt [] (countChar fmt 0x25) 1 offset
        (percentsBefore fmt offset) := by
      rw [setTypesAccesses_percent hlt hpl, if_neg (by omega)]
      exact List.mem_cons_of_mem _ (List.mem_append_left _ ha)
    have hreach := setTypes_reach h0 countChar_lt (Nat.le_of_lt hlt) hoff (Nat.le_of_lt hbefore) 1
      hscan
    have hsome : ¬ countChar fmt 0x25 = 0 := by omega
    refine hout (h [] (1 + offset) a (List.mem_append_right _ ?_)).1
    rw [if_neg hsome]
    exact hreach
  · by_contra hlong
    obtain ⟨o, ho⟩ := List.mem_iff_getElem?.mp hseen
    rw [List.getElem?_take] at ho
    split at ho
    next hlt =>
      have hcount : countChar fmt 0x25 = fmt.count 0x25 := Nat.mod_eq_of_lt (by omega)
      have hpos : 0 < fmt.count 0x25 :=
        List.count_pos_iff.mpr (List.mem_of_mem_take hseen)
      obtain ⟨fuel, hfuel⟩ := @setTypes_wrap_abort fmt (countChar fmt 0x25) 0 0 [] h0 countChar_lt
        (Nat.not_lt.mp hlong) o hlt ho (by decide) (Nat.zero_le _)
      refine (h [] fuel .abort (List.mem_append_right _ ?_)).2 hfew rfl
      rw [if_neg (by omega)]
      exact hfuel
    · cases ho

end Parser

/-- `%d` fits. -/
theorem parserSafe_iff_plain : ParserSafe [0x25, 0x64] ↔ FormatFits [0x25, 0x64] :=
  parserSafe_iff [0x25, 0x64] (by decide)

/-- The format `100%` makes the parser read behind its NUL. -/
theorem not_parserSafe_lastPercent : ¬ ∀ fmt : List UInt8, 0 ∉ fmt → ParserSafe fmt := by
  intro h
  have hread : 5 ≤ 4 :=
    (h [0x31, 0x30, 0x30, 0x25] (by decide) [] 4 (.readFormat 5) (by decide)).1
  exact absurd hread (by decide)

end MapleKernel.Stdio
