/-
  File:      Stdio/FormatOptions.lean
  Subject:   OPTION CHARACTERS THAT ARE PUNCTUATION: `%d.` at the end of a sentence.

  `get_single_format_properties` has three exits. The one for an option character without a digit
  behind it sets `option` and leaves `len` and `option_num` as the stack frame had them; `len` is
  then where the next window of text starts.

  * `singleFormat_cases` -- what a call returns, exit by exit.
  * `printField_malformed` -- the argument of such a field is rendered like that of the field
    without the option.
  * `optionsLoseNoText_iff` -- its text is lost: the formats without such a field are exactly the
    ones whose windows are determined.
-/
import MapleKernel.Stdio.FormatTable

namespace MapleKernel.Stdio

/-! ## 1. The three exits -/

/-- The option character of the field at `offset` is not followed by a digit. -/
structure Malformed (fmt : List UInt8) (offset : Nat) : Prop where
  option : optionAt fmt offset ≠ .none
  no_digit : isDigit (fmt.getD (offset + 3) 0) = false

section Exits

variable {fmt : List UInt8} {offset : Nat} {frame : Frame} {p : SingleFormat}

/-- **What a call returns**, by its exit: no option, an option without a number, one with. -/
theorem singleFormat_cases (hoff : offset < fmt.length)
    (h : getSingleFormatProperties frame (fmt.drop offset) = .ok p) :
    p.type = charToPrintfTag (fmt.getD (offset + 1) 0) ∧
      ((optionAt fmt offset = .none ∧ p.option = .none ∧ p.optionNum = 0 ∧ p.len = 2) ∨
      (Malformed fmt offset ∧ p.option = .notImplemented ∧ p.optionNum = frame.optionNum ∧
        p.len = frame.len) ∨
      (optionAt fmt offset ≠ .none ∧ isDigit (fmt.getD (offset + 3) 0) = true ∧
        ∃ len32, stringToUint (optionDigits fmt offset) frame.below = .ok len32 ∧
          p.option = (if len32 = 2 ^ 32 - 1 then .couldNotConvert else optionAt fmt offset) ∧
          p.optionNum = len32 % 2 ^ 8 ∧ p.len = 3 + (optionDigits fmt offset).length)) := by
  have hfit := (getSingleFormatProperties_ok_iff frame hoff).mp ⟨p, h⟩
  rw [getSingleFormatProperties_drop frame hfit.not_last] at h
  by_cases hoption : optionAt fmt offset = .none
  · rw [if_pos hoption] at h
    cases h
    exact ⟨rfl, Or.inl ⟨hoption, rfl, rfl, rfl⟩⟩
  rw [if_neg hoption] at h
  by_cases hdigit : isDigit (fmt.getD (offset + 3) 0) = true
  · rw [if_pos hdigit, if_pos (hfit.digits hoption)] at h
    obtain ⟨len32, hlen32, h⟩ := bind_eq_ok.mp h
    cases h
    exact ⟨rfl, Or.inr (Or.inr ⟨hoption, hdigit, len32, hlen32, rfl, rfl, rfl⟩)⟩
  · rw [if_neg hdigit] at h
    cases h
    exact ⟨rfl, Or.inr (Or.inl ⟨⟨hoption, Bool.eq_false_iff.mpr hdigit⟩, rfl, rfl, rfl⟩)⟩

/-- The length of the text of a field that is not malformed. -/
theorem singleFormat_len (hoff : offset < fmt.length) (hm : ¬ Malformed fmt offset)
    (h : getSingleFormatProperties frame (fmt.drop offset) = .ok p) :
    p.len = if optionAt fmt offset = .none then 2 else 3 + (optionDigits fmt offset).length := by
  rcases (singleFormat_cases hoff h).2 with
    ⟨hnone, -, -, hlen⟩ | ⟨hmal, -⟩ | ⟨hsome, -, -, -, -, -, hlen⟩
  · rw [if_pos hnone, hlen]
  · exact absurd hmal hm
  · rw [if_neg hsome, hlen]

/-- Nothing of the result is left from the stack exactly if the field fits and is not malformed. -/
theorem assigned_iff (hoff : offset < fmt.length) :
    (∀ below stops, ∃ p, ∀ len optionNum,
      getSingleFormatProperties ⟨below, stops, len, optionNum⟩ (fmt.drop offset) = .ok p)
    ↔ FieldFits fmt offset ∧ ¬ Malformed fmt offset := by
  constructor
  · intro h
    obtain ⟨p, hp⟩ := h [0] ⟨0, List.mem_singleton_self 0, rfl⟩
    refine ⟨(getSingleFormatProperties_ok_iff _ hoff).mp ⟨p, hp 0 0⟩, fun hm => ?_⟩
    -- two frames with different leftovers
    have hlen : ∀ n, p.len = n := fun n => by
      rcases (singleFormat_cases hoff (hp n 0)).2 with ⟨hnone, -⟩ | ⟨-, -, -, hlen⟩ | ⟨-, hd, -⟩
      · exact absurd hnone hm.option
      · exact hlen
      · rw [hm.no_digit] at hd
        cases hd
    exact absurd ((hlen 0).symm.trans (hlen 1)) (by decide)
  · intro ⟨hfit, hm⟩ below stops
    obtain ⟨p, hp⟩ := (getSingleFormatProperties_ok_iff ⟨below, stops, 0, 0⟩ hoff).mpr hfit
    refine ⟨p, fun len optionNum => ?_⟩
    rw [← hp, getSingleFormatProperties_drop _ hfit.not_last,
      getSingleFormatProperties_drop _ hfit.not_last]
    by_cases hoption : optionAt fmt offset = .none
    · rw [if_pos hoption, if_pos hoption]
    · have hdigit : isDigit (fmt.getD (offset + 3) 0) = true := by
        by_contra hd
        exact hm ⟨hoption, Bool.eq_false_iff.mpr hd⟩
      rw [if_neg hoption, if_neg hoption, if_pos hdigit, if_pos hdigit]

end Exits

/-- The field of the same type without an option. -/
def SingleFormat.optionless (p : SingleFormat) : SingleFormat :=
  { p with option := .none, optionNum := 0, len := 2 }

/-- **A malformed field is rendered like the one without the option.** -/
theorem printField_malformed (env : PrintfEnv) {fmt : List UInt8} {offset : Nat} {frame : Frame}
    {p : SingleFormat} (hoff : offset < fmt.length) (hm : Malformed fmt offset)
    (h : getSingleFormatProperties frame (fmt.drop offset) = .ok p) (args : List Word32) :
    printField env ⟨p, offset⟩ args = printField env ⟨p.optionless, offset⟩ args := by
  have hoption : p.option = .notImplemented := by
    rcases (singleFormat_cases hoff h).2 with ⟨hnone, -⟩ | ⟨-, hoption, -⟩ | ⟨-, hd, -⟩
    · exact absurd hnone hm.option
    · exact hoption
    · rw [hm.no_digit] at hd
      cases hd
  unfold printField FieldProperties.padNum SingleFormat.optionless
  cases p.type <;> simp [hoption]

/-! ## 2. The windows -/

/-- What a format owes to its malformed fields, and to the text around all of its fields. -/
structure OptionsLoseNoText (fmt : List UInt8) : Prop where
  /-- Every call returns, with nothing left as the stack had it; ... -/
  assigned : ∀ offset, fmt[offset]? = some 0x25 → ∀ below stops, ∃ p, ∀ len optionNum,
    getSingleFormatProperties ⟨below, stops, len, optionNum⟩ (fmt.drop offset) = .ok p
  /-- ... a malformed field is treated as the one without the option, ... -/
  optionless : ∀ offset, fmt[offset]? = some 0x25 → Malformed fmt offset → ∀ frame p,
    getSingleFormatProperties frame (fmt.drop offset) = .ok p →
    p.len = 2 ∧ ∀ env args,
      printField env ⟨p, offset⟩ args = printField env ⟨p.optionless, offset⟩ args
  /-- ... what is printed behind it is the text from the option character to the next field, ... -/
  verbatim : ∀ frames fuel ps,
    setTypesAndPos frames fmt (countChar fmt 0x25) fuel 0 0 = .ok ps →
    ∀ k p w, ps[k]? = some p → Malformed fmt p.pos →
      (startAndEnds ps (fmt.length % 2 ^ 16))[k + 1]? = some w →
      windowText fmt w = (fmt.drop (p.pos + 2)).takeWhile (· ≠ 0x25)
  /-- ... and the windows are determined by the format. -/
  windows : ∀ frames frames' fuel fuel' ps ps',
    setTypesAndPos frames fmt (countChar fmt 0x25) fuel 0 0 = .ok ps →
    setTypesAndPos frames' fmt (countChar fmt 0x25) fuel' 0 0 = .ok ps' →
    startAndEnds ps (fmt.length % 2 ^ 16) = startAndEnds ps' (fmt.length % 2 ^ 16)

section Windows

variable {fmt : List UInt8}

/-- Where an entry of the table stands, and where the text behind it starts. -/
def FieldProperties.extent (p : FieldProperties) : Nat × Nat := (p.pos, p.len)

theorem startAndEnds_congr {ps ps' : List FieldProperties}
    (h : ps.map FieldProperties.extent = ps'.map FieldProperties.extent) (formatLen : Nat) :
    startAndEnds ps formatLen = startAndEnds ps' formatLen := by
  have hmap : ∀ {α : Type} (f : Nat × Nat → α),
      ps.map (fun p => f p.extent) = ps'.map fun p => f p.extent := by
    intro α f
    have hf := congrArg (List.map f) h
    rwa [List.map_map, List.map_map] at hf
  have hstart := hmap fun e => (e.1 + e.2) % 2 ^ 16
  have hlast := hmap fun e => (e.1 + 2 ^ 16 - 1) % 2 ^ 16
  unfold startAndEnds
  exact congrArg₂ (fun starts ends =>
    List.zipWith StartAndEnd.mk (0 :: starts) (ends ++ [(formatLen + 2 ^ 16 - 1) % 2 ^ 16]))
    hstart hlast

/-- Without malformed fields two tables differ in the numbers of their options at most. -/
theorem tableOf_extent {frames frames' : Nat → Frame}
    (hm : ∀ offset, fmt[offset]? = some 0x25 → ¬ Malformed fmt offset) {pre s : List UInt8}
    (hfmt : pre ++ s = fmt) {k : Nat} {ps ps' : List FieldProperties}
    (h : tableOf frames k pre.length s = .ok ps) (h' : tableOf frames' k pre.length s = .ok ps') :
    ps.map FieldProperties.extent = ps'.map FieldProperties.extent := by
  induction s generalizing pre k ps ps' with
  | nil =>
      cases h
      cases h'
      rfl
  | cons c s ih =>
      have hshift : pre ++ [c] ++ s = fmt := by rw [← hfmt]; simp
      have hlen : (pre ++ [c]).length = pre.length + 1 := List.length_append
      by_cases hc : c = 0x25
      · subst hc
        obtain ⟨p, rest, hp, hrest, rfl⟩ := tableOf_percent h
        obtain ⟨p', rest', hp', hrest', rfl⟩ := tableOf_percent h'
        rw [← hlen] at hrest hrest'
        have hat : fmt[pre.length]? = some 0x25 := by rw [← hfmt]; simp
        have hlt : pre.length < fmt.length := (List.getElem?_eq_some_iff.mp hat).1
        have hdrop : fmt.drop pre.length = 0x25 :: s := by rw [← hfmt, List.drop_left]
        rw [← hdrop] at hp hp'
        have hext : p.len = p'.len := by
          rw [singleFormat_len hlt (hm _ hat) hp, singleFormat_len hlt (hm _ hat) hp']
        rw [List.map_cons, List.map_cons, ih hshift hrest hrest', FieldProperties.extent,
          FieldProperties.extent, hext]
      · rw [tableOf, if_neg hc, ← hlen] at h h'
        exact ih hshift h h'

end Windows

/-- **When the options lose no text**: exactly if every field fits and none is malformed. The argument
    of a malformed field is printed like that of the field without the option in any case. -/
theorem optionsLoseNoText_iff (fmt : List UInt8) (h0 : 0 ∉ fmt) :
    (OptionsLoseNoText fmt ↔
      ∀ offset, fmt[offset]? = some 0x25 → FieldFits fmt offset ∧ ¬ Malformed fmt offset) ∧
      ∀ offset, fmt[offset]? = some 0x25 → Malformed fmt offset → ∀ frame p,
        getSingleFormatProperties frame (fmt.drop offset) = .ok p → ∀ env args,
          printField env ⟨p, offset⟩ args = printField env ⟨p.optionless, offset⟩ args := by
  refine ⟨?_, fun offset hp hm frame p h env args =>
    printField_malformed env (List.getElem?_eq_some_iff.mp hp).1 hm h args⟩
  constructor
  · intro h offset hp
    exact (assigned_iff (List.getElem?_eq_some_iff.mp hp).1).mp (h.assigned offset hp)
  · intro h
    refine ⟨fun offset hp => ?_, fun offset hp hm => ?_, ?_, ?_⟩
    · exact (assigned_iff (List.getElem?_eq_some_iff.mp hp).1).mpr (h offset hp)
    · exact absurd hm (h offset hp).2
    · intro frames fuel ps hps k p w hk hm
      have htable := (tableOf_of_ok h0 countChar_lt (List.nil_append fmt) (by decide)
        (Nat.zero_le _) hps).2.2
      have hp := (tableOf_entry (List.nil_append fmt) htable p (List.mem_of_getElem? hk)).1
      exact absurd hm (h p.pos hp).2
    · intro frames frames' fuel fuel' ps ps' hps hps'
      have htable := (tableOf_of_ok h0 countChar_lt (List.nil_append fmt) (by decide)
        (Nat.zero_le _) hps).2.2
      have htable' := (tableOf_of_ok h0 countChar_lt (List.nil_append fmt) (by decide)
        (Nat.zero_le _) hps').2.2
      exact startAndEnds_congr
        (tableOf_extent (fun offset hp => (h offset hp).2) (List.nil_append fmt) htable htable') _

/-- `%d:5` has no malformed field. -/
theorem optionsLoseNoText_iff_padded :
    OptionsLoseNoText [0x25, 0x64, 0x3A, 0x35] ↔ ∀ offset,
      [0x25, 0x64, 0x3A, 0x35][offset]? = some (0x25 : UInt8) →
      FieldFits [0x25, 0x64, 0x3A, 0x35] offset ∧ ¬ Malformed [0x25, 0x64, 0x3A, 0x35] offset :=
  (optionsLoseNoText_iff [0x25, 0x64, 0x3A, 0x35] (by decide)).1

/-- What the stack holds is where the text after `%d.` starts. -/
theorem not_optionsLoseNoText_sentence :
    ¬ ∀ fmt : List UInt8, 0 ∉ fmt → OptionsLoseNoText fmt := by
  intro h
  have hassigned := (h [0x25, 0x64, 0x2E] (by decide)).assigned 0 rfl
  exact ((assigned_iff (by decide)).mp hassigned).2 ⟨by decide, by decide⟩

end MapleKernel.Stdio
