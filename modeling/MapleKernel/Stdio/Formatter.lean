/-
  File:      Stdio/Formatter.lean
  Subject:   WHEN `vkprintf` PRINTS ITS FORMAT.

  The literals, the order of the fields and the arguments are right in every format. What can be
  wrong is the number of an option: `string_to_uint` takes the digits below `len_char` for a part
  of it and gives up where no NUL ends them, and a `uint8_t` keeps it, so of a `;n` the number is
  taken mod 256 as the pad of a `:n` is, though it counts bytes.

  * `Format.Prints` -- for all matching arguments the formatter prints the rendering;
  * `Format.NumbersRead` -- each field is read like its text, as far as its printer can tell;
  * `vkprintf_prints_iff` -- exactly these formats are printed, in the given stack frames; among
    them those that find a NUL below `len_char` and have no `;n` of 256 or more.
-/
import MapleKernel.Stdio.OptionNumbers

namespace MapleKernel.Stdio

/-! ## 1. What is to hold, and when -/

/-- The field prints with the number of its option. -/
def Field.UsesNumber (f : Field) : Prop :=
  match f.option, f.type with
  | some o, .s => o.kind = .strlen
  | some o, .d | some o, .u | some o, .h | some o, .b => o.kind = .pad
  | _, _ => False

namespace Format

variable (F : Format) (frames : Nat → Frame)

/-- **The specification**: for all matching arguments the characters are the literal runs and the
    renderings of the fields, in order. -/
def Prints : Prop :=
  ∀ mem printFloat args fuel, F.text.length < fuel →
    List.Forall₂ (fun i v => i.1.Matches ⟨frames, mem, printFloat⟩ v) F.items args →
    ∃ out, F.render ⟨frames, mem, printFloat⟩ args = .ok out ∧
      vkprintf ⟨frames, mem, printFloat⟩ fuel F.text args = .ok out

/-- No pad in the text is larger than the printers accept; otherwise no arguments match. -/
def PadsFit : Prop :=
  ∀ i ∈ F.items, i.1.type = .d ∨ i.1.type = .u ∨ i.1.type = .h → i.1.pad ≤ 16

/-- The printer of each field makes no difference between what its text says and what its stack
    frame makes of it. -/
def NumbersRead : Prop :=
  ∀ i (f : Field) l, F.items[i]? = some (f, l) →
    ReadAlike f.type f.stated (f.readIn (frames i))

/-- Where a number is printed with, a NUL ends its digits right below `len_char`, and of a `;` it is
    less than 256. -/
def NulBelow : Prop :=
  ∀ i (f : Field) l, F.items[i]? = some (f, l) → f.UsesNumber →
    (frames i).below.head? = some 0 ∧ ∀ n ∈ f.number? .strlen, n < 2 ^ 8

end Format

/-! ## 2. A NUL below -/

section NulBelow

variable {frame : Frame} {f : Field}

/-- Right above a NUL a number is the one of its digits. -/
theorem numberOnStack_nul (o : FieldOption) (hnul : frame.below.head? = some 0) :
    numberOnStack o.digits frame.below = some (decimalValue o.digits) := by
  obtain ⟨rest, hbelow⟩ : ∃ rest, frame.below = 0 :: rest :=
    ⟨_, List.eq_cons_of_mem_head? (Option.mem_def.mpr hnul)⟩
  have hrun : frame.below.takeWhile isDigit = [] := by
    rw [hbelow]
    exact List.takeWhile_cons_of_neg (by decide)
  have hlt := decimalValue_lt o.digits_digit o.digits_length
  have hmod : decimalValue o.digits % 2 ^ 32 = decimalValue o.digits :=
    Nat.mod_eq_of_lt (Nat.lt_trans hlt (by decide))
  unfold numberOnStack
  simp only [hrun, List.reverse_nil, List.nil_append, List.length_nil, hmod]
  exact if_pos ⟨by rw [hbelow]; rfl, by omega⟩

theorem padIn_nul (h : (∃ o, f.option = some o ∧ o.kind = .pad) → frame.below.head? = some 0) :
    f.padIn frame = f.pad := by
  unfold Field.padIn Field.pad Field.number?
  cases ho : f.option with
  | none => rfl
  | some o =>
      by_cases hk : o.kind = .pad
      · simp only [hk, if_true, numberOnStack_nul o (h ⟨o, ho, hk⟩)]
      · simp only [hk, if_false]
        rfl

theorem strlenIn_nul (h : (∃ o, f.option = some o ∧ o.kind = .strlen) →
      frame.below.head? = some 0 ∧ ∀ n ∈ f.number? .strlen, n < 2 ^ 8) :
    f.strlenIn frame = f.number? .strlen := by
  unfold Field.strlenIn
  cases ho : f.option with
  | none => unfold Field.number?; rw [ho]
  | some o =>
      by_cases hk : o.kind = .strlen
      · obtain ⟨hnul, hsmall⟩ := h ⟨o, ho, hk⟩
        have hnumber : f.number? .strlen = some (decimalValue o.digits) := by
          unfold Field.number?
          rw [ho]
          exact if_pos hk
        have hlt := hsmall _ (Option.mem_def.mpr hnumber)
        simp only [hk, if_true, numberOnStack_nul o hnul, hnumber, Option.map_some,
          Nat.mod_eq_of_lt hlt]
      · unfold Field.number?
        simp only [ho, hk, if_false]

/-- A pad that a printer takes is like itself. -/
theorem padsAlike_self {t : FieldType} {p : Nat} (h : t = .d ∨ t = .u ∨ t = .h → p ≤ 16) :
    PadsAlike t p p := by
  cases t with
  | c | s => trivial
  | d => exact ⟨h (.inl rfl), h (.inl rfl), rfl⟩
  | u => exact ⟨h (.inr (.inl rfl)), h (.inr (.inl rfl)), rfl⟩
  | h => exact ⟨h (.inr (.inr rfl)), h (.inr (.inr rfl)), rfl⟩
  | b => exact rfl

/-- **Above a NUL every field is read like its text.** -/
theorem Format.NulBelow.numbersRead {F : Format} {frames : Nat → Frame} (h : F.NulBelow frames)
    (hpads : F.PadsFit) : F.NumbersRead frames := by
  intro i f l hi
  have hnul := h i f l hi
  refine ⟨fun ht => ?_, ?_⟩
  · refine (strlenIn_nul fun ⟨o, ho, hk⟩ => hnul ?_).symm
    unfold Field.UsesNumber
    rw [ho, ht]
    exact hk
  · by_cases ht : f.type = .c ∨ f.type = .s
    · rcases ht with ht | ht <;>
        · rw [ht]
          trivial
    · have hpad : f.padIn (frames i) = f.pad := by
        refine padIn_nul fun ⟨o, ho, hk⟩ => (hnul ?_).1
        unfold Field.UsesNumber
        rw [ho]
        cases hf : f.type with
        | c | s => simp [hf] at ht
        | d | u | h | b => exact hk
      show PadsAlike f.type f.pad (f.padIn (frames i))
      rw [hpad]
      exact padsAlike_self (hpads _ (List.mem_of_getElem? hi))

end NulBelow

/-! ## 3. The formatter -/

/-- What a field says of itself, its printer takes with a matching argument. -/
theorem accepts_stated {f : Field} (h : f.type = .d ∨ f.type = .u ∨ f.type = .h → f.pad ≤ 16) :
    f.Accepts f.stated := by
  unfold Field.Accepts
  cases ht : f.type with
  | c | b => trivial
  | s => rfl
  | d => exact h (.inl ht)
  | u => exact h (.inr (.inl ht))
  | h => exact h (.inr (.inr ht))

/-- Fields that are read like their text are printed like it. -/
theorem Format.prints_of_numbersRead {F : Format} {frames : Nat → Frame}
    (h : F.PadsFit → F.NumbersRead frames) : F.Prints frames := by
  intro mem printFloat args fuel hfuel hargs
  have hpads : F.PadsFit := padsFit_of_match hargs
  have haccepts : ∀ i (f : Field) l, F.items[i]? = some (f, l) → f.Accepts f.stated :=
    fun i f l hi => accepts_stated (hpads _ (List.mem_of_getElem? hi))
  obtain ⟨rest, hrender, hprint⟩ : ∃ rest,
      renderBy (renderWith mem fun _ f => f.stated) 0 F.items args = .ok rest ∧
        renderBy (renderWith mem (readings frames)) 0 F.items args = .ok rest := by
    refine renderBy_alike hargs haccepts fun i f l hi => ?_
    rw [Nat.zero_add]
    exact h hpads i f l hi
  refine ⟨F.first ++ rest, ?_, ?_⟩
  · exact bind_eq_ok.mpr ⟨rest, hrender, rfl⟩
  · rw [vkprintf_readings _ _ _ hfuel]
    exact bind_eq_ok.mpr ⟨rest, hprint, rfl⟩

/-- On the probes, fields that are not read like their text show. -/
theorem Format.Prints.numbersRead {F : Format} {frames : Nat → Frame} (h : F.Prints frames)
    (hpads : F.PadsFit) : F.NumbersRead frames := by
  obtain ⟨out, hrender, hprint⟩ := h probeMem (fun _ _ _ => []) _ (F.text.length + 1)
    (Nat.lt_succ_self _) (probes_match frames hpads)
  rw [vkprintf_readings _ _ _ (Nat.lt_succ_self _)] at hprint
  obtain ⟨rest, hrest, hout⟩ := bind_eq_ok.mp hrender
  obtain ⟨rest', hrest', hout'⟩ := bind_eq_ok.mp hprint
  have heq : rest = rest' :=
    List.append_cancel_left ((Except.ok.inj hout).trans (Except.ok.inj hout').symm)
  rw [← heq] at hrest'
  intro i f l hi
  have hstrlen : ∀ i (f : Field) l, F.items[i]? = some (f, l) → f.type = .s →
      ((fun _ g => g.stated : Nat → Field → Reading) (0 + i) f).strlen = f.number? .strlen :=
    fun _ _ _ _ _ => rfl
  have halike := readAlike_of_renderBy F.item_literal hstrlen
    (fun _ _ _ _ _ hn => strlenIn_none hn _) hrest hrest' i f l hi
  rwa [Nat.zero_add] at halike

/-- **When the formatter prints its format**: exactly if its fields are read like their text,
    provided their printers take the pads there; so in particular above a NUL. -/
theorem vkprintf_prints_iff (F : Format) (frames : Nat → Frame) :
    (F.Prints frames ↔ (F.PadsFit → F.NumbersRead frames)) ∧
      (F.NulBelow frames → F.Prints frames) :=
  ⟨⟨fun h => h.numbersRead, Format.prints_of_numbersRead⟩,
    fun h => Format.prints_of_numbersRead h.numbersRead⟩

/-- The format `%d:5`. -/
def paddedFormat : Format where
  first := []
  items := [(⟨.d, some ⟨.pad, [0x35], by simp [isDigit], by decide, by decide⟩⟩, [])]
  first_literal := by simp [Literal]
  item_literal := by simp [Literal]
  separated := by simp [Field.Separates]
  items_ne_nil := by simp
  items_length := by simp
  length_lt := by decide

/-- Below `len_char` stands a byte that is neither a digit nor NUL. -/
def strayFrames : Nat → Frame := fun _ => ⟨[0x80, 0], ⟨0x80, by decide, by decide⟩, 0, 0⟩

/-- In such a frame `%d:5` prints 1206 without its blank. -/
theorem not_vkprintf_prints : ¬ ∀ (F : Format) frames, F.Prints frames := by
  intro h
  obtain ⟨out, hrender, hprint⟩ := h paddedFormat strayFrames (fun _ => []) (fun _ _ _ => [])
    [1206#32] 6 (by decide) (.cons (show Field.pad _ ≤ 16 by decide) .nil)
  have hpadded : paddedFormat.render ⟨strayFrames, fun _ => [], fun _ _ _ => []⟩ [1206#32]
      = .ok [0x20, 0x31, 0x32, 0x30, 0x36] := rfl
  have hplain : vkprintf ⟨strayFrames, fun _ => [], fun _ _ _ => []⟩ 6 paddedFormat.text [1206#32]
      = .ok [0x31, 0x32, 0x30, 0x36] := rfl
  have hout := Except.ok.inj (hpadded.symm.trans hrender)
  have hout' := Except.ok.inj (hplain.symm.trans hprint)
  exact absurd (hout.trans hout'.symm) (by decide)

end MapleKernel.Stdio
