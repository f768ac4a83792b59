/-
  File:      Stdio/KprintfArgc.lean
  Subject:   THE OTHER FORMATTER: `kprintf_argc`, beside `vkprintf`.

  `kprintf_argc` is told how many words were passed and checks the count; for the rest it is a
  copy of `vkprintf`, except that its `%s` knows no `;`.

  * `kprintfArgc_eq_vkprintf` -- in the same stack frames the two print the same.
  * `enginesAgree_iff` -- a call of the one agrees with a call of the other on all arguments
    exactly if every field gets pads in the two that print alike.
-/
import MapleKernel.Stdio.OptionNumbers

namespace MapleKernel.Stdio

/-! ## 1. `kprintf_argc` -/

/-- The `switch` of `kprintf_argc`. -/
def printFieldArgc (env : PrintfEnv) (p : FieldProperties) (args : List Word32) :
    Except Failure (List UInt8 × List Word32) :=
  match p.type with
  | .char => do
      let (v, args) ← vaArg args
      return ([UInt8.ofNat v.toNat], args)
  | .string => do
      let (v, args) ← vaArg args
      let out ← writestringChars (env.mem v)
      return (out, args)
  | .int => do
      let (v, args) ← vaArg args
      let out ← printIntF v p.padNum
      return (out, args)
  | .uint32 => do
      let (v, args) ← vaArg args
      let out ← printUintF v p.padNum
      return (out, args)
  | .float => do
      let (lo, args) ← vaArg args
      let (hi, args) ← vaArg args
      return (env.printFloat lo hi (if p.option = .precision then some p.optionNum else none), args)
  | .hex => do
      let (v, args) ← vaArg args
      let out ← printHexF v p.padNum
      return (out, args)
  | .binary => do
      let (v, args) ← vaArg args
      return (printBinaryVarNoNewline v p.padNum, args)
  | .invalid => return ([], args)

/-- The loop of `kprintf_argc` over the fields. -/
def printFieldsArgc (env : PrintfEnv) (fmt : List UInt8) :
    List FieldProperties → List StartAndEnd → List Word32 → Except Failure (List UInt8)
  | p :: ps, w :: ws, args => do
      let (out, args) ← printFieldArgc env p args
      let rest ← printFieldsArgc env fmt ps ws args
      return out ++ windowText fmt w ++ rest
  | _, _, _ => return []

/-- `kprintf_argc`. `argc` counts the format, and `len` is a `uint8_t`. -/
def kprintfArgc (env : PrintfEnv) (fuel argc : Nat) (fmt : List UInt8) (args : List Word32) :
    Except Failure (List UInt8) :=
  let len := (argc + 2 ^ 8 - 1) % 2 ^ 8
  let lenCheck := countChar fmt 0x25
  if len ≠ lenCheck then .error .aborted
  else if len = 0 then return fmt
  else do
    let ps ← setTypesAndPos env.frames fmt len fuel 0 0
    match startAndEnds ps (fmt.length % 2 ^ 16) with
    | w :: ws =>
        let rest ← printFieldsArgc env fmt ps ws args
        return windowText fmt w ++ rest
    | [] => return []

/-! ## 2. In the same frames -/

/-- The `;` of a `%s` is the only option that the two `switch`es read differently. -/
theorem printFieldArgc_eq (env : PrintfEnv) {p : FieldProperties}
    (h : p.type = .string → p.option ≠ .strlen) (args : List Word32) :
    printFieldArgc env p args = printField env p args := by
  unfold printFieldArgc printField
  cases ht : p.type with
  | string => simp only [h ht, if_false]
  | _ => rfl

theorem printFieldsArgc_eq (env : PrintfEnv) (fmt : List UInt8) {ps : List FieldProperties}
    (h : ∀ p ∈ ps, p.type = .string → p.option ≠ .strlen) (ws : List StartAndEnd)
    (args : List Word32) : printFieldsArgc env fmt ps ws args = printFields env fmt ps ws args := by
  induction ps generalizing ws args with
  | nil => cases ws <;> rfl
  | cons p ps ih =>
      cases ws with
      | nil => rfl
      | cons w ws =>
          rw [printFieldsArgc, printFields, printFieldArgc_eq env (h p List.mem_cons_self)]
          simp only [ih fun q hq => h q (List.mem_cons_of_mem p hq)]

/-- **The engines are one** in the same frames, on every format whose `%s` fields have no `;`. -/
theorem kprintfArgc_eq_vkprintf (env : PrintfEnv) (fuel : Nat) {fmt : List UInt8}
    (hcount : fmt.count 0x25 ≤ 255)
    (h : ∀ ps, setTypesAndPos env.frames fmt (countChar fmt 0x25) fuel 0 0 = .ok ps →
      ∀ p ∈ ps, p.type = .string → p.option ≠ .strlen) (args : List Word32) :
    kprintfArgc env fuel (fmt.count 0x25 + 1) fmt args = vkprintf env fuel fmt args := by
  have hlen : (fmt.count 0x25 + 1 + 2 ^ 8 - 1) % 2 ^ 8 = countChar fmt 0x25 := by
    unfold countChar
    omega
  unfold kprintfArgc vkprintf
  simp only [hlen, ne_eq, not_true, if_false]
  split
  · rfl
  · cases hps : setTypesAndPos env.frames fmt (countChar fmt 0x25) fuel 0 0 with
    | error e => rfl
    | ok ps =>
        simp only [bind, Except.bind]
        cases startAndEnds ps (fmt.length % 2 ^ 16) with
        | nil => rfl
        | cons w ws => simp only [printFieldsArgc_eq env fmt (h ps hps)]

/-! ## 3. The two engines -/

/-- A `%s` without `;`. -/
def Field.NoStrlen (f : Field) : Prop := f.type = .s → ∀ o ∈ f.option, o.kind ≠ .strlen

/-- A format that both engines know: literals and up to 255 fields, no `;` on a `%s`. -/
structure SharedFormat where
  first : List UInt8
  items : List (Field × List UInt8)
  first_literal : Literal first
  item_literal : ∀ i ∈ items, Literal i.2
  separated : ∀ i ∈ items, i.1.Separates i.2
  no_strlen : ∀ i ∈ items, i.1.NoStrlen
  items_length : items.length ≤ 255
  length_lt : (first ++ itemsText items).length < 2 ^ 16

namespace SharedFormat

variable (F : SharedFormat)

def text : List UInt8 := F.first ++ itemsText F.items

/-- With a field it is a format of `vkprintf`. -/
def toFormat (h : F.items ≠ []) : Format where
  first := F.first
  items := F.items
  first_literal := F.first_literal
  item_literal := F.item_literal
  separated := F.separated
  items_ne_nil := h
  items_length := F.items_length
  length_lt := F.length_lt

/-- A call of `vkprintf` and one of `kprintf_argc`, in the stack frames that each of them finds,
    print the same text for all arguments. -/
def EnginesAgree (fv fk : Nat → Frame) : Prop :=
  ∀ mem printFloat args fuel, F.text.length < fuel →
    List.Forall₂ (fun i v => i.1.Matches ⟨fv, mem, printFloat⟩ v) F.items args →
    ∃ out, vkprintf ⟨fv, mem, printFloat⟩ fuel F.text args = .ok out ∧
      kprintfArgc ⟨fk, mem, printFloat⟩ fuel (F.items.length + 1) F.text args = .ok out

/-- No pad in the text is larger than the printers accept; otherwise no arguments match. -/
def PadsFit : Prop :=
  ∀ i ∈ F.items, i.1.type = .d ∨ i.1.type = .u ∨ i.1.type = .h → i.1.pad ≤ 16

/-- Each field gets pads that print alike in the frames of the two calls. -/
def NumbersAlike (fv fk : Nat → Frame) : Prop :=
  ∀ i (f : Field) l, F.items[i]? = some (f, l) → PadsAlike f.type (f.padIn (fv i)) (f.padIn (fk i))

end SharedFormat

theorem number?_strlen {f : Field} (hno : f.NoStrlen) (ht : f.type = .s) :
    f.number? .strlen = none := by
  unfold Field.number?
  cases ho : f.option with
  | none => rfl
  | some o => exact if_neg (hno ht o ho)

theorem parsedField_no_strlen (frame : Frame) {f : Field} (hno : f.NoStrlen) (ht : f.type = .s) :
    (parsedField frame f).option ≠ .strlen := by
  intro hoption
  have hread := strlen_eq_strlenIn frame f
  rw [if_pos hoption, strlenIn_none (number?_strlen hno ht)] at hread
  cases hread

/-- The entries of the table of a format. -/
theorem mem_propsOf {frames : Nat → Frame} {items : List (Field × List UInt8)} {off k : Nat}
    {p : FieldProperties} (h : p ∈ propsOf frames off k items) :
    ∃ i ∈ items, ∃ j, p.toSingleFormat = parsedField (frames j) i.1 := by
  induction items generalizing off k with
  | nil => exact absurd h List.not_mem_nil
  | cons i items ih =>
      obtain ⟨f, l⟩ := i
      rcases List.mem_cons.mp h with rfl | h
      · exact ⟨(f, l), List.mem_cons_self, k, rfl⟩
      · obtain ⟨i, hi, hp⟩ := ih h
        exact ⟨i, List.mem_cons_of_mem _ hi, hp⟩

/-- In the same frames both engines do the same with a format of at least one field. -/
theorem SharedFormat.engines_eq (F : SharedFormat) (h : F.items ≠ []) (env : PrintfEnv)
    {fuel : Nat} (hfuel : F.text.length < fuel) (args : List Word32) :
    kprintfArgc env fuel (F.items.length + 1) F.text args = vkprintf env fuel F.text args := by
  have hcount : F.text.count 0x25 = F.items.length := by
    rw [text, List.count_append, literal_count F.first_literal, itemsText_count F.item_literal,
      Nat.zero_add]
  have hchar : countChar F.text 0x25 = F.items.length := (F.toFormat h).countChar_text
  have hlen := F.items_length
  rw [← hcount]
  refine kprintfArgc_eq_vkprintf env fuel (by omega) (fun ps hps p hp htype => ?_) args
  rw [hchar] at hps
  have htable := (F.toFormat h).setTypesAndPos_text env.frames hfuel
  have heq : ps = propsOf env.frames F.first.length 0 F.items :=
    Except.ok.inj (hps.symm.trans htable)
  rw [heq] at hp
  obtain ⟨i, hi, j, hfield⟩ := mem_propsOf hp
  rw [hfield] at htype ⊢
  have hs : i.1.type = .s := by
    rw [parsedField_type] at htype
    cases ht : i.1.type <;> rw [ht] at htype <;> first | rfl | cases htype
  exact parsedField_no_strlen _ (F.no_strlen i hi) hs

/-- Without a `;` the readings differ in their pads only. -/
theorem readAlike_iff {f : Field} (hno : f.NoStrlen) (frame frame' : Frame) :
    ReadAlike f.type (f.readIn frame) (f.readIn frame')
      ↔ PadsAlike f.type (f.padIn frame) (f.padIn frame') := by
  refine ⟨fun h => h.pad, fun h => ⟨fun ht => ?_, h⟩⟩
  have hnone := number?_strlen hno ht
  exact (strlenIn_none hnone frame).trans (strlenIn_none hnone frame').symm

theorem accepts_of_alike {f : Field} (hno : f.NoStrlen) {frame : Frame} {q : Nat}
    (h : PadsAlike f.type (f.padIn frame) q) : f.Accepts (f.readIn frame) := by
  unfold Field.Accepts
  cases ht : f.type with
  | c | b => trivial
  | s =>
      have hnone := number?_strlen hno ht
      exact (strlenIn_none hnone frame).trans hnone.symm
  | d | u | h =>
      rw [ht] at h
      exact h.1

/-- **When the two engines agree** on a format: exactly if the stacks of the two calls make pads
    that print alike of each of its options. -/
theorem enginesAgree_iff (F : SharedFormat) (fv fk : Nat → Frame) :
    F.EnginesAgree fv fk ↔ (F.PadsFit → F.NumbersAlike fv fk) := by
  by_cases hitems : F.items = []
  · -- no field: both write the format as it is
    have hchar : countChar F.text 0x25 = 0 := by
      rw [SharedFormat.text, hitems, itemsText, List.append_nil, countChar,
        literal_count F.first_literal]
      rfl
    refine ⟨fun _ _ i f l hi => ?_, fun _ mem printFloat args fuel _ _ => ⟨F.text, ?_, ?_⟩⟩
    · rw [hitems] at hi
      cases hi
    · unfold vkprintf
      simp only [hchar, if_true]
      rfl
    · unfold kprintfArgc
      simp only [hchar, hitems]
      rfl
  · constructor
    · intro h hpads
      obtain ⟨out, hv, hk⟩ := h probeMem (fun _ _ _ => []) _ (F.text.length + 1)
        (Nat.lt_succ_self _) (probes_match fv hpads)
      rw [F.engines_eq hitems _ (Nat.lt_succ_self _)] at hk
      rw [show F.text = (F.toFormat hitems).text from rfl,
        vkprintf_readings _ _ _ (Nat.lt_succ_self _)] at hv hk
      obtain ⟨rest, hrest, hv⟩ := bind_eq_ok.mp hv
      obtain ⟨rest', hrest', hk⟩ := bind_eq_ok.mp hk
      have heq : rest = rest' :=
        List.append_cancel_left ((Except.ok.inj hv).trans (Except.ok.inj hk).symm)
      rw [← heq] at hrest'
      have hnone : ∀ i (f : Field) l, F.items[i]? = some (f, l) → f.type = .s →
          f.number? .strlen = none := fun i f l hi ht =>
        number?_strlen (F.no_strlen _ (List.mem_of_getElem? hi)) ht
      intro i f l hi
      have halike := readAlike_of_renderBy F.item_literal
        (fun i f l hi ht => (strlenIn_none (hnone i f l hi ht) _).trans (hnone i f l hi ht).symm)
        (fun _ _ _ _ _ hn => strlenIn_none hn _) hrest hrest' i f l hi
      rw [Nat.zero_add] at halike
      exact halike.pad
    · intro h mem printFloat args fuel hfuel hargs
      have halike := h (padsFit_of_match hargs)
      have hno : ∀ {i} {f : Field} {l}, F.items[i]? = some (f, l) → f.NoStrlen := fun hi =>
        F.no_strlen _ (List.mem_of_getElem? hi)
      obtain ⟨rest, hv, hk⟩ := @renderBy_alike (readings fv) (readings fk) F.items 0 _ args hargs
        (fun i f l hi => by
          rw [Nat.zero_add]
          exact accepts_of_alike (hno hi) (halike i f l hi))
        (fun i f l hi => by
          rw [Nat.zero_add]
          exact (readAlike_iff (hno hi) _ _).mpr (halike i f l hi))
      have hprint := fun frames => vkprintf_readings ⟨frames, mem, printFloat⟩
        (F.toFormat hitems) args hfuel
      refine ⟨F.first ++ rest, ?_, ?_⟩
      · refine (hprint fv).trans ?_
        rw [show (F.toFormat hitems).items = F.items from rfl, hv]
        rfl
      · refine (F.engines_eq hitems _ hfuel args).trans ((hprint fk).trans ?_)
        rw [show (F.toFormat hitems).items = F.items from rfl, hk]
        rfl

theorem literal_nil : Literal [] := fun _ h => absurd h List.not_mem_nil

/-- The format `%d:6`. -/
def paddedInt : SharedFormat where
  first := []
  items := [(⟨.d, some ⟨.pad, [0x36], by simp [isDigit], by decide, by decide⟩⟩, [])]
  first_literal := literal_nil
  item_literal := by simp [Literal]
  separated := by simp [Field.Separates]
  no_strlen := by simp [Field.NoStrlen]
  items_length := by simp
  length_lt := by decide

/-- Frames with the digit `1` below `len_char`. -/
def digitFrames : Nat → Frame := fun _ => ⟨[0x31, 0], ⟨0, by decide, rfl⟩, 0, 0⟩

/-- With a NUL below `len_char` in one call and the digit `1` in the other, `%d:6` is padded to 6
    columns and to 16. -/
theorem not_enginesAgree_digitBelow : ¬ ∀ (F : SharedFormat) fv fk, F.EnginesAgree fv fk := by
  intro h
  obtain ⟨out, hv, hk⟩ := h paddedInt (nulEnv []).frames digitFrames (fun _ => []) (fun _ _ _ => [])
    [1#32] 6 (by decide) (.cons (show Field.pad _ ≤ 16 by decide) .nil)
  have hsix : vkprintf ⟨(nulEnv []).frames, fun _ => [], fun _ _ _ => []⟩ 6 paddedInt.text [1#32]
      = .ok (List.replicate 5 0x20 ++ [0x31]) := rfl
  have hsixteen : kprintfArgc ⟨digitFrames, fun _ => [], fun _ _ _ => []⟩ 6 2 paddedInt.text [1#32]
      = .ok (List.replicate 15 0x20 ++ [0x31]) := rfl
  have hout := Except.ok.inj (hsix.symm.trans hv)
  have hout' := Except.ok.inj (hsixteen.symm.trans hk)
  exact absurd (hout.trans hout'.symm) (by decide)

end MapleKernel.Stdio
