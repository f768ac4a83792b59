/-
  File:      Stdio/OptionNumbers.lean
  Subject:   THE NUMBER OF AN OPTION, as the stack of the parser makes it.

  `string_to_uint` goes on below `len_char`, so the number of a field also depends on the frame in
  which its option is parsed; and it is kept in a `uint8_t`.

  * `numberOnStack` -- what comes out for the digits of an option and the bytes below them;
    `readIn` is what a field is printed with, and `printField_in` says so.
  * `ReadAlike` -- two readings that a printer makes no difference between: `render_alike` and
    `renderBy_alike` for all arguments.
  * `probe`, `probeMem` -- arguments and a memory that tell all others apart, whatever stands
    around the field: `readAlike_of_renderBy`.
-/
import MapleKernel.Stdio.FormatTable

namespace MapleKernel.Stdio

/-! ## 1. The number of an option -/

/-- What `string_to_uint` makes of `digits` with the bytes `below` under them: digits right below
    belong to the number, and what ends them must be a NUL. -/
def numberOnStack (digits below : List UInt8) : Option Nat :=
  let run := below.takeWhile isDigit
  let value := decimalValue (run.reverse ++ digits) % 2 ^ 32
  if below[run.length]? = some 0 ∧ value ≠ 2 ^ 32 - 1 then some value else none

/-- The pad of a field whose option is parsed in `frame`. -/
def Field.padIn (frame : Frame) (f : Field) : Nat :=
  match f.option with
  | some o =>
      if o.kind = .pad then ((numberOnStack o.digits frame.below).getD 0) % 2 ^ 8 else 0
  | none => 0

/-- How many bytes of a string are printed, if its option is a `;` that was read. -/
def Field.strlenIn (frame : Frame) (f : Field) : Option Nat :=
  match f.option with
  | some o =>
      if o.kind = .strlen then (numberOnStack o.digits frame.below).map (· % 2 ^ 8) else none
  | none => none

theorem padIn_lt (frame : Frame) (f : Field) : f.padIn frame < 2 ^ 8 := by
  unfold Field.padIn
  split
  · split
    · exact Nat.mod_lt _ (by decide)
    · decide
  · decide

/-- What a field is printed with whose option is parsed in `frame`. -/
def Field.readIn (frame : Frame) (f : Field) : Reading where
  pad := f.padIn frame
  strlen := f.strlenIn frame
  pad_lt := padIn_lt frame f

/-- The readings of all fields, the `k`-th of which is parsed in `frames k`. -/
def readings (frames : Nat → Frame) (k : Nat) (f : Field) : Reading := f.readIn (frames k)

/-- The walk over digits down to a byte that is none. -/
theorem stringToUintLoop_stop {ds : List UInt8} (hds : ∀ c ∈ ds, isDigit c = true) {c : UInt8}
    (hc : isDigit c = false) (h0 : c ≠ 0) (rest : List UInt8) (power sum : Nat) :
    stringToUintLoop (ds ++ c :: rest) power sum = .ok (2 ^ 32 - 1) := by
  induction ds generalizing power sum with
  | nil =>
      have hinvalid : charToUint c = charToUintInvalid := if_neg (by rw [hc]; decide)
      rw [List.nil_append, stringToUintLoop, if_neg h0]
      simp only [hinvalid, if_true]
  | cons d ds ih =>
      have hd := hds d List.mem_cons_self
      rw [List.cons_append, stringToUintLoop, if_neg (digit_ne_zero hd)]
      simp only [charToUint_ne_invalid hd, if_false]
      exact ih (fun e he => hds e (List.mem_cons_of_mem d he)) _ _

/-- The digits at the front of a text, and what ends them. -/
theorem split_digits {cs : List UInt8} (h : ∃ c ∈ cs, isDigit c = false) : ∃ c rest,
    cs = cs.takeWhile isDigit ++ c :: rest ∧ isDigit c = false := by
  obtain ⟨c, hmem, hc⟩ := h
  cases hrest : cs.dropWhile isDigit with
  | nil =>
      have hall := List.dropWhile_eq_nil_iff.mp hrest c hmem
      rw [hc] at hall
      cases hall
  | cons d rest =>
      refine ⟨d, rest, ?_, ?_⟩
      · rw [← hrest, List.takeWhile_append_dropWhile]
      · have hd := List.head?_dropWhile_not isDigit cs
        rw [hrest] at hd
        simpa using hd

/-- The digits right below, and what ends them. -/
theorem Frame.split_below (frame : Frame) : ∃ c rest,
    frame.below = frame.below.takeWhile isDigit ++ c :: rest ∧ isDigit c = false :=
  split_digits frame.stops

/-- **`string_to_uint` reads `numberOnStack`.** -/
theorem stringToUint_eq_numberOnStack {digits : List UInt8}
    (hd : ∀ c ∈ digits, isDigit c = true) (hlen : digits.length < 2 ^ 8) (frame : Frame) :
    stringToUint digits frame.below
      = .ok ((numberOnStack digits frame.below).getD (2 ^ 32 - 1)) := by
  obtain ⟨c, rest, hbelow, hc⟩ := frame.split_below
  obtain ⟨run, hrun⟩ : ∃ run, run = frame.below.takeWhile isDigit := ⟨_, rfl⟩
  rw [← hrun] at hbelow
  have hdigits : ∀ d ∈ digits.reverse ++ run, isDigit d = true := by
    intro d hmem
    rcases List.mem_append.mp hmem with h | h
    · exact hd d (List.mem_reverse.mp h)
    · rw [hrun] at h
      exact List.mem_takeWhile_imp h
  have hat : frame.below[run.length]? = some c := by
    rw [hbelow, List.getElem?_append_right (Nat.le_refl _), Nat.sub_self]
    rfl
  rw [numberOnStack, stringToUint, Nat.mod_eq_of_lt hlen, List.take_length]
  simp only [← hrun, hat]
  rw [hbelow, ← List.append_assoc]
  by_cases h0 : c = 0
  · have hloop := stringToUintLoop_digits (digits.reverse ++ run) hdigits rest 1 0
    have hvalue : Nat.ofDigits 10 ((digits.reverse ++ run).map fun c => c.toNat - 0x30)
        = decimalValue (run.reverse ++ digits) := by
      rw [decimalValue, List.reverse_append, List.reverse_reverse]
    rw [hvalue, Nat.zero_add, Nat.one_mul] at hloop
    rw [h0]
    refine hloop.trans (congrArg _ ?_)
    split
    · rfl
    next hne =>
      exact Classical.not_not.mp fun hv => hne ⟨rfl, hv⟩
  · rw [stringToUintLoop_stop hdigits hc h0, if_neg fun h => h0 (Option.some.inj h.1)]
    rfl

/-- The option of a parsed field: its kind, if its digits were read as a number. -/
theorem parsedField_onStack {frame : Frame} {f : Field} {o : FieldOption} (ho : f.option = some o) :
    (parsedField frame f).option
        = (if (numberOnStack o.digits frame.below).isSome then o.kind.fmtOption
          else .couldNotConvert) ∧
      (parsedField frame f).optionNum
        = ((numberOnStack o.digits frame.below).getD (2 ^ 32 - 1)) % 2 ^ 8 := by
  have hvalue := stringToUint_eq_numberOnStack o.digits_digit
    (Nat.lt_of_le_of_lt o.digits_length (by decide)) frame
  simp only [parsedField, ho, hvalue, Except.toOption, Option.getD_some, and_true]
  cases hn : numberOnStack o.digits frame.below with
  | none => simp
  | some value =>
      have hne : value ≠ 2 ^ 32 - 1 := by
        unfold numberOnStack at hn
        simp only at hn
        split at hn
        next h =>
          rw [← Option.some.inj hn]
          exact h.2
        · cases hn
      simp only [Option.getD_some, hne, if_false, Option.isSome_some, if_true]

theorem padNum_eq_padIn (frame : Frame) (f : Field) (off : Nat) :
    FieldProperties.padNum { parsedField frame f with pos := off } = f.padIn frame := by
  unfold FieldProperties.padNum Field.padIn
  cases ho : f.option with
  | none =>
      refine if_neg ?_
      simp only [parsedField, ho]
      decide
  | some o =>
      obtain ⟨hoption, hnum⟩ := @parsedField_onStack frame f o ho
      simp only [hoption, hnum]
      cases hn : numberOnStack o.digits frame.below with
      | none =>
          rw [if_neg (by simp)]
          simp
      | some value =>
          have hpad : (OptionKind.fmtOption o.kind = .pad) ↔ o.kind = .pad :=
            ⟨fun h => OptionKind.fmtOption_inj (h.trans rfl), fun h => by rw [h]; rfl⟩
          simp [hpad]

theorem strlen_eq_strlenIn (frame : Frame) (f : Field) :
    (if (parsedField frame f).option = .strlen then some (parsedField frame f).optionNum else none)
      = f.strlenIn frame := by
  unfold Field.strlenIn
  cases ho : f.option with
  | none =>
      refine if_neg ?_
      simp only [parsedField, ho]
      decide
  | some o =>
      obtain ⟨hoption, hnum⟩ := @parsedField_onStack frame f o ho
      simp only [hoption, hnum]
      cases hn : numberOnStack o.digits frame.below with
      | none =>
          rw [if_neg (by simp)]
          simp
      | some value =>
          have hstrlen : (OptionKind.fmtOption o.kind = .strlen) ↔ o.kind = .strlen :=
            ⟨fun h => OptionKind.fmtOption_inj (h.trans rfl), fun h => by rw [h]; rfl⟩
          simp [hstrlen]

/-- **A field is printed with what its stack makes of its option.** -/
theorem printField_in (env : PrintfEnv) (frame : Frame) (f : Field) (off : Nat) (v : Word32)
    (args : List Word32) :
    printField env { parsedField frame f with pos := off } (v :: args)
      = (do let out ← f.type.render env.mem (f.readIn frame) v; return (out, args)) := by
  have htype := parsedField_type frame f
  have hpad := padNum_eq_padIn frame f off
  have hstrlen := strlen_eq_strlenIn frame f
  unfold printField FieldType.render Field.readIn
  cases ht : f.type with
  | s =>
      simp only [htype, ht, FieldType.tag]
      rw [← hstrlen]
      by_cases hoption : (parsedField frame f).option = .strlen
      · simp only [hoption, if_true]
        rfl
      · simp only [hoption, if_false]
        rfl
  | c => simp only [htype, ht, FieldType.tag]; rfl
  | d => simp only [htype, ht, FieldType.tag, hpad]; rfl
  | u => simp only [htype, ht, FieldType.tag, hpad]; rfl
  | h => simp only [htype, ht, FieldType.tag, hpad]; rfl
  | b => simp only [htype, ht, FieldType.tag, hpad]; rfl

/-- A field without a `;` is read without one. -/
theorem strlenIn_none {f : Field} (h : f.number? .strlen = none) (frame : Frame) :
    f.strlenIn frame = none := by
  unfold Field.number? at h
  unfold Field.strlenIn
  cases ho : f.option with
  | none => rfl
  | some o =>
      rw [ho] at h
      by_cases hk : o.kind = .strlen
      · exact absurd ((if_pos hk).symm.trans h) nofun
      · exact if_neg hk

/-! ## 2. Readings that print alike -/

/-- Two pads that the printer of a type makes no difference between: `d`, `u` and `h` refuse more
    than 16, `b` has 32 digits at most, and all of them print one digit at least. -/
def PadsAlike (t : FieldType) (p q : Nat) : Prop :=
  match t with
  | .c | .s => True
  | .d | .u | .h => p ≤ 16 ∧ q ≤ 16 ∧ max p 1 = max q 1
  | .b => max (min p 32) 1 = max (min q 32) 1

/-- Two readings that the printer of a type makes no difference between. -/
structure ReadAlike (t : FieldType) (r r' : Reading) : Prop where
  strlen : t = .s → r.strlen = r'.strlen
  pad : PadsAlike t r.pad r'.pad

section Alike

variable {p q : Nat}

theorem morePad_alike (h : max p 1 = max q 1) (hp : p < 2 ^ 8) (hq : q < 2 ^ 8) {len : Nat}
    (h1 : 1 ≤ len) (hlen : len < 2 ^ 15) : morePad p len = morePad q len := by
  rw [morePad_eq hp hlen, morePad_eq hq hlen]
  congr 1
  omega

/-- **Readings that are alike print alike.** -/
theorem render_alike (mem : Word32 → List UInt8) {t : FieldType} {r r' : Reading}
    (h : ReadAlike t r r') (v : Word32) : t.render mem r v = t.render mem r' v := by
  obtain ⟨hstrlen, h⟩ := h
  obtain ⟨p, n, hp⟩ := r
  obtain ⟨q, n', hq⟩ := r'
  cases t with
  | c => rfl
  | s =>
      obtain rfl : n = n' := hstrlen rfl
      rfl
  | d =>
      obtain ⟨hp16, hq16, heq⟩ : p ≤ 16 ∧ q ≤ 16 ∧ max p 1 = max q 1 := h
      have hlen := itoa_length v
      show printIntF v p = printIntF v q
      unfold printIntF
      simp only [if_pos hp16, if_pos hq16]
      have hneg := @morePad_alike p q heq hp hq ((itoa v).length + 1) (by omega) (by omega)
      rw [Nat.cast_add, Nat.cast_one] at hneg
      rw [hneg, morePad_alike heq hp hq hlen.1 (by omega)]
  | u =>
      obtain ⟨hp16, hq16, heq⟩ : p ≤ 16 ∧ q ≤ 16 ∧ max p 1 = max q 1 := h
      have hlen := uitoa_length v
      show printUintF v p = printUintF v q
      unfold printUintF
      simp only [if_pos hp16, if_pos hq16]
      rw [morePad_alike heq hp hq hlen.1 (by omega)]
  | h =>
      obtain ⟨hp16, hq16, heq⟩ : p ≤ 16 ∧ q ≤ 16 ∧ max p 1 = max q 1 := h
      have hsize := hexSize_range v
      have hmax : max8 (hexSize v) p = max8 (hexSize v) q := by
        unfold max8
        simp only [Nat.mod_eq_of_lt hp, Nat.mod_eq_of_lt hq]
        split <;> split <;> omega
      show printHexF v p = printHexF v q
      unfold printHexF
      simp only [if_pos hp16, if_pos hq16, hmax]
  | b =>
      have heq : max (min p 32) 1 = max (min q 32) 1 := h
      have hsize := binarySize_range v
      have hmax : max8 (binarySize v) p = max8 (binarySize v) q ∨
          32 ≤ max8 (binarySize v) p ∧ 32 ≤ max8 (binarySize v) q := by
        unfold max8
        rw [Nat.mod_eq_of_lt hp, Nat.mod_eq_of_lt hq]
        split <;> split <;> omega
      show Except.ok (printBinaryVarNoNewline v p) = Except.ok (printBinaryVarNoNewline v q)
      unfold printBinaryVarNoNewline
      rcases hmax with hmax | ⟨hp32, hq32⟩
      · simp only [hmax]
      · simp only [if_pos hp32, if_pos hq32]

/-- The only `1` of `out` is its last byte, and there is no `%`. -/
def EndsInOne (out : List UInt8) (width : Nat) : Prop :=
  out.getLast? = some 0x31 ∧ 0x31 ∉ out.dropLast ∧ 0x25 ∉ out ∧ out.length = width

instance (out : List UInt8) (width : Nat) : Decidable (EndsInOne out width) :=
  inferInstanceAs (Decidable (_ ∧ _ ∧ _ ∧ _))

theorem exists_of_any {x : Except Failure (List UInt8)} {P : List UInt8 → Bool}
    (h : x.toOption.any P = true) : ∃ out, x = .ok out ∧ P out = true := by
  cases x with
  | error e => cases h
  | ok out => exact ⟨out, rfl, h⟩

/-- The columns that a type takes for the number 1. -/
def oneWidth (t : FieldType) (pad : Nat) : Nat :=
  match t with
  | .c | .s => 0
  | .d | .u => max pad 1
  | .h => 2 + max pad 1 + (max pad 1 - 1) / 4
  | .b => max (min pad 32) 1 + (max (min pad 32) 1 - 1) / 4

theorem printIntF_one : ∀ p < 17,
    ((printIntF 1#32 p).toOption.any fun out => decide (EndsInOne out (oneWidth .d p))) = true := by
  decide

theorem printUintF_one : ∀ p < 17,
    ((printUintF 1#32 p).toOption.any fun out => decide (EndsInOne out (oneWidth .u p)))
      = true := by
  decide

theorem printHexF_one : ∀ p < 17,
    ((printHexF 1#32 p).toOption.any fun out => decide (EndsInOne out (oneWidth .h p))) = true := by
  decide +kernel

theorem printBinary_one : ∀ p < 33,
    EndsInOne (printBinaryVarNoNewline 1#32 p) (oneWidth .b p) := by
  decide +kernel

/-- Outputs that end in their only `1` are told apart in any text. -/
theorem EndsInOne.inj {out out' : List UInt8} {width width' : Nat} (h : EndsInOne out width)
    (h' : EndsInOne out' width') {s s' : List UInt8} (heq : out ++ s = out' ++ s') :
    width = width' ∧ s = s' := by
  obtain ⟨a, ha⟩ := List.getLast?_eq_some_iff.mp h.1
  obtain ⟨b, hb⟩ := List.getLast?_eq_some_iff.mp h'.1
  have hfront : ∀ {a : List UInt8} (s : List UInt8), 0x31 ∉ a →
      (a ++ [0x31] ++ s).takeWhile (· ≠ 0x31) = a := by
    intro a s hmem
    have hall : ∀ c ∈ a, decide (c ≠ 0x31) = true := fun c hc =>
      decide_eq_true fun e => hmem (e ▸ hc)
    rw [List.append_assoc, List.takeWhile_append_of_pos hall, List.singleton_append,
      List.takeWhile_cons_of_neg (by decide), List.append_nil]
  have hda : 0x31 ∉ a := by
    have hmem := h.2.1
    rwa [ha, List.dropLast_concat] at hmem
  have hdb : 0x31 ∉ b := by
    have hmem := h'.2.1
    rwa [hb, List.dropLast_concat] at hmem
  have hab : a = b := by
    rw [← hfront s hda, ← hfront s' hdb, ← ha, ← hb, heq]
  have hout : out = out' := by rw [ha, hb, hab]
  refine ⟨?_, ?_⟩
  · rw [← h.2.2.2, ← h'.2.2.2, hout]
  · rw [hout] at heq
    exact List.append_cancel_left heq

/-- A printer that refuses pads above 16 and is known on the others. -/
theorem one_of_evaluated {print : Nat → Except Failure (List UInt8)} {width : Nat → Nat}
    {out : List UInt8} (hover : ∀ p, ¬ p ≤ 16 → ∃ e, print p = .error e)
    (hone : ∀ p < 17,
      ((print p).toOption.any fun out => decide (EndsInOne out (width p))) = true)
    (h : print p = .ok out) : p ≤ 16 ∧ EndsInOne out (width p) := by
  have hle : p ≤ 16 := by
    by_contra hgt
    obtain ⟨e, he⟩ := hover p hgt
    cases h.symm.trans he
  obtain ⟨o, ho, hends⟩ := exists_of_any (hone p (by omega))
  cases ho.symm.trans h
  exact ⟨hle, of_decide_eq_true hends⟩

/-- What a number field prints for 1, if it prints at all. -/
theorem render_one {mem : Word32 → List UInt8} {t : FieldType} {r : Reading} {out : List UInt8}
    (ht : t ≠ .c ∧ t ≠ .s) (h : t.render mem r 1#32 = .ok out) :
    (t ≠ .b → r.pad ≤ 16) ∧ EndsInOne out (oneWidth t r.pad) := by
  cases t with
  | c => exact absurd rfl ht.1
  | s => exact absurd rfl ht.2
  | d =>
      obtain ⟨hle, hone⟩ := one_of_evaluated (fun _ hgt => ⟨_, if_neg hgt⟩) printIntF_one h
      exact ⟨fun _ => hle, hone⟩
  | u =>
      obtain ⟨hle, hone⟩ := one_of_evaluated (fun _ hgt => ⟨_, if_neg hgt⟩) printUintF_one h
      exact ⟨fun _ => hle, hone⟩
  | h =>
      obtain ⟨hle, hone⟩ := one_of_evaluated (fun _ hgt => ⟨_, if_neg hgt⟩) printHexF_one h
      exact ⟨fun _ => hle, hone⟩
  | b =>
      have hlt := r.pad_lt
      have hmin : ReadAlike .b r ⟨min r.pad 32, r.strlen, by omega⟩ := by
        refine ⟨nofun, ?_⟩
        show max (min r.pad 32) 1 = max (min (min r.pad 32) 32) 1
        omega
      have hone := printBinary_one (min r.pad 32) (by omega)
      rw [render_alike _ hmin] at h
      cases h
      refine ⟨fun hb => absurd rfl hb, ?_⟩
      have hwidth : oneWidth .b r.pad = oneWidth .b (min r.pad 32) := by
        unfold oneWidth
        simp only [Nat.min_assoc, Nat.min_self]
      rw [hwidth]
      exact hone

/-- **Pads that print alike on the argument 1**, with any text behind, are alike. -/
theorem padsAlike_of_render {mem : Word32 → List UInt8} {t : FieldType} {r r' : Reading}
    {out out' s s' : List UInt8} (hs : t ≠ .s) (h : t.render mem r 1#32 = .ok out)
    (h' : t.render mem r' 1#32 = .ok out') (heq : out ++ s = out' ++ s') :
    PadsAlike t r.pad r'.pad ∧ s = s' := by
  by_cases hc : t = .c
  · subst hc
    cases h
    cases h'
    exact ⟨trivial, List.append_cancel_left heq⟩
  · obtain ⟨hle, hone⟩ := render_one ⟨hc, hs⟩ h
    obtain ⟨hle', hone'⟩ := render_one ⟨hc, hs⟩ h'
    obtain ⟨hwidth, hrest⟩ := hone.inj hone' heq
    refine ⟨?_, hrest⟩
    cases t with
    | c => exact absurd rfl hc
    | s => exact absurd rfl hs
    | d => exact ⟨hle nofun, hle' nofun, hwidth⟩
    | u => exact ⟨hle nofun, hle' nofun, hwidth⟩
    | h =>
        have hsum : 2 + max r.pad 1 + (max r.pad 1 - 1) / 4
            = 2 + max r'.pad 1 + (max r'.pad 1 - 1) / 4 := hwidth
        exact ⟨hle nofun, hle' nofun, by omega⟩
    | b =>
        have hsum : max (min r.pad 32) 1 + (max (min r.pad 32) 1 - 1) / 4
            = max (min r'.pad 32) 1 + (max (min r'.pad 32) 1 - 1) / 4 := hwidth
        show max (min r.pad 32) 1 = max (min r'.pad 32) 1
        omega

end Alike

/-! ## 3. Fields that print alike -/

/-- What the fields print with the readings `r`, by number and field. -/
def renderWith (mem : Word32 → List UInt8) (r : Nat → Field → Reading) (k : Nat) (f : Field)
    (v : Word32) : Except Failure (List UInt8) :=
  f.type.render mem (r k f) v

/-- A reading that the printer takes with every argument of the field. -/
def Field.Accepts (f : Field) (r : Reading) : Prop :=
  match f.type with
  | .s => r.strlen = f.number? .strlen
  | .d | .u | .h => r.pad ≤ 16
  | .c | .b => True

/-- With such a reading a field prints something for an argument that matches it. -/
theorem render_ok {env : PrintfEnv} {f : Field} {v : Word32} {r : Reading}
    (hv : f.Matches env v) (hr : f.Accepts r) : ∃ out, f.type.render env.mem r v = .ok out := by
  unfold Field.Matches at hv
  unfold Field.Accepts at hr
  cases ht : f.type with
  | c => exact ⟨_, rfl⟩
  | s =>
      simp only [ht] at hv hr
      simp only [FieldType.render, hr]
      cases hn : f.number? .strlen with
      | some n => simp only [hn] at hv ⊢; exact ⟨_, if_pos hv⟩
      | none => simp only [hn] at hv ⊢; exact ⟨_, if_pos hv⟩
  | d => rw [ht] at hr; exact printIntF_ok v hr
  | u => rw [ht] at hr; exact printUintF_ok v hr
  | h => rw [ht] at hr; exact printHexF_ok v hr
  | b => exact ⟨_, rfl⟩

/-- What holds of the fields from `k` on, counted from the second one. -/
theorem forall_tail {P : Nat → Field → Prop} {item : Field × List UInt8}
    {items : List (Field × List UInt8)} {k : Nat}
    (h : ∀ i f l, (item :: items)[i]? = some (f, l) → P (k + i) f) :
    ∀ i (f : Field) l, items[i]? = some (f, l) → P (k + 1 + i) f := by
  intro i f l hi
  have hnext := h (i + 1) f l hi
  rwa [← Nat.add_assoc, Nat.add_right_comm] at hnext

/-- **The formatter prints the fields as they are read.** -/
theorem vkprintf_readings (env : PrintfEnv) (F : Format) (args : List Word32) {fuel : Nat}
    (hfuel : F.text.length < fuel) :
    vkprintf env fuel F.text args
      = (do
          let rest ← renderBy (renderWith env.mem (readings env.frames)) 0 F.items args
          return F.first ++ rest) :=
  vkprintf_eq_renderBy env F args (fun _ f _ _ off v args => printField_in env _ f off v args)
    hfuel

section Fields

variable {r r' : Nat → Field → Reading} {items : List (Field × List UInt8)} {k : Nat}

/-- Fields that are read alike print the same for matching arguments. -/
theorem renderBy_alike {env : PrintfEnv} {args : List Word32}
    (hargs : List.Forall₂ (fun i v => i.1.Matches env v) items args)
    (haccepts : ∀ i (f : Field) l, items[i]? = some (f, l) → f.Accepts (r (k + i) f))
    (halike : ∀ i (f : Field) l, items[i]? = some (f, l) →
      ReadAlike f.type (r (k + i) f) (r' (k + i) f)) :
    ∃ out, renderBy (renderWith env.mem r) k items args = .ok out ∧
      renderBy (renderWith env.mem r') k items args = .ok out := by
  induction hargs generalizing k with
  | nil => exact ⟨[], rfl, rfl⟩
  | @cons item v items args hv _ ih =>
      obtain ⟨f, l⟩ := item
      obtain ⟨o, ho⟩ := render_ok hv (haccepts 0 f l rfl)
      have ho' : f.type.render env.mem (r' k f) v = .ok o :=
        (render_alike env.mem (halike 0 f l rfl) v).symm.trans ho
      obtain ⟨rest, hrest, hrest'⟩ := ih (forall_tail (P := fun j g => g.Accepts (r j g)) haccepts)
        (forall_tail (P := fun j g => ReadAlike g.type (r j g) (r' j g)) halike)
      refine ⟨o ++ l ++ rest, ?_, ?_⟩
      · rw [renderBy, show renderWith env.mem r k f v = .ok o from ho, hrest]
        rfl
      · rw [renderBy, show renderWith env.mem r' k f v = .ok o from ho', hrest']
        rfl

end Fields

/-! ## 4. Arguments that tell the others apart -/

/-- `n` bytes `%` can be read `n` below `2 ^ 31`, and the empty string at the last address. -/
def probeMem (v : Word32) : List UInt8 :=
  if v = -1#32 then [0] else List.replicate (2 ^ 31 - v.toNat) 0x25

/-- A string field with `;n` gets exactly `n` readable bytes, one without the empty string, and
    the others get a 1. -/
def Field.probe (f : Field) : Word32 :=
  match f.type with
  | .s =>
      match f.number? .strlen with
      | some n => BitVec.ofNat 32 (2 ^ 31 - n)
      | none => -1#32
  | _ => 1#32

theorem number?_lt {f : Field} {k : OptionKind} {n : Nat} (h : f.number? k = some n) :
    n < 10 ^ 7 := by
  unfold Field.number? at h
  split at h
  · next o _ =>
    split at h
    · rw [← Option.some.inj h]
      exact decimalValue_lt o.digits_digit o.digits_length
    · cases h
  · cases h

/-- The bytes at the probe of a `;n`. -/
theorem probeMem_probe {f : Field} {n : Nat} (ht : f.type = .s) (hn : f.number? .strlen = some n) :
    probeMem f.probe = List.replicate n 0x25 := by
  have hlt := number?_lt hn
  have hprobe : f.probe = BitVec.ofNat 32 (2 ^ 31 - n) := by
    unfold Field.probe
    simp only [ht, hn]
  have hnat : f.probe.toNat = 2 ^ 31 - n := by
    rw [hprobe, BitVec.toNat_ofNat]
    omega
  have hne : f.probe ≠ -1#32 := by
    intro h
    rw [h] at hnat
    have hones : (-1#32 : Word32).toNat = 2 ^ 32 - 1 := by decide
    omega
  rw [probeMem, if_neg hne, hnat]
  congr 1
  omega

theorem probe_plain {f : Field} (ht : f.type = .s) (hn : f.number? .strlen = none) :
    probeMem f.probe = [0] := by
  have hprobe : f.probe = -1#32 := by
    unfold Field.probe
    simp only [ht, hn]
  rw [probeMem, if_pos hprobe]

theorem probe_number {f : Field} (ht : f.type ≠ .s) : f.probe = 1#32 := by
  unfold Field.probe
  split
  · next h => exact absurd h ht
  · rfl

/-- The probes match all fields, if their printers accept the pads of the text. -/
theorem probes_match (frames : Nat → Frame)
    {printFloat : Word32 → Word32 → Option Nat → List UInt8}
    {items : List (Field × List UInt8)}
    (hpads : ∀ i ∈ items, i.1.type = .d ∨ i.1.type = .u ∨ i.1.type = .h → i.1.pad ≤ 16) :
    List.Forall₂ (fun i v => i.1.Matches ⟨frames, probeMem, printFloat⟩ v) items
      (items.map fun i => i.1.probe) := by
  induction items with
  | nil => exact .nil
  | cons i items ih =>
      refine .cons ?_ (ih fun j hj => hpads j (List.mem_cons_of_mem i hj))
      have hpad := hpads i List.mem_cons_self
      unfold Field.Matches
      cases ht : i.1.type with
      | c => trivial
      | s =>
          cases hn : i.1.number? .strlen with
          | some n =>
              simp only [probeMem_probe ht hn, List.length_replicate]
              exact Nat.le_refl n
          | none =>
              simp only [probe_plain ht hn]
              exact List.mem_singleton_self 0
      | d => exact hpad (Or.inl ht)
      | u => exact hpad (Or.inr (Or.inl ht))
      | h => exact hpad (Or.inr (Or.inr ht))
      | b => trivial

/-- Fields with matching arguments have pads that their printers accept. -/
theorem padsFit_of_match {env : PrintfEnv} {items : List (Field × List UInt8)}
    {args : List Word32} (hargs : List.Forall₂ (fun i v => i.1.Matches env v) items args) :
    ∀ i ∈ items, i.1.type = .d ∨ i.1.type = .u ∨ i.1.type = .h → i.1.pad ≤ 16 := by
  induction hargs with
  | nil => exact fun i hi => absurd hi List.not_mem_nil
  | cons hv _ ih =>
      intro j hj htype
      rcases List.mem_cons.mp hj with rfl | hj
      · unfold Field.Matches at hv
        rcases htype with ht | ht | ht
        · rwa [ht] at hv
        · rwa [ht] at hv
        · rwa [ht] at hv
      · exact ih j hj htype

/-- A reading of a field: without a `;` in the text none is read. -/
def Field.CanRead (f : Field) (r : Reading) : Prop :=
  f.type = .s → f.number? .strlen = none → r.strlen = none

/-- What a string field prints for its probe, if it prints at all: so many `%`, and no more than
    the text of the field says. -/
theorem render_probe_string {f : Field} {r : Reading} {out : List UInt8} (ht : f.type = .s)
    (hr : f.CanRead r) (h : f.type.render probeMem r f.probe = .ok out) :
    out = List.replicate (r.strlen.getD 0) 0x25 ∧
      r.strlen.isSome = (f.number? .strlen).isSome ∧
      r.strlen.getD 0 ≤ (f.number? .strlen).getD 0 := by
  rw [ht] at h
  unfold FieldType.render at h
  cases hn : f.number? .strlen with
  | none =>
      rw [hr ht hn, probe_plain ht hn] at h
      rw [hr ht hn]
      cases h
      exact ⟨rfl, rfl, Nat.le_refl 0⟩
  | some n =>
      rw [probeMem_probe ht hn] at h
      cases hm : r.strlen with
      | none =>
          simp only [hm, writestringChars] at h
          rw [if_neg fun hmem => absurd (List.eq_of_mem_replicate hmem) (by decide)] at h
          cases h
      | some m =>
          simp only [hm, writeChars, List.length_replicate] at h
          split at h
          · next hle =>
            cases h
            refine ⟨?_, rfl, hle⟩
            rw [List.take_replicate, Nat.min_eq_left hle]
            rfl
          · cases h

/-- The `%` that a field prints for its probe. -/
theorem render_probe_count {f : Field} {r : Reading} {out : List UInt8} (hr : f.CanRead r)
    (h : f.type.render probeMem r f.probe = .ok out) :
    out.count 0x25 = if f.type = .s then r.strlen.getD 0 else 0 := by
  by_cases ht : f.type = .s
  · rw [if_pos ht, (render_probe_string ht hr h).1, List.count_replicate_self]
  · rw [if_neg ht, List.count_eq_zero]
    rw [probe_number ht] at h
    by_cases hc : f.type = .c
    · rw [hc] at h
      cases h
      decide
    · exact (render_one ⟨hc, ht⟩ h).2.2.2.1

section Fields

variable {r r' : Nat → Field → Reading} {items : List (Field × List UInt8)} {k : Nat}

/-- The output of the fields, taken apart at the first one. -/
theorem renderBy_cons_ok {render : Nat → Field → Word32 → Except Failure (List UInt8)}
    {f : Field} {l : List UInt8} {v : Word32} {args : List Word32} {out : List UInt8}
    (h : renderBy render k ((f, l) :: items) (v :: args) = .ok out) :
    ∃ o rest, render k f v = .ok o ∧ renderBy render (k + 1) items args = .ok rest ∧
      out = o ++ (l ++ rest) := by
  obtain ⟨o, ho, h⟩ := bind_eq_ok.mp h
  obtain ⟨rest, hrest, h⟩ := bind_eq_ok.mp h
  refine ⟨o, rest, ho, hrest, ?_⟩
  rw [← List.append_assoc]
  exact (Except.ok.inj h).symm

/-- **The `;` by the number of `%`**: fields that say what the text says print as many `%` as any
    others, and others print as many only with the same numbers. -/
theorem strlen_of_count (hlit : ∀ i ∈ items, Literal i.2)
    (hr : ∀ i (f : Field) l, items[i]? = some (f, l) → f.type = .s →
      (r (k + i) f).strlen = f.number? .strlen)
    (hr' : ∀ i (f : Field) l, items[i]? = some (f, l) → f.CanRead (r' (k + i) f))
    {out out' : List UInt8}
    (h : renderBy (renderWith probeMem r) k items (items.map fun i => i.1.probe) = .ok out)
    (h' : renderBy (renderWith probeMem r') k items (items.map fun i => i.1.probe) = .ok out') :
    out'.count 0x25 ≤ out.count 0x25 ∧ (out'.count 0x25 = out.count 0x25 →
      ∀ i (f : Field) l, items[i]? = some (f, l) → f.type = .s →
        (r (k + i) f).strlen = (r' (k + i) f).strlen) := by
  induction items generalizing k out out' with
  | nil =>
      cases h
      cases h'
      exact ⟨Nat.le_refl _, fun _ i f l hi => by cases hi⟩
  | cons item items ih =>
      obtain ⟨f, l⟩ := item
      obtain ⟨o, rest, ho, hrest, rfl⟩ := renderBy_cons_ok h
      obtain ⟨o', rest', ho', hrest', rfl⟩ := renderBy_cons_ok h'
      have hsame : f.type = .s → (r k f).strlen = f.number? .strlen := hr 0 f l rfl
      have hcan' : f.CanRead (r' k f) := hr' 0 f l rfl
      have hcount := render_probe_count (fun ht hn => (hsame ht).trans hn) ho
      have hcount' := render_probe_count hcan' ho'
      have hl : l.count 0x25 = 0 := literal_count (hlit (f, l) List.mem_cons_self)
      obtain ⟨hle, heq⟩ := ih (fun i hi => hlit i (List.mem_cons_of_mem _ hi))
        (forall_tail (P := fun j g => g.type = .s → (r j g).strlen = g.number? .strlen) hr)
        (forall_tail (P := fun j g => g.CanRead (r' j g)) hr') hrest hrest'
      have hhead : o'.count 0x25 ≤ o.count 0x25 := by
        rw [hcount, hcount']
        split
        · next ht =>
          rw [hsame ht]
          exact (render_probe_string ht hcan' ho').2.2
        · exact Nat.le_refl 0
      simp only [List.count_append, hl, Nat.zero_add]
      refine ⟨Nat.add_le_add hhead hle, fun hsum i g m hi ht => ?_⟩
      cases i with
      | zero =>
          cases hi
          have hnum : (r' k f).strlen.getD 0 = (r k f).strlen.getD 0 := by
            rw [if_pos ht] at hcount hcount'
            omega
          have hsome : (r' k f).strlen.isSome = (r k f).strlen.isSome :=
            (render_probe_string ht hcan' ho').2.1.trans (congrArg Option.isSome (hsame ht)).symm
          show (r k f).strlen = (r' k f).strlen
          cases hm : (r k f).strlen with
          | none =>
              rw [hm] at hsome
              exact (Option.not_isSome_iff_eq_none.mp (by rw [hsome]; decide)).symm
          | some n =>
              rw [hm] at hsome hnum
              obtain ⟨n', hn'⟩ := Option.isSome_iff_exists.mp hsome
              rw [hn'] at hnum ⊢
              exact congrArg some hnum.symm
      | succ i =>
          have hnext := heq (by omega) i g m hi ht
          rwa [Nat.add_right_comm, Nat.add_assoc] at hnext

/-- **Fields that print the same for their probes are read alike**, if the first say what the text
    says of a `;`. -/
theorem readAlike_of_renderBy (hlit : ∀ i ∈ items, Literal i.2)
    (hr : ∀ i (f : Field) l, items[i]? = some (f, l) → f.type = .s →
      (r (k + i) f).strlen = f.number? .strlen)
    (hr' : ∀ i (f : Field) l, items[i]? = some (f, l) → f.CanRead (r' (k + i) f)) {out : List UInt8}
    (h : renderBy (renderWith probeMem r) k items (items.map fun i => i.1.probe) = .ok out)
    (h' : renderBy (renderWith probeMem r') k items (items.map fun i => i.1.probe) = .ok out) :
    ∀ i (f : Field) l, items[i]? = some (f, l) → ReadAlike f.type (r (k + i) f) (r' (k + i) f) := by
  have hstrlen := (strlen_of_count hlit hr hr' h h').2 rfl
  clear hlit hr hr'
  induction items generalizing k out with
  | nil => exact fun i f l hi => by cases hi
  | cons item items ih =>
      obtain ⟨f, l⟩ := item
      obtain ⟨o, rest, ho, hrest, hout⟩ := renderBy_cons_ok h
      obtain ⟨o', rest', ho', hrest', hout'⟩ := renderBy_cons_ok h'
      have heq : o ++ (l ++ rest) = o' ++ (l ++ rest') := hout.symm.trans hout'
      have hhead : f.type = .s → (r k f).strlen = (r' k f).strlen := hstrlen 0 f l rfl
      obtain ⟨halike, htail⟩ : ReadAlike f.type (r k f) (r' k f) ∧ l ++ rest = l ++ rest' := by
        by_cases ht : f.type = .s
        · have hpad : PadsAlike f.type (r k f).pad (r' k f).pad := by
            rw [ht]
            trivial
          have hsame := render_alike probeMem ⟨hhead, hpad⟩ f.probe
          have ho'' : o = o' := Except.ok.inj (ho.symm.trans (hsame.trans ho'))
          rw [ho''] at heq
          exact ⟨⟨hhead, hpad⟩, List.append_cancel_left heq⟩
        · have hone : f.type.render probeMem (r k f) f.probe = .ok o := ho
          have hone' : f.type.render probeMem (r' k f) f.probe = .ok o' := ho'
          rw [probe_number ht] at hone hone'
          obtain ⟨hpad, hrest⟩ := padsAlike_of_render ht hone hone' heq
          exact ⟨⟨hhead, hpad⟩, hrest⟩
      rw [List.append_cancel_left htail] at hrest
      intro i g m hi
      cases i with
      | zero =>
          cases hi
          exact halike
      | succ i =>
          have hnext := ih hrest hrest' (forall_tail
            (P := fun j g => g.type = .s → (r j g).strlen = (r' j g).strlen) hstrlen) i g m hi
          rwa [Nat.add_right_comm, Nat.add_assoc] at hnext

end Fields

end MapleKernel.Stdio
