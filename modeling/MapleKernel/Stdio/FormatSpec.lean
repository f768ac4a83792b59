/-
  File:      Stdio/FormatSpec.lean
  Subject:   WHAT `vkprintf` IS FOR: literal runs and field renderings, in the order of the source.

  * `Format` -- a well-formed format as its parts: a literal, then fields each followed by a
    literal. `Format.text` writes it down; `Format.render` says what is to be printed.
  * `getSingleFormatProperties_field`: a field is parsed back to its parts.
    `setTypesAndPos_items`: the table of fields, with the position of each.
    `printFields_items`: the windows cut from that table are the literals.
  * `vkprintf_eq_renderBy`: so the formatter prints the literals and what it makes of each field,
    in order. (What it makes of a number is in Stdio/OptionNumbers.lean, and when that is the
    rendering in Stdio/Formatter.lean.)
-/
import MapleKernel.Stdio.Format

namespace MapleKernel.Stdio

/-! ## 1. Formats -/

inductive FieldType where
  | c | s | d | u | h | b
  deriving DecidableEq, Repr

def FieldType.letter : FieldType → UInt8
  | .c => 0x63
  | .s => 0x73
  | .d => 0x64
  | .u => 0x75
  | .h => 0x68
  | .b => 0x62

inductive OptionKind where
  | pad | precision | strlen
  deriving DecidableEq, Repr

def OptionKind.char : OptionKind → UInt8
  | .pad => 0x3A
  | .precision => 0x2E
  | .strlen => 0x3B

/-- An option character followed by one to seven decimal digits. -/
structure FieldOption where
  kind : OptionKind
  digits : List UInt8
  digits_digit : ∀ c ∈ digits, isDigit c = true
  digits_ne_nil : digits ≠ []
  digits_length : digits.length ≤ 7

structure Field where
  type : FieldType
  option : Option FieldOption

def optionText : Option FieldOption → List UInt8
  | none => []
  | some o => o.kind.char :: o.digits

def Field.text (f : Field) : List UInt8 := 0x25 :: f.type.letter :: optionText f.option

/-- A run of literal text. -/
def Literal (l : List UInt8) : Prop := ∀ c ∈ l, c ≠ 0x25 ∧ c ≠ 0

/-- The literal `l` after `f` is not read as a part of it. -/
def Field.Separates (f : Field) (l : List UInt8) : Prop :=
  match f.option with
  | none => ∀ c ∈ l.head?, charToFmtOption c = .none
  | some _ => ∀ c ∈ l.head?, isDigit c = false

def itemsText : List (Field × List UInt8) → List UInt8
  | [] => []
  | (f, l) :: items => f.text ++ l ++ itemsText items

/-- A format: a literal, then between 1 and 255 fields, each followed by a literal. -/
structure Format where
  first : List UInt8
  items : List (Field × List UInt8)
  first_literal : Literal first
  item_literal : ∀ i ∈ items, Literal i.2
  separated : ∀ i ∈ items, i.1.Separates i.2
  items_ne_nil : items ≠ []
  items_length : items.length ≤ 255
  length_lt : (first ++ itemsText items).length < 2 ^ 16

def Format.text (F : Format) : List UInt8 := F.first ++ itemsText F.items

/-- The number of the field's option, if the option is of kind `k`. -/
def Field.number? (f : Field) (k : OptionKind) : Option Nat :=
  match f.option with
  | some o => if o.kind = k then some (decimalValue o.digits) else none
  | none => none

/-- The number of a `:n` option, mod 256, as the pad of a printer; 0 for any other or none. -/
def Field.pad (f : Field) : Nat := ((f.number? .pad).getD 0) % 2 ^ 8

/-- What a printer is given beside the argument: a pad, which is a `uint8_t`, and for a string how
    many bytes of it are printed, if not all. -/
structure Reading where
  pad : Nat
  strlen : Option Nat
  pad_lt : pad < 2 ^ 8

/-- What the text of the field says. -/
def Field.stated (f : Field) : Reading where
  pad := f.pad
  strlen := f.number? .strlen
  pad_lt := Nat.mod_lt _ (by decide)

/-- What a field of type `t` prints for the argument `v`. -/
def FieldType.render (mem : Word32 → List UInt8) (t : FieldType) (r : Reading) (v : Word32) :
    Except Failure (List UInt8) :=
  match t with
  | .c => .ok [UInt8.ofNat v.toNat]
  | .s =>
      match r.strlen with
      | some n => writeChars (mem v) n
      | none => writestringChars (mem v)
  | .d => printIntF v r.pad
  | .u => printUintF v r.pad
  | .h => printHexF v r.pad
  | .b => .ok (printBinaryVarNoNewline v r.pad)

/-- What a field is to print for the argument `v`. -/
def Field.render (env : PrintfEnv) (f : Field) (v : Word32) : Except Failure (List UInt8) :=
  f.type.render env.mem f.stated v

/-- The literal runs and what the `k`-th and later fields print, if a field prints what `render`
    says for its number and its argument. -/
def renderBy (render : Nat → Field → Word32 → Except Failure (List UInt8)) :
    Nat → List (Field × List UInt8) → List Word32 → Except Failure (List UInt8)
  | _, [], _ => return []
  | _, _ :: _, [] => .error .missingArgument
  | k, (f, l) :: items, v :: args => do
      let out ← render k f v
      let rest ← renderBy render (k + 1) items args
      return out ++ l ++ rest

/-- The literal runs and the renderings of the fields, in order. -/
def Format.render (env : PrintfEnv) (F : Format) (args : List Word32) :
    Except Failure (List UInt8) := do
  let rest ← renderBy (fun _ f v => f.render env v) 0 F.items args
  return F.first ++ rest

/-- `v` is an argument for `f`: a `%s` argument points to a NUL-terminated string (with `;n`, to
    `n` readable bytes), and the pad of `%d`, `%u`, `%h` is one the printers accept. -/
def Field.Matches (env : PrintfEnv) (f : Field) (v : Word32) : Prop :=
  match f.type with
  | .s =>
      match f.number? .strlen with
      | some n => n ≤ (env.mem v).length
      | none => 0 ∈ env.mem v
  | .d | .u | .h => f.pad ≤ 16
  | .c | .b => True

/-! ## 2. One field is parsed back -/

def OptionKind.fmtOption : OptionKind → FmtOption
  | .pad => .pad
  | .precision => .precision
  | .strlen => .strlen

def FieldType.tag : FieldType → PrintfType
  | .c => .char
  | .s => .string
  | .d => .int
  | .u => .uint32
  | .h => .hex
  | .b => .binary

theorem charToPrintfTag_letter (t : FieldType) : charToPrintfTag t.letter = t.tag := by
  cases t <;> decide

theorem charToFmtOption_char (k : OptionKind) : charToFmtOption k.char = k.fmtOption := by
  cases k <;> decide

theorem OptionKind.fmtOption_ne_none (k : OptionKind) : k.fmtOption ≠ .none := by
  cases k <;> decide

/-- The byte after a prefix, NUL at the end of the text. -/
theorem charAt_append (pre s : List UInt8) : charAt (pre ++ s) pre.length = .ok (s.headD 0) := by
  cases s with
  | nil => simp [charAt]
  | cons c s => simp [charAt]

/-- What the parser makes of the option of a field, in the frame of its call. -/
def parsedField (frame : Frame) (f : Field) : SingleFormat :=
  match f.option with
  | none => { type := f.type.tag, option := .none, optionNum := 0, len := 2 }
  | some o =>
      let len32 := (stringToUint o.digits frame.below).toOption.getD 0
      { type := f.type.tag
        option := if len32 = 2 ^ 32 - 1 then .couldNotConvert else o.kind.fmtOption
        optionNum := len32 % 2 ^ 8
        len := 3 + o.digits.length }

theorem parsedField_len (frame : Frame) (f : Field) :
    (parsedField frame f).len = f.text.length := by
  unfold parsedField Field.text
  cases f.option with
  | none => rfl
  | some o => simp [optionText]; omega

/-- The text after a field is not read as a part of it either when the literal is empty. -/
theorem Field.Separates.next {f : Field} {l : List UInt8} (h : f.Separates l)
    {rest : List UInt8} (hrest : rest.headD 0 = 0 ∨ rest.headD 0 = 0x25) :
    match f.option with
    | none => charToFmtOption ((l ++ rest).headD 0) = .none
    | some _ => isDigit ((l ++ rest).headD 0) = false := by
  unfold Field.Separates at h
  cases l with
  | cons c l =>
      cases ho : f.option with
      | none => rw [ho] at h; exact h c rfl
      | some o => rw [ho] at h; exact h c rfl
  | nil =>
      rw [List.nil_append]
      cases f.option with
      | none => rcases hrest with e | e <;> simp only [e] <;> decide
      | some o => rcases hrest with e | e <;> simp only [e] <;> decide

theorem takeWhile_digits {digits rest : List UInt8} (hd : ∀ c ∈ digits, isDigit c = true)
    (hrest : isDigit (rest.headD 0) = false) : (digits ++ rest).takeWhile isDigit = digits := by
  have hnone : rest.takeWhile isDigit = [] := by
    cases rest with
    | nil => rfl
    | cons c rest => exact List.takeWhile_cons_of_neg (by simpa using hrest)
  rw [List.takeWhile_append_of_pos hd, hnone, List.append_nil]

/-- **A field is parsed back**, whatever text follows its literal. -/
theorem getSingleFormatProperties_field (frame : Frame) {f : Field} {l rest : List UInt8}
    (hsep : f.Separates l) (hrest : rest.headD 0 = 0 ∨ rest.headD 0 = 0x25) :
    getSingleFormatProperties frame (f.text ++ l ++ rest) = .ok (parsedField frame f) := by
  have hnext := hsep.next hrest
  have htype : charAt (f.text ++ l ++ rest) 1 = .ok f.type.letter :=
    charAt_append [0x25] (f.type.letter :: (optionText f.option ++ l ++ rest))
  have hoption : charAt (f.text ++ l ++ rest) 2
      = .ok ((optionText f.option ++ l ++ rest).headD 0) := by
    exact charAt_append [0x25, f.type.letter] (optionText f.option ++ l ++ rest)
  unfold getSingleFormatProperties
  rw [htype, hoption]
  cases ho : f.option with
  | none =>
      rw [ho] at hnext
      have hnone : charToFmtOption ((optionText none ++ l ++ rest).headD 0) = .none := hnext
      simp only [bind, Except.bind, hnone, if_true, pure, Except.pure, charToPrintfTag_letter,
        parsedField, ho]
  | some o =>
      rw [ho] at hnext
      obtain ⟨c, ds, hds⟩ := List.exists_cons_of_ne_nil o.digits_ne_nil
      obtain ⟨len32, hlen32⟩ := stringToUint_ok o.digits frame.stops
      have htext : f.text ++ l ++ rest
          = 0x25 :: f.type.letter :: o.kind.char :: (o.digits ++ (l ++ rest)) := by
        simp [Field.text, ho, optionText]
      have hkind : charToFmtOption ((optionText (some o) ++ l ++ rest).headD 0)
          = o.kind.fmtOption := charToFmtOption_char o.kind
      have hfirst : charAt (f.text ++ l ++ rest) 3 = .ok c := by
        rw [htext, hds]
        exact charAt_append [0x25, f.type.letter, o.kind.char] (c :: ds ++ (l ++ rest))
      have hdigit : isDigit c = true := o.digits_digit c (by rw [hds]; exact List.mem_cons_self)
      have hdigits : ((f.text ++ l ++ rest).drop 3).takeWhile isDigit = o.digits := by
        rw [htext]
        exact takeWhile_digits o.digits_digit hnext
      have hfit : o.digits.length < lenCharSize := Nat.lt_succ_of_le o.digits_length
      simp only [bind, Except.bind, hkind, o.kind.fmtOption_ne_none, if_false, hfirst, hdigit,
        if_true, hdigits, hfit, hlen32, pure, Except.pure, charToPrintfTag_letter, parsedField, ho,
        Except.toOption, Option.getD_some]

/-! ## 3. The table of fields -/

/-- The table of the fields of `items`, the first of which is the `k`-th and stands at `off`. -/
def propsOf (frames : Nat → Frame) : Nat → Nat → List (Field × List UInt8) → List FieldProperties
  | _, _, [] => []
  | off, k, (f, l) :: items =>
      { parsedField (frames k) f with pos := off }
        :: propsOf frames (off + f.text.length + l.length) (k + 1) items

theorem itemsText_headD (items : List (Field × List UInt8)) :
    (itemsText items).headD 0 = 0 ∨ (itemsText items).headD 0 = 0x25 := by
  cases items with
  | nil => exact Or.inl rfl
  | cons i items => exact Or.inr rfl

theorem literal_append {l l' : List UInt8} (h : Literal l) (h' : Literal l') :
    Literal (l ++ l') := by
  intro c hc
  rcases List.mem_append.mp hc with hc | hc
  · exact h c hc
  · exact h' c hc

/-- The bytes of a field after its `%` are passed over like a literal. -/
theorem literal_fieldTail (f : Field) : Literal (f.type.letter :: optionText f.option) := by
  have hletter : f.type.letter ≠ 0x25 ∧ f.type.letter ≠ 0 := by
    cases f.type <;> decide
  intro c hc
  rcases List.mem_cons.mp hc with rfl | hc
  · exact hletter
  · cases ho : f.option with
    | none => rw [ho] at hc; exact absurd hc List.not_mem_nil
    | some o =>
        rw [ho] at hc
        rcases List.mem_cons.mp hc with rfl | hc
        · cases o.kind <;> decide
        · have hd := o.digits_digit c hc
          refine ⟨fun e => ?_, digit_ne_zero hd⟩
          rw [e] at hd
          exact absurd hd (by decide)

section Table

variable (frames : Nat → Frame) {fmt : List UInt8} (percentCount : Nat)

/-- The loop passes over literal text. -/
theorem setTypesAndPos_skip (pre : List UInt8) {l s : List UInt8} (hl : Literal l)
    (hlen : (pre ++ (l ++ s)).length < 2 ^ 16) (fuel count : Nat) :
    setTypesAndPos frames (pre ++ (l ++ s)) percentCount (fuel + l.length) pre.length count
      = setTypesAndPos frames (pre ++ (l ++ s)) percentCount fuel (pre.length + l.length)
          count := by
  induction l generalizing pre with
  | nil => rfl
  | cons c l ih =>
      obtain ⟨hpercent, hnul⟩ := hl c List.mem_cons_self
      have hmod : (pre.length + 1) % 2 ^ 16 = pre.length + 1 := by
        refine Nat.mod_eq_of_lt (Nat.lt_of_le_of_lt ?_ hlen)
        simp
      have hshift : pre ++ (c :: l ++ s) = pre ++ [c] ++ (l ++ s) := by simp
      have hrest := ih (pre ++ [c]) (fun d hd => hl d (List.mem_cons_of_mem c hd))
        (by rw [← hshift]; exact hlen)
      rw [← hshift, List.length_append, List.length_singleton] at hrest
      rw [List.length_cons, ← Nat.add_assoc, setTypesAndPos, charAt_append]
      simp only [bind, Except.bind, List.cons_append, List.headD_cons, hnul, hpercent, if_false,
        hmod]
      rw [← List.cons_append, hrest]
      congr 1
      omega

/-- One field and its literal: an entry, and on to the text after them. -/
theorem setTypesAndPos_field {f : Field} {l : List UInt8} (hl : Literal l) (hs : f.Separates l)
    {pre rest : List UInt8} (hrest : rest.headD 0 = 0 ∨ rest.headD 0 = 0x25)
    (hlen : (pre ++ (f.text ++ l ++ rest)).length < 2 ^ 16) {count : Nat}
    (hcount : count ≠ percentCount) (hlt : count + 1 < 2 ^ 8) (fuel : Nat) :
    setTypesAndPos frames (pre ++ (f.text ++ l ++ rest)) percentCount
        (fuel + (f.text ++ l).length) pre.length count
      = (do
          let table ← setTypesAndPos frames (pre ++ (f.text ++ l ++ rest)) percentCount fuel
            (pre.length + (f.text ++ l).length) (count + 1)
          return { parsedField (frames count) f with pos := pre.length } :: table) := by
  -- the field without its `%`, with its literal
  obtain ⟨body, hbody⟩ : ∃ body, body = f.type.letter :: optionText f.option ++ l := ⟨_, rfl⟩
  have hskip : Literal body := hbody ▸ literal_append (literal_fieldTail f) hl
  have htext : f.text ++ l = 0x25 :: body := by simp [Field.text, hbody]
  have hpos : (pre.length + 1) % 2 ^ 16 = pre.length + 1 := by
    refine Nat.mod_eq_of_lt (Nat.lt_of_le_of_lt ?_ hlen)
    rw [htext]
    simp
  have hhead : charAt (pre ++ (f.text ++ l ++ rest)) pre.length = .ok 0x25 := by
    rw [charAt_append, htext]; rfl
  have hfield : getSingleFormatProperties (frames count)
      ((pre ++ (f.text ++ l ++ rest)).drop pre.length) = .ok (parsedField (frames count) f) := by
    rw [List.drop_left]
    exact getSingleFormatProperties_field _ hs hrest
  have hgo : setTypesAndPos frames (pre ++ (f.text ++ l ++ rest)) percentCount
      (fuel + body.length) (pre.length + 1) (count + 1)
      = setTypesAndPos frames (pre ++ (f.text ++ l ++ rest)) percentCount fuel
          (pre.length + (f.text ++ l).length) (count + 1) := by
    have hshift : pre ++ (f.text ++ l ++ rest) = pre ++ [0x25] ++ (body ++ rest) := by
      rw [htext]; simp
    have h := setTypesAndPos_skip frames percentCount _ hskip (by rw [← hshift]; exact hlen) fuel
      (count + 1)
    have hadd : (pre ++ [0x25]).length + body.length = pre.length + (f.text ++ l).length := by
      rw [htext]; simp; omega
    rw [hadd, ← hshift, List.length_append] at h
    exact h
  have hfuel : fuel + (f.text ++ l).length = fuel + body.length + 1 := by rw [htext]; rfl
  have h25 : ¬ ((0x25 : UInt8) = 0) := by decide
  rw [hfuel, setTypesAndPos, hhead]
  simp only [bind, Except.bind, h25, if_false, if_true, hcount.symm, hfield, hpos,
    Nat.mod_eq_of_lt hlt, hgo]

/-- **The table**: one entry for each field, in order, at its position. -/
theorem setTypesAndPos_items {items : List (Field × List UInt8)}
    (hlit : ∀ i ∈ items, Literal i.2) (hsep : ∀ i ∈ items, i.1.Separates i.2)
    (pre : List UInt8) (hlen : (pre ++ itemsText items).length < 2 ^ 16) (count : Nat)
    (hcount : count + items.length = percentCount) (hpercent : percentCount < 2 ^ 8) (fuel : Nat)
    (hfuel : (itemsText items).length < fuel) :
    setTypesAndPos frames (pre ++ itemsText items) percentCount fuel pre.length count
      = .ok (propsOf frames pre.length count items) := by
  induction items generalizing pre count fuel with
  | nil =>
      obtain ⟨fuel, rfl⟩ : ∃ m, fuel = m + 1 := ⟨fuel - 1, by omega⟩
      rw [setTypesAndPos, charAt_append]
      rfl
  | cons i items ih =>
      obtain ⟨f, l⟩ := i
      have hitems : (itemsText ((f, l) :: items)).length
          = (f.text ++ l).length + (itemsText items).length := by
        rw [itemsText, List.length_append]
      have hshift : pre ++ itemsText ((f, l) :: items)
          = pre ++ (f.text ++ l) ++ itemsText items := by
        rw [itemsText]; exact (List.append_assoc _ _ _).symm
      rw [List.length_cons] at hcount
      obtain ⟨fuel, rfl⟩ : ∃ m, fuel = m + (f.text ++ l).length :=
        ⟨fuel - (f.text ++ l).length, by omega⟩
      have hrest := ih (fun i hi => hlit i (List.mem_cons_of_mem _ hi))
        (fun i hi => hsep i (List.mem_cons_of_mem _ hi)) _ (by rw [← hshift]; exact hlen)
        (count + 1) (by omega) fuel (by omega)
      have hoff : (pre ++ (f.text ++ l)).length = pre.length + f.text.length + l.length := by
        simp only [List.length_append]; omega
      have hoff' : pre.length + (f.text ++ l).length = pre.length + f.text.length + l.length := by
        simp only [List.length_append]; omega
      rw [← hshift, hoff] at hrest
      rw [itemsText] at hlen hrest ⊢
      rw [setTypesAndPos_field frames percentCount (hlit (f, l) List.mem_cons_self)
        (hsep (f, l) List.mem_cons_self) (itemsText_headD items) hlen (by omega) (by omega), hoff',
        hrest]
      rfl

end Table

/-! ## 4. Printing a field -/

theorem decimalValue_lt {digits : List UInt8} (hd : ∀ c ∈ digits, isDigit c = true)
    (hlen : digits.length ≤ 7) : decimalValue digits < 10 ^ 7 := by
  have hlt : ∀ d ∈ digits.reverse.map (fun c => c.toNat - 0x30), d < 10 := by
    intro d hmem
    obtain ⟨c, hc, rfl⟩ := List.mem_map.mp hmem
    have := isDigit_iff.mp (hd c (List.mem_reverse.mp hc))
    omega
  calc decimalValue digits
      < 10 ^ (digits.reverse.map fun c => c.toNat - 0x30).length :=
        Nat.ofDigits_lt_base_pow_length (by decide) hlt
    _ ≤ 10 ^ 7 := Nat.pow_le_pow_right (by decide) (by simpa using hlen)

theorem parsedField_type (frame : Frame) (f : Field) :
    (parsedField frame f).type = f.type.tag := by
  unfold parsedField
  cases f.option <;> rfl

theorem OptionKind.fmtOption_inj {k k' : OptionKind} (h : k.fmtOption = k'.fmtOption) : k = k' := by
  cases k <;> cases k' <;> first | rfl | cases h

theorem printField_no_args (env : PrintfEnv) (frame : Frame) (f : Field) (off : Nat) :
    printField env { parsedField frame f with pos := off } [] = .error .missingArgument := by
  unfold printField
  simp only [parsedField_type]
  cases f.type <;> rfl

/-! ## 5. The windows are the literals -/

/-- The windows from `start` on: `start_and_ends` without the entries before it. -/
def windowsFrom (start : Nat) (ps : List FieldProperties) (formatLen : Nat) : List StartAndEnd :=
  List.zipWith StartAndEnd.mk
    (start :: ps.map fun p => (p.pos + p.len) % 2 ^ 16)
    ((ps.map fun p => (p.pos + 2 ^ 16 - 1) % 2 ^ 16) ++ [(formatLen + 2 ^ 16 - 1) % 2 ^ 16])

theorem windowsFrom_nil (start formatLen : Nat) :
    windowsFrom start [] formatLen = [⟨start, (formatLen + 2 ^ 16 - 1) % 2 ^ 16⟩] := rfl

theorem windowsFrom_cons (start : Nat) (p : FieldProperties) (ps : List FieldProperties)
    (formatLen : Nat) :
    windowsFrom start (p :: ps) formatLen = ⟨start, (p.pos + 2 ^ 16 - 1) % 2 ^ 16⟩
      :: windowsFrom ((p.pos + p.len) % 2 ^ 16) ps formatLen := rfl

/-- The inclusive end is decremented and incremented again, mod `2 ^ 16`; the text between the
    two positions is the literal there. -/
theorem windowText_literal (pre l rest : List UInt8) (hlen : (pre ++ (l ++ rest)).length < 2 ^ 16) :
    windowText (pre ++ (l ++ rest)) ⟨pre.length, (pre.length + l.length + 2 ^ 16 - 1) % 2 ^ 16⟩
      = l := by
  have hend : ((pre.length + l.length + 2 ^ 16 - 1) % 2 ^ 16 + 1) % 2 ^ 16
      = pre.length + l.length := by
    simp only [List.length_append] at hlen
    omega
  unfold windowText terminalWriteOffsets
  simp only [hend, Nat.add_sub_cancel_left, List.drop_left, List.take_left]
  cases l with
  | nil => simp
  | cons c l =>
      rw [if_neg]
      rw [List.length_cons]
      omega

/-- Two results that differ by what stands before them still do with more text in front. -/
theorem bind_append_congr {x y : Except Failure (List UInt8)} {a b : List UInt8}
    (h : (do let r ← x; return a ++ r) = (do let r ← y; return b ++ r)) (out : List UInt8) :
    (do let r ← x; return out ++ a ++ r) = (do let r ← y; return out ++ b ++ r) := by
  cases x with
  | error e =>
      cases y with
      | error e' => cases h; rfl
      | ok r' => cases h
  | ok r =>
      cases y with
      | error e' => cases h
      | ok r' =>
          have heq : a ++ r = b ++ r' := Except.ok.inj h
          show Except.ok (out ++ a ++ r) = Except.ok (out ++ b ++ r')
          rw [List.append_assoc, heq, List.append_assoc]

/-- **The fields and the text around them**: from a literal `l` at `pre.length` on, the loop
    prints the literal, the fields and the literals after them. -/
theorem printFields_items (env : PrintfEnv)
    {render : Nat → Field → Word32 → Except Failure (List UInt8)}
    {items : List (Field × List UInt8)} (k : Nat)
    (hfield : ∀ i f l, items[i]? = some (f, l) → ∀ off v args,
      printField env { parsedField (env.frames (k + i)) f with pos := off } (v :: args)
        = (do let out ← render (k + i) f v; return (out, args)))
    (pre l : List UInt8) (hlen : (pre ++ (l ++ itemsText items)).length < 2 ^ 16)
    (args : List Word32) :
    ∃ w ws, windowsFrom pre.length (propsOf env.frames (pre.length + l.length) k items)
        (pre ++ (l ++ itemsText items)).length = w :: ws ∧
      (do
        let rest ← printFields env (pre ++ (l ++ itemsText items))
          (propsOf env.frames (pre.length + l.length) k items) ws args
        return windowText (pre ++ (l ++ itemsText items)) w ++ rest)
      = (do let rest ← renderBy render k items args; return l ++ rest) := by
  induction items generalizing k pre l args with
  | nil =>
      refine ⟨_, _, windowsFrom_nil _ _, ?_⟩
      have hlast : (pre ++ (l ++ itemsText [])).length = pre.length + l.length := by
        simp [itemsText]
      rw [hlast, windowText_literal pre l _ hlen]
      rfl
  | cons i items ih =>
      obtain ⟨f, l'⟩ := i
      have hshift : pre ++ (l ++ itemsText ((f, l') :: items))
          = pre ++ l ++ f.text ++ (l' ++ itemsText items) := by
        simp [itemsText]
      have hoff : (pre ++ l ++ f.text).length = pre.length + l.length + f.text.length := by
        simp; omega
      have hstart : (pre.length + l.length + (parsedField (env.frames k) f).len) % 2 ^ 16
          = pre.length + l.length + f.text.length := by
        rw [parsedField_len]
        refine Nat.mod_eq_of_lt (Nat.lt_of_le_of_lt ?_ hlen)
        rw [hshift, List.length_append, hoff]
        omega
      obtain ⟨w, ws, hws, hrest⟩ := ih (k + 1)
        (fun i f l hi => by
          have := hfield (i + 1) f l hi
          rwa [← Nat.add_assoc, Nat.add_right_comm] at this)
        (pre ++ l ++ f.text) l' (by rw [← hshift]; exact hlen) args.tail
      rw [← hshift, hoff] at hws hrest
      refine ⟨_, w :: ws, by rw [propsOf, windowsFrom_cons, hstart, hws], ?_⟩
      have hlit := windowText_literal pre l (itemsText ((f, l') :: items)) hlen
      rw [propsOf, hlit]
      cases args with
      | nil =>
          rw [printFields, printField_no_args]
          rfl
      | cons v args =>
          have hhead := hfield 0 f l' rfl (pre.length + l.length) v args
          rw [Nat.add_zero] at hhead
          rw [printFields, hhead, renderBy]
          cases render k f v with
          | error e => rfl
          | ok out =>
              have hout := bind_append_congr hrest out
              exact congrArg (fun x => x >>= fun rest => pure (l ++ rest)) hout

/-! ## 6. The formatter -/

theorem literal_count {l : List UInt8} (h : Literal l) : l.count 0x25 = 0 :=
  List.count_eq_zero.mpr fun hmem => (h _ hmem).1 rfl

theorem itemsText_count {items : List (Field × List UInt8)} (hlit : ∀ i ∈ items, Literal i.2) :
    (itemsText items).count 0x25 = items.length := by
  induction items with
  | nil => rfl
  | cons i items ih =>
      obtain ⟨f, l⟩ := i
      have hl : l.count 0x25 = 0 := literal_count (hlit (f, l) List.mem_cons_self)
      have hf : f.text.count 0x25 = 1 := by
        rw [Field.text, List.count_cons_self, literal_count (literal_fieldTail f)]
      rw [itemsText, List.count_append, List.count_append, hf, hl,
        ih fun i hi => hlit i (List.mem_cons_of_mem _ hi), List.length_cons]
      omega

namespace Format

theorem countChar_text (F : Format) : countChar F.text 0x25 = F.items.length := by
  have hle := F.items_length
  rw [countChar, Format.text, List.count_append, literal_count F.first_literal,
    itemsText_count F.item_literal]
  omega

/-- The table of a format. -/
theorem setTypesAndPos_text (F : Format) (frames : Nat → Frame) {fuel : Nat}
    (hfuel : F.text.length < fuel) :
    setTypesAndPos frames F.text F.items.length fuel 0 0
      = .ok (propsOf frames F.first.length 0 F.items) := by
  have hle := F.items_length
  obtain ⟨fuel, rfl⟩ : ∃ m, fuel = m + F.first.length :=
    ⟨fuel - F.first.length, by rw [Format.text, List.length_append] at hfuel; omega⟩
  have hskip := setTypesAndPos_skip frames F.items.length [] F.first_literal F.length_lt fuel 0
  have hitems := setTypesAndPos_items frames F.items.length F.item_literal F.separated
    F.first F.length_lt 0 (Nat.zero_add _) (by omega) fuel
    (by rw [Format.text, List.length_append] at hfuel; omega)
  rw [List.nil_append, List.length_nil, Nat.zero_add] at hskip
  rw [Format.text, hskip, hitems]

end Format

/-- What the formatter does with a format, whatever the arguments are. -/
theorem vkprintf_eq_renderBy (env : PrintfEnv) (F : Format) (args : List Word32)
    {render : Nat → Field → Word32 → Except Failure (List UInt8)}
    (hfield : ∀ i f l, F.items[i]? = some (f, l) → ∀ off v args,
      printField env { parsedField (env.frames i) f with pos := off } (v :: args)
        = (do let out ← render i f v; return (out, args)))
    {fuel : Nat} (hfuel : F.text.length < fuel) :
    vkprintf env fuel F.text args
      = (do let rest ← renderBy render 0 F.items args; return F.first ++ rest) := by
  have hpos : 0 < F.items.length := List.length_pos_of_ne_nil F.items_ne_nil
  obtain ⟨w, ws, hws, hprint⟩ := printFields_items env 0
    (fun i f l hi => by rw [Nat.zero_add]; exact hfield i f l hi) [] F.first F.length_lt args
  rw [List.nil_append, List.length_nil, Nat.zero_add] at hws hprint
  have hwin : startAndEnds (propsOf env.frames F.first.length 0 F.items) (F.text.length % 2 ^ 16)
      = w :: ws := by
    rw [Nat.mod_eq_of_lt (show F.text.length < 2 ^ 16 from F.length_lt)]
    exact hws
  unfold vkprintf
  simp only [F.countChar_text, Nat.ne_of_gt hpos, if_false, F.setTypesAndPos_text env.frames hfuel,
    hwin, bind, Except.bind]
  exact hprint

/-- Every call finds a NUL below `len_char`; all addresses read as `bytes`. -/
def nulEnv (bytes : List UInt8) : PrintfEnv where
  frames := fun _ => { below := [0], stops := ⟨0, by decide, by decide⟩, len := 0, optionNum := 0 }
  mem := fun _ => bytes
  printFloat := fun _ _ _ => []

end MapleKernel.Stdio
