/-
  File:      Stdio/Format.lean
  Subject:   THE FORMATTER `vkprintf` of `stdio.c`.

  The result of a call is the list of characters it hands to `terminal_putchar`, in order, or the
  way it ended otherwise. A format is the list of its bytes without the final NUL; a read past
  that NUL is `outOfBounds`. The lock around the body is `reentrant_lock`
  (Cpu/ReentrantLock.lean); it does not touch the text.

  What the C code leaves to its surroundings is in `PrintfEnv`: the stack frame of each call of
  `get_single_format_properties` (`Frame`), the memory behind a `%s` argument, and the two
  printers of a `float`.
-/
import MapleKernel.Stdio.BitHexString

namespace MapleKernel.Stdio

/-! ## 1. Fields -/

inductive FmtOption where
  | none
  | notImplemented
  | couldNotConvert
  | pad
  | precision
  | strlen
  deriving DecidableEq, Repr

inductive PrintfType where
  | invalid
  | char
  | string
  | int
  | uint32
  | float
  | hex
  | binary
  deriving DecidableEq, Repr

/-- What `get_single_format_properties` finds out about a field. -/
structure SingleFormat where
  type : PrintfType
  option : FmtOption
  optionNum : Nat
  len : Nat
  deriving DecidableEq, Repr

structure FieldProperties extends SingleFormat where
  pos : Nat
  deriving DecidableEq, Repr

/-- The stack frame of one call of `get_single_format_properties`: the bytes below `len_char`,
    nearest first (they are not all digits down to the end of memory), and what the
    uninitialised `len` and `option_num` hold. -/
structure Frame where
  below : List UInt8
  stops : ∃ c ∈ below, isDigit c = false
  len : Nat
  optionNum : Nat

abbrev Word32 := BitVec 32

structure PrintfEnv where
  /-- The frame of the `k`-th call. -/
  frames : Nat → Frame
  /-- The bytes that can be read from an address on. -/
  mem : Word32 → List UInt8
  /-- `print_float_var_no_newline` and its `_precision` variant, on the two words of a `double`. -/
  printFloat : Word32 → Word32 → Option Nat → List UInt8

def charToFmtOption (c : UInt8) : FmtOption :=
  if c = 0x3A then .pad else if c = 0x2E then .precision else if c = 0x3B then .strlen else .none

def charToPrintfTag (c : UInt8) : PrintfType :=
  if c = 0x63 then .char
  else if c = 0x73 then .string
  else if c = 0x64 then .int
  else if c = 0x75 then .uint32
  else if c = 0x66 then .float
  else if c = 0x68 then .hex
  else if c = 0x62 then .binary
  else .invalid

/-- `str[i]` of a NUL-terminated text. -/
def charAt (str : List UInt8) (i : Nat) : Except Failure UInt8 :=
  match str[i]? with
  | some c => .ok c
  | none => if i = str.length then .ok 0 else .error .outOfBounds

/-- `count_char`: the result is one byte. -/
def countChar (str : List UInt8) (delimiter : UInt8) : Nat := str.count delimiter % 2 ^ 8

/-- `len_char` holds 8 bytes, one of them for the NUL. -/
def lenCharSize : Nat := 8

/-- `get_single_format_properties`, on the format from the `%` on. -/
def getSingleFormatProperties (frame : Frame) (fmt : List UInt8) : Except Failure SingleFormat := do
  let fmtType ← charAt fmt 1
  let possibleOption ← charAt fmt 2
  let option := charToFmtOption possibleOption
  if option = .none then
    return { type := charToPrintfTag fmtType, option := option, optionNum := 0, len := 2 }
  let first ← charAt fmt 3
  if isDigit first then
    let digits := (fmt.drop 3).takeWhile isDigit
    if digits.length < lenCharSize then
      let len32 ← stringToUint digits frame.below
      return { type := charToPrintfTag fmtType
               option := if len32 = 2 ^ 32 - 1 then .couldNotConvert else option
               optionNum := len32 % 2 ^ 8
               len := 3 + digits.length }
    else .error .outOfBounds
  else
    return { type := charToPrintfTag fmtType, option := .notImplemented
             optionNum := frame.optionNum, len := frame.len }

/-- `set_types_and_pos` from `offset` on, with `count` fields found. The offset is a `uint16_t`,
    so on a format of 65536 bytes or more the loop need not end. -/
def setTypesAndPos (frames : Nat → Frame) (fmt : List UInt8) (percentCount : Nat) :
    Nat → Nat → Nat → Except Failure (List FieldProperties)
  | 0, _, _ => .error .outOfFuel
  | fuel + 1, offset, count => do
      let c ← charAt fmt offset
      if c = 0 then return []
      else if c = 0x25 then
        if percentCount = count then .error .aborted
        else
          let properties ← getSingleFormatProperties (frames count) (fmt.drop offset)
          let rest ← setTypesAndPos frames fmt percentCount fuel ((offset + 1) % 2 ^ 16)
            ((count + 1) % 2 ^ 8)
          return { properties with pos := offset } :: rest
      else setTypesAndPos frames fmt percentCount fuel ((offset + 1) % 2 ^ 16) count

/-! ## 2. Windows of literal text -/

/-- A window of the format; `last` is its inclusive end, the field `end` of the source. -/
structure StartAndEnd where
  start : Nat
  last : Nat

/-- The array `start_and_ends`: the text before, between and after the fields. -/
def startAndEnds (ps : List FieldProperties) (formatLen : Nat) : List StartAndEnd :=
  List.zipWith StartAndEnd.mk
    (0 :: ps.map fun p => (p.pos + p.len) % 2 ^ 16)
    ((ps.map fun p => (p.pos + 2 ^ 16 - 1) % 2 ^ 16) ++ [(formatLen + 2 ^ 16 - 1) % 2 ^ 16])

/-- `terminal_write_offsets`. Its `end` is a position of the format, so it reads inside it. -/
def terminalWriteOffsets (str : List UInt8) (start stop : Nat) : List UInt8 :=
  if stop ≤ start then [] else (str.drop start).take (stop - start)

/-- The text of a window; both callers pass `end + 1`, as a `uint16_t`. -/
def windowText (fmt : List UInt8) (w : StartAndEnd) : List UInt8 :=
  terminalWriteOffsets fmt w.start ((w.last + 1) % 2 ^ 16)

/-! ## 3. `vkprintf` -/

/-- The characters of `terminal_writestring`. -/
def writestringChars (bytes : List UInt8) : Except Failure (List UInt8) :=
  if 0 ∈ bytes then .ok (bytes.takeWhile (· ≠ 0)) else .error .outOfBounds

/-- The characters of `terminal_write`. -/
def writeChars (bytes : List UInt8) (size : Nat) : Except Failure (List UInt8) :=
  if size ≤ bytes.length then .ok (bytes.take size) else .error .outOfBounds

/-- `va_arg` of a one-word argument. -/
def vaArg : List Word32 → Except Failure (Word32 × List Word32)
  | [] => .error .missingArgument
  | v :: args => .ok (v, args)

def FieldProperties.padNum (p : FieldProperties) : Nat :=
  if p.option = .pad then p.optionNum else 0

/-- The `switch` of `vkprintf`: the characters of a field, and the arguments left. -/
def printField (env : PrintfEnv) (p : FieldProperties) (args : List Word32) :
    Except Failure (List UInt8 × List Word32) :=
  match p.type with
  | .char => do
      let (v, args) ← vaArg args
      return ([UInt8.ofNat v.toNat], args)
  | .string => do
      let (v, args) ← vaArg args
      let out ← if p.option = .strlen then writeChars (env.mem v) p.optionNum
        else writestringChars (env.mem v)
      return (out, args)
  | .int => do
      let (v, args) ← vaArg args
      let out ← printIntF v p.padNum
      return (out, args)
  | .uint32 => do
      let (v, args) ← vaArg args
      let out ← printUintF v p.padNum
      return (out, args)
  | .float => do
      let (lo, args) ← vaArg args
      let (hi, args) ← vaArg args
      return (env.printFloat lo hi (if p.option = .precision then some p.optionNum else none), args)
  | .hex => do
      let (v, args) ← vaArg args
      let out ← printHexF v p.padNum
      return (out, args)
  | .binary => do
      let (v, args) ← vaArg args
      return (printBinaryVarNoNewline v p.padNum, args)
  | .invalid => return ([], args)

/-- The loop over the fields, each followed by the window after it. -/
def printFields (env : PrintfEnv) (fmt : List UInt8) :
    List FieldProperties → List StartAndEnd → List Word32 → Except Failure (List UInt8)
  | p :: ps, w :: ws, args => do
      let (out, args) ← printField env p args
      let rest ← printFields env fmt ps ws args
      return out ++ windowText fmt w ++ rest
  | _, _, _ => return []

/-- `vkprintf`. `fuel` bounds the turns of the loop in `set_types_and_pos`. -/
def vkprintf (env : PrintfEnv) (fuel : Nat) (fmt : List UInt8) (args : List Word32) :
    Except Failure (List UInt8) :=
  let len := countChar fmt 0x25
  if len = 0 then return fmt
  else do
    let ps ← setTypesAndPos env.frames fmt len fuel 0 0
    match startAndEnds ps (fmt.length % 2 ^ 16) with
    | w :: ws =>
        let rest ← printFields env fmt ps ws args
        return windowText fmt w ++ rest
    | [] => return []

end MapleKernel.Stdio
