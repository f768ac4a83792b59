/-
  File:      Cpu/SegmentDescriptor.lean
  Subject:   SEGMENT DESCRIPTORS (`f3_segment_descriptor_internals.c`, `f1_binary_operation.c`,
             `gdt.h`): ten fields in two words, read and written through a bit helper.

  `PRESENT` and `LONG_MODE` are constants of the header, 15 and 21, and further down macros of the
  same names, `1 << 7` and `1 << 5`; the functions see the macros. A shift of a 32-bit word takes
  its count mod 32, as the processor does (C leaves a count of 32 and more undefined), so both
  functions work on bit 0 of the upper word, which is bit 16 of the base.

  * `getBits`, `setBits` -- the helper, and `testBit_getBits`, `testBit_setBits`: what it does;
  * `DescriptorField` -- the ten fields with their getters and setters;
  * `SegmentDescriptorModern`, `GdtEntry` -- the two packed layouts of the same 8 bytes;
  * `fieldIndependent_iff` -- a call of a setter leaves the fields independent exactly when the
    bits P and L are those of bit 16 of the base, and the call keeps that bit.
-/
import MapleKernel.Lib.BitPlace

namespace MapleKernel.Cpu

open BitPlaces

/-! ## 1. The bit helper -/

def generateMask (endBig startSmall : UInt8) : UInt32 :=
  let width := endBig - startSmall + 1
  let mask : UInt32 := if 32 ≤ width then 0xFFFFFFFF else (1 <<< width.toUInt32) - 1
  mask <<< startSmall.toUInt32

def generateAntiMask (endBig startSmall : UInt8) : UInt32 := ~~~generateMask endBig startSmall

def getBits (value : UInt32) (endBig startSmall : UInt8) : UInt32 :=
  (value &&& generateMask endBig startSmall) >>> startSmall.toUInt32

/-- The value is not masked: it has to fit. -/
def setBits (aDest bValue : UInt32) (endBig startSmall : UInt8) : UInt32 :=
  (aDest &&& generateAntiMask endBig startSmall) ||| (bValue <<< startSmall.toUInt32)

/-! ## 2. The descriptor and its packed layouts -/

structure SegmentDescriptor where
  lower : UInt32
  higher : UInt32
  deriving DecidableEq, Repr

/-- Bit `i` of the 8 bytes. -/
def SegmentDescriptor.bit (sd : SegmentDescriptor) (i : Nat) : Bool :=
  if i < 32 then sd.lower.toNat.testBit i else sd.higher.toNat.testBit (i - 32)

/-- The bit-field of the given width at a bit of a word. -/
def bitField (word : UInt32) (start width : Nat) : Nat := word.toNat / 2 ^ start % 2 ^ width

/-- `SegmentDescriptorModern`. -/
structure SegmentDescriptorModern where
  segmentLimitLow16 : Nat
  baseAddressLow16 : Nat
  baseAddressMiddle8 : Nat
  type : Nat
  systemNot : Nat
  dpl : Nat
  present : Nat
  segmentLimitMid : Nat
  availableCustom : Nat
  longMode : Nat
  db : Nat
  granularity : Nat
  baseAddressHigh8 : Nat
  deriving DecidableEq, Repr

def SegmentDescriptor.modern (sd : SegmentDescriptor) : SegmentDescriptorModern where
  segmentLimitLow16 := bitField sd.lower 0 16
  baseAddressLow16 := bitField sd.lower 16 16
  baseAddressMiddle8 := bitField sd.higher 0 8
  type := bitField sd.higher 8 4
  systemNot := bitField sd.higher 12 1
  dpl := bitField sd.higher 13 2
  present := bitField sd.higher 15 1
  segmentLimitMid := bitField sd.higher 16 4
  availableCustom := bitField sd.higher 20 1
  longMode := bitField sd.higher 21 1
  db := bitField sd.higher 22 1
  granularity := bitField sd.higher 23 1
  baseAddressHigh8 := bitField sd.higher 24 8

/-- `segment_descriptor_t`, which is also `GDT_ENTRY`. -/
structure GdtEntry where
  limitLow : Nat
  baseLow : Nat
  baseMiddle : Nat
  type : Nat
  s : Nat
  dpl : Nat
  p : Nat
  limitHigh : Nat
  avl : Nat
  l : Nat
  db : Nat
  g : Nat
  baseHigh : Nat
  deriving DecidableEq, Repr

def SegmentDescriptor.gdtEntry (sd : SegmentDescriptor) : GdtEntry where
  limitLow := bitField sd.lower 0 16
  baseLow := bitField sd.lower 16 16
  baseMiddle := bitField sd.higher 0 8
  type := bitField sd.higher 8 4
  s := bitField sd.higher 12 1
  dpl := bitField sd.higher 13 2
  p := bitField sd.higher 15 1
  limitHigh := bitField sd.higher 16 4
  avl := bitField sd.higher 20 1
  l := bitField sd.higher 21 1
  db := bitField sd.higher 22 1
  g := bitField sd.higher 23 1
  baseHigh := bitField sd.higher 24 8

/-- `get_segment_descriptor_base`. -/
def GdtEntry.base (e : GdtEntry) : Nat := e.baseHigh <<< 24 ||| e.baseMiddle <<< 16 ||| e.baseLow

/-- `get_segment_descriptor_limit`. -/
def GdtEntry.limit (e : GdtEntry) : Nat := e.limitHigh <<< 16 ||| e.limitLow

/-- The base of the other layout, put together the same way. -/
def SegmentDescriptorModern.base (m : SegmentDescriptorModern) : Nat :=
  m.baseAddressHigh8 <<< 24 ||| m.baseAddressMiddle8 <<< 16 ||| m.baseAddressLow16

def SegmentDescriptorModern.limit (m : SegmentDescriptorModern) : Nat :=
  m.segmentLimitMid <<< 16 ||| m.segmentLimitLow16

/-! ## 3. Getters and setters -/

def descriptorTypeS : UInt8 := 12
def dplStart : UInt8 := 13
def dplEnd : UInt8 := 14
/-- `PRESENT` at its uses: the macro, not the constant 15. -/
def present : UInt8 := (1 : UInt8) <<< 7
def segmentLimitStart1 : UInt8 := 0
def segmentLimitEnd1 : UInt8 := 15
def segmentLimitStart2 : UInt8 := 16
def segmentLimitEnd2 : UInt8 := 19
def avl : UInt8 := 20
/-- `LONG_MODE` at its uses: the macro, not the constant 21. -/
def longMode : UInt8 := (1 : UInt8) <<< 5
def defaultOperationSize : UInt8 := 22
def granularity : UInt8 := 23

/-- Through the bit-field of `SegmentDescriptorModern`. -/
def getType (sd : SegmentDescriptor) : UInt8 := UInt8.ofNat sd.modern.type

/-- A store to the bit-field `type : 4`, at bit 8 of the upper word. -/
def setType (sd : SegmentDescriptor) (type : UInt8) : SegmentDescriptor :=
  { sd with higher := (sd.higher &&& ~~~(0xF00 : UInt32)) ||| ((type.toUInt32 &&& 0xF) <<< 8) }

def getDescriptorTypeS (sd : SegmentDescriptor) : UInt8 :=
  (getBits sd.higher descriptorTypeS descriptorTypeS).toUInt8

def setDescriptorTypeS (sd : SegmentDescriptor) (s : UInt8) : SegmentDescriptor :=
  { sd with higher := setBits sd.higher s.toUInt32 descriptorTypeS descriptorTypeS }

def getPriviledgeDPL (sd : SegmentDescriptor) : UInt8 :=
  (getBits sd.higher dplEnd dplStart).toUInt8

def setPriviledgeDPL (sd : SegmentDescriptor) (dpl : UInt8) : SegmentDescriptor :=
  { sd with higher := setBits sd.higher dpl.toUInt32 dplEnd dplStart }

def getPresent (sd : SegmentDescriptor) : UInt8 := (getBits sd.higher present present).toUInt8

def setPresent (sd : SegmentDescriptor) (presentP : UInt8) : SegmentDescriptor :=
  { sd with higher := setBits sd.higher presentP.toUInt32 present present }

def getSegmentLimit (sd : SegmentDescriptor) : UInt32 :=
  let segmentLimit19to16 := getBits sd.higher segmentLimitEnd2 segmentLimitStart2
  let segmentLimit15to0 := getBits sd.lower segmentLimitEnd1 segmentLimitStart1
  (segmentLimit19to16 <<< 16) ||| segmentLimit15to0

def setSegmentLimit (sd : SegmentDescriptor) (segmentLimit : UInt32) : SegmentDescriptor :=
  let higher19to16 := getBits segmentLimit segmentLimitEnd2 segmentLimitStart2
  let lower15to0 := getBits segmentLimit segmentLimitEnd1 segmentLimitStart1
  { lower := setBits sd.lower lower15to0 segmentLimitEnd1 segmentLimitStart1
    higher := setBits sd.higher higher19to16 segmentLimitEnd2 segmentLimitStart2 }

def getAVL (sd : SegmentDescriptor) : UInt8 := (getBits sd.higher avl avl).toUInt8

def setAVL (sd : SegmentDescriptor) (v : UInt8) : SegmentDescriptor :=
  { sd with higher := setBits sd.higher v.toUInt32 avl avl }

def getLongMode (sd : SegmentDescriptor) : UInt8 := (getBits sd.higher longMode longMode).toUInt8

def setLongMode (sd : SegmentDescriptor) (l : UInt8) : SegmentDescriptor :=
  { sd with higher := setBits sd.higher l.toUInt32 longMode longMode }

def getDefaultOperationSize (sd : SegmentDescriptor) : UInt8 :=
  (getBits sd.higher defaultOperationSize defaultOperationSize).toUInt8

def setDefaultOperationSize (sd : SegmentDescriptor) (dsB : UInt8) : SegmentDescriptor :=
  { sd with higher := setBits sd.higher dsB.toUInt32 defaultOperationSize defaultOperationSize }

def getGranularity (sd : SegmentDescriptor) : UInt8 :=
  (getBits sd.higher granularity granularity).toUInt8

def setGranularity (sd : SegmentDescriptor) (g : UInt8) : SegmentDescriptor :=
  { sd with higher := setBits sd.higher g.toUInt32 granularity granularity }

def getBaseAddress (sd : SegmentDescriptor) : UInt32 :=
  let base0to15 := getBits sd.lower 31 16
  let base16to23 := getBits sd.higher 7 0
  let base24to31 := getBits sd.higher 31 24
  (base0to15 <<< 0) ||| (base16to23 <<< 16) ||| (base24to31 <<< 24)

def setBaseAddress (sd : SegmentDescriptor) (baseAddress : UInt32) : SegmentDescriptor :=
  let higher31to24 := getBits baseAddress 31 24
  let higher7to0 := getBits baseAddress 23 16
  let lower31to16 := getBits baseAddress 15 0
  { lower := setBits sd.lower lower31to16 31 16
    higher := setBits (setBits sd.higher higher7to0 7 0) higher31to24 31 24 }

/-! ## 4. What the helper does, bit by bit -/

/-- The bits `start ..< start + width` that the helper works on. -/
structure Span (endBig startSmall : UInt8) (start width : Nat) : Prop where
  start_eq : startSmall.toNat % 32 = start
  width_eq : (endBig - startSmall + 1).toNat = width
  fits : start + width ≤ 32
  lt : width < 32

section Helper

variable {e s : UInt8} {start width : Nat}

theorem testBit_generateMask (h : Span e s start width) (i : Nat) :
    (generateMask e s).toNat.testBit i = decide (start ≤ i ∧ i < start + width) := by
  have hsmall : ¬ (32 : UInt8) ≤ e - s + 1 := by
    rw [UInt8.le_iff_toNat_le, h.width_eq]
    have := h.lt
    simp only [UInt8.reduceToNat]
    omega
  have hpow : (1 : UInt32) <<< (e - s + 1).toUInt32 = UInt32.ofNat (2 ^ width) := by
    refine UInt32.toNat.inj ?_
    have hlt : 2 ^ width < 2 ^ 32 := Nat.pow_lt_pow_right (by decide) h.lt
    rw [UInt32.toNat_shiftLeft, UInt8.toNat_toUInt32, h.width_eq, Nat.mod_eq_of_lt h.lt,
      UInt32.toNat_ofNat', Nat.shiftLeft_eq, UInt32.toNat_one, Nat.one_mul]
  have hmask : ((1 : UInt32) <<< (e - s + 1).toUInt32 - 1).toNat = 2 ^ width - 1 := by
    have hlt : 2 ^ width < 2 ^ 32 := Nat.pow_lt_pow_right (by decide) h.lt
    have hpos : 0 < 2 ^ width := Nat.two_pow_pos width
    rw [hpow, UInt32.toNat_sub, UInt32.toNat_ofNat', Nat.mod_eq_of_lt hlt, UInt32.toNat_one]
    omega
  have hfits := h.fits
  rw [generateMask, if_neg hsmall, UInt32.toNat_shiftLeft, hmask, UInt8.toNat_toUInt32, h.start_eq,
    Nat.testBit_mod_two_pow, Nat.testBit_shiftLeft, Nat.testBit_two_pow_sub_one]
  rw [Bool.eq_iff_iff]
  simp only [Bool.and_eq_true, decide_eq_true_eq]
  omega

theorem testBit_getBits (h : Span e s start width) (value : UInt32) (i : Nat) :
    (getBits value e s).toNat.testBit i = (decide (i < width) && value.toNat.testBit (start + i)) := by
  rw [getBits, UInt32.toNat_shiftRight, UInt8.toNat_toUInt32, h.start_eq, Nat.testBit_shiftRight,
    UInt32.toNat_and, Nat.testBit_and, testBit_generateMask h, Bool.and_comm]
  congr 1
  rw [decide_eq_decide]
  omega

theorem getBits_lt (h : Span e s start width) (value : UInt32) :
    (getBits value e s).toNat < 2 ^ width := by
  refine Nat.lt_pow_two_of_testBit _ fun i hi => ?_
  rw [testBit_getBits h]
  simp [not_lt.mpr hi]

theorem testBit_of_ge (a : UInt32) {j : Nat} (hj : 32 ≤ j) : a.toNat.testBit j = false :=
  Nat.testBit_lt_two_pow (a.toNat_lt.trans_le (Nat.pow_le_pow_right (by decide) hj))

theorem testBit_not (a : UInt32) {j : Nat} (hj : j < 32) :
    (~~~a).toNat.testBit j = !a.toNat.testBit j := by
  have hnot : (~~~a).toBitVec.getLsbD j = !a.toBitVec.getLsbD j := by
    rw [UInt32.toBitVec_not, BitVec.getLsbD_not]
    simp [hj]
  exact hnot

theorem testBit_setBits (h : Span e s start width) (a v : UInt32) (hv : v.toNat < 2 ^ width)
    (j : Nat) :
    (setBits a v e s).toNat.testBit j =
      if start ≤ j ∧ j < start + width then v.toNat.testBit (j - start)
      else a.toNat.testBit j := by
  have hfits := h.fits
  by_cases hj : j < 32
  · rw [setBits, UInt32.toNat_or, Nat.testBit_or, UInt32.toNat_and, Nat.testBit_and,
      generateAntiMask, testBit_not _ hj, testBit_generateMask h, UInt32.toNat_shiftLeft,
      UInt8.toNat_toUInt32, h.start_eq, Nat.testBit_mod_two_pow, Nat.testBit_shiftLeft]
    have hhigh : width ≤ j - start → v.toNat.testBit (j - start) = false := fun hw =>
      Nat.testBit_lt_two_pow (hv.trans_le (Nat.pow_le_pow_right (by decide) hw))
    split
    · next hin => simp [hin, hj]
    · next hout =>
        by_cases hle : start ≤ j
        · simp [hout, hhigh (by omega)]
        · simp [hle]
  · rw [testBit_of_ge _ (not_lt.mp hj), if_neg (by omega), testBit_of_ge _ (not_lt.mp hj)]

end Helper

theorem testBit_bitField (word : UInt32) (start width i : Nat) :
    (bitField word start width).testBit i
      = (decide (i < width) && word.toNat.testBit (start + i)) := by
  rw [bitField, Nat.testBit_mod_two_pow, Nat.testBit_div_two_pow, Nat.add_comm]


/-! ## 5. The ten fields -/

inductive DescriptorField where
  | type | descriptorTypeS | priviledgeDPL | present | segmentLimit
  | avl | longMode | defaultOperationSize | granularity | baseAddress
  deriving DecidableEq, Repr

namespace DescriptorField

def width : DescriptorField → Nat
  | .type => 4
  | .priviledgeDPL => 2
  | .segmentLimit => 20
  | .baseAddress => 32
  | _ => 1

/-- The getter of a field. -/
def get : DescriptorField → SegmentDescriptor → Nat
  | .type, sd => (getType sd).toNat
  | .descriptorTypeS, sd => (getDescriptorTypeS sd).toNat
  | .priviledgeDPL, sd => (getPriviledgeDPL sd).toNat
  | .present, sd => (getPresent sd).toNat
  | .segmentLimit, sd => (getSegmentLimit sd).toNat
  | .avl, sd => (getAVL sd).toNat
  | .longMode, sd => (getLongMode sd).toNat
  | .defaultOperationSize, sd => (getDefaultOperationSize sd).toNat
  | .granularity, sd => (getGranularity sd).toNat
  | .baseAddress, sd => (getBaseAddress sd).toNat

/-- The setter of a field. -/
def set : DescriptorField → SegmentDescriptor → Nat → SegmentDescriptor
  | .type, sd, v => setType sd (.ofNat v)
  | .descriptorTypeS, sd, v => setDescriptorTypeS sd (.ofNat v)
  | .priviledgeDPL, sd, v => setPriviledgeDPL sd (.ofNat v)
  | .present, sd, v => setPresent sd (.ofNat v)
  | .segmentLimit, sd, v => setSegmentLimit sd (.ofNat v)
  | .avl, sd, v => setAVL sd (.ofNat v)
  | .longMode, sd, v => setLongMode sd (.ofNat v)
  | .defaultOperationSize, sd, v => setDefaultOperationSize sd (.ofNat v)
  | .granularity, sd, v => setGranularity sd (.ofNat v)
  | .baseAddress, sd, v => setBaseAddress sd (.ofNat v)

/-- The field of that name in `SegmentDescriptorModern`. -/
def modern : DescriptorField → SegmentDescriptorModern → Nat
  | .type, m => m.type
  | .descriptorTypeS, m => m.systemNot
  | .priviledgeDPL, m => m.dpl
  | .present, m => m.present
  | .segmentLimit, m => m.limit
  | .avl, m => m.availableCustom
  | .longMode, m => m.longMode
  | .defaultOperationSize, m => m.db
  | .granularity, m => m.granularity
  | .baseAddress, m => m.base

/-- The field of that name in `segment_descriptor_t`. -/
def gdtEntry : DescriptorField → GdtEntry → Nat
  | .type, e => e.type
  | .descriptorTypeS, e => e.s
  | .priviledgeDPL, e => e.dpl
  | .present, e => e.p
  | .segmentLimit, e => e.limit
  | .avl, e => e.avl
  | .longMode, e => e.l
  | .defaultOperationSize, e => e.db
  | .granularity, e => e.g
  | .baseAddress, e => e.base

/-- Where the layouts have a field. -/
def layout : DescriptorField → Place
  | .type => .span 40 4
  | .descriptorTypeS => .span 44 1
  | .priviledgeDPL => .span 45 2
  | .present => .span 47 1
  | .segmentLimit => (Place.span 0 16).append (.span 48 4)
  | .avl => .span 52 1
  | .longMode => .span 53 1
  | .defaultOperationSize => .span 54 1
  | .granularity => .span 55 1
  | .baseAddress => ((Place.span 16 16).append (.span 32 8)).append (.span 56 8)

/-- Where the functions have it. -/
def used : DescriptorField → Place
  | .present => .span 32 1
  | .longMode => .span 32 1
  | f => f.layout

@[simp] theorem layout_width (f : DescriptorField) : f.layout.width = f.width := by cases f <;> rfl

@[simp] theorem used_width (f : DescriptorField) : f.used.width = f.width := by cases f <;> rfl

end DescriptorField

theorem SegmentDescriptor.bit_lower (sd : SegmentDescriptor) {i : Nat} (h : i < 32) :
    sd.bit i = sd.lower.toNat.testBit i := if_pos h

theorem SegmentDescriptor.bit_higher (sd : SegmentDescriptor) (i : Nat) :
    sd.bit (32 + i) = sd.higher.toNat.testBit i := by
  rw [SegmentDescriptor.bit, if_neg (by omega), Nat.add_sub_cancel_left]

section Pieces

variable {e s : UInt8} {start width : Nat}

theorem reads_lower (h : Span e s start width) :
    (Place.span start width).Reads SegmentDescriptor.bit fun sd => (getBits sd.lower e s).toNat := by
  intro sd i
  show (getBits sd.lower e s).toNat.testBit i = (decide (i < width) && sd.bit (start + i))
  rw [testBit_getBits h]
  by_cases hi : i < width
  · have hlow : start + i < 32 := by have := h.fits; omega
    rw [sd.bit_lower hlow]
  · simp [hi]

theorem reads_higher (h : Span e s start width) :
    (Place.span (32 + start) width).Reads SegmentDescriptor.bit
      fun sd => (getBits sd.higher e s).toNat := by
  intro sd i
  show (getBits sd.higher e s).toNat.testBit i = (decide (i < width) && sd.bit (32 + start + i))
  rw [testBit_getBits h, Nat.add_assoc, sd.bit_higher]

theorem toNat_ofNat_of_fits (h : Span e s start width) {v : Nat} (hv : v < 2 ^ width) :
    (UInt32.ofNat v).toNat = v := by
  have hlt : v < 2 ^ 32 := hv.trans (Nat.pow_lt_pow_right (by decide) h.lt)
  rw [UInt32.toNat_ofNat', Nat.mod_eq_of_lt hlt]

theorem writes_lower (h : Span e s start width) :
    (Place.span start width).Writes SegmentDescriptor.bit
      fun sd v => { sd with lower := setBits sd.lower (.ofNat v) e s } := by
  have hfits := h.fits
  constructor
  · intro sd v i hv hi
    have hi' : i < width := hi
    have hval := toNat_ofNat_of_fits h hv
    show SegmentDescriptor.bit _ (start + i) = _
    rw [SegmentDescriptor.bit_lower _ (by omega), testBit_setBits h _ _ (by rwa [hval]),
      if_pos ⟨Nat.le_add_right _ _, Nat.add_lt_add_left hi _⟩, hval, Nat.add_sub_cancel_left]
  · intro sd v j hv hout
    have hval := toNat_ofNat_of_fits h hv
    by_cases hj : j < 32
    · rw [SegmentDescriptor.bit_lower _ hj, SegmentDescriptor.bit_lower _ hj,
        testBit_setBits h _ _ (by rwa [hval]), if_neg]
      intro hin
      have hpos : start + (j - start) = j := by omega
      exact hout (j - start) (show j - start < width by omega) hpos
    · obtain ⟨k, rfl⟩ : ∃ k, j = 32 + k := ⟨j - 32, by omega⟩
      rw [SegmentDescriptor.bit_higher, SegmentDescriptor.bit_higher]

theorem writes_higher (h : Span e s start width) :
    (Place.span (32 + start) width).Writes SegmentDescriptor.bit
      fun sd v => { sd with higher := setBits sd.higher (.ofNat v) e s } := by
  constructor
  · intro sd v i hv hi
    have hval := toNat_ofNat_of_fits h hv
    show SegmentDescriptor.bit _ (32 + start + i) = _
    rw [Nat.add_assoc, SegmentDescriptor.bit_higher, testBit_setBits h _ _ (by rwa [hval]),
      if_pos ⟨Nat.le_add_right _ _, Nat.add_lt_add_left hi _⟩, hval, Nat.add_sub_cancel_left]
  · intro sd v j hv hout
    have hval := toNat_ofNat_of_fits h hv
    by_cases hj : j < 32
    · rw [SegmentDescriptor.bit_lower _ hj, SegmentDescriptor.bit_lower _ hj]
    · obtain ⟨k, rfl⟩ : ∃ k, j = 32 + k := ⟨j - 32, by omega⟩
      rw [SegmentDescriptor.bit_higher, SegmentDescriptor.bit_higher,
        testBit_setBits h _ _ (by rwa [hval]), if_neg]
      intro hin
      have hpos : 32 + start + (k - start) = 32 + k := by omega
      exact hout (k - start) (show k - start < width by omega) hpos

/-- A getter of a `uint8_t` field of the upper word. -/
theorem reads_byte (h : Span e s start width) (hw : width ≤ 8) :
    (Place.span (32 + start) width).Reads SegmentDescriptor.bit
      fun sd => (getBits sd.higher e s).toUInt8.toNat := by
  intro sd i
  have hlt : (getBits sd.higher e s).toNat < 2 ^ 8 :=
    (getBits_lt h _).trans_le (Nat.pow_le_pow_right (by decide) hw)
  show (getBits sd.higher e s).toUInt8.toNat.testBit i = _
  rw [UInt32.toNat_toUInt8, Nat.mod_eq_of_lt hlt]
  exact reads_higher h sd i

/-- A setter of a `uint8_t` field of the upper word. -/
theorem writes_byte (h : Span e s start width) (hw : width ≤ 8) :
    (Place.span (32 + start) width).Writes SegmentDescriptor.bit
      fun sd v => { sd with higher := setBits sd.higher (UInt8.ofNat v).toUInt32 e s } := by
  refine (writes_higher h).congr fun sd v hv => ?_
  have h256 : v < 2 ^ 8 := hv.trans_le (Nat.pow_le_pow_right (by decide) hw)
  have hval : (UInt8.ofNat v).toUInt32 = UInt32.ofNat v := by
    refine UInt32.toNat.inj ?_
    rw [UInt8.toNat_toUInt32, UInt8.toNat_ofNat', Nat.mod_eq_of_lt h256, toNat_ofNat_of_fits h hv]
  rw [hval]

theorem span_bit {k : UInt8} (h : k.toNat % 32 = start) : Span k k start 1 where
  start_eq := h
  width_eq := by rw [UInt8.sub_self]; rfl
  fits := by have := Nat.mod_lt k.toNat (show 0 < 32 by decide); omega
  lt := by decide

/-- The bit-fields of a layout. -/
theorem reads_lower_bitField (h : start + width ≤ 32) :
    (Place.span start width).Reads SegmentDescriptor.bit
      fun sd => bitField sd.lower start width := by
  intro sd i
  show (bitField sd.lower start width).testBit i = (decide (i < width) && sd.bit (start + i))
  rw [testBit_bitField]
  by_cases hi : i < width
  · rw [sd.bit_lower (by omega)]
  · simp [hi]

theorem reads_higher_bitField :
    (Place.span (32 + start) width).Reads SegmentDescriptor.bit
      fun sd => bitField sd.higher start width := by
  intro sd i
  show (bitField sd.higher start width).testBit i = (decide (i < width) && sd.bit (32 + start + i))
  rw [testBit_bitField, Nat.add_assoc, sd.bit_higher]

end Pieces

/-! ## 6. Every function reads or writes its place -/

/-- The three bit-fields of the base, as both layouts have them. -/
theorem reads_bitField_base : DescriptorField.baseAddress.layout.Reads SegmentDescriptor.bit
    fun sd => bitField sd.higher 24 8 <<< 24 ||| bitField sd.higher 0 8 <<< 16
      ||| bitField sd.lower 16 16 := by
  have hlow : (Place.span 16 16).Reads SegmentDescriptor.bit fun sd => bitField sd.lower 16 16 :=
    reads_lower_bitField (by decide)
  have hmid : (Place.span 32 8).Reads SegmentDescriptor.bit fun sd => bitField sd.higher 0 8 :=
    reads_higher_bitField
  have hhigh : (Place.span 56 8).Reads SegmentDescriptor.bit fun sd => bitField sd.higher 24 8 :=
    reads_higher_bitField
  exact ((hlow.append hmid).append hhigh).congr fun sd => Nat.or_assoc _ _ _

theorem reads_modern (f : DescriptorField) :
    f.layout.Reads SegmentDescriptor.bit fun sd => f.modern sd.modern := by
  cases f with
  | segmentLimit => exact (reads_lower_bitField (by decide)).append reads_higher_bitField
  | baseAddress => exact reads_bitField_base
  | _ => exact reads_higher_bitField

theorem reads_gdtEntry (f : DescriptorField) :
    f.layout.Reads SegmentDescriptor.bit fun sd => f.gdtEntry sd.gdtEntry := by
  cases f with
  | segmentLimit => exact (reads_lower_bitField (by decide)).append reads_higher_bitField
  | baseAddress => exact reads_bitField_base
  | _ => exact reads_higher_bitField

theorem span_dpl : Span dplEnd dplStart 13 2 := ⟨rfl, rfl, by decide, by decide⟩

theorem span_limitLow : Span segmentLimitEnd1 segmentLimitStart1 0 16 :=
  ⟨rfl, rfl, by decide, by decide⟩

theorem span_limitHigh : Span segmentLimitEnd2 segmentLimitStart2 16 4 :=
  ⟨rfl, rfl, by decide, by decide⟩

theorem span_baseLow : Span 31 16 16 16 := ⟨rfl, rfl, by decide, by decide⟩

theorem span_baseMiddle : Span 7 0 0 8 := ⟨rfl, rfl, by decide, by decide⟩

theorem span_baseHigh : Span 31 24 24 8 := ⟨rfl, rfl, by decide, by decide⟩

/-- A piece of at most `width` bits is shifted up without loss. -/
theorem toNat_shiftLeft_of_fits {a k : UInt32} {n width : Nat} (hk : k.toNat % 32 = n)
    (ha : a.toNat < 2 ^ width) (hn : width + n ≤ 32) : (a <<< k).toNat = a.toNat <<< n := by
  have hlt : a.toNat <<< n < 2 ^ 32 := by
    calc a.toNat <<< n = a.toNat * 2 ^ n := Nat.shiftLeft_eq _ _
      _ < 2 ^ width * 2 ^ n := Nat.mul_lt_mul_of_pos_right ha (Nat.two_pow_pos n)
      _ = 2 ^ (width + n) := (Nat.pow_add _ _ _).symm
      _ ≤ 2 ^ 32 := Nat.pow_le_pow_right (by decide) hn
  rw [UInt32.toNat_shiftLeft, hk, Nat.mod_eq_of_lt hlt]

theorem reads_getSegmentLimit : DescriptorField.segmentLimit.used.Reads SegmentDescriptor.bit
    fun sd => (getSegmentLimit sd).toNat := by
  refine ((reads_lower span_limitLow).append (reads_higher span_limitHigh)).congr fun sd => ?_
  show (getBits sd.higher segmentLimitEnd2 segmentLimitStart2 <<< 16 |||
    getBits sd.lower segmentLimitEnd1 segmentLimitStart1).toNat = _
  rw [UInt32.toNat_or, toNat_shiftLeft_of_fits rfl (getBits_lt span_limitHigh _) (by decide)]
  rfl

theorem reads_getBaseAddress : DescriptorField.baseAddress.used.Reads SegmentDescriptor.bit
    fun sd => (getBaseAddress sd).toNat := by
  refine (((reads_lower span_baseLow).append (reads_higher span_baseMiddle)).append
    (reads_higher span_baseHigh)).congr fun sd => ?_
  show (getBits sd.lower 31 16 <<< 0 ||| getBits sd.higher 7 0 <<< 16
    ||| getBits sd.higher 31 24 <<< 24).toNat = _
  have hlow : (getBits sd.lower 31 16 <<< 0).toNat = (getBits sd.lower 31 16).toNat :=
    toNat_shiftLeft_of_fits rfl (getBits_lt span_baseLow _) (by decide)
  rw [UInt32.toNat_or, UInt32.toNat_or, hlow,
    toNat_shiftLeft_of_fits rfl (getBits_lt span_baseMiddle _) (by decide),
    toNat_shiftLeft_of_fits rfl (getBits_lt span_baseHigh _) (by decide), Nat.or_comm,
    Nat.or_comm (getBits sd.lower 31 16).toNat]
  rfl

theorem reads_getType : DescriptorField.type.used.Reads SegmentDescriptor.bit
    fun sd => (getType sd).toNat := by
  refine (reads_modern .type).congr fun sd => ?_
  have hlt : sd.modern.type < 2 ^ 8 :=
    (Nat.mod_lt _ (Nat.two_pow_pos 4)).trans_le (by decide)
  rw [getType, UInt8.toNat_ofNat', Nat.mod_eq_of_lt hlt]
  rfl

theorem reads_get (f : DescriptorField) : f.used.Reads SegmentDescriptor.bit f.get := by
  cases f with
  | type => exact reads_getType
  | segmentLimit => exact reads_getSegmentLimit
  | baseAddress => exact reads_getBaseAddress
  | priviledgeDPL => exact reads_byte span_dpl (by decide)
  | _ => exact reads_byte (span_bit rfl) (by decide)

/-- The helper on a value that is being taken apart. -/
theorem getBits_ofNat {e s : UInt8} {start width : Nat} (h : Span e s start width) {v : Nat}
    (hv : v < 2 ^ 32) : getBits (.ofNat v) e s = .ofNat (v / 2 ^ start % 2 ^ width) := by
  refine UInt32.toNat.inj ?_
  have hlt : v / 2 ^ start % 2 ^ width < 2 ^ width := Nat.mod_lt _ (Nat.two_pow_pos _)
  rw [toNat_ofNat_of_fits h hlt]
  refine Nat.eq_of_testBit_eq fun i => ?_
  rw [testBit_getBits h, UInt32.toNat_ofNat', Nat.mod_eq_of_lt hv, Nat.testBit_mod_two_pow,
    Nat.testBit_div_two_pow, Nat.add_comm]

theorem writes_setType : DescriptorField.type.used.Writes SegmentDescriptor.bit
    fun sd v => setType sd (.ofNat v) := by
  have hspan : Span 11 8 8 4 := ⟨rfl, rfl, by decide, by decide⟩
  refine (writes_byte hspan (by decide)).congr fun sd v hv => ?_
  have hfits : (UInt8.ofNat v).toUInt32 &&& 0xF = (UInt8.ofNat v).toUInt32 := by
    refine UInt32.toNat.inj ?_
    have hlt : v < 16 := hv
    rw [UInt32.toNat_and, UInt8.toNat_toUInt32, UInt8.toNat_ofNat']
    exact (Nat.and_two_pow_sub_one_eq_mod _ 4).trans (Nat.mod_eq_of_lt (by omega))
  rw [setType, hfits]
  rfl

theorem writes_setSegmentLimit : DescriptorField.segmentLimit.used.Writes SegmentDescriptor.bit
    fun sd v => setSegmentLimit sd (.ofNat v) := by
  refine ((writes_lower span_limitLow).append (writes_higher span_limitHigh)
    (by decide)).congr fun sd v hv => ?_
  have hlt : v < 2 ^ 20 := hv
  have hdiv : v / 2 ^ 16 % 2 ^ 4 = v / 2 ^ 16 := Nat.mod_eq_of_lt (by omega)
  have hmod : v / 2 ^ 0 % 2 ^ 16 = v % 2 ^ 16 := by rw [Nat.pow_zero, Nat.div_one]
  rw [setSegmentLimit, getBits_ofNat span_limitLow (by omega),
    getBits_ofNat span_limitHigh (by omega), hdiv, hmod]
  rfl

theorem writes_setBaseAddress : DescriptorField.baseAddress.used.Writes SegmentDescriptor.bit
    fun sd v => setBaseAddress sd (.ofNat v) := by
  refine (((writes_lower span_baseLow).append (writes_higher span_baseMiddle) (by decide)).append
    (writes_higher span_baseHigh) (by decide)).congr fun sd v hv => ?_
  have hlt : v < 2 ^ 32 := hv
  have hlow : Span 15 0 0 16 := ⟨rfl, rfl, by decide, by decide⟩
  have hmid : Span 23 16 16 8 := ⟨rfl, rfl, by decide, by decide⟩
  have hhigh : v / 2 ^ 24 % 2 ^ 8 = v / 2 ^ 24 := Nat.mod_eq_of_lt (by omega)
  have hlow16 : v / 2 ^ 0 % 2 ^ 16 = v % 2 ^ 24 % 2 ^ 16 := by omega
  have hmid8 : v / 2 ^ 16 % 2 ^ 8 = v % 2 ^ 24 / 2 ^ 16 := by omega
  rw [setBaseAddress, getBits_ofNat hlow hlt, getBits_ofNat hmid hlt,
    getBits_ofNat span_baseHigh hlt, hhigh, hlow16, hmid8]
  rfl

theorem writes_set (f : DescriptorField) : f.used.Writes SegmentDescriptor.bit f.set := by
  cases f with
  | type => exact writes_setType
  | segmentLimit => exact writes_setSegmentLimit
  | baseAddress => exact writes_setBaseAddress
  | priviledgeDPL => exact writes_byte span_dpl (by decide)
  | descriptorTypeS => exact writes_byte (span_bit (k := descriptorTypeS) rfl) (by decide)
  | present => exact writes_byte (span_bit (k := present) rfl) (by decide)
  | avl => exact writes_byte (span_bit (k := avl) rfl) (by decide)
  | longMode => exact writes_byte (span_bit (k := longMode) rfl) (by decide)
  | defaultOperationSize => exact writes_byte (span_bit (k := defaultOperationSize) rfl) (by decide)
  | granularity => exact writes_byte (span_bit (k := granularity) rfl) (by decide)

/-! ## 7. Independence -/

/-- After a call of the setter of `f` the fields are as independent as their names say. -/
structure FieldIndependent (sd : SegmentDescriptor) (f : DescriptorField) (v : Nat) : Prop where
  matching : f.get (f.set sd v) = v
  others : ∀ g : DescriptorField, g ≠ f → g.get (f.set sd v) = g.get sd
  modern : ∀ g : DescriptorField, g.get (f.set sd v) = g.modern (f.set sd v).modern
  gdtEntry : ∀ g : DescriptorField, g.get (f.set sd v) = g.gdtEntry (f.set sd v).gdtEntry

/-- The value leaves bit 16 of the base as it is, `b`. -/
def DescriptorField.KeepsBit16 (f : DescriptorField) (v : Nat) (b : Bool) : Prop :=
  match f with
  | .present | .longMode => v = b.toNat
  | .baseAddress => v.testBit 16 = b
  | _ => True

/-- Two fields share no bit but bit 16 of the base. -/
theorem shared_eq (f g : DescriptorField) (hne : g ≠ f) :
    ∀ i < g.used.width, ∀ k < f.used.width, f.used.pos k = g.used.pos i → g.used.pos i = 32 := by
  cases f <;> cases g <;> first | exact absurd rfl hne | decide +kernel

/-- No setter writes the bits of the layouts for P and L. -/
theorem used_ne (f : DescriptorField) :
    ∀ k < f.used.width, f.used.pos k ≠ 47 ∧ f.used.pos k ≠ 53 := by
  cases f <;> decide

section Independence

variable {sd : SegmentDescriptor} {f : DescriptorField} {v : Nat}

theorem bit47_set (hv : v < 2 ^ f.width) : (f.set sd v).bit 47 = sd.bit 47 :=
  (writes_set f).outside sd v 47 (by simpa using hv) fun k hk => (used_ne f k hk).1

theorem bit53_set (hv : v < 2 ^ f.width) : (f.set sd v).bit 53 = sd.bit 53 :=
  (writes_set f).outside sd v 53 (by simpa using hv) fun k hk => (used_ne f k hk).2

theorem bit32_of_get_eq {x y : SegmentDescriptor} {g : DescriptorField}
    (hg : g = .present ∨ g = .longMode) (h : g.get x = g.get y) : x.bit 32 = y.bit 32 := by
  have hbit := congrArg (Nat.testBit · 0) h
  rw [reads_get g, reads_get g] at hbit
  rcases hg with rfl | rfl <;> exact hbit

/-- The only bit that a setter shares with other fields. -/
theorem keepsBit16_iff (hv : v < 2 ^ f.width) :
    f.KeepsBit16 v (sd.bit 32) ↔ (f.set sd v).bit 32 = sd.bit 32 := by
  have hfits : v < 2 ^ f.used.width := by simpa using hv
  have hbit : ∀ k < f.used.width, f.used.pos k = 32 → (f.set sd v).bit 32 = v.testBit k :=
    fun k hk hpos => hpos ▸ (writes_set f).inside sd v k hfits hk
  have hone : v < 2 → (v = (sd.bit 32).toNat ↔ v.testBit 0 = sd.bit 32) := by
    intro h2
    have hcases : v = 0 ∨ v = 1 := by omega
    rcases hcases with rfl | rfl <;> cases sd.bit 32 <;> decide
  have hout : (∀ k < f.used.width, f.used.pos k ≠ 32) → (f.set sd v).bit 32 = sd.bit 32 :=
    (writes_set f).outside sd v 32 hfits
  cases f with
  | present => rw [hbit 0 (by decide) (by decide)]; exact hone hv
  | longMode => rw [hbit 0 (by decide) (by decide)]; exact hone hv
  | baseAddress => rw [hbit 16 (by decide) (by decide)]; exact Iff.rfl
  | _ => exact iff_of_true trivial (hout (by decide))

/-- Where P and L are bit 16 of the base, the functions see the fields of the layouts. -/
theorem get_eq_layout {x : SegmentDescriptor} (hP : x.bit 47 = x.bit 32) (hL : x.bit 53 = x.bit 32)
    (g : DescriptorField) {read : SegmentDescriptor → Nat}
    (hread : g.layout.Reads SegmentDescriptor.bit read) : g.get x = read x := by
  refine get_eq_get (reads_get g) hread (by simp) x fun i hi => ?_
  cases g with
  | present =>
      obtain rfl : i = 0 := Nat.lt_one_iff.mp hi
      exact hP.symm
  | longMode =>
      obtain rfl : i = 0 := Nat.lt_one_iff.mp hi
      exact hL.symm
  | _ => rfl

/-- **A call of a setter leaves the fields independent exactly when P and L are bit 16 of the base
and the call keeps that bit.** -/
theorem fieldIndependent_iff (hv : v < 2 ^ f.width) :
    FieldIndependent sd f v ↔
      sd.bit 47 = sd.bit 32 ∧ sd.bit 53 = sd.bit 32 ∧ f.KeepsBit16 v (sd.bit 32) := by
  rw [keepsBit16_iff hv]
  constructor
  · intro h
    have hkeep : (f.set sd v).bit 32 = sd.bit 32 := by
      by_cases hf : f = .present
      · exact bit32_of_get_eq (.inr rfl) (h.others .longMode (by rw [hf]; decide))
      · exact bit32_of_get_eq (.inl rfl) (h.others .present (Ne.symm hf))
    have hP := congrArg (Nat.testBit · 0) (h.modern .present)
    have hL := congrArg (Nat.testBit · 0) (h.modern .longMode)
    rw [reads_get, reads_modern .present] at hP
    rw [reads_get, reads_modern .longMode] at hL
    have hP' : (f.set sd v).bit 32 = (f.set sd v).bit 47 := hP
    have hL' : (f.set sd v).bit 32 = (f.set sd v).bit 53 := hL
    rw [bit47_set hv] at hP'
    rw [bit53_set hv] at hL'
    exact ⟨hP'.symm.trans hkeep, hL'.symm.trans hkeep, hkeep⟩
  · intro h
    obtain ⟨hP, hL, hkeep⟩ := h
    have hfits : v < 2 ^ f.used.width := by simpa using hv
    have hP' : (f.set sd v).bit 47 = (f.set sd v).bit 32 := by rw [bit47_set hv, hP, hkeep]
    have hL' : (f.set sd v).bit 53 = (f.set sd v).bit 32 := by rw [bit53_set hv, hL, hkeep]
    refine ⟨get_set (reads_get f) (writes_set f) sd hfits, fun g hg => ?_,
      fun g => get_eq_layout hP' hL' g (reads_modern g),
      fun g => get_eq_layout hP' hL' g (reads_gdtEntry g)⟩
    refine get_set_of_shared (reads_get g) (writes_set f) sd hfits fun i hi ⟨k, hk, hpos⟩ => ?_
    rw [shared_eq f g hg i hi k hk hpos]
    exact hkeep

end Independence

/-- A descriptor at base 0 that is not present and not of long mode takes a new limit. -/
theorem fieldIndependent_zero :
    (⟨0x0000FFFF, 0x00400200⟩ : SegmentDescriptor).bit 47 = false ∧
      FieldIndependent ⟨0x0000FFFF, 0x00400200⟩ .segmentLimit 0xABCDE :=
  ⟨by decide, (fieldIndependent_iff (by decide)).mpr ⟨by decide, by decide, trivial⟩⟩

/-- `setPresent(&sd, 1)` on a descriptor of zeros moves its base to 0x10000 and leaves P clear. -/
theorem not_fieldIndependent_setPresent :
    ¬ FieldIndependent ⟨0, 0⟩ .present 1 ∧ getBaseAddress (setPresent ⟨0, 0⟩ 1) = 0x10000 ∧
      (setPresent ⟨0, 0⟩ 1).gdtEntry.p = 0 := by
  refine ⟨fun h => ?_, by decide, by decide⟩
  have hbase := h.others .baseAddress (by decide)
  exact absurd hbase (by decide)

end MapleKernel.Cpu
