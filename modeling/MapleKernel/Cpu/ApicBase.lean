/-
  File:      Cpu/ApicBase.lean
  Subject:   THE BASE ADDRESS OF THE LOCAL APIC in its MSR (`apic.cpp`), an address of a page in a
             field of 20 bits.

  `set_base_address` asserts that the address is aligned, and replaces the field;
  `get_base_address` shifts it back. The mask of the assert is made from twice the size of a page:
  it has bit 12 in it, the low bit of the page index.

  * `ApicMsrEax`, `ApicMsrEdx` -- the halves of the MSR;
  * `setBaseAddress`, `getBaseAddress` -- from the source;
  * `setBaseAddress_of_aligned`, `getBaseAddress_withBase` -- what is stored, and that it is read
    back;
  * `setsBase_iff` -- a page address is accepted, set and returned, with all other bits kept, unless
    it is an odd multiple of the page size.
-/
import MapleKernel.Lib.BitStruct
import MapleKernel.Lib.Program

namespace MapleKernel.Cpu.Apic

open BitStructs Program

/-! ## 1. The register -/

structure ApicMsrEax where
  reserved0 : BitVec 8
  isBootstrapProcessor : BitVec 1
  reserved1 : BitVec 1
  x2apic : BitVec 1
  apicEnable : BitVec 1
  baseLowPageIdx : BitVec 20
  deriving DecidableEq, Repr

structure ApicMsrEdx where
  baseHigh : BitVec 4
  reserved : BitVec 28
  deriving DecidableEq, Repr

def ApicMsrEax.layout : Layout 32 ApicMsrEax where
  widths := [8, 1, 1, 1, 1, 20]
  width_eq := rfl
  members :=
    { toFun := fun r => (r.reserved0, r.isBootstrapProcessor, r.reserved1, r.x2apic, r.apicEnable,
        r.baseLowPageIdx, ())
      invFun := fun f => ⟨f.1, f.2.1, f.2.2.1, f.2.2.2.1, f.2.2.2.2.1, f.2.2.2.2.2.1⟩
      left_inv := fun _ => rfl
      right_inv := fun _ => rfl }

def ApicMsrEdx.layout : Layout 32 ApicMsrEdx where
  widths := [4, 28]
  width_eq := rfl
  members :=
    { toFun := fun r => (r.baseHigh, r.reserved, ())
      invFun := fun f => ⟨f.1, f.2.1⟩
      left_inv := fun _ => rfl
      right_inv := fun _ => rfl }

/-- The MSR `0x1B`, as `rdmsr` and `wrmsr` take it. -/
structure ApicMsr where
  eax : BitVec 32
  edx : BitVec 32
  deriving DecidableEq, Repr

/-- The asserts. -/
inductive ApicBaseHalt where
  | notPageAligned | x2apicEnabled
  deriving DecidableEq, Repr

abbrev ApicBaseProg := Prog Unit ApicMsr ApicBaseHalt

def readApicMsr : ApicBaseProg (ApicMsrEax × ApicMsrEdx) := do
  let msr ← Prog.get
  return (ApicMsrEax.layout.ofRaw msr.eax, ApicMsrEdx.layout.ofRaw msr.edx)

def writeApicMsr (eax : ApicMsrEax) (edx : ApicMsrEdx) : ApicBaseProg Unit :=
  Prog.modify fun _ => ⟨ApicMsrEax.layout.raw eax, ApicMsrEdx.layout.raw edx⟩

/-! ## 2. The functions -/

def getBaseAddress : ApicBaseProg UInt32 := do
  let (eax, _) ← readApicMsr
  Prog.assert (eax.x2apic = 0) .x2apicEnabled
  return UInt32.ofBitVec (eax.baseLowPageIdx.setWidth 32) <<< 12

def fourKb : UInt32 := (1 : UInt32) <<< 12

/-- `page_mask`, with one bit more than a page offset has. -/
def pageMask : UInt32 := (fourKb <<< 1) - 1

def setBaseAddress (baseAddress : UInt32) : ApicBaseProg Unit := do
  Prog.assert (baseAddress &&& pageMask = 0) .notPageAligned
  let (eax, edx) ← readApicMsr
  Prog.assert (eax.x2apic = 0) .x2apicEnabled
  writeApicMsr { eax with baseLowPageIdx := (baseAddress >>> 12).toBitVec.setWidth 20 } edx

section Base

variable (msr : ApicMsr) (base : UInt32)

/-- The x2APIC is disabled. -/
def ApicMsr.X2apicOff : Prop := (ApicMsrEax.layout.ofRaw msr.eax).x2apic = 0

instance : Decidable msr.X2apicOff :=
  inferInstanceAs (Decidable ((ApicMsrEax.layout.ofRaw msr.eax).x2apic = 0))

/-- The MSR after its page index is replaced. -/
def ApicMsr.withBase : ApicMsr where
  eax := ApicMsrEax.layout.raw
    { ApicMsrEax.layout.ofRaw msr.eax with
      baseLowPageIdx := (base >>> 12).toBitVec.setWidth 20 }
  edx := msr.edx

variable {msr base}

theorem readApicMsr_eq :
    readApicMsr () msr =
      (.ok (ApicMsrEax.layout.ofRaw msr.eax, ApicMsrEdx.layout.ofRaw msr.edx), msr) := rfl

theorem setBaseAddress_of_aligned (hx : msr.X2apicOff) (h : base &&& pageMask = 0) :
    setBaseAddress base () msr = (.ok (), msr.withBase base) := by
  have hoff : (ApicMsrEax.layout.ofRaw msr.eax).x2apic = 0 := hx
  rw [setBaseAddress, bind_of_ok (assert_of_pos h), bind_of_ok readApicMsr_eq]
  dsimp only
  rw [bind_of_ok (assert_of_pos hoff)]
  have hedx : ApicMsrEdx.layout.raw (ApicMsrEdx.layout.ofRaw msr.edx) = msr.edx :=
    Layout.raw_ofRaw _ _
  show (Except.ok (), ApicMsr.mk _ _) = _
  rw [hedx]
  rfl

theorem setBaseAddress_of_not_aligned (h : ¬ base &&& pageMask = 0) :
    setBaseAddress base () msr = (.error .notPageAligned, msr) := by
  rw [setBaseAddress]
  simp only [bind, assert_of_neg h]

/-- The assert looks at 13 bits. -/
theorem and_pageMask_eq_zero_iff : base &&& pageMask = 0 ↔ base.toNat % 8192 = 0 := by
  have hmask : pageMask.toNat = 2 ^ 13 - 1 := by decide
  rw [← UInt32.toNat_inj, UInt32.toNat_and, hmask, Nat.and_two_pow_sub_one_eq_mod]
  rfl

theorem getBaseAddress_fst (msr : ApicMsr) :
    (getBaseAddress () msr).1 =
      if (ApicMsrEax.layout.ofRaw msr.eax).x2apic = 0 then
        .ok (UInt32.ofBitVec ((ApicMsrEax.layout.ofRaw msr.eax).baseLowPageIdx.setWidth 32) <<< 12)
      else .error .x2apicEnabled := by
  rw [getBaseAddress, bind_of_ok readApicMsr_eq]
  dsimp only
  split
  · rename_i hoff
    rw [bind_of_ok (assert_of_pos hoff)]
    rfl
  · rename_i hon
    simp only [bind, assert_of_neg hon]

/-- A page address is its index, shifted back. -/
theorem ofBitVec_pageIdx (h : base.toNat % 4096 = 0) :
    UInt32.ofBitVec (((base >>> 12).toBitVec.setWidth 20).setWidth 32) <<< 12 = base := by
  have hlt := base.toNat_lt
  rw [← UInt32.toNat_inj, UInt32.toNat_shiftLeft, UInt32.toNat_ofBitVec, BitVec.toNat_setWidth,
    BitVec.toNat_setWidth, UInt32.toNat_toBitVec, UInt32.toNat_shiftRight]
  show ((base.toNat >>> 12 % 2 ^ 20) % 2 ^ 32) <<< 12 % 2 ^ 32 = base.toNat
  rw [Nat.shiftRight_eq_div_pow, Nat.shiftLeft_eq]
  omega

/-- **What is set is returned**, of a page address. -/
theorem getBaseAddress_withBase (hx : msr.X2apicOff) (h : base.toNat % 4096 = 0) :
    (getBaseAddress () (msr.withBase base)).1 = .ok base := by
  have heax : ApicMsrEax.layout.ofRaw (msr.withBase base).eax =
      { ApicMsrEax.layout.ofRaw msr.eax with
        baseLowPageIdx := (base >>> 12).toBitVec.setWidth 20 } := Layout.ofRaw_raw _ _
  have hoff : (ApicMsrEax.layout.ofRaw msr.eax).x2apic = 0 := hx
  rw [getBaseAddress_fst, heax, if_pos hoff]
  exact congrArg Except.ok (ofBitVec_pageIdx h)

/-- **The bits below the page index stay as they are.** -/
theorem getLsbD_withBase {i : Nat} (hi : i < 12) :
    (msr.withBase base).eax.getLsbD i = msr.eax.getLsbD i := by
  have hraw : ApicMsrEax.layout.raw (ApicMsrEax.layout.ofRaw msr.eax) = msr.eax :=
    Layout.raw_ofRaw _ _
  rw [← hraw]
  -- the page index is the last field; the five below it are the same
  show (pack _).getLsbD i = (pack _).getLsbD i
  refine getLsbD_pack_of_above _ fun _ => getLsbD_pack_of_above _ fun _ =>
    getLsbD_pack_of_above _ fun _ => getLsbD_pack_of_above _ fun _ =>
    getLsbD_pack_of_above _ fun _ => ?_
  omega

/-- **The base address is set and read back.** The assert accepts the page addresses, each of them
is stored and returned, and the other bits of both halves stay. -/
structure SetsBase (msr : ApicMsr) (base : UInt32) : Prop where
  accepts : (setBaseAddress base () msr).1 ≠ .error .notPageAligned ↔ base.toNat % 4096 = 0
  roundTrip : base.toNat % 4096 = 0 →
    ∃ msr', setBaseAddress base () msr = (.ok (), msr') ∧ (getBaseAddress () msr').1 = .ok base ∧
      (∀ i < 12, msr'.eax.getLsbD i = msr.eax.getLsbD i) ∧ msr'.edx = msr.edx

/-- **The round trip works** unless the address is an odd multiple of the page size. -/
theorem setsBase_iff (hx : msr.X2apicOff) : SetsBase msr base ↔ base.toNat % 8192 ≠ 4096 := by
  constructor
  · intro hsets hodd
    have hmask : ¬ base &&& pageMask = 0 := by
      rw [and_pageMask_eq_zero_iff]
      omega
    refine hsets.accepts.mpr (by omega) ?_
    rw [setBaseAddress_of_not_aligned hmask]
  · intro hodd
    constructor
    · by_cases hmask : base &&& pageMask = 0
      · have hpage := and_pageMask_eq_zero_iff.mp hmask
        refine iff_of_true ?_ (by omega)
        rw [setBaseAddress_of_aligned hx hmask]
        exact nofun
      · rw [setBaseAddress_of_not_aligned hmask]
        rw [and_pageMask_eq_zero_iff] at hmask
        exact iff_of_false (fun h => h rfl) (by omega)
    · intro hpage
      have hmask : base &&& pageMask = 0 := and_pageMask_eq_zero_iff.mpr (by omega)
      exact ⟨msr.withBase base, setBaseAddress_of_aligned hx hmask,
        getBaseAddress_withBase hx hpage, fun _ hi => getLsbD_withBase hi, rfl⟩

/-- The address that the APIC has after a reset. -/
theorem setsBase_iff_reset : SetsBase ⟨0xFEE00900, 0⟩ 0xFEE00000 :=
  (setsBase_iff (by decide)).mpr (by decide)

/-- The page behind it is refused. -/
theorem setsBase_nextPage :
    ApicMsr.X2apicOff ⟨0xFEE00900, 0⟩ ∧
      (setBaseAddress 0xFEE01000 () ⟨0xFEE00900, 0⟩).1 = .error .notPageAligned ∧
      ¬ SetsBase ⟨0xFEE00900, 0⟩ 0xFEE01000 := by
  have herror : (setBaseAddress 0xFEE01000 () ⟨0xFEE00900, 0⟩).1 = .error .notPageAligned := by
    rw [setBaseAddress_of_not_aligned (by decide)]
  exact ⟨by decide, herror, fun h => h.accepts.mpr (by decide) herror⟩

end Base

end MapleKernel.Cpu.Apic
