/-
  File:      Cpu/Cpuid.lean
  Subject:   THE CPUID CACHE of `cpuid.cpp` under every order of calls.

  Five functions answer from three lazily filled globals. `get_cpuid_vendor` and
  `get_cpuid_max_and_vendor` fill the maximum and the vendor from leaf 0; `get_cpuid_max`, which
  the validation of every basic leaf calls, fills the same two from leaf 0x80000000.

  * `cpuidCall` -- the five functions; `executed` is ghost data: the leaves run so far.
  * `CacheInv` -- a global is empty or holds what leaf 0 (leaf 0x80000000 for the extended
    maximum) says; a call that does not meet the cold `get_cpuid_max` keeps it, and is then
    answered by `expected`, which knows the processor and the call only.
  * `cpuid_orderIndependent` -- so two runs that never ask for the maximum before leaf 0 was read
    agree, and on a processor all runs agree exactly when its two leaves do.
-/
import MapleKernel.Lib.Run

namespace MapleKernel.Cpu

open Runs

/-! ## 1. The functions -/

structure CpuidReg where
  eax : BitVec 32
  ebx : BitVec 32
  ecx : BitVec 32
  edx : BitVec 32
  deriving DecidableEq, Repr

/-- `enum class cpuid_error`. -/
inductive CpuidError where
  | none
  | unknownCpuFunction
  | functionDoesntHaveSubleaf
  | cpuidFunctionNotSupportedByHardware
  | cpuidExtendedFunctionNotSupportedByHardware
  deriving DecidableEq, Repr

structure CpuidVerifiedResult where
  regs : CpuidReg
  err : CpuidError
  deriving DecidableEq, Repr

/-- The four bytes of a word in memory. -/
def wordBytes (x : BitVec 32) : List (BitVec 8) :=
  [x.extractLsb' 0 8, x.extractLsb' 8 8, x.extractLsb' 16 8, x.extractLsb' 24 8]

/-- `cpuid_vendor` after it was written from EBX, EDX and ECX of `regs`: its 12 characters. -/
def vendorChars (regs : CpuidReg) : List (BitVec 8) :=
  wordBytes regs.ebx ++ wordBytes regs.edx ++ wordBytes regs.ecx

/-- The string that starts at a character array. -/
def stringOf (chars : List (BitVec 8)) : List (BitVec 8) := chars.takeWhile (· ≠ 0#8)

/-- The globals. `cpuidVendor` holds the characters before the final NUL. -/
structure CpuidState where
  maxCpuidCommand : BitVec 32
  cpuidVendor : List (BitVec 8)
  maxExtendedCpuidCommand : BitVec 32
  executed : List (BitVec 32 × BitVec 32)

def CpuidState.boot : CpuidState := ⟨0, List.replicate 12 0#8, 0, []⟩

/-! ### The members of `enum class CpuidFunction` -/

def basicMaxFunction : BitVec 32 := 0x0
def extendedFeatures7 : BitVec 32 := 0x7
def extendedTopology : BitVec 32 := 0xB
def xsaveFeatures : BitVec 32 := 0xD
def extendedMaxFunction : BitVec 32 := 0x80000000

/-- The functions that take a subleaf. -/
def subleafFunctions : List (BitVec 32) := [extendedFeatures7, extendedTopology, xsaveFeatures]

/-- The functions of the `switch` that take none. -/
def plainFunctions : List (BitVec 32) :=
  [basicMaxFunction, 0x1, 0x2, 0x3, 0x4, 0x5, 0x6, 0x9, 0xA, extendedMaxFunction, 0x80000001,
    0x80000002, 0x80000003, 0x80000004, 0x80000006, 0x80000007, 0x80000008]

/-- The `switch` of `call_cpuid`: the subleaf to run, or the error to return. -/
def rawSubleaf (cpuFunction subleafEcx : BitVec 32) : Except CpuidError (BitVec 32) :=
  if cpuFunction ∈ subleafFunctions then .ok subleafEcx
  else if cpuFunction ∈ plainFunctions then
    if subleafEcx ≠ 0 then .error .functionDoesntHaveSubleaf else .ok 0
  else .error .unknownCpuFunction

/-- `ret.regs` before it is assigned. -/
def zeroRegs : CpuidReg := ⟨0, 0, 0, 0⟩

section Functions

-- `_cpuid`: the processor
variable (leaf : BitVec 32 → BitVec 32 → CpuidReg)

/-- `call_cpuid` after the validation. -/
def runCpuid (cpuFunction subleafEcx : BitVec 32) (s : CpuidState) :
    CpuidVerifiedResult × CpuidState :=
  match rawSubleaf cpuFunction subleafEcx with
  | .error err => (⟨zeroRegs, err⟩, s)
  | .ok raw =>
      (⟨leaf cpuFunction raw, .none⟩, { s with executed := s.executed ++ [(cpuFunction, raw)] })

/-- The maximum and the vendor, written from the registers `regs`. -/
def CpuidState.fill (s : CpuidState) (regs : CpuidReg) : CpuidState :=
  { s with maxCpuidCommand := regs.eax, cpuidVendor := vendorChars regs }

def getCpuidVendor (s : CpuidState) : List (BitVec 8) × CpuidState :=
  if stringOf s.cpuidVendor ≠ [] then (stringOf s.cpuidVendor, s)
  else
    let (result, s) := runCpuid leaf basicMaxFunction 0 s
    let s := s.fill result.regs
    (stringOf s.cpuidVendor, s)

/-- `get_cpuid_max`. It calls `call_cpuid` with `Extended_MaxFunction`, which is not validated. -/
def getCpuidMax (s : CpuidState) : BitVec 32 × CpuidState :=
  if s.maxCpuidCommand ≠ 0 then (s.maxCpuidCommand, s)
  else
    let (result, s) := runCpuid leaf extendedMaxFunction 0 s
    (result.regs.eax, s.fill result.regs)

def getCpuidMaxAndVendor (s : CpuidState) : (CpuidReg × List (BitVec 8)) × CpuidState :=
  let (result, s) := runCpuid leaf basicMaxFunction 0 s
  let s := s.fill result.regs
  ((result.regs, stringOf s.cpuidVendor), s)

def getCpuidMaxExtended (s : CpuidState) : BitVec 32 × CpuidState :=
  if s.maxExtendedCpuidCommand ≠ 0 then (s.maxExtendedCpuidCommand, s)
  else
    let (result, s) := runCpuid leaf extendedMaxFunction 0 s
    (result.regs.eax, { s with maxExtendedCpuidCommand := result.regs.eax })

def validateCpuidFunction (raw : BitVec 32) (s : CpuidState) : CpuidError × CpuidState :=
  if raw ≤ xsaveFeatures then
    let (maxBasic, s) := getCpuidMax leaf s
    (if raw > maxBasic then .cpuidFunctionNotSupportedByHardware else .none, s)
  else if raw ≥ extendedMaxFunction then
    let (maxExt, s) := getCpuidMaxExtended leaf s
    (if raw > maxExt then .cpuidExtendedFunctionNotSupportedByHardware else .none, s)
  else (.unknownCpuFunction, s)

def callCpuid (cpuFunction subleafEcx : BitVec 32) (s : CpuidState) :
    CpuidVerifiedResult × CpuidState :=
  if cpuFunction ≠ basicMaxFunction ∧ cpuFunction ≠ extendedMaxFunction then
    let (err, s) := validateCpuidFunction leaf cpuFunction s
    if err ≠ .none then (⟨zeroRegs, err⟩, s) else runCpuid leaf cpuFunction subleafEcx s
  else runCpuid leaf cpuFunction subleafEcx s

end Functions

/-- One of the five calls. -/
inductive CpuidCall where
  | getCpuidVendor
  | getCpuidMax
  | getCpuidMaxAndVendor
  | getCpuidMaxExtended
  | callCpuid (cpuFunction subleafEcx : BitVec 32)
  deriving DecidableEq, Repr

/-- What a call returns. -/
inductive CpuidAnswer where
  | vendor (text : List (BitVec 8))
  | number (n : BitVec 32)
  | regsAndVendor (regs : CpuidReg) (text : List (BitVec 8))
  | result (r : CpuidVerifiedResult)
  deriving DecidableEq, Repr

def cpuidCall (leaf : BitVec 32 → BitVec 32 → CpuidReg) (s : CpuidState) :
    CpuidCall → CpuidAnswer × CpuidState
  | .getCpuidVendor => let r := getCpuidVendor leaf s; (.vendor r.1, r.2)
  | .getCpuidMax => let r := getCpuidMax leaf s; (.number r.1, r.2)
  | .getCpuidMaxAndVendor =>
      let r := getCpuidMaxAndVendor leaf s; (.regsAndVendor r.1.1 r.1.2, r.2)
  | .getCpuidMaxExtended => let r := getCpuidMaxExtended leaf s; (.number r.1, r.2)
  | .callCpuid f sub => let r := callCpuid leaf f sub s; (.result r.1, r.2)

def cpuidStep (leaf : BitVec 32 → BitVec 32 → CpuidReg) (s : CpuidState) (c : CpuidCall) :
    CpuidState := (cpuidCall leaf s c).2

/-- The call asks for the maximum basic leaf: `get_cpuid_max`, or a leaf that is validated
    against it. -/
def CpuidCall.NeedsMaxBasic : CpuidCall → Prop
  | .getCpuidMax => True
  | .callCpuid f _ => f ≠ basicMaxFunction ∧ f ≤ xsaveFeatures
  | _ => False

instance (c : CpuidCall) : Decidable c.NeedsMaxBasic := by
  unfold CpuidCall.NeedsMaxBasic
  split <;> infer_instance

/-! ## 2. What is owed to the callers -/

/-- A processor: its leaf 0 has a maximum and a vendor string. -/
structure Processor where
  leaf : BitVec 32 → BitVec 32 → CpuidReg
  max_ne_zero : (leaf basicMaxFunction 0).eax ≠ 0
  vendor_ne_nil : stringOf (vendorChars (leaf basicMaxFunction 0)) ≠ []

namespace Processor

variable (P : Processor)

/-- The maximum basic leaf. -/
def maxBasic : BitVec 32 := (P.leaf basicMaxFunction 0).eax

/-- The vendor string. -/
def vendor : List (BitVec 8) := stringOf (vendorChars (P.leaf basicMaxFunction 0))

/-- The maximum extended leaf. -/
def maxExtended : BitVec 32 := (P.leaf extendedMaxFunction 0).eax

/-- The processor has leaf `f`: a basic one up to its maximum, or an extended one up to its. The
    two leaves that say the maxima are there to be asked. -/
def Supports (f : BitVec 32) : Prop :=
  f = basicMaxFunction ∨ f = extendedMaxFunction ∨
    (f ≤ xsaveFeatures ∧ f ≤ P.maxBasic) ∨ (f ≥ extendedMaxFunction ∧ f ≤ P.maxExtended)

/-- Leaf 0x80000000 says of the maximum and the vendor what leaf 0 says, or names no vendor. -/
def LeavesAgree : Prop :=
  P.maxExtended = P.maxBasic ∧
    (stringOf (vendorChars (P.leaf extendedMaxFunction 0)) = [] ∨
      stringOf (vendorChars (P.leaf extendedMaxFunction 0)) = P.vendor)

/-- The state after the calls `l` from boot. -/
def after (l : List CpuidCall) : CpuidState := run (cpuidStep P.leaf) .boot l

/-- The answer of `c` after the calls `l`. -/
def answer (l : List CpuidCall) (c : CpuidCall) : CpuidAnswer := (cpuidCall P.leaf (P.after l) c).1

/-- What holds of the run `l` and its last call `c`. -/
structure RunLaw (l : List CpuidCall) (c : CpuidCall) : Prop where
  max : c = .getCpuidMax → P.answer l c = .number P.maxBasic
  vendor : c = .getCpuidVendor → P.answer l c = .vendor P.vendor
  executed : ∀ e ∈ (P.after (l ++ [c])).executed, P.Supports e.1

/-- **Caching does not depend on the order of calls**: two runs with the same last call. -/
structure OrderIndependent (l₁ l₂ : List CpuidCall) (c : CpuidCall) : Prop where
  same : P.answer l₁ c = P.answer l₂ c
  first : P.RunLaw l₁ c
  second : P.RunLaw l₂ c

/-- The call does not ask for the maximum basic leaf while there is none in the cache, or it does
    so on a processor whose two leaves agree. -/
def Warm (s : CpuidState) (c : CpuidCall) : Prop :=
  c.NeedsMaxBasic → s.maxCpuidCommand ≠ 0 ∨ P.LeavesAgree

instance : Decidable P.LeavesAgree := inferInstanceAs (Decidable (_ ∧ (_ ∨ _)))

instance (s : CpuidState) (c : CpuidCall) : Decidable (P.Warm s c) :=
  inferInstanceAs (Decidable (_ → _ ∨ _))

/-! ## 3. The answers -/

/-- What the validation of `f` says. -/
def refusal (f : BitVec 32) : CpuidError :=
  if f = basicMaxFunction ∨ f = extendedMaxFunction then .none
  else if f ≤ xsaveFeatures then
    if f > P.maxBasic then .cpuidFunctionNotSupportedByHardware else .none
  else if f ≥ extendedMaxFunction then
    if f > P.maxExtended then .cpuidExtendedFunctionNotSupportedByHardware else .none
  else .unknownCpuFunction

/-- The answer of a call, by the processor alone. -/
def expected : CpuidCall → CpuidAnswer
  | .getCpuidVendor => .vendor P.vendor
  | .getCpuidMax => .number P.maxBasic
  | .getCpuidMaxAndVendor => .regsAndVendor (P.leaf basicMaxFunction 0) P.vendor
  | .getCpuidMaxExtended => .number P.maxExtended
  | .callCpuid f sub => .result
      (if P.refusal f ≠ .none then ⟨zeroRegs, P.refusal f⟩
        else match rawSubleaf f sub with
          | .error err => ⟨zeroRegs, err⟩
          | .ok raw => ⟨P.leaf f raw, .none⟩)

/-- A global is empty or right, and no leaf was run that the processor does not have. -/
structure CacheInv (s : CpuidState) : Prop where
  max : s.maxCpuidCommand = 0 ∨ s.maxCpuidCommand = P.maxBasic
  vendor : stringOf s.cpuidVendor = [] ∨ stringOf s.cpuidVendor = P.vendor
  maxExtended : s.maxExtendedCpuidCommand = 0 ∨ s.maxExtendedCpuidCommand = P.maxExtended
  executed : ∀ e ∈ s.executed, P.Supports e.1

theorem cacheInv_boot : P.CacheInv .boot where
  max := Or.inl rfl
  vendor := Or.inl (by decide)
  maxExtended := Or.inl rfl
  executed _ h := absurd h List.not_mem_nil

theorem runCpuid_basicMax (leaf : BitVec 32 → BitVec 32 → CpuidReg) (s : CpuidState) :
    runCpuid leaf basicMaxFunction 0 s = (⟨leaf basicMaxFunction 0, .none⟩,
      { s with executed := s.executed ++ [(basicMaxFunction, 0)] }) := rfl

theorem runCpuid_extendedMax (leaf : BitVec 32 → BitVec 32 → CpuidReg) (s : CpuidState) :
    runCpuid leaf extendedMaxFunction 0 s = (⟨leaf extendedMaxFunction 0, .none⟩,
      { s with executed := s.executed ++ [(extendedMaxFunction, 0)] }) := rfl

variable {P} {s : CpuidState}

theorem CacheInv.append (h : P.CacheInv s) {f raw : BitVec 32} (hf : P.Supports f) :
    P.CacheInv { s with executed := s.executed ++ [(f, raw)] } where
  max := h.max
  vendor := h.vendor
  maxExtended := h.maxExtended
  executed e he := by
    rcases List.mem_append.mp he with he | he
    · exact h.executed e he
    · obtain rfl := List.mem_singleton.mp he
      exact hf

/-- Filling the maximum and the vendor from leaf 0. -/
theorem CacheInv.fill (h : P.CacheInv s) :
    P.CacheInv (s.fill (P.leaf basicMaxFunction 0)) where
  max := Or.inr rfl
  vendor := Or.inr rfl
  maxExtended := h.maxExtended
  executed := h.executed

/-- Filling them from leaf 0x80000000, where that says the same. -/
theorem CacheInv.fill_extended (h : P.CacheInv s) (hagree : P.LeavesAgree) :
    P.CacheInv (s.fill (P.leaf extendedMaxFunction 0)) where
  max := Or.inr hagree.1
  vendor := hagree.2
  maxExtended := h.maxExtended
  executed := h.executed

theorem getCpuidVendor_spec (h : P.CacheInv s) :
    (getCpuidVendor P.leaf s).1 = P.vendor ∧ P.CacheInv (getCpuidVendor P.leaf s).2 := by
  unfold getCpuidVendor
  by_cases hs : stringOf s.cpuidVendor ≠ []
  · rw [if_pos hs]
    exact ⟨h.vendor.resolve_left hs, h⟩
  · rw [if_neg hs, runCpuid_basicMax]
    exact ⟨rfl, (h.append (Or.inl rfl)).fill⟩

theorem getCpuidMax_spec (h : P.CacheInv s) (hw : s.maxCpuidCommand ≠ 0 ∨ P.LeavesAgree) :
    (getCpuidMax P.leaf s).1 = P.maxBasic ∧ P.CacheInv (getCpuidMax P.leaf s).2 := by
  unfold getCpuidMax
  by_cases hs : s.maxCpuidCommand ≠ 0
  · rw [if_pos hs]
    exact ⟨h.max.resolve_left hs, h⟩
  · have hagree : P.LeavesAgree := hw.resolve_left hs
    rw [if_neg hs, runCpuid_extendedMax]
    exact ⟨hagree.1, (h.append (Or.inr (Or.inl rfl))).fill_extended hagree⟩

theorem getCpuidMaxAndVendor_spec (h : P.CacheInv s) :
    (getCpuidMaxAndVendor P.leaf s).1 = (P.leaf basicMaxFunction 0, P.vendor) ∧
      P.CacheInv (getCpuidMaxAndVendor P.leaf s).2 := by
  unfold getCpuidMaxAndVendor
  rw [runCpuid_basicMax]
  exact ⟨rfl, (h.append (Or.inl rfl)).fill⟩

theorem getCpuidMaxExtended_spec (h : P.CacheInv s) :
    (getCpuidMaxExtended P.leaf s).1 = P.maxExtended ∧
      P.CacheInv (getCpuidMaxExtended P.leaf s).2 := by
  unfold getCpuidMaxExtended
  by_cases hs : s.maxExtendedCpuidCommand ≠ 0
  · rw [if_pos hs]
    exact ⟨h.maxExtended.resolve_left hs, h⟩
  · rw [if_neg hs, runCpuid_extendedMax]
    have hrun := @CacheInv.append P s h extendedMaxFunction 0 (Or.inr (Or.inl rfl))
    exact ⟨rfl, hrun.max, hrun.vendor, Or.inr rfl, hrun.executed⟩

/-- The validation of a leaf other than the two that say the maxima. -/
theorem validateCpuidFunction_spec (h : P.CacheInv s) {f : BitVec 32}
    (hf : f ≠ basicMaxFunction ∧ f ≠ extendedMaxFunction)
    (hw : f ≤ xsaveFeatures → s.maxCpuidCommand ≠ 0 ∨ P.LeavesAgree) :
    (validateCpuidFunction P.leaf f s).1 = P.refusal f ∧
      P.CacheInv (validateCpuidFunction P.leaf f s).2 := by
  have hmax : ¬ (f = basicMaxFunction ∨ f = extendedMaxFunction) := fun h => h.elim hf.1 hf.2
  unfold validateCpuidFunction refusal
  rw [if_neg hmax]
  by_cases hbasic : f ≤ xsaveFeatures
  · obtain ⟨hval, hinv⟩ := getCpuidMax_spec h (hw hbasic)
    rw [if_pos hbasic, if_pos hbasic]
    simp only [hval]
    exact ⟨trivial, hinv⟩
  · rw [if_neg hbasic, if_neg hbasic]
    by_cases hext : f ≥ extendedMaxFunction
    · obtain ⟨hval, hinv⟩ := getCpuidMaxExtended_spec h
      rw [if_pos hext, if_pos hext]
      simp only [hval]
      exact ⟨trivial, hinv⟩
    · rw [if_neg hext, if_neg hext]
      exact ⟨rfl, h⟩

theorem supports_of_refusal {f : BitVec 32} (h : P.refusal f = .none) : P.Supports f := by
  unfold refusal at h
  unfold Supports
  by_cases hmax : f = basicMaxFunction ∨ f = extendedMaxFunction
  · rcases hmax with hf | hf
    · exact Or.inl hf
    · exact Or.inr (Or.inl hf)
  · rw [if_neg hmax] at h
    refine Or.inr (Or.inr ?_)
    by_cases hbasic : f ≤ xsaveFeatures
    · rw [if_pos hbasic] at h
      by_cases hgt : f > P.maxBasic
      · rw [if_pos hgt] at h; cases h
      · exact Or.inl ⟨hbasic, BitVec.not_lt.mp hgt⟩
    · rw [if_neg hbasic] at h
      by_cases hext : f ≥ extendedMaxFunction
      · rw [if_pos hext] at h
        by_cases hgt : f > P.maxExtended
        · rw [if_pos hgt] at h; cases h
        · exact Or.inr ⟨hext, BitVec.not_lt.mp hgt⟩
      · rw [if_neg hext] at h; cases h

/-- Running a leaf that the processor has. -/
theorem runCpuid_spec (h : P.CacheInv s) {f : BitVec 32} (hf : P.refusal f = .none)
    (sub : BitVec 32) :
    CpuidAnswer.result (runCpuid P.leaf f sub s).1 = P.expected (.callCpuid f sub) ∧
      P.CacheInv (runCpuid P.leaf f sub s).2 := by
  rw [runCpuid, expected, if_neg (not_not.mpr hf)]
  cases rawSubleaf f sub with
  | error err => exact ⟨rfl, h⟩
  | ok raw => exact ⟨rfl, h.append (supports_of_refusal hf)⟩

theorem callCpuid_spec (h : P.CacheInv s) {f sub : BitVec 32}
    (hw : P.Warm s (.callCpuid f sub)) :
    CpuidAnswer.result (callCpuid P.leaf f sub s).1 = P.expected (.callCpuid f sub) ∧
      P.CacheInv (callCpuid P.leaf f sub s).2 := by
  unfold callCpuid
  by_cases hf : f ≠ basicMaxFunction ∧ f ≠ extendedMaxFunction
  · obtain ⟨herr, hinv⟩ := validateCpuidFunction_spec h hf fun hbasic => hw ⟨hf.1, hbasic⟩
    rw [if_pos hf]
    simp only [herr]
    by_cases hnone : P.refusal f = .none
    · rw [if_neg (not_not.mpr hnone)]
      exact runCpuid_spec hinv hnone sub
    · rw [if_pos hnone]
      exact ⟨by rw [expected, if_pos hnone], hinv⟩
  · have hmax : f = basicMaxFunction ∨ f = extendedMaxFunction := by
      by_contra hne
      exact hf ⟨fun e => hne (Or.inl e), fun e => hne (Or.inr e)⟩
    rw [if_neg hf]
    exact runCpuid_spec h (if_pos hmax) sub

/-- **A warm call is answered by the processor alone** and keeps the cache right. -/
theorem cpuidCall_spec (h : P.CacheInv s) {c : CpuidCall} (hw : P.Warm s c) :
    (cpuidCall P.leaf s c).1 = P.expected c ∧ P.CacheInv (cpuidCall P.leaf s c).2 := by
  cases c with
  | getCpuidVendor =>
      obtain ⟨hval, hinv⟩ := getCpuidVendor_spec h
      exact ⟨congrArg CpuidAnswer.vendor hval, hinv⟩
  | getCpuidMax =>
      obtain ⟨hval, hinv⟩ := getCpuidMax_spec h (hw trivial)
      exact ⟨congrArg CpuidAnswer.number hval, hinv⟩
  | getCpuidMaxAndVendor =>
      obtain ⟨hval, hinv⟩ := getCpuidMaxAndVendor_spec h
      refine ⟨?_, hinv⟩
      show CpuidAnswer.regsAndVendor (getCpuidMaxAndVendor P.leaf s).1.1
        (getCpuidMaxAndVendor P.leaf s).1.2 = _
      rw [hval]
      rfl
  | getCpuidMaxExtended =>
      obtain ⟨hval, hinv⟩ := getCpuidMaxExtended_spec h
      exact ⟨congrArg CpuidAnswer.number hval, hinv⟩
  | callCpuid f sub => exact callCpuid_spec h hw

/-! ## 4. Runs -/

theorem answer_of_warm {l : List CpuidCall} {c : CpuidCall}
    (hg : Guarded (cpuidStep P.leaf) P.Warm .boot (l ++ [c])) :
    P.answer l c = P.expected c ∧ P.CacheInv (P.after (l ++ [c])) := by
  obtain ⟨hl, hc⟩ := guarded_append.mp hg
  have hstep : ∀ s c, P.CacheInv s → P.Warm s c → P.CacheInv (cpuidStep P.leaf s c) :=
    fun _ _ h hw => (cpuidCall_spec h hw).2
  have hinv : P.CacheInv (P.after l) := (along_of_guarded hstep P.cacheInv_boot hl).final
  obtain ⟨hanswer, hafter⟩ := cpuidCall_spec hinv hc.1
  rw [after, run_append]
  exact ⟨hanswer, hafter⟩

theorem runLaw_of_warm {l : List CpuidCall} {c : CpuidCall}
    (hg : Guarded (cpuidStep P.leaf) P.Warm .boot (l ++ [c])) : P.RunLaw l c := by
  obtain ⟨hanswer, hinv⟩ := answer_of_warm hg
  refine ⟨fun hc => ?_, fun hc => ?_, hinv.executed⟩
  · subst hc
    exact hanswer
  · subst hc
    exact hanswer

theorem orderIndependent_of_warm {l₁ l₂ : List CpuidCall} {c : CpuidCall}
    (h₁ : Guarded (cpuidStep P.leaf) P.Warm .boot (l₁ ++ [c]))
    (h₂ : Guarded (cpuidStep P.leaf) P.Warm .boot (l₂ ++ [c])) : P.OrderIndependent l₁ l₂ c where
  same := (answer_of_warm h₁).1.trans (answer_of_warm h₂).1.symm
  first := runLaw_of_warm h₁
  second := runLaw_of_warm h₂

/-- The cold `get_cpuid_max` answers from leaf 0x80000000, and so does `get_cpuid_vendor` after
    it. -/
theorem leavesAgree_of_law (h : ∀ l c, P.RunLaw l c) : P.LeavesAgree := by
  have hmax : P.answer [] .getCpuidMax = .number P.maxBasic := (h [] .getCpuidMax).max rfl
  have hcold : P.answer [] .getCpuidMax = .number P.maxExtended := rfl
  refine ⟨CpuidAnswer.number.inj (hcold.symm.trans hmax), ?_⟩
  by_cases hnil : stringOf (vendorChars (P.leaf extendedMaxFunction 0)) = []
  · exact Or.inl hnil
  · right
    have hvendor := (h [.getCpuidMax] .getCpuidVendor).vendor rfl
    have hheld : (P.after [.getCpuidMax]).cpuidVendor
        = vendorChars (P.leaf extendedMaxFunction 0) := rfl
    have hstale : P.answer [.getCpuidMax] .getCpuidVendor
        = .vendor (stringOf (vendorChars (P.leaf extendedMaxFunction 0))) := by
      show CpuidAnswer.vendor (getCpuidVendor P.leaf (P.after [.getCpuidMax])).1 = _
      rw [getCpuidVendor, hheld, if_pos hnil]
    exact CpuidAnswer.vendor.inj (hstale.symm.trans hvendor)

/-- **The answers do not depend on the order of the calls** in runs that never ask for the maximum
    basic leaf before the cache holds it; and they depend on it in no run of a processor exactly
    when its leaf 0x80000000 says what its leaf 0 says. -/
theorem cpuid_orderIndependent (P : Processor) :
    (∀ l₁ l₂ c, Guarded (cpuidStep P.leaf) P.Warm .boot (l₁ ++ [c]) →
      Guarded (cpuidStep P.leaf) P.Warm .boot (l₂ ++ [c]) → P.OrderIndependent l₁ l₂ c) ∧
    ((∀ l₁ l₂ c, P.OrderIndependent l₁ l₂ c) ↔ P.LeavesAgree) := by
  refine ⟨fun l₁ l₂ c h₁ h₂ => orderIndependent_of_warm h₁ h₂, fun h => ?_, fun h l₁ l₂ c => ?_⟩
  · exact leavesAgree_of_law fun l c => (h l l c).first
  · have hwarm : ∀ l, Guarded (cpuidStep P.leaf) P.Warm .boot l :=
      guarded_of_forall (fun _ _ _ => Or.inr h) CpuidState.boot
    exact orderIndependent_of_warm (hwarm _) (hwarm _)

end Processor

/-- A processor with 0x16 basic and 8 extended leaves, whose leaf 0x80000000 names no vendor. -/
def genuineIntel : Processor where
  leaf f _ :=
    if f = basicMaxFunction then ⟨0x16, 0x756E6547, 0x6C65746E, 0x49656E69⟩
    else if f = extendedMaxFunction then ⟨0x80000008, 0, 0, 0⟩
    else zeroRegs
  max_ne_zero := by decide
  vendor_ne_nil := by decide

/-- Its basic leaves are asked for behind `get_cpuid_vendor` in one run and behind
    `get_cpuid_max_and_vendor` in the other. -/
theorem cpuid_orderIndependent_intel :
    genuineIntel.OrderIndependent [.getCpuidVendor, .callCpuid 1 0]
      [.getCpuidMaxExtended, .getCpuidMaxAndVendor] .getCpuidMax :=
  (Processor.cpuid_orderIndependent genuineIntel).1 _ _ _ (by decide) (by decide)

/-- `get_cpuid_max` as the first call returns 0x80000008, and 0x16 after `get_cpuid_vendor`. -/
theorem not_orderIndependent_coldMax :
    ¬ ∀ l₁ l₂ c, genuineIntel.OrderIndependent l₁ l₂ c := by
  intro h
  exact absurd (h [] [.getCpuidVendor] .getCpuidMax).same (by decide)

end MapleKernel.Cpu
