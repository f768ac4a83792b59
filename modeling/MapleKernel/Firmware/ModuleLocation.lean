/-
  File:      Firmware/ModuleLocation.lean
  Subject:   `get_module_location`: the answer of `find_module`, copied out for C code.

  Two of the copies go wrong. `t.cmd_len = ret.cmd_len` overwrites the length that was found with a
  byte that nobody has assigned, and that byte is also the length of the copy. And `t.mod` is a copy
  of a structure that ends in an array of no elements, so `t.mod.cmdline` is not the command line
  but the stack behind `t`. Whether a module was found (`t.none`) is not looked at.

  * `Leftovers` -- what is on the stack before anything is assigned, a parameter;
  * `getModuleLocation`, `GetModuleLocation` -- from the source;
  * `isModule_iff` -- start and end are right, the rest is if the leftovers happen to be;
  * `getModuleLocation_absent` -- for a module that is not there any value can be returned;
  * `moduleLocation_never` -- so on no block and for no index does it return the module found.
-/
import MapleKernel.Firmware.Multiboot

namespace MapleKernel.Firmware

/-! ## 1. The function -/

/-- `multiboot_module_c`. -/
structure MultibootModuleC where
  modStart : UInt32
  modEnd : UInt32
  cmdLen : UInt8
  cmdline : Fin 100 → UInt8

/-- **The unassigned bytes**: those of `ret`, those of `t.mod` if `find_module` leaves them, and what
    stands behind `t`. -/
structure Leftovers where
  cmdLen : UInt8
  cmdline : Fin 100 → UInt8
  mod : Module
  behindT : Nat → UInt8

/-- The body of `get_module_location` behind the call. -/
def getModuleLocation (t : ModuleAndLen) (left : Leftovers) : MultibootModuleC :=
  let mod := t.mod.getD left.mod
  -- `t.cmd_len = ret.cmd_len`
  let cmdLen : UInt32 := left.cmdLen.toUInt32
  let maxLen : UInt8 := if cmdLen > 100 then 100 else cmdLen.toUInt8
  { modStart := mod.modStart
    modEnd := mod.modEnd
    cmdLen := left.cmdLen
    cmdline := fun i => if i < maxLen.toNat then left.behindT i else left.cmdline i }

/-- `get_module_location(mbi, k)` returns `r`, or `find_module` aborts. -/
def GetModuleLocation (mem : Memory) (mbi : UInt32) (k : UInt8) (left : Leftovers)
    (r : Except String MultibootModuleC) : Prop :=
  ∃ t, FindModule mem mbi k t ∧ r = t.map fun t => getModuleLocation t left

/-! ## 2. What it is to return -/

/-- The tag of module `k`. -/
def moduleTag (mem : Memory) (tags : List UInt32) (k : UInt8) : Option UInt32 :=
  (tags.filter (isModule mem))[k.toNat]?

/-- The length of the command line of a module's tag. -/
def cmdlineLength (mem : Memory) (t : UInt32) : Nat := (tagSize mem t).toNat - 16

/-- **`r` describes the module of tag `t`.** -/
structure IsModule (mem : Memory) (t : UInt32) (r : MultibootModuleC) : Prop where
  modStart : r.modStart = mem.read32 (t + 8)
  modEnd : r.modEnd = mem.read32 (t + 12)
  cmdLen : r.cmdLen.toNat = cmdlineLength mem t
  cmdline : ∀ i : Fin 100, i.val < cmdlineLength mem t → r.cmdline i = mem (t + 16 + .ofNat i)

/-- **The module found is returned**, whatever was on the stack; and an absent module does not look
    found: some results that mean a module do not come out for it. -/
def ReturnsModuleFound (mem : Memory) (mbi : UInt32) (tags : List UInt32) (k : UInt8) : Prop :=
  match moduleTag mem tags k with
  | some t => ∀ left, ∃ r, GetModuleLocation mem mbi k left (.ok r) ∧ IsModule mem t r
  | none => ∃ found : MultibootModuleC → Prop, (∃ r, found r) ∧
      ∀ left r, GetModuleLocation mem mbi k left (.ok r) → ¬ found r

section Location

variable {mem : Memory} {mbi t : UInt32} {tags : List UInt32} {k : UInt8} {left : Leftovers}

theorem WellFormedBlock.getModuleLocation_iff (h : WellFormedBlock mem mbi tags)
    (r : Except String MultibootModuleC) : GetModuleLocation mem mbi k left r ↔
      r = .ok (getModuleLocation (moduleAnswer mem tags k) left) := by
  constructor
  · intro hr
    obtain ⟨t, ht, rfl⟩ := hr
    rw [(h.findModule_iff k t).mp ht]
    rfl
  · rintro rfl
    exact ⟨_, (h.findModule_iff k _).mpr rfl, rfl⟩

theorem moduleAnswer_of_some (ht : moduleTag mem tags k = some t) :
    moduleAnswer mem tags k = moduleAt mem t := by
  rw [moduleTag] at ht
  rw [moduleAnswer, ht]

theorem moduleAnswer_of_none (ht : moduleTag mem tags k = none) :
    moduleAnswer mem tags k = noModule := by
  rw [moduleTag] at ht
  rw [moduleAnswer, ht]

/-- The copy takes the first bytes, a hundred at most. -/
theorem cmdline_getModuleLocation (a : ModuleAndLen) (left : Leftovers) (i : Fin 100) :
    (getModuleLocation a left).cmdline i =
      if i.val < left.cmdLen.toNat then left.behindT i else left.cmdline i := by
  have hlt := i.isLt
  have hlong : left.cmdLen.toUInt32 > 100 ↔ 100 < left.cmdLen.toNat := by
    rw [gt_iff_lt, UInt32.lt_iff_toNat_lt, UInt8.toNat_toUInt32]
    rfl
  rw [getModuleLocation]
  by_cases h : 100 < left.cmdLen.toNat
  · have hhundred : (100 : UInt8).toNat = 100 := rfl
    simp only [hlong.mpr h, if_true, hhundred, hlt]
    rw [if_pos (by omega)]
  · simp only [mt hlong.mp h, if_false]
    rw [UInt8.toUInt8_toUInt32]

/-- **Start and end are the module's; length and command line are if the leftovers happen to be.** -/
theorem isModule_iff : IsModule mem t (getModuleLocation (moduleAt mem t) left) ↔
    left.cmdLen.toNat = cmdlineLength mem t ∧
      ∀ i : Fin 100, i.val < cmdlineLength mem t → left.behindT i = mem (t + 16 + .ofNat i) := by
  constructor
  · intro h
    have hlen : left.cmdLen.toNat = cmdlineLength mem t := h.cmdLen
    refine ⟨hlen, fun i hi => ?_⟩
    have hbyte := h.cmdline i hi
    rwa [cmdline_getModuleLocation, if_pos (by omega)] at hbyte
  · intro h
    obtain ⟨hlen, hbytes⟩ := h
    refine ⟨rfl, rfl, hlen, fun i hi => ?_⟩
    rw [cmdline_getModuleLocation, if_pos (by omega)]
    exact hbytes i hi

/-- **For a module that is not there every value can be returned.** -/
theorem getModuleLocation_absent (r : MultibootModuleC) :
    ∃ left, getModuleLocation noModule left = r := by
  refine ⟨⟨r.cmdLen, r.cmdline, ⟨r.modStart, r.modEnd⟩,
    fun n => if h : n < 100 then r.cmdline ⟨n, h⟩ else 0⟩, ?_⟩
  have hcmdline : ∀ left : Leftovers, left.cmdline = r.cmdline →
      (∀ i : Fin 100, left.behindT i = r.cmdline i) →
      (getModuleLocation noModule left).cmdline = r.cmdline := by
    intro left hkept hcopied
    funext i
    rw [cmdline_getModuleLocation, hkept, hcopied, ite_self]
  have hbytes := hcmdline ⟨r.cmdLen, r.cmdline, ⟨r.modStart, r.modEnd⟩,
    fun n => if h : n < 100 then r.cmdline ⟨n, h⟩ else 0⟩ rfl fun i => dif_pos i.isLt
  obtain ⟨modStart, modEnd, cmdLen, cmdline⟩ := r
  exact congrArg (MultibootModuleC.mk modStart modEnd cmdLen) hbytes

/-- One length on the stack is not the module's. -/
theorem exists_not_isModule (t : UInt32) :
    ∃ left, ¬ IsModule mem t (getModuleLocation (moduleAt mem t) left) := by
  by_cases h0 : cmdlineLength mem t = 0
  · refine ⟨⟨1, fun _ => 0, ⟨0, 0⟩, fun _ => 0⟩, fun h => ?_⟩
    have hlen : 1 = cmdlineLength mem t := h.cmdLen
    omega
  · refine ⟨⟨0, fun _ => 0, ⟨0, 0⟩, fun _ => 0⟩, fun h => ?_⟩
    have hlen : 0 = cmdlineLength mem t := h.cmdLen
    omega

theorem not_returnsModuleFound (h : WellFormedBlock mem mbi tags) :
    ¬ ReturnsModuleFound mem mbi tags k := by
  unfold ReturnsModuleFound
  cases ht : moduleTag mem tags k with
  | some t =>
      intro hall
      obtain ⟨left, hnot⟩ := @exists_not_isModule mem t
      obtain ⟨r, hr, hmodule⟩ := hall left
      rw [h.getModuleLocation_iff, moduleAnswer_of_some ht] at hr
      rw [Except.ok.inj hr] at hmodule
      exact hnot hmodule
  | none =>
      intro hall
      obtain ⟨found, ⟨r, hfound⟩, hnever⟩ := hall
      obtain ⟨left, rfl⟩ := getModuleLocation_absent r
      refine hnever left _ ?_ hfound
      rw [h.getModuleLocation_iff, moduleAnswer_of_none ht]

end Location

/-- **On no block and for no index is the module found returned.** Of a module that is there, start
    and end are right, and the rest exactly if the stack happened to hold it; for one that is not
    there any value can come. -/
theorem moduleLocation_never {mem : Memory} {mbi : UInt32} {tags : List UInt32}
    (h : WellFormedBlock mem mbi tags) (k : UInt8) :
    ¬ ReturnsModuleFound mem mbi tags k
    ∧ (∀ t, moduleTag mem tags k = some t → ∀ left r, GetModuleLocation mem mbi k left (.ok r) →
      r.modStart = mem.read32 (t + 8) ∧ r.modEnd = mem.read32 (t + 12) ∧
      (IsModule mem t r ↔ left.cmdLen.toNat = cmdlineLength mem t ∧
        ∀ i : Fin 100, i.val < cmdlineLength mem t → left.behindT i = mem (t + 16 + .ofNat i)))
    ∧ (moduleTag mem tags k = none →
      ∀ r, ∃ left, GetModuleLocation mem mbi k left (.ok r)) := by
  refine ⟨not_returnsModuleFound h, fun t ht left r hr => ?_, fun ht r => ?_⟩
  · rw [h.getModuleLocation_iff, moduleAnswer_of_some ht] at hr
    rw [Except.ok.inj hr]
    exact ⟨rfl, rfl, isModule_iff⟩
  · obtain ⟨left, rfl⟩ := getModuleLocation_absent r
    refine ⟨left, ?_⟩
    rw [h.getModuleLocation_iff, moduleAnswer_of_none ht]

theorem moduleLocation_never_smallBlock :
    ¬ ReturnsModuleFound smallBlock 0x1000 [0x1008, 0x1018, 0x1048] 0 :=
  (moduleLocation_never smallBlock_wellFormed 0).1

/-- The module of a small block, whose command line is empty: with a 7 on the stack, seven bytes of
    the stack are returned as its command line. -/
theorem moduleLocation_smallBlock :
    (∃ left r, GetModuleLocation smallBlock 0x1000 0 left (.ok r) ∧ r.cmdLen = 7 ∧
      cmdlineLength smallBlock 0x1008 = 0) ∧
    ¬ ∀ (mem : Memory) (mbi : UInt32) (tags : List UInt32) (k : UInt8),
      WellFormedBlock mem mbi tags → ReturnsModuleFound mem mbi tags k := by
  refine ⟨⟨⟨7, fun _ => 0, ⟨0, 0⟩, fun _ => 0x41⟩, _,
    (smallBlock_wellFormed.getModuleLocation_iff _).mpr rfl, rfl, by decide +kernel⟩, fun hall => ?_⟩
  exact not_returnsModuleFound smallBlock_wellFormed (hall _ _ _ 0 smallBlock_wellFormed)

end MapleKernel.Firmware
