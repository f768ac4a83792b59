/-
  File:      Drivers/KeyboardMask.lean
  Subject:   THE KEYBOARD'S INTERRUPT LINE (`pic.c`, `ps2_keyboard.c`): what `disable_keyboard` and
             `enable_keyboard` do to the masks of the two interrupt controllers and to the IDT.

  The masks are two bytes, one for each controller. `World` holds the set of the masked lines; the
  two functions of `pic.c` are shown to be the updates of that set. `disable_keyboard` and
  `enable_keyboard` hand them the number of the port, not the keyboard's line.

  * `PicMasks` -- the two bytes, `masked_irqSetMask` and `masked_irqClearMask` the refinement;
  * `disableKeyboard_run`, `enableKeyboard_run` -- all that the two functions change;
  * `keyboardInterrupt_iff` -- they touch the keyboard's interrupt, and no other, exactly when the
    keyboard is on port one and its vector was set up.
-/
import MapleKernel.Drivers.KeyboardRetry

namespace MapleKernel.Drivers

open Program

/-! ## 1. The mask bytes -/

/-- The data ports of the two interrupt controllers: sixteen mask bits. -/
structure PicMasks where
  pic1Data : UInt8
  pic2Data : UInt8
  deriving DecidableEq, Repr

namespace PicMasks

/-- The choice of the controller in `IRQ_set_mask` and `IRQ_clear_mask`. -/
def write (value : UInt8 → UInt8 → UInt8) (m : PicMasks) (irqLine : UInt8) : PicMasks :=
  if irqLine < 8 then { m with pic1Data := value m.pic1Data irqLine }
  else { m with pic2Data := value m.pic2Data (irqLine - 8) }

/-- `inb(port) | (1 << IRQline)`, an `int` stored in a byte. -/
def setBit (inb irqLine : UInt8) : UInt8 := (inb.toUInt32 ||| (1 <<< irqLine.toUInt32)).toUInt8

/-- `inb(port) & ~(1 << IRQline)`. -/
def clearBit (inb irqLine : UInt8) : UInt8 :=
  (inb.toUInt32 &&& ~~~(1 <<< irqLine.toUInt32)).toUInt8

def irqSetMask : PicMasks → UInt8 → PicMasks := write setBit

def irqClearMask : PicMasks → UInt8 → PicMasks := write clearBit

/-- The mask bit of a line. -/
def masked (m : PicMasks) (irqLine : UInt8) : Bool :=
  if irqLine < 8 then m.pic1Data.toNat.testBit irqLine.toNat
  else m.pic2Data.toNat.testBit (irqLine.toNat - 8)

end PicMasks

section Bits

variable {inb i : UInt8}

theorem testBit_toNat (x : UInt8) (j : Nat) : x.toNat.testBit j = x.toBitVec.getLsbD j := by
  rw [← UInt8.toNat_toBitVec, BitVec.testBit_toNat]

theorem getLsbD_one_shiftLeft (hi : i < 8) (j : Nat) :
    ((1 : UInt32) <<< i.toUInt32).toBitVec.getLsbD j = decide (i.toNat = j) := by
  have hi' : i.toNat < 8 := hi
  have hpow : 2 ^ i.toNat < 2 ^ 32 := Nat.pow_lt_pow_right (by decide) (by omega)
  rw [← BitVec.testBit_toNat, UInt32.toNat_toBitVec, UInt32.toNat_shiftLeft,
    UInt8.toNat_toUInt32, Nat.mod_eq_of_lt (by omega : i.toNat < 32), UInt32.toNat_one,
    Nat.one_shiftLeft, Nat.mod_eq_of_lt hpow, Nat.testBit_two_pow]

/-- **The byte that is written has the line's bit set** and the other bits of the byte read. -/
theorem testBit_setBit (hi : i < 8) (j : Nat) :
    (PicMasks.setBit inb i).toNat.testBit j = (decide (i.toNat = j) || inb.toNat.testBit j) := by
  have hi' : i.toNat < 8 := hi
  rw [PicMasks.setBit, testBit_toNat, testBit_toNat, UInt32.toBitVec_toUInt8,
    BitVec.getLsbD_setWidth, UInt32.toBitVec_or, BitVec.getLsbD_or, getLsbD_one_shiftLeft hi,
    UInt8.toBitVec_toUInt32, BitVec.getLsbD_setWidth, Bool.or_comm]
  by_cases hj : j < 8
  · simp [hj, show j < 32 by omega]
  · rw [BitVec.getLsbD_of_ge _ _ (by omega : 8 ≤ j)]
    simp [hj, show i.toNat ≠ j by omega]

/-- **The byte that is written has the line's bit clear** and the other bits of the byte read. -/
theorem testBit_clearBit (hi : i < 8) (j : Nat) :
    (PicMasks.clearBit inb i).toNat.testBit j = (!decide (i.toNat = j) && inb.toNat.testBit j) := by
  rw [PicMasks.clearBit, testBit_toNat, testBit_toNat, UInt32.toBitVec_toUInt8,
    BitVec.getLsbD_setWidth, UInt32.toBitVec_and, BitVec.getLsbD_and, UInt32.toBitVec_not,
    BitVec.getLsbD_not, getLsbD_one_shiftLeft hi, UInt8.toBitVec_toUInt32,
    BitVec.getLsbD_setWidth]
  by_cases hj : j < 8
  · simp [hj, show j < 32 by omega, Bool.and_comm]
  · rw [BitVec.getLsbD_of_ge _ _ (by omega : 8 ≤ j)]
    simp [hj]

end Bits

section Masked

variable {value : UInt8 → UInt8 → UInt8}

/-- A byte that changes one bit changes the mask bit of one line. -/
theorem masked_write {b : Bool} (hvalue : ∀ {inb i : UInt8}, i < 8 → ∀ j,
      (value inb i).toNat.testBit j = if i.toNat = j then b else inb.toNat.testBit j)
    (m : PicMasks) {irqLine : UInt8} (h : irqLine < 16) :
    (PicMasks.write value m irqLine).masked = Function.update m.masked irqLine b := by
  have h' : irqLine.toNat < 16 := h
  funext irq
  rw [Function.update_apply, if_congr (UInt8.toNat_inj (a := irq) (b := irqLine)).symm rfl rfl]
  by_cases hlow : irqLine < 8
  · have hlow' : irqLine.toNat < 8 := hlow
    rw [PicMasks.write, if_pos hlow, PicMasks.masked, PicMasks.masked]
    by_cases hirq : irq < 8
    · rw [if_pos hirq, if_pos hirq, hvalue hlow]
      simp only [eq_comm]
    · have hirq' : ¬ irq.toNat < 8 := hirq
      rw [if_neg hirq, if_neg hirq, if_neg (by omega)]
  · have hlow' : ¬ irqLine.toNat < 8 := hlow
    have hsub : (irqLine - 8).toNat = irqLine.toNat - 8 :=
      UInt8.toNat_sub_of_le _ _ (UInt8.not_lt.mp hlow)
    have hlow8 : irqLine - 8 < 8 := by
      rw [UInt8.lt_iff_toNat_lt, hsub]
      exact Nat.sub_lt_left_of_lt_add (Nat.le_of_not_lt hlow') h'
    rw [PicMasks.write, if_neg hlow, PicMasks.masked, PicMasks.masked]
    by_cases hirq : irq < 8
    · have hirq' : irq.toNat < 8 := hirq
      rw [if_pos hirq, if_pos hirq, if_neg (by omega)]
    · have hirq' : ¬ irq.toNat < 8 := hirq
      rw [if_neg hirq, if_neg hirq, hvalue hlow8, hsub]
      exact if_congr (by omega) rfl rfl

/-- **`IRQ_set_mask` masks its line and no other.** -/
theorem masked_irqSetMask (m : PicMasks) {irqLine : UInt8} (h : irqLine < 16) :
    (m.irqSetMask irqLine).masked = Function.update m.masked irqLine true := by
  refine masked_write (fun hi j => ?_) m h
  rw [testBit_setBit hi]
  split <;> simp [*]

/-- **`IRQ_clear_mask` unmasks its line and no other.** -/
theorem masked_irqClearMask (m : PicMasks) {irqLine : UInt8} (h : irqLine < 16) :
    (m.irqClearMask irqLine).masked = Function.update m.masked irqLine false := by
  refine masked_write (fun hi j => ?_) m h
  rw [testBit_clearBit hi]
  split <;> simp [*]

end Masked

/-! ## 2. What the two functions change -/

/-- The globals after `disable_keyboard`: the line that has the number of the port is masked. -/
def World.keyboardDisabled (w : World) (io : Ps2Io) : World :=
  { w with
    io
    irqMask := Function.update w.irqMask w.kps.activePort true
    idt := Function.update w.idt w.kps.activeInterruptVector
      { w.idt w.kps.activeInterruptVector with present := false } }

/-- The globals after `enable_keyboard`. -/
def World.keyboardEnabled (w : World) (io : Ps2Io) : World :=
  { w with
    io
    irqMask := Function.update w.irqMask w.kps.activePort false
    idt := Function.update w.idt w.kps.activeInterruptVector
      { w.idt w.kps.activeInterruptVector with present := true } }

section Changes

variable {e : Ps2Env} {w : World}

/-- The scanning commands change the traffic only. -/
theorem enableScanning_run (e : Ps2Env) (w : World) :
    ∃ err io', enableScanning e w = (.ok err, { w with io := io' }) := by
  obtain ⟨os, w', hrun, ht, -⟩ :=
    sendDataToPs2Keyboard_transmission KeyboardCommandByte.enableScanning.value e w
  refine ⟨(resultOf os).err, w'.io, ?_⟩
  rw [enableScanning, sendCommandToPs2Keyboard_eq, bind_of_ok hrun, ← ht.frame]
  rfl

/-- `disable_keyboard` ends as the scanning command does, which `disable_scanning` sends too. -/
theorem disableKeyboard_of_scanning {err : KeyboardError} {w' : World}
    (h : enableScanning e (w.keyboardDisabled w.io) = (.ok err, w')) :
    disableKeyboard e w = (.ok (), w') := by
  have hscan : ∀ w₁, enableScanning e w₁ = (.ok err, w') →
      (do let _ ← disableScanning) e w₁ = (.ok (), w') := by
    intro w₁ h₁
    rw [disableScanning, ← enableScanning, bind_of_ok h₁]
    rfl
  exact hscan _ h

/-- **`disable_keyboard` masks the line with the number of the port** and clears the present bit of
    the keyboard's descriptor. -/
theorem disableKeyboard_run (e : Ps2Env) (w : World) :
    ∃ io', disableKeyboard e w = (.ok (), w.keyboardDisabled io') := by
  obtain ⟨err, io', hrun⟩ := enableScanning_run e (w.keyboardDisabled w.io)
  exact ⟨io', disableKeyboard_of_scanning hrun⟩

/-- **`enable_keyboard` unmasks that line** and sets the present bit, where the vector was set
    up. -/
theorem enableKeyboard_run (hvec : w.vectors w.kps.activeInterruptVector = true) :
    ∃ io', enableKeyboard e w = (.ok (), w.keyboardEnabled io') := by
  obtain ⟨err, io', hrun⟩ := enableScanning_run e w
  refine ⟨io', ?_⟩
  rw [enableKeyboard, bind_of_ok hrun]
  simp only [bind, Prog.get, enableIdtEntry, Prog.assert, hvec, ↓reduceIte, pure, Prog.modify,
    irqClearMask, World.keyboardEnabled]

/-- Elsewhere `enable_idt_entry` stops the kernel. -/
theorem enableKeyboard_halts (hvec : w.vectors w.kps.activeInterruptVector = false) :
    (enableKeyboard e w).1 = .error .entryNeverEnabled := by
  obtain ⟨err, io', hrun⟩ := enableScanning_run e w
  rw [enableKeyboard, bind_of_ok hrun]
  simp [bind, Prog.get, enableIdtEntry, Prog.assert, hvec, Prog.halt]

end Changes

/-! ## 3. The keyboard's interrupt, and no other -/

/-- The mask bit of one line becomes `b`, the others stay. -/
def PicMasks.OnlyLine (m m' : PicMasks) (irqLine : UInt8) (b : Bool) : Prop :=
  ∀ irq < 16, m'.masked irq = if irq = irqLine then b else m.masked irq

/-- The present bit of one descriptor becomes `b`, the rest of the table stays. -/
def OnlyPresent (idt idt' : UInt8 → IdtEntry) (vector : UInt8) (b : Bool) : Prop :=
  ∀ v, idt' v = if v = vector then { idt v with present := b } else idt v

/-- `disable_keyboard` led from `w` and the masks `m` to `w₁` and `m₁`, `enable_keyboard` from there
    to `w₂` and `m₂`: **only the keyboard's interrupt was touched**. -/
structure KeyboardInterruptOnly (w : World) (m : PicMasks) (w₁ : World) (m₁ : PicMasks)
    (w₂ : World) (m₂ : PicMasks) : Prop where
  disabledLine : m.OnlyLine m₁ w.kps.activeIrq true
  disabledEntry : OnlyPresent w.idt w₁.idt w.kps.activeInterruptVector false
  enabledLine : m₁.OnlyLine m₂ w.kps.activeIrq false
  enabledEntry : OnlyPresent w₁.idt w₂.idt w.kps.activeInterruptVector true
  otherLines : ∀ irq < 16, irq ≠ w.kps.activeIrq → m₂.masked irq = m.masked irq
  otherEntries : ∀ v ≠ w.kps.activeInterruptVector, w₂.idt v = w.idt v
  restored : (w.idt w.kps.activeInterruptVector).present = true → w₂.idt = w.idt

/-- The two functions return, one after the other, and touch the keyboard's interrupt only. -/
def KeyboardInterruptOk (e : Ps2Env) (w : World) (m : PicMasks) : Prop :=
  ∃ w₁ m₁ w₂ m₂, disableKeyboard e w = (.ok (), w₁) ∧ w₁.irqMask = PicMasks.masked m₁ ∧
    enableKeyboard e w₁ = (.ok (), w₂) ∧ w₂.irqMask = PicMasks.masked m₂ ∧
    KeyboardInterruptOnly w m w₁ m₁ w₂ m₂

section Interrupt

variable {e : Ps2Env} {w : World} {m : PicMasks}

theorem onlyLine_irqSetMask {irqLine : UInt8} (h : irqLine < 16) :
    m.OnlyLine (m.irqSetMask irqLine) irqLine true := by
  intro irq _
  rw [masked_irqSetMask m h, Function.update_apply]

theorem onlyLine_irqClearMask {irqLine : UInt8} (h : irqLine < 16) :
    m.OnlyLine (m.irqClearMask irqLine) irqLine false := by
  intro irq _
  rw [masked_irqClearMask m h, Function.update_apply]

theorem onlyPresent_update (idt : UInt8 → IdtEntry) (vector : UInt8) (b : Bool) :
    OnlyPresent idt (Function.update idt vector { idt vector with present := b }) vector b := by
  intro v
  rw [Function.update_apply]
  by_cases hv : v = vector
  · rw [if_pos hv, if_pos hv, hv]
  · rw [if_neg hv, if_neg hv]

/-- Steps that touch one line and one descriptor leave all others as they were. -/
theorem keyboardInterruptOnly_of_steps {w₁ w₂ : World} {m₁ m₂ : PicMasks}
    (hline₁ : m.OnlyLine m₁ w.kps.activeIrq true)
    (hentry₁ : OnlyPresent w.idt w₁.idt w.kps.activeInterruptVector false)
    (hline₂ : m₁.OnlyLine m₂ w.kps.activeIrq false)
    (hentry₂ : OnlyPresent w₁.idt w₂.idt w.kps.activeInterruptVector true) :
    KeyboardInterruptOnly w m w₁ m₁ w₂ m₂ := by
  refine ⟨hline₁, hentry₁, hline₂, hentry₂, fun irq hirq hne => ?_, fun v hne => ?_,
    fun hpresent => funext fun v => ?_⟩
  · rw [hline₂ irq hirq, if_neg hne, hline₁ irq hirq, if_neg hne]
  · rw [hentry₂ v, if_neg hne, hentry₁ v, if_neg hne]
  · rw [hentry₂ v, hentry₁ v]
    by_cases hv : v = w.kps.activeInterruptVector
    · rw [if_pos hv, if_pos hv, hv, ← hpresent]
    · rw [if_neg hv, if_neg hv]

/-- **Where the port has the number of the line, the keyboard's interrupt alone is touched.** -/
theorem keyboardInterruptOk_of_port (hm : w.irqMask = m.masked)
    (hport : w.kps.activePort = w.kps.activeIrq) (h16 : w.kps.activeIrq < 16)
    (hvec : w.vectors w.kps.activeInterruptVector = true) : KeyboardInterruptOk e w m := by
  obtain ⟨io₁, hrun₁⟩ := disableKeyboard_run e w
  obtain ⟨io₂, hrun₂⟩ := @enableKeyboard_run e (w.keyboardDisabled io₁) hvec
  have hmask₁ : (w.keyboardDisabled io₁).irqMask = (m.irqSetMask w.kps.activeIrq).masked := by
    rw [masked_irqSetMask m h16, ← hm, ← hport]
    rfl
  refine ⟨_, m.irqSetMask w.kps.activeIrq, _,
    (m.irqSetMask w.kps.activeIrq).irqClearMask w.kps.activeIrq, hrun₁, hmask₁, hrun₂, ?_, ?_⟩
  · rw [masked_irqClearMask _ h16, ← hmask₁, ← hport]
    rfl
  · exact keyboardInterruptOnly_of_steps (onlyLine_irqSetMask h16) (onlyPresent_update _ _ _)
      (onlyLine_irqClearMask h16) (onlyPresent_update _ _ _)

/-- Without its vector set up, `enable_keyboard` does not return. -/
theorem not_keyboardInterruptOk_of_vector
    (hvec : w.vectors w.kps.activeInterruptVector = false) : ¬ KeyboardInterruptOk e w m := by
  intro h
  obtain ⟨w₁, m₁, w₂, m₂, hrun₁, -, hrun₂, -⟩ := h
  obtain ⟨io₁, hd⟩ := disableKeyboard_run e w
  rw [hrun₁] at hd
  obtain rfl := (Prod.mk.inj hd).2
  have hhalt := @enableKeyboard_halts e (w.keyboardDisabled io₁) hvec
  rw [hrun₂] at hhalt
  cases hhalt

/-- **Where it has not, the keyboard's line stays masked.** -/
theorem not_keyboardInterruptOk_of_port (hport : w.kps.activeIrq ≠ w.kps.activePort)
    (h16 : w.kps.activeIrq < 16) : ¬ KeyboardInterruptOk e w m := by
  intro h
  cases hvec : w.vectors w.kps.activeInterruptVector with
  | false => exact not_keyboardInterruptOk_of_vector hvec h
  | true =>
      obtain ⟨w₁, m₁, w₂, m₂, hrun₁, hmask₁, hrun₂, hmask₂, honly⟩ := h
      obtain ⟨io₁, hd⟩ := disableKeyboard_run e w
      rw [hrun₁] at hd
      obtain rfl := (Prod.mk.inj hd).2
      obtain ⟨io₂, he⟩ := @enableKeyboard_run e (w.keyboardDisabled io₁) hvec
      rw [hrun₂] at he
      obtain rfl := (Prod.mk.inj he).2
      have hset : m₁.masked w.kps.activeIrq = true := by
        rw [honly.disabledLine _ h16, if_pos rfl]
      have hclear : m₂.masked w.kps.activeIrq = false := by
        rw [honly.enabledLine _ h16, if_pos rfl]
      have hkeep : m₂.masked w.kps.activeIrq = m₁.masked w.kps.activeIrq := by
        rw [← hmask₂, ← hmask₁]
        exact Function.update_of_ne hport _ _
      rw [hset, hclear] at hkeep
      cases hkeep

/-- **`disable_keyboard` and `enable_keyboard` touch the keyboard's interrupt, and no other, exactly
    for a keyboard on port one** whose vector was set up, for all masks and every IDT. -/
theorem keyboardInterrupt_iff {p : UInt8} (hp : p = 1 ∨ p = 2) (hm : w.irqMask = m.masked) :
    KeyboardInterruptOk e (setSingleKeyboardPort p e w).2 m ↔
      p = 1 ∧ w.vectors ps2Port1InteruptVector = true := by
  rcases hp with rfl | rfl
  · rw [and_iff_right rfl]
    cases hvec : w.vectors ps2Port1InteruptVector with
    | true =>
        have h16 : ps2Port1Irq < 16 := by decide
        exact iff_of_true (keyboardInterruptOk_of_port hm rfl h16 hvec) rfl
    | false => exact iff_of_false (not_keyboardInterruptOk_of_vector hvec) (by decide)
  · refine iff_of_false (not_keyboardInterruptOk_of_port ?_ ?_) fun h => absurd h.1 (by decide)
    · show ps2Port2Irq ≠ 2
      decide
    · show ps2Port2Irq < 16
      decide

/-- All lines masked but those that `handle_ps2_setup` clears. -/
def bootMasks : PicMasks := ⟨0xF9, 0xEF⟩

/-- A world with these masks, and every vector set up. -/
def World.booted : World :=
  { World.start with irqMask := bootMasks.masked, vectors := fun _ => true }

/-- The keyboard on port one. -/
theorem keyboardInterrupt_iff_port_one :
    KeyboardInterruptOk (scriptedEnv []) (setSingleKeyboardPort 1 (scriptedEnv []) .booted).2
      bootMasks :=
  (keyboardInterrupt_iff (Or.inl rfl) rfl).mpr ⟨rfl, rfl⟩

/-- On port two the line that joins the controllers is masked, and the keyboard's is not. -/
theorem keyboardInterrupt_port_two :
    ¬ ∀ (e : Ps2Env) (w : World) (m : PicMasks) (p : UInt8), p = 1 ∨ p = 2 →
      w.irqMask = m.masked → w.vectors (interruptVectorOfPort p) = true →
      KeyboardInterruptOk e (setSingleKeyboardPort p e w).2 m := by
  intro h
  have h2 := h (scriptedEnv []) .booted bootMasks 2 (Or.inr rfl) rfl rfl
  exact not_keyboardInterruptOk_of_port (by decide) (by decide) h2

end Interrupt

end MapleKernel.Drivers
