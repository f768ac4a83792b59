/-
  File:      Drivers/Ps2.lean
  Subject:   PS/2 BRING-UP (`ps2.c`, `idt_ps2.c`, `pic.c`, `ps2_mouse.cpp`): from the result of
             `setup_ps2_controller` to handlers on their interrupt vectors.

  `handle_ps2_setup` takes one of five ways by the result of the controller's setup. With one
  keyboard and one mouse it turns the mouse on, tells the keyboard and the mouse driver their
  ports, installs the two handlers and unmasks the interrupt lines.

  * `handlePs2Setup` -- the function with what it calls, on the globals it touches (`World`);
  * `quickEnableMouse` -- it always talks to port two, drops the error of the send, and its
    `assert(res = 0xFA)` assigns;
  * `ps2Setup_consistent` -- no check of the consumers can fail after any behaviour of the
    controller;
  * `broughtUp_iff` -- the devices are brought up as intended exactly when the mouse is on port
    two, takes both bytes and answers `0xFA`.
-/
import MapleKernel.Lib.Program
import MapleKernel.Drivers.KeyboardHandler
import MapleKernel.Drivers.KeyTyping
import MapleKernel.Drivers.MouseHandler
import MapleKernel.Drivers.Ps2ControllerSpec

namespace MapleKernel.Drivers

open Program

/-! ## 1. The globals -/

/-- `struct keyboard_porting_state_context`. -/
structure KeyboardPortingState where
  initialized : Bool
  numberOfKeyboards : UInt8
  activePort : UInt8
  activeIrq : UInt8
  activeInterruptVector : UInt8
  activeScancodeSet : UInt8
  deriving DecidableEq, Repr

/-- The port variables of `ps2_mouse.cpp`. -/
structure MousePorts where
  numberOfMouse : UInt8
  singleMousePort : UInt8
  mouse1Port : UInt8
  mouse2Port : UInt8
  deriving DecidableEq, Repr

/-- The interrupt service routines that descriptors are set to; `behindStubTable` is what the word
    behind `isr_stub_table` points to. -/
inductive Isr where
  | none
  | isrStub (vector : UInt8)
  | behindStubTable
  | interruptHandler (vector : UInt8)
  | apicWait
  | pit
  | badInterruptHandler
  | keyboardPort1 | keyboardPort2
  | mousePort1 | mousePort2
  deriving DecidableEq, Repr

/-- `isr_stub_table[vector]`. The table has the stubs 0 to 48; `idt_init` reads word 49 as well. -/
def isrStubTable (vector : UInt8) : Isr := if vector < 49 then .isrStub vector else .behindStubTable

theorem isrStubTable_ne_none (vector : UInt8) : isrStubTable vector ≠ .none := by
  unfold isrStubTable
  split
  · nofun
  · nofun

structure IdtEntry where
  isr : Isr
  present : Bool
  deriving DecidableEq, Repr

/-- The globals of the bring-up and of the keyboard's setup. `irqMask` holds the masked interrupt
    lines. -/
structure World where
  io : Ps2Io
  kps : KeyboardPortingState
  keyFunctions : KeyFunctionTable
  ledKeys : LedState
  keyboardMode : KeyboardMode
  mice : MousePorts
  gMouseProp : MouseProperties
  idt : UInt8 → IdtEntry
  vectors : UInt8 → Bool
  irqMask : UInt8 → Bool

abbrev Kernel := Prog Ps2Env World Ps2Halt

/-- A function of the controller, called by the kernel. -/
def controller {α : Type} (p : Controller α) : Kernel α := p.on World.io fun io w => { w with io }

/-! ## 2. Interrupt vectors and lines -/

def ps2Port1InteruptVector : UInt8 := 32 + ps2Port1Irq
def ps2Port2InteruptVector : UInt8 := 32 + ps2Port2Irq
def ps2Port2BridgeIrq : UInt8 := 2
def badPort : UInt8 := 255

/-- `interrupt_vector_of_port[3]`; the port is in range where it is read. -/
def interruptVectorOfPort (port : UInt8) : UInt8 :=
  if port = 1 then ps2Port1InteruptVector
  else if port = 2 then ps2Port2InteruptVector
  else badPort

/-- `keyboard_interrupt_handlers[3]`. -/
def keyboardInterruptHandlers (port : UInt8) : Isr :=
  if port = 1 then .keyboardPort1
  else if port = 2 then .keyboardPort2
  else .badInterruptHandler

/-- `mouse_interrupt_handlers[3]`. -/
def mouseInterruptHandlers (port : UInt8) : Isr :=
  if port = 1 then .mousePort1
  else if port = 2 then .mousePort2
  else .badInterruptHandler

def idtSetDescriptor (vector : UInt8) (isr : Isr) : Kernel Unit :=
  Prog.modify fun w => { w with idt := Function.update w.idt vector ⟨isr, true⟩ }

def setVector (vector : UInt8) : Kernel Unit :=
  Prog.modify fun w => { w with vectors := Function.update w.vectors vector true }

/-- `PIC_remap` ends with both masks written to zero. -/
def picRemap : Kernel Unit := Prog.modify fun w => { w with irqMask := fun _ => false }

def irqSetMask (irqLine : UInt8) : Kernel Unit :=
  Prog.modify fun w => { w with irqMask := Function.update w.irqMask irqLine true }

def irqClearMask (irqLine : UInt8) : Kernel Unit :=
  Prog.modify fun w => { w with irqMask := Function.update w.irqMask irqLine false }

/-- `initialize_irqs`: all sixteen lines are masked. -/
def initializeIrqs : Kernel Unit :=
  Prog.modify fun w => { w with irqMask := fun irq => irq < 16 || w.irqMask irq }

/-- `struct idt_init_ps2_fields`, without the device types, which nothing reads. -/
inductive IdtInitPs2Fields where
  | oneKeyboardOneMouse (keyboardPort mousePort : UInt8)
  | twoKeyboard
  | twoMouse
  | oneKeyboard
  | oneMouse
  | noPs2Device
  deriving DecidableEq, Repr

/-- `idt_init_ps2`. A single device gets its handler but no entry in `vectors`. -/
def idtInitPs2 (args : IdtInitPs2Fields) : Kernel Unit :=
  match args with
  | .oneKeyboardOneMouse keyboardPort mousePort => do
      Prog.assert (mousePort = 1 ∨ mousePort = 2) .mousePortOutOfRange
      Prog.assert (keyboardPort = 1 ∨ keyboardPort = 2) .keyboardPortOutOfRange
      Prog.assert (keyboardPort ≠ mousePort) .oneDevicePerPort
      idtSetDescriptor (interruptVectorOfPort keyboardPort) (keyboardInterruptHandlers keyboardPort)
      setVector (interruptVectorOfPort keyboardPort)
      idtSetDescriptor (interruptVectorOfPort mousePort) (mouseInterruptHandlers mousePort)
      setVector (interruptVectorOfPort mousePort)
  | .twoKeyboard => do
      idtSetDescriptor ps2Port1InteruptVector .keyboardPort1
      setVector ps2Port1InteruptVector
      idtSetDescriptor ps2Port2InteruptVector .keyboardPort2
      setVector ps2Port2InteruptVector
  | .twoMouse => do
      idtSetDescriptor ps2Port1InteruptVector .mousePort1
      idtSetDescriptor ps2Port2InteruptVector .mousePort2
      setVector ps2Port1InteruptVector
      setVector ps2Port2InteruptVector
  | .oneKeyboard => idtSetDescriptor ps2Port1InteruptVector .keyboardPort1
  | .oneMouse => idtSetDescriptor ps2Port1InteruptVector .mousePort1
  | .noPs2Device => pure ()

/-! ## 3. The drivers' ports -/

/-- `_set_irq_and_vector`. -/
def KeyboardPortingState.setIrqAndVector (k : KeyboardPortingState) : KeyboardPortingState :=
  if k.activePort = 1 then
    { k with activeInterruptVector := ps2Port1InteruptVector, activeIrq := ps2Port1Irq }
  else
    { k with activeInterruptVector := ps2Port2InteruptVector, activeIrq := ps2Port2Irq }

def setSingleKeyboardPort (port : UInt8) : Kernel Unit :=
  Prog.modify fun w =>
    let kps := { w.kps with activePort := port, numberOfKeyboards := 1 }
    { w with kps := { kps.setIrqAndVector with initialized := true } }

/-- `set_dual_keyboard_port` selects no keyboard and leaves `initialized` as it was. -/
def setDualKeyboardPort : Kernel Unit :=
  Prog.modify fun w => { w with kps := { w.kps with numberOfKeyboards := 2 } }

def setSingleMousePort (port : UInt8) : Kernel Unit :=
  Prog.modify fun w =>
    { w with mice := { w.mice with singleMousePort := port, numberOfMouse := 1 } }

def setDualMousePort : Kernel Unit :=
  Prog.modify fun w =>
    { w with mice := { w.mice with mouse1Port := 1, mouse2Port := 2, numberOfMouse := 2 } }

def enableReporting : UInt8 := 0xF4

/-- `quick_enable_mouse`. The error of the send is dropped, the port is always the second, and
    the assertion is an assignment: `res = 0xFA`. -/
def quickEnableMouse : Kernel Unit := do
  let _ ← controller (sendCommandToSecondPs2Port enableReporting)
  let err ← controller waitTillReadyForResponse
  if err ≠ .none then Prog.halt .mouseError
  let _ ← controller ps2RecieveRawResponse
  let res : UInt8 := 0xFA
  Prog.assert (res ≠ 0) .mouseMustWork
  Prog.modify fun w => { w with gMouseProp := ⟨0, 0, ⟨0xFF, 0xFF, 0xFF, 0xFF⟩⟩ }

/-! ## 4. The five ways -/

/-- `enum handle_ps2_setup_status`. -/
inductive HandlePs2SetupStatus where
  | oneKeyboardOneMouse | twoKeyboard | twoMouse | onePortOnly | noPort
  | unrecognizedDevice1 | unrecognizedDevice2
  deriving DecidableEq, Repr

/-- The keyboard's and the mouse's port, from the super types of the two devices. -/
def keyboardAndMousePort (port1SuperType port2SuperType : DeviceSuperType) : UInt8 × UInt8 :=
  if port1SuperType = .keyboard ∧ port2SuperType = .mouse then (1, 2) else (2, 1)

/-- The interrupt lines after a handler for each port was installed. -/
def enableBothPorts : Kernel Unit := do
  picRemap
  initializeIrqs
  irqClearMask ps2Port1Irq
  irqClearMask ps2Port2BridgeIrq
  irqClearMask ps2Port2Irq

def handlePs2SetupOneKeyboardOneMouse (device : InitializeDeviceState) :
    Kernel HandlePs2SetupStatus := do
  let e ← Prog.ask
  let port1SuperType := getDeviceSuperType (device.portOneDeviceType.getD e.unassigned)
  let port2SuperType := getDeviceSuperType (device.portTwoDeviceType.getD e.unassigned)
  if port1SuperType = .unknown ∧ port2SuperType = .unknown then Prog.halt .logicallyImpossible
  if port1SuperType = .unknown then return .unrecognizedDevice1
  if port2SuperType = .unknown then return .unrecognizedDevice2
  Prog.assert (port1SuperType ≠ port2SuperType) .bothTheSame
  let (keyboardPort, mousePort) := keyboardAndMousePort port1SuperType port2SuperType
  quickEnableMouse
  setSingleKeyboardPort keyboardPort
  setSingleMousePort mousePort
  idtInitPs2 (.oneKeyboardOneMouse keyboardPort mousePort)
  enableBothPorts
  return .oneKeyboardOneMouse

def handlePs2SetupOnePortOnly (device : InitializeDeviceState) : Kernel HandlePs2SetupStatus := do
  let e ← Prog.ask
  let onlyPortType := device.portOneDeviceType.getD e.unassigned
  if getDeviceSuperType onlyPortType = .unknown then return .unrecognizedDevice1
  match getDeviceSuperType onlyPortType with
  | .keyboard =>
      setSingleKeyboardPort 1
      idtInitPs2 .oneKeyboard
      picRemap
      initializeIrqs
      irqClearMask ps2Port1Irq
      return .onePortOnly
  | .mouse =>
      setSingleMousePort 1
      idtInitPs2 .oneMouse
      picRemap
      initializeIrqs
      irqClearMask ps2Port1Irq
      return .onePortOnly
  | .unknown => Prog.halt .notTreated

def handlePs2SetupTwoKeyboard : Kernel HandlePs2SetupStatus := do
  setDualKeyboardPort
  idtInitPs2 .twoKeyboard
  enableBothPorts
  return .twoKeyboard

def handlePs2SetupTwoMouse : Kernel HandlePs2SetupStatus := do
  setDualMousePort
  idtInitPs2 .twoMouse
  enableBothPorts
  return .twoMouse

def handlePs2SetupNoPort : Kernel HandlePs2SetupStatus := pure .noPort

/-- The `switch` of `handle_ps2_setup`. -/
def handleDeviceStates (device : InitializeDeviceState) : Kernel HandlePs2SetupStatus :=
  match device.ps2StateErr with
  | .none => handlePs2SetupOneKeyboardOneMouse device
  | .twoKeyboard => handlePs2SetupTwoKeyboard
  | .twoMouse => handlePs2SetupTwoMouse
  | .noSecondPort => handlePs2SetupOnePortOnly device
  | .couldNotInit => handlePs2SetupNoPort
  | .ps2ControllerDoesNotExist => handlePs2SetupNoPort
  | .controllerSelfTestFailed => handlePs2SetupNoPort
  | .firstPortSelfTestFailed => handlePs2SetupNoPort
  | .secondPortSelfTestFailed => handlePs2SetupNoPort
  | .couldNotResetDevice1 => handlePs2SetupNoPort
  | .couldNotResetDevice2 => handlePs2SetupNoPort
  | .usbError => handlePs2SetupNoPort

def handlePs2Setup : Kernel HandlePs2SetupStatus := do
  let deviceStates ← controller setupPs2Controller
  handleDeviceStates deviceStates

/-! ## 5. No check of the consumers fails -/

section Routing

variable {e : Ps2Env} {w : World}

/-- The kernel after the two devices were connected: keyboard on `p`, mouse on `q`. -/
structure World.Routed (w : World) (p q : UInt8) : Prop where
  keyboardHandler : w.idt (interruptVectorOfPort p) = ⟨keyboardInterruptHandlers p, true⟩
  mouseHandler : w.idt (interruptVectorOfPort q) = ⟨mouseInterruptHandlers q, true⟩
  initialized : w.kps.initialized = true
  activePort : w.kps.activePort = p
  activeIrq : w.kps.activeIrq = if p = 1 then ps2Port1Irq else ps2Port2Irq
  activeInterruptVector : w.kps.activeInterruptVector = interruptVectorOfPort p
  mousePort : w.mice.singleMousePort = q

/-- The two ports of a keyboard and a mouse. -/
theorem keyboardAndMousePort_cases {s₁ s₂ : DeviceSuperType} (h₁ : s₁.Known) (h₂ : s₂.Known)
    (hne : s₁ ≠ s₂) :
    (s₁ = .keyboard ∧ s₂ = .mouse ∧ keyboardAndMousePort s₁ s₂ = (1, 2)) ∨
    (s₁ = .mouse ∧ s₂ = .keyboard ∧ keyboardAndMousePort s₁ s₂ = (2, 1)) := by
  rcases h₁ with rfl | rfl
  · rcases h₂ with rfl | rfl
    · exact absurd rfl hne
    · exact Or.inl ⟨rfl, rfl, rfl⟩
  · rcases h₂ with rfl | rfl
    · exact Or.inr ⟨rfl, rfl, rfl⟩
    · exact absurd rfl hne

/-- Setting an entry of `vectors` clears none. -/
theorem setVector_keeps {f : UInt8 → Bool} {u v : UInt8} (h : f v = true) :
    Function.update f u true v = true := by
  by_cases huv : v = u
  · rw [huv, Function.update_self]
  · rw [Function.update_of_ne huv, h]

/-- What follows `quick_enable_mouse`: the checks of the ports pass and the devices are routed. -/
theorem wp_connect {p q : UInt8} (hpq : (p, q) = (1, 2) ∨ (p, q) = (2, 1)) {α : Type} {a : α}
    {Q : α → World → Prop} {E : Ps2Halt → World → Prop}
    (hQ : ∀ w', w'.io = w.io → w'.Routed p q →
      (∀ v, w.vectors v = true → w'.vectors v = true) → Q a w') :
    wp (do
      setSingleKeyboardPort p
      setSingleMousePort q
      idtInitPs2 (.oneKeyboardOneMouse p q)
      enableBothPorts
      return a) e w Q E := by
  rcases hpq with h | h
  · obtain ⟨rfl, rfl⟩ := Prod.mk.inj h
    exact hQ _ rfl ⟨rfl, rfl, rfl, rfl, rfl, rfl, rfl⟩ fun _ hv => setVector_keeps (setVector_keeps hv)
  · obtain ⟨rfl, rfl⟩ := Prod.mk.inj h
    exact hQ _ rfl ⟨rfl, rfl, rfl, rfl, rfl, rfl, rfl⟩ fun _ hv => setVector_keeps (setVector_keeps hv)

/-- With a keyboard and a mouse identified, what is left to fail is `quick_enable_mouse`. -/
theorem wp_handlePs2SetupOneKeyboardOneMouse {r : InitializeDeviceState} {t₁ t₂ : DeviceType}
    (h₁ : r.portOneDeviceType = some t₁) (h₂ : r.portTwoDeviceType = some t₂)
    (hk₁ : (getDeviceSuperType t₁).Known) (hk₂ : (getDeviceSuperType t₂).Known)
    (hne : getDeviceSuperType t₁ ≠ getDeviceSuperType t₂)
    {Q : HandlePs2SetupStatus → World → Prop} {E : Ps2Halt → World → Prop}
    (hQ : wp quickEnableMouse e w
      (fun _ w₁ => ∀ w', w'.io = w₁.io →
        w'.Routed (keyboardAndMousePort (getDeviceSuperType t₁) (getDeviceSuperType t₂)).1
          (keyboardAndMousePort (getDeviceSuperType t₁) (getDeviceSuperType t₂)).2 →
        (∀ v, w₁.vectors v = true → w'.vectors v = true) → Q .oneKeyboardOneMouse w') E) :
    wp (handlePs2SetupOneKeyboardOneMouse r) e w Q E := by
  have hu : ∀ {s : DeviceSuperType}, s.Known → s ≠ .unknown := by
    intro s hs
    rcases hs with rfl | rfl
    · decide
    · decide
  have hports : ∀ {s₁ s₂ : DeviceSuperType}, s₁.Known → s₂.Known → s₁ ≠ s₂ →
      keyboardAndMousePort s₁ s₂ = (1, 2) ∨ keyboardAndMousePort s₁ s₂ = (2, 1) := by
    intro s₁ s₂ hs₁ hs₂ hs
    rcases keyboardAndMousePort_cases hs₁ hs₂ hs with ⟨-, -, h⟩ | ⟨-, -, h⟩
    · exact Or.inl h
    · exact Or.inr h
  have hpq := hports hk₁ hk₂ hne
  simp only [handlePs2SetupOneKeyboardOneMouse, h₁, h₂, Option.getD_some, wp_bind, wp_ask,
    wp_assert, hu hk₁, hu hk₂, false_and, ↓reduceIte, hne, ne_eq, not_false_eq_true, decide_true]
  generalize keyboardAndMousePort (getDeviceSuperType t₁) (getDeviceSuperType t₂) = pq at hQ hpq ⊢
  refine wp_mono hQ (fun _ w₁ hw₁ => ?_) fun _ _ h => h
  have hconnect : wp (do
      setSingleKeyboardPort pq.1
      setSingleMousePort pq.2
      idtInitPs2 (.oneKeyboardOneMouse pq.1 pq.2)
      enableBothPorts
      return .oneKeyboardOneMouse) e w₁ Q E := wp_connect hpq hw₁
  simpa only [wp_bind] using hconnect

/-- `quick_enable_mouse` stops only where the mouse does not answer. -/
theorem wp_quickEnableMouse :
    wp quickEnableMouse e w (fun _ w' => w'.vectors = w.vectors) (fun h _ => h = .mouseError) := by
  have hsend : Total (fun _ => True) (sendCommandToSecondPs2Port enableReporting) :=
    total_sendCommandToSecondPs2Port trivial
  have hwait : Total (fun _ => True) waitTillReadyForResponse := total_waitTillReadyForResponse
  simp only [quickEnableMouse, controller, wp_bind, wp_on]
  refine wp_mono (hsend e w.io) (fun _ io₁ _ => ?_) fun _ _ h => h.elim
  refine wp_mono (hwait e io₁) (fun err io₂ _ => ?_) fun _ _ h => h.elim
  by_cases herr : err = .none
  · rw [if_neg (not_not.mpr herr)]
    exact rfl
  · rw [if_pos herr]
    exact rfl

/-- The statuses of the other ways. -/
theorem recognized_of_eq {st : HandlePs2SetupStatus} {p : Prop}
    (h : st = .onePortOnly ∨ st = .twoKeyboard ∨ st = .twoMouse ∨ st = .noPort) :
    st ≠ .unrecognizedDevice1 ∧ st ≠ .unrecognizedDevice2 ∧ (st = .oneKeyboardOneMouse → p) := by
  rcases h with rfl | rfl | rfl | rfl
  all_goals exact ⟨by decide, by decide, fun h => absurd h (by decide)⟩

/-- **The ways of `handle_ps2_setup` on a consistent result**: nothing is unrecognised, nothing but
    a silent mouse stops the kernel, and the keyboard and the mouse get different ports. -/
theorem wp_handleDeviceStates {r : InitializeDeviceState} (hr : r.Consistent) :
    wp (handleDeviceStates r) e w
      (fun st w' => st ≠ .unrecognizedDevice1 ∧ st ≠ .unrecognizedDevice2 ∧
        (st = .oneKeyboardOneMouse → w'.kps.activePort ≠ w'.mice.singleMousePort))
      (fun h _ => h = .mouseError) := by
  obtain ⟨err, internal, type₁, type₂⟩ := r
  cases err with
  | none =>
      obtain ⟨t₁, t₂, h₁, h₂, hk₁, hk₂, hne⟩ := hr
      refine wp_handlePs2SetupOneKeyboardOneMouse h₁ h₂ hk₁ hk₂ hne ?_
      refine wp_mono wp_quickEnableMouse (fun _ w₁ _ w' _ hrouted _ => ?_) fun _ _ h => h
      refine ⟨by decide, by decide, fun _ => ?_⟩
      rw [hrouted.activePort, hrouted.mousePort]
      rcases keyboardAndMousePort_cases hk₁ hk₂ hne with ⟨-, -, hpq⟩ | ⟨-, -, hpq⟩
      · rw [hpq]; decide
      · rw [hpq]; decide
  | noSecondPort =>
      obtain ⟨t₁, h₁, hk₁⟩ := hr
      simp only at h₁
      simp only [handleDeviceStates, handlePs2SetupOnePortOnly, h₁, Option.getD_some, wp_bind,
        wp_ask]
      rcases hk₁ with hk₁ | hk₁
      · rw [hk₁]
        exact recognized_of_eq (Or.inl rfl)
      · rw [hk₁]
        exact recognized_of_eq (Or.inl rfl)
  | twoKeyboard => exact recognized_of_eq (Or.inr (Or.inl rfl))
  | twoMouse => exact recognized_of_eq (Or.inr (Or.inr (Or.inl rfl)))
  | _ => exact recognized_of_eq (Or.inr (Or.inr (Or.inr rfl)))

end Routing

/-- **The result of the PS/2 setup fits its consumers**, whatever the controller answers. The
    setup returns with a consistent result; `handle_ps2_setup` returns no unrecognised device and
    gives the keyboard and the mouse different ports, and the only check that can stop it is that
    of `quick_enable_mouse` on a mouse that does not answer. -/
theorem ps2Setup_consistent (e : Ps2Env) (w : World) :
    (∃ r io, setupPs2Controller e w.io = (.ok r, io) ∧ r.Consistent) ∧
    (∀ st w', handlePs2Setup e w = (.ok st, w') →
      st ≠ .unrecognizedDevice1 ∧ st ≠ .unrecognizedDevice2 ∧
      (st = .oneKeyboardOneMouse → w'.kps.activePort ≠ w'.mice.singleMousePort)) ∧
    (∀ h w', handlePs2Setup e w = (.error h, w') → h = .mouseError) := by
  have hwp : wp handlePs2Setup e w
      (fun st w' => st ≠ .unrecognizedDevice1 ∧ st ≠ .unrecognizedDevice2 ∧
        (st = .oneKeyboardOneMouse → w'.kps.activePort ≠ w'.mice.singleMousePort))
      (fun h _ => h = .mouseError) := by
    simp only [handlePs2Setup, controller, wp_bind, wp_on]
    refine wp_mono (setupPs2Controller_consistent e w.io) ?_ fun _ _ h => h.elim
    intro r io hr
    exact wp_handleDeviceStates hr.1
  refine ⟨?_, fun st w' h => (wp_of_ok h).mp hwp, fun h w' herr => (wp_of_error herr).mp hwp⟩
  obtain ⟨r, io, hrun, hr, -⟩ := setupPs2Controller_consistent.exists_ok e w.io
  exact ⟨r, io, hrun, hr⟩

/-! ## 6. The mouse is turned on -/

/-- The port whose device identified as an `s`. -/
def InitializeDeviceState.portOf (r : InitializeDeviceState) (s : DeviceSuperType) : UInt8 :=
  if r.portOneDeviceType.map getDeviceSuperType = some s then 1 else 2

/-- The bytes addressed to the devices between two states. -/
def sentBetween (w w' : World) : List (UInt8 × UInt8) := w'.io.sent.drop w.io.sent.length

/-- **The bring-up as it is meant**: the keyboard's handler and data are those of its port, the
    mouse's handler that of the other, the mouse and no other device was told to report, and the
    last byte read is its acknowledge. -/
structure BroughtUp (r : InitializeDeviceState) (w w' : World) : Prop where
  routed : w'.Routed (r.portOf .keyboard) (r.portOf .mouse)
  enabled : (r.portOf .mouse, enableReporting) ∈ sentBetween w w'
  onlyMouse : ∀ x ∈ sentBetween w w', x.2 = enableReporting → x.1 = r.portOf .mouse
  acknowledged : w'.io.responses.getLast? = some deviceCommandAcknoledged

/-- From the `n`-th answer on, the controller takes the two bytes of the command to port two, and
    the response that comes is the acknowledge. -/
def MouseAcknowledges (answers : Nat → UInt8) (n : Nat) : Prop :=
  ∃ k₁ k₂ k₃, TakesInput answers n k₁ ∧ TakesInput answers (n + k₁ + 1) k₂ ∧
    FirstReady isPs2ControllerReadyForResponse answers (n + k₁ + 1 + k₂ + 1) k₃ ∧
    answers (n + k₁ + 1 + k₂ + 1 + k₃ + 1) = deviceCommandAcknoledged

section Mouse

variable {e : Ps2Env} {w : World}

/-- What `quick_enable_mouse` leaves when it returns. -/
theorem wp_quickEnableMouse_exact :
    wp quickEnableMouse e w
      (fun _ w₁ =>
        (MouseAcknowledges e.answers w.io.reads ∧
          w₁.io.sent = w.io.sent ++ [(2, enableReporting)] ∧
          w₁.io.responses.getLast? = some deviceCommandAcknoledged) ∨
        (¬ MouseAcknowledges e.answers w.io.reads ∧
          (w₁.io.sent = w.io.sent ∨ w₁.io.sent = w.io.sent ++ [(2, enableReporting)] ∧
            w₁.io.responses.getLast? ≠ some deviceCommandAcknoledged)))
      (fun _ _ => True) := by
  simp only [quickEnableMouse, controller, wp_bind, wp_on]
  obtain ⟨k₁, k₂, io₁, hk₁, hk₂, hsend, hreads, hsent⟩ | ⟨hnot, err, io₁, hsend, hsent⟩ :=
    sendCommandToSecondPs2Port_cases enableReporting e w.io
  · rw [wp_of_ok hsend]
    rcases waitTillReadyForResponse_cases e io₁ with ⟨k₃, hk₃, hwait⟩ | ⟨-, hwait⟩
    · rw [wp_of_ok hwait, if_neg (by simp)]
      rw [hreads] at hk₃
      have hstatus := io₁.sent_afterStatus e.answers (k₃ + 1)
      simp only [wp_bind, wp_on, wp_ps2RecieveRawResponse, wp_assert, wp_modify,
        Ps2Io.reads_afterStatus, ← Nat.add_assoc, hreads, hstatus, hsent,
        List.getLast?_append, List.getLast?_singleton, Option.some_or, Option.some.injEq]
      by_cases hack : e.answers (w.io.reads + k₁ + 1 + k₂ + 1 + k₃ + 1) = deviceCommandAcknoledged
      · exact Or.inl ⟨⟨k₁, k₂, k₃, hk₁, hk₂, hk₃, hack⟩, trivial, hack⟩
      · refine Or.inr ⟨?_, Or.inr ⟨trivial, fun h => hack (Option.some.inj h)⟩⟩
        intro h
        obtain ⟨k₁', k₂', k₃', h₁, h₂, h₃, hack'⟩ := h
        -- each wait ends at one read only
        obtain rfl := hk₁.first.unique h₁.first
        obtain rfl := hk₂.first.unique h₂.first
        obtain rfl := hk₃.unique h₃
        exact hack hack'
    · rw [wp_of_ok hwait]
      exact trivial
  · rw [wp_of_ok hsend]
    have hnack : ¬ MouseAcknowledges e.answers w.io.reads := by
      intro h
      obtain ⟨k₁, k₂, -, h₁, h₂, -⟩ := h
      exact hnot k₁ k₂ h₁ h₂
    rcases waitTillReadyForResponse_cases e io₁ with ⟨k₃, -, hwait⟩ | ⟨-, hwait⟩
    · rw [wp_of_ok hwait, if_neg (by simp)]
      exact Or.inr ⟨hnack, Or.inl hsent⟩
    · rw [wp_of_ok hwait]
      exact trivial

/-- With a keyboard and a mouse, the ports of the glue code are those that were identified. -/
theorem keyboardAndMousePort_eq_portOf {r : InitializeDeviceState} {t₁ t₂ : DeviceType}
    (h₁ : r.portOneDeviceType = some t₁) (hk₁ : (getDeviceSuperType t₁).Known)
    (hk₂ : (getDeviceSuperType t₂).Known) (hne : getDeviceSuperType t₁ ≠ getDeviceSuperType t₂) :
    keyboardAndMousePort (getDeviceSuperType t₁) (getDeviceSuperType t₂) =
      (r.portOf .keyboard, r.portOf .mouse) := by
  rcases keyboardAndMousePort_cases hk₁ hk₂ hne with ⟨hs₁, -, hpq⟩ | ⟨hs₁, -, hpq⟩
  · rw [hpq]
    simp [InitializeDeviceState.portOf, h₁, hs₁]
  · rw [hpq]
    simp [InitializeDeviceState.portOf, h₁, hs₁]

theorem sentBetween_of_append {w' : World} {l : List (UInt8 × UInt8)}
    (h : w'.io.sent = w.io.sent ++ l) : sentBetween w w' = l := by
  rw [sentBetween, h, List.drop_left]

theorem not_enableReporting_of_onlyResets {l : List (UInt8 × UInt8)} (h : ∀ x ∈ l, OnlyResets x) :
    ∀ x ∈ l, x.2 ≠ enableReporting := by
  intro x hx heq
  have hreset : x.2 = ps2CbResetDevice := h x hx
  exact absurd (hreset.symm.trans heq) (by decide)

/-- **The devices are brought up as intended exactly when the mouse is on port two and
    acknowledges.** For every behaviour of the controller for which the setup finds one keyboard
    and one mouse, after `handle_ps2_setup` returned. -/
theorem broughtUp_iff {w' : World} {r : InitializeDeviceState} {io₁ : Ps2Io}
    {st : HandlePs2SetupStatus} (hsetup : setupPs2Controller e w.io = (.ok r, io₁))
    (hnone : r.ps2StateErr = .none) (hret : handlePs2Setup e w = (.ok st, w')) :
    BroughtUp r w w' ↔ r.portOf .mouse = 2 ∧ MouseAcknowledges e.answers io₁.reads := by
  obtain ⟨hr, l, hl, honly⟩ := (wp_of_ok hsetup).mp (setupPs2Controller_consistent e w.io)
  rw [InitializeDeviceState.Consistent, hnone] at hr
  obtain ⟨t₁, t₂, h₁, h₂, hk₁, hk₂, hne⟩ := hr
  have hnoF4 := not_enableReporting_of_onlyResets honly
  suffices hwp : wp handlePs2Setup e w
      (fun _ w' => BroughtUp r w w' ↔ r.portOf .mouse = 2 ∧ MouseAcknowledges e.answers io₁.reads)
      (fun _ _ => True) from (wp_of_ok hret).mp hwp
  simp only [handlePs2Setup, controller, wp_bind, wp_on]
  rw [wp_of_ok hsetup, handleDeviceStates, hnone]
  refine wp_handlePs2SetupOneKeyboardOneMouse h₁ h₂ hk₁ hk₂ hne ?_
  rw [keyboardAndMousePort_eq_portOf h₁ hk₁ hk₂ hne]
  refine wp_mono wp_quickEnableMouse_exact (fun _ w₁ hw₁ w' hio hrouted _ => ?_) fun _ _ h => h
  rw [← hio] at hw₁
  rcases hw₁ with ⟨hack, hsent, hlast⟩ | ⟨hnack, hrest⟩
  · have hbetween : sentBetween w w' = l ++ [(2, enableReporting)] :=
      sentBetween_of_append (by rw [hsent, hl, List.append_assoc])
    constructor
    · intro hup
      have hmem := hup.enabled
      rw [hbetween, List.mem_append] at hmem
      rcases hmem with hmem | hmem
      · exact absurd rfl (hnoF4 _ hmem)
      · exact ⟨congrArg Prod.fst (List.mem_singleton.mp hmem), hack⟩
    · intro h
      have hq := h.1
      refine ⟨hrouted, ?_, fun x hx hF4 => ?_, hlast⟩
      · rw [hbetween, hq]
        exact List.mem_append_right l List.mem_cons_self
      · rw [hbetween, List.mem_append] at hx
        rcases hx with hx | hx
        · exact absurd hF4 (hnoF4 x hx)
        · rw [List.mem_singleton.mp hx, hq]
  · refine ⟨fun hup => ?_, fun h => absurd h.2 hnack⟩
    rcases hrest with hsent | ⟨-, hlast⟩
    · -- nothing was sent to the mouse
      have hmem := hup.enabled
      rw [sentBetween_of_append (hsent.trans hl)] at hmem
      exact absurd rfl (hnoF4 _ hmem)
    · exact absurd hup.acknowledged hlast

end Mouse

/-! ## 7. Two controllers -/

/-- The kernel's memory at the start. -/
def World.start : World where
  io := ⟨0, [], [], [], []⟩
  kps := ⟨false, 0, 0, 0, 0, 0⟩
  keyFunctions := .cleared
  ledKeys := ⟨false, false, false⟩
  keyboardMode := .typing
  mice := ⟨0, 0, 0, 0⟩
  gMouseProp := ⟨0, 0, ⟨0, 0, 0, 0⟩⟩
  idt := fun _ => ⟨.none, false⟩
  vectors := fun _ => false
  irqMask := fun _ => false

/-- The answers of a controller that is ready at every read and passes its tests, up to step 9. -/
def controllerAnswers : List UInt8 :=
  [1, 1, 0, 1, 1, 4, 1, 1, 1, 1, 0x55, 1, 1, 1, 4, 1, 1, 1, 4, 1, 1, 1, 1, 0, 1, 1, 0,
   1, 1, 1, 1, 4, 1, 1]

/-- Such a controller with two devices that answer the reset with the given bytes, and the reply
    to the byte that turns the mouse on. -/
def bootEnv (device1 device2 : List UInt8) (reply : UInt8) : Ps2Env where
  answers n := (controllerAnswers ++ 1 :: (device1.flatMap fun b => [1, b]) ++
    1 :: 1 :: (device2.flatMap fun b => [1, b]) ++ [1, 1, 1, reply]).getD n 1
  qemu := false
  debug := false
  unassigned := .other 0

def keyboardReplies : List UInt8 := [0xFA, 0xAA, 0xAB, 0x83]
def mouseReplies : List UInt8 := [0xFA, 0xAA, 0x00]

/-- The keyboard on port one and the mouse on port two, which acknowledges. -/
theorem broughtUp_mouse_on_port_two :
    BroughtUp ⟨.none, some .none, some .mf2Keyboard1, some .standardMouse⟩ .start
      (handlePs2Setup (bootEnv keyboardReplies mouseReplies 0xFA) .start).2 := by
  have hack : MouseAcknowledges (bootEnv keyboardReplies mouseReplies 0xFA).answers 51 :=
    ⟨0, 0, 0, ⟨⟨by decide, nofun, by decide⟩, by decide, by decide⟩,
      ⟨⟨by decide, nofun, by decide⟩, by decide, by decide⟩, ⟨by decide, nofun, by decide⟩,
      by decide⟩
  have hreads : (setupPs2Controller (bootEnv keyboardReplies mouseReplies 0xFA)
      World.start.io).2.reads = 51 := by decide +kernel
  have hsetup : (setupPs2Controller (bootEnv keyboardReplies mouseReplies 0xFA)
      World.start.io).1 = .ok ⟨.none, some .none, some .mf2Keyboard1, some .standardMouse⟩ := by
    decide +kernel
  have hret : (handlePs2Setup (bootEnv keyboardReplies mouseReplies 0xFA) .start).1 =
      .ok .oneKeyboardOneMouse := by decide +kernel
  refine (broughtUp_iff (run_eq_of_fst hsetup) rfl (run_eq_of_fst hret)).mpr ⟨rfl, ?_⟩
  rw [hreads]
  exact hack

/-- **The mouse on port one is never turned on**: the byte goes to the keyboard on port two. -/
theorem broughtUp_fails :
    ¬ ∀ (e : Ps2Env) (w w' : World) (r : InitializeDeviceState) (io₁ : Ps2Io)
      (st : HandlePs2SetupStatus), setupPs2Controller e w.io = (.ok r, io₁) →
      r.ps2StateErr = .none → handlePs2Setup e w = (.ok st, w') → BroughtUp r w w' := by
  intro h
  have hsetup : (setupPs2Controller (bootEnv mouseReplies keyboardReplies 0xFA)
      World.start.io).1 = .ok ⟨.none, some .none, some .standardMouse, some .mf2Keyboard1⟩ := by
    decide +kernel
  have hret : (handlePs2Setup (bootEnv mouseReplies keyboardReplies 0xFA) .start).1 =
      .ok .oneKeyboardOneMouse := by decide +kernel
  have hup := h _ _ _ _ _ _ (run_eq_of_fst hsetup) rfl (run_eq_of_fst hret)
  have hnot : (1, enableReporting) ∉ sentBetween .start
      (handlePs2Setup (bootEnv mouseReplies keyboardReplies 0xFA) .start).2 := by decide +kernel
  exact hnot hup.enabled

end MapleKernel.Drivers
