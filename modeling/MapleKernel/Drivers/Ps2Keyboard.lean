/-
  File:      Drivers/Ps2Keyboard.lean
  Subject:   THE KEYBOARD'S SETUP AT BOOT (`ps2_keyboard.c`, `kernel_helper.c`): what
             `setup_keyboard` finds after `setup_interrupts_and_ps2`.

  `kernel_main` calls `setup_keyboard` whatever `handle_ps2_setup` found. `kps` is filled by
  `set_single_keyboard_port` only, which two of the outcomes call; every command then goes to
  `kps.active_port`, and `enable_idt_entry` asks for an entry in `vectors`.

  * `setupKeyboard`, `setupInterruptsAndPs2` -- the functions, with their checks;
  * `World.Commands` -- the relation that every keyboard command keeps: the port and the vector in
    use stay, and bytes are addressed to that port only;
  * `setupKeyboard_iff` -- the setup of the keyboard fails no check exactly when the setup of the
    controller found one keyboard and one mouse, or a single port with a keyboard.
-/
import MapleKernel.Lib.Program
import MapleKernel.Drivers.Ps2

namespace MapleKernel.Drivers

open Program

/-! ## 1. Commands -/

/-- `enum ps2_keyboard_error_code`, the values that the setup can return. -/
inductive KeyboardError where
  | none | invalidCommand | couldNotSendCommand | couldNotRecieveResponse
  | resendTooMuch | nonAckResponse
  deriving DecidableEq, Repr

/-- `enum KeyboardCommandByte`, the commands of the setup. -/
inductive KeyboardCommandByte where
  | setLEDs | getSetScanCodeSet | enableScanning
  deriving DecidableEq, Repr

def KeyboardCommandByte.value : KeyboardCommandByte → UInt8
  | .setLEDs => 0xED
  | .getSetScanCodeSet => 0xF0
  | .enableScanning => 0xF4

def krbCommandAcknowledged : UInt8 := 0xFA
def krbResend : UInt8 := 0xFE

/-- `struct ps2_keyboard_verified_response`; the response -1 is `none`. -/
structure KeyboardVerifiedResponse where
  err : KeyboardError
  response : Option UInt8
  deriving DecidableEq, Repr

/-- `_send_command_or_data_to_ps2_keyboard`. -/
def sendCommandOrDataToPs2Keyboard (data : UInt8) : Kernel Ps2Error := do
  let w ← Prog.get
  controller (sendCommandOrDataToPs2Port w.kps.activePort data)

/-- The loop of `send_data_to_ps2_keyboard`, with `n` tries left. -/
def sendDataLoop (data : UInt8) : Nat → Kernel KeyboardVerifiedResponse
  | 0 => pure ⟨.resendTooMuch, none⟩
  | n + 1 => do
      let cErr ← sendCommandOrDataToPs2Keyboard data
      if cErr ≠ .none then return ⟨.couldNotSendCommand, none⟩
      let cErr ← controller waitTillReadyForResponse
      if cErr ≠ .none then return ⟨.couldNotRecieveResponse, none⟩
      let response ← controller ps2RecieveRawResponse
      if response = krbResend then sendDataLoop data n
      else if response = krbCommandAcknowledged then return ⟨.none, some response⟩
      else return ⟨.nonAckResponse, some response⟩

def maxResponseRepeat : Nat := 3

def sendDataToPs2Keyboard (data : UInt8) : Kernel KeyboardVerifiedResponse :=
  sendDataLoop data maxResponseRepeat

def validateKeyboardCommand (cmd : UInt8) : Bool :=
  cmd ∈ [0xED, 0xEE, 0xF0, 0xF2, 0xF3, 0xF4, 0xF5, 0xF6, 0xF7, 0xF8, 0xF9, 0xFA, 0xFB, 0xFC, 0xFD,
    0xFE, 0xFF]

def sendCommandToPs2Keyboard (command : KeyboardCommandByte) : Kernel KeyboardVerifiedResponse :=
  if !validateKeyboardCommand command.value then pure ⟨.invalidCommand, none⟩
  else sendDataToPs2Keyboard command.value

/-- A command followed by its data. -/
def sendCommandAndData (command : KeyboardCommandByte) (data : UInt8) : Kernel KeyboardError := do
  let obtained ← sendCommandToPs2Keyboard command
  if obtained.err ≠ .none then return obtained.err
  let obtained ← sendDataToPs2Keyboard data
  return obtained.err

/-- `kcb_led_state_uts.raw`. -/
def LedState.raw (leds : LedState) : UInt8 :=
  leds.scrollLock.toUInt8 + 2 * leds.numberLock.toUInt8 + 4 * leds.capsLock.toUInt8

def setLeds (leds : LedState) : Kernel KeyboardError := sendCommandAndData .setLEDs leds.raw

/-- `set_scan_code_set`; 0 asks for the current set and cannot be set. -/
def setScanCodeSet (scanCodeSet : UInt8) : Kernel KeyboardError := do
  if scanCodeSet = 0 ∨ 3 < scanCodeSet then Prog.halt .invalidScanCodeSet
  let err ← sendCommandAndData .getSetScanCodeSet scanCodeSet
  if err ≠ .none then return err
  Prog.modify fun w => { w with kps := { w.kps with activeScancodeSet := scanCodeSet } }
  return .none

def enableScanning : Kernel KeyboardError := do
  let obtained ← sendCommandToPs2Keyboard .enableScanning
  return obtained.err

/-- `disable_scanning` sends the command that enables scanning. -/
def disableScanning : Kernel KeyboardError := do
  let obtained ← sendCommandToPs2Keyboard .enableScanning
  return obtained.err

/-! ## 2. The setup -/

/-- `enable_idt_entry`. The check of `get_idt_entry` passes for every `uint8_t`. -/
def enableIdtEntry (entryIndex : UInt8) : Kernel Unit := do
  let w ← Prog.get
  Prog.assert (w.vectors entryIndex) .entryNeverEnabled
  Prog.modify fun w =>
    { w with idt := Function.update w.idt entryIndex { w.idt entryIndex with present := true } }

def disableIdtEntry (entryIndex : UInt8) : Kernel Unit :=
  Prog.modify fun w =>
    { w with idt := Function.update w.idt entryIndex { w.idt entryIndex with present := false } }

/-- `disable_keyboard`. It masks the line with the number of the port. -/
def disableKeyboard : Kernel Unit := do
  let w ← Prog.get
  irqSetMask w.kps.activePort
  disableIdtEntry w.kps.activeInterruptVector
  let _ ← disableScanning

def enableKeyboard : Kernel Unit := do
  let _ ← enableScanning
  let w ← Prog.get
  enableIdtEntry w.kps.activeInterruptVector
  irqClearMask w.kps.activePort

/-- The codes of `scancode.h`: `0x01 .. 0x53`, `0x57` and `0x58`, and their releases. -/
def validateScancode (scancode : UInt8) : Bool :=
  let code := scancode.toNat % 0x80
  (1 ≤ code && code ≤ 0x53) || code = 0x57 || code = 0x58

/-- The codes of `extended_scancode.h` and their releases. -/
def validateExtendedScancode (scancode : UInt8) : Bool :=
  scancode.toNat % 0x80 ∈ [0x10, 0x19, 0x1C, 0x1D, 0x20, 0x21, 0x22, 0x24, 0x2E, 0x30, 0x32, 0x35,
    0x38, 0x47, 0x48, 0x49, 0x4B, 0x4D, 0x4F, 0x50, 0x51, 0x52, 0x53, 0x5B, 0x5C, 0x5D, 0x5E, 0x5F,
    0x63, 0x65, 0x66, 0x67, 0x68, 0x69, 0x6A, 0x6B, 0x6C, 0x6D]

/-- `set_key_function` with its check. -/
def tieKey (key : UInt8) (f : KeyFunction) : Kernel Unit := do
  Prog.assert (validateScancode key) .keyOutsideTable
  Prog.modify fun w => { w with keyFunctions := setKeyFunction w.keyFunctions key.toNat f }

/-- `set_extended_key_function` with its check. -/
def tieExtendedKey (scancode : UInt8) (f : KeyFunction) : Kernel Unit := do
  Prog.assert (validateExtendedScancode scancode) .keyOutsideTable
  Prog.modify fun w =>
    { w with keyFunctions := setExtendedKeyFunction w.keyFunctions scancode.toNat f }

/-- The part of `setup_keyboard_extra` before the LEDs: the functions of the keys. -/
def setupKeys : Kernel Unit := do
  Prog.modify fun w => { w with keyFunctions := .cleared }
  tieKey 0x3A .pressedCapsLock
  tieKey 0x45 .pressedNumLock
  tieKey 0x46 .pressedScrollLock
  tieKey 0x1E .pressedA
  tieExtendedKey 0x48 .pressedUp
  tieExtendedKey 0x50 .pressedDown
  tieExtendedKey 0x4B .pressedLeft
  tieExtendedKey 0x4D .pressedRight
  tieKey 0x13 .pressedR
  tieKey 0x21 .pressedF

/-- `setup_keyboard_extra`. `ps2_keyboard_cpp_init` fills the tables of `KeyCodes` and chooses the
    mode. -/
def setupKeyboardExtra : Kernel Unit := do
  setupKeys
  Prog.modify fun w => { w with ledKeys := ⟨false, false, false⟩ }
  let _ ← setLeds ⟨false, false, false⟩
  Prog.modify fun w => { w with keyboardMode := .testing }

def setupKeyboard : Kernel KeyboardError := do
  let w ← Prog.get
  Prog.assert w.kps.initialized .commandMustTargetKeyboard
  disableKeyboard
  let err ← setScanCodeSet 1
  if err ≠ .none then return err
  setupKeyboardExtra
  enableKeyboard
  return .none

/-! ## 3. The boot -/

/-- The vectors that the two loops of `idt_init` set; `DEBUG` leaves 3 out. -/
def idtInitLoops (debug : Bool) (v : UInt8) : Bool := (v < 50 && v ≠ 34) && !(debug && v = 3)

/-- `idt_init`. The last entry of `vectors` is 57 twice: 58 gets a handler only. -/
def idtInit : Kernel Unit := do
  let e ← Prog.ask
  Prog.modify fun w =>
    { w with idt := fun v => if idtInitLoops e.debug v then ⟨isrStubTable v, true⟩ else w.idt v
             vectors := fun v => idtInitLoops e.debug v || w.vectors v }
  idtSetDescriptor 5 (.interruptHandler 5)
  setVector 5
  idtSetDescriptor 8 (.interruptHandler 8)
  setVector 8
  idtSetDescriptor 11 (.interruptHandler 11)
  setVector 11
  idtSetDescriptor 13 (.interruptHandler 13)
  setVector 13
  idtSetDescriptor 56 (.interruptHandler 56)
  setVector 56
  idtSetDescriptor 57 (.interruptHandler 57)
  setVector 57
  idtSetDescriptor 58 .apicWait
  setVector 57

def pitInteruptVector : UInt8 := 32

/-- `setup_interrupts_and_ps2`. The case for a single second device falls through. -/
def setupInterruptsAndPs2 : Kernel Unit := do
  idtInit
  picRemap
  initializeIrqs
  let err ← handlePs2Setup
  match err with
  | .oneKeyboardOneMouse | .twoKeyboard | .twoMouse =>
      irqClearMask ps2Port1Irq
      irqClearMask ps2Port2BridgeIrq
      irqClearMask ps2Port2Irq
  | .unrecognizedDevice2 | .onePortOnly => irqClearMask ps2Port1Irq
  | .unrecognizedDevice1 =>
      irqClearMask ps2Port2BridgeIrq
      irqClearMask ps2Port2Irq
  | .noPort => pure ()
  idtSetDescriptor pitInteruptVector .pit

/-! ## 4. Every command goes to the active port -/

/-- What a keyboard command does: the port and the vector in use stay, and so does `vectors`;
    bytes are addressed to the active port only. -/
structure World.Commands (w w' : World) : Prop where
  activePort : w'.kps.activePort = w.kps.activePort
  activeInterruptVector : w'.kps.activeInterruptVector = w.kps.activeInterruptVector
  vectors : w'.vectors = w.vectors
  sends : w.io.Sends (fun x => x.1 = w.kps.activePort) w'.io

instance : IsPreorder World World.Commands where
  refl w := ⟨rfl, rfl, rfl, .of_sent_eq rfl⟩
  trans := by
    intro w₁ w₂ w₃ h h'
    refine ⟨h'.activePort.trans h.activePort,
      h'.activeInterruptVector.trans h.activeInterruptVector, h'.vectors.trans h.vectors, ?_⟩
    have hsends := h'.sends
    rw [h.activePort] at hsends
    exact trans_of _ h.sends hsends

section Commands

/-- The program always returns and does nothing but keyboard commands. -/
abbrev Commanding {α : Type} (p : Kernel α) : Prop := Keeps World.Commands (fun _ => True) p

theorem commanding_controller {α : Type} {p : Controller α}
    (h : ∀ port, Total (fun x => x.1 = port) p) : Commanding (controller p) := by
  intro e w
  rw [controller, wp_on]
  exact wp_mono (h w.kps.activePort e w.io) (fun _ _ hs => ⟨trivial, rfl, rfl, rfl, hs.2⟩)
    fun _ _ h => h

theorem commanding_send {data : UInt8} : Commanding (sendCommandOrDataToPs2Keyboard data) := by
  intro e w
  have hsend : Total (fun x => x.1 = w.kps.activePort)
      (sendCommandOrDataToPs2Port w.kps.activePort data) := total_sendCommandOrDataToPs2Port rfl
  simp only [sendCommandOrDataToPs2Keyboard, wp_bind, wp_get, controller, wp_on]
  exact wp_mono (hsend e w.io) (fun _ _ hs => ⟨trivial, rfl, rfl, rfl, hs.2⟩) fun _ _ h => h

theorem commanding_sendDataLoop {data : UInt8} (n : Nat) : Commanding (sendDataLoop data n) := by
  induction n with
  | zero => exact keeps_pure trivial
  | succ n ih =>
      refine keeps_check commanding_send (fun _ _ => trivial) fun _ => ?_
      refine keeps_check (commanding_controller fun _ => total_waitTillReadyForResponse)
        (fun _ _ => trivial) fun _ => ?_
      refine keeps_bind (commanding_controller fun _ => total_ps2RecieveRawResponse) fun _ _ => ?_
      refine keeps_ite (fun _ => ih) fun _ => ?_
      exact keeps_ite (fun _ => keeps_pure trivial) fun _ => keeps_pure trivial

theorem commanding_sendCommandToPs2Keyboard {command : KeyboardCommandByte} :
    Commanding (sendCommandToPs2Keyboard command) :=
  keeps_ite (fun _ => keeps_pure trivial) fun _ => commanding_sendDataLoop _

theorem commanding_sendCommandAndData {command : KeyboardCommandByte} {data : UInt8} :
    Commanding (sendCommandAndData command data) := by
  refine keeps_check commanding_sendCommandToPs2Keyboard (fun _ _ => trivial) fun _ => ?_
  exact keeps_bind (commanding_sendDataLoop _) fun _ _ => keeps_pure trivial

theorem commanding_setScanCodeSet : Commanding (setScanCodeSet 1) := by
  have hvalid : ¬ ((1 : UInt8) = 0 ∨ (3 : UInt8) < 1) := by decide
  rw [setScanCodeSet, if_neg hvalid]
  refine keeps_check commanding_sendCommandAndData (fun _ _ => trivial) fun _ => ?_
  exact keeps_bind (keeps_modify fun _ => ⟨rfl, rfl, rfl, .of_sent_eq rfl⟩)
    fun _ _ => keeps_pure trivial

theorem commanding_enableScanning : Commanding enableScanning :=
  keeps_bind commanding_sendCommandToPs2Keyboard fun _ _ => keeps_pure trivial

theorem commanding_disableScanning : Commanding disableScanning :=
  keeps_bind commanding_sendCommandToPs2Keyboard fun _ _ => keeps_pure trivial

theorem commanding_disableKeyboard : Commanding disableKeyboard := by
  refine keeps_bind keeps_get fun w _ => ?_
  refine keeps_bind (keeps_modify fun _ => ⟨rfl, rfl, rfl, .of_sent_eq rfl⟩) fun _ _ => ?_
  refine keeps_bind (keeps_modify fun _ => ⟨rfl, rfl, rfl, .of_sent_eq rfl⟩) fun _ _ => ?_
  exact keeps_bind commanding_disableScanning fun _ _ => keeps_pure trivial

/-- **The checks of the tied keys pass, and what is tied is `setupKeyFunctions`.** -/
theorem setupKeys_eq (e : Ps2Env) (w : World) :
    setupKeys e w = (.ok (), { w with keyFunctions := setupKeyFunctions }) := rfl

theorem commanding_setupKeyboardExtra : Commanding setupKeyboardExtra := by
  have hkeys : Commanding setupKeys := fun e w =>
    (wp_of_ok (setupKeys_eq e w)).mpr ⟨trivial, rfl, rfl, rfl, .of_sent_eq rfl⟩
  refine keeps_bind hkeys fun _ _ => ?_
  refine keeps_bind (keeps_modify fun _ => ⟨rfl, rfl, rfl, .of_sent_eq rfl⟩) fun _ _ => ?_
  refine keeps_bind commanding_sendCommandAndData fun _ _ => ?_
  exact keeps_modify fun _ => ⟨rfl, rfl, rfl, .of_sent_eq rfl⟩

variable {e : Ps2Env} {w : World}

/-- The keyboard is enabled where its vector was enabled before. -/
theorem wp_enableKeyboard (h : w.vectors w.kps.activeInterruptVector = true) :
    wp enableKeyboard e w (fun _ w' => w.Commands w') fun _ _ => False := by
  simp only [enableKeyboard, wp_bind]
  refine wp_mono (commanding_enableScanning e w) (fun _ w₁ hw₁ => ?_) fun _ _ h => h
  have hvec : w₁.vectors w₁.kps.activeInterruptVector = true := by
    rw [hw₁.2.vectors, hw₁.2.activeInterruptVector, h]
  simp only [enableIdtEntry, wp_bind, wp_get, wp_assert, hvec, ↓reduceIte, wp_modify, irqClearMask]
  refine trans_of World.Commands hw₁.2 ?_
  exact ⟨rfl, rfl, rfl, .of_sent_eq rfl⟩

/-- **With a keyboard selected, `setup_keyboard` fails no check and talks to it alone.** -/
theorem wp_setupKeyboard (hinit : w.kps.initialized = true)
    (hvec : w.vectors w.kps.activeInterruptVector = true) :
    wp setupKeyboard e w (fun _ w' => w.Commands w') fun _ _ => False := by
  simp only [setupKeyboard, wp_bind, wp_get, wp_assert, hinit, ↓reduceIte]
  refine wp_mono (commanding_disableKeyboard e w) (fun _ w₁ h₁ => ?_) fun _ _ h => h
  refine wp_mono (commanding_setScanCodeSet e w₁) (fun err w₂ h₂ => ?_) fun _ _ h => h
  have h₁₂ : w.Commands w₂ := trans_of _ h₁.2 h₂.2
  rw [wp_ite]
  split
  · exact h₁₂
  simp only [wp_bind]
  refine wp_mono (commanding_setupKeyboardExtra e w₂) (fun _ w₃ h₃ => ?_) fun _ _ h => h
  have h₁₃ : w.Commands w₃ := trans_of _ h₁₂ h₃.2
  have hvec₃ : w₃.vectors w₃.kps.activeInterruptVector = true := by
    rw [h₁₃.vectors, h₁₃.activeInterruptVector, hvec]
  exact wp_mono (wp_enableKeyboard hvec₃) (fun _ _ h₄ => trans_of _ h₁₃ h₄) fun _ _ h => h

/-- With none selected it stops at once. -/
theorem setupKeyboard_of_not_initialized (h : w.kps.initialized = false) :
    setupKeyboard e w = (.error .commandMustTargetKeyboard, w) := by
  simp [setupKeyboard, bind, Prog.get, Prog.assert, Prog.halt, h]

end Commands

/-! ## 5. What the boot leaves for the keyboard -/

/-- The device on the port identified as a keyboard. -/
def InitializeDeviceState.HoldsKeyboard (r : InitializeDeviceState) (port : UInt8) : Prop :=
  (port = 1 ∧ r.portOneDeviceType.map getDeviceSuperType = some .keyboard) ∨
  (port = 2 ∧ r.portTwoDeviceType.map getDeviceSuperType = some .keyboard)

/-- One keyboard and one mouse, or a single port with a keyboard. -/
def InitializeDeviceState.KeyboardFound (r : InitializeDeviceState) : Prop :=
  r.ps2StateErr = .none ∨
  (r.ps2StateErr = .noSecondPort ∧ r.portOneDeviceType.map getDeviceSuperType = some .keyboard)

/-- **The setup of the keyboard as it is meant**, from the state that the boot leaves: no check
    fails, bytes go to ports with a keyboard only, and with two keyboards one of the two ports was
    selected before. -/
structure KeyboardSetUp (e : Ps2Env) (r : InitializeDeviceState) (w : World) : Prop where
  returns : ∃ err w', setupKeyboard e w = (.ok err, w') ∧
    ∀ x ∈ sentBetween w w', r.HoldsKeyboard x.1
  selected : r.ps2StateErr = .twoKeyboard → w.kps.activePort = 1 ∨ w.kps.activePort = 2

/-- The keyboard's entry in `kps` after `handle_ps2_setup`. -/
structure KeyboardSelected (r : InitializeDeviceState) (k : KeyboardPortingState) : Prop where
  initialized : k.initialized = true
  vector : k.activeInterruptVector = interruptVectorOfPort k.activePort
  holds : r.HoldsKeyboard k.activePort

section Boot

variable {e : Ps2Env} {w : World} {r : InitializeDeviceState}

theorem holdsKeyboard_portOf {t₁ t₂ : DeviceType} (h₁ : r.portOneDeviceType = some t₁)
    (h₂ : r.portTwoDeviceType = some t₂) (hk₁ : (getDeviceSuperType t₁).Known)
    (hk₂ : (getDeviceSuperType t₂).Known) (hne : getDeviceSuperType t₁ ≠ getDeviceSuperType t₂) :
    r.HoldsKeyboard
      (keyboardAndMousePort (getDeviceSuperType t₁) (getDeviceSuperType t₂)).1 := by
  rcases keyboardAndMousePort_cases hk₁ hk₂ hne with ⟨hs₁, -, hpq⟩ | ⟨-, hs₂, hpq⟩
  · rw [hpq]
    exact Or.inl ⟨rfl, by rw [h₁, Option.map_some, hs₁]⟩
  · rw [hpq]
    exact Or.inr ⟨rfl, by rw [h₂, Option.map_some, hs₂]⟩

theorem not_keyboardFound (h : r.ps2StateErr ≠ .none) (h' : r.ps2StateErr ≠ .noSecondPort) :
    ¬ r.KeyboardFound := by
  intro hfound
  rcases hfound with hnone | ⟨hsecond, -⟩
  · exact h hnone
  · exact h' hsecond

/-- **`handle_ps2_setup` selects a keyboard exactly when one keyboard was found**, and takes no
    entry out of `vectors`. -/
theorem wp_handleDeviceStates_kps (hr : r.Consistent) :
    wp (handleDeviceStates r) e w
      (fun _ w' => (∀ v, w.vectors v = true → w'.vectors v = true) ∧
        (r.KeyboardFound ∧ KeyboardSelected r w'.kps ∨
          ¬ r.KeyboardFound ∧ w'.kps.initialized = w.kps.initialized))
      (fun _ _ => True) := by
  obtain ⟨err, internal, type₁, type₂⟩ := r
  cases err with
  | none =>
      obtain ⟨t₁, t₂, h₁, h₂, hk₁, hk₂, hne⟩ := hr
      refine wp_handlePs2SetupOneKeyboardOneMouse h₁ h₂ hk₁ hk₂ hne ?_
      refine wp_mono wp_quickEnableMouse (fun _ w₁ hvec w' _ hrouted hkeep => ?_) fun _ _ _ => trivial
      refine ⟨fun v hv => hkeep v (by rw [hvec, hv]), Or.inl ⟨Or.inl rfl, hrouted.initialized, ?_, ?_⟩⟩
      · rw [hrouted.activeInterruptVector, hrouted.activePort]
      · rw [hrouted.activePort]
        exact holdsKeyboard_portOf h₁ h₂ hk₁ hk₂ hne
  | noSecondPort =>
      obtain ⟨t₁, h₁, hk₁⟩ := hr
      simp only at h₁
      simp only [handleDeviceStates, handlePs2SetupOnePortOnly, h₁, Option.getD_some, wp_bind,
        wp_ask]
      rcases hk₁ with hk₁ | hk₁
      · rw [hk₁]
        have hmap : (some t₁).map getDeviceSuperType = some .keyboard := by rw [Option.map_some, hk₁]
        exact ⟨fun _ hv => hv, Or.inl ⟨Or.inr ⟨rfl, hmap⟩, rfl, rfl, Or.inl ⟨rfl, hmap⟩⟩⟩
      · rw [hk₁]
        refine ⟨fun _ hv => hv, Or.inr ⟨?_, rfl⟩⟩
        intro hfound
        rcases hfound with h | ⟨-, h⟩
        · cases h
        · rw [Option.map_some, hk₁] at h
          cases h
  | twoKeyboard | twoMouse =>
      refine ⟨fun _ hv => setVector_keeps (setVector_keeps hv), Or.inr ⟨?_, rfl⟩⟩
      exact not_keyboardFound (by simp) (by simp)
  | _ =>
      refine ⟨fun _ hv => hv, Or.inr ⟨?_, rfl⟩⟩
      exact not_keyboardFound (by simp) (by simp)

theorem idtInitLoops_ports (debug : Bool) :
    idtInitLoops debug ps2Port1InteruptVector = true ∧
      idtInitLoops debug ps2Port2InteruptVector = true := by
  cases debug <;> decide

/-- `idt_init` enables the vectors of both ports. -/
theorem wp_idtInit :
    wp idtInit e w
      (fun _ w' => w'.io = w.io ∧ w'.kps = w.kps ∧ w'.vectors ps2Port1InteruptVector = true ∧
        w'.vectors ps2Port2InteruptVector = true) fun _ _ => False := by
  obtain ⟨h₁, h₂⟩ := idtInitLoops_ports e.debug
  have hloops : ∀ v, idtInitLoops e.debug v = true →
      (idtInitLoops e.debug v || w.vectors v) = true := fun v hv => by rw [hv, Bool.true_or]
  exact ⟨rfl, rfl, hloops _ h₁, hloops _ h₂⟩

/-- **What the boot leaves**: the vectors of both ports are enabled, and a keyboard is selected
    exactly when one keyboard was found. -/
theorem wp_setupInterruptsAndPs2 {io₁ : Ps2Io} (hinit : w.kps.initialized = false)
    (hsetup : setupPs2Controller e w.io = (.ok r, io₁)) :
    wp setupInterruptsAndPs2 e w
      (fun _ w' => (w'.vectors ps2Port1InteruptVector = true ∧
          w'.vectors ps2Port2InteruptVector = true) ∧
        (r.KeyboardFound ∧ KeyboardSelected r w'.kps ∨
          ¬ r.KeyboardFound ∧ w'.kps.initialized = false))
      (fun _ _ => True) := by
  obtain ⟨hr, -⟩ := (wp_of_ok hsetup).mp (setupPs2Controller_consistent e w.io)
  simp only [setupInterruptsAndPs2, wp_bind]
  refine wp_mono wp_idtInit (fun _ w₁ hw₁ => ?_) fun _ _ h => h.elim
  obtain ⟨hio, hkps, hv₁, hv₂⟩ := hw₁
  rw [← hio] at hsetup
  simp only [picRemap, initializeIrqs, wp_modify, handlePs2Setup, controller, wp_bind, wp_on]
  rw [wp_of_ok hsetup]
  refine wp_mono (wp_handleDeviceStates_kps hr) (fun st w₂ hw₂ => ?_) fun _ _ h => h
  obtain ⟨hkeep, hsel⟩ := hw₂
  have hsel' : r.KeyboardFound ∧ KeyboardSelected r w₂.kps ∨
      ¬ r.KeyboardFound ∧ w₂.kps.initialized = false := by
    refine hsel.imp_right fun h => ⟨h.1, h.2.trans ?_⟩
    exact (congrArg KeyboardPortingState.initialized hkps).trans hinit
  -- the rest touches the interrupt lines and the timer's vector only
  cases st <;> exact ⟨⟨hkeep _ hv₁, hkeep _ hv₂⟩, hsel'⟩

/-- A selected keyboard is on one of the two ports, and `vectors` has its entry. -/
theorem KeyboardSelected.vectors_eq {k : KeyboardPortingState} {vectors : UInt8 → Bool}
    (h : KeyboardSelected r k) (h₁ : vectors ps2Port1InteruptVector = true)
    (h₂ : vectors ps2Port2InteruptVector = true) : vectors k.activeInterruptVector = true := by
  rw [h.vector]
  rcases h.holds with ⟨hport, -⟩ | ⟨hport, -⟩
  · rw [hport]
    exact h₁
  · rw [hport]
    exact h₂

theorem keyboardSetUp_of_selected (h : KeyboardSelected r w.kps)
    (hvec : w.vectors w.kps.activeInterruptVector = true) : KeyboardSetUp e r w := by
  constructor
  · obtain ⟨err, w', hrun, hcmd⟩ := exists_ok_of_wp (wp_setupKeyboard (e := e) h.initialized hvec)
    obtain ⟨l, hl, hport⟩ := hcmd.sends
    refine ⟨err, w', hrun, fun x hx => ?_⟩
    rw [sentBetween_of_append hl] at hx
    rw [hport x hx]
    exact h.holds
  · intro _
    exact h.holds.imp And.left And.left

theorem not_keyboardSetUp_of_not_initialized (h : w.kps.initialized = false) :
    ¬ KeyboardSetUp e r w := by
  intro hset
  obtain ⟨err, w', hrun, -⟩ := hset.returns
  rw [setupKeyboard_of_not_initialized h] at hrun
  cases hrun

/-- **The keyboard is set up after the boot exactly when one was found.** For every behaviour of
    the controller and of the devices for which the boot comes to `setup_keyboard`. -/
theorem setupKeyboard_iff {w₁ : World} {io₁ : Ps2Io}
    (hsetup : setupPs2Controller e World.start.io = (.ok r, io₁))
    (hboot : setupInterruptsAndPs2 e .start = (.ok (), w₁)) :
    KeyboardSetUp e r w₁ ↔ r.KeyboardFound := by
  obtain ⟨⟨hv₁, hv₂⟩, hsel⟩ := (wp_of_ok hboot).mp (wp_setupInterruptsAndPs2 rfl hsetup)
  rcases hsel with ⟨hfound, hkps⟩ | ⟨hfound, hkps⟩
  · exact iff_of_true (keyboardSetUp_of_selected hkps (hkps.vectors_eq hv₁ hv₂)) hfound
  · exact iff_of_false (not_keyboardSetUp_of_not_initialized hkps) hfound

end Boot

/-- A keyboard and a mouse. -/
theorem setupKeyboard_keyboard_and_mouse :
    KeyboardSetUp (bootEnv keyboardReplies mouseReplies 0xFA)
      ⟨.none, some .none, some .mf2Keyboard1, some .standardMouse⟩
      (setupInterruptsAndPs2 (bootEnv keyboardReplies mouseReplies 0xFA) .start).2 := by
  have hsetup : (setupPs2Controller (bootEnv keyboardReplies mouseReplies 0xFA)
      World.start.io).1 = .ok ⟨.none, some .none, some .mf2Keyboard1, some .standardMouse⟩ := by
    decide +kernel
  have hboot : (setupInterruptsAndPs2 (bootEnv keyboardReplies mouseReplies 0xFA) .start).1 =
      .ok () := by decide +kernel
  exact (setupKeyboard_iff (run_eq_of_fst hsetup) (run_eq_of_fst hboot)).mpr (Or.inl rfl)

/-- **Two mice stop the kernel**: nothing selected a keyboard, and `setup_keyboard` checks that. -/
theorem setupKeyboard_two_mice :
    ¬ ∀ (e : Ps2Env) (w₁ : World) (r : InitializeDeviceState) (io₁ : Ps2Io),
      setupPs2Controller e World.start.io = (.ok r, io₁) →
      setupInterruptsAndPs2 e .start = (.ok (), w₁) → KeyboardSetUp e r w₁ := by
  intro h
  have hsetup : (setupPs2Controller (bootEnv mouseReplies mouseReplies 0) World.start.io).1 =
      .ok ⟨.twoMouse, some .none, some .standardMouse, some .standardMouse⟩ := by
    decide +kernel
  have hboot : (setupInterruptsAndPs2 (bootEnv mouseReplies mouseReplies 0) .start).1 =
      .ok () := by decide +kernel
  have hhalt : (setupKeyboard (bootEnv mouseReplies mouseReplies 0)
      (setupInterruptsAndPs2 (bootEnv mouseReplies mouseReplies 0) .start).2).1 =
      .error .commandMustTargetKeyboard := by decide +kernel
  obtain ⟨⟨err, w', hrun, -⟩, -⟩ := h _ _ _ _ (run_eq_of_fst hsetup) (run_eq_of_fst hboot)
  rw [hrun] at hhalt
  cases hhalt

end MapleKernel.Drivers
