/-
  File:      Drivers/Ps2Controller.lean
  Subject:   THE PS/2 CONTROLLER (`ps2_controller.c`): waits, commands, device identification and
             the ten steps of `setup_ps2_controller`.

  Every read of the status or the data port takes the next answer of an arbitrary stream, so a
  statement about every stream covers every timing, every garbage byte and every timeout. Writes
  are recorded. The texts that the driver prints are left out.

  * `waitTillReadyForMoreInput`, `waitTillReadyForResponse` -- at most `MAX_PS2_WAIT_LOOP` reads;
  * `resetPortAndGetDeviceType` -- reset and identification of the device on a port;
  * `setupPs2Controller` -- the ten steps, with their early exits.
-/
import MapleKernel.Lib.Program

namespace MapleKernel.Drivers

open Program

/-! ## 1. Devices and errors -/

/-- `enum ps2_controller_error_code`, the values that are used. `device_rep3_invalid` and
    `device_rep4_invalid` are one value, 10. -/
inductive Ps2Error where
  | none | invalidPortNumber | waitMaxIttIn | waitMaxIttOut
  | invalidTestPortResponse | invalidTestControllerResponse | invalidConfigurationByte
  | statusParity | statusTimeout
  | deviceCommandFailedToAcknowledge | deviceCommandFailedSelfTest | deviceRepInvalid
  | warnInvalidConfigurationBytePostIsZero | warnA20LineNotSet
  deriving DecidableEq, Repr

/-- `enum ps2_device_type`. An invalid reply is stored as it is. -/
inductive DeviceType where
  | ancientAtKeyboard | standardMouse | mouseWithScrollWheel | mouseWith5Button
  | mf2Keyboard1 | mf2Keyboard2 | shortKeyboard | key122HostConnected | key122
  | japaneseGKeyboard | japanesePKeyboard | japaneseAKeyboard | ncdSunLayoutKeyboard
  | other (raw : UInt8)
  deriving DecidableEq, Repr

/-- `enum ps2_device_super_type`. -/
inductive DeviceSuperType where
  | unknown | keyboard | mouse
  deriving DecidableEq, Repr

def getDeviceSuperType : DeviceType → DeviceSuperType
  | .ancientAtKeyboard => .keyboard
  | .mf2Keyboard1 => .keyboard
  | .mf2Keyboard2 => .keyboard
  | .shortKeyboard => .keyboard
  | .key122HostConnected => .keyboard
  | .key122 => .keyboard
  | .japaneseGKeyboard => .keyboard
  | .japanesePKeyboard => .keyboard
  | .japaneseAKeyboard => .keyboard
  | .ncdSunLayoutKeyboard => .keyboard
  | .standardMouse => .mouse
  | .mouseWithScrollWheel => .mouse
  | .mouseWith5Button => .mouse
  | .other _ => .unknown

/-- The C enumerator with the value `raw`. -/
def DeviceType.ofRaw (raw : UInt8) : DeviceType :=
  match raw.toNat with
  | 0 => .ancientAtKeyboard
  | 1 => .standardMouse
  | 2 => .mouseWithScrollWheel
  | 3 => .mouseWith5Button
  | 4 => .mf2Keyboard1
  | 5 => .mf2Keyboard2
  | 6 => .shortKeyboard
  | 7 => .key122HostConnected
  | 8 => .key122
  | 9 => .japaneseGKeyboard
  | 10 => .japanesePKeyboard
  | 11 => .japaneseAKeyboard
  | 12 => .ncdSunLayoutKeyboard
  | _ => .other raw

/-- The places where the PS/2 code stops the kernel: an `abort_msg` or a failed `assert`. -/
inductive Ps2Halt where
  | impossibleDevice1SuperType | impossibleDevice2SuperType
  | logicallyImpossible | bothTheSame | notTreated
  | mousePortOutOfRange | keyboardPortOutOfRange | oneDevicePerPort
  | mouseError | mouseMustWork
  | commandMustTargetKeyboard | invalidScanCodeSet | keyOutsideTable | entryNeverEnabled
  | invalidCommand
  deriving DecidableEq, Repr

/-! ## 2. The ports -/

/-- What the outside decides: the answers to the reads in order, the build flags `QEMU` and
    `DEBUG`, and what a field that was never assigned holds. -/
structure Ps2Env where
  answers : Nat → UInt8
  qemu : Bool
  debug : Bool
  unassigned : DeviceType

inductive Ps2IoPort where
  | data | command
  deriving DecidableEq, Repr

structure PortWrite where
  port : Ps2IoPort
  byte : UInt8
  deriving DecidableEq, Repr

/-- One access to a port: a read of the status or of the data port with its answer, or a write. -/
inductive PortEvent where
  | status (value : UInt8)
  | response (value : UInt8)
  | write (w : PortWrite)
  deriving DecidableEq, Repr

/-- The traffic with the controller. `responses`, `sent` and `log` are ghost data: the bytes read
    from the data port, the bytes addressed to the device on a port, and all accesses, in order. -/
structure Ps2Io where
  reads : Nat
  responses : List UInt8
  writes : List PortWrite
  sent : List (UInt8 × UInt8)
  log : List PortEvent
  deriving DecidableEq, Repr

abbrev Controller := Prog Ps2Env Ps2Io Ps2Halt

def readPs2Status : Controller UInt8 := fun e io =>
  (.ok (e.answers io.reads),
    { io with reads := io.reads + 1, log := io.log ++ [.status (e.answers io.reads)] })

/-- `ps2_recieve_raw_response`. -/
def ps2RecieveRawResponse : Controller UInt8 := fun e io =>
  (.ok (e.answers io.reads),
    { io with
      reads := io.reads + 1
      responses := io.responses ++ [e.answers io.reads]
      log := io.log ++ [.response (e.answers io.reads)] })

def outb (port : Ps2IoPort) (byte : UInt8) : Controller Unit :=
  Prog.modify fun io =>
    { io with writes := io.writes ++ [⟨port, byte⟩], log := io.log ++ [.write ⟨port, byte⟩] }

/-- A byte for the device on a port goes through the data port. -/
def outbDevice (portNumber data : UInt8) : Controller Unit := do
  outb .data data
  Prog.modify fun io => { io with sent := io.sent ++ [(portNumber, data)] }

/-! ## 3. Waits -/

def maxPs2WaitLoop : Nat := 1000

def isPs2ControllerReadyForMoreInput (status : UInt8) : Bool := !status.toNat.testBit 1

def isPs2ControllerReadyForResponse (status : UInt8) : Bool := status.toNat.testBit 0

def ps2VerifyStatusTimeout (status : UInt8) : Bool := !status.toNat.testBit 6

def ps2VerifyStatusParity (status : UInt8) : Bool := !status.toNat.testBit 7

/-- The loop of the waits: the first ready status of at most `n` reads. -/
def waitLoop (ready : UInt8 → Bool) : Nat → Controller (Option UInt8)
  | 0 => pure none
  | n + 1 => do
      let status ← readPs2Status
      if ready status then return some status
      waitLoop ready n

def waitTillReadyForMoreInput : Controller Ps2Error := do
  match ← waitLoop isPs2ControllerReadyForMoreInput maxPs2WaitLoop with
  | none => return .waitMaxIttIn
  | some status =>
      if !ps2VerifyStatusParity status then return .statusParity
      if !ps2VerifyStatusTimeout status then return .statusTimeout
      return .none

def waitTillReadyForResponse : Controller Ps2Error := do
  match ← waitLoop isPs2ControllerReadyForResponse maxPs2WaitLoop with
  | none => return .waitMaxIttOut
  | some _ => return .none

/-! ## 4. Commands -/

/-- The commands of `enum PS2_CommandByte` that the driver sends. -/
inductive CommandByte where
  | readByte0 | writeNextToByte0
  | disableSecondPs2Port | enableSecondPs2Port | testSecondPs2Port
  | testPs2Controller | testFirstPs2Port | disableFirstPs2Port | enableFirstPs2Port
  | writeNextByteToSecondPs2InputBuffer
  deriving DecidableEq, Repr

def CommandByte.value : CommandByte → UInt8
  | .readByte0 => 0x20
  | .writeNextToByte0 => 0x60
  | .disableSecondPs2Port => 0xA7
  | .enableSecondPs2Port => 0xA8
  | .testSecondPs2Port => 0xA9
  | .testPs2Controller => 0xAA
  | .testFirstPs2Port => 0xAB
  | .disableFirstPs2Port => 0xAD
  | .enableFirstPs2Port => 0xAE
  | .writeNextByteToSecondPs2InputBuffer => 0xD4

def sendCommandToPs2Controller (command : CommandByte) : Controller Ps2Error := do
  let err ← waitTillReadyForMoreInput
  if err ≠ .none then return err
  outb .command command.value
  return .none

/-- An error with a response. Where no byte was read, `response` is 0 and no caller uses it. -/
structure VerifiedResponse where
  err : Ps2Error
  response : UInt8
  deriving DecidableEq, Repr

/-- The `send_command_..._response` functions: command, wait, read, and the check of the byte. -/
def sendCommandVerifiedResponse (verify : UInt8 → Ps2Error) (command : CommandByte) :
    Controller VerifiedResponse := do
  let err ← sendCommandToPs2Controller command
  if err ≠ .none then return ⟨err, 0⟩
  let err ← waitTillReadyForResponse
  if err ≠ .none then return ⟨err, 0⟩
  let rawResponse ← ps2RecieveRawResponse
  return ⟨verify rawResponse, rawResponse⟩

structure ConfigurationByte where
  firstPs2PortEnabled : Bool
  secondPs2PortEnabled : Bool
  systemFlagPassedPostOne : Bool
  zero1 : Bool
  firstPs2PortClockDisabled : Bool
  secondPs2PortClockDisabled : Bool
  firstPs2PortTranslationEnabled : Bool
  zero2 : Bool
  deriving DecidableEq, Repr

/-- `ps2_configuration_byte_uts.bits`. -/
def ConfigurationByte.ofRaw (raw : UInt8) : ConfigurationByte where
  firstPs2PortEnabled := raw.toNat.testBit 0
  secondPs2PortEnabled := raw.toNat.testBit 1
  systemFlagPassedPostOne := raw.toNat.testBit 2
  zero1 := raw.toNat.testBit 3
  firstPs2PortClockDisabled := raw.toNat.testBit 4
  secondPs2PortClockDisabled := raw.toNat.testBit 5
  firstPs2PortTranslationEnabled := raw.toNat.testBit 6
  zero2 := raw.toNat.testBit 7

/-- `ps2_configuration_byte_uts.raw`. -/
def ConfigurationByte.raw (c : ConfigurationByte) : UInt8 :=
  c.firstPs2PortEnabled.toUInt8 + 2 * c.secondPs2PortEnabled.toUInt8 +
    4 * c.systemFlagPassedPostOne.toUInt8 + 8 * c.zero1.toUInt8 +
    16 * c.firstPs2PortClockDisabled.toUInt8 + 32 * c.secondPs2PortClockDisabled.toUInt8 +
    64 * c.firstPs2PortTranslationEnabled.toUInt8 + 128 * c.zero2.toUInt8

/-- The source tests `zero1` twice and `zero2` not at all. -/
def ps2VerifyConfigurationByteResponse (raw : UInt8) : Ps2Error :=
  let bits := ConfigurationByte.ofRaw raw
  if bits.zero1 || bits.zero1 then .invalidConfigurationByte
  else if !bits.systemFlagPassedPostOne then .warnInvalidConfigurationBytePostIsZero
  else .none

def ps2VerifyTestPortResponse (raw : UInt8) : Ps2Error :=
  if raw ≤ 0x04 then .none else .invalidTestPortResponse

def ps2TcrPassed : UInt8 := 0x55
def ps2TcrFailed : UInt8 := 0xFC
def ps2TprPassed : UInt8 := 0x00

def ps2VerifyTestControllerResponse (raw : UInt8) : Ps2Error :=
  if raw = ps2TcrPassed ∨ raw = ps2TcrFailed then .none else .invalidTestControllerResponse

def ps2GetConfigurationByte : Controller VerifiedResponse :=
  sendCommandVerifiedResponse ps2VerifyConfigurationByteResponse .readByte0

def ps2TestFirstPs2Port : Controller VerifiedResponse :=
  sendCommandVerifiedResponse ps2VerifyTestPortResponse .testFirstPs2Port

def ps2TestSecondPs2Port : Controller VerifiedResponse :=
  sendCommandVerifiedResponse ps2VerifyTestPortResponse .testSecondPs2Port

def ps2PerformControllerSelfTest : Controller VerifiedResponse :=
  sendCommandVerifiedResponse ps2VerifyTestControllerResponse .testPs2Controller

def ps2SetConfigurationByte (config : ConfigurationByte) : Controller Ps2Error := do
  let err ← sendCommandToPs2Controller .writeNextToByte0
  if err ≠ .none then return err
  let err ← waitTillReadyForMoreInput
  if err ≠ .none then return err
  outb .data config.raw
  return .none

def ps2DisableFirstPs2Port : Controller Ps2Error := sendCommandToPs2Controller .disableFirstPs2Port

def ps2DisableSecondPs2Port : Controller Ps2Error :=
  sendCommandToPs2Controller .disableSecondPs2Port

def ps2EnableFirstPs2Port : Controller Ps2Error := sendCommandToPs2Controller .enableFirstPs2Port

def ps2EnableSecondPs2Port : Controller Ps2Error := sendCommandToPs2Controller .enableSecondPs2Port

def sendCommandToFirstPs2Port (data : UInt8) : Controller Ps2Error := do
  let err ← waitTillReadyForMoreInput
  if err ≠ .none then return err
  outbDevice 1 data
  return .none

def sendCommandToSecondPs2Port (data : UInt8) : Controller Ps2Error := do
  let err ← waitTillReadyForMoreInput
  if err ≠ .none then return err
  outb .command CommandByte.writeNextByteToSecondPs2InputBuffer.value
  let err ← waitTillReadyForMoreInput
  if err ≠ .none then return err
  outbDevice 2 data
  return .none

def sendCommandOrDataToPs2Port (portNumber data : UInt8) : Controller Ps2Error :=
  if portNumber = 1 then sendCommandToFirstPs2Port data
  else if portNumber = 2 then sendCommandToSecondPs2Port data
  else pure .invalidPortNumber

/-! ## 5. Identification -/

def deviceCommandAcknoledged : UInt8 := 0xFA
def deviceCommandSelfTestPassed : UInt8 := 0xAA
def ps2CbResetDevice : UInt8 := 0xFF

/-- `struct ps2_device_type_verified`; `none` is a field that was never assigned. -/
structure DeviceTypeVerified where
  err : Ps2Error
  type : Option DeviceType
  mouseOrKeyboard : Option DeviceSuperType
  deriving DecidableEq, Repr

def DeviceTypeVerified.failed (err : Ps2Error) : DeviceTypeVerified := ⟨err, none, none⟩

/-- The third reply of a device that is not a keyboard with an identification. -/
def len3Device (rep3 : UInt8) : DeviceTypeVerified :=
  match rep3.toNat with
  | 0x00 => ⟨.none, some .standardMouse, some .mouse⟩
  | 0x03 => ⟨.none, some .mouseWithScrollWheel, some .mouse⟩
  | 0x04 => ⟨.none, some .mouseWith5Button, some .mouse⟩
  | _ => ⟨.deviceRepInvalid, some (.ofRaw rep3), some .mouse⟩

/-- The reply after `0xAB`. -/
def len4Device (rep4 : UInt8) : DeviceTypeVerified :=
  match rep4.toNat with
  | 0x83 => ⟨.none, some .mf2Keyboard1, some .keyboard⟩
  | 0x41 => ⟨.none, some .mf2Keyboard1, some .keyboard⟩
  | 0xC1 => ⟨.none, some .mf2Keyboard2, some .keyboard⟩
  | 0x84 => ⟨.none, some .shortKeyboard, some .keyboard⟩
  | 0x54 => ⟨.none, some .shortKeyboard, some .keyboard⟩
  | 0x85 => ⟨.none, some .key122HostConnected, some .keyboard⟩
  | 0x86 => ⟨.none, some .key122, some .keyboard⟩
  | 0x90 => ⟨.none, some .japaneseGKeyboard, some .keyboard⟩
  | 0x91 => ⟨.none, some .japanesePKeyboard, some .keyboard⟩
  | 0x92 => ⟨.none, some .japaneseAKeyboard, some .keyboard⟩
  | 0xA1 => ⟨.none, some .ncdSunLayoutKeyboard, some .keyboard⟩
  | _ => ⟨.deviceRepInvalid, some (.ofRaw rep4), some .keyboard⟩

def resetPortAndGetDeviceType (portNumber : UInt8) : Controller DeviceTypeVerified := do
  let err ← sendCommandOrDataToPs2Port portNumber ps2CbResetDevice
  if err ≠ .none then return .failed err
  let err ← waitTillReadyForResponse
  if err ≠ .none then return .failed err
  let rep1 ← ps2RecieveRawResponse
  if rep1 ≠ deviceCommandAcknoledged then return .failed .deviceCommandFailedToAcknowledge
  let err ← waitTillReadyForResponse
  if err ≠ .none then return .failed err
  let rep2 ← ps2RecieveRawResponse
  if rep2 ≠ deviceCommandSelfTestPassed then return .failed .deviceCommandFailedSelfTest
  let err ← waitTillReadyForResponse
  -- no third reply: an ancient AT keyboard
  if err ≠ .none then return ⟨.none, some .ancientAtKeyboard, some .keyboard⟩
  let rep3 ← ps2RecieveRawResponse
  if rep3 ≠ 0xAB then return len3Device rep3
  let err ← waitTillReadyForResponse
  if err ≠ .none then return .failed err
  let rep4 ← ps2RecieveRawResponse
  return len4Device rep4

/-! ## 6. The setup -/

/-- `enum` of `ps2_state_err`. -/
inductive InitError where
  | none | twoKeyboard | twoMouse | noSecondPort
  | couldNotInit | ps2ControllerDoesNotExist | controllerSelfTestFailed
  | firstPortSelfTestFailed | secondPortSelfTestFailed
  | couldNotResetDevice1 | couldNotResetDevice2 | usbError
  deriving DecidableEq, Repr

/-- `struct ps2_initialize_device_state`; `none` is a field that was never assigned. -/
structure InitializeDeviceState where
  ps2StateErr : InitError
  internalErr : Option Ps2Error
  portOneDeviceType : Option DeviceType
  portTwoDeviceType : Option DeviceType
  deriving DecidableEq, Repr

/-- An exit before any device was identified. -/
def InitializeDeviceState.exit (err : InitError) (internal : Option Ps2Error) :
    InitializeDeviceState := ⟨err, internal, none, none⟩

def InitializeDeviceState.couldNotInit (err : Ps2Error) : InitializeDeviceState :=
  .exit .couldNotInit (some err)

/-- `enum usb_cont_error_code` of `usb_controller.c`: both functions return `USB_CONT_ERR_none`. -/
def initializeUsbControllers : Bool := false
def disableLegacyUsbSupport : Bool := false

/-- `acpi.c`. -/
def doesPs2ControllerExist : Bool := true

/-- Step 5: the configuration byte. A cleared POST bit is an error outside QEMU. -/
def setupConfiguration : Controller (Option Ps2Error) := do
  let vrCb ← ps2GetConfigurationByte
  let e ← Prog.ask
  if vrCb.err ≠ .none ∧ ¬ (vrCb.err = .warnInvalidConfigurationBytePostIsZero ∧ e.qemu) then
    return some vrCb.err
  let bits := ConfigurationByte.ofRaw vrCb.response
  let bits := { bits with
    systemFlagPassedPostOne := bits.systemFlagPassedPostOne || e.qemu
    firstPs2PortEnabled := false
    firstPs2PortTranslationEnabled := false
    firstPs2PortClockDisabled := false }
  let err ← ps2SetConfigurationByte bits
  if err ≠ .none then return some err
  return none

/-- Step 7: is there a second port? If so it is set up, disabled. -/
def setupSecondPort : Controller (Except Ps2Error Bool) := do
  let err ← ps2EnableSecondPs2Port
  if err ≠ .none then return .error err
  let vrCb ← ps2GetConfigurationByte
  if vrCb.err ≠ .none then return .error vrCb.err
  let secondPortSupported := !(ConfigurationByte.ofRaw vrCb.response).secondPs2PortClockDisabled
  let err ← ps2DisableSecondPs2Port
  if err ≠ .none then return .error err
  if secondPortSupported then
    let vrCb ← ps2GetConfigurationByte
    if vrCb.err ≠ .none then return .error vrCb.err
    let bits := { ConfigurationByte.ofRaw vrCb.response with
      secondPs2PortClockDisabled := false
      secondPs2PortEnabled := false }
    let err ← ps2SetConfigurationByte bits
    if err ≠ .none then return .error err
    return .ok true
  return .ok false

/-- Step 8: the interface tests. -/
def setupInterfaceTests : Controller (Option InitializeDeviceState) := do
  let test ← ps2TestFirstPs2Port
  if test.err ≠ .none then return some (.couldNotInit test.err)
  if test.response ≠ ps2TprPassed then return some (.exit .firstPortSelfTestFailed none)
  let test ← ps2TestSecondPs2Port
  if test.err ≠ .none then return some (.couldNotInit test.err)
  if test.response ≠ ps2TprPassed then return some (.exit .secondPortSelfTestFailed none)
  return none

/-- Step 9: both ports and their interrupts are enabled. -/
def setupEnableDevices : Controller (Option Ps2Error) := do
  let err ← ps2EnableFirstPs2Port
  if err ≠ .none then return some err
  let err ← ps2EnableSecondPs2Port
  if err ≠ .none then return some err
  let vrCb ← ps2GetConfigurationByte
  if vrCb.err ≠ .none then return some vrCb.err
  let bits := { ConfigurationByte.ofRaw vrCb.response with
    firstPs2PortEnabled := true
    secondPs2PortEnabled := true }
  let err ← ps2SetConfigurationByte bits
  if err ≠ .none then return some err
  return none

/-- Step 10: the devices are reset, identified and counted. -/
def setupDevices (secondPortSupported : Bool) : Controller InitializeDeviceState := do
  let device1 ← resetPortAndGetDeviceType 1
  if device1.err ≠ .none then
    return .exit .couldNotResetDevice1 (some device1.err)
  if device1.mouseOrKeyboard ≠ some .keyboard ∧ device1.mouseOrKeyboard ≠ some .mouse then
    Prog.halt .impossibleDevice1SuperType
  if !secondPortSupported then
    return ⟨.noSecondPort, some .none, device1.type, none⟩
  let device2 ← resetPortAndGetDeviceType 2
  if device2.err ≠ .none then
    return ⟨.couldNotResetDevice2, some device2.err, device1.type, none⟩
  if device2.mouseOrKeyboard ≠ some .keyboard ∧ device2.mouseOrKeyboard ≠ some .mouse then
    Prog.halt .impossibleDevice2SuperType
  let superTypes := [device1.mouseOrKeyboard, device2.mouseOrKeyboard]
  let keyboardCount := superTypes.count (some .keyboard)
  let mouseCount := superTypes.count (some .mouse)
  let err : InitError :=
    if keyboardCount = 2 then .twoKeyboard
    else if mouseCount = 2 then .twoMouse
    else .none
  return ⟨err, some .none, device1.type, device2.type⟩

def setupPs2Controller : Controller InitializeDeviceState := do
  if initializeUsbControllers then return .exit .usbError none
  if disableLegacyUsbSupport then return .exit .usbError none
  if !doesPs2ControllerExist then return .exit .ps2ControllerDoesNotExist none
  -- step 3
  let err ← ps2DisableFirstPs2Port
  if err ≠ .none then return .couldNotInit err
  let err ← ps2DisableSecondPs2Port
  if err ≠ .none then return .couldNotInit err
  -- step 4: the output buffer is flushed
  let _ ← ps2RecieveRawResponse
  if let some err ← setupConfiguration then return .couldNotInit err
  -- step 6
  let test ← ps2PerformControllerSelfTest
  if test.err ≠ .none then return .couldNotInit test.err
  if test.response ≠ ps2TcrPassed then return .exit .controllerSelfTestFailed none
  match ← setupSecondPort with
  | .error err => return .couldNotInit err
  | .ok secondPortSupported =>
      if let some ret ← setupInterfaceTests then return ret
      if let some err ← setupEnableDevices then return .couldNotInit err
      setupDevices secondPortSupported

end MapleKernel.Drivers
