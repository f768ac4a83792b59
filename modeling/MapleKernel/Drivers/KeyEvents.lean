/-
  File:      Drivers/KeyEvents.lean
  Subject:   HELD KEYS (`ps2_keyboard_handler.c`, `keycodes.cpp`): the three parse functions, their
             tables and the calls of `keycode_handler`.

  `parse_scan_code`, `parse_extended_scan_code` and `parse_print_screen` each keep a table of the
  keys that are down. On a press they run the function tied to the key, take the modifier
  snapshot, call `keycode_handler` and then set the table; on a release the first two clear the
  table before the snapshot, the third one after the call.

  * `parseScanCode`, `parseExtendedScanCode`, `parsePrintScreen`, `keycodeHandler` -- the
    functions; `handlerCalls` is ghost data, the calls of `keycode_handler` in order;
  * `parse_step` -- what one event does to the held keys, and its one call;
  * `heldKeys_bookkeeping` -- over every history: the tables are the keys whose last event was a
    press, and the calls are one for each event, with the first press and the modifiers that the
    history says.
-/
import MapleKernel.Lib.Run
import MapleKernel.Lib.LastWrite
import MapleKernel.Drivers.KeyCodes

namespace MapleKernel.Drivers

open Runs LastWrite

/-! ## 1. The keyboard's state -/

abbrev scancodeLen : Nat := 0x59
abbrev extendedScancodeLen : Nat := 0x6E

/-- A key of one of the three tables. Plain and extended codes share their numbers. -/
inductive TableKey where
  | plain (code : Fin scancodeLen)
  | extended (code : Fin extendedScancodeLen)
  | printScreen
  deriving DecidableEq

/-- `kcb_led_state_t`, without its reserved bits. -/
structure LedState where
  scrollLock : Bool
  numberLock : Bool
  capsLock : Bool
  deriving DecidableEq, Repr

/-- `keycodes::KeyboardMode`. -/
inductive KeyboardMode where
  | typing | testing | application | typingApplication
  deriving DecidableEq, Repr

/-- The functions `set_key_function` is called with. -/
inductive KeyFunction where
  | nop | pressedA | pressedCapsLock | pressedNumLock | pressedScrollLock
  | pressedUp | pressedDown | pressedRight | pressedLeft | pressedR | pressedF
  deriving DecidableEq, Repr

/-- `key_functions` with `is_key_tied_to_function`, and the same for extended codes. -/
structure KeyFunctionTable where
  keyFunctions : Nat → KeyFunction
  isKeyTiedToFunction : Nat → Bool
  extendedKeyFunctions : Nat → KeyFunction
  isExtendedKeyTiedToFunction : Nat → Bool

/-- One call of `keycode_handler`. -/
structure KeycodeCall where
  keycode : KeyCode
  modState : KeyModifierState
  firstPress : Bool
  pressNotReleased : Bool
  deriving DecidableEq, Repr

/-- The line that `keycode_handler` prints in testing mode. -/
inductive TestingLine where
  | invalid | firstPress | repeatPress | release
  deriving DecidableEq, Repr

/-- What the functions do to the outside, in order. -/
inductive KeyEffect where
  | setLeds (leds : LedState)
  | terminalArrowUp | terminalArrowDown | terminalArrowRight | terminalArrowLeft
  | terminalCtrlR | terminalCtrlF
  | printKeycode (line : TestingLine) (keycode : KeyCode)
  | printChar (c : Char)
  deriving DecidableEq, Repr

structure KeyboardState where
  isKeyPressed : Fin scancodeLen → Bool
  isExtendedKeyPressed : Fin extendedScancodeLen → Bool
  isPrintScreenPressed : Bool
  ledKeys : LedState
  keyboardMode : KeyboardMode
  effects : List KeyEffect
  handlerCalls : List KeycodeCall

/-- No key is down, in any mode and with any LEDs. -/
def KeyboardState.allReleased (mode : KeyboardMode) (leds : LedState) : KeyboardState where
  isKeyPressed := fun _ => false
  isExtendedKeyPressed := fun _ => false
  isPrintScreenPressed := false
  ledKeys := leds
  keyboardMode := mode
  effects := []
  handlerCalls := []

/-- The three tables as one. -/
def KeyboardState.held (s : KeyboardState) : TableKey → Bool
  | .plain c => s.isKeyPressed c
  | .extended c => s.isExtendedKeyPressed c
  | .printScreen => s.isPrintScreenPressed

def scLeftCtrl : Fin scancodeLen := 0x1D
def scA : Fin scancodeLen := 0x1E
def scLeftShift : Fin scancodeLen := 0x2A
def scRightShift : Fin scancodeLen := 0x36
def scLeftAlt : Fin scancodeLen := 0x38
def scCapslock : Fin scancodeLen := 0x3A
def scScrolllock : Fin scancodeLen := 0x46
def sceRightCtrl : Fin extendedScancodeLen := 0x1D
def sceRightAlt : Fin extendedScancodeLen := 0x38
def sceLeftMeta : Fin extendedScancodeLen := 0x5B
def sceRightMeta : Fin extendedScancodeLen := 0x5C
def sceApps : Fin extendedScancodeLen := 0x5D

def isCtrlHeld (s : KeyboardState) : Bool :=
  s.isKeyPressed scLeftCtrl || s.isExtendedKeyPressed sceRightCtrl

/-- `get_current_mod_state`. -/
def getCurrentModState (s : KeyboardState) : KeyModifierState where
  leftShift := s.isKeyPressed scLeftShift
  rightShift := s.isKeyPressed scRightShift
  leftCtrl := s.isKeyPressed scLeftCtrl
  rightCtrl := s.isExtendedKeyPressed sceRightCtrl
  leftMeta := s.isExtendedKeyPressed sceLeftMeta
  rightMeta := s.isExtendedKeyPressed sceRightMeta
  menuApp := s.isExtendedKeyPressed sceApps
  alt := s.isKeyPressed scLeftAlt
  altgr := s.isExtendedKeyPressed sceRightAlt
  capslock := s.isKeyPressed scCapslock
  scrollLock := s.isKeyPressed scScrolllock

/-! ## 2. The functions -/

def KeyboardState.emit (s : KeyboardState) (e : KeyEffect) : KeyboardState :=
  { s with effects := s.effects ++ [e] }

/-- A LED key: the new state of the LEDs is stored and sent to the keyboard. -/
def KeyboardState.toggleLed (s : KeyboardState) (leds : LedState) : KeyboardState :=
  { s with ledKeys := leds }.emit (.setLeds leds)

/-- `ps2_keyboard_key_functions.c`. -/
def KeyFunction.call (f : KeyFunction) (s : KeyboardState) : KeyboardState :=
  match f with
  | .nop => s
  | .pressedA => s
  | .pressedCapsLock => s.toggleLed { s.ledKeys with capsLock := !s.ledKeys.capsLock }
  | .pressedNumLock => s.toggleLed { s.ledKeys with numberLock := !s.ledKeys.numberLock }
  | .pressedScrollLock => s.toggleLed { s.ledKeys with scrollLock := !s.ledKeys.scrollLock }
  | .pressedUp => s.emit .terminalArrowUp
  | .pressedDown => s.emit .terminalArrowDown
  | .pressedRight => s.emit .terminalArrowRight
  | .pressedLeft => s.emit .terminalArrowLeft
  | .pressedR => if isCtrlHeld s then s.emit .terminalCtrlR else s
  | .pressedF => if isCtrlHeld s then s.emit .terminalCtrlF else s

/-- What `keycode_handler` prints. -/
def keycodeEffects (mode : KeyboardMode) (c : KeycodeCall) : List KeyEffect :=
  let key := packKeycode c.keycode
  match mode with
  | .testing =>
      let line : TestingLine :=
        if key = Key.keyInvalid.value ∨ key = Key.keyNone.value ∨ key = Key.keyUnknown.value
        then .invalid
        else if c.firstPress then .firstPress
        else if c.pressNotReleased then .repeatPress
        else .release
      [.printKeycode line c.keycode]
  | .typing =>
      if !c.pressNotReleased then []
      else if (keyCharTable key).isPrintable then [.printChar (keyToChar key c.modState)]
      else []
  | .application => []
  | .typingApplication => []

/-- `keycode_handler`. -/
def keycodeHandler (c : KeycodeCall) (s : KeyboardState) : KeyboardState :=
  { s with effects := s.effects ++ keycodeEffects s.keyboardMode c,
           handlerCalls := s.handlerCalls ++ [c] }

section Parse

variable (fns : KeyFunctionTable)

def KeyboardState.setPlain (s : KeyboardState) (c : Fin scancodeLen) (b : Bool) : KeyboardState :=
  { s with isKeyPressed := Function.update s.isKeyPressed c b }

def KeyboardState.setExtended (s : KeyboardState) (c : Fin extendedScancodeLen) (b : Bool) :
    KeyboardState :=
  { s with isExtendedKeyPressed := Function.update s.isExtendedKeyPressed c b }

/-- `parse_scan_code`. -/
def parseScanCode (pressScancode : Fin scancodeLen) (pressed : Bool) (s : KeyboardState) :
    KeyboardState :=
  let keycode := scancodeToKeycode pressScancode
  if pressed then
    let s := if fns.isKeyTiedToFunction pressScancode
      then (fns.keyFunctions pressScancode).call s else s
    let firstPress := !s.isKeyPressed pressScancode
    (keycodeHandler ⟨keycode, getCurrentModState s, firstPress, true⟩ s).setPlain
      pressScancode true
  else
    let s := s.setPlain pressScancode false
    keycodeHandler ⟨keycode, getCurrentModState s, false, false⟩ s

/-- `parse_extended_scan_code`. -/
def parseExtendedScanCode (pressScancode : Fin extendedScancodeLen) (pressed : Bool)
    (s : KeyboardState) : KeyboardState :=
  let keycode := extendedScancodeToKeycode pressScancode
  if pressed then
    let s := if fns.isExtendedKeyTiedToFunction pressScancode
      then (fns.extendedKeyFunctions pressScancode).call s else s
    let firstPress := !s.isExtendedKeyPressed pressScancode
    (keycodeHandler ⟨keycode, getCurrentModState s, firstPress, true⟩ s).setExtended
      pressScancode true
  else
    let s := s.setExtended pressScancode false
    keycodeHandler ⟨keycode, getCurrentModState s, false, false⟩ s

/-- `parse_print_screen`. -/
def parsePrintScreen (pressed : Bool) (s : KeyboardState) : KeyboardState :=
  let call : KeycodeCall := if pressed
    then ⟨printScreenToKeycode, getCurrentModState s, !s.isPrintScreenPressed, true⟩
    else ⟨printScreenToKeycode, getCurrentModState s, false, false⟩
  { keycodeHandler call s with isPrintScreenPressed := pressed }

/-- `parse_pause_pressed`. -/
def parsePausePressed (s : KeyboardState) : KeyboardState :=
  keycodeHandler ⟨pauseToKeycode, getCurrentModState s, true, true⟩ s

/-- One key event: a press (first or repeated) or a release of a key. -/
structure ParseEvent where
  key : TableKey
  pressed : Bool
  deriving DecidableEq

/-- The call of a parse function that an event stands for. -/
def parse (s : KeyboardState) (e : ParseEvent) : KeyboardState :=
  match e.key with
  | .plain c => parseScanCode fns c e.pressed s
  | .extended c => parseExtendedScanCode fns c e.pressed s
  | .printScreen => parsePrintScreen e.pressed s

/-! ## 3. One event -/

/-- The modifiers among the held keys. -/
def modifiersOf (held : TableKey → Bool) : KeyModifierState where
  leftShift := held (.plain scLeftShift)
  rightShift := held (.plain scRightShift)
  leftCtrl := held (.plain scLeftCtrl)
  rightCtrl := held (.extended sceRightCtrl)
  leftMeta := held (.extended sceLeftMeta)
  rightMeta := held (.extended sceRightMeta)
  menuApp := held (.extended sceApps)
  alt := held (.plain scLeftAlt)
  altgr := held (.extended sceRightAlt)
  capslock := held (.plain scCapslock)
  scrollLock := held (.plain scScrolllock)

def TableKey.keycode : TableKey → KeyCode
  | .plain c => scancodeToKeycode c
  | .extended c => extendedScancodeToKeycode c
  | .printScreen => printScreenToKeycode

/-- The call an event should make, from the keys held before and after it. -/
def specCall (before after : TableKey → Bool) (e : ParseEvent) : KeycodeCall where
  keycode := e.key.keycode
  modState := modifiersOf (if e.pressed then before else after)
  firstPress := e.pressed && !before e.key
  pressNotReleased := e.pressed

theorem getCurrentModState_eq (s : KeyboardState) :
    getCurrentModState s = modifiersOf s.held := rfl

/-- A key function changes no table and calls no handler. -/
theorem KeyFunction.call_frame (f : KeyFunction) (s : KeyboardState) :
    (f.call s).held = s.held ∧ (f.call s).handlerCalls = s.handlerCalls ∧
      (f.call s).keyboardMode = s.keyboardMode := by
  have hsame : ∀ s' : KeyboardState, s'.isKeyPressed = s.isKeyPressed →
      s'.isExtendedKeyPressed = s.isExtendedKeyPressed →
      s'.isPrintScreenPressed = s.isPrintScreenPressed → s'.held = s.held := by
    intro s' h1 h2 h3
    funext k
    cases k with
    | plain c => exact congrFun h1 c
    | extended c => exact congrFun h2 c
    | printScreen => exact h3
  cases f with
  | pressedR | pressedF =>
      unfold KeyFunction.call
      dsimp only
      split <;> exact ⟨hsame _ rfl rfl rfl, rfl, rfl⟩
  | _ => exact ⟨hsame _ rfl rfl rfl, rfl, rfl⟩

@[simp] theorem keycodeHandler_held (c : KeycodeCall) (s : KeyboardState) :
    (keycodeHandler c s).held = s.held := by
  funext k
  cases k <;> rfl

@[simp] theorem setPlain_held (s : KeyboardState) (c : Fin scancodeLen) (b : Bool) :
    (s.setPlain c b).held = Function.update s.held (.plain c) b := by
  funext k
  rw [Function.update_apply]
  cases k with
  | plain d =>
      show Function.update s.isKeyPressed c b d = _
      rw [Function.update_apply]
      simp only [TableKey.plain.injEq]
      rfl
  | extended d => rfl
  | printScreen => rfl

@[simp] theorem setExtended_held (s : KeyboardState) (c : Fin extendedScancodeLen) (b : Bool) :
    (s.setExtended c b).held = Function.update s.held (.extended c) b := by
  funext k
  rw [Function.update_apply]
  cases k with
  | plain d => rfl
  | extended d =>
      show Function.update s.isExtendedKeyPressed c b d = _
      rw [Function.update_apply]
      simp only [TableKey.extended.injEq]
      rfl
  | printScreen => rfl

theorem tied_frame (tied : Bool) (f : KeyFunction) (s : KeyboardState) :
    (if tied then f.call s else s).held = s.held ∧
      (if tied then f.call s else s).handlerCalls = s.handlerCalls := by
  cases tied with
  | true => exact ⟨(f.call_frame s).1, (f.call_frame s).2.1⟩
  | false => exact ⟨rfl, rfl⟩

/-- A press, after the function tied to the key took `s` to `t` and the table was set in `u`. -/
theorem press_step {s t u : KeyboardState} {key : TableKey} (hheld : t.held = s.held)
    (hcalls : t.handlerCalls = s.handlerCalls) (hset : u.held = Function.update t.held key true)
    (hcall : u.handlerCalls =
      t.handlerCalls ++ [⟨key.keycode, getCurrentModState t, !t.held key, true⟩]) :
    u.held = Function.update s.held key true ∧
      u.handlerCalls = s.handlerCalls ++ [specCall s.held u.held ⟨key, true⟩] := by
  refine ⟨?_, ?_⟩
  · rw [hset, hheld]
  · rw [hcall, hcalls, getCurrentModState_eq, hheld]
    rfl

/-- **One event**: its key is held exactly if it was pressed, the other keys are as before, and
    `keycode_handler` was called once, with what the held keys say. -/
theorem parse_step (s : KeyboardState) (e : ParseEvent) :
    (parse fns s e).held = Function.update s.held e.key e.pressed ∧
      (parse fns s e).handlerCalls
        = s.handlerCalls ++ [specCall s.held (parse fns s e).held e] := by
  obtain ⟨key, pressed⟩ := e
  cases key with
  | plain c =>
      cases pressed with
      | true =>
          obtain ⟨hheld, hcalls⟩ :=
            tied_frame (fns.isKeyTiedToFunction c) (fns.keyFunctions c) s
          refine press_step hheld hcalls ?_ rfl
          exact (setPlain_held _ c true).trans (by rw [keycodeHandler_held])
      | false =>
          refine ⟨?_, ?_⟩
          · exact (keycodeHandler_held _ _).trans (setPlain_held s c false)
          · rfl
  | extended c =>
      cases pressed with
      | true =>
          obtain ⟨hheld, hcalls⟩ :=
            tied_frame (fns.isExtendedKeyTiedToFunction c) (fns.extendedKeyFunctions c) s
          refine press_step hheld hcalls ?_ rfl
          exact (setExtended_held _ c true).trans (by rw [keycodeHandler_held])
      | false =>
          refine ⟨?_, ?_⟩
          · exact (keycodeHandler_held _ _).trans (setExtended_held s c false)
          · rfl
  | printScreen =>
      refine ⟨?_, ?_⟩
      · funext k
        rw [Function.update_apply]
        cases k <;> rfl
      · cases pressed <;> rfl

/-- **Pause changes no table**: it has no release, and every press of it is a first press. -/
theorem parsePausePressed_step (s : KeyboardState) :
    (parsePausePressed s).held = s.held ∧
      (parsePausePressed s).handlerCalls
        = s.handlerCalls ++ [⟨pauseToKeycode, modifiersOf s.held, true, true⟩] :=
  ⟨keycodeHandler_held _ s, rfl⟩

/-! ## 4. Every history -/

def ParseEvent.write (e : ParseEvent) : TableKey × Bool := (e.key, e.pressed)

/-- The keys whose last event was a press. -/
def lastPressed (l : List ParseEvent) : TableKey → Bool :=
  memAfter (fun _ => false) (l.map ParseEvent.write)

theorem lastPressed_concat (l : List ParseEvent) (e : ParseEvent) :
    lastPressed (l ++ [e]) = Function.update (lastPressed l) e.key e.pressed := by
  rw [lastPressed, List.map_append, List.map_singleton, memAfter_concat]
  rfl

/-- One call for each event, from the history before it. -/
def specCallsFrom (before : List ParseEvent) : List ParseEvent → List KeycodeCall
  | [] => []
  | e :: l => specCall (lastPressed before) (lastPressed (before ++ [e])) e ::
      specCallsFrom (before ++ [e]) l

theorem bookkeeping_from (before l : List ParseEvent) (s : KeyboardState)
    (hheld : s.held = lastPressed before) :
    (run (parse fns) s l).held = lastPressed (before ++ l) ∧
      (run (parse fns) s l).handlerCalls = s.handlerCalls ++ specCallsFrom before l := by
  induction l generalizing before s with
  | nil =>
      rw [List.append_nil]
      exact ⟨hheld, (List.append_nil _).symm⟩
  | cons e l ih =>
      obtain ⟨hstep, hcall⟩ := parse_step fns s e
      have hnext : (parse fns s e).held = lastPressed (before ++ [e]) := by
        rw [hstep, lastPressed_concat, hheld]
      obtain ⟨h1, h2⟩ := ih (before ++ [e]) (parse fns s e) hnext
      rw [run_cons]
      refine ⟨?_, ?_⟩
      · rw [h1, List.append_assoc]
        rfl
      · rw [h2, hcall, hnext, hheld, List.append_assoc]
        rfl

/-- **Held-key bookkeeping.** After every history of presses, repeats and releases, from all
    released, the three tables are exactly the keys whose last event was a press, and
    `keycode_handler` was called once for each event, in order: with `first_press` for a press of
    a key that was not held, and with the modifiers held just before a press and just after a
    release. -/
theorem heldKeys_bookkeeping (mode : KeyboardMode) (leds : LedState) (l : List ParseEvent) :
    (run (parse fns) (.allReleased mode leds) l).held = lastPressed l ∧
      (run (parse fns) (.allReleased mode leds) l).handlerCalls = specCallsFrom [] l := by
  have hstart : (KeyboardState.allReleased mode leds).held = lastPressed [] := by
    funext k
    cases k <;> rfl
  obtain ⟨h1, h2⟩ := bookkeeping_from fns [] l (.allReleased mode leds) hstart
  exact ⟨h1, h2⟩

end Parse

end MapleKernel.Drivers
