/-
  File:      Drivers/KeyCodes.lean
  Subject:   KEY CODES (`cpp/keycodes.hpp`, `scancodes_to_keycodes.cpp`, `keycodes_char.hpp`): from
             a scan code to a key, and from a key and its modifiers to a character.

  A key is a position on the keyboard, packed into one byte: three bits down, five bits right.
  Three tables are filled at start: scan code to key, extended scan code to key, and key to its
  characters (Canadian French layout).

  * `Key`, `KeyCode`, `packKeycode`, `unpackKeycode` -- the packed position;
  * `scancodeToKeycode`, `extendedScancodeToKeycode` -- the two scan code tables;
  * `keyToChar` -- the character of a key under a modifier snapshot;
  * `letterKeys`, `keyToChar_letter` -- the 26 letter keys: without Ctrl, Alt, AltGr and Meta the
    character is the upper-case letter exactly when Shift and CapsLock differ in the snapshot.
-/
import Mathlib

namespace MapleKernel.Drivers

/-! ## 1. Keys -/

/-- `struct KeyCode`: a position, 5 bits to the right and 3 bits down. -/
structure KeyCode where
  right : UInt8
  down : UInt8
  deriving DecidableEq, Repr

/-- `pack_keycode_raw`. -/
def packKeycodeRaw (keycode : KeyCode) : UInt8 :=
  (keycode.down <<< 5) ||| (keycode.right &&& 0b11111)

/-- `enum class Key`. -/
inductive Key where
  | keyEsc | keyF1 | keyF2 | keyF3 | keyF4 | keyF5 | keyF6 | keyF7 | keyF8 | keyF9 | keyF10
  | keyF11 | keyF12 | keyPrintscr | keyScrolllock | keyPause | keyBacktick | key1 | key2 | key3
  | key4 | key5 | key6 | key7 | key8 | key9 | key0 | keyMinus | keyEquals | keyBackspace
  | keyInsert | keyHome | keyPageup | keyNumlock | keyKpDivide | keyKpMultiply | keyKpMinus
  | keyTab | keyQ | keyW | keyE | keyR | keyT | keyY | keyU | keyI | keyO | keyP | keyLeftbracket
  | keyRightbracket | keyBackslash | keyDelete | keyEnd | keyPagedown | keyKp7 | keyKp8 | keyKp9
  | keyKpPlus | keyCapslock | keyA | keyS | keyD | keyF | keyG | keyH | keyJ | keyK | keyL
  | keySemicolon | keyQuote | keyEnter | keyKp4 | keyKp5 | keyKp6 | keyLeftshift | keyZ | keyX
  | keyC | keyV | keyB | keyN | keyM | keyComma | keyPeriod | keySlash | keyRightshift | keyUp
  | keyKp1 | keyKp2 | keyKp3 | keyKpEnter | keyLeftctrl | keyLeftmeta | keyLeftalt | keySpace
  | keyRightalt | keyRightmeta | keyMenu | keyRightctrl | keyLeft | keyDown | keyRight | keyKp0
  | keyKpDecimal | keyPower | keySleep | keyWake | keyMediaPlay | keyMediaStop | keyMediaPrev
  | keyMediaNext | keyVolumeUp | keyVolumeDown | keyVolumeMute | keyBrightnessUp
  | keyBrightnessDown | keyCalculator | keyWwwHome | keyWwwSearch | keyWwwFavorites
  | keyWwwRefresh | keyWwwStop | keyWwwForward | keyWwwBack | keyMyComputer | keyEmail
  | keyMediaSelect | keyF15 | keyF16 | keyF17 | keyF18 | keyF19 | keyF20 | keyF21 | keyF22
  | keyF23 | keyF24 | keyNone | keyAny | keyInvalid | keyUnknown
  deriving DecidableEq, Repr

/-- The value of a `Key` as `uint8_t`. -/
def Key.value : Key → UInt8
  | .keyEsc => packKeycodeRaw ⟨0, 0⟩ | .keyF1 => packKeycodeRaw ⟨1, 0⟩
  | .keyF2 => packKeycodeRaw ⟨2, 0⟩ | .keyF3 => packKeycodeRaw ⟨3, 0⟩
  | .keyF4 => packKeycodeRaw ⟨4, 0⟩ | .keyF5 => packKeycodeRaw ⟨5, 0⟩
  | .keyF6 => packKeycodeRaw ⟨6, 0⟩ | .keyF7 => packKeycodeRaw ⟨7, 0⟩
  | .keyF8 => packKeycodeRaw ⟨8, 0⟩ | .keyF9 => packKeycodeRaw ⟨9, 0⟩
  | .keyF10 => packKeycodeRaw ⟨10, 0⟩ | .keyF11 => packKeycodeRaw ⟨11, 0⟩
  | .keyF12 => packKeycodeRaw ⟨12, 0⟩ | .keyPrintscr => packKeycodeRaw ⟨13, 0⟩
  | .keyScrolllock => packKeycodeRaw ⟨14, 0⟩ | .keyPause => packKeycodeRaw ⟨15, 0⟩
  | .keyBacktick => packKeycodeRaw ⟨0, 1⟩ | .key1 => packKeycodeRaw ⟨1, 1⟩
  | .key2 => packKeycodeRaw ⟨2, 1⟩ | .key3 => packKeycodeRaw ⟨3, 1⟩
  | .key4 => packKeycodeRaw ⟨4, 1⟩ | .key5 => packKeycodeRaw ⟨5, 1⟩
  | .key6 => packKeycodeRaw ⟨6, 1⟩ | .key7 => packKeycodeRaw ⟨7, 1⟩
  | .key8 => packKeycodeRaw ⟨8, 1⟩ | .key9 => packKeycodeRaw ⟨9, 1⟩
  | .key0 => packKeycodeRaw ⟨10, 1⟩ | .keyMinus => packKeycodeRaw ⟨11, 1⟩
  | .keyEquals => packKeycodeRaw ⟨12, 1⟩ | .keyBackspace => packKeycodeRaw ⟨13, 1⟩
  | .keyInsert => packKeycodeRaw ⟨14, 1⟩ | .keyHome => packKeycodeRaw ⟨15, 1⟩
  | .keyPageup => packKeycodeRaw ⟨16, 1⟩ | .keyNumlock => packKeycodeRaw ⟨17, 1⟩
  | .keyKpDivide => packKeycodeRaw ⟨18, 1⟩ | .keyKpMultiply => packKeycodeRaw ⟨19, 1⟩
  | .keyKpMinus => packKeycodeRaw ⟨20, 1⟩ | .keyTab => packKeycodeRaw ⟨0, 2⟩
  | .keyQ => packKeycodeRaw ⟨1, 2⟩ | .keyW => packKeycodeRaw ⟨2, 2⟩
  | .keyE => packKeycodeRaw ⟨3, 2⟩ | .keyR => packKeycodeRaw ⟨4, 2⟩
  | .keyT => packKeycodeRaw ⟨5, 2⟩ | .keyY => packKeycodeRaw ⟨6, 2⟩
  | .keyU => packKeycodeRaw ⟨7, 2⟩ | .keyI => packKeycodeRaw ⟨8, 2⟩
  | .keyO => packKeycodeRaw ⟨9, 2⟩ | .keyP => packKeycodeRaw ⟨10, 2⟩
  | .keyLeftbracket => packKeycodeRaw ⟨11, 2⟩ | .keyRightbracket => packKeycodeRaw ⟨12, 2⟩
  | .keyBackslash => packKeycodeRaw ⟨13, 2⟩ | .keyDelete => packKeycodeRaw ⟨14, 2⟩
  | .keyEnd => packKeycodeRaw ⟨15, 2⟩ | .keyPagedown => packKeycodeRaw ⟨16, 2⟩
  | .keyKp7 => packKeycodeRaw ⟨17, 2⟩ | .keyKp8 => packKeycodeRaw ⟨18, 2⟩
  | .keyKp9 => packKeycodeRaw ⟨19, 2⟩ | .keyKpPlus => packKeycodeRaw ⟨20, 2⟩
  | .keyCapslock => packKeycodeRaw ⟨0, 3⟩ | .keyA => packKeycodeRaw ⟨1, 3⟩
  | .keyS => packKeycodeRaw ⟨2, 3⟩ | .keyD => packKeycodeRaw ⟨3, 3⟩
  | .keyF => packKeycodeRaw ⟨4, 3⟩ | .keyG => packKeycodeRaw ⟨5, 3⟩
  | .keyH => packKeycodeRaw ⟨6, 3⟩ | .keyJ => packKeycodeRaw ⟨7, 3⟩
  | .keyK => packKeycodeRaw ⟨8, 3⟩ | .keyL => packKeycodeRaw ⟨9, 3⟩
  | .keySemicolon => packKeycodeRaw ⟨10, 3⟩ | .keyQuote => packKeycodeRaw ⟨11, 3⟩
  | .keyEnter => packKeycodeRaw ⟨12, 3⟩ | .keyKp4 => packKeycodeRaw ⟨13, 3⟩
  | .keyKp5 => packKeycodeRaw ⟨14, 3⟩ | .keyKp6 => packKeycodeRaw ⟨15, 3⟩
  | .keyLeftshift => packKeycodeRaw ⟨0, 4⟩ | .keyZ => packKeycodeRaw ⟨1, 4⟩
  | .keyX => packKeycodeRaw ⟨2, 4⟩ | .keyC => packKeycodeRaw ⟨3, 4⟩
  | .keyV => packKeycodeRaw ⟨4, 4⟩ | .keyB => packKeycodeRaw ⟨5, 4⟩
  | .keyN => packKeycodeRaw ⟨6, 4⟩ | .keyM => packKeycodeRaw ⟨7, 4⟩
  | .keyComma => packKeycodeRaw ⟨8, 4⟩ | .keyPeriod => packKeycodeRaw ⟨9, 4⟩
  | .keySlash => packKeycodeRaw ⟨10, 4⟩ | .keyRightshift => packKeycodeRaw ⟨11, 4⟩
  | .keyUp => packKeycodeRaw ⟨12, 4⟩ | .keyKp1 => packKeycodeRaw ⟨13, 4⟩
  | .keyKp2 => packKeycodeRaw ⟨14, 4⟩ | .keyKp3 => packKeycodeRaw ⟨15, 4⟩
  | .keyKpEnter => packKeycodeRaw ⟨16, 4⟩ | .keyLeftctrl => packKeycodeRaw ⟨0, 5⟩
  | .keyLeftmeta => packKeycodeRaw ⟨1, 5⟩ | .keyLeftalt => packKeycodeRaw ⟨2, 5⟩
  | .keySpace => packKeycodeRaw ⟨3, 5⟩ | .keyRightalt => packKeycodeRaw ⟨4, 5⟩
  | .keyRightmeta => packKeycodeRaw ⟨5, 5⟩ | .keyMenu => packKeycodeRaw ⟨6, 5⟩
  | .keyRightctrl => packKeycodeRaw ⟨7, 5⟩ | .keyLeft => packKeycodeRaw ⟨8, 5⟩
  | .keyDown => packKeycodeRaw ⟨9, 5⟩ | .keyRight => packKeycodeRaw ⟨10, 5⟩
  | .keyKp0 => packKeycodeRaw ⟨11, 5⟩ | .keyKpDecimal => packKeycodeRaw ⟨12, 5⟩
  | .keyPower => packKeycodeRaw ⟨0, 6⟩ | .keySleep => packKeycodeRaw ⟨1, 6⟩
  | .keyWake => packKeycodeRaw ⟨2, 6⟩ | .keyMediaPlay => packKeycodeRaw ⟨3, 6⟩
  | .keyMediaStop => packKeycodeRaw ⟨4, 6⟩ | .keyMediaPrev => packKeycodeRaw ⟨5, 6⟩
  | .keyMediaNext => packKeycodeRaw ⟨6, 6⟩ | .keyVolumeUp => packKeycodeRaw ⟨7, 6⟩
  | .keyVolumeDown => packKeycodeRaw ⟨8, 6⟩ | .keyVolumeMute => packKeycodeRaw ⟨9, 6⟩
  | .keyBrightnessUp => packKeycodeRaw ⟨10, 6⟩ | .keyBrightnessDown => packKeycodeRaw ⟨11, 6⟩
  | .keyCalculator => packKeycodeRaw ⟨12, 6⟩ | .keyWwwHome => packKeycodeRaw ⟨13, 6⟩
  | .keyWwwSearch => packKeycodeRaw ⟨14, 6⟩ | .keyWwwFavorites => packKeycodeRaw ⟨15, 6⟩
  | .keyWwwRefresh => packKeycodeRaw ⟨16, 6⟩ | .keyWwwStop => packKeycodeRaw ⟨17, 6⟩
  | .keyWwwForward => packKeycodeRaw ⟨18, 6⟩ | .keyWwwBack => packKeycodeRaw ⟨19, 6⟩
  | .keyMyComputer => packKeycodeRaw ⟨20, 6⟩ | .keyEmail => packKeycodeRaw ⟨0, 7⟩
  | .keyMediaSelect => packKeycodeRaw ⟨1, 7⟩ | .keyF15 => packKeycodeRaw ⟨2, 7⟩
  | .keyF16 => packKeycodeRaw ⟨3, 7⟩ | .keyF17 => packKeycodeRaw ⟨4, 7⟩
  | .keyF18 => packKeycodeRaw ⟨5, 7⟩ | .keyF19 => packKeycodeRaw ⟨6, 7⟩
  | .keyF20 => packKeycodeRaw ⟨7, 7⟩ | .keyF21 => packKeycodeRaw ⟨8, 7⟩
  | .keyF22 => packKeycodeRaw ⟨9, 7⟩ | .keyF23 => packKeycodeRaw ⟨10, 7⟩
  | .keyF24 => packKeycodeRaw ⟨11, 7⟩ | .keyNone => 0xFF | .keyAny => 0xFE | .keyInvalid => 0xFD
  | .keyUnknown => 0xFC

def unpackKeycode (key : Key) : KeyCode :=
  { right := key.value &&& 0x1F, down := (key.value >>> 5) &&& 0x07 }

/-- `pack_keycode`, as the underlying `uint8_t`. -/
def packKeycode (keycode : KeyCode) : UInt8 :=
  (keycode.down <<< 5) ||| (keycode.right &&& 0x1F)

/-- Row and column of a key are its value again. -/
theorem packKeycode_unpackKeycode (key : Key) : packKeycode (unpackKeycode key) = key.value := by
  cases key <;> decide

/-! ## 2. Scan codes -/

/-- The assignments of `init_scancodes_to_keycodes` to `ScanToKeyCode`. -/
def scanToKeyCode : List (Nat × Key) :=
  [ (0x01, .keyEsc), (0x3B, .keyF1), (0x3C, .keyF2), (0x3D, .keyF3), (0x3E, .keyF4),
    (0x3F, .keyF5), (0x40, .keyF6), (0x41, .keyF7), (0x42, .keyF8), (0x43, .keyF9),
    (0x44, .keyF10), (0x57, .keyF11), (0x58, .keyF12), (0x46, .keyScrolllock),
    (0x29, .keyBacktick), (0x02, .key1), (0x03, .key2), (0x04, .key3), (0x05, .key4),
    (0x06, .key5), (0x07, .key6), (0x08, .key7), (0x09, .key8), (0x0A, .key9), (0x0B, .key0),
    (0x0C, .keyMinus), (0x0D, .keyEquals), (0x0E, .keyBackspace), (0x45, .keyNumlock),
    (0x37, .keyKpMultiply), (0x4A, .keyKpMinus), (0x0F, .keyTab), (0x10, .keyQ), (0x11, .keyW),
    (0x12, .keyE), (0x13, .keyR), (0x14, .keyT), (0x15, .keyY), (0x16, .keyU), (0x17, .keyI),
    (0x18, .keyO), (0x19, .keyP), (0x1A, .keyLeftbracket), (0x1B, .keyRightbracket),
    (0x2B, .keyBackslash), (0x47, .keyKp7), (0x48, .keyKp8), (0x49, .keyKp9), (0x4E, .keyKpPlus),
    (0x3A, .keyCapslock), (0x1E, .keyA), (0x1F, .keyS), (0x20, .keyD), (0x21, .keyF),
    (0x22, .keyG), (0x23, .keyH), (0x24, .keyJ), (0x25, .keyK), (0x26, .keyL),
    (0x27, .keySemicolon), (0x28, .keyQuote), (0x1C, .keyEnter), (0x4B, .keyKp4),
    (0x4C, .keyKp5), (0x4D, .keyKp6), (0x2A, .keyLeftshift), (0x2C, .keyZ), (0x2D, .keyX),
    (0x2E, .keyC), (0x2F, .keyV), (0x30, .keyB), (0x31, .keyN), (0x32, .keyM), (0x33, .keyComma),
    (0x34, .keyPeriod), (0x35, .keySlash), (0x36, .keyRightshift), (0x4F, .keyKp1),
    (0x50, .keyKp2), (0x51, .keyKp3), (0x1D, .keyLeftctrl), (0x38, .keyLeftalt),
    (0x39, .keySpace), (0x52, .keyKp0), (0x53, .keyKpDecimal) ]

/-- The assignments of `init_scancodes_to_keycodes` to `ExtendedScanToKeyCode`. -/
def extendedScanToKeyCode : List (Nat × Key) :=
  [ (0x52, .keyInsert), (0x47, .keyHome), (0x49, .keyPageup), (0x35, .keyKpDivide),
    (0x53, .keyDelete), (0x4F, .keyEnd), (0x51, .keyPagedown), (0x48, .keyUp),
    (0x1C, .keyKpEnter), (0x5B, .keyLeftmeta), (0x38, .keyRightalt), (0x5C, .keyRightmeta),
    (0x5D, .keyMenu), (0x1D, .keyRightctrl), (0x4B, .keyLeft), (0x50, .keyDown),
    (0x4D, .keyRight), (0x10, .keyMediaPrev), (0x19, .keyMediaNext), (0x22, .keyMediaPlay),
    (0x24, .keyMediaStop), (0x20, .keyVolumeMute), (0x30, .keyVolumeUp), (0x2E, .keyVolumeDown),
    (0x21, .keyCalculator), (0x32, .keyWwwHome), (0x65, .keyWwwSearch), (0x66, .keyWwwFavorites),
    (0x67, .keyWwwRefresh), (0x68, .keyWwwStop), (0x69, .keyWwwForward), (0x6A, .keyWwwBack),
    (0x6B, .keyMyComputer), (0x6C, .keyEmail), (0x6D, .keyMediaSelect), (0x5E, .keyPower),
    (0x5F, .keySleep), (0x63, .keyWake) ]

/-- What no assignment names is `KEY_INVALID`. -/
def scancodeToKeycode (scancode : Nat) : KeyCode :=
  unpackKeycode ((scanToKeyCode.lookup scancode).getD .keyInvalid)

def extendedScancodeToKeycode (extendedScancode : Nat) : KeyCode :=
  unpackKeycode ((extendedScanToKeyCode.lookup extendedScancode).getD .keyInvalid)

def pauseToKeycode : KeyCode := unpackKeycode .keyPause

def printScreenToKeycode : KeyCode := unpackKeycode .keyPrintscr

/-! ## 3. Characters -/

structure KeyModifierState where
  leftShift : Bool
  rightShift : Bool
  leftCtrl : Bool
  rightCtrl : Bool
  leftMeta : Bool
  rightMeta : Bool
  menuApp : Bool
  alt : Bool
  altgr : Bool
  capslock : Bool
  scrollLock : Bool
  deriving DecidableEq, Repr

structure KeyCharInfo where
  normal : Char
  shift : Char
  caps : Char
  altgr : Char
  isLetter : Bool
  isPrintable : Bool
  isAltgrAble : Bool
  deriving DecidableEq, Repr

/-- The assignments of `init_key_char_table` to `KEY_CHAR_TABLE`. -/
def keyCharEntries : List (Key × KeyCharInfo) :=
  [ (.key1, ⟨'1', '!', '1', ' ', false, true, false⟩),
    (.key2, ⟨'2', Char.ofNat 34, '2', '@', false, true, true⟩),
    (.key3, ⟨'3', '/', '3', ' ', false, true, false⟩),
    (.key4, ⟨'4', '$', '4', ' ', false, true, false⟩),
    (.key5, ⟨'5', '%', '5', ' ', false, true, false⟩),
    (.key6, ⟨'6', '?', '6', ' ', false, true, false⟩),
    (.key7, ⟨'7', '&', '7', ' ', false, true, false⟩),
    (.key8, ⟨'8', '*', '8', ' ', false, true, false⟩),
    (.key9, ⟨'9', '(', '9', ' ', false, true, false⟩),
    (.key0, ⟨'0', ')', '0', ' ', false, true, false⟩),
    (.keyA, ⟨'a', 'A', 'A', ' ', true, true, false⟩),
    (.keyB, ⟨'b', 'B', 'B', ' ', true, true, false⟩),
    (.keyC, ⟨'c', 'C', 'C', ' ', true, true, false⟩),
    (.keyD, ⟨'d', 'D', 'D', ' ', true, true, false⟩),
    (.keyE, ⟨'e', 'E', 'E', ' ', true, true, false⟩),
    (.keyF, ⟨'f', 'F', 'F', ' ', true, true, false⟩),
    (.keyG, ⟨'g', 'G', 'G', ' ', true, true, false⟩),
    (.keyH, ⟨'h', 'H', 'H', ' ', true, true, false⟩),
    (.keyI, ⟨'i', 'I', 'I', ' ', true, true, false⟩),
    (.keyJ, ⟨'j', 'J', 'J', ' ', true, true, false⟩),
    (.keyK, ⟨'k', 'K', 'K', ' ', true, true, false⟩),
    (.keyL, ⟨'l', 'L', 'L', ' ', true, true, false⟩),
    (.keyM, ⟨'m', 'M', 'M', ' ', true, true, false⟩),
    (.keyN, ⟨'n', 'N', 'N', ' ', true, true, false⟩),
    (.keyO, ⟨'o', 'O', 'O', ' ', true, true, false⟩),
    (.keyP, ⟨'p', 'P', 'P', ' ', true, true, false⟩),
    (.keyQ, ⟨'q', 'Q', 'Q', ' ', true, true, false⟩),
    (.keyR, ⟨'r', 'R', 'R', ' ', true, true, false⟩),
    (.keyS, ⟨'s', 'S', 'S', ' ', true, true, false⟩),
    (.keyT, ⟨'t', 'T', 'T', ' ', true, true, false⟩),
    (.keyU, ⟨'u', 'U', 'U', ' ', true, true, false⟩),
    (.keyV, ⟨'v', 'V', 'V', ' ', true, true, false⟩),
    (.keyW, ⟨'w', 'W', 'W', ' ', true, true, false⟩),
    (.keyX, ⟨'x', 'X', 'X', ' ', true, true, false⟩),
    (.keyY, ⟨'y', 'Y', 'Y', ' ', true, true, false⟩),
    (.keyZ, ⟨'z', 'Z', 'Z', ' ', true, true, false⟩),
    (.keyBacktick, ⟨'#', '|', '#', Char.ofNat 92, false, true, true⟩),
    (.keyMinus, ⟨'-', '_', '-', ' ', false, true, false⟩),
    (.keyEquals, ⟨'=', '+', '=', ' ', false, true, false⟩),
    (.keyLeftbracket, ⟨'^', '^', '^', '[', false, true, true⟩),
    (.keyRightbracket, ⟨']', ']', ']', ']', false, true, true⟩),
    (.keyBackslash, ⟨'<', '>', '<', Char.ofNat 125, false, true, true⟩),
    (.keySemicolon, ⟨';', ':', ';', '~', false, true, true⟩),
    (.keyQuote, ⟨Char.ofNat 96, Char.ofNat 96, Char.ofNat 96, Char.ofNat 123, false, true, true⟩),
    (.keyComma, ⟨',', Char.ofNat 39, ',', ' ', false, true, false⟩),
    (.keyPeriod, ⟨'.', '.', '.', ' ', false, true, false⟩),
    (.keySlash, ⟨'/', '/', '/', ' ', false, true, false⟩),
    (.keySpace, ⟨' ', ' ', ' ', ' ', false, true, false⟩),
    (.keyTab, ⟨'\t', '\t', '\t', ' ', false, true, false⟩),
    (.keyEnter, ⟨'\n', '\n', '\n', ' ', false, true, false⟩) ]

/-- `KEY_CHAR_TABLE`, zero where nothing is assigned. -/
def keyCharTable (key : UInt8) : KeyCharInfo :=
  ((keyCharEntries.map fun e => (e.1.value, e.2)).lookup key).getD
    ⟨Char.ofNat 0, Char.ofNat 0, Char.ofNat 0, Char.ofNat 0, false, false, false⟩

/-- `key_to_char`. -/
def keyToChar (key : UInt8) (mods : KeyModifierState) : Char :=
  let info := keyCharTable key
  if !info.isPrintable then Char.ofNat 0
  else if !info.isAltgrAble && mods.altgr then Char.ofNat 0
  else if mods.leftCtrl || mods.rightCtrl || mods.leftMeta || mods.rightMeta || mods.alt then
    Char.ofNat 0
  else
    let shift := mods.leftShift || mods.rightShift
    let caps := mods.capslock
    if info.isLetter then
      if shift && caps then info.normal
      else if caps then info.caps
      else if shift then info.shift
      else info.normal
    else if mods.altgr then info.altgr
    else if shift then info.shift
    else info.normal

/-! ## 4. Letters -/

/-- A letter key of the keyboard: its scan code and its two letters. -/
structure LetterKey where
  scancode : Nat
  lower : Char
  upper : Char
  deriving DecidableEq, Repr

def letterKeys : List LetterKey :=
  [ ⟨0x10, 'q', 'Q'⟩, ⟨0x11, 'w', 'W'⟩, ⟨0x12, 'e', 'E'⟩, ⟨0x13, 'r', 'R'⟩, ⟨0x14, 't', 'T'⟩,
    ⟨0x15, 'y', 'Y'⟩, ⟨0x16, 'u', 'U'⟩, ⟨0x17, 'i', 'I'⟩, ⟨0x18, 'o', 'O'⟩, ⟨0x19, 'p', 'P'⟩,
    ⟨0x1E, 'a', 'A'⟩, ⟨0x1F, 's', 'S'⟩, ⟨0x20, 'd', 'D'⟩, ⟨0x21, 'f', 'F'⟩, ⟨0x22, 'g', 'G'⟩,
    ⟨0x23, 'h', 'H'⟩, ⟨0x24, 'j', 'J'⟩, ⟨0x25, 'k', 'K'⟩, ⟨0x26, 'l', 'L'⟩, ⟨0x2C, 'z', 'Z'⟩,
    ⟨0x2D, 'x', 'X'⟩, ⟨0x2E, 'c', 'C'⟩, ⟨0x2F, 'v', 'V'⟩, ⟨0x30, 'b', 'B'⟩, ⟨0x31, 'n', 'N'⟩,
    ⟨0x32, 'm', 'M'⟩ ]

/-- No modifier that suppresses or replaces a letter. -/
def KeyModifierState.plain (mods : KeyModifierState) : Bool :=
  !(mods.leftCtrl || mods.rightCtrl || mods.leftMeta || mods.rightMeta || mods.alt || mods.altgr)

/-- The two scan code tables and the character table agree on the letters. -/
theorem keyCharTable_letter :
    ∀ k ∈ letterKeys, keyCharTable (packKeycode (scancodeToKeycode k.scancode))
      = ⟨k.lower, k.upper, k.upper, ' ', true, true, false⟩ := by
  have htable : ∀ k ∈ letterKeys,
      keyCharTable ((scanToKeyCode.lookup k.scancode).getD .keyInvalid).value
        = ⟨k.lower, k.upper, k.upper, ' ', true, true, false⟩ := by decide
  intro k hk
  rw [scancodeToKeycode, packKeycode_unpackKeycode]
  exact htable k hk

/-- **The character of a letter key**, from the snapshot alone. -/
theorem keyToChar_letter {k : LetterKey} (hk : k ∈ letterKeys) {mods : KeyModifierState}
    (hplain : mods.plain = true) :
    keyToChar (packKeycode (scancodeToKeycode k.scancode)) mods
      = if (mods.leftShift || mods.rightShift) ^^ mods.capslock then k.upper else k.lower := by
  have hinfo := keyCharTable_letter k hk
  simp only [KeyModifierState.plain, Bool.not_eq_true', Bool.or_eq_false_iff] at hplain
  obtain ⟨⟨⟨⟨⟨h1, h2⟩, h3⟩, h4⟩, h5⟩, h6⟩ := hplain
  simp only [keyToChar, hinfo, h1, h2, h3, h4, h5, h6]
  cases mods.leftShift <;> cases mods.rightShift <;> cases mods.capslock <;> rfl

end MapleKernel.Drivers
