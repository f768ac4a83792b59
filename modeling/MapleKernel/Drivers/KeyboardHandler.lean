/-
  File:      Drivers/KeyboardHandler.lean
  Subject:   THE SCAN-CODE-SET-1 DECODER `keyboard_handler_scs1`: from interrupt bytes to calls of
             the parse functions.

  The handler keeps four static flags for each port: an E0 prefix was seen, a four-byte sequence
  (Print Screen) is open, a six-byte sequence (Pause) is open, and how far the open sequence has
  come. It is called once for each byte. An index outside one of its arrays is `none` (undefined
  in C); every other byte gives the flags after it and what the handler called, in order.

  * `keyboardHandlerScs1`, `feed` -- the handler and a whole stream of bytes;
  * `KeyEvent` -- the complete key events of one keyboard, `KeyEvent.bytes` their scan codes and
    `KeyEvent.call` the one call each should produce;
  * `feed_event` -- every event except Pause leaves the initial flags; `feed_pause` -- Pause
    leaves `six_long_sequence` set, unlike its four-byte sibling;
  * `decodes_iff_no_pause` -- so a history is decoded event by event exactly when it holds no
    Pause.
-/
import Mathlib

namespace MapleKernel.Drivers

/-! ## 1. Scan codes -/

/-- The keys of `extended_scancode.h` (the pressed half of its table). -/
inductive ExtendedScancode where
  | prevTrack | nextTrack | kpEnter | rightCtrl | mute | calculator | play | stop | volumeDown
  | volumeUp | wwwHome | kpSlash | rightAlt | home | up | pageUp | left | right | «end» | down
  | pageDown | insert | delete | leftMeta | rightMeta | apps | power | sleep | wake | wwwSearch
  | wwwFavorites | wwwRefresh | wwwStop | wwwForward | wwwBack | myComputer | email | mediaSelect
  deriving DecidableEq, Repr

/-- Second byte of a press; the release is `0x80` above it. -/
def ExtendedScancode.code : ExtendedScancode → UInt8
  | .prevTrack => 0x10 | .nextTrack => 0x19 | .kpEnter => 0x1C | .rightCtrl => 0x1D
  | .mute => 0x20 | .calculator => 0x21 | .play => 0x22 | .stop => 0x24
  | .volumeDown => 0x2E | .volumeUp => 0x30 | .wwwHome => 0x32 | .kpSlash => 0x35
  | .rightAlt => 0x38 | .home => 0x47 | .up => 0x48 | .pageUp => 0x49
  | .left => 0x4B | .right => 0x4D | .«end» => 0x4F | .down => 0x50
  | .pageDown => 0x51 | .insert => 0x52 | .delete => 0x53 | .leftMeta => 0x5B
  | .rightMeta => 0x5C | .apps => 0x5D | .power => 0x5E | .sleep => 0x5F
  | .wake => 0x63 | .wwwSearch => 0x65 | .wwwFavorites => 0x66 | .wwwRefresh => 0x67
  | .wwwStop => 0x68 | .wwwForward => 0x69 | .wwwBack => 0x6A | .myComputer => 0x6B
  | .email => 0x6C | .mediaSelect => 0x6D

def scancodeReleaseStart : UInt8 := 0x81
def scancodeReleaseOffset : UInt8 := 0x80
def extendedScancodeReleaseStart : UInt8 := 0x90
def extendedScancodeReleaseOffset : UInt8 := 0x80

def ps2Port1Irq : UInt8 := 1
def ps2Port2Irq : UInt8 := 12

def printScreenPressedSequence : List UInt8 := [0xE0, 0x2A, 0xE0, 0x37]
def printScreenReleasedSequence : List UInt8 := [0xE0, 0xB7, 0xE0, 0xAA]
def pausePressedSequence : List UInt8 := [0xE1, 0x1D, 0x45, 0xE1, 0x9D, 0xC5]

/-! ## 2. The handler -/

/-- The static flags of `keyboard_handler_scs1` for one port. -/
structure PortFlags where
  previousExtendedSignal : Bool
  fourLongSequence : Bool
  sixLongSequence : Bool
  currentSequenceLength : UInt8
  deriving DecidableEq, Repr

/-- The flags before the first byte. -/
def PortFlags.initial : PortFlags := ⟨false, false, false, 0⟩

/-- A call of one of the four parse functions. -/
inductive ParseCall where
  | scanCode (code : UInt8) (pressed : Bool)
  | extendedScanCode (code : UInt8) (pressed : Bool)
  | printScreen (pressed : Bool)
  | pausePressed
  deriving DecidableEq, Repr

/-- What the handler does to the outside. -/
inductive HandlerAction where
  | parse (c : ParseCall)
  | sendEoi (irq : UInt8)
  deriving DecidableEq, Repr

/-- The length 2 part: a plain code, or one after an E0 prefix. -/
def handlerLengthTwo (irq : UInt8) (f : PortFlags) (scancode : UInt8) :
    PortFlags × List HandlerAction :=
  let extendedSignal := scancode == 0xE0
  if f.previousExtendedSignal then
    let call := if scancode ≥ extendedScancodeReleaseStart
      then ParseCall.extendedScanCode (scancode - extendedScancodeReleaseOffset) false
      else ParseCall.extendedScanCode scancode true
    ({ f with previousExtendedSignal := extendedSignal }, [.parse call, .sendEoi irq])
  else
    let call := if scancode ≥ scancodeReleaseStart
      then ParseCall.scanCode (scancode - scancodeReleaseOffset) false
      else ParseCall.scanCode scancode true
    ({ f with previousExtendedSignal := extendedSignal }, [.parse call, .sendEoi irq])

/-- The length 6 part (Pause). A byte that does not continue the sequence falls through. -/
def handlerLengthSix (irq : UInt8) (f : PortFlags) (scancode : UInt8) :
    Option (PortFlags × List HandlerAction) :=
  if scancode == 0xE1 then
    some ({ f with sixLongSequence := true
                   currentSequenceLength := f.currentSequenceLength + 1
                   previousExtendedSignal := false }, [.sendEoi irq])
  else if f.sixLongSequence then do
    let f := { f with previousExtendedSignal := false }
    let i := f.currentSequenceLength
    let expected ← pausePressedSequence[i.toNat]?
    if scancode == expected then
      if i == 5 then
        some ({ f with currentSequenceLength := 0 }, [.parse .pausePressed, .sendEoi irq])
      else some ({ f with currentSequenceLength := i + 1 }, [.sendEoi irq])
    else some (handlerLengthTwo irq f scancode)
  else some (handlerLengthTwo irq f scancode)

/-- The length 4 part (Print Screen), entered with `four_long_sequence` set. -/
def handlerLengthFour (irq : UInt8) (f : PortFlags) (scancode : UInt8) :
    Option (PortFlags × List HandlerAction) := do
  let f := { f with previousExtendedSignal := false }
  let i := f.currentSequenceLength
  let pressed ← printScreenPressedSequence[i.toNat]?
  let released ← printScreenReleasedSequence[i.toNat]?
  if scancode == pressed then
    if i == 3 then
      some ({ f with currentSequenceLength := 0, fourLongSequence := false },
        [.parse (.printScreen true), .sendEoi irq])
    else some ({ f with currentSequenceLength := i + 1 }, [.sendEoi irq])
  else if scancode == released then
    if i == 3 then
      some ({ f with currentSequenceLength := 0, fourLongSequence := false },
        [.parse (.printScreen false), .sendEoi irq])
    else some ({ f with currentSequenceLength := i + 1 }, [.sendEoi irq])
  else
    some ({ f with currentSequenceLength := 0, fourLongSequence := false }, [.sendEoi irq])

/-- One byte on a port whose flags are `f`. -/
def handlerByte (irq : UInt8) (f : PortFlags) (scancode : UInt8) :
    Option (PortFlags × List HandlerAction) :=
  let extendedSignal := scancode == 0xE0
  if extendedSignal && !f.fourLongSequence && !f.sixLongSequence then
    some ({ f with previousExtendedSignal := extendedSignal }, [.sendEoi irq])
  else if f.previousExtendedSignal && !f.fourLongSequence &&
      (scancode == 0x2A || scancode == 0xB7) then
    some ({ f with fourLongSequence := true, currentSequenceLength := 2
                   previousExtendedSignal := false }, [.sendEoi irq])
  else if f.fourLongSequence then handlerLengthFour irq f scancode
  else handlerLengthSix irq f scancode

/-- `keyboard_handler_scs1`. The static arrays have length 2 and are indexed by the port number
    itself. -/
def keyboardHandlerScs1 (statics : Vector PortFlags 2) (scancode portNumber : UInt8) :
    Option (Vector PortFlags 2 × List HandlerAction) := do
  let keyboardIrq := if portNumber == 1 then ps2Port1Irq else ps2Port2Irq
  let f ← statics[portNumber.toNat]?
  let (f', actions) ← handlerByte keyboardIrq f scancode
  some (statics.setIfInBounds portNumber.toNat f', actions)

/-- The bytes of a stream, one call each. -/
def feed (portNumber : UInt8) : Vector PortFlags 2 → List UInt8 →
    Option (Vector PortFlags 2 × List HandlerAction)
  | statics, [] => some (statics, [])
  | statics, b :: bs => do
      let (statics₁, actions₁) ← keyboardHandlerScs1 statics b portNumber
      let (statics₂, actions₂) ← feed portNumber statics₁ bs
      some (statics₂, actions₁ ++ actions₂)

def staticsInitial : Vector PortFlags 2 := Vector.replicate 2 .initial

/-- The parse calls among the actions. -/
def callsOf : List HandlerAction → List ParseCall
  | [] => []
  | .parse c :: as => c :: callsOf as
  | .sendEoi _ :: as => callsOf as

@[simp] theorem callsOf_append (as bs : List HandlerAction) :
    callsOf (as ++ bs) = callsOf as ++ callsOf bs := by
  induction as with
  | nil => rfl
  | cons a as ih => cases a <;> simp [callsOf, ih]

/-- A stream in two parts: the second starts from the flags the first leaves. -/
theorem feed_append {p : UInt8} {st st₁ st₂ : Vector PortFlags 2} {bs cs : List UInt8}
    {as₁ as₂ : List HandlerAction} (h₁ : feed p st bs = some (st₁, as₁))
    (h₂ : feed p st₁ cs = some (st₂, as₂)) : feed p st (bs ++ cs) = some (st₂, as₁ ++ as₂) := by
  induction bs generalizing st as₁ with
  | nil =>
      simp only [feed, Option.some.injEq, Prod.mk.injEq] at h₁
      obtain ⟨rfl, rfl⟩ := h₁
      exact h₂
  | cons b bs ih =>
      simp only [feed, Option.bind_eq_bind, Option.bind_eq_some_iff] at h₁
      obtain ⟨⟨st', as'⟩, hb, ⟨st'', as''⟩, hrest, he⟩ := h₁
      simp only [Option.some.injEq, Prod.mk.injEq] at he
      obtain ⟨rfl, rfl⟩ := he
      simp [feed, hb, ih hrest]

/-! ## 3. Key events -/

/-- A plain key of scan code set 1: make code `0x01 .. 0x58`. -/
structure PlainKey where
  code : UInt8
  pos : 0x01 ≤ code
  le : code ≤ 0x58

/-- The complete key events of a keyboard. -/
inductive KeyEvent where
  | make (k : PlainKey)
  | «break» (k : PlainKey)
  | extendedMake (k : ExtendedScancode)
  | extendedBreak (k : ExtendedScancode)
  | printScreenPress
  | printScreenRelease
  | pause

/-- The bytes the keyboard sends for an event. -/
def KeyEvent.bytes : KeyEvent → List UInt8
  | .make k => [k.code]
  | .«break» k => [k.code + 0x80]
  | .extendedMake k => [0xE0, k.code]
  | .extendedBreak k => [0xE0, k.code + 0x80]
  | .printScreenPress => [0xE0, 0x2A, 0xE0, 0x37]
  | .printScreenRelease => [0xE0, 0xB7, 0xE0, 0xAA]
  | .pause => [0xE1, 0x1D, 0x45, 0xE1, 0x9D, 0xC5]

/-- The one call an event stands for. -/
def KeyEvent.call : KeyEvent → ParseCall
  | .make k => .scanCode k.code true
  | .«break» k => .scanCode k.code false
  | .extendedMake k => .extendedScanCode k.code true
  | .extendedBreak k => .extendedScanCode k.code false
  | .printScreenPress => .printScreen true
  | .printScreenRelease => .printScreen false
  | .pause => .pausePressed

/-- **A history is decoded event by event**: after every event the flags are the initial ones
    and the calls so far are one for each event, in order. -/
def Decodes (es : List KeyEvent) : Prop :=
  ∀ pre, pre <+: es → ∃ actions,
    feed 1 staticsInitial (pre.flatMap KeyEvent.bytes) = some (staticsInitial, actions) ∧
    callsOf actions = pre.map KeyEvent.call

/-- A plain byte (no prefix, no sequence opener) goes straight to `parse_scan_code`. -/
theorem feed_plain {b : UInt8} (h0 : b ≠ 0xE0) (h1 : b ≠ 0xE1) :
    feed 1 staticsInitial [b] = some (staticsInitial,
      [.parse (if b ≥ 0x81 then .scanCode (b - 0x80) false else .scanCode b true),
        .sendEoi 1]) := by
  have e0 : (b == 0xE0) = false := by simpa using h0
  have e1 : (b == 0xE1) = false := by simpa using h1
  have hget : staticsInitial[(1 : UInt8).toNat]? = some PortFlags.initial := rfl
  have hset : staticsInitial.setIfInBounds 1 ⟨false, false, false, 0⟩ = staticsInitial := rfl
  simp only [feed, keyboardHandlerScs1, hget, handlerByte, handlerLengthSix, handlerLengthTwo,
    PortFlags.initial, e0, e1, scancodeReleaseStart, scancodeReleaseOffset, ps2Port1Irq]
  simp [hset]

theorem PlainKey.release (k : PlainKey) : k.code + 0x80 ≥ 0x81 ∧ k.code + 0x80 - 0x80 = k.code := by
  have h1 : 1 ≤ k.code.toNat := UInt8.le_iff_toNat_le.mp k.pos
  have h2 : k.code.toNat ≤ 0x58 := UInt8.le_iff_toNat_le.mp k.le
  refine ⟨UInt8.le_iff_toNat_le.mpr ?_, UInt8.add_sub_cancel _ _⟩
  simp only [UInt8.toNat_add, UInt8.reduceToNat]
  omega

/-- **Every event except Pause is decoded from the initial flags back to them.** -/
theorem feed_event (e : KeyEvent) (he : e ≠ .pause) :
    ∃ actions, feed 1 staticsInitial e.bytes = some (staticsInitial, actions) ∧
      callsOf actions = [e.call] := by
  cases e with
  | make k =>
      have h2 : k.code.toNat ≤ 0x58 := UInt8.le_iff_toNat_le.mp k.le
      have hlt : ¬ k.code ≥ 0x81 := by
        intro h
        have h3 : 0x81 ≤ k.code.toNat := UInt8.le_iff_toNat_le.mp h
        omega
      refine ⟨_, feed_plain ?_ ?_, ?_⟩
      · intro h; rw [h] at h2; exact absurd h2 (by decide)
      · intro h; rw [h] at h2; exact absurd h2 (by decide)
      · rw [if_neg hlt]; rfl
  | «break» k =>
      have h2 : k.code.toNat ≤ 0x58 := UInt8.le_iff_toNat_le.mp k.le
      have hne : ∀ c : UInt8, 0xD9 ≤ c.toNat → k.code + 0x80 ≠ c := by
        intro c hc h
        have := congrArg UInt8.toNat h
        simp only [UInt8.toNat_add, UInt8.reduceToNat] at this
        omega
      refine ⟨_, feed_plain (hne 0xE0 (by decide)) (hne 0xE1 (by decide)), ?_⟩
      rw [if_pos k.release.1, k.release.2]
      rfl
  | extendedMake k => cases k <;> exact ⟨_, rfl, rfl⟩
  | extendedBreak k => cases k <;> exact ⟨_, rfl, rfl⟩
  | printScreenPress => exact ⟨_, rfl, rfl⟩
  | printScreenRelease => exact ⟨_, rfl, rfl⟩
  | pause => exact absurd rfl he

/-- The flags Pause leaves on port 1: the six-byte sequence is still open. -/
def staticsAfterPause : Vector PortFlags 2 :=
  staticsInitial.setIfInBounds 1 { PortFlags.initial with sixLongSequence := true }

/-- **Pause is recognised, and leaves `six_long_sequence` set.** -/
theorem feed_pause : ∃ actions,
    feed 1 staticsInitial KeyEvent.pause.bytes = some (staticsAfterPause, actions) ∧
      callsOf actions = [.pausePressed] := ⟨_, rfl, rfl⟩

/-! ## 4. Histories -/

theorem feed_no_pause {es : List KeyEvent} (h : KeyEvent.pause ∉ es) :
    ∃ actions, feed 1 staticsInitial (es.flatMap KeyEvent.bytes) = some (staticsInitial, actions) ∧
      callsOf actions = es.map KeyEvent.call := by
  induction es with
  | nil => exact ⟨[], rfl, rfl⟩
  | cons e es ih =>
      have hne : e ≠ .pause := fun he => h (he ▸ List.mem_cons_self)
      obtain ⟨as₁, h₁, c₁⟩ := feed_event e hne
      obtain ⟨as₂, h₂, c₂⟩ := ih fun hm => h (List.mem_cons_of_mem _ hm)
      refine ⟨as₁ ++ as₂, ?_, ?_⟩
      · rw [List.flatMap_cons]; exact feed_append h₁ h₂
      · rw [callsOf_append, c₁, c₂]; rfl

/-- **A history of key events is decoded event by event exactly when it holds no Pause.** -/
theorem decodes_iff_no_pause (es : List KeyEvent) : Decodes es ↔ KeyEvent.pause ∉ es := by
  constructor
  · intro hD hm
    obtain ⟨pre, post, rfl, hpre⟩ := List.eq_append_cons_of_mem hm
    obtain ⟨as, h, _⟩ := hD (pre ++ [.pause]) ⟨post, by simp⟩
    obtain ⟨as₁, h₁, _⟩ := feed_no_pause hpre
    obtain ⟨as₂, h₂, _⟩ := feed_pause
    have h' := feed_append h₁ h₂
    rw [List.flatMap_append, List.flatMap_singleton, h', Option.some.injEq, Prod.mk.injEq] at h
    exact absurd h.1 (by decide)
  · intro hp pre hpre
    exact feed_no_pause fun hm => hp (hpre.subset hm)

/-- Pause followed by Up: the E0 prefix of Up is reported as the release of scan code `0x60`,
    and its second byte as the keypad 8 that shares the code. -/
theorem pause_then_up_not_decoded :
    ¬ Decodes [.pause, .extendedMake .up] ∧
    (feed 1 staticsInitial ([KeyEvent.pause, .extendedMake .up].flatMap KeyEvent.bytes)).map
        (fun r => callsOf r.2) =
      some [.pausePressed, .scanCode 0x60 false, .scanCode 0x48 true] := by
  refine ⟨fun hD => ?_, by decide⟩
  obtain ⟨as, h, _⟩ := hD [.pause] ⟨[.extendedMake .up], rfl⟩
  have hst : some staticsAfterPause = some staticsInitial := congrArg (Option.map Prod.fst) h
  exact absurd hst (by decide)

end MapleKernel.Drivers
