/-
  File:      Drivers/KeyTyping.lean
  Subject:   CAPSLOCK AND SHIFT in typing mode: which letter a key prints.

  Three pieces of state are called CapsLock: the key in the table of held keys, the LED that
  `pressed_caps_lock` toggles, and the bit of the modifier snapshot that `key_to_char` reads. The
  bit is the HELD key, not the LED, and the LED toggles on every press, typematic repeats
  included.

  * `setupKeyFunctions` -- the functions `setup_keyboard_extra` ties to keys;
  * `TypingLaw` -- the law of one event, against the history: the LED is the parity of the first
    presses of CapsLock, a letter is upper case when Shift and that parity differ;
  * `typing_law_iff` -- a history obeys the law exactly when no CapsLock press is a repeat and
    every letter is typed while the held CapsLock key and its LED agree.
-/
import MapleKernel.Drivers.KeyEvents

namespace MapleKernel.Drivers

open Runs

/-! ## 1. The functions of the keys -/

/-- The loop of `setup_keyboard_extra`. -/
def KeyFunctionTable.cleared : KeyFunctionTable where
  keyFunctions := fun _ => .nop
  isKeyTiedToFunction := fun _ => false
  extendedKeyFunctions := fun _ => .nop
  isExtendedKeyTiedToFunction := fun _ => false

def setKeyFunction (t : KeyFunctionTable) (key : Nat) (f : KeyFunction) : KeyFunctionTable :=
  { t with keyFunctions := Function.update t.keyFunctions key f
           isKeyTiedToFunction := Function.update t.isKeyTiedToFunction key true }

def setExtendedKeyFunction (t : KeyFunctionTable) (scancode : Nat) (f : KeyFunction) :
    KeyFunctionTable :=
  { t with extendedKeyFunctions := Function.update t.extendedKeyFunctions scancode f
           isExtendedKeyTiedToFunction :=
             Function.update t.isExtendedKeyTiedToFunction scancode true }

/-- The calls of `setup_keyboard_extra`, in order. -/
def setupKeyFunctions : KeyFunctionTable :=
  let t := setKeyFunction .cleared 0x3A .pressedCapsLock
  let t := setKeyFunction t 0x45 .pressedNumLock
  let t := setKeyFunction t 0x46 .pressedScrollLock
  let t := setKeyFunction t 0x1E .pressedA
  let t := setExtendedKeyFunction t 0x48 .pressedUp
  let t := setExtendedKeyFunction t 0x50 .pressedDown
  let t := setExtendedKeyFunction t 0x4B .pressedLeft
  let t := setExtendedKeyFunction t 0x4D .pressedRight
  let t := setKeyFunction t 0x13 .pressedR
  setKeyFunction t 0x21 .pressedF

/-- The keyboard after `setup_keyboard_extra`, in typing mode. -/
def typingKeyboard : KeyboardState := .allReleased .typing ⟨false, false, false⟩

/-- The state after the tied function of a plain key, as `parse_scan_code` runs it. -/
def runKeyFunction (c : Fin scancodeLen) (s : KeyboardState) : KeyboardState :=
  if setupKeyFunctions.isKeyTiedToFunction c then (setupKeyFunctions.keyFunctions c).call s else s

/-- The same for an extended key. -/
def runExtendedKeyFunction (c : Fin extendedScancodeLen) (s : KeyboardState) : KeyboardState :=
  if setupKeyFunctions.isExtendedKeyTiedToFunction c
    then (setupKeyFunctions.extendedKeyFunctions c).call s else s

/-- Only CapsLock's function changes the CapsLock LED. -/
theorem KeyFunction.call_capsLock (f : KeyFunction) (s : KeyboardState) :
    (f.call s).ledKeys.capsLock
      = if f = .pressedCapsLock then !s.ledKeys.capsLock else s.ledKeys.capsLock := by
  cases f with
  | pressedR | pressedF =>
      unfold KeyFunction.call
      dsimp only
      split <;> rfl
  | _ => rfl

theorem setupKeyFunctions_capsLock :
    ∀ c : Fin scancodeLen, setupKeyFunctions.isKeyTiedToFunction c = true →
      (setupKeyFunctions.keyFunctions c = .pressedCapsLock ↔ c = scCapslock) := by
  decide

theorem setupKeyFunctions_extended :
    ∀ c : Fin extendedScancodeLen,
      setupKeyFunctions.extendedKeyFunctions c ≠ .pressedCapsLock := by
  decide

theorem runKeyFunction_capsLock (c : Fin scancodeLen) (s : KeyboardState) :
    (runKeyFunction c s).ledKeys.capsLock
      = if c = scCapslock then !s.ledKeys.capsLock else s.ledKeys.capsLock := by
  unfold runKeyFunction
  by_cases htied : setupKeyFunctions.isKeyTiedToFunction c = true
  · rw [if_pos htied, KeyFunction.call_capsLock]
    simp only [setupKeyFunctions_capsLock c htied]
  · have hc : c ≠ scCapslock := by
      intro h
      obtain rfl := h
      exact htied rfl
    rw [if_neg htied, if_neg hc]

theorem runExtendedKeyFunction_capsLock (c : Fin extendedScancodeLen) (s : KeyboardState) :
    (runExtendedKeyFunction c s).ledKeys.capsLock = s.ledKeys.capsLock := by
  unfold runExtendedKeyFunction
  split
  · rw [KeyFunction.call_capsLock, if_neg (setupKeyFunctions_extended c)]
  · rfl

/-! ## 2. One event -/

def capsPress : ParseEvent := ⟨.plain scCapslock, true⟩

/-- The LED toggles on every press of CapsLock, and on nothing else. -/
theorem parse_capsLock (s : KeyboardState) (e : ParseEvent) :
    (parse setupKeyFunctions s e).ledKeys.capsLock
      = if e = capsPress then !s.ledKeys.capsLock else s.ledKeys.capsLock := by
  obtain ⟨key, pressed⟩ := e
  cases key with
  | plain c =>
      cases pressed with
      | true =>
          show (runKeyFunction c s).ledKeys.capsLock = _
          rw [runKeyFunction_capsLock]
          simp only [capsPress, ParseEvent.mk.injEq, TableKey.plain.injEq, and_true]
      | false =>
          rw [if_neg (by simp [capsPress])]
          rfl
  | extended c =>
      rw [if_neg (by simp [capsPress])]
      cases pressed with
      | true => exact runExtendedKeyFunction_capsLock c s
      | false => rfl
  | printScreen =>
      rw [if_neg (by simp [capsPress])]
      rfl

theorem parse_keyboardMode (fns : KeyFunctionTable) (s : KeyboardState) (e : ParseEvent) :
    (parse fns s e).keyboardMode = s.keyboardMode := by
  obtain ⟨key, pressed⟩ := e
  cases key with
  | plain c =>
      cases pressed with
      | true =>
          show (if fns.isKeyTiedToFunction c then _ else s).keyboardMode = _
          split
          · exact ((fns.keyFunctions c).call_frame s).2.2
          · rfl
      | false => rfl
  | extended c =>
      cases pressed with
      | true =>
          show (if fns.isExtendedKeyTiedToFunction c then _ else s).keyboardMode = _
          split
          · exact ((fns.extendedKeyFunctions c).call_frame s).2.2
          · rfl
      | false => rfl
  | printScreen => rfl

/-- The functions tied to letters do nothing without Ctrl. -/
theorem setupKeyFunctions_letter :
    ∀ k ∈ letterKeys, setupKeyFunctions.keyFunctions k.scancode ∈
      [.nop, .pressedA, .pressedR, .pressedF] := by
  decide

theorem runKeyFunction_letter {k : LetterKey} (hk : k ∈ letterKeys) {c : Fin scancodeLen}
    (hc : c.val = k.scancode) {s : KeyboardState} (hctrl : isCtrlHeld s = false) :
    runKeyFunction c s = s := by
  unfold runKeyFunction
  split
  · have hmem := setupKeyFunctions_letter k hk
    rw [← hc] at hmem
    simp only [List.mem_cons, List.not_mem_nil, or_false] at hmem
    rcases hmem with h | h | h | h <;> rw [h]
    · rfl
    · rfl
    · exact if_neg (by rw [hctrl]; decide)
    · exact if_neg (by rw [hctrl]; decide)
  · rfl

/-- The letter a key prints when Shift is `shift` and CapsLock is `caps`. -/
def LetterKey.char (k : LetterKey) (shift caps : Bool) : Char :=
  if shift ^^ caps then k.upper else k.lower

def KeyModifierState.shift (mods : KeyModifierState) : Bool := mods.leftShift || mods.rightShift

theorem letter_ne : ∀ k ∈ letterKeys, k.upper ≠ k.lower := by
  decide

/-- The two cases of a letter tell the two states of CapsLock apart. -/
theorem LetterKey.char_inj {k : LetterKey} (hk : k ∈ letterKeys) (shift caps caps' : Bool) :
    k.char shift caps = k.char shift caps' ↔ caps = caps' := by
  have hne := letter_ne k hk
  cases shift <;> cases caps <;> cases caps' <;> simp [LetterKey.char, hne, Ne.symm hne]

/-- **What a letter key prints**: the held CapsLock key decides, not the LED. -/
theorem parse_letter {k : LetterKey} (hk : k ∈ letterKeys) {c : Fin scancodeLen}
    (hc : c.val = k.scancode) {s : KeyboardState} (hmode : s.keyboardMode = .typing)
    (hplain : (modifiersOf s.held).plain = true) :
    (parse setupKeyFunctions s ⟨.plain c, true⟩).effects = s.effects ++
      [.printChar (k.char (modifiersOf s.held).shift (s.held (.plain scCapslock)))] := by
  have hctrl : isCtrlHeld s = false := by
    simp only [KeyModifierState.plain, Bool.not_eq_true', Bool.or_eq_false_iff] at hplain
    show (s.held (.plain scLeftCtrl) || s.held (.extended sceRightCtrl)) = false
    rw [Bool.or_eq_false_iff]
    exact hplain.1.1.1.1
  have hfn := runKeyFunction_letter hk hc hctrl
  have hchar := keyToChar_letter hk hplain
  have hprint : (keyCharTable (packKeycode (scancodeToKeycode c))).isPrintable = true := by
    rw [hc, keyCharTable_letter k hk]
  show (runKeyFunction c s).effects ++ keycodeEffects (runKeyFunction c s).keyboardMode
    ⟨scancodeToKeycode c, modifiersOf (runKeyFunction c s).held, _, true⟩ = _
  rw [hfn, hmode]
  unfold keycodeEffects
  dsimp only
  rw [if_neg (by decide), if_pos hprint, hc, hchar]
  rfl

/-! ## 3. The law -/

/-- The event is a press of `key`, which the history left up. -/
def isFirstPress (key : TableKey) (before : List ParseEvent) (e : ParseEvent) : Bool :=
  decide (e = ⟨key, true⟩) && !lastPressed before key

/-- The first presses of a key in `l`, after the history `before`. -/
def firstPressesFrom (key : TableKey) (before : List ParseEvent) : List ParseEvent → Nat
  | [] => 0
  | e :: l => (isFirstPress key before e).toNat + firstPressesFrom key (before ++ [e]) l

/-- The number of first presses of CapsLock. -/
def capsFirstPresses (l : List ParseEvent) : Nat := firstPressesFrom (.plain scCapslock) [] l

/-- The parity of CapsLock. -/
def capsOn (l : List ParseEvent) : Bool := decide (capsFirstPresses l % 2 = 1)

theorem firstPressesFrom_concat (key : TableKey) (before l : List ParseEvent) (e : ParseEvent) :
    firstPressesFrom key before (l ++ [e])
      = firstPressesFrom key before l + (isFirstPress key (before ++ l) e).toNat := by
  induction l generalizing before with
  | nil =>
      rw [List.append_nil]
      exact Nat.add_comm _ _
  | cons e' l ih =>
      simp only [List.cons_append, firstPressesFrom]
      rw [ih, List.append_assoc, List.singleton_append, Nat.add_assoc]

theorem capsOn_concat (l : List ParseEvent) (e : ParseEvent) :
    capsOn (l ++ [e]) = (capsOn l ^^ isFirstPress (.plain scCapslock) l e) := by
  unfold capsOn capsFirstPresses
  rw [firstPressesFrom_concat, List.nil_append]
  generalize firstPressesFrom (.plain scCapslock) [] l = n
  cases isFirstPress (.plain scCapslock) l e with
  | true =>
      rw [Bool.xor_true, ← decide_not, decide_eq_decide]
      simp only [Bool.toNat_true]
      omega
  | false => rw [Bool.xor_false, Bool.toNat_false, Nat.add_zero]

/-- The keyboard in typing mode, with the events so far. -/
structure TypingState where
  kb : KeyboardState
  history : List ParseEvent

def TypingState.start : TypingState := ⟨typingKeyboard, []⟩

def typeStep (s : TypingState) (e : ParseEvent) : TypingState :=
  ⟨parse setupKeyFunctions s.kb e, s.history ++ [e]⟩

/-- The event is a press of the letter key `k` while no Ctrl, Alt, AltGr or Meta is held. -/
def TypesLetter (history : List ParseEvent) (e : ParseEvent) (k : LetterKey) : Prop :=
  k ∈ letterKeys ∧ (∃ c : Fin scancodeLen, c.val = k.scancode ∧ e = ⟨.plain c, true⟩) ∧
    (modifiersOf (lastPressed history)).plain = true

/-- **The law of one event.** -/
structure TypingLaw (s : TypingState) (e : ParseEvent) : Prop where
  led : (typeStep s e).kb.ledKeys.capsLock = capsOn (s.history ++ [e])
  letter : ∀ k, TypesLetter s.history e k → (typeStep s e).kb.effects = s.kb.effects ++
    [.printChar (k.char (modifiersOf (lastPressed s.history)).shift (capsOn s.history))]

/-- What the code needs for it. -/
structure CapsAgree (s : TypingState) (e : ParseEvent) : Prop where
  no_repeat : e = capsPress → s.kb.isKeyPressed scCapslock = false
  held_is_led : ∀ k, TypesLetter s.history e k →
    s.kb.isKeyPressed scCapslock = s.kb.ledKeys.capsLock

structure TypingInv (s : TypingState) : Prop where
  held : s.kb.held = lastPressed s.history
  led : s.kb.ledKeys.capsLock = capsOn s.history
  mode : s.kb.keyboardMode = .typing

theorem typingInv_start : TypingInv .start where
  held := by
    funext k
    cases k <;> rfl
  led := rfl
  mode := rfl

theorem typingInv_step (s : TypingState) (e : ParseEvent) (h : TypingInv s)
    (hlaw : TypingLaw s e) : TypingInv (typeStep s e) where
  held := by
    show (parse setupKeyFunctions s.kb e).held = lastPressed (s.history ++ [e])
    rw [(parse_step setupKeyFunctions s.kb e).1, lastPressed_concat, h.held]
  led := hlaw.led
  mode := (parse_keyboardMode setupKeyFunctions s.kb e).trans h.mode

/-- **The law of one event holds exactly under the condition.** -/
theorem typingLaw_iff (s : TypingState) (e : ParseEvent) (h : TypingInv s) :
    TypingLaw s e ↔ CapsAgree s e := by
  have hcaps : s.kb.isKeyPressed scCapslock = lastPressed s.history (.plain scCapslock) :=
    congrFun h.held (.plain scCapslock)
  have hled : (typeStep s e).kb.ledKeys.capsLock = capsOn (s.history ++ [e])
      ↔ (e = capsPress → s.kb.isKeyPressed scCapslock = false) := by
    show (parse setupKeyFunctions s.kb e).ledKeys.capsLock = _ ↔ _
    rw [parse_capsLock, capsOn_concat, h.led, hcaps]
    unfold isFirstPress
    by_cases he : e = capsPress
    · subst he
      cases lastPressed s.history (.plain scCapslock) <;> simp [capsPress]
    · have hne : decide (e = ⟨.plain scCapslock, true⟩) = false := decide_eq_false he
      simp [he, hne]
  have hletter : ∀ k, TypesLetter s.history e k →
      ((typeStep s e).kb.effects = s.kb.effects ++
        [.printChar (k.char (modifiersOf (lastPressed s.history)).shift (capsOn s.history))]
      ↔ s.kb.isKeyPressed scCapslock = s.kb.ledKeys.capsLock) := by
    intro k h
    obtain ⟨hk, ⟨c, hc, rfl⟩, hplain⟩ := h
    rw [← h.held] at hplain
    show (parse setupKeyFunctions s.kb ⟨.plain c, true⟩).effects = _ ↔ _
    rw [parse_letter hk hc h.mode hplain, h.held, hcaps, h.led, List.append_cancel_left_eq,
      List.singleton_inj, KeyEffect.printChar.injEq]
    exact LetterKey.char_inj hk _ _ _
  constructor
  · intro hlaw
    exact ⟨hled.mp hlaw.led, fun k hk => (hletter k hk).mp (hlaw.letter k hk)⟩
  · intro hagree
    exact ⟨hled.mpr hagree.no_repeat, fun k hk => (hletter k hk).mpr (hagree.held_is_led k hk)⟩

/-- **The CapsLock and Shift law, exactly.** A history of presses, repeats and releases obeys the
    law at every event if and only if every CapsLock press finds the key up, and every letter
    typed without Ctrl, Alt, AltGr and Meta finds the CapsLock key held just when its LED is on. -/
theorem typing_law_iff (l : List ParseEvent) :
    Guarded typeStep TypingLaw .start l ↔ Guarded typeStep CapsAgree .start l :=
  guarded_iff_of_inv typingLaw_iff typingInv_step typingInv_start

/-- CapsLock pressed and released, then the key A. -/
def capsThenA : List ParseEvent :=
  [capsPress, ⟨.plain scCapslock, false⟩, ⟨.plain scA, true⟩]

/-- **The law fails**: with CapsLock switched on and released, the key A prints a small letter. -/
theorem typing_law_broken : ¬ ∀ l, Guarded typeStep TypingLaw .start l := by
  intro h
  have hlast := (h capsThenA).2.2.1
  have hA : (⟨0x1E, 'a', 'A'⟩ : LetterKey) ∈ letterKeys := by decide
  have hlaw := hlast.letter ⟨0x1E, 'a', 'A'⟩ ⟨hA, ⟨0x1E, rfl, rfl⟩, by decide⟩
  revert hlaw
  decide

end MapleKernel.Drivers
