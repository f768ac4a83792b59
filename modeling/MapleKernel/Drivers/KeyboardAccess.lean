/-
  File:      Drivers/KeyboardAccess.lean
  Subject:   ARRAY ACCESSES OF THE KEYBOARD DECODER: which bytes keep every index in bounds.

  The decoder indexes its four static arrays (length 2) with the port number itself, its sequence
  tables with the length of the open sequence, and the parse functions index their tables with
  the byte, less `0x80` for a release. Nothing in between checks an index.

  * `ParseCall.accesses` -- what one call of a parse function reads and writes, in order;
  * `SafeByte` -- one byte is handled without an access out of bounds;
  * `ByteOk` -- the bytes for which that is so, in the state they arrive in: those of port one
    that continue an open sequence or whose code has an entry in the table of its kind;
  * `decoder_safe_iff` -- a stream is handled safely exactly when all its bytes are such.
-/
import MapleKernel.Lib.Run
import MapleKernel.Drivers.KeyboardHandler
import MapleKernel.Drivers.KeyTyping

namespace MapleKernel.Drivers

open Runs

/-! ## 1. Accesses -/

/-- The arrays of the parse functions. -/
inductive KeyboardArray where
  | isKeyPressed | isExtendedKeyPressed
  | keyFunctions | isKeyTiedToFunction
  | extendedKeyFunctions | isExtendedKeyTiedToFunction
  | scanToKeyCode | extendedScanToKeyCode
  deriving DecidableEq, Repr

def KeyboardArray.length : KeyboardArray → Nat
  | .isKeyPressed => scancodeLen
  | .isExtendedKeyPressed => extendedScancodeLen
  | .keyFunctions => 256
  | .isKeyTiedToFunction => 256
  | .extendedKeyFunctions => 256
  | .isExtendedKeyTiedToFunction => 256
  | .scanToKeyCode => 128
  | .extendedScanToKeyCode => 128

structure ArrayAccess where
  array : KeyboardArray
  index : Nat
  deriving DecidableEq, Repr

def ArrayAccess.InBounds (a : ArrayAccess) : Prop := a.index < a.array.length

/-- `is_ctrl_held`. -/
def ctrlHeldAccesses : List ArrayAccess :=
  [⟨.isKeyPressed, scLeftCtrl⟩, ⟨.isExtendedKeyPressed, sceRightCtrl⟩]

/-- `get_current_mod_state`. -/
def modStateAccesses : List ArrayAccess :=
  [⟨.isKeyPressed, scLeftShift⟩, ⟨.isKeyPressed, scRightShift⟩,
   ⟨.isKeyPressed, scLeftCtrl⟩, ⟨.isExtendedKeyPressed, sceRightCtrl⟩,
   ⟨.isExtendedKeyPressed, sceLeftMeta⟩, ⟨.isExtendedKeyPressed, sceRightMeta⟩,
   ⟨.isKeyPressed, scLeftAlt⟩, ⟨.isExtendedKeyPressed, sceRightAlt⟩,
   ⟨.isExtendedKeyPressed, sceApps⟩, ⟨.isKeyPressed, scCapslock⟩,
   ⟨.isKeyPressed, scScrolllock⟩]

/-- The functions tied to keys look at the tables for Ctrl only. -/
def KeyFunction.accesses : KeyFunction → List ArrayAccess
  | .pressedR => ctrlHeldAccesses
  | .pressedF => ctrlHeldAccesses
  | _ => []

section Accesses

variable (fns : KeyFunctionTable)

/-- The accesses of a parse function for a key with the code `c`: the tied function, the
    keycode, the modifiers, and the table of pressed keys. -/
def keyAccesses (tied functions keycodes pressedTable : KeyboardArray) (isTied : Nat → Bool)
    (function : Nat → KeyFunction) (c : Nat) (pressed : Bool) : List ArrayAccess :=
  if pressed then
    ⟨tied, c⟩ :: (if isTied c then ⟨functions, c⟩ :: (function c).accesses else []) ++
      ⟨keycodes, c⟩ :: modStateAccesses ++ [⟨pressedTable, c⟩, ⟨pressedTable, c⟩]
  else
    ⟨pressedTable, c⟩ :: ⟨keycodes, c⟩ :: modStateAccesses

/-- What one call of a parse function reads and writes, in order. -/
def ParseCall.accesses : ParseCall → List ArrayAccess
  | .scanCode c pressed =>
      keyAccesses .isKeyTiedToFunction .keyFunctions .scanToKeyCode .isKeyPressed
        fns.isKeyTiedToFunction fns.keyFunctions c.toNat pressed
  | .extendedScanCode c pressed =>
      keyAccesses .isExtendedKeyTiedToFunction .extendedKeyFunctions .extendedScanToKeyCode
        .isExtendedKeyPressed fns.isExtendedKeyTiedToFunction fns.extendedKeyFunctions c.toNat
        pressed
  | .printScreen _ => modStateAccesses
  | .pausePressed => modStateAccesses

def ParseCall.Safe (c : ParseCall) : Prop := ∀ a ∈ c.accesses fns, a.InBounds

/-! ## 2. The handler on any stream -/

/-- The ports of the handler's precondition. -/
inductive KeyboardPort where
  | one | two
  deriving DecidableEq, Repr

def KeyboardPort.number : KeyboardPort → UInt8
  | .one => 1
  | .two => 2

/-- One byte from a port. An access out of bounds is undefined; the flags then stay. -/
def decoderStep (statics : Vector PortFlags 2) (op : KeyboardPort × UInt8) : Vector PortFlags 2 :=
  match keyboardHandlerScs1 statics op.2 op.1.number with
  | some r => r.1
  | none => statics

/-- **The byte is handled with every index in bounds**: those of the handler itself, and those
    of the parse functions it calls. -/
def SafeByte (statics : Vector PortFlags 2) (op : KeyboardPort × UInt8) : Prop :=
  ∃ r, keyboardHandlerScs1 statics op.2 op.1.number = some r ∧ ∀ c ∈ callsOf r.2, c.Safe fns

end Accesses

/-- A plain code with an entry in `is_key_pressed`, pressed or released. -/
def PlainByte (b : UInt8) : Prop := b.toNat < 0x59 ∨ (0x81 ≤ b.toNat ∧ b.toNat < 0x80 + 0x59)

/-- An extended code with an entry in `is_extended_key_pressed`, pressed or released. -/
def ExtendedByte (b : UInt8) : Prop := b.toNat < 0x6E ∨ (0x90 ≤ b.toNat ∧ b.toNat < 0x80 + 0x6E)

/-- The bytes that a port with the flags `f` takes safely. -/
def PortFlags.Takes (f : PortFlags) (b : UInt8) : Prop :=
  f.fourLongSequence = true ∨ b = 0xE1 ∨
    if f.sixLongSequence then
      f.currentSequenceLength.toNat < 6 ∧
        (pausePressedSequence[f.currentSequenceLength.toNat]? = some b ∨ PlainByte b)
    else if f.previousExtendedSignal then ExtendedByte b
    else b = 0xE0 ∨ PlainByte b

/-- **The condition**: the byte comes from port one, whose flags take it. -/
def ByteOk (statics : Vector PortFlags 2) (op : KeyboardPort × UInt8) : Prop :=
  op.1 = .one ∧ (statics[1]).Takes op.2

/-! ## 3. One call and one byte -/

theorem modStateAccesses_inBounds : ∀ a ∈ modStateAccesses, a.InBounds := by
  simp only [ArrayAccess.InBounds]
  decide

theorem KeyFunction.accesses_inBounds (f : KeyFunction) : ∀ a ∈ f.accesses, a.InBounds := by
  simp only [ArrayAccess.InBounds]
  cases f <;> decide

/-- The table of pressed keys is the shortest of the four. -/
theorem keyAccesses_inBounds_iff {tied functions keycodes pressedTable : KeyboardArray}
    {isTied : Nat → Bool} {function : Nat → KeyFunction} {c : Nat} {pressed : Bool}
    (htied : pressedTable.length ≤ tied.length)
    (hfunctions : pressedTable.length ≤ functions.length)
    (hkeycodes : pressedTable.length ≤ keycodes.length) :
    (∀ a ∈ keyAccesses tied functions keycodes pressedTable isTied function c pressed,
      a.InBounds) ↔ c < pressedTable.length := by
  constructor
  · intro h
    refine h ⟨pressedTable, c⟩ ?_
    cases pressed <;> simp [keyAccesses]
  · intro hc a ha
    have hown : ∀ t : KeyboardArray, pressedTable.length ≤ t.length →
        (⟨t, c⟩ : ArrayAccess).InBounds := fun t ht => lt_of_lt_of_le hc ht
    cases pressed with
    | true =>
        simp only [keyAccesses, ↓reduceIte, List.mem_append, List.mem_cons, List.not_mem_nil,
          or_false] at ha
        rcases ha with ((rfl | hf) | rfl | hm) | rfl | rfl
        · exact hown _ htied
        · split at hf
          · rcases List.mem_cons.mp hf with rfl | hf
            · exact hown _ hfunctions
            · exact KeyFunction.accesses_inBounds _ a hf
          · exact absurd hf List.not_mem_nil
        · exact hown _ hkeycodes
        · exact modStateAccesses_inBounds a hm
        · exact hown _ le_rfl
        · exact hown _ le_rfl
    | false =>
        simp only [keyAccesses, Bool.false_eq_true, ↓reduceIte, List.mem_cons] at ha
        rcases ha with rfl | rfl | hm
        · exact hown _ le_rfl
        · exact hown _ hkeycodes
        · exact modStateAccesses_inBounds a hm

section Byte

variable {fns : KeyFunctionTable}

@[simp] theorem safe_scanCode {c : UInt8} {pressed : Bool} :
    (ParseCall.scanCode c pressed).Safe fns ↔ c.toNat < 0x59 :=
  keyAccesses_inBounds_iff (by decide) (by decide) (by decide)

@[simp] theorem safe_extendedScanCode {c : UInt8} {pressed : Bool} :
    (ParseCall.extendedScanCode c pressed).Safe fns ↔ c.toNat < 0x6E :=
  keyAccesses_inBounds_iff (by decide) (by decide) (by decide)

@[simp] theorem safe_printScreen {pressed : Bool} : (ParseCall.printScreen pressed).Safe fns :=
  modStateAccesses_inBounds

@[simp] theorem safe_pausePressed : ParseCall.pausePressed.Safe fns := modStateAccesses_inBounds

/-- What `handlerLengthTwo` calls, for either table: a release is `0x80` above its press. -/
theorem safe_codeByte {call : UInt8 → Bool → ParseCall} {b start : UInt8} {n : Nat}
    (hcall : ∀ c pressed, (call c pressed).Safe fns ↔ c.toNat < n)
    (hstart : 0x80 ≤ start.toNat) (hn : n ≤ start.toNat) :
    (if b ≥ start then call (b - 0x80) false else call b true).Safe fns ↔
      b.toNat < n ∨ (start.toNat ≤ b.toNat ∧ b.toNat < 0x80 + n) := by
  split
  · next h =>
      have hle : start.toNat ≤ b.toNat := UInt8.le_iff_toNat_le.mp h
      have hsub : (b - 0x80).toNat = b.toNat - 0x80 :=
        UInt8.toNat_sub_of_le _ _ (UInt8.le_iff_toNat_le.mpr (le_trans hstart hle))
      rw [hcall, hsub]
      omega
  · next h =>
      have hlt : ¬ start.toNat ≤ b.toNat := fun h' => h (UInt8.le_iff_toNat_le.mpr h')
      rw [hcall]
      omega

theorem handlerLengthTwo_safe_iff {irq b : UInt8} {f : PortFlags} :
    (∀ c ∈ callsOf (handlerLengthTwo irq f b).2, c.Safe fns) ↔
      if f.previousExtendedSignal then ExtendedByte b else PlainByte b := by
  unfold handlerLengthTwo
  split
  · simp only [callsOf, List.mem_singleton, forall_eq]
    exact safe_codeByte (fun _ _ => safe_extendedScanCode) (by decide) (by decide)
  · simp only [callsOf, List.mem_singleton, forall_eq]
    exact safe_codeByte (fun _ _ => safe_scanCode) (by decide) (by decide)

/-- **What holds of a port's flags between two bytes**: an open Print Screen stands before its
    third or fourth byte, and an open Pause follows no E0 prefix. -/
structure PortFlags.Inv (f : PortFlags) : Prop where
  four : f.fourLongSequence = true → f.currentSequenceLength = 2 ∨ f.currentSequenceLength = 3
  six : f.sixLongSequence = true → f.previousExtendedSignal = false

variable (fns) in
/-- One byte on a port with the flags `f`: no index is out of bounds. -/
def PortFlags.SafeAt (f : PortFlags) (irq b : UInt8) : Prop :=
  ∃ r, handlerByte irq f b = some r ∧ ∀ c ∈ callsOf r.2, c.Safe fns

variable {f : PortFlags} {irq b : UInt8}

/-- An open Print Screen takes every byte. -/
theorem PortFlags.Inv.closed (six : Bool) : (⟨false, false, six, 0⟩ : PortFlags).Inv :=
  ⟨fun h => absurd h Bool.false_ne_true, fun _ => rfl⟩

theorem handlerLengthFour_safe (h : f.currentSequenceLength = 2 ∨ f.currentSequenceLength = 3) :
    ∃ r, handlerLengthFour irq f b = some r ∧ (∀ c ∈ callsOf r.2, c.Safe fns) ∧ r.1.Inv := by
  -- every branch clears the prefix; the sequence is closed, or stands one byte further
  have h23 : ((2 : UInt8) == 3) = false := by decide
  rcases h with h | h
  · simp only [handlerLengthFour, printScreenPressedSequence, printScreenReleasedSequence, h,
      UInt8.reduceToNat, List.getElem?_cons_succ, List.getElem?_cons_zero, Option.bind_eq_bind,
      Option.bind_some, h23, Bool.false_eq_true, ↓reduceIte, UInt8.reduceAdd]
    split
    · exact ⟨_, rfl, by simp [callsOf], fun _ => Or.inr rfl, fun _ => rfl⟩
    · exact ⟨_, rfl, by simp [callsOf], PortFlags.Inv.closed _⟩
  · simp only [handlerLengthFour, printScreenPressedSequence, printScreenReleasedSequence, h,
      UInt8.reduceToNat, List.getElem?_cons_succ, List.getElem?_cons_zero, Option.bind_eq_bind,
      Option.bind_some, BEq.rfl, ↓reduceIte]
    split
    · exact ⟨_, rfl, by simp [callsOf], PortFlags.Inv.closed _⟩
    · split
      · exact ⟨_, rfl, by simp [callsOf], PortFlags.Inv.closed _⟩
      · exact ⟨_, rfl, by simp [callsOf], PortFlags.Inv.closed _⟩

theorem not_plainByte_E0 : ¬ PlainByte 0xE0 := by
  simp only [PlainByte, UInt8.reduceToNat]
  omega

theorem handlerLengthTwo_inv (hfour : f.fourLongSequence = false)
    (hsix : f.sixLongSequence = true → b ≠ 0xE0) : (handlerLengthTwo irq f b).1.Inv := by
  have hkeep : ({ f with previousExtendedSignal := b == 0xE0 } : PortFlags).Inv :=
    ⟨fun h => absurd h (by simp [hfour]), fun h => by simpa using hsix h⟩
  unfold handlerLengthTwo
  split <;> exact hkeep

/-- The Pause part: the byte opens the sequence, continues the open one, or falls through to the
    length 2 part. -/
theorem handlerLengthSix_safe_iff :
    (∃ r, handlerLengthSix irq f b = some r ∧ ∀ c ∈ callsOf r.2, c.Safe fns) ↔
      b = 0xE1 ∨
        if f.sixLongSequence then
          f.currentSequenceLength.toNat < 6 ∧
            (pausePressedSequence[f.currentSequenceLength.toNat]? = some b ∨ PlainByte b)
        else if f.previousExtendedSignal then ExtendedByte b
        else PlainByte b := by
  unfold handlerLengthSix
  by_cases hE1 : b = 0xE1
  · simp [hE1, callsOf]
  rw [if_neg (by simpa using hE1)]
  cases hsix : f.sixLongSequence with
  | false =>
      simp only [Bool.false_eq_true, ↓reduceIte, Option.some.injEq, exists_eq_left', hE1,
        false_or, handlerLengthTwo_safe_iff]
  | true =>
      simp only [↓reduceIte, hE1, false_or, Option.bind_eq_bind]
      by_cases hlen : f.currentSequenceLength.toNat < 6
      · obtain ⟨e, he⟩ : ∃ e, pausePressedSequence[f.currentSequenceLength.toNat]? = some e :=
          ⟨_, List.getElem?_eq_getElem hlen⟩
        simp only [he, Option.bind_some, hlen, true_and, Option.some.injEq]
        by_cases hb : b = e
        · subst hb
          simp only [BEq.rfl, ↓reduceIte, true_or, iff_true]
          split
          · exact ⟨_, rfl, by simp [callsOf]⟩
          · exact ⟨_, rfl, by simp [callsOf]⟩
        · have hne : e ≠ b := Ne.symm hb
          rw [if_neg (by simpa using hb)]
          simp only [Option.some.injEq, exists_eq_left', handlerLengthTwo_safe_iff,
            Bool.false_eq_true, ↓reduceIte, hne, false_or]
      · have hnone : pausePressedSequence[f.currentSequenceLength.toNat]? = none :=
          List.getElem?_eq_none (not_lt.mp hlen)
        simp [hnone, hlen]

theorem handlerLengthSix_inv (hfour : f.fourLongSequence = false)
    {r : PortFlags × List HandlerAction} (h : handlerLengthSix irq f b = some r)
    (hsafe : ∀ c ∈ callsOf r.2, c.Safe fns) : r.1.Inv := by
  have hclosed : ∀ g : PortFlags, g.fourLongSequence = false →
      g.previousExtendedSignal = false → g.Inv :=
    fun g h4 hp => ⟨fun h => absurd h (by simp [h4]), fun _ => hp⟩
  unfold handlerLengthSix at h
  split at h
  · cases h
    exact hclosed _ hfour rfl
  split at h
  · simp only [Option.bind_eq_bind, Option.bind_eq_some_iff] at h
    obtain ⟨e, -, h⟩ := h
    split at h
    · split at h
      · cases h
        exact hclosed _ hfour rfl
      · cases h
        exact hclosed _ hfour rfl
    · cases h
      -- a byte that falls through is a plain one, so it is no prefix
      rw [handlerLengthTwo_safe_iff] at hsafe
      refine handlerLengthTwo_inv hfour fun _ hE0 => not_plainByte_E0 ?_
      simpa [hE0] using hsafe
  · next hsix =>
      cases h
      exact handlerLengthTwo_inv hfour fun h6 => absurd h6 hsix

/-- The four ways a byte can go. -/
theorem handlerByte_cases (irq : UInt8) (f : PortFlags) (b : UInt8) :
    (b = 0xE0 ∧ f.fourLongSequence = false ∧ f.sixLongSequence = false ∧
      handlerByte irq f b = some ({ f with previousExtendedSignal := true }, [.sendEoi irq])) ∨
    (f.previousExtendedSignal = true ∧ f.fourLongSequence = false ∧ (b = 0x2A ∨ b = 0xB7) ∧
      handlerByte irq f b =
        some ({ f with fourLongSequence := true, currentSequenceLength := 2
                       previousExtendedSignal := false }, [.sendEoi irq])) ∨
    (f.fourLongSequence = true ∧ handlerByte irq f b = handlerLengthFour irq f b) ∨
    (f.fourLongSequence = false ∧ (b = 0xE0 → f.sixLongSequence = true) ∧
      handlerByte irq f b = handlerLengthSix irq f b) := by
  by_cases h1 : (b == 0xE0 && !f.fourLongSequence && !f.sixLongSequence) = true
  · refine Or.inl ?_
    have h := h1
    simp only [Bool.and_eq_true, beq_iff_eq, Bool.not_eq_true'] at h
    exact ⟨h.1.1, h.1.2, h.2, by simp [handlerByte, h]⟩
  by_cases h2 : (f.previousExtendedSignal && !f.fourLongSequence &&
      (b == 0x2A || b == 0xB7)) = true
  · refine Or.inr (Or.inl ?_)
    have h := h2
    simp only [Bool.and_eq_true, Bool.or_eq_true, beq_iff_eq, Bool.not_eq_true'] at h
    exact ⟨h.1.1, h.1.2, h.2, by simp only [handlerByte, if_neg h1, if_pos h2]⟩
  cases h4 : f.fourLongSequence with
  | true =>
      refine Or.inr (Or.inr (Or.inl ⟨rfl, ?_⟩))
      simp only [handlerByte, if_neg h1, if_neg h2, if_pos h4]
  | false =>
      refine Or.inr (Or.inr (Or.inr ⟨rfl, fun hb => ?_, ?_⟩))
      · simpa [hb, h4] using h1
      · have h4' : ¬ f.fourLongSequence = true := by simp [h4]
        simp only [handlerByte, if_neg h1, if_neg h2, if_neg h4']

theorem extendedByte_E0 : ExtendedByte 0xE0 := by
  simp only [ExtendedByte, UInt8.reduceToNat]
  omega

/-- The second byte of Print Screen is in the table of extended keys. -/
theorem extendedByte_printScreen (hb : b = 0x2A ∨ b = 0xB7) : ExtendedByte b := by
  rcases hb with rfl | rfl
  · exact Or.inl (by decide)
  · exact Or.inr ⟨by decide, by decide⟩

/-- **One byte is handled safely exactly when the flags take it.** -/
theorem safeAt_iff_takes (hf : f.Inv) : f.SafeAt fns irq b ↔ f.Takes b := by
  unfold PortFlags.SafeAt PortFlags.Takes
  obtain ⟨rfl, h4, h6, hr⟩ | ⟨hp, h4, hb, hr⟩ | ⟨h4, hr⟩ | ⟨h4, hE0, hr⟩ :=
    handlerByte_cases irq f b
  · simp [hr, callsOf, h4, h6, extendedByte_E0]
  · have h6 : f.sixLongSequence = false := by
      by_contra h6
      exact absurd (hf.six (by simpa using h6)) (by simp [hp])
    simp [hr, callsOf, h4, h6, hp, extendedByte_printScreen hb]
  · obtain ⟨r, hr', hsafe, -⟩ : ∃ r, handlerLengthFour irq f b = some r ∧
        (∀ c ∈ callsOf r.2, c.Safe fns) ∧ r.1.Inv := handlerLengthFour_safe (hf.four h4)
    exact ⟨fun _ => Or.inl h4, fun _ => ⟨r, hr.trans hr', hsafe⟩⟩
  · rw [hr, handlerLengthSix_safe_iff]
    cases h6 : f.sixLongSequence with
    | true => simp [h4]
    | false =>
        have hb : b ≠ 0xE0 := fun hb => absurd (hE0 hb) (by simp [h6])
        simp [h4, hb]

/-- **A byte that is handled safely keeps the invariant.** -/
theorem handlerByte_inv (hf : f.Inv) {r : PortFlags × List HandlerAction}
    (h : handlerByte irq f b = some r) (hsafe : ∀ c ∈ callsOf r.2, c.Safe fns) : r.1.Inv := by
  rcases handlerByte_cases irq f b with ⟨-, h4, h6, hr⟩ | ⟨-, -, -, hr⟩ | ⟨h4, hr⟩ | ⟨h4, -, hr⟩
  · cases h.symm.trans hr
    exact ⟨fun h => absurd h (by simp [h4]), fun h => absurd h (by simp [h6])⟩
  · cases h.symm.trans hr
    exact ⟨fun _ => Or.inl rfl, fun _ => rfl⟩
  · obtain ⟨r', hr', -, hinv⟩ : ∃ r, handlerLengthFour irq f b = some r ∧
        (∀ c ∈ callsOf r.2, c.Safe fns) ∧ r.1.Inv := handlerLengthFour_safe (hf.four h4)
    cases h.symm.trans (hr.trans hr')
    exact hinv
  · exact handlerLengthSix_inv h4 (hr ▸ h) hsafe

end Byte

/-! ## 4. Streams -/

section Streams

variable (fns : KeyFunctionTable)

/-- The handler on port one is `handlerByte` on the flags of index 1. -/
theorem keyboardHandlerScs1_one (statics : Vector PortFlags 2) (b : UInt8) :
    keyboardHandlerScs1 statics b KeyboardPort.one.number =
      (handlerByte ps2Port1Irq statics[1] b).map
        fun r => (statics.setIfInBounds 1 r.1, r.2) := by
  have hget : statics[(1 : UInt8).toNat]? = some statics[1] := rfl
  simp only [keyboardHandlerScs1, KeyboardPort.number, hget, BEq.rfl, ↓reduceIte,
    Option.bind_eq_bind, Option.bind_some]
  cases handlerByte ps2Port1Irq statics[1] b <;> rfl

/-- The arrays have no entry for port two. -/
theorem keyboardHandlerScs1_two (statics : Vector PortFlags 2) (b : UInt8) :
    keyboardHandlerScs1 statics b KeyboardPort.two.number = none := rfl

variable {statics : Vector PortFlags 2}

theorem safeByte_iff_byteOk (hI : (statics[1]).Inv) (op : KeyboardPort × UInt8) :
    SafeByte fns statics op ↔ ByteOk statics op := by
  obtain ⟨port, b⟩ := op
  cases port with
  | one =>
      have hiff : (statics[1]).SafeAt fns ps2Port1Irq b ↔ (statics[1]).Takes b :=
        safeAt_iff_takes hI
      simp only [SafeByte, ByteOk, keyboardHandlerScs1_one, true_and, ← hiff, PortFlags.SafeAt,
        Option.map_eq_some_iff]
      constructor
      · intro h
        obtain ⟨-, ⟨r, hr, rfl⟩, hsafe⟩ := h
        exact ⟨r, hr, hsafe⟩
      · intro h
        obtain ⟨r, hr, hsafe⟩ := h
        exact ⟨_, ⟨r, hr, rfl⟩, hsafe⟩
  | two => simp [SafeByte, ByteOk, keyboardHandlerScs1_two]

theorem decoderStep_inv (hI : (statics[1]).Inv) {op : KeyboardPort × UInt8}
    (hsafe : SafeByte fns statics op) : ((decoderStep statics op)[1]).Inv := by
  obtain ⟨port, b⟩ := op
  obtain ⟨r, hr, hc⟩ := hsafe
  simp only [decoderStep, hr]
  cases port with
  | one =>
      simp only [keyboardHandlerScs1_one, Option.map_eq_some_iff] at hr
      obtain ⟨r', hr', rfl⟩ := hr
      simpa using handlerByte_inv hI hr' hc
  | two => simp [keyboardHandlerScs1_two] at hr

/-- **The decoder stays inside its arrays exactly when every byte comes from port one and is one
    that the flags take**: any byte of port two, a plain code of `0x59 .. 0x80` or above `0xD8`,
    an extended code of `0x6E .. 0x8F` or above `0xED`, and a byte after a sixth E1 do not. -/
theorem decoder_safe_iff (l : List (KeyboardPort × UInt8)) :
    Guarded decoderStep (SafeByte fns) staticsInitial l ↔
      Guarded decoderStep ByteOk staticsInitial l := by
  have h0 : (staticsInitial[1]).Inv := ⟨nofun, nofun⟩
  exact guarded_iff_of_inv (I := fun statics => (statics[1]).Inv)
    (fun _ op hI => safeByte_iff_byteOk fns hI op) (fun _ _ hI hA => decoderStep_inv fns hI hA) h0

end Streams

/-- The first byte of a keyboard on port two, and on port one the E0 of Up after a Pause: the
    first indexes the static arrays with 2, the second `is_key_pressed` with `0x60`. -/
theorem decoder_unsafe :
    ¬ Guarded decoderStep (SafeByte setupKeyFunctions) staticsInitial [(.two, 0x1E)] ∧
    ¬ Guarded decoderStep (SafeByte setupKeyFunctions) staticsInitial
      ((KeyEvent.pause.bytes ++ KeyEvent.bytes (.extendedMake .up)).map fun b => (.one, b)) := by
  constructor
  · intro h
    obtain ⟨⟨r, hr, -⟩, -⟩ := h
    rw [keyboardHandlerScs1_two] at hr
    cases hr
  · intro h
    obtain ⟨-, -, -, -, -, -, ⟨r, hr, hc⟩, -⟩ := h
    have hcall : ParseCall.scanCode 0x60 false ∈ callsOf r.2 := by
      cases hr
      exact List.mem_cons_self
    exact absurd (safe_scanCode.mp (hc _ hcall)) (by decide)

end MapleKernel.Drivers
