/-
  File:      Drivers/MouseDecoding.lean
  Subject:   WHAT A STREAM OF MOUSE PACKETS MEANS: a cursor moved by 9-bit numbers, and edges of the
             three buttons.

  * `MouseBytes` -- a packet as its three bytes, with the numbers and buttons they stand for;
    `cursorX` and `cursorY` fold the movements, `transitions` compares the buttons of two packets.
  * `afterPacket` -- what the three interrupts of one packet do to the handler's state.
  * `mousePackets_decoded`: after every stream of packets the state of the handler is what the
    stream means. The handler computes in `int16_t`; the position is said of the streams whose
    cursor stays below 32768.
-/
import MapleKernel.Drivers.Ps2

namespace MapleKernel.Drivers

open Runs Program

/-! ## 1. The meaning of a packet -/

/-- The three bytes of a packet, in the order they arrive. -/
structure MouseBytes where
  flags : UInt8
  xMovement : UInt8
  yMovement : UInt8
  deriving DecidableEq, Repr

/-- A movement byte with its sign bit, as a two's complement number of nine bits. -/
def nineBit (sign : Bool) (movement : UInt8) : Int :=
  (movement.toNat : Int) - if sign then 256 else 0

namespace MouseBytes

variable (p : MouseBytes)

/-- Bit `k` of the first byte. -/
def flag (k : Nat) : Bool := p.flags.toNat.testBit k

def dx : Int := if p.flag 6 then 0 else nineBit (p.flag 4) p.xMovement

def dy : Int := if p.flag 7 then 0 else nineBit (p.flag 5) p.yMovement

def buttons : MouseButtonPressed := ⟨p.flag 0, p.flag 2, p.flag 1⟩

/-- The bytes of a packet of port `port`. -/
def bytes (port : MousePort) : List (MousePort × UInt8) :=
  [(port, p.flags), (port, p.xMovement), (port, p.yMovement)]

end MouseBytes

def cursorX (ps : List MouseBytes) : Int := ps.foldl (fun x p => max 0 (x + p.dx)) 0

def cursorY (ps : List MouseBytes) : Int := ps.foldl (fun y p => max 0 (y - p.dy)) 0

/-- No coordinate on the way exceeds 32767. -/
def StaysSmall (ps : List MouseBytes) : Prop :=
  ∀ qs, qs <+: ps → cursorX qs ≤ 32767 ∧ cursorY qs ≤ 32767

def releasedButtons : MouseButtonPressed := ⟨false, false, false⟩

/-- The buttons held after `ps`: those of the last packet. -/
def heldAfter (ps : List MouseBytes) : MouseButtonPressed :=
  ps.foldl (fun _ p => p.buttons) releasedButtons

/-- The report of one button: on its first press, on its release, else none. -/
def edge (firstPress released : String) (before now : Bool) : List String :=
  if now && !before then [firstPress] else if !now && before then [released] else []

/-- The reports of the three buttons, in the order of the handler. -/
def transitions (before now : MouseButtonPressed) : List String :=
  edge "[First Press] Left mouse button\n" "[Released  ] Left mouse button\n"
      before.leftButton now.leftButton ++
    edge "[First Press] Middle mouse button\n" "[Released  ] Middle mouse button\n"
      before.middleButton now.middleButton ++
    edge "[First Press] Right mouse button\n" "[Released  ] Right mouse button\n"
      before.rightButton now.rightButton

/-- The texts among the effects. The handler prints the reports of the buttons and no other. -/
def texts (effects : List MouseEffect) : List String :=
  effects.filterMap fun e => match e with
    | .kprintf text => some text
    | _ => none

/-! ## 2. The arithmetic of the handler -/

theorem signExtend_toInt (val : UInt8) (sign : Bool) :
    (signExtend val sign).toInt = nineBit sign val := by
  have hlt : val.toNat < 2 ^ 8 := val.toNat_lt
  have hval : (val.toBitVec.setWidth 16).toNat = val.toNat := by
    rw [BitVec.toNat_setWidth]
    exact Nat.mod_eq_of_lt (Nat.lt_trans hlt (by decide))
  unfold signExtend nineBit
  cases sign with
  | false =>
      rw [if_neg (by decide), BitVec.toInt_eq_toNat_cond, hval, if_pos (by omega)]
      simp
  | true =>
      have hor : (val.toBitVec.setWidth 16 ||| 0xFF00#16).toNat = 0xFF00 + val.toNat := by
        have h := Nat.two_pow_add_eq_or_of_lt hlt 255
        rw [BitVec.toNat_or, hval, Nat.or_comm]
        exact h.symm
      rw [if_pos rfl, BitVec.toInt_eq_toNat_cond, hor, if_neg (by omega)]
      simp only [if_true]
      push_cast
      omega

theorem nineBit_range (sign : Bool) (m : UInt8) : -256 ≤ nineBit sign m ∧ nineBit sign m ≤ 255 := by
  have hlt : m.toNat < 2 ^ 8 := m.toNat_lt
  unfold nineBit
  cases sign <;> simp <;> omega

theorem clampAtZero_toInt (v : BitVec 16) : (clampAtZero v).toInt = max 0 v.toInt := by
  have hslt : v.slt 0 = decide (v.toInt < 0) := rfl
  rw [clampAtZero, hslt]
  by_cases h : v.toInt < 0
  · rw [if_pos (decide_eq_true h), max_eq_left (Int.le_of_lt h)]
    rfl
  · rw [if_neg (by simpa using h), max_eq_right (Int.not_lt.mp h)]

/-- A sum in the range of an `int16_t` does not wrap. -/
theorem toInt_add_small {v d : BitVec 16} (hlo : -32768 ≤ v.toInt + d.toInt)
    (hhi : v.toInt + d.toInt ≤ 32767) : (v + d).toInt = v.toInt + d.toInt := by
  rw [BitVec.toInt_add]
  exact Int.bmod_eq_of_le (by omega) (by omega)

theorem toInt_sub_small {v d : BitVec 16} (hlo : -32768 ≤ v.toInt - d.toInt)
    (hhi : v.toInt - d.toInt ≤ 32767) : (v - d).toInt = v.toInt - d.toInt := by
  rw [BitVec.toInt_sub]
  exact Int.bmod_eq_of_le (by omega) (by omega)

/-! ## 3. One packet -/

/-- The state that `quick_enable_mouse` leaves to the handler. -/
def MouseState.enabled : MouseState :=
  { MouseState.boot with gMouseProp := ⟨0, 0, ⟨0xFF, 0xFF, 0xFF, 0xFF⟩⟩ }

/-- **`quick_enable_mouse` leaves that state**, where it returns. -/
theorem wp_quickEnableMouse_gMouseProp {e : Ps2Env} {w : World} :
    wp quickEnableMouse e w (fun _ w' => w'.gMouseProp = MouseState.enabled.gMouseProp)
      (fun h _ => h = .mouseError) := by
  have hsend : Total (fun _ => True) (sendCommandToSecondPs2Port enableReporting) :=
    total_sendCommandToSecondPs2Port trivial
  have hwait : Total (fun _ => True) waitTillReadyForResponse := total_waitTillReadyForResponse
  simp only [quickEnableMouse, controller, wp_bind, wp_on]
  refine wp_mono (hsend e w.io) (fun _ io₁ _ => ?_) fun _ _ h => h.elim
  refine wp_mono (hwait e io₁) (fun err io₂ _ => ?_) fun _ _ h => h.elim
  by_cases herr : err = .none
  · rw [if_neg (not_not.mpr herr)]
    exact rfl
  · rw [if_pos herr]
    exact rfl

/-- The packet the handler puts together. -/
def MouseBytes.packet (p : MouseBytes) : Generic3Packet :=
  ⟨.ofRaw p.flags, p.xMovement, p.yMovement⟩

theorem decode_dx (p : MouseBytes) : p.packet.decode.dx.toInt = p.dx := by
  show (if p.flag 6 then 0 else signExtend p.xMovement (p.flag 4)).toInt = p.dx
  unfold MouseBytes.dx
  cases p.flag 6 with
  | true => rfl
  | false => exact signExtend_toInt _ _

theorem decode_dy (p : MouseBytes) : p.packet.decode.dy.toInt = p.dy := by
  show (if p.flag 7 then 0 else signExtend p.yMovement (p.flag 5)).toInt = p.dy
  unfold MouseBytes.dy
  cases p.flag 7 with
  | true => rfl
  | false => exact signExtend_toInt _ _

theorem dx_range (p : MouseBytes) : -256 ≤ p.dx ∧ p.dx ≤ 255 := by
  unfold MouseBytes.dx
  split
  · omega
  · exact nineBit_range _ _

theorem dy_range (p : MouseBytes) : -256 ≤ p.dy ∧ p.dy ≤ 255 := by
  unfold MouseBytes.dy
  split
  · omega
  · exact nineBit_range _ _

theorem texts_append (l l' : List MouseEffect) : texts (l ++ l') = texts l ++ texts l' :=
  List.filterMap_append

/-- The block of one button reports its edge. -/
theorem texts_buttonPrints (firstPress released : String) (bit held : Bool) :
    texts (buttonPrints firstPress released (buttonEvent bit held))
      = edge firstPress released held bit := by
  cases bit <;> cases held <;> rfl

section Handler

variable (getPixel : List MouseEffect → BitVec 16 → BitVec 16 → MouseColor)

/-- What the three interrupts of a packet do. -/
structure AfterPacket (p : MouseBytes) (s s' : MouseState) : Prop where
  packetIdx : s'.packetIdx = 0
  held : s'.buttonPressed = p.buttons
  x : s'.gMouseProp.x = clampAtZero (s.gMouseProp.x + p.packet.decode.dx)
  y : s'.gMouseProp.y = clampAtZero (s.gMouseProp.y - p.packet.decode.dy)
  reports : ∃ new, s'.effects = s.effects ++ new ∧
    texts new = transitions s.buttonPressed p.buttons

/-- The state in which the third byte has completed the packet `p`. -/
def MouseState.stored (s : MouseState) (p : MouseBytes) : MouseState :=
  { s with
    global3Packet := p.packet
    packetIdx := 2
    effects := s.effects ++ [.sendEoi] ++ [.sendEoi] }

theorem run_bytes (port : MousePort) (p : MouseBytes) (s : MouseState) (h : s.packetIdx = 0) :
    ∃ history, run (mouseStep getPixel) s (p.bytes port) =
      { processPacket getPixel (s.stored p) with
        effects := (processPacket getPixel (s.stored p)).effects ++ [.sendEoi]
        history := history } := by
  obtain ⟨packet, idx, held, prop, effects, processed, history⟩ := s
  obtain rfl : idx = 0 := h
  exact ⟨_, rfl⟩

theorem processPacket_x (s : MouseState) : (processPacket getPixel s).gMouseProp.x
    = clampAtZero (s.gMouseProp.x + s.global3Packet.decode.dx) := by
  dsimp only [processPacket]

theorem processPacket_y (s : MouseState) : (processPacket getPixel s).gMouseProp.y
    = clampAtZero (s.gMouseProp.y - s.global3Packet.decode.dy) := by
  dsimp only [processPacket]

/-- A packet adds the edges of its buttons; its other effects are no text. -/
theorem texts_processPacket (s : MouseState) :
    ∃ new, (processPacket getPixel s).effects = s.effects ++ new ∧
      texts new = transitions s.buttonPressed ⟨s.global3Packet.decode.left,
        s.global3Packet.decode.middle, s.global3Packet.decode.right⟩ := by
  obtain ⟨prints, movement, line, hp, hm, hl, heffects⟩ : ∃ prints movement line,
      prints = buttonPrints "[First Press] Left mouse button\n" "[Released  ] Left mouse button\n"
          (buttonEvent s.global3Packet.decode.left s.buttonPressed.leftButton) ++
        buttonPrints "[First Press] Middle mouse button\n" "[Released  ] Middle mouse button\n"
          (buttonEvent s.global3Packet.decode.middle s.buttonPressed.middleButton) ++
        buttonPrints "[First Press] Right mouse button\n" "[Released  ] Right mouse button\n"
          (buttonEvent s.global3Packet.decode.right s.buttonPressed.rightButton) ∧
      texts movement = [] ∧ texts line = [] ∧
      (processPacket getPixel s).effects = s.effects ++ prints ++ movement ++ line := by
    refine ⟨_, _, _, rfl, ?_, ?_, rfl⟩
    · split <;> rfl
    · split <;> rfl
  refine ⟨prints ++ movement ++ line, ?_, ?_⟩
  · rw [heffects]
    simp only [List.append_assoc]
  · simp only [texts_append, hm, hl, List.append_nil, hp, texts_buttonPrints]
    rfl

/-- **Three bytes from a packet's start are taken as that packet.** -/
theorem afterPacket (port : MousePort) (p : MouseBytes) (s : MouseState) (h : s.packetIdx = 0) :
    AfterPacket p s (run (mouseStep getPixel) s (p.bytes port)) := by
  obtain ⟨history, hrun⟩ := run_bytes getPixel port p s h
  obtain ⟨new, heffects, hnew⟩ := texts_processPacket getPixel (s.stored p)
  rw [hrun]
  have hx := processPacket_x getPixel (s.stored p)
  have hy := processPacket_y getPixel (s.stored p)
  refine ⟨rfl, rfl, hx, hy, .sendEoi :: .sendEoi :: (new ++ [.sendEoi]), ?_, ?_⟩
  · rw [heffects, MouseState.stored]
    simp only [List.append_assoc, List.singleton_append]
    rfl
  · show texts (new ++ [.sendEoi]) = _
    rw [texts_append, hnew]
    exact List.append_nil _

/-! ## 4. Every stream -/

/-- The state after the packets `ps` of a mouse on port `port`. -/
def afterPackets (port : MousePort) (ps : List MouseBytes) : MouseState :=
  run (mouseStep getPixel) .enabled (ps.flatMap fun p => p.bytes port)

theorem afterPackets_concat (port : MousePort) (ps : List MouseBytes) (p : MouseBytes) :
    afterPackets getPixel port (ps ++ [p])
      = run (mouseStep getPixel) (afterPackets getPixel port ps) (p.bytes port) := by
  rw [afterPackets, List.flatMap_append, run_append, List.flatMap_singleton]
  rfl

/-- The handler's state after `ps` is what `ps` means. -/
structure Decoded (port : MousePort) (ps : List MouseBytes) : Prop where
  packetIdx : (afterPackets getPixel port ps).packetIdx = 0
  held : (afterPackets getPixel port ps).buttonPressed = heldAfter ps
  x : StaysSmall ps → (afterPackets getPixel port ps).gMouseProp.x.toInt = cursorX ps
  y : StaysSmall ps → (afterPackets getPixel port ps).gMouseProp.y.toInt = cursorY ps
  /-- With each packet exactly the edges of its buttons are reported. -/
  reports : ∀ qs p rest, ps = qs ++ [p] ++ rest → ∃ new,
    (afterPackets getPixel port (qs ++ [p])).effects
      = (afterPackets getPixel port qs).effects ++ new ∧
    texts new = transitions (heldAfter qs) p.buttons

theorem cursorX_concat (ps : List MouseBytes) (p : MouseBytes) :
    cursorX (ps ++ [p]) = max 0 (cursorX ps + p.dx) := by
  simp only [cursorX, List.foldl_append, List.foldl_cons, List.foldl_nil]

theorem cursorY_concat (ps : List MouseBytes) (p : MouseBytes) :
    cursorY (ps ++ [p]) = max 0 (cursorY ps - p.dy) := by
  simp only [cursorY, List.foldl_append, List.foldl_cons, List.foldl_nil]

theorem heldAfter_concat (ps : List MouseBytes) (p : MouseBytes) :
    heldAfter (ps ++ [p]) = p.buttons := by
  simp only [heldAfter, List.foldl_append, List.foldl_cons, List.foldl_nil]

theorem cursorX_nonneg (ps : List MouseBytes) : 0 ≤ cursorX ps := by
  induction ps using List.reverseRecOn with
  | nil => exact Int.le_refl 0
  | append_singleton ps p _ => rw [cursorX_concat]; exact le_max_left 0 _

theorem cursorY_nonneg (ps : List MouseBytes) : 0 ≤ cursorY ps := by
  induction ps using List.reverseRecOn with
  | nil => exact Int.le_refl 0
  | append_singleton ps p _ => rw [cursorY_concat]; exact le_max_left 0 _

theorem StaysSmall.prefix {ps : List MouseBytes} {p : MouseBytes} (h : StaysSmall (ps ++ [p])) :
    StaysSmall ps := fun qs hqs => h qs (hqs.trans (List.prefix_append ps [p]))

/-- By induction on the packets: what was decoded before, and one packet more. -/
theorem decoded_packets (port : MousePort) (ps : List MouseBytes) : Decoded getPixel port ps := by
  induction ps using List.reverseRecOn with
  | nil =>
      refine ⟨rfl, rfl, fun _ => rfl, fun _ => rfl, fun qs p rest h => ?_⟩
      have hlen := congrArg List.length h
      simp at hlen
  | append_singleton ps p ih =>
      have hp := afterPacket getPixel port p _ ih.packetIdx
      rw [← afterPackets_concat] at hp
      refine ⟨hp.packetIdx, hp.held.trans (heldAfter_concat ps p).symm, fun hs => ?_, fun hs => ?_,
        fun qs q rest heq => ?_⟩
      · -- the sum stays in the range of an `int16_t`
        have hx := ih.x hs.prefix
        have hsmall := (hs _ List.prefix_rfl).1
        have hnonneg := cursorX_nonneg ps
        have hrange := dx_range p
        rw [cursorX_concat] at hsmall ⊢
        have hle := le_max_right 0 (cursorX ps + p.dx)
        rw [hp.x, clampAtZero_toInt, toInt_add_small, hx, decode_dx]
        · rw [hx, decode_dx]; omega
        · rw [hx, decode_dx]; omega
      · have hy := ih.y hs.prefix
        have hsmall := (hs _ List.prefix_rfl).2
        have hnonneg := cursorY_nonneg ps
        have hrange := dy_range p
        rw [cursorY_concat] at hsmall ⊢
        have hle := le_max_right 0 (cursorY ps - p.dy)
        rw [hp.y, clampAtZero_toInt, toInt_sub_small, hy, decode_dy]
        · rw [hy, decode_dy]; omega
        · rw [hy, decode_dy]; omega
      · -- the last packet, or one before it
        rcases List.eq_nil_or_concat rest with rfl | ⟨rest', r, rfl⟩
        · rw [List.append_nil] at heq
          obtain ⟨rfl, hpq⟩ := List.append_inj' heq rfl
          obtain rfl := List.singleton_inj.mp hpq
          rw [← ih.held]
          exact hp.reports
        · rw [List.concat_eq_append, ← List.append_assoc] at heq
          obtain ⟨heq', -⟩ := List.append_inj' heq rfl
          exact ih.reports qs q rest' heq'

/-- **The handler decodes every stream of packets**, from the state that `quick_enable_mouse`
    leaves. -/
theorem mousePackets_decoded (port : MousePort) (ps : List MouseBytes) :
    Decoded getPixel port ps ∧ ∀ e w, wp quickEnableMouse e w
      (fun _ w' => w'.gMouseProp = MouseState.enabled.gMouseProp) fun h _ => h = .mouseError :=
  ⟨decoded_packets getPixel port ps, fun _ _ => wp_quickEnableMouse_gMouseProp⟩

end Handler

end MapleKernel.Drivers
