/-
  File:      Drivers/MouseHandler.lean
  Subject:   THE MOUSE HANDLER (`ps2_mouse_handler.cpp`): three bytes make a packet.

  `mouse_handler` collects the bytes in ONE global packet under ONE global index, whatever the
  port they come from; on the third byte it computes the movement and the buttons, keeps track of
  which buttons are held, moves the cursor and draws. Two mice share all of it.

  * `mouseHandler` -- the function, statement by statement; `history` and `processed` are ghost
    data: the bytes taken, and the packets in the order they were processed;
  * `Independent` -- what was processed is an interleaving of what each port's bytes give alone;
  * `Tracks` -- the invariant: the port of a packet in progress, run alone, stands where the
    shared state stands, and the other port stands at a packet's start;
  * `mice_independent` -- the ports decode independently in every run in which no byte arrives
    inside a packet of the other port; `mice_mixed` -- and not in every run.
-/
import MapleKernel.Lib.Run

namespace MapleKernel.Drivers

open Runs

/-! ## 1. The packet -/

/-- `ps2_mouse::first_packet`. -/
structure FirstPacket where
  buttonLeft : Bool
  buttonRight : Bool
  buttonMiddle : Bool
  alwaysOne : Bool
  xAxisSign : Bool
  yAxisSign : Bool
  xAxisOverflow : Bool
  yAxisOverflow : Bool
  deriving DecidableEq, Repr

/-- `first_packet(uint8_t raw)`. -/
def FirstPacket.ofRaw (raw : UInt8) : FirstPacket where
  buttonLeft := raw.toNat.testBit 0
  buttonRight := raw.toNat.testBit 1
  buttonMiddle := raw.toNat.testBit 2
  alwaysOne := raw.toNat.testBit 3
  xAxisSign := raw.toNat.testBit 4
  yAxisSign := raw.toNat.testBit 5
  xAxisOverflow := raw.toNat.testBit 6
  yAxisOverflow := raw.toNat.testBit 7

/-- `ps2_mouse::generic_3_packet`. -/
structure Generic3Packet where
  flags : FirstPacket
  xAxisMovement : UInt8
  yAxisMovement : UInt8
  deriving DecidableEq, Repr

/-- `global_3_packet{}`: zero, with the `always_one` bit. -/
def Generic3Packet.initial : Generic3Packet := ⟨.ofRaw 0x08, 0, 0⟩

def packet3Size : Nat := 3

/-- `sign_extend`, as the bits of an `int16_t`. -/
def signExtend (val : UInt8) (sign : Bool) : BitVec 16 :=
  if sign then val.toBitVec.setWidth 16 ||| 0xFF00#16 else val.toBitVec.setWidth 16

/-- What one packet says: movement and buttons. -/
structure MousePacket where
  dx : BitVec 16
  dy : BitVec 16
  left : Bool
  middle : Bool
  right : Bool
  deriving DecidableEq, Repr

def Generic3Packet.decode (p : Generic3Packet) : MousePacket where
  dx := if p.flags.xAxisOverflow then 0 else signExtend p.xAxisMovement p.flags.xAxisSign
  dy := if p.flags.yAxisOverflow then 0 else signExtend p.yAxisMovement p.flags.yAxisSign
  left := p.flags.buttonLeft
  middle := p.flags.buttonMiddle
  right := p.flags.buttonRight

/-! ## 2. Buttons, cursor and drawing -/

structure MouseColor where
  b : UInt8
  g : UInt8
  r : UInt8
  a : UInt8
  deriving DecidableEq, Repr

/-- What the handler does to the outside, in order. -/
inductive MouseEffect where
  | kprintf (text : String)
  | printMovement (dx dy : BitVec 16)
  | drawLineQuick (x0 y0 x1 y1 : BitVec 16) (color : MouseColor)
  | sendEoi
  deriving DecidableEq, Repr

/-- The three bits of `mouse_button_event` for one button. -/
structure ButtonEvent where
  firstPressed : Bool
  pressed : Bool
  released : Bool
  deriving DecidableEq, Repr

/-- The block for one button: its bit in the packet against its held state. -/
def buttonEvent (bit held : Bool) : ButtonEvent :=
  { firstPressed := bit && !held, pressed := bit, released := !bit && held }

def buttonPrints (firstPress released : String) (e : ButtonEvent) : List MouseEffect :=
  (if e.firstPressed then [.kprintf firstPress] else []) ++
    if e.released then [.kprintf released] else []

/-- The position and colour of `g_mouse_prop`. -/
structure MouseProperties where
  x : BitVec 16
  y : BitVec 16
  color : MouseColor
  deriving DecidableEq, Repr

structure MouseButtonPressed where
  leftButton : Bool
  middleButton : Bool
  rightButton : Bool
  deriving DecidableEq, Repr

/-- A negative coordinate is set to zero. -/
def clampAtZero (v : BitVec 16) : BitVec 16 := if v.slt 0 then 0 else v

inductive MousePort where
  | one | two
  deriving DecidableEq, Repr

structure MouseState where
  global3Packet : Generic3Packet
  packetIdx : Nat
  buttonPressed : MouseButtonPressed
  gMouseProp : MouseProperties
  effects : List MouseEffect
  processed : List MousePacket
  history : List (MousePort × UInt8)

def MouseState.boot : MouseState where
  global3Packet := .initial
  packetIdx := 0
  buttonPressed := ⟨false, false, false⟩
  gMouseProp := ⟨0, 0, ⟨0, 0, 0, 0⟩⟩
  effects := []
  processed := []
  history := []

section Handler

-- the framebuffer's answer to `get_pixel`, after everything that was drawn
variable (getPixel : List MouseEffect → BitVec 16 → BitVec 16 → MouseColor)

/-- The body of the `if` of the third byte. -/
def processPacket (s : MouseState) : MouseState :=
  let p := s.global3Packet.decode
  let left := buttonEvent p.left s.buttonPressed.leftButton
  let middle := buttonEvent p.middle s.buttonPressed.middleButton
  let right := buttonEvent p.right s.buttonPressed.rightButton
  let prints :=
    buttonPrints "[First Press] Left mouse button\n" "[Released  ] Left mouse button\n" left ++
    buttonPrints "[First Press] Middle mouse button\n" "[Released  ] Middle mouse button\n" middle ++
    buttonPrints "[First Press] Right mouse button\n" "[Released  ] Right mouse button\n" right
  let moveOnly := !left.firstPressed && !left.released && !middle.firstPressed &&
    !middle.released && !right.firstPressed && !right.released
  let movement := if moveOnly then [.printMovement p.dx p.dy] else []
  let x := clampAtZero (s.gMouseProp.x + p.dx)
  let y := clampAtZero (s.gMouseProp.y - p.dy)
  let line := if left.pressed
    then [.drawLineQuick s.gMouseProp.x s.gMouseProp.y x y s.gMouseProp.color] else []
  let effects := s.effects ++ prints ++ movement ++ line
  let color := if right.pressed then getPixel effects (x + 1) y else s.gMouseProp.color
  { s with
    packetIdx := 0
    buttonPressed := ⟨left.pressed, middle.pressed, right.pressed⟩
    gMouseProp := ⟨x, y, color⟩
    effects := effects
    processed := s.processed ++ [p] }

/-- The `switch` on the index: where the byte goes. -/
def storeByte (p : Generic3Packet) (packetIdx : Nat) (scancode : UInt8) : Generic3Packet :=
  match packetIdx with
  | 0 => { p with flags := .ofRaw scancode }
  | 1 => { p with xAxisMovement := scancode }
  | 2 => { p with yAxisMovement := scancode }
  | _ => p

/-- **`mouse_handler`.** The port only selects an IRQ number that is not used any more. -/
def mouseHandler (s : MouseState) (scancode : UInt8) : MouseState :=
  let s := { s with global3Packet := storeByte s.global3Packet s.packetIdx scancode }
  let s := if s.packetIdx = packet3Size - 1 then processPacket getPixel s
    else { s with packetIdx := (s.packetIdx + 1) % 2 ^ 8 }
  { s with effects := s.effects ++ [.sendEoi] }

/-- One interrupt: the byte of one port. -/
def mouseStep (s : MouseState) (e : MousePort × UInt8) : MouseState :=
  { mouseHandler getPixel s e.2 with history := s.history ++ [e] }

/-! ## 3. The two ports -/

/-- The bytes of one port. -/
def ofPort {α : Type} (p : MousePort) (l : List (MousePort × α)) : List (MousePort × α) :=
  l.filter fun e => e.1 = p

/-- The handler over the bytes of one port alone. -/
def alone (p : MousePort) (l : List (MousePort × UInt8)) : MouseState :=
  run (mouseStep getPixel) .boot (ofPort p l)

/-- **The ports decode independently**: the packets processed are those of the two ports, each
    port's in order. -/
structure Independent (s : MouseState) : Prop where
  inOrder : ∃ t : List (MousePort × MousePacket), t.map Prod.snd = s.processed ∧
    ∀ p, (ofPort p t).map Prod.snd = (alone getPixel p s.history).processed
  samePackets : s.processed.Perm
    ((alone getPixel .one s.history).processed ++ (alone getPixel .two s.history).processed)

/-- Inside a packet, a byte comes from the port of the byte before it. -/
def Uninterrupted (s : MouseState) (e : MousePort × UInt8) : Prop :=
  s.packetIdx ≠ 0 → s.history.getLast?.map Prod.fst = some e.1

instance (s : MouseState) (e : MousePort × UInt8) : Decidable (Uninterrupted s e) :=
  inferInstanceAs (Decidable (_ → _))

/-! ## 4. One byte -/

/-- The two states are at the same byte of a packet and agree on its bytes so far. -/
structure Agree (s s' : MouseState) : Prop where
  idx : s.packetIdx = s'.packetIdx
  flags : 1 ≤ s.packetIdx → s.global3Packet.flags = s'.global3Packet.flags
  xAxis : 2 ≤ s.packetIdx → s.global3Packet.xAxisMovement = s'.global3Packet.xAxisMovement

theorem agree_of_start {s s' : MouseState} (h : s.packetIdx = 0) (h' : s'.packetIdx = 0) :
    Agree s s' where
  idx := h.trans h'.symm
  flags h1 := by omega
  xAxis h2 := by omega

/-- The packets a byte completes: one at the third byte, else none. -/
def completed (s : MouseState) (b : UInt8) : List MousePacket :=
  if s.packetIdx = 2 then [(storeByte s.global3Packet 2 b).decode] else []

theorem mouseStep_processed (s : MouseState) (e : MousePort × UInt8) :
    (mouseStep getPixel s e).processed = s.processed ++ completed s e.2 := by
  unfold mouseStep mouseHandler completed
  by_cases h : s.packetIdx = 2
  · simp only [packet3Size, h, if_pos]
    rfl
  · simp only [packet3Size, Nat.reduceSub, h, if_false, List.append_nil]

theorem mouseStep_packetIdx (s : MouseState) (e : MousePort × UInt8) (h2 : s.packetIdx ≤ 2) :
    (mouseStep getPixel s e).packetIdx = if s.packetIdx = 2 then 0 else s.packetIdx + 1 := by
  unfold mouseStep mouseHandler
  by_cases h : s.packetIdx = 2
  · simp only [packet3Size, h, if_pos]
    rfl
  · simp only [packet3Size, Nat.reduceSub, h, if_false]
    exact Nat.mod_eq_of_lt (by omega)

theorem mouseStep_packet (s : MouseState) (e : MousePort × UInt8) :
    (mouseStep getPixel s e).global3Packet = storeByte s.global3Packet s.packetIdx e.2 := by
  unfold mouseStep mouseHandler
  by_cases h : s.packetIdx = packet3Size - 1
  · simp only [h, if_pos]
    rfl
  · simp only [h, if_false]

/-- **One byte on two states that agree**: they agree again and complete the same packet. -/
theorem Agree.step {s s' : MouseState} (h : Agree s s') (h2 : s.packetIdx ≤ 2)
    (e : MousePort × UInt8) :
    Agree (mouseStep getPixel s e) (mouseStep getPixel s' e) ∧
      completed s e.2 = completed s' e.2 := by
  have h2' : s'.packetIdx ≤ 2 := h.idx ▸ h2
  have hidx := mouseStep_packetIdx getPixel s e h2
  have hidx' := mouseStep_packetIdx getPixel s' e h2'
  rw [← h.idx] at hidx'
  refine ⟨⟨hidx.trans hidx'.symm, fun h1 => ?_, fun h1 => ?_⟩, ?_⟩
  · -- the flags are set by the first byte and kept by the second
    rw [mouseStep_packet, mouseStep_packet, ← h.idx]
    rw [hidx] at h1
    obtain h0 | h0 : s.packetIdx = 0 ∨ s.packetIdx = 1 := by
      split at h1 <;> omega
    · rw [h0]
      rfl
    · rw [h0]
      exact h.flags (by omega)
  · rw [mouseStep_packet, mouseStep_packet, ← h.idx]
    rw [hidx] at h1
    have h0 : s.packetIdx = 1 := by
      split at h1 <;> omega
    rw [h0]
    rfl
  · unfold completed
    rw [← h.idx]
    split
    · have hf := h.flags (by omega)
      have hx := h.xAxis (by omega)
      simp only [storeByte, hf, hx]
    · rfl

/-! ## 5. Every run that keeps the packets together -/

theorem ofPort_concat_self {α : Type} (p : MousePort) (l : List (MousePort × α)) (a : α) :
    ofPort p (l ++ [(p, a)]) = ofPort p l ++ [(p, a)] := by
  simp [ofPort]

theorem ofPort_append_other {α : Type} {p q : MousePort} (h : p ≠ q)
    (l : List (MousePort × α)) (m : List α) :
    ofPort p (l ++ m.map (q, ·)) = ofPort p l := by
  simp [ofPort, Ne.symm h]

theorem ofPort_append_self {α : Type} (p : MousePort) (l : List (MousePort × α)) (m : List α) :
    ofPort p (l ++ m.map (p, ·)) = ofPort p l ++ m.map (p, ·) := by
  simp [ofPort]

theorem alone_concat_self (p : MousePort) (l : List (MousePort × UInt8)) (b : UInt8) :
    alone getPixel p (l ++ [(p, b)]) = mouseStep getPixel (alone getPixel p l) (p, b) := by
  rw [alone, ofPort_concat_self, run_append]
  rfl

theorem alone_concat_other {p q : MousePort} (h : p ≠ q) (l : List (MousePort × UInt8))
    (b : UInt8) : alone getPixel p (l ++ [(q, b)]) = alone getPixel p l := by
  rw [alone, alone]
  exact congrArg _ (ofPort_append_other h l [b])

/-- A byte of port `q` would find the shared state as its own. -/
structure ReadyFor (s : MouseState) (q : MousePort) : Prop where
  own : Agree s (alone getPixel q s.history)
  others : ∀ p, p ≠ q → (alone getPixel p s.history).packetIdx = 0

/-- **The invariant.** -/
structure Tracks (s : MouseState) : Prop where
  bounded : s.packetIdx ≤ 2
  inOrder : ∃ t : List (MousePort × MousePacket), t.map Prod.snd = s.processed ∧
    ∀ p, (ofPort p t).map Prod.snd = (alone getPixel p s.history).processed
  between : s.packetIdx = 0 → ∀ q, ReadyFor getPixel s q
  inside : s.packetIdx ≠ 0 → ∃ q, s.history.getLast?.map Prod.fst = some q ∧
    ReadyFor getPixel s q

theorem tracks_boot : Tracks getPixel .boot where
  bounded := Nat.zero_le _
  inOrder := ⟨[], rfl, fun _ => rfl⟩
  between _ _ := ⟨agree_of_start rfl rfl, fun _ _ => rfl⟩
  inside h := absurd rfl h

theorem Tracks.ready {s : MouseState} (h : Tracks getPixel s) {e : MousePort × UInt8}
    (hu : Uninterrupted s e) : ReadyFor getPixel s e.1 := by
  by_cases h0 : s.packetIdx = 0
  · exact h.between h0 e.1
  · obtain ⟨q, hlast, hready⟩ := h.inside h0
    have hq : q = e.1 := Option.some.inj (hlast.symm.trans (hu h0))
    exact hq ▸ hready

theorem tracks_step (s : MouseState) (e : MousePort × UInt8) (h : Tracks getPixel s)
    (hu : Uninterrupted s e) : Tracks getPixel (mouseStep getPixel s e) := by
  obtain ⟨q, b⟩ := e
  have hready := h.ready getPixel hu
  obtain ⟨hagree, hsame⟩ := hready.own.step getPixel h.bounded (q, b)
  have hhist : (mouseStep getPixel s (q, b)).history = s.history ++ [(q, b)] := rfl
  have hown := alone_concat_self getPixel q s.history b
  have hother : ∀ p, p ≠ q → alone getPixel p (s.history ++ [(q, b)])
      = alone getPixel p s.history := fun p hp => alone_concat_other getPixel hp s.history b
  -- the port of the byte may go on, the others stand at a packet's start
  have hafter : ReadyFor getPixel (mouseStep getPixel s (q, b)) q := by
    refine ⟨?_, fun p hp => ?_⟩
    · rw [hhist, hown]
      exact hagree
    · rw [hhist, hother p hp]
      exact hready.others p hp
  refine ⟨?_, ?_, fun h0 r => ?_, fun _ => ⟨q, ?_, hafter⟩⟩
  · rw [mouseStep_packetIdx getPixel s (q, b) h.bounded]
    have := h.bounded
    split <;> omega
  · obtain ⟨t, htmap, htport⟩ := h.inOrder
    refine ⟨t ++ (completed s b).map (q, ·), ?_, fun p => ?_⟩
    · rw [mouseStep_processed, List.map_append, htmap, List.map_map]
      exact congrArg _ (List.map_id _)
    · rw [hhist]
      by_cases hp : p = q
      · subst hp
        rw [ofPort_append_self, List.map_append, htport, hown, mouseStep_processed, ← hsame,
          List.map_map]
        exact congrArg _ (List.map_id _)
      · rw [ofPort_append_other hp, htport, hother p hp]
  · -- between packets every port stands at a start
    have hstart : ∀ p, (alone getPixel p (mouseStep getPixel s (q, b)).history).packetIdx = 0 := by
      intro p
      by_cases hp : p = q
      · subst hp
        exact hafter.own.idx.symm.trans h0
      · exact hafter.others p hp
    exact ⟨agree_of_start h0 (hstart r), fun p _ => hstart p⟩
  · rw [hhist, List.getLast?_concat]
    rfl

theorem perm_ports {α : Type} (t : List (MousePort × α)) :
    (t.map Prod.snd).Perm ((ofPort .one t).map Prod.snd ++ (ofPort .two t).map Prod.snd) := by
  have htwo : ofPort .two t = t.filter fun e => !decide (e.1 = .one) := by
    refine List.filter_congr fun e _ => ?_
    rcases e with ⟨p, a⟩
    cases p <;> rfl
  rw [← List.map_append, htwo]
  exact (List.filter_append_perm _ t).symm.map _

theorem Tracks.independent {s : MouseState} (h : Tracks getPixel s) : Independent getPixel s where
  inOrder := h.inOrder
  samePackets := by
    obtain ⟨t, htmap, htport⟩ := h.inOrder
    rw [← htmap, ← htport .one, ← htport .two]
    exact perm_ports t

/-- **Two mice decode independently as long as no packet is interrupted.** In every run of the
    handler over bytes of both ports in which a byte inside a packet comes from the port of the
    byte before it, the packets processed are in every state those of the two streams decoded
    alone, each port's in order. -/
theorem mice_independent (l : List (MousePort × UInt8))
    (hkept : Guarded (mouseStep getPixel) Uninterrupted .boot l) :
    Along (mouseStep getPixel) (Independent getPixel) .boot l :=
  (along_of_guarded (tracks_step getPixel) (tracks_boot getPixel) hkept).imp
    fun _ h => h.independent getPixel

end Handler

/-- A framebuffer of black pixels. -/
def blackPixels : List MouseEffect → BitVec 16 → BitVec 16 → MouseColor := fun _ _ _ => ⟨0, 0, 0, 0⟩

theorem mice_independent_packets :
    Along (mouseStep blackPixels) (Independent blackPixels) .boot
      [(.one, 8), (.one, 1), (.one, 2), (.two, 8), (.two, 3), (.two, 4)] :=
  mice_independent blackPixels _ (by decide)

/-- **Two mice mix**: the packets `8 1 2` of port one and `8 3 4` of port two, byte by byte in
    turn, are processed as `8 8 1` and `3 2 4`. -/
theorem mice_mixed :
    ¬ ∀ l, (ofPort MousePort.one l).length % 3 = 0 → (ofPort MousePort.two l).length % 3 = 0 →
      Independent blackPixels (run (mouseStep blackPixels) .boot l) := by
  intro h
  have hind := h [(.one, 8), (.two, 8), (.one, 1), (.two, 3), (.one, 2), (.two, 4)] rfl rfl
  exact absurd hind.samePackets (by decide)

end MapleKernel.Drivers
