/-
  File:      Drivers/MouseCursor.lean
  Subject:   THE CURSOR ON THE SCREEN: `mouse_handler` moves it, `cpp_event_loop` shows it.

  The handler is an interrupt of the event loop: a byte may arrive between any two reads of the
  volatile position. `accesses` and `moves` are ghost data: the calls on the frame buffer with the
  coordinates they were made with, and the movements.

  * `moved` -- the coordinate after a movement: negative ones become zero, and so do those beyond
    an `int16_t`, which wrap around. No bound of the screen is looked at.
  * `CursorOk` -- the cursor and every access are on the screen, and to the right is to the right.
  * `cursorOk_iff` -- the runs that keep this in every state: those whose packets end inside.
-/
import MapleKernel.Drivers.MouseDecoding
import MapleKernel.Framebuffer.ScreenBounds

namespace MapleKernel.Drivers

open Runs Framebuffer

/-! ## 1. The functions -/

/-- A call on the frame buffer, with its arguments as `uint16_t`. -/
inductive Access where
  | setPixel (x y : BitVec 16) (color : MouseColor)
  | getPixel (x y : BitVec 16)
  | drawLineQuick (x0 y0 x1 y1 : BitVec 16) (color : MouseColor)
  deriving DecidableEq, Repr

/-- Where `cpp_event_loop` stands: before each read of `g_mouse_prop`, and before its start. -/
inductive LoopPc where
  | restore | getX | getY | setX | setY | keepX | keepY
  deriving DecidableEq, Repr

/-- The static variables of `cpp_event_loop`; `x` is the argument read for the next call. -/
structure EventLoop where
  oldX : BitVec 16
  oldY : BitVec 16
  oldColor : MouseColor
  currentColor : MouseColor
  firstItt : Bool
  x : BitVec 16
  pc : LoopPc
  deriving DecidableEq, Repr

def EventLoop.boot : EventLoop where
  oldX := 0
  oldY := 0
  oldColor := ⟨0, 0, 0xFF, 0⟩
  currentColor := ⟨0, 0xFF, 0, 0⟩
  firstItt := true
  x := 0
  pc := .restore

/-- `cpp_event_loop`, from one read to the next, with what it does to the frame buffer. -/
def cppEventLoop (getPixel : BitVec 16 → BitVec 16 → MouseColor) (gMouseProp : MouseProperties)
    (l : EventLoop) : EventLoop × List Access :=
  match l.pc with
  | .restore => ({ l with pc := .getX },
      if l.firstItt then [] else [.setPixel l.oldX l.oldY l.oldColor])
  | .getX => ({ l with x := gMouseProp.x, pc := .getY }, [])
  | .getY => ({ l with currentColor := getPixel l.x gMouseProp.y, pc := .setX },
      [.getPixel l.x gMouseProp.y])
  | .setX => ({ l with x := gMouseProp.x, pc := .setY }, [])
  | .setY => ({ l with pc := .keepX }, [.setPixel l.x gMouseProp.y ⟨0xFF, 0xFF, 0xFF, 0⟩])
  | .keepX => ({ l with oldX := gMouseProp.x, pc := .keepY }, [])
  | .keepY => ({ l with
      oldY := gMouseProp.y, oldColor := l.currentColor, firstItt := false, pc := .restore }, [])

/-- A movement of one axis: the coordinate before and after it. -/
structure Move where
  before : Int
  movement : Int
  after : Int
  deriving DecidableEq, Repr

structure CursorState where
  mouse : MouseState
  loop : EventLoop
  accesses : List Access
  moves : List Move

def CursorState.enabled : CursorState := ⟨.enabled, .boot, [], []⟩

inductive CursorEvent where
  | byte (port : MousePort) (b : UInt8)
  | loop
  deriving DecidableEq, Repr

/-- The lines among the effects of the handler. -/
def linesOf (effects : List MouseEffect) : List Access :=
  effects.filterMap fun e => match e with
    | .drawLineQuick x0 y0 x1 y1 color => some (.drawLineQuick x0 y0 x1 y1 color)
    | _ => none

section Step

-- what `get_pixel` answers after the accesses to the frame buffer
variable (screen : List Access → BitVec 16 → BitVec 16 → MouseColor)

/-- The answer to the handler, which has drawn what is new in `effects`. -/
def CursorState.handlerPixel (s : CursorState) (effects : List MouseEffect) :
    BitVec 16 → BitVec 16 → MouseColor :=
  screen (s.accesses ++ linesOf (effects.drop s.mouse.effects.length))

/-- The handler's accesses at a byte: the lines it drew, and `get_pixel` at the new position if the
    byte completes a packet with the right button. -/
def handlerAccesses (s s' : MouseState) (b : UInt8) : List Access :=
  linesOf (s'.effects.drop s.effects.length) ++ (completed s b).flatMap fun p =>
    if p.right then [.getPixel (s'.gMouseProp.x + 1) s'.gMouseProp.y] else []

/-- One step of the system: an interrupt of the mouse, or the event loop to its next read. -/
def cursorStep (s : CursorState) : CursorEvent → CursorState
  | .byte port b =>
      let mouse := mouseStep (s.handlerPixel screen) s.mouse (port, b)
      { s with
        mouse := mouse
        accesses := s.accesses ++ handlerAccesses s.mouse mouse b
        moves := s.moves ++ (completed s.mouse b).map fun p =>
          ⟨s.mouse.gMouseProp.x.toInt, p.dx.toInt, mouse.gMouseProp.x.toInt⟩ }
  | .loop =>
      let (loop, accesses) := cppEventLoop (screen s.accesses) s.mouse.gMouseProp s.loop
      { s with loop := loop, accesses := s.accesses ++ accesses }

end Step

/-! ## 2. On the screen -/

def lineArgs (x0 y0 x1 y1 : BitVec 16) (c : MouseColor) : DrawLineArgs :=
  ⟨⟨x0⟩, ⟨y0⟩, ⟨x1⟩, ⟨y1⟩, ⟨c.b, c.g, c.r, c.a⟩⟩

section Screen

variable (width height : Nat)

/-- A call that addresses pixels of the screen. -/
def Access.OnScreen : Access → Prop
  | .setPixel x y _ => x.toNat < width ∧ y.toNat < height
  | .getPixel x y => x.toNat < width ∧ y.toNat < height
  | .drawLineQuick x0 y0 x1 y1 c => ∀ k ≤ (lineArgs x0 y0 x1 y1 c).turns,
      (0 ≤ ((lineArgs x0 y0 x1 y1 c).point k).1 ∧ ((lineArgs x0 y0 x1 y1 c).point k).1 < width) ∧
      (0 ≤ ((lineArgs x0 y0 x1 y1 c).point k).2 ∧ ((lineArgs x0 y0 x1 y1 c).point k).2 < height)

/-- The cursor and every access are on the screen, and a movement to the right does not make
    the coordinate smaller. -/
structure CursorOk (s : CursorState) : Prop where
  x : 0 ≤ s.mouse.gMouseProp.x.toInt ∧ s.mouse.gMouseProp.x.toInt < width
  y : 0 ≤ s.mouse.gMouseProp.y.toInt ∧ s.mouse.gMouseProp.y.toInt < height
  accesses : ∀ a ∈ s.accesses, a.OnScreen width height
  right : ∀ m ∈ s.moves, 0 < m.movement → m.before ≤ m.after

/-- A packet that keeps the cursor on the screen: it does not end beyond the right edge, and with
    the right button not in the last column; downwards it does not end beyond the lower edge, or
    so far beyond that it wraps around to the first row. -/
def EndsInside (prop : MouseProperties) (p : MousePacket) : Prop :=
  prop.x.toInt + p.dx.toInt < width ∧
  (prop.y.toInt - p.dy.toInt < height ∨ 32767 < prop.y.toInt - p.dy.toInt) ∧
  (p.right = true → max 0 (prop.x.toInt + p.dx.toInt) + 1 < width)

/-- Every packet that an event completes ends inside. -/
def PacketInside (s : CursorState) : CursorEvent → Prop
  | .byte _ b => ∀ p ∈ completed s.mouse b, EndsInside width height s.mouse.gMouseProp p
  | .loop => True

end Screen

/-! ## 3. One coordinate -/

/-- The coordinate after a movement that leads to `v`. -/
def moved (v : Int) : Int := if 32767 < v then 0 else max 0 v

theorem clamp_add {v d : BitVec 16} (hv : 0 ≤ v.toInt) (hd : -256 ≤ d.toInt ∧ d.toInt ≤ 255) :
    (clampAtZero (v + d)).toInt = moved (v.toInt + d.toInt) := by
  have hlt := @BitVec.toInt_lt 16 v
  rw [clampAtZero_toInt, BitVec.toInt_add, moved, Int.bmod_def]
  split
  · split
    · omega
    · omega
  · split
    · omega
    · omega

theorem clamp_sub {v d : BitVec 16} (hv : 0 ≤ v.toInt) (hd : -256 ≤ d.toInt ∧ d.toInt ≤ 255) :
    (clampAtZero (v - d)).toInt = moved (v.toInt - d.toInt) := by
  have hlt := @BitVec.toInt_lt 16 v
  rw [clampAtZero_toInt, BitVec.toInt_sub, moved, Int.bmod_def]
  split
  · split
    · omega
    · omega
  · split
    · omega
    · omega

/-- A coordinate that is not negative is the same number as a `uint16_t`. -/
theorem toNat_of_nonneg {v : BitVec 16} (h : 0 ≤ v.toInt) : (v.toNat : Int) = v.toInt := by
  have hlt := v.isLt
  have hcond := BitVec.toInt_eq_toNat_cond v
  split at hcond
  · exact hcond.symm
  · omega

theorem decode_range (p : Generic3Packet) :
    (-256 ≤ p.decode.dx.toInt ∧ p.decode.dx.toInt ≤ 255) ∧
      (-256 ≤ p.decode.dy.toInt ∧ p.decode.dy.toInt ≤ 255) := by
  simp only [Generic3Packet.decode]
  constructor
  · split
    · decide
    · rw [signExtend_toInt]
      exact nineBit_range _ _
  · split
    · decide
    · rw [signExtend_toInt]
      exact nineBit_range _ _

/-! ## 4. One byte -/

theorem linesOf_append (l l' : List MouseEffect) : linesOf (l ++ l') = linesOf l ++ linesOf l' :=
  List.filterMap_append

theorem linesOf_buttonPrints (firstPress released : String) (e : ButtonEvent) :
    linesOf (buttonPrints firstPress released e) = [] := by
  obtain ⟨f, p, r⟩ := e
  cases f <;> cases r <;> rfl

section Byte

variable (getPixel : List MouseEffect → BitVec 16 → BitVec 16 → MouseColor)

/-- The line of a completed packet. -/
theorem linesOf_processPacket (s : MouseState) : ∃ new,
    (processPacket getPixel s).effects = s.effects ++ new ∧
      linesOf new = if s.global3Packet.decode.left then
        [.drawLineQuick s.gMouseProp.x s.gMouseProp.y (processPacket getPixel s).gMouseProp.x
          (processPacket getPixel s).gMouseProp.y s.gMouseProp.color] else [] := by
  obtain ⟨prints, movement, line, hp, hm, hl, heffects⟩ : ∃ prints movement line,
      linesOf prints = [] ∧ linesOf movement = [] ∧
      linesOf line = (if s.global3Packet.decode.left then
        [.drawLineQuick s.gMouseProp.x s.gMouseProp.y (processPacket getPixel s).gMouseProp.x
          (processPacket getPixel s).gMouseProp.y s.gMouseProp.color] else []) ∧
      (processPacket getPixel s).effects = s.effects ++ prints ++ movement ++ line := by
    refine ⟨_, _, _, ?_, ?_, ?_, rfl⟩
    · simp only [linesOf_append, linesOf_buttonPrints, List.append_nil]
    · split
      · rfl
      · rfl
    · rw [processPacket_x, processPacket_y]
      simp only [buttonEvent]
      cases s.global3Packet.decode.left with
      | true => rfl
      | false => rfl
  refine ⟨prints ++ movement ++ line, ?_, ?_⟩
  · rw [heffects]
    simp only [List.append_assoc]
  · rw [linesOf_append, linesOf_append, hp, hm, hl]
    rfl

theorem mouseStep_eq_third {s : MouseState} (h : s.packetIdx = 2) (e : MousePort × UInt8) :
    mouseStep getPixel s e =
      { processPacket getPixel { s with global3Packet := storeByte s.global3Packet 2 e.2 } with
        effects := (processPacket getPixel
          { s with global3Packet := storeByte s.global3Packet 2 e.2 }).effects
            ++ [MouseEffect.sendEoi]
        history := s.history ++ [e] } := by
  obtain ⟨packet, idx, held, prop, effects, processed, history⟩ := s
  obtain rfl : idx = 2 := h
  rfl

theorem mouseStep_eq_other {s : MouseState} (h : s.packetIdx ≠ 2) (e : MousePort × UInt8) :
    mouseStep getPixel s e = { s with
      global3Packet := storeByte s.global3Packet s.packetIdx e.2
      packetIdx := (s.packetIdx + 1) % 2 ^ 8
      effects := s.effects ++ [MouseEffect.sendEoi]
      history := s.history ++ [e] } := by
  unfold mouseStep mouseHandler
  simp only [packet3Size, Nat.reduceSub, h, if_false]

/-- A third byte: the packet moves the cursor and may draw a line. -/
theorem mouseStep_third {s : MouseState} (h : s.packetIdx = 2) (port : MousePort) (b : UInt8) :
    ∃ p : Generic3Packet, completed s b = [p.decode] ∧
      (mouseStep getPixel s (port, b)).gMouseProp.x = clampAtZero (s.gMouseProp.x + p.decode.dx) ∧
      (mouseStep getPixel s (port, b)).gMouseProp.y = clampAtZero (s.gMouseProp.y - p.decode.dy) ∧
      linesOf ((mouseStep getPixel s (port, b)).effects.drop s.effects.length)
        = if p.decode.left then [.drawLineQuick s.gMouseProp.x s.gMouseProp.y
            (mouseStep getPixel s (port, b)).gMouseProp.x
            (mouseStep getPixel s (port, b)).gMouseProp.y s.gMouseProp.color] else [] := by
  obtain ⟨stored, hstored⟩ : ∃ stored, stored
      = { s with global3Packet := storeByte s.global3Packet 2 b } := ⟨_, rfl⟩
  have hprop : stored.gMouseProp = s.gMouseProp := by rw [hstored]
  have heffects₀ : stored.effects = s.effects := by rw [hstored]
  obtain ⟨new, heffects, hlines⟩ := linesOf_processPacket getPixel stored
  have hx := processPacket_x getPixel stored
  have hy := processPacket_y getPixel stored
  rw [hprop] at hx hy hlines
  rw [heffects₀] at heffects
  refine ⟨stored.global3Packet, ?_, ?_⟩
  · rw [hstored]
    exact if_pos h
  rw [mouseStep_eq_third getPixel h, ← hstored, heffects, List.append_assoc, List.drop_left,
    linesOf_append, hlines]
  exact ⟨hx, hy, List.append_nil _⟩

/-- Any other byte only goes to its place in the packet. -/
theorem mouseStep_other {s : MouseState} (h : s.packetIdx ≠ 2) (port : MousePort) (b : UInt8) :
    completed s b = [] ∧ (mouseStep getPixel s (port, b)).gMouseProp = s.gMouseProp ∧
      linesOf ((mouseStep getPixel s (port, b)).effects.drop s.effects.length) = [] := by
  rw [mouseStep_eq_other getPixel h, List.drop_left]
  exact ⟨if_neg h, rfl, rfl⟩

end Byte

/-! ## 5. One step -/

section Run

variable {width height : Nat} {screen : List Access → BitVec 16 → BitVec 16 → MouseColor}

/-- The accesses of a completed packet, from the position before it to the one after. -/
def packetAccesses (before after : MouseProperties) (p : MousePacket) : List Access :=
  (if p.left then [.drawLineQuick before.x before.y after.x after.y before.color] else []) ++
    if p.right then [.getPixel (after.x + 1) after.y] else []

/-- **A byte of the mouse**: nothing moves, or a packet is complete. -/
theorem cursorStep_byte (s : CursorState) (port : MousePort) (b : UInt8) :
    (completed s.mouse b = [] ∧
      (cursorStep screen s (.byte port b)).mouse.gMouseProp = s.mouse.gMouseProp ∧
      (cursorStep screen s (.byte port b)).loop = s.loop ∧
      (cursorStep screen s (.byte port b)).accesses = s.accesses ∧
      (cursorStep screen s (.byte port b)).moves = s.moves) ∨
    ∃ p : Generic3Packet, completed s.mouse b = [p.decode] ∧
      (cursorStep screen s (.byte port b)).mouse.gMouseProp.x
        = clampAtZero (s.mouse.gMouseProp.x + p.decode.dx) ∧
      (cursorStep screen s (.byte port b)).mouse.gMouseProp.y
        = clampAtZero (s.mouse.gMouseProp.y - p.decode.dy) ∧
      (cursorStep screen s (.byte port b)).loop = s.loop ∧
      (cursorStep screen s (.byte port b)).accesses = s.accesses ++ packetAccesses
        s.mouse.gMouseProp (cursorStep screen s (.byte port b)).mouse.gMouseProp p.decode ∧
      (cursorStep screen s (.byte port b)).moves = s.moves ++ [⟨s.mouse.gMouseProp.x.toInt,
        p.decode.dx.toInt, (cursorStep screen s (.byte port b)).mouse.gMouseProp.x.toInt⟩] := by
  by_cases h : s.mouse.packetIdx = 2
  · obtain ⟨p, hp, hx, hy, hlines⟩ := mouseStep_third (s.handlerPixel screen) h port b
    refine Or.inr ⟨p, hp, hx, hy, rfl, ?_, ?_⟩
    · simp only [cursorStep, handlerAccesses, hlines, hp, List.flatMap_singleton, packetAccesses]
    · simp only [cursorStep, hp, List.map_singleton]
  · obtain ⟨hp, hprop, hlines⟩ := mouseStep_other (s.handlerPixel screen) h port b
    refine Or.inl ⟨hp, hprop, rfl, ?_, ?_⟩
    · simp only [cursorStep, handlerAccesses, hlines, hp, List.flatMap_nil, List.append_nil]
    · simp only [cursorStep, hp, List.map_nil, List.append_nil]

/-- A line between two pixels of the screen stays on it. -/
theorem line_onScreen {x0 y0 x1 y1 : BitVec 16} (h0 : x0.toNat < width ∧ y0.toNat < height)
    (h1 : x1.toNat < width ∧ y1.toNat < height) (color : MouseColor) :
    (Access.drawLineQuick x0 y0 x1 y1 color).OnScreen width height := by
  intro k hk
  obtain ⟨hx, hy⟩ := inside_of_mem (lineArgs x0 y0 x1 y1 color).turns_eq (point_mem _ hk)
  have hxa : (axisOf (lineArgs x0 y0 x1 y1 color).x0 (lineArgs x0 y0 x1 y1 color).x1).a
      = x0.toNat := rfl
  have hxb : (axisOf (lineArgs x0 y0 x1 y1 color).x0 (lineArgs x0 y0 x1 y1 color).x1).b
      = x1.toNat := rfl
  have hya : (axisOf (lineArgs x0 y0 x1 y1 color).y0 (lineArgs x0 y0 x1 y1 color).y1).a
      = y0.toNat := rfl
  have hyb : (axisOf (lineArgs x0 y0 x1 y1 color).y0 (lineArgs x0 y0 x1 y1 color).y1).b
      = y1.toNat := rfl
  rw [hxa, hxb] at hx
  rw [hya, hyb] at hy
  exact ⟨⟨by omega, by omega⟩, by omega, by omega⟩

/-- The cursor as a pixel of the screen. -/
theorem CursorOk.pixel {s : CursorState} (h : CursorOk width height s) :
    s.mouse.gMouseProp.x.toNat < width ∧ s.mouse.gMouseProp.y.toNat < height := by
  have hx := toNat_of_nonneg h.x.1
  have hy := toNat_of_nonneg h.y.1
  have hxlt := h.x.2
  have hylt := h.y.2
  omega

/-- **The invariant**: the event loop keeps positions of the screen as well. -/
structure CursorInv (width height : Nat) (s : CursorState) : Prop where
  ok : CursorOk width height s
  old : s.loop.oldX.toNat < width ∧ s.loop.oldY.toNat < height
  arg : s.loop.x.toNat < width

/-- The event loop accesses the cursor and its old positions, and keeps the cursor. -/
theorem cppEventLoop_onScreen {prop : MouseProperties} {l : EventLoop}
    (getPixel : BitVec 16 → BitVec 16 → MouseColor)
    (hprop : prop.x.toNat < width ∧ prop.y.toNat < height)
    (hold : l.oldX.toNat < width ∧ l.oldY.toNat < height) (harg : l.x.toNat < width) :
    (∀ a ∈ (cppEventLoop getPixel prop l).2, a.OnScreen width height) ∧
      ((cppEventLoop getPixel prop l).1.oldX.toNat < width ∧
        (cppEventLoop getPixel prop l).1.oldY.toNat < height) ∧
      (cppEventLoop getPixel prop l).1.x.toNat < width := by
  obtain ⟨oldX, oldY, oldColor, currentColor, firstItt, x, pc⟩ := l
  cases pc with
  | restore =>
      refine ⟨fun a ha => ?_, hold, harg⟩
      cases firstItt with
      | true => cases ha
      | false =>
          obtain rfl := List.mem_singleton.mp ha
          exact hold
  | getX => exact ⟨fun a ha => (List.not_mem_nil ha).elim, hold, hprop.1⟩
  | getY =>
      refine ⟨fun a ha => ?_, hold, harg⟩
      obtain rfl := List.mem_singleton.mp ha
      exact ⟨harg, hprop.2⟩
  | setX => exact ⟨fun a ha => (List.not_mem_nil ha).elim, hold, hprop.1⟩
  | setY =>
      refine ⟨fun a ha => ?_, hold, harg⟩
      obtain rfl := List.mem_singleton.mp ha
      exact ⟨harg, hprop.2⟩
  | keepX => exact ⟨fun a ha => (List.not_mem_nil ha).elim, ⟨hprop.1, hold.2⟩, harg⟩
  | keepY => exact ⟨fun a ha => (List.not_mem_nil ha).elim, ⟨hold.1, hprop.2⟩, harg⟩

theorem CursorInv.loop {s : CursorState} (h : CursorInv width height s) :
    CursorInv width height (cursorStep screen s .loop) := by
  obtain ⟨haccesses, hold, harg⟩ :=
    cppEventLoop_onScreen (screen s.accesses) h.ok.pixel h.old h.arg
  refine ⟨⟨h.ok.x, h.ok.y, fun a ha => ?_, h.ok.right⟩, hold, harg⟩
  rcases List.mem_append.mp ha with ha | ha
  · exact h.ok.accesses a ha
  · exact haccesses a ha

/-- The next column, of a coordinate that has one. -/
theorem toNat_next {v : BitVec 16} (h : 0 ≤ v.toInt) : ((v + 1).toNat : Int) = v.toInt + 1 := by
  have hv := toNat_of_nonneg h
  have hlt := @BitVec.toInt_lt 16 v
  have hone : (1 : BitVec 16).toNat = 1 := rfl
  rw [BitVec.toNat_add, hone, Nat.mod_eq_of_lt (by omega)]
  omega

/-- The accesses of a packet that starts and ends on the screen. -/
theorem packetAccesses_onScreen {before after : MouseProperties} {p : MousePacket}
    (hbefore : before.x.toNat < width ∧ before.y.toNat < height)
    (hafter : after.x.toNat < width ∧ after.y.toNat < height)
    (hbutton : p.right = true → (after.x + 1).toNat < width) :
    ∀ a ∈ packetAccesses before after p, a.OnScreen width height := by
  intro a ha
  rcases List.mem_append.mp ha with ha | ha
  · split at ha
    · obtain rfl := List.mem_singleton.mp ha
      exact line_onScreen hbefore hafter _
    · cases ha
  · split at ha
    next hr =>
      obtain rfl := List.mem_singleton.mp ha
      exact ⟨hbutton hr, hafter.2⟩
    next => cases ha

/-- **A byte from a cursor on the screen**: the coordinates of a complete packet are `moved`. -/
theorem CursorOk.byte_cases {s : CursorState} (h : CursorOk width height s) (port : MousePort)
    (b : UInt8) :
    (completed s.mouse b = [] ∧
      (cursorStep screen s (.byte port b)).mouse.gMouseProp = s.mouse.gMouseProp ∧
      (cursorStep screen s (.byte port b)).loop = s.loop ∧
      (cursorStep screen s (.byte port b)).accesses = s.accesses ∧
      (cursorStep screen s (.byte port b)).moves = s.moves) ∨
    ∃ (p : Generic3Packet) (s' : CursorState), cursorStep screen s (.byte port b) = s' ∧
      completed s.mouse b = [p.decode] ∧
      s'.mouse.gMouseProp.x.toInt = moved (s.mouse.gMouseProp.x.toInt + p.decode.dx.toInt) ∧
      s'.mouse.gMouseProp.y.toInt = moved (s.mouse.gMouseProp.y.toInt - p.decode.dy.toInt) ∧
      s'.loop = s.loop ∧
      s'.accesses =
        s.accesses ++ packetAccesses s.mouse.gMouseProp s'.mouse.gMouseProp p.decode ∧
      s'.moves = s.moves ++
        [⟨s.mouse.gMouseProp.x.toInt, p.decode.dx.toInt, s'.mouse.gMouseProp.x.toInt⟩] := by
  rcases @cursorStep_byte screen s port b with hnone | ⟨p, hp, hx, hy, hloop, haccesses, hmoves⟩
  · exact .inl hnone
  · obtain ⟨hdx, hdy⟩ := decode_range p
    refine .inr ⟨p, _, rfl, hp, ?_, ?_, hloop, haccesses, hmoves⟩
    · rw [hx, clamp_add h.x.1 hdx]
    · rw [hy, clamp_sub h.y.1 hdy]

/-- **A packet that ends inside keeps the invariant.** -/
theorem CursorInv.byte (hW : width ≤ 32767) {s : CursorState}
    (h : CursorInv width height s) (port : MousePort) (b : UInt8)
    (hinside : PacketInside width height s (.byte port b)) :
    CursorInv width height (cursorStep screen s (.byte port b)) := by
  rcases @CursorOk.byte_cases width height screen s h.ok port b with
    ⟨-, hprop, hloop, haccesses, hmoves⟩ | ⟨p, s', hs', hp, hx, hy, hloop, haccesses, hmoves⟩
  · obtain ⟨hok, hold, harg⟩ := h
    rw [← hloop] at hold harg
    exact ⟨⟨by rw [hprop]; exact hok.x, by rw [hprop]; exact hok.y,
      by rw [haccesses]; exact hok.accesses, by rw [hmoves]; exact hok.right⟩, hold, harg⟩
  have hends := hinside p.decode (by rw [hp]; exact List.mem_singleton.mpr rfl)
  obtain ⟨hright, hdown, hbutton⟩ := hends
  have hx₀ := h.ok.x
  have hy₀ := h.ok.y
  rw [moved, if_neg (by omega)] at hx
  rw [moved] at hy
  rw [hs']
  have hX : 0 ≤ s'.mouse.gMouseProp.x.toInt ∧ s'.mouse.gMouseProp.x.toInt < width := by omega
  have hY : 0 ≤ s'.mouse.gMouseProp.y.toInt ∧ s'.mouse.gMouseProp.y.toInt < height := by
    split at hy <;> omega
  have hXn := toNat_of_nonneg hX.1
  have hYn := toNat_of_nonneg hY.1
  refine ⟨⟨hX, hY, fun a ha => ?_, fun m hm hpos => ?_⟩, ?_, ?_⟩
  · rw [haccesses] at ha
    rcases List.mem_append.mp ha with ha | ha
    · exact h.ok.accesses a ha
    · refine packetAccesses_onScreen h.ok.pixel ⟨by omega, by omega⟩ (fun hr => ?_) a ha
      have hnext := toNat_next hX.1
      have hcolumn := hbutton hr
      omega
  · rw [hmoves] at hm
    rcases List.mem_append.mp hm with hm | hm
    · exact h.ok.right m hm hpos
    · obtain rfl := List.mem_singleton.mp hm
      simp only at hpos ⊢
      omega
  · rw [hloop]
    exact h.old
  · rw [hloop]
    exact h.arg

/-- A packet after which the cursor is still on the screen, and was on the way, ended inside. -/
theorem CursorInv.inside (hW : width ≤ 32767) {s : CursorState}
    (h : CursorInv width height s) (e : CursorEvent)
    (hok : CursorOk width height (cursorStep screen s e)) : PacketInside width height s e := by
  cases e with
  | loop => trivial
  | byte port b =>
      intro q hq
      rcases @CursorOk.byte_cases width height screen s h.ok port b with
        ⟨hnone, -⟩ | ⟨p, s', hs', hp, hx, hy, hloop, haccesses, hmoves⟩
      · rw [hnone] at hq
        cases hq
      rw [hp] at hq
      obtain rfl := List.mem_singleton.mp hq
      rw [hs'] at hok
      obtain ⟨hdx, -⟩ := decode_range p
      have hx₀ := h.ok.x
      have hX := hok.x
      have hY := hok.y
      rw [moved] at hx hy
      -- beyond the range of an `int16_t` the cursor would go back to the left
      have hforth := hok.right _ (by rw [hmoves]; exact List.mem_append_right _ List.mem_cons_self)
      simp only at hforth
      have hcolumn : s.mouse.gMouseProp.x.toInt + p.decode.dx.toInt < width := by
        split at hx <;> omega
      refine ⟨hcolumn, ?_, fun hr => ?_⟩
      · split at hy <;> omega
      · have hmem : Access.getPixel (s'.mouse.gMouseProp.x + 1) s'.mouse.gMouseProp.y ∈
            s'.accesses := by
          rw [haccesses, packetAccesses, if_pos hr]
          exact List.mem_append_right _ (List.mem_append_right _ List.mem_cons_self)
        have hlt := (hok.accesses _ hmem).1
        have hnext := toNat_next hX.1
        split at hx <;> omega

/-- **The cursor stays on the screen exactly in the runs whose packets end inside.** -/
theorem cursorOk_iff (hW : 1 ≤ width ∧ width ≤ 32767) (hH : 1 ≤ height ∧ height ≤ 32767)
    (screen : List Access → BitVec 16 → BitVec 16 → MouseColor) (l : List CursorEvent) :
    Along (cursorStep screen) (CursorOk width height) .enabled l
      ↔ Guarded (cursorStep screen) (PacketInside width height) .enabled l := by
  refine along_iff_guarded_of_inv (I := CursorInv width height) (fun s h => h.ok) ?_ ?_ ?_
  · intro s e h hinside
    cases e with
    | byte port b => exact h.byte hW.2 port b hinside
    | loop => exact h.loop
  · intro s e h hok
    exact h.inside hW.2 e hok
  · have hx : (0 : Int) < width := by omega
    have hy : (0 : Int) < height := by omega
    refine ⟨⟨⟨by decide, hx⟩, ⟨by decide, hy⟩, fun a ha => ?_, fun m hm => ?_⟩, ⟨?_, ?_⟩, ?_⟩
    · cases ha
    · cases hm
    · exact hW.1
    · exact hH.1
    · exact hW.1

end Run

/-- A frame buffer of black pixels. -/
def blackScreen : List Access → BitVec 16 → BitVec 16 → MouseColor := fun _ _ _ => ⟨0, 0, 0, 0⟩

/-- A packet, with a step of the event loop inside it. -/
theorem cursorOk_iff_small :
    Along (cursorStep blackScreen) (CursorOk 640 480) .enabled
        [.byte .one 8, .loop, .byte .one 5, .byte .one 0]
      ↔ Guarded (cursorStep blackScreen) (PacketInside 640 480) .enabled
        [.byte .one 8, .loop, .byte .one 5, .byte .one 0] :=
  cursorOk_iff (by decide) (by decide) blackScreen _

/-- **Three packets to the right leave the screen.** -/
theorem cursor_leaves : ¬ ∀ (width height : Nat), 1 ≤ width ∧ width ≤ 32767 →
    1 ≤ height ∧ height ≤ 32767 → ∀ l : List CursorEvent,
      Along (cursorStep blackScreen) (CursorOk width height) .enabled l := by
  intro hall
  have hok := (hall 640 480 (by decide) (by decide)
    [.byte .one 8, .byte .one 255, .byte .one 0, .byte .one 8, .byte .one 255, .byte .one 0,
      .byte .one 8, .byte .one 255, .byte .one 0]).final
  have hx : (run (cursorStep blackScreen) .enabled
    [.byte .one 8, .byte .one 255, .byte .one 0, .byte .one 8, .byte .one 255, .byte .one 0,
      .byte .one 8, .byte .one 255, .byte .one 0]).mouse.gMouseProp.x.toInt = 765 := rfl
  have hlt := hok.x.2
  rw [hx] at hlt
  omega

end MapleKernel.Drivers
