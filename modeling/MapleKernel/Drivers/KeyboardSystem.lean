/-
  File:      Drivers/KeyboardSystem.lean
  Subject:   THE KEYBOARD FROM THE WIRE TO THE SCREEN: its bytes, the interrupts that bring them,
             the decoder, the tables of held keys, the characters, and the terminal.

  The layers are those of the other files; here they are put together. A byte goes through
  `keyboard_handler_scs1`, which calls a parse function when an event is complete; that changes the
  tables and prints.

  * `ParseCall.event?` -- the key event of a call; the tables of C are indexed with the code as it
    is, so that a code behind them has none;
  * `keyboardAct` -- what a byte does to the decoder and to the tables;
  * `keys_under_interrupts` -- whatever program runs, and wherever the interrupts hit it: it goes on
    as if there were none, and at the end the tables are those of the parse functions and hold the
    keys that are down;
  * `typedText` -- the characters that a history of key events stands for;
  * `typed_on_screen` -- the scrollback is the layout of this text, and COM1 got the same. Keys that
    move the cursor are left out, and so are the lock keys: their `set_leds` talks to the controller
    in the middle of the handler.
-/
import MapleKernel.Drivers.InterruptHandlers
import MapleKernel.Drivers.KeyTyping
import MapleKernel.Drivers.KeyboardHandler
import MapleKernel.Stdio.TerminalLayout

namespace MapleKernel.Drivers

open Runs LastWrite X86 Stdio

/-! ## 1. The calls as events -/

/-- The event of a call: `none` is an index behind the tables, and Pause has no key in them. -/
def ParseCall.event? : ParseCall → Option (Option ParseEvent)
  | .scanCode code pressed =>
      if h : code.toNat < scancodeLen then some (some ⟨.plain ⟨code.toNat, h⟩, pressed⟩) else none
  | .extendedScanCode code pressed =>
      if h : code.toNat < extendedScancodeLen then
        some (some ⟨.extended ⟨code.toNat, h⟩, pressed⟩)
      else none
  | .printScreen pressed => some (some ⟨.printScreen, pressed⟩)
  | .pausePressed => some none

/-- A call of a parse function. -/
def ParseCall.run (fns : KeyFunctionTable) (s : KeyboardState) (c : ParseCall) :
    Option KeyboardState :=
  c.event?.map fun e => e.elim (parsePausePressed s) (parse fns s)

/-- What it does to the tables. -/
def ParseCall.hold (held : TableKey → Bool) (c : ParseCall) : Option (TableKey → Bool) :=
  c.event?.map fun e => e.elim held fun e => Function.update held e.key e.pressed

theorem ParseCall.held_run (fns : KeyFunctionTable) (s : KeyboardState) (c : ParseCall) :
    (c.run fns s).map KeyboardState.held = c.hold s.held := by
  rw [ParseCall.run, ParseCall.hold, Option.map_map]
  refine Option.map_congr fun e _ => ?_
  cases e with
  | none => exact (parsePausePressed_step s).1
  | some e => exact (parse_step fns s e).1

theorem ExtendedScancode.code_lt (k : ExtendedScancode) : k.code.toNat < extendedScancodeLen := by
  cases k <;> decide

/-- The event in the tables that a complete key event stands for. -/
def KeyEvent.parseEvent : KeyEvent → Option ParseEvent
  | .make k => some ⟨.plain ⟨k.code.toNat, Nat.lt_succ_of_le (UInt8.le_iff_toNat_le.mp k.le)⟩, true⟩
  | .«break» k =>
      some ⟨.plain ⟨k.code.toNat, Nat.lt_succ_of_le (UInt8.le_iff_toNat_le.mp k.le)⟩, false⟩
  | .extendedMake k => some ⟨.extended ⟨k.code.toNat, k.code_lt⟩, true⟩
  | .extendedBreak k => some ⟨.extended ⟨k.code.toNat, k.code_lt⟩, false⟩
  | .printScreenPress => some ⟨.printScreen, true⟩
  | .printScreenRelease => some ⟨.printScreen, false⟩
  | .pause => none

/-- No key of a keyboard is behind the tables. -/
theorem KeyEvent.event?_call (e : KeyEvent) : e.call.event? = some e.parseEvent := by
  cases e with
  | make k => exact dif_pos (Nat.lt_succ_of_le (UInt8.le_iff_toNat_le.mp k.le))
  | «break» k => exact dif_pos (Nat.lt_succ_of_le (UInt8.le_iff_toNat_le.mp k.le))
  | extendedMake k => exact dif_pos k.code_lt
  | extendedBreak k => exact dif_pos k.code_lt
  | printScreenPress => rfl
  | printScreenRelease => rfl
  | pause => rfl

/-! ## 2. The tables under interrupts -/

/-- The static flags of the decoder, and the three tables as one. -/
abbrev KeyTables := Vector PortFlags 2 × (TableKey → Bool)

/-- What `keyboard_handler` does to them, with scan code set 1 active. -/
def keyboardAct (g : KeyTables) (i : Ps2Interrupt) : Option KeyTables := do
  let (statics, actions) ← keyboardHandlerScs1 g.1 i.byte i.port.toUInt8
  let held ← (callsOf actions).foldlM ParseCall.hold g.2
  some (statics, held)

/-- All released, and no byte yet. -/
def KeyTables.initial : KeyTables := (staticsInitial, fun _ => false)

/-- Interrupts of port 1 feed the decoder. -/
theorem foldlM_keyboardAct {is : List Ps2Interrupt} (hport : ∀ i ∈ is, i.port = 1)
    {st st' : Vector PortFlags 2} {held held' : TableKey → Bool} {as : List HandlerAction}
    (hfeed : feed 1 st (is.map Ps2Interrupt.byte) = some (st', as))
    (hheld : (callsOf as).foldlM ParseCall.hold held = some held') :
    is.foldlM keyboardAct (st, held) = some (st', held') := by
  induction is generalizing st held as with
  | nil =>
      simp only [List.map_nil, feed, Option.some.injEq, Prod.mk.injEq] at hfeed
      obtain ⟨rfl, rfl⟩ := hfeed
      obtain rfl := Option.some.inj hheld
      rfl
  | cons i is ih =>
      simp only [List.map_cons, feed, Option.bind_eq_bind, Option.bind_eq_some_iff,
        Option.some.injEq, Prod.mk.injEq] at hfeed
      obtain ⟨⟨st₁, as₁⟩, hbyte, ⟨st₂, as₂⟩, hrest, rfl, rfl⟩ := hfeed
      rw [callsOf_append, List.foldlM_append] at hheld
      obtain ⟨held₁, hheld₁, hheld₂⟩ := Option.bind_eq_some_iff.mp hheld
      have hone : i.port = 1 := hport i List.mem_cons_self
      have hact : keyboardAct (st, held) i = some (st₁, held₁) := by
        have hport' : i.port.toUInt8 = 1 := by rw [hone]; rfl
        simp only [keyboardAct, hport', hbyte, Option.bind_eq_bind, Option.bind_some, hheld₁]
      rw [List.foldlM_cons, hact]
      exact ih (fun j hj => hport j (List.mem_cons_of_mem _ hj)) hrest hheld₂

/-- The calls of a history leave the keys that are down. -/
theorem foldlM_hold (es : List KeyEvent) (before : List ParseEvent) :
    (es.map KeyEvent.call).foldlM ParseCall.hold (lastPressed before) =
      some (lastPressed (before ++ es.filterMap KeyEvent.parseEvent)) := by
  induction es generalizing before with
  | nil => rw [List.filterMap_nil, List.append_nil]; rfl
  | cons e es ih =>
      rw [List.map_cons, List.foldlM_cons, ParseCall.hold, e.event?_call]
      cases he : e.parseEvent with
      | none =>
          rw [List.filterMap_cons_none he]
          exact ih before
      | some p =>
          rw [List.filterMap_cons_some he, List.append_cons]
          have hnext := ih (before ++ [p])
          rw [lastPressed_concat] at hnext
          exact hnext

/-- Through the parse functions the tables of held keys are the same, whatever function is tied to
a key. -/
theorem foldlM_held_run (fns : KeyFunctionTable) (calls : List ParseCall) (s : KeyboardState) :
    (calls.foldlM (ParseCall.run fns) s).map KeyboardState.held =
      calls.foldlM ParseCall.hold s.held := by
  induction calls generalizing s with
  | nil => rfl
  | cons c calls ih =>
      rw [List.foldlM_cons, List.foldlM_cons, ← c.held_run fns s]
      cases c.run fns s with
      | none => rfl
      | some s' => exact ih s'

/-- **Keys under interrupts.** A keyboard on port 1 sends the bytes of a history of key events
without Pause, and they arrive between any instructions of any program: the program goes on as if
alone, the decoder is back at its start, and the tables hold exactly the keys that are down. They
are what the parse functions leave when they are run on the decoded calls. -/
theorem keys_under_interrupts {env : Env} {own : UInt32 → Prop} {lo need : Nat} {sel : UInt16}
    {linked : CHandler → UInt32} {view : Memory → KeyTables} {c d : Config} (P : Program own lo)
    (hview : ViewsOwn own view)
    (hspec : ∀ i : Ps2Interrupt, i.port = 1 → i.handler = linked .keyboardHandler →
      HandlerSpec env own lo need view keyboardAct i)
    {l : List (Option Ps2Interrupt)} {es : List KeyEvent} (hes : .pause ∉ es)
    (hbytes : (l.filterMap id).map Ps2Interrupt.byte = es.flatMap KeyEvent.bytes)
    (hstart : view c.2.mem = .initial)
    (h : Injected P.next (fun i c d => (i.port = 1 ∧ i.handler = linked .keyboardHandler) ∧
      Taken env own lo need sel i c d) c l d) :
    SameFor P.live (P.next^[ownSteps l] c) d ∧
      view d.2.mem = (staticsInitial, lastPressed (es.filterMap KeyEvent.parseEvent)) ∧
      ∀ (fns : KeyFunctionTable) (s : KeyboardState), (s.held = fun _ => false) →
        ∃ as s', feed 1 staticsInitial (es.flatMap KeyEvent.bytes) = some (staticsInitial, as) ∧
          (callsOf as).foldlM (ParseCall.run fns) s = some s' ∧
          s'.held = (view d.2.mem).2 := by
  obtain ⟨hprogram, hhandlers⟩ := interrupted_run P hview (fun i hi => hspec i hi.1 hi.2) h
  obtain ⟨as, hfeed, hcalls⟩ := feed_no_pause hes
  have hhold : (callsOf as).foldlM ParseCall.hold (fun _ => false) =
      some (lastPressed (es.filterMap KeyEvent.parseEvent)) := by
    rw [hcalls]
    exact foldlM_hold es []
  have htables : view d.2.mem =
      (staticsInitial, lastPressed (es.filterMap KeyEvent.parseEvent)) := by
    refine hhandlers _ ?_
    rw [hstart]
    refine foldlM_keyboardAct (h.forall_mem fun i _ _ hi => hi.1.1) ?_ hhold
    rw [hbytes]
    exact hfeed
  refine ⟨hprogram, htables, fun fns s hs => ?_⟩
  have hrun := foldlM_held_run fns (callsOf as) s
  rw [hs, hhold] at hrun
  obtain ⟨s', hs', hheld⟩ := Option.map_eq_some_iff.mp hrun
  exact ⟨as, s', hfeed, hs', by rw [hheld, htables]⟩

/-- A place for the tables, `0x4000` and up: two times four flags, and a byte for each key. -/
def tableOwn (a : UInt32) : Prop := 0x4000 ≤ a.toNat ∧ a.toNat < 0x5000

instance (a : UInt32) : Decidable (tableOwn a) := inferInstanceAs (Decidable (_ ∧ _))

def keyIndex : TableKey → Nat
  | .plain c => c
  | .extended c => scancodeLen + c
  | .printScreen => scancodeLen + extendedScancodeLen

def keyAt (n : Nat) : Option TableKey :=
  if h : n < scancodeLen then some (.plain ⟨n, h⟩)
  else if h : n - scancodeLen < extendedScancodeLen then some (.extended ⟨n - scancodeLen, h⟩)
  else some .printScreen

theorem keyAt_keyIndex (k : TableKey) : keyAt (keyIndex k) = some k := by
  cases k with
  | plain c => exact dif_pos c.2
  | extended c => simp [keyAt, keyIndex]
  | printScreen => rfl

def flagByte (f : PortFlags) : Nat → UInt8
  | 0 => f.previousExtendedSignal.toUInt8
  | 1 => f.fourLongSequence.toUInt8
  | 2 => f.sixLongSequence.toUInt8
  | _ => f.currentSequenceLength

def viewFlags (m : Nat → UInt8) : PortFlags := ⟨m 0 == 1, m 1 == 1, m 2 == 1, m 3⟩

def tableByte (g : KeyTables) (n : Nat) : UInt8 :=
  if n < 4 then flagByte (g.1.get ⟨0, Nat.zero_lt_two⟩) n
  else if n < 8 then flagByte (g.1.get ⟨1, Nat.one_lt_two⟩) (n - 4)
  else ((keyAt (n - 8)).any g.2).toUInt8

/-- The tables in a row of cells. -/
def viewTables (cell : Nat → UInt8) : KeyTables :=
  (#v[viewFlags cell, viewFlags fun n => cell (4 + n)], fun k => cell (8 + keyIndex k) == 1)

def tableView (m : Memory) : KeyTables := viewTables fun n => m (.ofNat (0x4000 + n))

def tableWrite (m : Memory) (g : KeyTables) : Memory := fun a =>
  if tableOwn a then tableByte g (a.toNat - 0x4000) else m a

theorem viewFlags_flagByte (f : PortFlags) : viewFlags (flagByte f) = f := by
  obtain ⟨a, b, c, n⟩ := f
  cases a <;> cases b <;> cases c <;> rfl

theorem keyIndex_lt (k : TableKey) : keyIndex k < 0x800 := by
  cases k with
  | plain c => exact lt_trans c.2 (by decide)
  | extended c => exact lt_trans (Nat.add_lt_add_left c.2 scancodeLen) (by decide)
  | printScreen => decide

theorem viewTables_congr {cell cell' : Nat → UInt8} (h : ∀ n, n < 0x1000 → cell' n = cell n) :
    viewTables cell' = viewTables cell := by
  refine Prod.ext ?_ (funext fun k => ?_)
  · simp [viewTables, viewFlags, h]
  · have hindex := keyIndex_lt k
    exact congrArg (· == 1) (h _ (by omega))

theorem viewTables_tableByte (g : KeyTables) : viewTables (tableByte g) = g := by
  obtain ⟨st, held⟩ := g
  refine Prod.ext (Vector.ext fun i hi => ?_) (funext fun k => ?_)
  · match i, hi with
    | 0, _ => exact viewFlags_flagByte st[0]
    | 1, _ => exact viewFlags_flagByte st[1]
  · show (tableByte (st, held) (8 + keyIndex k) == 1) = held k
    rw [tableByte, if_neg (by omega), if_neg (by omega), Nat.add_sub_cancel_left, keyAt_keyIndex]
    show ((held k).toUInt8 == 1) = held k
    cases held k <;> rfl

theorem toNat_cell {n : Nat} (hn : n < 0x1000) :
    (UInt32.ofNat (0x4000 + n)).toNat = 0x4000 + n :=
  UInt32.toNat_ofNat_of_lt' (by rw [UInt32.size]; omega)

theorem tableView_tableWrite (m : Memory) (g : KeyTables) : tableView (tableWrite m g) = g := by
  refine Eq.trans (viewTables_congr fun n hn => ?_) (viewTables_tableByte g)
  have haddr := toNat_cell hn
  rw [tableWrite, if_pos ⟨by omega, by omega⟩, haddr, Nat.add_sub_cancel_left]

theorem tableView_viewsOwn : ViewsOwn tableOwn tableView := by
  intro m m' h
  refine viewTables_congr fun n hn => h _ ?_
  have haddr := toNat_cell hn
  exact ⟨by omega, by omega⟩

/-- Where the linker put the C handlers. -/
def tableLinked : CHandler → UInt32
  | .keyboardHandler => 0x5000
  | .mouseHandler => 0x6000

/-- The C handler over it. -/
def tableHandler (s : State) : Memory :=
  match keyboardAct (tableView s.mem) ⟨s.argument 1, 0x5000, (s.argument 0).toUInt8⟩ with
  | some g => tableWrite s.mem g
  | none => s.mem

/-- A controller in which the A key was pressed, and the handler at its address. -/
def tableEnv : Env :=
  simpleEnv (fun _ _ => 0x1E) fun f =>
    if f = tableLinked .keyboardHandler then tableHandler else fun s => s.mem

theorem tableHandler_frame (s : State) {a : UInt32} (ha : ¬ tableOwn a) :
    tableHandler s a = s.mem a := by
  unfold tableHandler
  cases keyboardAct (tableView s.mem) ⟨s.argument 1, 0x5000, (s.argument 0).toUInt8⟩ with
  | none => rfl
  | some g => exact if_neg ha

theorem tableHandler_spec (i : Ps2Interrupt) (hi : i.handler = tableLinked .keyboardHandler) :
    HandlerSpec tableEnv tableOwn 0 0x100 tableView keyboardAct i where
  cdecl := by
    rw [hi]
    exact cdecl_simple fun s a ha => tableHandler_frame s ha
  acts := by
    intro e g _ hbyte hport hact
    rw [hi]
    show tableView (tableHandler e) = g
    rw [tableHandler, hbyte, hport]
    have hsame : keyboardAct (tableView e.mem) ⟨i.port, 0x5000, i.byte.toUInt32.toUInt8⟩ =
        some g := by
      rw [← hact, UInt8.toUInt8_toUInt32]
      rfl
    rw [hsame]
    exact tableView_tableWrite e.mem g
  log := fun e => ⟨[], (List.append_nil _).symm⟩

/-- A program that counts in `eax`. -/
def counting : Program tableOwn 0 where
  next := fun c => (c.1 + 1, c.2.setReg .eax (c.2.reg .eax + 1))
  live := fun _ _ => False
  live_outside := fun _ _ h => h.elim
  respects := by
    intro c d h
    refine ⟨by rw [h.eip], ?_, h.seg, h.eflags, h.cr0, h.gdtr, fun _ ha => ha.elim⟩
    show Function.update d.2.reg .eax _ = Function.update c.2.reg .eax _
    rw [h.reg]
  keeps := fun _ _ _ => rfl

/-- The A key is pressed while it counts. -/
def countingStart : Config := (0x3000, flatMachine (tableWrite flatMemory .initial))

theorem keys_under_interrupts_counting : ∃ d : Config,
    SameFor counting.live (counting.next^[1] countingStart) d ∧
      tableView d.2.mem = (staticsInitial, lastPressed [⟨.plain scA, true⟩]) ∧
      ∀ (fns : KeyFunctionTable) (s : KeyboardState), (s.held = fun _ => false) →
        ∃ as s', feed 1 staticsInitial [0x1E] = some (staticsInitial, as) ∧
          (callsOf as).foldlM (ParseCall.run fns) s = some s' ∧
          s'.held = (tableView d.2.mem).2 := by
  have hready : Interruptible tableEnv tableOwn 0 (0x100 + handlerStack) 0x10 countingStart.2 := by
    refine flatMachine_interruptible (by decide) (fun _ _ => rfl)
      (fun a ha => le_trans (by decide) ha.1) fun a ha => if_neg ?_
    have hin : (a - 0x2000).toNat < 32 := Nat.lt_succ_of_le ha
    rw [toNat_sub_lt_iff (by decide)] at hin
    have hbase : (0x2000 : UInt32).toNat = 0x2000 := rfl
    exact fun hown => absurd hown.1 (by omega)
  obtain ⟨t, u, e, b, ht, hruns, hserved⟩ := interruptHandler_served 1 0x3000 hready
    (tableHandler_spec ⟨1, 0x5000, 0x1E⟩ rfl).cdecl
  obtain ⟨_, rfl⟩ := hserved.read
  have htaken : Taken tableEnv tableOwn 0 0x100 0x10 ⟨1, 0x5000, 0x1E⟩ countingStart
      (0x3000, u) := by
    refine ⟨hready, ⟨t, ht, hruns⟩, [.call 0x5000], ?_⟩
    exact hserved.log.trans hserved.once
  have hrun : Injected counting.next
      (fun i c d => (i.port = 1 ∧ i.handler = tableLinked .keyboardHandler) ∧
        Taken tableEnv tableOwn 0 0x100 0x10 i c d) countingStart
      [some ⟨1, 0x5000, 0x1E⟩, none] (counting.next (0x3000, u)) :=
    .interrupt ⟨⟨rfl, rfl⟩, htaken⟩ (.step (.done _))
  have hes : KeyEvent.pause ∉ [KeyEvent.make ⟨0x1E, by decide, by decide⟩] := by simp
  have hbytes : ([some (⟨1, 0x5000, 0x1E⟩ : Ps2Interrupt), none].filterMap id).map
      Ps2Interrupt.byte = [KeyEvent.make ⟨0x1E, by decide, by decide⟩].flatMap KeyEvent.bytes := rfl
  exact ⟨_, keys_under_interrupts counting tableView_viewsOwn
    (fun i _ => tableHandler_spec i) hes hbytes (tableView_tableWrite flatMemory .initial) hrun⟩

/-! ## 3. From the events to the screen -/

/-- What the terminal makes of an effect. `testing` is the line of the testing mode. `set_leds` has
none here: it reads its response from port 0x60, where the next byte of a key may be, and prints
when the controller fails. -/
def showEffect (testing : TestingLine → KeyCode → List UInt8) (t : TerminalContext) :
    KeyEffect → Option TerminalContext
  | .setLeds _ => none
  | .terminalArrowUp => some (terminalArrowUp t)
  | .terminalArrowDown => some (terminalArrowDown t)
  | .terminalArrowRight => some t
  | .terminalArrowLeft => some t
  | .terminalCtrlR => some (terminalCtrlR t)
  | .terminalCtrlF => some (terminalCtrlF t)
  | .printKeycode line keycode =>
      some ((testing line keycode).foldl (fun t c => terminalPutchar c t) t)
  | .printChar c => some (terminalPutchar (UInt8.ofNat c.toNat) t)

/-- The text of one event, from the keys that were down before it. -/
def typedBy (before : TableKey → Bool) (e : ParseEvent) : List UInt8 :=
  let key := packKeycode e.key.keycode
  if e.pressed ∧ (keyCharTable key).isPrintable then
    [UInt8.ofNat (keyToChar key (modifiersOf before)).toNat]
  else []

/-- The text of a history, which begins after `before`. -/
def typedText (before : List ParseEvent) : List ParseEvent → List UInt8
  | [] => []
  | e :: l => typedBy (lastPressed before) e ++ typedText (before ++ [e]) l

def scNumlock : Fin scancodeLen := ⟨0x45, by decide⟩
def sceUp : Fin extendedScancodeLen := ⟨0x48, by decide⟩
def sceDown : Fin extendedScancodeLen := ⟨0x50, by decide⟩
def scR : Fin scancodeLen := ⟨0x13, by decide⟩
def scF : Fin scancodeLen := ⟨0x21, by decide⟩

/-- The event does not move the cursor or the window, as Up, Down, and Ctrl with R or F do, and does
not set the LEDs, as the lock keys do. -/
structure StaysPut (before : TableKey → Bool) (e : ParseEvent) : Prop where
  lock : e ≠ ⟨.plain scCapslock, true⟩ ∧ e ≠ ⟨.plain scNumlock, true⟩ ∧
    e ≠ ⟨.plain scScrolllock, true⟩
  arrow : e ≠ ⟨.extended sceUp, true⟩ ∧ e ≠ ⟨.extended sceDown, true⟩
  ctrl : e = ⟨.plain scR, true⟩ ∨ e = ⟨.plain scF, true⟩ →
    before (.plain scLeftCtrl) = false ∧ before (.extended sceRightCtrl) = false

/-- Every event of a history. -/
def AllStayPut (before : List ParseEvent) : List ParseEvent → Prop
  | [] => True
  | e :: l => StaysPut (lastPressed before) e ∧ AllStayPut (before ++ [e]) l

section Screen

variable {testing : TestingLine → KeyCode → List UInt8} {s : KeyboardState} {t : TerminalContext}

/-- What is on the screen after the effects so far. -/
def KeyboardState.screen (testing : TestingLine → KeyCode → List UInt8) (s : KeyboardState)
    (t : TerminalContext) : Option TerminalContext := s.effects.foldlM (showEffect testing) t

/-- One more effect. -/
theorem screen_concat {s' : KeyboardState} {e : KeyEffect} (he : s'.effects = s.effects ++ [e]) :
    s'.screen testing t = (s.screen testing t).bind fun t => showEffect testing t e := by
  rw [KeyboardState.screen, he, List.foldlM_append]
  refine congrArg _ (funext fun t => ?_)
  rw [List.foldlM_cons]
  exact Option.bind_fun_some _

/-- A tied function that neither moves anything nor sets the LEDs leaves the screen alone. -/
theorem KeyFunction.screen_call {f : KeyFunction}
    (hlock : f ≠ .pressedCapsLock ∧ f ≠ .pressedNumLock ∧ f ≠ .pressedScrollLock)
    (harrow : f ≠ .pressedUp ∧ f ≠ .pressedDown)
    (hctrl : f = .pressedR ∨ f = .pressedF → isCtrlHeld s = false) :
    (f.call s).screen testing t = s.screen testing t := by
  have hemit : ∀ (e : KeyEffect) (s' : KeyboardState), s'.effects = s.effects ++ [e] →
      (∀ t, showEffect testing t e = some t) → s'.screen testing t = s.screen testing t := by
    intro e s' he hid
    rw [screen_concat he]
    simp only [hid, Option.bind_fun_some]
  cases f with
  | nop => rfl
  | pressedA => rfl
  | pressedCapsLock => exact absurd rfl hlock.1
  | pressedNumLock => exact absurd rfl hlock.2.1
  | pressedScrollLock => exact absurd rfl hlock.2.2
  | pressedUp => exact absurd rfl harrow.1
  | pressedDown => exact absurd rfl harrow.2
  | pressedRight => exact hemit .terminalArrowRight _ rfl fun _ => rfl
  | pressedLeft => exact hemit .terminalArrowLeft _ rfl fun _ => rfl
  | pressedR =>
      have hno := hctrl (.inl rfl)
      rw [KeyFunction.call, hno]
      rfl
  | pressedF =>
      have hno := hctrl (.inr rfl)
      rw [KeyFunction.call, hno]
      rfl

theorem setupKeyFunctions_moving :
    ∀ c : Fin scancodeLen, setupKeyFunctions.keyFunctions c ≠ .pressedUp ∧
      setupKeyFunctions.keyFunctions c ≠ .pressedDown ∧
      (setupKeyFunctions.keyFunctions c = .pressedR → c = scR) ∧
      (setupKeyFunctions.keyFunctions c = .pressedF → c = scF) := by
  decide

theorem setupKeyFunctions_locking :
    ∀ c : Fin scancodeLen,
      (setupKeyFunctions.keyFunctions c = .pressedCapsLock → c = scCapslock) ∧
      (setupKeyFunctions.keyFunctions c = .pressedNumLock → c = scNumlock) ∧
      (setupKeyFunctions.keyFunctions c = .pressedScrollLock → c = scScrolllock) := by
  decide

theorem setupKeyFunctions_extendedMoving :
    ∀ c : Fin extendedScancodeLen,
      (setupKeyFunctions.extendedKeyFunctions c = .pressedUp → c = sceUp) ∧
      (setupKeyFunctions.extendedKeyFunctions c = .pressedDown → c = sceDown) ∧
      setupKeyFunctions.extendedKeyFunctions c ≠ .pressedR ∧
      setupKeyFunctions.extendedKeyFunctions c ≠ .pressedF := by
  decide

theorem setupKeyFunctions_extendedLocking :
    ∀ c : Fin extendedScancodeLen,
      setupKeyFunctions.extendedKeyFunctions c ≠ .pressedCapsLock ∧
      setupKeyFunctions.extendedKeyFunctions c ≠ .pressedNumLock ∧
      setupKeyFunctions.extendedKeyFunctions c ≠ .pressedScrollLock := by
  decide

theorem runKeyFunction_screen {c : Fin scancodeLen} (h : StaysPut s.held ⟨.plain c, true⟩) :
    (runKeyFunction c s).screen testing t = s.screen testing t := by
  unfold runKeyFunction
  split
  · obtain ⟨hup, hdown, hr, hf⟩ := setupKeyFunctions_moving c
    obtain ⟨hcaps, hnum, hscroll⟩ := setupKeyFunctions_locking c
    refine KeyFunction.screen_call ⟨fun hc => h.lock.1 (by rw [hcaps hc]),
      fun hc => h.lock.2.1 (by rw [hnum hc]), fun hc => h.lock.2.2 (by rw [hscroll hc])⟩
      ⟨hup, hdown⟩ fun hfun => ?_
    have hkey : c = scR ∨ c = scF := hfun.imp hr hf
    obtain ⟨hleft, hright⟩ := h.ctrl (hkey.imp (fun hc => by rw [hc]) fun hc => by rw [hc])
    show (s.held (.plain scLeftCtrl) || s.held (.extended sceRightCtrl)) = false
    rw [hleft, hright]
    rfl
  · rfl

theorem runExtendedKeyFunction_screen {c : Fin extendedScancodeLen}
    (h : StaysPut s.held ⟨.extended c, true⟩) :
    (runExtendedKeyFunction c s).screen testing t = s.screen testing t := by
  unfold runExtendedKeyFunction
  split
  · obtain ⟨hup, hdown, hr, hf⟩ := setupKeyFunctions_extendedMoving c
    refine KeyFunction.screen_call (setupKeyFunctions_extendedLocking c)
      ⟨fun hc => h.arrow.1 (by rw [hup hc]), fun hc => h.arrow.2 (by rw [hdown hc])⟩
      fun hfun => ?_
    exact absurd hfun (not_or.mpr ⟨hr, hf⟩)
  · rfl

/-- What `keycode_handler` adds to the screen in typing mode. -/
theorem keycodeHandler_screen (testing : TestingLine → KeyCode → List UInt8) (t : TerminalContext)
    (key : TableKey) (first pressed : Bool) {s' : KeyboardState}
    (hmode : s'.keyboardMode = .typing) :
    (keycodeHandler ⟨key.keycode, getCurrentModState s', first, pressed⟩ s').screen testing t =
      (s'.screen testing t).map
        ((typedBy s'.held ⟨key, pressed⟩).foldl fun t c => terminalPutchar c t) := by
  rw [KeyboardState.screen, keycodeHandler, List.foldlM_append, hmode, typedBy]
  have hsame : ∀ x : Option TerminalContext, (x.bind fun t => some t) = x.map id := fun x =>
    (Option.bind_fun_some x).trans (Option.map_id_apply).symm
  cases pressed with
  | false => exact hsame _
  | true =>
      by_cases hprint : (keyCharTable (packKeycode key.keycode)).isPrintable = true
      · rw [if_pos ⟨rfl, hprint⟩, keycodeEffects]
        dsimp only
        rw [if_neg (by decide), if_pos hprint]
        exact (Option.map_eq_bind ..).symm
      · rw [if_neg fun h => hprint h.2, keycodeEffects]
        dsimp only
        rw [if_neg (by decide), if_neg hprint]
        exact hsame _

theorem typingKeyboard_screen : typingKeyboard.screen testing t = some t := rfl

/-- **One event on the screen.** -/
theorem parse_screen {e : ParseEvent} (hmode : s.keyboardMode = .typing)
    (h : StaysPut s.held e) :
    (parse setupKeyFunctions s e).screen testing t =
      (s.screen testing t).map ((typedBy s.held e).foldl fun t c => terminalPutchar c t) := by
  obtain ⟨key, pressed⟩ := e
  cases pressed with
  | true =>
      cases key with
      | plain c =>
          obtain ⟨hheld, -⟩ := tied_frame (setupKeyFunctions.isKeyTiedToFunction c)
            (setupKeyFunctions.keyFunctions c) s
          have hmode' : (runKeyFunction c s).keyboardMode = .typing := by
            rw [← hmode]
            unfold runKeyFunction
            split
            · exact ((setupKeyFunctions.keyFunctions c).call_frame s).2.2
            · rfl
          have hscreen := keycodeHandler_screen testing t (.plain c)
            (!(runKeyFunction c s).isKeyPressed c) true hmode'
          rw [runKeyFunction_screen h, show (runKeyFunction c s).held = s.held from hheld]
            at hscreen
          exact hscreen
      | extended c =>
          obtain ⟨hheld, -⟩ := tied_frame (setupKeyFunctions.isExtendedKeyTiedToFunction c)
            (setupKeyFunctions.extendedKeyFunctions c) s
          have hmode' : (runExtendedKeyFunction c s).keyboardMode = .typing := by
            rw [← hmode]
            unfold runExtendedKeyFunction
            split
            · exact ((setupKeyFunctions.extendedKeyFunctions c).call_frame s).2.2
            · rfl
          have hscreen := keycodeHandler_screen testing t (.extended c)
            (!(runExtendedKeyFunction c s).isExtendedKeyPressed c) true hmode'
          rw [runExtendedKeyFunction_screen h,
            show (runExtendedKeyFunction c s).held = s.held from hheld] at hscreen
          exact hscreen
      | printScreen => exact keycodeHandler_screen testing t .printScreen _ true hmode
  | false =>
      -- a release prints nothing
      have hnone : typedBy s.held ⟨key, false⟩ = [] := by
        rw [typedBy]
        exact if_neg fun hprint => Bool.false_ne_true hprint.1
      rw [hnone]
      have hrelease : ∀ (c : KeycodeCall) (s' : KeyboardState), c.pressNotReleased = false →
          s'.keyboardMode = .typing → s'.effects = s.effects →
          (keycodeHandler c s').effects = s.effects := by
        intro c s' hc hmode' heff
        rw [keycodeHandler, hmode', keycodeEffects, hc, heff]
        exact List.append_nil _
      have heffects : (parse setupKeyFunctions s ⟨key, false⟩).effects = s.effects := by
        cases key with
        | plain c => exact hrelease _ (s.setPlain c false) rfl hmode rfl
        | extended c => exact hrelease _ (s.setExtended c false) rfl hmode rfl
        | printScreen => exact hrelease _ s rfl hmode rfl
      rw [KeyboardState.screen, heffects]
      exact Option.map_id_apply.symm

/-- **A history on the screen.** -/
theorem run_screen {before l : List ParseEvent} (hmode : s.keyboardMode = .typing)
    (hheld : s.held = lastPressed before) (h : AllStayPut before l) :
    (run (parse setupKeyFunctions) s l).screen testing t =
      (s.screen testing t).map ((typedText before l).foldl fun t c => terminalPutchar c t) := by
  induction l generalizing s before with
  | nil => exact Option.map_id_apply.symm
  | cons e l ih =>
      have hstay : StaysPut s.held e := by rw [hheld]; exact h.1
      have hnext : (parse setupKeyFunctions s e).held = lastPressed (before ++ [e]) := by
        rw [(parse_step setupKeyFunctions s e).1, lastPressed_concat, hheld]
      rw [run_cons, ih ((parse_keyboardMode _ s e).trans hmode) hnext h.2,
        parse_screen hmode hstay, Option.map_map, typedText, hheld]
      exact congrArg (Option.map · _) (funext fun t => List.foldl_append.symm)

end Screen

/-! ## 4. From the bytes to the screen -/

/-- The calls of a history, one after the other. -/
theorem foldlM_run (fns : KeyFunctionTable) (es : List KeyEvent) (hes : .pause ∉ es)
    (s : KeyboardState) :
    (es.map KeyEvent.call).foldlM (ParseCall.run fns) s =
      some (run (parse fns) s (es.filterMap KeyEvent.parseEvent)) := by
  induction es generalizing s with
  | nil => rfl
  | cons e es ih =>
      rw [List.mem_cons, not_or] at hes
      rw [List.map_cons, List.foldlM_cons, ParseCall.run, e.event?_call]
      cases he : e.parseEvent with
      | none => cases e <;> first | exact absurd rfl hes.1 | cases he
      | some p =>
          rw [List.filterMap_cons_some he, run_cons]
          exact ih hes.2 (parse fns s p)

/-- **Typed text is on the screen.** The bytes of a history of key events without Pause, in typing
mode, without a key that moves the cursor and without a press of a lock key, are decoded one event
after the other; the scrollback then holds the layout of the typed text, and COM1 got it. -/
theorem typed_on_screen (testing : TestingLine → KeyCode → List UInt8) (vga : Nat → Nat → UInt16)
    {es : List KeyEvent} (hes : .pause ∉ es)
    (hstay : AllStayPut [] (es.filterMap KeyEvent.parseEvent))
    (hrows : (layout (typedText [] (es.filterMap KeyEvent.parseEvent))).row < vgaMemHeight) :
    ∃ as s t, feed 1 staticsInitial (es.flatMap KeyEvent.bytes) = some (staticsInitial, as) ∧
      (callsOf as).foldlM (ParseCall.run setupKeyFunctions) typingKeyboard = some s ∧
      s.screen testing (initializeTerminal (.boot vga)) = some t ∧
      Shows t (layout (typedText [] (es.filterMap KeyEvent.parseEvent)))
        (expandText 0 (typedText [] (es.filterMap KeyEvent.parseEvent))) := by
  obtain ⟨as, hfeed, hcalls⟩ := feed_no_pause hes
  have hheld : typingKeyboard.held = lastPressed [] := by
    funext k
    cases k <;> rfl
  refine ⟨as, run (parse setupKeyFunctions) typingKeyboard (es.filterMap KeyEvent.parseEvent),
    _, hfeed, ?_, ?_, foldl_putchar_shows (initializeTerminal_shows vga) _ hrows⟩
  · rw [hcalls]
    exact foldlM_run setupKeyFunctions es hes typingKeyboard
  · rw [run_screen rfl hheld hstay, typingKeyboard_screen, Option.map_some]

/-- Shift with A. -/
def shiftA : List KeyEvent :=
  [.make ⟨0x2A, by decide, by decide⟩, .make ⟨0x1E, by decide, by decide⟩,
    .«break» ⟨0x1E, by decide, by decide⟩, .«break» ⟨0x2A, by decide, by decide⟩]

theorem typed_on_screen_shiftA : ∃ as s t,
    feed 1 staticsInitial (shiftA.flatMap KeyEvent.bytes) = some (staticsInitial, as) ∧
      (callsOf as).foldlM (ParseCall.run setupKeyFunctions) typingKeyboard = some s ∧
      s.screen (fun _ _ => []) (initializeTerminal (.boot fun _ _ => 0)) = some t ∧
      Shows t (layout (typedText [] (shiftA.filterMap KeyEvent.parseEvent)))
        (expandText 0 (typedText [] (shiftA.filterMap KeyEvent.parseEvent))) := by
  have hes : KeyEvent.pause ∉ shiftA := by simp [shiftA]
  have hstay : AllStayPut [] (shiftA.filterMap KeyEvent.parseEvent) := by
    refine ⟨⟨by decide, by decide, fun h => ?_⟩, ⟨by decide, by decide, fun h => ?_⟩,
      ⟨by decide, by decide, fun h => ?_⟩, ⟨by decide, by decide, fun h => ?_⟩, trivial⟩ <;>
      exact absurd h (by decide)
  exact typed_on_screen (fun _ _ => []) (fun _ _ => 0) hes hstay (by decide)

end MapleKernel.Drivers
