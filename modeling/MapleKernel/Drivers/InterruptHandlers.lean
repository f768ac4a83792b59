/-
  File:      Drivers/InterruptHandlers.lean
  Subject:   THE ENTRY POINTS OF THE PS/2 INTERRUPTS (`ps2_interrupt_handlers.asm`).

  One macro gives four entry points: keyboard and mouse, on port 1 and on port 2. Each saves all
  registers, aligns the stack for C, reads the byte from the controller, and calls the C handler
  with the byte and the number of the port.

  * `interruptHandler` -- the macro, line by line, and `EntryPoint`, its four uses;
  * `entryPoint_serves` -- whatever was interrupted finds everything as it was; the C handler was
    called once, with the byte that was read and the port, and its variables are as it left them;
  * `interrupted_run` -- programs in which interrupts come anywhere.
-/
import MapleKernel.Lib.WordField
import MapleKernel.Lib.X86.Interrupt

namespace MapleKernel.Drivers

open X86

/-! ## 1. The listing -/

/-- `PS2_DATA_PORT_RW`. -/
def ps2DataPortRw : UInt8 := 0x60

/-- `[ebp-4]`, which `ebp` addresses through `ss`. -/
def savedEsp : Mem := ⟨.ss, .w32, some .ebp, -4⟩

/-- `INTERRUPT_HANDLER port, name`; `handler` is the address of `name_handler`. -/
def interruptHandler (port handler : UInt32) : List (Line Empty) :=
  [ .instr (.push (.reg .ebp)),
    .instr (.mov .w32 (.reg .ebp) (.reg .esp)),
    .instr (.alu .sub .w32 .esp (.imm 4)),
    -- save all registers
    .instr .pusha,
    .instr (.pushSeg .ds),
    .instr (.pushSeg .es),
    .instr (.pushSeg .fs),
    .instr (.pushSeg .gs),
    .instr (.mov .w32 (.mem savedEsp) (.reg .esp)),
    -- align the stack
    .instr (.alu .and .w32 .esp (.imm (-16))),
    .instr (.alu .sub .w32 .esp (.imm 32)),
    -- get the data and call the handler
    .instr (.mov .w32 (.reg .eax) (.imm 0)),
    .instr (.inAl ps2DataPortRw),
    .instr (.push (.imm port)),
    .instr (.push (.reg .eax)),
    .instr (.call handler),
    .instr (.alu .add .w32 .esp (.imm 8)),
    -- restore
    .instr (.mov .w32 (.reg .esp) (.mem savedEsp)),
    .instr (.popSeg .gs),
    .instr (.popSeg .fs),
    .instr (.popSeg .es),
    .instr (.popSeg .ds),
    .instr .popa,
    .instr (.alu .add .w32 .esp (.imm 4)),
    .instr (.mov .w32 (.reg .esp) (.reg .ebp)),
    .instr (.pop .w32 .ebp),
    .iret ]

/-- The C handlers that the file names. -/
inductive CHandler where
  | keyboardHandler
  | mouseHandler
  deriving DecidableEq, Repr

/-- The four uses of the macro. -/
inductive EntryPoint where
  | keyboardInterruptHandlerPort1
  | keyboardInterruptHandlerPort2
  | mouseInterruptHandlerPort1
  | mouseInterruptHandlerPort2
  deriving DecidableEq, Repr

def EntryPoint.port : EntryPoint → UInt32
  | .keyboardInterruptHandlerPort1 => 1
  | .keyboardInterruptHandlerPort2 => 2
  | .mouseInterruptHandlerPort1 => 1
  | .mouseInterruptHandlerPort2 => 2

def EntryPoint.handler : EntryPoint → CHandler
  | .keyboardInterruptHandlerPort1 => .keyboardHandler
  | .keyboardInterruptHandlerPort2 => .keyboardHandler
  | .mouseInterruptHandlerPort1 => .mouseHandler
  | .mouseInterruptHandlerPort2 => .mouseHandler

/-- Their code, with the C handlers where the linker puts them. -/
def EntryPoint.lines (linked : CHandler → UInt32) (p : EntryPoint) : List (Line Empty) :=
  interruptHandler p.port (linked p.handler)

/-- The parts of the listing around `saveAll` and `restoreAll`. -/
def enterFrame : List Instr :=
  [.push (.reg .ebp), .mov .w32 (.reg .ebp) (.reg .esp), .alu .sub .w32 .esp (.imm 4)]

def alignStack : List Instr :=
  [.mov .w32 (.mem savedEsp) (.reg .esp), .alu .and .w32 .esp (.imm (-16)),
    .alu .sub .w32 .esp (.imm 32)]

def readByte : List Instr := [.mov .w32 (.reg .eax) (.imm 0), .inAl ps2DataPortRw]

def passByte (port : UInt32) : List Instr := [.push (.imm port), .push (.reg .eax)]

def leaveCall : List Instr :=
  [.alu .add .w32 .esp (.imm 8), .mov .w32 (.reg .esp) (.mem savedEsp)]

def leaveFrame : List Instr :=
  [.alu .add .w32 .esp (.imm 4), .mov .w32 (.reg .esp) (.reg .ebp), .pop .w32 .ebp]

theorem interruptHandler_eq (port handler : UInt32) :
    interruptHandler port handler =
      (enterFrame ++ (saveAll ++ (alignStack ++ (readByte ++ (passByte port ++ (.call handler ::
        (leaveCall ++ (restoreAll ++ leaveFrame)))))))).map .instr ++ [.iret] := rfl

/-! ## 2. Its parts -/

section Parts

variable {env : Env} {own : UInt32 → Prop} {m : Memory} {lo top need : Nat}
  {ws us : List UInt32} {s t u : State} {w port handler : UInt32}

/-- The frame: the old `ebp`, and below it a slot. -/
theorem enterFrame_ok (h : Stacked own m lo top ws t) (R : StackRegion env own lo top)
    (hroom : lo + 8 ≤ (t.reg .esp).toNat) :
    ∃ u w, execs env enterFrame t = some u ∧ Stacked own m lo top (w :: t.reg .ebp :: ws) u ∧
      u.reg .ebp = u.reg .esp + 4 ∧ (∀ r, r ≠ .esp → r ≠ .ebp → u.reg r = t.reg r) ∧
      SameMode t u ∧ u.log = t.log := by
  have hpush := h.push R (by omega) (t.reg .ebp)
  have honly := h.onlyStack_push R (by omega) (t.reg .ebp)
  have hesp : (t.push env .w32 (t.reg .ebp)).reg .esp = t.reg .esp - 4 := push_esp h.flat
  have hlow : (t.reg .esp - 4).toNat = (t.reg .esp).toNat - 4 :=
    toNat_sub_ofNat (n := 4) (by omega)
  obtain ⟨p, hp⟩ : ∃ p, t.push env .w32 (t.reg .ebp) = p := ⟨_, rfl⟩
  have hx : exec env (.push (.reg .ebp)) t = some p := by rw [← hp]; rfl
  rw [hp] at hpush honly hesp
  obtain ⟨w, hw⟩ := hpush.alloc R (by rw [hesp, hlow]; omega)
    (t := ((p.setReg .ebp (p.reg .esp)).setReg .esp (p.reg .esp - 4)).setStatus env
      (p.reg .esp - 4)) rfl (by rw [setStatus_reg, setReg_self]) rfl
  refine ⟨_, w, ?_, hw, ?_, fun r hr hr' => ?_, ⟨?_, ?_, ?_, ?_⟩, honly.log⟩
  · rw [enterFrame, execs_cons hx]
    rfl
  · rw [setStatus_reg, setReg_self, setReg_of_ne (by decide), setReg_self,
      UInt32.sub_add_cancel]
  · rw [setStatus_reg, setReg_of_ne hr, setReg_of_ne hr', honly.reg r hr]
  · exact honly.seg
  · exact honly.cr0
  · exact honly.gdtr
  · rw [setStatus_direction]
    exact honly.sameMode.direction

/-- `[ebp-4]` on a flat stack. -/
theorem addr_savedEsp (h : t.Flat) : t.addr savedEsp = t.reg .ebp - 4 := by
  have hoff : t.offset savedEsp = t.reg .ebp - 4 := by
    rw [UInt32.sub_eq_add_neg]
    rfl
  have hbase : (t.seg savedEsp.seg).base = 0 := h.1
  rw [State.addr, hoff, hbase, UInt32.zero_add]

/-- The stack pointer is kept in the slot, and aligned. -/
theorem alignStack_ok (h : Stacked own m lo top (us ++ w :: ws) t) (R : StackRegion env own lo top)
    (hebp : (t.reg .ebp - 4).toNat = (t.reg .esp).toNat + 4 * us.length) :
    ∃ p q, execs env alignStack t = some q ∧
      Stacked own m lo top (us ++ t.reg .esp :: ws) p ∧ p.reg = t.reg ∧ q.mem = p.mem ∧
      q.reg .esp = (t.reg .esp &&& -16) - 32 ∧ (∀ r, r ≠ .esp → q.reg r = t.reg r) ∧
      SameMode t p ∧ SameMode t q ∧ q.log = t.log := by
  have haddr := addr_savedEsp h.flat
  have hpoke := h.poke (v := t.reg .esp) R (a := t.addr savedEsp) (by rw [haddr, hebp])
  have hdepth := h.depth
  rw [List.length_append, List.length_cons] at hdepth
  have hdev : env.device (t.addr savedEsp) = false := by
    have hlow := h.low
    exact R.device _ (by rw [haddr, hebp]; omega) (by rw [haddr, hebp]; omega)
  obtain ⟨p, hp⟩ : ∃ p, t.storeAt env (t.addr savedEsp) 4 (t.reg .esp).toNat = p := ⟨_, rfl⟩
  have hx : exec env (.mov .w32 (.mem savedEsp) (.reg .esp)) t = some p := by rw [← hp]; rfl
  have hreg : p.reg = t.reg := by rw [← hp, storeAt_reg]
  have hlog : p.log = t.log := by rw [← hp, storeAt_plain hdev]
  have hmode : SameMode t p := by
    rw [← hp]
    exact ⟨storeAt_seg, storeAt_cr0, storeAt_gdtr, by rw [storeAt_eflags]⟩
  rw [hp] at hpoke
  obtain ⟨p', hp'⟩ : ∃ p', (p.setReg .esp (p.reg .esp &&& -16)).setStatus env
      (p.reg .esp &&& -16) = p' := ⟨_, rfl⟩
  have hx' : exec env (.alu .and .w32 .esp (.imm (-16))) p = some p' := by rw [← hp']; rfl
  have hesp' : p'.reg .esp = t.reg .esp &&& -16 := by rw [← hp', setStatus_reg, setReg_self, hreg]
  refine ⟨p, (p'.setReg .esp (p'.reg .esp - 32)).setStatus env (p'.reg .esp - 32), ?_, hpoke, hreg,
    by rw [← hp']; rfl, by rw [setStatus_reg, setReg_self, hesp'], fun r hr => ?_, hmode,
    hmode.trans ⟨by rw [← hp']; rfl, by rw [← hp']; rfl, by rw [← hp']; rfl, ?_⟩, ?_⟩
  · rw [alignStack, execs_cons hx, execs_cons hx']
    rfl
  · rw [setStatus_reg, setReg_of_ne hr, ← hp', setStatus_reg, setReg_of_ne hr, hreg]
  · rw [setStatus_direction, ← hp']
    exact setStatus_direction
  · rw [← hlog, ← hp']
    rfl

/-- The byte is read into `eax`, and stands there alone. -/
theorem readByte_ok (env : Env) (q : State) :
    ∃ b p, execs env readByte q = some p ∧ (∃ r, env.inb ps2DataPortRw r = b) ∧
      p.reg .eax = b.toUInt32 ∧
      (∀ r, r ≠ .eax → p.reg r = q.reg r) ∧ SameMode q p ∧ p.mem = q.mem ∧
      p.log = q.log ++ [.portIn ps2DataPortRw b] := by
  obtain ⟨b, hb⟩ : ∃ b, env.inb ps2DataPortRw (q.setReg .eax 0) = b := ⟨_, rfl⟩
  have hzero : exec env (.mov .w32 (.reg .eax) (.imm 0)) q = some (q.setReg .eax 0) := rfl
  have hlow : (q.setReg .eax 0).reg .eax &&& 0xFFFFFF00 ||| b.toUInt32 = b.toUInt32 := by
    rw [setReg_self, UInt32.zero_and, UInt32.zero_or]
  refine ⟨b, { (q.setReg .eax 0).setReg .eax b.toUInt32 with
    log := q.log ++ [.portIn ps2DataPortRw b] }, ?_, ⟨_, hb⟩, ?_, fun r hr => ?_,
    ⟨rfl, rfl, rfl, rfl⟩, rfl, rfl⟩
  · rw [readByte, execs_cons hzero, execs, exec, hb, hlow]
    rfl
  · show ((q.setReg .eax 0).setReg .eax b.toUInt32).reg .eax = _
    exact setReg_self
  · exact (setReg_of_ne hr).trans (setReg_of_ne hr)

/-- The state `e` in which the C handler begins, from the state `q` with the byte in `eax`. -/
structure HandlerEntry (lo need : Nat) (port handler : UInt32) (q e : State) : Prop where
  enterable : Enterable lo need e
  byte : e.argument 0 = q.reg .eax
  port : e.argument 1 = port
  log : e.log = q.log ++ [.call handler]
  esp : (e.reg .esp).toNat + 12 = (q.reg .esp).toNat
  mem : ∀ a : UInt32, a.toNat < lo ∨ (q.reg .esp).toNat ≤ a.toNat → e.mem a = q.mem a

/-- The handler is called with the byte and the port. -/
theorem passByte_ok (port : UInt32) {q : State} (hflat : q.Flat)
    (R : StackRegion env own lo (q.reg .esp).toNat)
    (hf : Cdecl own lo need 2 (env.callee handler))
    (hroom : lo + need + 12 ≤ (q.reg .esp).toNat)
    (hdf : q.eflags &&& State.directionFlag = 0) :
    ∃ e, execs env (passByte port ++ [.call handler]) q = some (env.callee handler e) ∧
      HandlerEntry lo need port handler q e ∧ Kept own lo 0 q (env.callee handler e) ∧
      (env.callee handler e).reg .esp + 8 = q.reg .esp := by
  have hstart : Stacked nobody q.mem lo (q.reg .esp).toNat [] q := .start hflat (by omega)
  obtain ⟨hargs, honly⟩ := hstart.pushes [port, q.reg .eax] R.unowned
    (by show lo + 8 ≤ _; omega)
  obtain ⟨u, hu⟩ : ∃ u, [port, q.reg .eax].foldl (fun t v => t.push env .w32 v) q = u := ⟨_, rfl⟩
  have hpass : execs env (passByte port) q = some u := by
    have heax : (q.push env .w32 port).reg .eax = q.reg .eax := push_reg_of_ne (by decide)
    have hfirst : exec env (.push (.imm port)) q = some (q.push env .w32 port) := rfl
    rw [passByte, execs_cons hfirst, ← hu]
    show some ((q.push env .w32 port).push env .w32 ((q.push env .w32 port).reg .eax)) = _
    rw [heax]
    rfl
  rw [hu] at hargs honly
  have hargs' : Stacked nobody q.mem lo (q.reg .esp).toNat [q.reg .eax, port] u := hargs
  have hdepth := hargs'.depth
  have hlen : [q.reg .eax, port].length = 2 := rfl
  have hudf : u.eflags &&& State.directionFlag = 0 := by rw [honly.eflags]; exact hdf
  have hcallroom : lo + need + 4 ≤ (u.reg .esp).toNat := by omega
  obtain ⟨hentry, henter, hlog⟩ :=
    hargs'.entry (f := handler) R.unowned hcallroom hudf
  obtain ⟨hkept, hback⟩ := hargs'.weaken.call (f := handler) R hf (by omega) hudf
  have hedepth := hentry.depth
  rw [List.length_cons] at hedepth
  have hfits := R.fits
  refine ⟨u.entry env handler, ?_, ⟨henter, ?_, ?_, ?_, by omega, ?_⟩,
    ⟨fun r hr => ?_, ?_, ?_, ?_, fun a hown hout => ?_, hkept.direction⟩, ?_⟩
  · rw [execs_append hpass, execs_cons exec_call]
    rfl
  · have hword := hentry.load_eq [env.returnAddress u]
      (a := (u.entry env handler).reg .esp + .ofNat (4 * (0 + 1))) (toNat_add_ofNat (by omega))
    rw [State.argument, hword, UInt32.ofNat_toNat]
  · have hword := hentry.load_eq [env.returnAddress u, q.reg .eax]
      (a := (u.entry env handler).reg .esp + .ofNat (4 * (1 + 1))) (toNat_add_ofNat (by omega))
    rw [State.argument, hword, UInt32.ofNat_toNat]
  · rw [hlog, honly.log]
  · exact fun a hout => hentry.frame a not_false hout
  · have hne : r ≠ .esp := by
      rintro rfl
      exact absurd hr (by decide)
    rw [hkept.saved r hr, honly.reg r hne]
  · rw [hkept.seg, honly.seg]
  · rw [hkept.cr0, honly.cr0]
  · rw [hkept.gdtr, honly.gdtr]
  · rw [hkept.mem a hown (by omega)]
    exact hargs'.frame a not_false (by omega)
  · rw [hback]
    refine UInt32.toNat_inj.mp ?_
    rw [show (8 : UInt32) = .ofNat 8 from rfl, toNat_add_ofNat (by omega)]
    omega

/-- Back to the stack pointer in the slot. -/
theorem leaveCall_ok {p v : State} (h : Stacked own m lo top (us ++ p.reg .esp :: ws) p)
    (R : StackRegion env own lo top)
    (hebp : (p.reg .ebp - 4).toNat = (p.reg .esp).toNat + 4 * us.length)
    (hreg : v.reg .ebp = p.reg .ebp) (hseg : v.seg = p.seg)
    (hmem : ∀ a : UInt32, ¬ own a → a.toNat < lo ∨ (p.reg .esp).toNat ≤ a.toNat →
      v.mem a = p.mem a) :
    ∃ u, execs env leaveCall v = some u ∧ Stacked own m lo top (us ++ p.reg .esp :: ws) u ∧
      (∀ r, r ≠ .esp → u.reg r = v.reg r) ∧ SameMode v u ∧ u.mem = v.mem ∧ u.log = v.log := by
  obtain ⟨v', hv'⟩ : ∃ v', (v.setReg .esp (v.reg .esp + 8)).setStatus env (v.reg .esp + 8) = v' :=
    ⟨_, rfl⟩
  have hx : exec env (.alu .add .w32 .esp (.imm 8)) v = some v' := by rw [← hv']; rfl
  have hmem' : v'.mem = v.mem := by rw [← hv']; rfl
  have hseg' : v'.seg = v.seg := by rw [← hv']; rfl
  have hreg' : ∀ r, r ≠ .esp → v'.reg r = v.reg r := fun r hr => by
    rw [← hv', setStatus_reg, setReg_of_ne hr]
  have hback : Stacked own m lo top (us ++ p.reg .esp :: ws) (v'.setReg .esp (p.reg .esp)) := by
    refine h.resume R (congrFun (hseg'.trans hseg) .ss) setReg_self fun a hown hout => ?_
    show v'.mem a = _
    rw [hmem']
    exact hmem a hown hout
  have hflat : v'.Flat := hback.flat
  have haddr : v'.addr savedEsp = p.reg .ebp - 4 := by
    rw [addr_savedEsp hflat, hreg' .ebp (by decide), hreg]
  have hslot : load v'.mem (v'.addr savedEsp) 4 = (p.reg .esp).toNat := by
    refine hback.load_eq us ?_
    rw [haddr, setReg_self, hebp]
  have hload : exec env (.mov .w32 (.reg .esp) (.mem savedEsp)) v' =
      some (v'.setReg .esp (p.reg .esp)) := by
    have hvalue : v'.value .w32 (.mem savedEsp) = p.reg .esp := by
      show UInt32.ofNat (load v'.mem (v'.addr savedEsp) 4) = _
      rw [hslot, UInt32.ofNat_toNat]
    rw [exec, hvalue]
    rfl
  refine ⟨v'.setReg .esp (p.reg .esp), ?_, hback, fun r hr => ?_, ⟨hseg', ?_, ?_, ?_⟩, hmem', ?_⟩
  · rw [leaveCall, execs_cons hx, execs_cons hload]
    rfl
  · rw [setReg_of_ne hr, hreg' r hr]
  · rw [← hv']
    rfl
  · rw [← hv']
    rfl
  · rw [← hv']
    exact setStatus_direction
  · rw [← hv']
    rfl

/-- The frame is left. -/
theorem leaveFrame_ok (env : Env) {x y : UInt32} {v : State}
    (h : Stacked own m lo top (x :: y :: ws) v) (hfits : top < 2 ^ 32)
    (hebp : v.reg .ebp = v.reg .esp + 4) :
    ∃ u, execs env leaveFrame v = some u ∧ Stacked own m lo top ws u ∧ u.reg .ebp = y ∧
      (∀ r, r ≠ .esp → r ≠ .ebp → u.reg r = v.reg r) ∧ SameMode v u ∧ u.mem = v.mem ∧
      u.log = v.log := by
  have hdrop := h.drop hfits
  rw [drop_eq h.flat] at hdrop
  -- `mov esp, ebp` changes nothing
  obtain ⟨v', hv'⟩ : ∃ v', ((v.setReg .esp (v.reg .esp + 4)).setStatus env (v.reg .esp + 4)) = v' :=
    ⟨_, rfl⟩
  have hadd : exec env (.alu .add .w32 .esp (.imm 4)) v = some v' := by rw [← hv']; rfl
  have hv : Stacked own m lo top (y :: ws) v' := by
    rw [← hv']
    exact hdrop.congr rfl rfl rfl
  have hreg : ∀ r, r ≠ .esp → v'.reg r = v.reg r := fun r hr => by
    rw [← hv', setStatus_reg, setReg_of_ne hr]
  have hmov : exec env (.mov .w32 (.reg .esp) (.reg .ebp)) v' = some v' := by
    have hsame : v'.reg .ebp = v'.reg .esp := by
      rw [hreg .ebp (by decide), hebp, ← hv', setStatus_reg, setReg_self]
    show some (v'.setReg .esp (v'.reg .ebp)) = _
    rw [hsame, State.setReg, Function.update_eq_self]
  have hmode : SameMode v v' := by
    refine ⟨by rw [← hv']; rfl, by rw [← hv']; rfl, by rw [← hv']; rfl, ?_⟩
    rw [← hv']
    exact setStatus_direction
  have htop := hv.top_eq
  refine ⟨(v'.drop .w32).setReg .ebp y, ?_,
    (hv.drop hfits).congr rfl (setReg_of_ne (by decide)) rfl, setReg_self, fun r hr hr' => ?_,
    hmode.trans ⟨drop_seg, drop_cr0, drop_gdtr, ?_⟩, ?_, ?_⟩
  · rw [leaveFrame, execs_cons hadd, execs_cons hmov, execs, exec, htop]
    rfl
  · rw [setReg_of_ne hr', drop_reg_of_ne hr, hreg r hr]
  · show (v'.drop .w32).eflags &&& _ = _
    rw [drop_eflags]
  · show (v'.drop .w32).mem = _
    rw [drop_mem, ← hv']
    rfl
  · show (v'.drop .w32).log = _
    rw [drop_log, ← hv']
    rfl

end Parts

/-! ## 3. An interrupt -/

/-- The handler's share of the stack: what is saved, the alignment, and the arguments. -/
def handlerStack : Nat := 127

/-- **An interrupt was served**: `u` is what the interrupted program goes on with, `e` the state in
which the C handler began, and `b` the byte that was read. -/
structure Served (env : Env) (own : UInt32 → Prop) (lo need : Nat) (port handler : UInt32)
    (s u e : State) (b : UInt8) : Prop where
  restores : Restores own lo s u
  enterable : Enterable lo need e
  read : ∃ r, env.inb ps2DataPortRw r = b
  byte : e.argument 0 = b.toUInt32
  port : e.argument 1 = port
  once : e.log = s.log ++ [.portIn ps2DataPortRw b, .call handler]
  before : ∀ a : UInt32, own a → e.mem a = s.mem a
  after : u.mem = (env.callee handler e).mem
  log : u.log = (env.callee handler e).log
  /-- The alignment is for the stack without the two arguments. -/
  aligned : (e.reg .esp).toNat % 16 = 4

/-- The frame of the handler over the interrupted state `s`: in `f` it is entered, and in `p` all
registers are saved and the slot holds the stack pointer. -/
structure Framed (lo : Nat) (ws : List UInt32) (s f p : State) : Prop where
  reg : ∀ r, r ≠ .esp → r ≠ .ebp → f.reg r = s.reg r
  ebp : f.reg .ebp = f.reg .esp + 4
  depth : (f.reg .esp).toNat + 4 * (ws.length + 2) = (s.reg .esp).toNat
  table : SameTable s f
  segs : f.seg = s.seg
  stacked : Stacked nobody s.mem lo (s.reg .esp).toNat
    (f.saved ++ p.reg .esp :: s.reg .ebp :: ws) p
  slot : (p.reg .ebp - 4).toNat = (p.reg .esp).toNat + 4 * f.saved.length
  mode : SameMode f p

/-- The byte is in `eax`, over the aligned stack of the call. -/
structure ByteRead (env : Env) (s p q : State) (b : UInt8) : Prop where
  read : ∃ r, env.inb ps2DataPortRw r = b
  byte : q.reg .eax = b.toUInt32
  esp : (q.reg .esp).toNat = (p.reg .esp).toNat / 16 * 16 - 32
  ebp : q.reg .ebp = p.reg .ebp
  mode : SameMode p q
  direction : q.eflags &&& State.directionFlag = 0
  mem : q.mem = p.mem
  log : q.log = s.log ++ [.portIn ps2DataPortRw b]

section Ways

variable {env : Env} {own : UInt32 → Prop} {lo need : Nat} {sel : UInt16} {ws : List UInt32}
  {s t f p v : State}

/-- **The way in**, up to the call. -/
theorem enter_ok (h : Interruptible env own lo (need + handlerStack) sel s)
    (hd : Delivered lo ws s t) (hws : ws.length = 3) :
    ∃ f p q b, execs env (enterFrame ++ (saveAll ++ (alignStack ++ readByte))) t = some q ∧
      Framed lo ws s f p ∧ ByteRead env s p q b := by
  have hroom := h.room
  have hstack : handlerStack = 127 := rfl
  have R' := h.stack.unowned
  have htdepth := hd.stacked.depth
  -- the frame, and all registers in it
  obtain ⟨f, w, hx₁, hf₁, hebp₁, hreg₁, hmode₁, hlog₁⟩ := enterFrame_ok hd.stacked R' (by omega)
  have hfdepth := hf₁.depth
  rw [List.length_cons, List.length_cons] at hfdepth
  obtain ⟨g, hx₂, hg, honly⟩ := hf₁.saveAll R' (by omega)
  have hsaved : f.saved.length = 12 := rfl
  have hgdepth := hg.depth
  rw [List.length_append, List.length_cons, List.length_cons] at hgdepth
  have hslot : (g.reg .ebp - 4).toNat = (g.reg .esp).toNat + 4 * f.saved.length := by
    rw [honly.reg .ebp (by decide), hebp₁, UInt32.add_sub_cancel]
    omega
  -- the slot, and the byte
  obtain ⟨p, q, hx₃, hp, hpreg, hqmem, hqesp, hqreg, hpmode, hqmode, hqlog⟩ :=
    alignStack_ok hg R' hslot
  rw [← hpreg] at hslot
  rw [hd.reg .ebp (by decide), ← hpreg] at hp
  obtain ⟨b, q', hx₄, hread, hbyte, hqreg', hqmode', hqmem', hqlog'⟩ := readByte_ok env q
  have halign : (g.reg .esp &&& -16).toNat = (g.reg .esp).toNat / 16 * 16 :=
    WordField.toNat_and_high (g.reg .esp).toBitVec 4
  have hqesp' : (q'.reg .esp).toNat = (g.reg .esp).toNat / 16 * 16 - 32 := by
    rw [hqreg' .esp (by decide), hqesp, ← halign]
    exact toNat_sub_ofNat (n := 32) (by omega)
  have hmode : SameMode p q' := (SameMode.of_both hpmode hqmode).trans hqmode'
  have hdf : q'.eflags &&& State.directionFlag = 0 := by
    rw [hmode.direction, hpmode.direction, honly.sameMode.direction, hmode₁.direction, hd.eflags,
      UInt32.and_assoc]
    exact h.direction
  have hfcr0 : f.cr0 = s.cr0 := hmode₁.cr0.trans hd.cr0
  have hfgdtr : f.gdtr = s.gdtr := hmode₁.gdtr.trans hd.gdtr
  refine ⟨f, p, q', b, ?_, ⟨fun r hr hr' => ?_, hebp₁, by omega,
    h.sameTable hf₁.weaken hfcr0 hfgdtr, hmode₁.seg.trans hd.seg, hp, hslot,
    honly.sameMode.trans hpmode⟩, hread, hbyte, by rw [hqesp', hpreg], ?_, hmode, hdf,
    hqmem'.trans hqmem, ?_⟩
  · rw [execs_append hx₁, execs_append hx₂, execs_append hx₃, hx₄]
  · rw [hreg₁ r hr hr', hd.reg r hr]
  · rw [hqreg' .ebp (by decide), hqreg .ebp (by decide), hpreg]
  · rw [hqlog', hqlog, honly.log, hlog₁, hd.log]

/-- **The way out**, from a state that kept the frame. -/
theorem leave_ok (h : Interruptible env own lo (need + handlerStack) sel s)
    (hf : Framed lo ws s f p) (hebp : v.reg .ebp = p.reg .ebp) (hmode : SameMode p v)
    (hmem : ∀ a : UInt32, ¬ own a → a.toNat < lo ∨ (p.reg .esp).toNat ≤ a.toNat →
      v.mem a = p.mem a) :
    ∃ y, execs env (leaveCall ++ (restoreAll ++ leaveFrame)) v = some y ∧
      Inside own lo [] ws s y ∧ y.mem = v.mem ∧ y.log = v.log := by
  have hfits := h.stack.fits
  obtain ⟨v', hx₆, hv, hvreg, hvmode, hvmem, hvlog⟩ :=
    leaveCall_ok hf.stacked.weaken h.stack hf.slot hebp hmode.seg hmem
  have hvf : SameMode f v' := hf.mode.trans (hmode.trans hvmode)
  have htablev : SameTable s v' :=
    h.sameTable hv (hvf.cr0.trans hf.table.cr0) (hvf.gdtr.trans hf.table.gdtr)
  obtain ⟨x, hx₇, hx, hxreg, hxseg, hxmem, hxcontrol⟩ := hv.restoreAll env hfits
    (fun r _ => hf.table.coherent (congrFun hf.segs r) h.protectedMode (h.coherent r))
    (hf.table.of_both htablev) (hf.table.protectedMode.trans h.protectedMode)
  have hxdepth := hx.depth
  rw [List.length_cons, List.length_cons] at hxdepth
  have hfdepth := hf.depth
  have hxesp : x.reg .esp = f.reg .esp := UInt32.toNat_inj.mp (by omega)
  obtain ⟨y, hx₈, hy, hyebp, hyreg, hymode, hymem, hylog⟩ := leaveFrame_ok env hx hfits
    (by rw [hxreg .ebp (by decide), hf.ebp, hxesp])
  refine ⟨y, ?_, ⟨hy, fun r hr _ => ?_, ?_, ?_, ?_⟩, ?_, ?_⟩
  · rw [execs_append hx₆, execs_append hx₇, hx₈]
  · by_cases hr' : r = .ebp
    · rw [hr', hyebp]
    · rw [hyreg r hr hr', hxreg r hr, hf.reg r hr hr']
  · rw [hymode.seg]
    refine funext fun r => ?_
    rw [hxseg r, hvf.seg, ite_self, hf.segs]
  · rw [hymode.cr0, hxcontrol.cr0, hvf.cr0, hf.table.cr0]
  · rw [hymode.gdtr, hxcontrol.gdtr, hvf.gdtr, hf.table.gdtr]
  · rw [hymem, hxmem, hvmem]
  · rw [hylog, hxcontrol.log, hvlog]

/-- The C handler leaves the frame as it was. -/
theorem ByteRead.kept {q e' : State} {b : UInt8} (hq : ByteRead env s p q b)
    (hkept : Kept own lo 0 q e') :
    e'.reg .ebp = p.reg .ebp ∧ SameMode p e' ∧
      ∀ a : UInt32, ¬ own a → a.toNat < lo ∨ (p.reg .esp).toNat ≤ a.toNat →
        e'.mem a = p.mem a := by
  have hesp := hq.esp
  refine ⟨by rw [hkept.saved .ebp (by decide), hq.ebp], hq.mode.trans ⟨hkept.seg, hkept.cr0,
    hkept.gdtr, by rw [hkept.direction, hq.direction]⟩, fun a hown hout => ?_⟩
  rw [hkept.mem a hown (by omega), hq.mem]

/-- The macro brings the processor from the interrupted state to the C handler and back. -/
theorem interruptHandler_served {handler : UInt32} (port eip : UInt32)
    (h : Interruptible env own lo (need + handlerStack) sel s)
    (hf : Cdecl own lo need 2 (env.callee handler)) :
    ∃ t u e b, s.deliver env sel eip = some t ∧
      Runs env (interruptHandler port handler) (interruptHandler port handler) t
        (some (.iret eip, u)) ∧
      Served env own lo need port handler s u e b := by
  have hroom := h.room
  have hstack : handlerStack = 127 := rfl
  obtain ⟨t, ht, hd⟩ := h.deliver eip (by omega)
  obtain ⟨f, p, q, b, hxin, hframe, hq⟩ := enter_ok h hd rfl
  have hpdepth := hframe.stacked.depth
  rw [List.length_append, List.length_cons, List.length_cons] at hpdepth
  have hsaved : f.saved.length = 12 := rfl
  have hwords : (s.returnWords eip).length = 3 := rfl
  have hqesp := hq.esp
  have hflat : q.Flat := by
    have hpflat := hframe.stacked.flat
    rw [State.Flat, hq.mode.seg]
    exact hpflat
  obtain ⟨e, hxcall, he, hkept, hesp⟩ := passByte_ok port hflat
    (h.stack.mono (by omega)) hf (by omega) hq.direction
  obtain ⟨hebp, hmode, hmem⟩ := hq.kept hkept
  obtain ⟨y, hxout, hinside, hymem, hylog⟩ := leave_ok h hframe hebp hmode hmem
  obtain ⟨u, hu, hrestores, humem, hulog⟩ := restores_of_iret h hinside
  have hout : ∀ a : UInt32, own a → a.toNat < lo ∨ (s.reg .esp).toNat ≤ a.toNat := by
    intro a hown
    by_contra hin
    rw [not_or, Nat.not_lt, Nat.not_le] at hin
    exact h.stack.own a hin.1 hin.2 hown
  refine ⟨t, u, e, b, ht, ?_, hrestores, he.enterable, hq.read, he.byte.trans hq.byte, he.port,
    ?_, fun a hown => ?_, humem.trans hymem, hulog.trans hylog, ?_⟩
  · have hexecs : execs env (enterFrame ++ (saveAll ++ (alignStack ++ (readByte ++ (passByte port ++
        (.call handler :: (leaveCall ++ (restoreAll ++ leaveFrame)))))))) t = some y := by
      have hin : enterFrame ++ (saveAll ++ (alignStack ++ (readByte ++ (passByte port ++
          (.call handler :: (leaveCall ++ (restoreAll ++ leaveFrame))))))) =
          (enterFrame ++ (saveAll ++ (alignStack ++ readByte))) ++ ((passByte port ++
            [.call handler]) ++ (leaveCall ++ (restoreAll ++ leaveFrame))) := by
        simp only [List.append_assoc, List.cons_append, List.nil_append]
      rw [hin, execs_append hxin, execs_append hxcall, hxout]
    rw [interruptHandler_eq, runs_execs hexecs, ← hu]
    exact runs_iret
  · rw [he.log, hq.log, List.append_assoc]
    rfl
  · have ha := hout a hown
    rw [he.mem a (by omega), hq.mem]
    exact hframe.stacked.frame a not_false ha
  · have hesp' := he.esp
    omega

end Ways

/-- **Every interrupt is served**, through whichever of the four entry points and at whatever state
it arrives in. -/
theorem entryPoint_serves {env : Env} {own : UInt32 → Prop} {lo need : Nat} {sel : UInt16}
    {linked : CHandler → UInt32} {s : State}
    (hf : ∀ f, Cdecl own lo need 2 (env.callee (linked f)))
    (h : Interruptible env own lo (need + handlerStack) sel s) (p : EntryPoint) (eip : UInt32) :
    ∃ t u e b, s.deliver env sel eip = some t ∧
      Runs env (p.lines linked) (p.lines linked) t (some (.iret eip, u)) ∧
      Served env own lo need p.port (linked p.handler) s u e b :=
  interruptHandler_served p.port eip h (hf p.handler)

/-- A C handler that keeps the byte and the port, at `0x4000` and `0x4001`. -/
def keepByte (s : State) : Memory :=
  Function.update (Function.update s.mem 0x4000 (s.argument 0).toUInt8) 0x4001
    (s.argument 1).toUInt8

def keptBytes (a : UInt32) : Prop := a = 0x4000 ∨ a = 0x4001

theorem keepByte_frame (s : State) (a : UInt32) (ha : ¬ keptBytes a) : keepByte s a = s.mem a := by
  rw [keptBytes, not_or] at ha
  rw [keepByte, Function.update_of_ne ha.2, Function.update_of_ne ha.1]

/-- A byte of the keyboard on port 1. -/
def keepByteEnv : Env := simpleEnv (fun _ _ => 0x1E) fun _ => keepByte

theorem keepByte_interruptible : Interruptible keepByteEnv keptBytes 0 (0x100 + handlerStack) 0x10
    (flatMachine flatMemory) := by
  refine flatMachine_interruptible (by decide) (fun _ _ => rfl) (fun a ha => ?_) fun _ _ => rfl
  rcases ha with rfl | rfl
  · decide
  · decide

theorem entryPoint_serves_flat : ∃ t u,
    (flatMachine flatMemory).deliver keepByteEnv 0x10 0x3000 = some t ∧
      Runs keepByteEnv (EntryPoint.keyboardInterruptHandlerPort1.lines fun _ => 0x5000)
        (EntryPoint.keyboardInterruptHandlerPort1.lines fun _ => 0x5000) t
        (some (.iret 0x3000, u)) ∧
      Restores keptBytes 0 (flatMachine flatMemory) u ∧ u.mem 0x4000 = 0x1E ∧ u.mem 0x4001 = 1 := by
  have hf (f : CHandler) :
      Cdecl keptBytes 0 0x100 2 (keepByteEnv.callee ((fun _ : CHandler => 0x5000) f)) :=
    cdecl_simple keepByte_frame
  obtain ⟨t, u, e, b, ht, hruns, hserved⟩ :=
    entryPoint_serves hf keepByte_interruptible .keyboardInterruptHandlerPort1 0x3000
  obtain ⟨_, rfl⟩ := hserved.read
  have hmem : u.mem = keepByte e := hserved.after
  refine ⟨t, u, ht, hruns, hserved.restores, ?_, ?_⟩
  · rw [hmem, keepByte, Function.update_of_ne (by decide), Function.update_self, hserved.byte]
    rfl
  · rw [hmem, keepByte, Function.update_self, hserved.port]
    rfl

/-! ## 4. Programs under interrupts -/

/-- A program between two of its instructions: where it is, and the processor. -/
abbrev Config := UInt32 × State

/-- The same for somebody who looks at the live addresses of `c` only. -/
structure SameFor (live : Config → UInt32 → Prop) (c d : Config) : Prop where
  eip : d.1 = c.1
  reg : d.2.reg = c.2.reg
  seg : d.2.seg = c.2.seg
  eflags : d.2.eflags = c.2.eflags
  cr0 : d.2.cr0 = c.2.cr0
  gdtr : d.2.gdtr = c.2.gdtr
  mem : ∀ a, live c a → d.2.mem a = c.2.mem a

/-- Any code that does not look below its stack nor at the variables of the handlers, and does not
write these. -/
structure Program (own : UInt32 → Prop) (lo : Nat) where
  next : Config → Config
  live : Config → UInt32 → Prop
  live_outside : ∀ c a, live c a → ¬ own a ∧ (a.toNat < lo ∨ (c.2.reg .esp).toNat ≤ a.toNat)
  respects : ∀ c d, SameFor live c d → SameFor live (next c) (next d)
  keeps : ∀ c a, own a → (next c).2.mem a = c.2.mem a

/-- One interrupt: the port and its C handler, and the byte that is in the controller. -/
structure Ps2Interrupt where
  port : UInt32
  handler : UInt32
  byte : UInt8
  deriving DecidableEq, Repr

/-- What is known of the C handlers: their variables are seen as a `γ`, on which a byte acts. -/
structure HandlerSpec {γ : Type} (env : Env) (own : UInt32 → Prop) (lo need : Nat)
    (view : Memory → γ) (act : γ → Ps2Interrupt → Option γ) (i : Ps2Interrupt) : Prop where
  cdecl : Cdecl own lo need 2 (env.callee i.handler)
  acts : ∀ e g, Enterable lo need e → e.argument 0 = i.byte.toUInt32 → e.argument 1 = i.port →
    act (view e.mem) i = some g → view (env.callee i.handler e).mem = g
  log : ∀ e, ∃ l, (env.callee i.handler e).log = e.log ++ l

/-- The interrupt `i` takes the processor from `c` to `d`. -/
structure Taken (env : Env) (own : UInt32 → Prop) (lo need : Nat) (sel : UInt16)
    (i : Ps2Interrupt) (c d : Config) : Prop where
  interruptible : Interruptible env own lo (need + handlerStack) sel c.2
  runs : ∃ t, c.2.deliver env sel c.1 = some t ∧
    Runs env (interruptHandler i.port i.handler) (interruptHandler i.port i.handler) t
      (some (.iret d.1, d.2))
  byte : ∃ l, d.2.log = c.2.log ++ .portIn ps2DataPortRw i.byte :: l

/-- What is seen depends on the handlers' own variables only. -/
def ViewsOwn {γ : Type} (own : UInt32 → Prop) (view : Memory → γ) : Prop :=
  ∀ m m' : Memory, (∀ a, own a → m' a = m a) → view m' = view m

section Interrupted

variable {γ : Type} {env : Env} {own : UInt32 → Prop} {lo need : Nat} {sel : UInt16}
  {view : Memory → γ} {act : γ → Ps2Interrupt → Option γ} {i : Ps2Interrupt} {c d : Config}

/-- **One interrupt**: the program goes on where it was, and the byte acted. -/
theorem Taken.effect (h : Taken env own lo need sel i c d)
    (hview : ViewsOwn own view) (hspec : HandlerSpec env own lo need view act i) :
    d.1 = c.1 ∧ Restores own lo c.2 d.2 ∧
      ∀ g, act (view c.2.mem) i = some g → view d.2.mem = g := by
  obtain ⟨t, ht, hruns⟩ := h.runs
  obtain ⟨t', u, e, b, ht', hruns', hserved⟩ :=
    interruptHandler_served i.port c.1 h.interruptible hspec.cdecl
  obtain rfl := Option.some.inj (ht.symm.trans ht')
  have hsame := Option.some.inj (Iteration.Returns.unique hruns hruns')
  rw [Prod.mk.injEq, Exit.iret.injEq] at hsame
  obtain ⟨heip, rfl⟩ := hsame
  refine ⟨heip, hserved.restores, fun g hg => ?_⟩
  have hbyte : b = i.byte := by
    obtain ⟨l, hl⟩ := h.byte
    obtain ⟨l', hl'⟩ := hspec.log e
    rw [hserved.log, hl', hserved.once, List.append_assoc, List.append_cancel_left_eq] at hl
    injection hl with hhead
    injection hhead
  have hsame : view e.mem = view c.2.mem := hview _ _ hserved.before
  rw [hserved.after]
  refine hspec.acts e g hserved.enterable ?_ hserved.port (by rw [hsame]; exact hg)
  rw [hserved.byte, hbyte]

/-- **A run with interrupts anywhere**: the program computes what it computes alone, and the
handlers have seen the bytes in the order they came. -/
theorem interrupted_run (P : Program own lo) {lines : Ps2Interrupt → Prop}
    (hview : ViewsOwn own view) (hspec : ∀ i, lines i → HandlerSpec env own lo need view act i)
    {l : List (Option Ps2Interrupt)}
    (h : Injected P.next (fun i c d => lines i ∧ Taken env own lo need sel i c d) c l d) :
    SameFor P.live (P.next^[ownSteps l] c) d ∧
      ∀ g, (l.filterMap id).foldlM act (view c.2.mem) = some g → view d.2.mem = g := by
  constructor
  · refine h.sound (R := SameFor P.live) P.respects (fun c' i s s' hR htaken => ?_)
      ⟨rfl, rfl, rfl, rfl, rfl, rfl, fun _ _ => rfl⟩
    obtain ⟨heip, hrestores, -⟩ := htaken.2.effect hview (hspec i htaken.1)
    refine ⟨heip.trans hR.eip, hrestores.reg.trans hR.reg, hrestores.seg.trans hR.seg,
      hrestores.eflags.trans hR.eflags, hrestores.cr0.trans hR.cr0, hrestores.gdtr.trans hR.gdtr,
      fun a ha => ?_⟩
    obtain ⟨hown, hout⟩ := P.live_outside c' a ha
    rw [hrestores.mem a hown (by rw [hR.reg]; exact hout), hR.mem a ha]
  · intro g hg
    refine h.foldlM (fun c => view c.2.mem) (fun s => ?_) (fun i s s' g' htaken hact => ?_) hg
    · exact hview _ _ (P.keeps s)
    · obtain ⟨-, -, hacts⟩ := htaken.2.effect hview (hspec i htaken.1)
      exact hacts g' hact

end Interrupted

end MapleKernel.Drivers
