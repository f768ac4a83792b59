/-
  File:      Cpu/ExceptionHandlers.lean
  Subject:   FAULTS WITH AN ERROR CODE (`exception_handler.asm`): what is reported, and where the
             handler goes then.

  The processor pushes an error code for a double fault (8) and for a protection fault (13).
  `interrupt_13_handler` reads the words of the frame behind its saved `ebp`; in
  `interrupt_8_handler` all four offsets are one word lower. Both pop what they pushed, and `iret`
  with the error code still on the stack.

  * `FaultHandler.lines` -- the two handlers, with their offset and the part for the debug registers
    as parameters;
  * `reportCalls_ok` -- the two calls of `kprintf_argc`, and the words between them;
  * `fault_reported` -- from whatever state a fault comes: the words that are printed are those that
    stand `ERROR_CODE_Of` bytes above the frame, and no run of the handler resumes the program.
-/
import MapleKernel.Lib.X86.Interrupt
import MapleKernel.Lib.X86.Rules

namespace MapleKernel.Cpu

open X86

/-! ## 1. The listings -/

inductive FaultHandler where
  | interrupt8Handler
  | interrupt13Handler
  deriving DecidableEq, Repr

/-- Where the linker puts what the code names; `interruptFmt` is `interrupt_8_fmt` or
`interrupt_13_fmt`. -/
structure FaultLinked where
  kprintfArgc : UInt32
  interruptFmt : FaultHandler → UInt32
  errInfFmt : UInt32

def FaultHandler.vector : FaultHandler → UInt32
  | .interrupt8Handler => 8
  | .interrupt13Handler => 13

/-- `ERROR_CODE_Of` and `ERROR_CODE_Of3`, in words; the other offsets follow it. -/
def FaultHandler.errorCodeOf : FaultHandler → Nat
  | .interrupt8Handler => 0
  | .interrupt13Handler => 1

/-- `[ebp + 4 * k]`. -/
def frameWord (k : Nat) : Mem := ⟨.ss, .w32, some .ebp, .ofNat (4 * k)⟩

/-- `hardware_breakpoint`. -/
def hardwareBreakpoint : List Instr :=
  [.mov .w32 (.reg .eax) (.mem (frameWord 2)), .movToDr 0 .eax,
    -- clear the settings of `dr0`, set its local enable
    .movFromDr .eax 7, .alu .and .w32 .eax (.imm (~~~0x000F000F)),
    .alu .or .w32 .eax (.imm 0x00000001), .movToDr 7 .eax]

def FaultHandler.debugPart : FaultHandler → List Instr
  | .interrupt8Handler => []
  | .interrupt13Handler => hardwareBreakpoint

/-- `push vector`, `push interrupt_fmt`, `push 2`. -/
def announcedOperands (vector fmt : UInt32) : List Operand := [.imm vector, .imm fmt, .imm 2]

def announce (vector fmt : UInt32) : List Instr := (announcedOperands vector fmt).map .push

def takeWords (k : Nat) : List Instr :=
  [ .mov .w32 (.reg .eax) (.mem (frameWord k)),
    .mov .w32 (.reg .ebx) (.mem (frameWord (k + 1))),
    .mov .w32 (.reg .ecx) (.imm 0),
    .mov .w16 (.reg .ecx) (.mem (frameWord (k + 2))),
    .mov .w32 (.reg .edx) (.mem (frameWord (k + 3))) ]

def passedOperands (errInfFmt : UInt32) : List Operand :=
  [.reg .edx, .reg .ecx, .reg .ebx, .reg .eax, .imm errInfFmt, .imm 5]

def passWords (errInfFmt : UInt32) : List Instr := (passedOperands errInfFmt).map .push

/-- The two calls. -/
def reportCalls (l : FaultLinked) (f : FaultHandler) : List Instr :=
  announce f.vector (l.interruptFmt f) ++ (callAndDrop l.kprintfArgc 3 ++
    (takeWords f.errorCodeOf ++ (passWords l.errInfFmt ++ callAndDrop l.kprintfArgc 6)))

/-- The handler: `ebp` and all registers are saved, the calls are made, and all is restored. -/
def FaultHandler.lines (l : FaultLinked) (f : FaultHandler) : List (Line Empty) :=
  (.push (.reg .ebp) :: .mov .w32 (.reg .ebp) (.reg .esp) :: (saveAll ++ (reportCalls l f ++
    (f.debugPart ++ (restoreAll ++ [.mov .w32 (.reg .esp) (.reg .ebp), .pop .w32 .ebp]))))).map
      .instr ++ [.iret]

example (l : FaultLinked) : (FaultHandler.interrupt8Handler).lines l =
    [ .instr (.push (.reg .ebp)), .instr (.mov .w32 (.reg .ebp) (.reg .esp)),
      .instr .pusha, .instr (.pushSeg .ds), .instr (.pushSeg .es), .instr (.pushSeg .fs),
      .instr (.pushSeg .gs),
      .instr (.push (.imm 8)), .instr (.push (.imm (l.interruptFmt .interrupt8Handler))),
      .instr (.push (.imm 2)), .instr (.call l.kprintfArgc),
      .instr (.alu .add .w32 .esp (.imm 12)),
      .instr (.mov .w32 (.reg .eax) (.mem ⟨.ss, .w32, some .ebp, 0⟩)),
      .instr (.mov .w32 (.reg .ebx) (.mem ⟨.ss, .w32, some .ebp, 4⟩)),
      .instr (.mov .w32 (.reg .ecx) (.imm 0)),
      .instr (.mov .w16 (.reg .ecx) (.mem ⟨.ss, .w32, some .ebp, 8⟩)),
      .instr (.mov .w32 (.reg .edx) (.mem ⟨.ss, .w32, some .ebp, 12⟩)),
      .instr (.push (.reg .edx)), .instr (.push (.reg .ecx)), .instr (.push (.reg .ebx)),
      .instr (.push (.reg .eax)), .instr (.push (.imm l.errInfFmt)), .instr (.push (.imm 5)),
      .instr (.call l.kprintfArgc), .instr (.alu .add .w32 .esp (.imm 24)),
      .instr (.popSeg .gs), .instr (.popSeg .fs), .instr (.popSeg .es), .instr (.popSeg .ds),
      .instr .popa, .instr (.mov .w32 (.reg .esp) (.reg .ebp)), .instr (.pop .w32 .ebp),
      .iret ] := rfl

/-! ## 2. The report -/

/-- The words from the frame on, for a fault at `eip`. -/
def faultFrame (s : State) (eip code : UInt32) : List UInt32 :=
  s.reg .ebp :: code :: s.returnWords eip

section Report

variable {env : Env} {own : UInt32 → Prop} {m : Memory} {lo top need : Nat}
  {us fs : List UInt32} {w : State} {l : FaultLinked}

/-- A word of the frame, whose address is in `ebp`. -/
theorem load_frameWord (h : Stacked own m lo top (us ++ fs) w) (hfits : top < 2 ^ 32)
    (hebp : (w.reg .ebp).toNat = (w.reg .esp).toNat + 4 * us.length) {k : Nat} (hk : k < fs.length) :
    load w.mem (w.reg .ebp + .ofNat (4 * k)) 4 = fs[k].toNat := by
  have hdepth := h.depth
  rw [List.length_append] at hdepth
  have hsplit : us ++ fs = (us ++ fs.take k) ++ fs[k] :: fs.drop (k + 1) := by
    rw [List.append_assoc, List.getElem_cons_drop, List.take_append_drop]
  rw [hsplit] at h
  refine h.load_eq _ ?_
  rw [toNat_add_ofNat (by omega), hebp, List.length_append, List.length_take,
    Nat.min_eq_left (Nat.le_of_lt hk)]
  omega

/-- **Four words are taken**; of the third one only the low half. -/
theorem takeWords_ok (h : Stacked own m lo top (us ++ fs) w) (hfits : top < 2 ^ 32)
    (hebp : (w.reg .ebp).toNat = (w.reg .esp).toNat + 4 * us.length) {k : Nat}
    (hk : k + 3 < fs.length) :
    After env (takeWords k) (fun x => ∃ R, x = w.upd R w.eflags w.mem ∧ R .eax = fs[k] ∧
      R .ebx = fs[k + 1] ∧ R .ecx = fs[k + 2] &&& 0xFFFF ∧ R .edx = fs[k + 3] ∧
      R .esp = w.reg .esp ∧ R .ebp = w.reg .ebp) w := by
  have hword : ∀ j (hj : j < fs.length),
      UInt32.ofNat (load w.mem (w.reg .ebp + .ofNat (4 * j)) 4) = fs[j] := fun j hj => by
    rw [load_frameWord h hfits hebp hj, UInt32.ofNat_toNat]
  show After env (takeWords k) _ (w.upd w.reg w.eflags w.mem)
  refine after_loadFrame h.flat.1 fun R₁ h₁ => ?_
  have hebp₁ : R₁ .ebp = w.reg .ebp := h₁.others .ebp (by decide)
  refine after_loadFrame h.flat.1 fun R₂ h₂ => ?_
  rw [hebp₁] at h₂
  have hebp₂ : R₂ .ebp = w.reg .ebp := (h₂.others .ebp (by decide)).trans hebp₁
  refine after_movImm fun R₃ h₃ => ?_
  have hebp₃ : R₃ .ebp = w.reg .ebp := (h₃.others .ebp (by decide)).trans hebp₂
  refine after_loadFrame h.flat.1 fun R₄ h₄ => ?_
  rw [hebp₃] at h₄
  have hebp₄ : R₄ .ebp = w.reg .ebp := (h₄.others .ebp (by decide)).trans hebp₃
  refine after_loadFrame h.flat.1 fun R₅ h₅ => ?_
  rw [hebp₄] at h₅
  refine after_nil ⟨R₅, rfl, ?_, ?_, ?_, ?_, ?_, ?_⟩
  · rw [h₅.others .eax (by decide), h₄.others .eax (by decide), h₃.others .eax (by decide),
      h₂.others .eax (by decide), ← hword k (by omega)]
    exact h₁.value
  · rw [h₅.others .ebx (by decide), h₄.others .ebx (by decide), h₃.others .ebx (by decide),
      ← hword (k + 1) (by omega)]
    exact h₂.value
  · have hzero : R₃ .ecx = 0 := h₃.value
    have hhalf : UInt32.ofNat (load w.mem (w.reg .ebp + .ofNat (4 * (k + 2))) 2) &&& 0xFFFF =
        fs[k + 2] &&& 0xFFFF := by
      rw [← hword (k + 2) (by omega)]
      refine UInt32.toNat_inj.mp ?_
      rw [UInt32.toNat_and, UInt32.toNat_and,
        UInt32.toNat_ofNat_of_lt' (lt_trans load_lt (by decide)),
        UInt32.toNat_ofNat_of_lt' load_lt, ← load_mod (show 2 ≤ 4 by decide)]
      show _ % 2 ^ 16 &&& 2 ^ 16 - 1 = _ &&& 2 ^ 16 - 1
      rw [Nat.and_two_pow_sub_one_eq_mod, Nat.and_two_pow_sub_one_eq_mod, Nat.mod_mod]
    rw [h₅.others .ecx (by decide), h₄.half_of_zero hzero, ← hhalf]
    rfl
  · rw [← hword (k + 3) (by omega)]
    exact h₅.value
  · rw [h₅.others .esp (by decide), h₄.others .esp (by decide), h₃.others .esp (by decide),
      h₂.others .esp (by decide), h₁.others .esp (by decide)]
  · exact (h₅.others .ebp (by decide)).trans hebp₄

theorem announce_plain (vector fmt : UInt32) : ∀ o ∈ announcedOperands vector fmt, o.Plain := by
  intro o ho
  simp only [announcedOperands, List.mem_cons, List.not_mem_nil, or_false] at ho
  rcases ho with rfl | rfl | rfl <;> trivial

theorem passWords_plain (errInfFmt : UInt32) : ∀ o ∈ passedOperands errInfFmt, o.Plain := by
  intro o ho
  simp only [passedOperands, List.mem_cons, List.not_mem_nil, or_false] at ho
  rcases ho with rfl | rfl | rfl | rfl | rfl | rfl
  · exact show Reg.edx ≠ .esp by decide
  · exact show Reg.ecx ≠ .esp by decide
  · exact show Reg.ebx ≠ .esp by decide
  · exact show Reg.eax ≠ .esp by decide
  · trivial
  · trivial

/-- What is printed first. -/
def announcedWords (l : FaultLinked) (f : FaultHandler) : List UInt32 :=
  [2, l.interruptFmt f, f.vector]

/-- What is printed then, for the words from `ebp` on. -/
def reportedWords (l : FaultLinked) (f : FaultHandler) (fs : List UInt32) : List UInt32 :=
  let word := fun j => (fs[f.errorCodeOf + j]?).getD 0
  [5, l.errInfFmt, word 0, word 1, word 2 &&& 0xFFFF, word 3]

/-- The calls of `kprintf_argc` began in `e₁` and `e₂`; `v` is the state behind them. -/
structure Reported (env : Env) (own : UInt32 → Prop) (lo need : Nat) (l : FaultLinked)
    (f : FaultHandler) (fs : List UInt32) (g e₁ e₂ v : State) : Prop where
  enterable₁ : Enterable lo need e₁
  first : ∀ i (hi : i < 3), e₁.argument i = (announcedWords l f)[i]
  log₁ : e₁.log = g.log ++ [.call l.kprintfArgc]
  before₁ : ∀ a : UInt32, own a → e₁.mem a = g.mem a
  enterable₂ : Enterable lo need e₂
  second : ∀ i (hi : i < 6), e₂.argument i = (reportedWords l f fs)[i]
  log₂ : e₂.log = (env.callee l.kprintfArgc e₁).log ++ [.call l.kprintfArgc]
  before₂ : ∀ a : UInt32, own a → e₂.mem a = (env.callee l.kprintfArgc e₁).mem a
  between : Between own lo g v
  ebp : v.reg .ebp = g.reg .ebp
  mem : v.mem = (env.callee l.kprintfArgc e₂).mem
  log : v.log = (env.callee l.kprintfArgc e₂).log

/-- **The two calls**, from a state in which all is saved and `ebp` is the address of the frame. -/
theorem reportCalls_ok {f : FaultHandler} {g : State} (h : Stacked nobody m lo top (us ++ fs) g)
    (R : StackRegion env own lo top) (hf : Cdecl own lo need 3 (env.callee l.kprintfArgc))
    (hebp : (g.reg .ebp).toNat = (g.reg .esp).toNat + 4 * us.length) (hfs : fs.length = 5)
    (hroom : lo + need + 28 ≤ (g.reg .esp).toNat) (hdf : g.eflags &&& State.directionFlag = 0) :
    ∃ e₁ e₂ v, execs env (reportCalls l f) g = some v ∧
      Reported env own lo need l f fs g e₁ e₂ v := by
  have hk : f.errorCodeOf + 3 < fs.length := by
    rw [hfs]
    cases f <;> decide
  have hdepth := h.depth
  have R' : StackRegion env own lo (g.reg .esp).toNat := R.mono (by omega)
  -- the first call
  obtain ⟨e₁, w₁, hx₁, h₁⟩ := call_with_args (announce_plain f.vector (l.interruptFmt f)) h.flat R'
    hf (Nat.le_refl 3) (by show lo + need + 12 + 4 ≤ _; omega) hdf
  have hw₁depth := h₁.stacked.depth
  rw [List.length_nil, Nat.mul_zero, Nat.add_zero] at hw₁depth
  have hw₁esp : w₁.reg .esp = g.reg .esp := UInt32.toNat_inj.mp hw₁depth
  have hw₁ebp : w₁.reg .ebp = g.reg .ebp := h₁.saved .ebp (by decide)
  -- the words
  have hframe : Stacked own m lo top (us ++ fs) w₁ :=
    h.weaken.resume R (congrFun h₁.seg .ss) hw₁esp h₁.stacked.frame
  obtain ⟨x, hx₂, T, hx, heax, hebx, hecx, hedx, hxesp, hxebp⟩ :=
    @takeWords_ok env own m lo top us fs w₁ hframe R.fits (by rw [hw₁ebp, hw₁esp, hebp]) _ hk
  have hxesp' : x.reg .esp = g.reg .esp := by
    rw [hx]
    exact hxesp.trans hw₁esp
  have hxw : x.mem = w₁.mem ∧ x.seg = w₁.seg ∧ x.cr0 = w₁.cr0 ∧ x.gdtr = w₁.gdtr ∧
      x.log = w₁.log ∧ x.eflags = w₁.eflags := by
    rw [hx]
    exact ⟨rfl, rfl, rfl, rfl, rfl, rfl⟩
  obtain ⟨hxmem, hxseg, hxcr0, hxgdtr, hxlog, hxflags⟩ := hxw
  have hxflat : x.Flat := by
    rw [State.Flat, hxseg]
    exact hframe.flat
  -- the second call
  obtain ⟨e₂, v, hx₃, h₂⟩ := call_with_args (passWords_plain l.errInfFmt) hxflat
    (by rw [hxesp']; exact R') hf (show 3 ≤ 6 by decide)
    (by show lo + need + 24 + 4 ≤ _; rw [hxesp']; omega) (by rw [hxflags]; exact h₁.direction)
  have hwords : ((passedOperands l.errInfFmt).map (x.value .w32)).reverse =
      reportedWords l f fs := by
    have hget : ∀ j (hj : f.errorCodeOf + j < fs.length),
        (fs[f.errorCodeOf + j]?).getD 0 = fs[f.errorCodeOf + j] := fun j hj => by
      rw [List.getElem?_eq_getElem hj]
      rfl
    rw [reportedWords]
    dsimp only
    rw [hget 0 (by omega), hget 1 (by omega), hget 2 (by omega), hget 3 (by omega), hx]
    show [5, l.errInfFmt, T .eax, T .ebx, T .ecx, T .edx] = _
    rw [heax, hebx, hecx, hedx]
    rfl
  rw [hwords, hxesp'] at h₂
  have hvdepth := h₂.stacked.depth
  rw [List.length_nil, Nat.mul_zero, Nat.add_zero] at hvdepth
  refine ⟨e₁, e₂, v, ?_, h₁.enterable, h₁.argument, h₁.entryLog, h₁.before, h₂.enterable,
    h₂.argument, ?_, fun a ha => ?_, ⟨UInt32.toNat_inj.mp hvdepth, ?_, ?_, ?_,
      fun a ha hout => ?_⟩, ?_, h₂.mem, h₂.log⟩
  · have hx₁' : execs env ((announcedOperands f.vector (l.interruptFmt f)).map .push ++
        callAndDrop l.kprintfArgc 3) g = some w₁ := hx₁
    rw [reportCalls, announce, ← List.append_assoc, execs_append hx₁', execs_append hx₂, passWords]
    exact hx₃
  · rw [h₂.entryLog, hxlog, h₁.log]
  · rw [h₂.before a ha, hxmem, h₁.mem]
  · rw [h₂.seg, hxseg, h₁.seg]
  · rw [h₂.cr0, hxcr0, h₁.cr0]
  · rw [h₂.gdtr, hxgdtr, h₁.gdtr]
  · rw [h₂.stacked.frame a ha hout, hxmem]
    exact h₁.stacked.frame a ha hout
  · rw [h₂.saved .ebp (by decide), hx]
    exact hxebp.trans hw₁ebp

/-- What is written to the debug registers: a breakpoint at the place of the fault, of one byte and
for execution. -/
def FaultHandler.Debugs (f : FaultHandler) (eip : UInt32) (es : List Event) : Prop :=
  match f with
  | .interrupt8Handler => es = []
  | .interrupt13Handler => ∃ c, es = [.debug 0 eip, .debug 7 c] ∧ c &&& 0x000F000F = 1

theorem debugPart_ok (env : Env) (f : FaultHandler) {s : State} {eip code : UInt32}
    (h : Stacked own m lo top (us ++ faultFrame s eip code) w) (hfits : top < 2 ^ 32)
    (hebp : (w.reg .ebp).toNat = (w.reg .esp).toNat + 4 * us.length) :
    After env f.debugPart (fun y => ∃ T F es, y = { w with log := w.log ++ es }.upd T F w.mem ∧
      (∀ r, r ≠ .eax → T r = w.reg r) ∧ f.Debugs eip es) w := by
  cases f with
  | interrupt8Handler =>
      refine after_nil ⟨w.reg, w.eflags, [], ?_, fun _ _ => rfl, rfl⟩
      rw [List.append_nil]
      rfl
  | interrupt13Handler =>
      have hword : UInt32.ofNat (load w.mem (w.reg .ebp + .ofNat (4 * 2)) 4) = eip := by
        rw [load_frameWord h hfits hebp (show 2 < 5 by decide), UInt32.ofNat_toNat]
        rfl
      show After env hardwareBreakpoint _ (w.upd w.reg w.eflags w.mem)
      refine after_loadFrame h.flat.1 fun T₁ h₁ => ?_
      have heax₁ : T₁ .eax = eip := h₁.value.trans hword
      refine after_movToDr ?_
      refine after_movFromDr rfl fun T₂ h₂ => ?_
      refine after_aluImm fun T₃ F₃ h₃ _ => ?_
      refine after_aluImm fun T₄ F₄ h₄ _ => ?_
      refine after_movToDr (after_nil ⟨T₄, F₄, [.debug 0 eip, .debug 7 (T₄ .eax)], ?_,
        fun r hr => ?_, T₄ .eax, rfl, ?_⟩)
      · have hlog : w.log ++ [Event.debug 0 eip] ++ [.debug 7 (T₄ .eax)] =
            w.log ++ [.debug 0 eip, .debug 7 (T₄ .eax)] := List.append_assoc _ _ _
        rw [heax₁, ← hlog]
      · rw [h₄.others r hr, h₃.others r hr, h₂.others r hr, h₁.others r hr]
      · have hset : T₄ .eax = T₂ .eax &&& ~~~0x000F000F ||| 0x00000001 := by
          have h₃' : T₃ .eax = T₂ .eax &&& ~~~0x000F000F := h₃.value
          rw [← h₃']
          exact h₄.value
        have hmask : ~~~(0x000F000F : UInt32) &&& 0x000F000F = 0 := rfl
        have hone : (0x00000001 : UInt32) &&& 0x000F000F = 1 := rfl
        rw [hset, or_and_distrib, UInt32.and_assoc, hmask, hone, UInt32.and_zero, UInt32.zero_or]

end Report

/-! ## 3. A fault -/

/-- The handler's share of the stack. -/
def faultStack : Nat := 96

/-- **A fault was reported**, and `z` is the state before `iret`. -/
structure FaultReported (env : Env) (own : UInt32 → Prop) (lo need : Nat) (l : FaultLinked)
    (f : FaultHandler) (eip code : UInt32) (s e₁ e₂ z : State) : Prop where
  enterable₁ : Enterable lo need e₁
  first : ∀ i (hi : i < 3), e₁.argument i = (announcedWords l f)[i]
  log₁ : e₁.log = s.log ++ [.call l.kprintfArgc]
  before₁ : ∀ a : UInt32, own a → e₁.mem a = s.mem a
  enterable₂ : Enterable lo need e₂
  second : ∀ i (hi : i < 6), e₂.argument i = (reportedWords l f (faultFrame s eip code))[i]
  log₂ : e₂.log = (env.callee l.kprintfArgc e₁).log ++ [.call l.kprintfArgc]
  before₂ : ∀ a : UInt32, own a → e₂.mem a = (env.callee l.kprintfArgc e₁).mem a
  mem : z.mem = (env.callee l.kprintfArgc e₂).mem
  log : ∃ es, z.log = (env.callee l.kprintfArgc e₂).log ++ es ∧ f.Debugs eip es
  reg : ∀ r, r ≠ .esp → z.reg r = s.reg r
  seg : z.seg = s.seg
  /-- `iret` takes the error code for the address, and a word is left on the stack. -/
  notResumed : ∀ x u, z.iret = some (x, u) → x = .iret code ∧ u.reg .esp + 4 = s.reg .esp

section Fault

variable {env : Env} {own : UInt32 → Prop} {m : Memory} {lo top need : Nat} {ws : List UInt32}
  {s z : State} {l : FaultLinked} {sel : UInt16} {eip code : UInt32}

/-- `iret` with one word too many. -/
theorem iret_of_code (h : Stacked own m lo top (code :: s.returnWords eip) z)
    (hfits : top < 2 ^ 32) {x : Exit} {u : State} (hu : z.iret = some (x, u)) :
    x = .iret code ∧ (u.reg .esp).toNat + 4 = top := by
  have h₁ := h.drop hfits
  have h₂ := h₁.drop hfits
  have h₃ := h₂.drop hfits
  have hdepth := h₃.depth
  rw [List.length_singleton] at hdepth
  rw [State.iret, h.top_eq] at hu
  obtain ⟨t, ht, hpair⟩ := Option.map_eq_some_iff.mp hu
  obtain ⟨rfl, rfl⟩ := Prod.mk.inj hpair
  obtain ⟨g, -, rfl⟩ := Option.map_eq_some_iff.mp ht
  exact ⟨rfl, hdepth⟩

/-- The frame is entered. -/
theorem begun_frame (h : Interruptible env own lo (need + faultStack) sel s) {t : State}
    (hd : Delivered lo (code :: s.returnWords eip) s t) :
    ∃ p, execs env [.push (.reg .ebp), .mov .w32 (.reg .ebp) (.reg .esp)] t = some p ∧
      Begun lo [.ebp] (faultFrame s eip code) s p ∧ p.reg .ebp = p.reg .esp := by
  have hroom := h.room
  have hstack : faultStack = 96 := rfl
  have htdepth := hd.stacked.depth
  have hwords : (code :: s.returnWords eip).length = 4 := rfl
  have hpush := (hd.begun h).push h (by omega) (t.reg .ebp)
  obtain ⟨q, hq⟩ : ∃ q, t.push env .w32 (t.reg .ebp) = q := ⟨_, rfl⟩
  have hx : exec env (.push (.reg .ebp)) t = some q := congrArg some hq
  rw [hq, hd.reg .ebp (by decide)] at hpush
  refine ⟨q.setReg .ebp (q.reg .esp), ?_, hpush.set (by decide) (fun r hr => setReg_of_ne hr)
    hpush.direction, ?_⟩
  · rw [execs_cons hx]
    rfl
  · rw [setReg_self, setReg_of_ne (by decide)]

/-- **Every fault is reported, and none comes back**: `interrupt_13_handler` prints the error code,
the address, the code segment and the flags; `interrupt_8_handler` prints the `ebp` of the program
for the error code, and each of the others one place too late. Neither resumes the program. -/
theorem fault_reported (h : Interruptible env own lo (need + faultStack) sel s)
    (hf : Cdecl own lo need 3 (env.callee l.kprintfArgc)) (f : FaultHandler) (eip code : UInt32) :
    ∃ t z e₁ e₂, s.deliverFault env sel eip code = some t ∧
      Runs env (f.lines l) (f.lines l) t z.iret ∧
      FaultReported env own lo need l f eip code s e₁ e₂ z := by
  have hroom := h.room
  have hstack : faultStack = 96 := rfl
  have hfits := h.stack.fits
  have R := h.stack
  have hwords : (code :: s.returnWords eip).length = 4 := rfl
  obtain ⟨t, ht, hd⟩ := h.throughGate (code :: s.returnWords eip) (by omega)
  obtain ⟨p, hx₁, hp, hpebp⟩ := begun_frame h hd
  have hpdepth := hp.stacked.depth
  have hflen : (faultFrame s eip code).length = 5 := rfl
  -- all registers around the report
  obtain ⟨g, hx₂, hg, hgonly, hafter⟩ := hp.around h (by omega)
  have hsaved : p.saved.length = 12 := rfl
  have hgdepth := hg.depth
  rw [List.length_append] at hgdepth
  have hgebp : (g.reg .ebp).toNat = (g.reg .esp).toNat + 4 * p.saved.length := by
    rw [hgonly.reg .ebp (by decide), hpebp]
    omega
  obtain ⟨e₁, e₂, v, hx₃, hv⟩ := reportCalls_ok (l := l) (f := f) hg R hf hgebp hflen (by omega)
    (by rw [hgonly.eflags]; exact hp.direction)
  have hvst : Stacked own s.mem lo (s.reg .esp).toNat (p.saved ++ faultFrame s eip code) v :=
    hg.weaken.resume R (congrFun hv.between.seg .ss) hv.between.esp hv.between.mem
  obtain ⟨y, hx₄, T, F, es, hy, hT, hes⟩ := debugPart_ok env f hvst hfits
    (by rw [hv.ebp, hgebp, hv.between.esp])
  obtain ⟨u, hx₅, hu, hureg, humem, hulog⟩ := hafter y
    ⟨by rw [hy]; exact (hT .esp (by decide)).trans hv.between.esp, by rw [hy]; exact hv.between.seg,
      by rw [hy]; exact hv.between.cr0, by rw [hy]; exact hv.between.gdtr,
      by rw [hy]; exact hv.between.mem⟩
  -- the frame is left
  have hset : u.setReg .esp (u.reg .ebp) = u := by
    have hesp : u.reg .ebp = u.reg .esp := by
      rw [hureg]
      exact hpebp
    rw [hesp, State.setReg, Function.update_eq_self]
  have hx₆ : exec env (.mov .w32 (.reg .esp) (.reg .ebp)) u = some u := congrArg some hset
  obtain ⟨z, hx₇, hz, hzmem, hzcontrol⟩ := Inside.popReg env hu hfits (by decide)
  refine ⟨t, z, e₁, e₂, ht, ?_, hv.enterable₁, hv.first, ?_, fun a ha => ?_, hv.enterable₂,
    hv.second, hv.log₂, hv.before₂, ?_, ⟨es, ?_, hes⟩, fun r hr => hz.reg r hr List.not_mem_nil,
    hz.seg, fun x w hw => ?_⟩
  · have hexecs : execs env (.push (.reg .ebp) :: .mov .w32 (.reg .ebp) (.reg .esp) ::
        (saveAll ++ (reportCalls l f ++ (f.debugPart ++ (restoreAll ++
          [.mov .w32 (.reg .esp) (.reg .ebp), .pop .w32 .ebp]))))) t = some z := by
      show execs env ([_, _] ++ (saveAll ++ _)) t = _
      rw [execs_append hx₁, execs_append hx₂, execs_append hx₃, execs_append hx₄, execs_append hx₅,
        execs_cons hx₆, execs_cons hx₇, execs]
    rw [FaultHandler.lines, runs_execs hexecs]
    exact runs_iret
  · rw [hv.log₁, hgonly.log, hp.log]
  · rw [hv.before₁ a ha]
    refine hg.frame a not_false ?_
    by_contra hin
    rw [not_or, Nat.not_lt, Nat.not_le] at hin
    exact R.own a hin.1 hin.2 ha
  · rw [hzmem, humem, hy, ← hv.mem]
    rfl
  · rw [hzcontrol.log, hulog, hy, ← hv.log]
    rfl
  · obtain ⟨hx, hesp⟩ := iret_of_code hz.stacked hfits hw
    refine ⟨hx, UInt32.toNat_inj.mp ?_⟩
    rw [show (4 : UInt32) = .ofNat 4 from rfl, toNat_add_ofNat (by omega)]
    exact hesp

end Fault

/-- A double fault at `0x3000` with the error code `0x18`: reported as the error code 0, at `0x18`, in
the code segment `0x3000`. -/
theorem fault_reported_flat : ∃ t z e₁ e₂,
    (flatMachine flatMemory).deliverFault (simpleEnv (fun _ _ => 0) fun _ s => s.mem) 0x10 0x3000
        0x18 = some t ∧
      Runs (simpleEnv (fun _ _ => 0) fun _ s => s.mem)
        (FaultHandler.interrupt8Handler.lines ⟨0x5000, fun _ => 0x6000, 0x6100⟩)
        (FaultHandler.interrupt8Handler.lines ⟨0x5000, fun _ => 0x6000, 0x6100⟩) t z.iret ∧
      FaultReported (simpleEnv (fun _ _ => 0) fun _ s => s.mem) nobody 0 0x100
        ⟨0x5000, fun _ => 0x6000, 0x6100⟩ .interrupt8Handler 0x3000 0x18 (flatMachine flatMemory)
        e₁ e₂ z ∧
      e₂.argument 2 = 0 ∧ e₂.argument 3 = 0x18 ∧ e₂.argument 4 = 0x3000 := by
  have hready : Interruptible (simpleEnv (fun _ _ => 0) fun _ s => s.mem) nobody 0
      (0x100 + faultStack) 0x10 (flatMachine flatMemory) :=
    flatMachine_interruptible (by decide) (fun _ _ => rfl) (fun _ h => h.elim) fun _ _ => rfl
  obtain ⟨t, z, e₁, e₂, ht, hruns, hreported⟩ := fault_reported
    (l := ⟨0x5000, fun _ => 0x6000, 0x6100⟩) hready (cdecl_simple fun _ _ _ => rfl)
    .interrupt8Handler 0x3000 0x18
  exact ⟨t, z, e₁, e₂, ht, hruns, hreported, hreported.second 2 (by decide),
    hreported.second 3 (by decide), hreported.second 4 (by decide)⟩

end MapleKernel.Cpu
