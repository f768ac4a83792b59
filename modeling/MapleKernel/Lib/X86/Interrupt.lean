/-
  File:      Lib/X86/Interrupt.lean
  Subject:   INTERRUPTS: what a handler must leave, and programs that are interrupted anywhere.

  `State.deliver` is what the processor does at an interrupt gate, without a change of privilege.
  `Restores` says that the interrupted program finds everything as it was: all registers, and all
  memory but that below its stack and the variables of the handler.

  * `Interruptible.throughGate`, `Stacked.iret` -- the words that are pushed, and their way back;
  * `Inside`, `Begun` -- a state of a handler, by the words on the stack and the registers in use,
    with a rule for each thing that handlers do first and last;
  * `restores_of_iret` -- a handler inside of which no register is in use restores everything;
  * `Cdecl`, `Stacked.call`, `call_with_args` -- what a C function keeps, and the stack behind its
    call;
  * `Injected`, `Injected.sound` -- a run in which handlers run between any two steps of a program
    is one of the program alone, for whatever the program looks at.
-/
import MapleKernel.Lib.X86.Stack

namespace X86

/-! ## 1. Delivery and return -/

/-- IF, TF, NT, RF and VM are cleared by an interrupt gate. -/
def gateFlags : UInt32 := 0x34300

/-- The words that the processor pushes, the last one first. -/
def State.returnWords (s : State) (eip : UInt32) : List UInt32 :=
  [eip, (s.seg .cs).sel.toUInt32, s.eflags]

/-- Through a gate into the code segment `sel`, with the words `ws` on the stack. -/
def State.throughGate (env : Env) (sel : UInt16) (ws : List UInt32) (s : State) : Option State :=
  ((ws.reverse.foldl (fun t v => t.push env .w32 v) s).setSeg .cs sel).map
    fun t => { t with eflags := t.eflags &&& ~~~gateFlags }

/-- An interrupt at `eip`. -/
def State.deliver (env : Env) (sel : UInt16) (eip : UInt32) (s : State) : Option State :=
  s.throughGate env sel (s.returnWords eip)

/-- A fault at `eip`, with an error code. -/
def State.deliverFault (env : Env) (sel : UInt16) (eip code : UInt32) (s : State) : Option State :=
  s.throughGate env sel (code :: s.returnWords eip)

/-- **Everything is as it was** for the interrupted program. -/
structure Restores (own : UInt32 → Prop) (lo : Nat) (s t : State) : Prop where
  reg : t.reg = s.reg
  seg : t.seg = s.seg
  eflags : t.eflags = s.eflags
  cr0 : t.cr0 = s.cr0
  gdtr : t.gdtr = s.gdtr
  mem : ∀ a : UInt32, ¬ own a → a.toNat < lo ∨ (s.reg .esp).toNat ≤ a.toNat → t.mem a = s.mem a

/-- A state that can be interrupted: a flat stack in protected mode with room for `need` bytes, the
segments as their descriptors say, and the direction flag as C needs it. -/
structure Interruptible (env : Env) (own : UInt32 → Prop) (lo need : Nat) (sel : UInt16)
    (s : State) : Prop where
  flat : s.Flat
  room : lo + need ≤ (s.reg .esp).toNat
  stack : StackRegion env own lo (s.reg .esp).toNat
  protectedMode : s.protectedMode = true
  coherent : ∀ r, s.Coherent r
  kernelCode : (s.seg .cs).sel = sel
  direction : s.eflags &&& State.directionFlag = 0
  table : ∀ a, s.InTable a → ¬ own a ∧ (a.toNat < lo ∨ (s.reg .esp).toNat ≤ a.toNat)

section Deliver

variable {env : Env} {own : UInt32 → Prop} {m : Memory} {lo top need : Nat} {ws : List UInt32}
  {used : List Reg} {s t u : State} {sel : UInt16} {eip : UInt32}

/-- The state in which a handler begins, with the words `ws` on the stack. -/
structure Delivered (lo : Nat) (ws : List UInt32) (s t : State) : Prop where
  stacked : Stacked nobody s.mem lo (s.reg .esp).toNat ws t
  reg : ∀ r, r ≠ .esp → t.reg r = s.reg r
  seg : t.seg = s.seg
  eflags : t.eflags = s.eflags &&& ~~~gateFlags
  cr0 : t.cr0 = s.cr0
  gdtr : t.gdtr = s.gdtr
  log : t.log = s.log

/-- The descriptor table is not on the part of the stack that a handler uses. -/
theorem Interruptible.sameTable (h : Interruptible env own lo need sel s)
    (hst : Stacked own s.mem lo (s.reg .esp).toNat ws t) (hcr0 : t.cr0 = s.cr0)
    (hgdtr : t.gdtr = s.gdtr) : SameTable s t := by
  refine ⟨hcr0, hgdtr, fun a ha => ?_⟩
  obtain ⟨hown, hout⟩ := h.table a ha
  exact hst.frame a hown hout

/-- **A handler begins** with the words on the stack. -/
theorem Interruptible.throughGate (ws : List UInt32) (h : Interruptible env own lo need sel s)
    (hneed : 4 * ws.length ≤ need) :
    ∃ t, s.throughGate env sel ws = some t ∧ Delivered lo ws s t := by
  have hroom := h.room
  have hstart : Stacked nobody s.mem lo (s.reg .esp).toNat [] s :=
    Stacked.start h.flat (by omega)
  obtain ⟨hst, honly⟩ := hstart.pushes ws.reverse h.stack.unowned
    (by rw [List.length_reverse]; omega)
  rw [List.reverse_reverse, List.append_nil] at hst
  rw [State.throughGate]
  generalize ws.reverse.foldl (fun t v => t.push env .w32 v) s = p at hst honly ⊢
  have htable : SameTable s p := h.sameTable hst.weaken honly.cr0 honly.gdtr
  have hset := setSeg_restores (h.coherent .cs) htable h.protectedMode
  have hseg : Function.update p.seg .cs (s.seg .cs) = s.seg := by
    rw [honly.seg]
    exact Function.update_eq_self _ _
  rw [h.kernelCode, hseg] at hset
  refine ⟨{ p with seg := s.seg, eflags := p.eflags &&& ~~~gateFlags }, by rw [hset]; rfl, ?_,
    honly.reg, rfl, ?_, honly.cr0, honly.gdtr, honly.log⟩
  · exact hst.congr (congrFun honly.seg .ss).symm rfl rfl
  · show p.eflags &&& _ = _
    rw [honly.eflags]

/-- An interrupt begins with the three words on the stack. -/
theorem Interruptible.deliver (eip : UInt32) (h : Interruptible env own lo need sel s)
    (hneed : 12 ≤ need) :
    ∃ t, s.deliver env sel eip = some t ∧ Delivered lo (s.returnWords eip) s t :=
  h.throughGate (s.returnWords eip) hneed

/-- **The way back**: with the three words on top, `iret` goes to the interrupted program. -/
theorem Stacked.iret (h : Stacked own m lo top (s.returnWords eip) t) (hfits : top < 2 ^ 32)
    (hco : s.Coherent .cs) (htable : SameTable s t) (hpe : s.protectedMode = true) :
    ∃ u, t.iret = some (.iret eip, u) ∧ Stacked own m lo top [] u ∧
      u.seg = Function.update t.seg .cs (s.seg .cs) ∧ (∀ r, r ≠ .esp → u.reg r = t.reg r) ∧
      u.mem = t.mem ∧ u.eflags = s.eflags ∧ u.cr0 = t.cr0 ∧ u.gdtr = t.gdtr ∧ u.log = t.log := by
  have h₁ := h.drop hfits
  have h₂ := h₁.drop hfits
  have h₃ := h₂.drop hfits
  have htable' : SameTable s (((t.drop .w32).drop .w32).drop .w32) :=
    ((htable.control sameControl_drop drop_mem).control sameControl_drop drop_mem).control
      sameControl_drop drop_mem
  have hset := setSeg_restores hco htable' hpe
  refine ⟨{ ((t.drop .w32).drop .w32).drop .w32 with
    seg := Function.update (((t.drop .w32).drop .w32).drop .w32).seg .cs (s.seg .cs)
    eflags := s.eflags }, ?_, ?_, ?_, fun r hr => ?_, ?_, rfl, ?_, ?_, ?_⟩
  · rw [State.iret, h.top_eq, h₁.top_eq, h₂.top_eq, UInt16.toUInt16_toUInt32]
    dsimp only
    rw [hset]
    rfl
  · refine h₃.congr ?_ rfl rfl
    exact Function.update_of_ne (show SegReg.ss ≠ .cs by decide) (s.seg .cs) _
  · simp
  · show (((t.drop .w32).drop .w32).drop .w32).reg r = _
    rw [drop_reg_of_ne hr, drop_reg_of_ne hr, drop_reg_of_ne hr]
  · simp
  · simp
  · simp
  · simp

/-- **Inside a handler**, with the words `ws` on the stack: of the registers, only those in `used`
may be others than at the interrupt. -/
structure Inside (own : UInt32 → Prop) (lo : Nat) (used : List Reg) (ws : List UInt32)
    (s t : State) : Prop where
  stacked : Stacked own s.mem lo (s.reg .esp).toNat ws t
  reg : ∀ r, r ≠ .esp → r ∉ used → t.reg r = s.reg r
  seg : t.seg = s.seg
  cr0 : t.cr0 = s.cr0
  gdtr : t.gdtr = s.gdtr

/-- ... where nothing but the stack was written yet. -/
structure Begun (lo : Nat) (used : List Reg) (ws : List UInt32) (s t : State) : Prop
    extends Inside nobody lo used ws s t where
  log : t.log = s.log
  direction : t.eflags &&& State.directionFlag = 0

theorem Delivered.begun (hd : Delivered lo ws s t) (h : Interruptible env own lo need sel s) :
    Begun lo [] ws s t where
  stacked := hd.stacked
  reg := fun r hr _ => hd.reg r hr
  seg := hd.seg
  cr0 := hd.cr0
  gdtr := hd.gdtr
  log := hd.log
  direction := by
    rw [hd.eflags, UInt32.and_assoc]
    exact h.direction

theorem Begun.push (hb : Begun lo used ws s t) (h : Interruptible env own lo need sel s)
    (hroom : lo + 4 ≤ (t.reg .esp).toNat) (v : UInt32) :
    Begun lo used (v :: ws) s (t.push env .w32 v) := by
  have honly := hb.stacked.onlyStack_push h.stack.unowned hroom v
  refine ⟨⟨hb.stacked.push h.stack.unowned hroom v, fun r hr hu => ?_, honly.seg.trans hb.seg,
    honly.cr0.trans hb.cr0, honly.gdtr.trans hb.gdtr⟩, honly.log.trans hb.log, ?_⟩
  · exact (honly.reg r hr).trans (hb.reg r hr hu)
  · rw [honly.eflags]
    exact hb.direction

/-- A register is set. -/
theorem Begun.set (hb : Begun lo used ws s t) {r : Reg} (hr : r ≠ .esp) {R : Reg → UInt32}
    {F : UInt32} (hR : ∀ q, q ≠ r → R q = t.reg q) (hF : F &&& State.directionFlag = 0) :
    Begun lo (r :: used) ws s { t with reg := R, eflags := F } := by
  refine ⟨⟨hb.stacked.congr rfl (hR .esp hr.symm) rfl, fun q hq hu => ?_, hb.seg, hb.cr0, hb.gdtr⟩,
    hb.log, hF⟩
  rw [List.mem_cons, not_or] at hu
  exact (hR q hu.1).trans (hb.reg q hq hu.2)

/-- **The register in use comes back from the stack.** -/
theorem Inside.popReg (env : Env) {r : Reg} (hi : Inside own lo [r] (s.reg r :: ws) s t)
    (hfits : (s.reg .esp).toNat < 2 ^ 32) (hr : r ≠ .esp) :
    ∃ u, exec env (.pop .w32 r) t = some u ∧ Inside own lo [] ws s u ∧ u.mem = t.mem ∧
      SameControl t u := by
  obtain ⟨hx, hst⟩ := hi.stacked.popReg env hfits hr
  refine ⟨_, hx, ⟨hst, fun q hq _ => ?_, drop_seg.trans hi.seg, drop_cr0.trans hi.cr0,
    drop_gdtr.trans hi.gdtr⟩, drop_mem, drop_eflags, drop_cr0, drop_gdtr, drop_log⟩
  by_cases hqr : q = r
  · rw [hqr, setReg_self]
  · rw [setReg_of_ne hqr, drop_reg_of_ne hq]
    exact hi.reg q hq (by rwa [List.mem_singleton])

theorem Begun.popReg (env : Env) {r : Reg} (hb : Begun lo [r] (s.reg r :: ws) s t)
    (hfits : (s.reg .esp).toNat < 2 ^ 32) (hr : r ≠ .esp) :
    ∃ u, exec env (.pop .w32 r) t = some u ∧ Begun lo [] ws s u := by
  obtain ⟨u, hx, hi, -, hcontrol⟩ := hb.toInside.popReg env hfits hr
  refine ⟨u, hx, hi, hcontrol.log.trans hb.log, ?_⟩
  rw [hcontrol.eflags]
  exact hb.direction

/-- **All registers are saved around code** that keeps the stack. -/
theorem Begun.around (hb : Begun lo used ws s t) (h : Interruptible env own lo need sel s)
    (hroom : lo + 48 ≤ (t.reg .esp).toNat) :
    ∃ g, execs env X86.saveAll t = some g ∧
      Stacked nobody s.mem lo (s.reg .esp).toNat (t.saved ++ ws) g ∧ OnlyStack t g ∧
      ∀ v, Between own lo g v → ∃ u, execs env X86.restoreAll v = some u ∧
        Inside own lo used ws s u ∧ u.reg = t.reg ∧ u.mem = v.mem ∧ u.log = v.log := by
  have hsame : SameTable s t := h.sameTable hb.stacked.weaken hb.cr0 hb.gdtr
  obtain ⟨g, hx, hg, honly, hafter⟩ := hb.stacked.around env h.stack hroom
    (fun r _ => hsame.coherent (congrFun hb.seg r) h.protectedMode (h.coherent r))
    (hsame.protectedMode.trans h.protectedMode) fun a ha => by
      rw [State.InTable, hb.gdtr] at ha
      exact h.table a ha
  refine ⟨g, hx, hg, honly, fun v hv => ?_⟩
  obtain ⟨u, hxu, hu, hreg, hseg, hmem, hcontrol⟩ := hafter v hv
  refine ⟨u, hxu, ⟨hu, fun r hr hused => ?_, hseg.trans hb.seg, ?_, ?_⟩, hreg, hmem, hcontrol.log⟩
  · rw [hreg]
    exact hb.reg r hr hused
  · rw [hcontrol.cr0, hv.cr0, honly.cr0, hb.cr0]
  · rw [hcontrol.gdtr, hv.gdtr, honly.gdtr, hb.gdtr]

/-- **What a handler has to leave before `iret`.** -/
theorem restores_of_iret (h : Interruptible env own lo need sel s)
    (hi : Inside own lo [] (s.returnWords eip) s t) :
    ∃ u, t.iret = some (.iret eip, u) ∧ Restores own lo s u ∧ u.mem = t.mem ∧ u.log = t.log := by
  have htable : SameTable s t := h.sameTable hi.stacked hi.cr0 hi.gdtr
  obtain ⟨u, hu, hst, hseg, hreg, hmem, hflags, hcr0, hgdtr, hlog⟩ :=
    hi.stacked.iret h.stack.fits (h.coherent .cs) htable h.protectedMode
  refine ⟨u, hu, ⟨funext fun r => ?_, ?_, hflags, hcr0.trans hi.cr0, hgdtr.trans hi.gdtr,
    hst.frame⟩, hmem, hlog⟩
  · by_cases hr : r = .esp
    · have hdepth := hst.depth
      rw [List.length_nil, Nat.mul_zero, Nat.add_zero] at hdepth
      rw [hr]
      exact UInt32.toNat_inj.mp hdepth
    · rw [hreg r hr, hi.reg r hr List.not_mem_nil]
  · rw [hseg, hi.seg]
    exact Function.update_eq_self _ _

end Deliver

/-! ## 2. C functions -/

/-- A state in which C code can begin: `esp` points at the return address. -/
structure Enterable (lo need : Nat) (s : State) : Prop where
  flat : s.Flat
  room : lo + need ≤ (s.reg .esp).toNat
  direction : s.eflags &&& State.directionFlag = 0

/-- An argument word of a C function in the state it begins in. -/
def State.argument (s : State) (i : Nat) : UInt32 :=
  .ofNat (load s.mem (s.reg .esp + .ofNat (4 * (i + 1))) 4)

/-- The registers that a C function keeps. -/
def calleeSaved : List Reg := [.ebx, .ebp, .esi, .edi]

/-- What is kept from `s` to `t`: the stack from `k` bytes above `esp` on, and everything that is
not one's own. -/
structure Kept (own : UInt32 → Prop) (lo k : Nat) (s t : State) : Prop where
  saved : ∀ r ∈ calleeSaved, t.reg r = s.reg r
  seg : t.seg = s.seg
  cr0 : t.cr0 = s.cr0
  gdtr : t.gdtr = s.gdtr
  mem : ∀ a : UInt32, ¬ own a → a.toNat < lo ∨ (s.reg .esp).toNat + k ≤ a.toNat →
    t.mem a = s.mem a
  direction : t.eflags &&& State.directionFlag = 0

/-- A C function of `n` argument words, with variables of its own, that needs `need` bytes of
stack. It may overwrite its arguments. -/
def Cdecl (own : UInt32 → Prop) (lo need n : Nat) (f : State → State) : Prop :=
  ∀ s, Enterable lo need s → Kept own lo (4 * (n + 1)) s (f s) ∧ (f s).reg .esp = s.reg .esp + 4

/-- The state in which a called function begins. -/
def State.entry (env : Env) (f : UInt32) (s : State) : State :=
  { s.push env .w32 (env.returnAddress s) with
    log := (s.push env .w32 (env.returnAddress s)).log ++ [.call f] }

section Call

variable {env : Env} {own : UInt32 → Prop} {m : Memory} {lo top need n : Nat} {ws : List UInt32}
  {s : State} {f : UInt32}

theorem exec_call : exec env (.call f) s = some (env.callee f (s.entry env f)) := rfl

/-- The function begins. -/
theorem Stacked.entry (h : Stacked own m lo top ws s) (R : StackRegion env own lo top)
    (hroom : lo + need + 4 ≤ (s.reg .esp).toNat) (hdf : s.eflags &&& State.directionFlag = 0) :
    Stacked own m lo top (env.returnAddress s :: ws) (s.entry env f) ∧
      Enterable lo need (s.entry env f) ∧ (s.entry env f).log = s.log ++ [.call f] := by
  have hentry : Stacked own m lo top (env.returnAddress s :: ws) (s.entry env f) :=
    (h.push R (by omega) (env.returnAddress s)).congr rfl rfl rfl
  have hesp : (s.reg .esp - 4).toNat = (s.reg .esp).toNat - 4 :=
    toNat_sub_ofNat (n := 4) (by omega)
  have hesp' : (s.entry env f).reg .esp = s.reg .esp - 4 := push_esp h.flat
  have honly := h.onlyStack_push R (by omega) (env.returnAddress s)
  refine ⟨hentry, ⟨hentry.flat, by rw [hesp', hesp]; omega, ?_⟩, ?_⟩
  · show (s.push env .w32 _).eflags &&& _ = 0
    rw [push_eflags]
    exact hdf
  · show (s.push env .w32 _).log ++ _ = _
    rw [honly.log]

/-- **A call keeps the stack** from behind its arguments on. -/
theorem Stacked.call (h : Stacked own m lo top ws s) (R : StackRegion env own lo top)
    (hf : Cdecl own lo need n (env.callee f))
    (hroom : lo + need + 4 ≤ (s.reg .esp).toNat) (hdf : s.eflags &&& State.directionFlag = 0) :
    Kept own lo (4 * n) s (env.callee f (s.entry env f)) ∧
      (env.callee f (s.entry env f)).reg .esp = s.reg .esp := by
  obtain ⟨-, henter, -⟩ := h.entry (f := f) R hroom hdf
  obtain ⟨hkept, hesp⟩ := hf _ henter
  have honly := h.onlyStack_push R (by omega) (env.returnAddress s)
  have hdepth := h.depth
  have hlow : (s.reg .esp - 4).toNat = (s.reg .esp).toNat - 4 :=
    toNat_sub_ofNat (n := 4) (by omega)
  have hdev : env.device (s.reg .esp - 4) = false := R.device _ (by omega) (by omega)
  have hfits := R.fits
  have hesp' : (s.entry env f).reg .esp = s.reg .esp - 4 := push_esp h.flat
  refine ⟨⟨fun r hr => ?_, hkept.seg.trans honly.seg, hkept.cr0.trans honly.cr0,
    hkept.gdtr.trans honly.gdtr, fun a hown hout => ?_, hkept.direction⟩, ?_⟩
  · have hne : r ≠ .esp := by
      rintro rfl
      exact absurd hr (by decide)
    rw [hkept.saved r hr]
    exact honly.reg r hne
  · rw [hkept.mem a hown (by rw [hesp', hlow]; omega)]
    show (s.push env .w32 _).mem a = _
    rw [push_mem h.flat hdev]
    exact store_of_apart (by omega) (by omega)
  · rw [hesp, hesp', UInt32.sub_add_cancel]

/-- The state `w` behind a call from `q` with arguments that are dropped again; the function began
in `e`. -/
structure Called (own : UInt32 → Prop) (m : Memory) (lo need top : Nat) (args ws : List UInt32)
    (f : UInt32) (f' : State → State) (q e w : State) : Prop where
  enterable : Enterable lo need e
  argument : ∀ i (hi : i < args.length), e.argument i = args[i]
  entryLog : e.log = q.log ++ [.call f]
  before : ∀ a : UInt32, own a → e.mem a = q.mem a
  stacked : Stacked own m lo top ws w
  saved : ∀ r ∈ calleeSaved, w.reg r = q.reg r
  seg : w.seg = q.seg
  cr0 : w.cr0 = q.cr0
  gdtr : w.gdtr = q.gdtr
  direction : w.eflags &&& State.directionFlag = 0
  mem : w.mem = (f' e).mem
  log : w.log = (f' e).log

/-- The caller drops `n` argument words. -/
def callAndDrop (f : UInt32) (n : Nat) : List Instr :=
  [.call f, .alu .add .w32 .esp (.imm (.ofNat (4 * n)))]

/-- **A call with arguments**, which are on the stack. -/
theorem Stacked.callAndDrop (args : List UInt32) (h : Stacked own m lo top (args ++ ws) s)
    (R : StackRegion env own lo top) (hf : Cdecl own lo need n (env.callee f))
    (hn : n ≤ args.length) (hroom : lo + need + 4 ≤ (s.reg .esp).toNat)
    (hdf : s.eflags &&& State.directionFlag = 0) :
    ∃ e w, execs env (X86.callAndDrop f args.length) s = some w ∧
      Called own m lo need top args ws f (env.callee f) s e w := by
  obtain ⟨hentry, henter, hlog⟩ := h.entry (f := f) R hroom hdf
  obtain ⟨hkept, hesp⟩ := h.call R hf hroom hdf
  have hdepth := h.depth
  have hedepth := hentry.depth
  have hfits := R.fits
  rw [List.length_append] at hdepth
  rw [List.length_cons, List.length_append] at hedepth
  obtain ⟨v, hv⟩ : ∃ v, env.callee f (s.entry env f) = v := ⟨_, rfl⟩
  rw [hv] at hkept hesp
  have hesp' : (v.reg .esp + .ofNat (4 * args.length)).toNat =
      (s.reg .esp).toNat + 4 * args.length := by
    rw [hesp]
    exact toNat_add_ofNat (by omega)
  obtain ⟨w, hw⟩ : ∃ w, (v.setReg .esp (v.reg .esp + .ofNat (4 * args.length))).setStatus env
    (v.reg .esp + .ofNat (4 * args.length)) = w := ⟨_, rfl⟩
  have hwesp : w.reg .esp = v.reg .esp + .ofNat (4 * args.length) := by
    rw [← hw, setStatus_reg, setReg_self]
  refine ⟨s.entry env f, w, ?_, henter, fun i hi => ?_, hlog, fun a ha => ?_, ⟨?_, ?_, ?_, ?_, ?_⟩,
    fun r hr => ?_, ?_, ?_, ?_, ?_, ?_, ?_⟩
  · rw [X86.callAndDrop, execs_cons exec_call, hv, ← hw]
    rfl
  · have hsplit : env.returnAddress s :: (args ++ ws) = (env.returnAddress s :: args.take i) ++
        args[i] :: (args.drop (i + 1) ++ ws) := by
      rw [List.cons_append, ← List.cons_append (a := args[i]), ← List.append_assoc,
        List.getElem_cons_drop, List.take_append_drop]
    rw [hsplit] at hentry
    have hlen : (env.returnAddress s :: args.take i).length = i + 1 := by
      rw [List.length_cons, List.length_take, Nat.min_eq_left (Nat.le_of_lt hi)]
    have hword := hentry.load_eq _ (a := (s.entry env f).reg .esp + .ofNat (4 * (i + 1)))
      (by rw [hlen]; exact toNat_add_ofNat (by omega))
    rw [State.argument, hword, UInt32.ofNat_toNat]
  · have honly : (s.entry env f).mem = (s.push env .w32 (env.returnAddress s)).mem := rfl
    have hlow : (s.reg .esp - 4).toNat = (s.reg .esp).toNat - 4 :=
      toNat_sub_ofNat (n := 4) (by omega)
    have hdev : env.device (s.reg .esp - 4) = false := R.device _ (by omega) (by omega)
    have hout : a.toNat < lo ∨ top ≤ a.toNat := by
      by_contra hin
      rw [not_or, Nat.not_lt, Nat.not_le] at hin
      exact R.own a hin.1 hin.2 ha
    rw [honly, push_mem h.flat hdev]
    exact store_of_apart (by omega) (by omega)
  · rw [← hw, State.Flat]
    show (v.seg .ss).base = 0 ∧ (v.seg .ss).big = true
    rw [hkept.seg]
    exact h.flat
  · rw [hwesp, hesp']
    omega
  · rw [hwesp, hesp']
    have hlow := h.low
    omega
  · have hwords := (words_append.mp h.words).2
    rw [hwesp, hesp', ← hw]
    refine hwords.congr (by omega) fun x hlo hhi => ?_
    exact hkept.mem x (R.own x (by have hlow := h.low; omega) (by omega)) (by omega)
  · intro a hown hout
    rw [← hw, ← h.frame a hown hout]
    exact hkept.mem a hown (by omega)
  · have hne : r ≠ .esp := by
      rintro rfl
      exact absurd hr (by decide)
    rw [← hw, setStatus_reg, setReg_of_ne hne, hkept.saved r hr]
  · rw [← hw]
    exact hkept.seg
  · rw [← hw]
    exact hkept.cr0
  · rw [← hw]
    exact hkept.gdtr
  · rw [← hw, setStatus_direction]
    exact hkept.direction
  · rw [← hw, hv]
    rfl
  · rw [← hw, hv]
    rfl

/-- **A call from C or by hand**: the arguments are pushed, the last one first, and dropped
behind it. -/
theorem call_with_args {os : List Operand} (hos : ∀ o ∈ os, o.Plain) (hflat : s.Flat)
    (R : StackRegion env own lo (s.reg .esp).toNat) (hf : Cdecl own lo need n (env.callee f))
    (hn : n ≤ os.length) (hroom : lo + need + 4 * os.length + 4 ≤ (s.reg .esp).toNat)
    (hdf : s.eflags &&& State.directionFlag = 0) :
    ∃ e w, execs env (os.map .push ++ X86.callAndDrop f os.length) s = some w ∧
      Called own s.mem lo need (s.reg .esp).toNat (os.map (s.value .w32)).reverse [] f
        (env.callee f) s e w := by
  have hlen : (os.map (s.value .w32)).reverse.length = os.length := by
    rw [List.length_reverse, List.length_map]
  have hstart : Stacked nobody s.mem lo (s.reg .esp).toNat [] s := .start hflat (by omega)
  obtain ⟨hpush, honly⟩ := hstart.pushes (os.map (s.value .w32)) R.unowned
    (by rw [List.length_map]; omega)
  have hx : execs env (os.map .push) s = some _ := execs_push hos s
  obtain ⟨q, hq⟩ : ∃ q, (os.map (s.value .w32)).foldl (fun t v => t.push env .w32 v) s = q :=
    ⟨_, rfl⟩
  rw [hq] at hpush honly hx
  have hdepth := hpush.depth
  rw [List.append_nil, hlen] at hdepth
  obtain ⟨e, w, hx', h⟩ := hpush.weaken.callAndDrop _ R hf (by rw [hlen]; exact hn) (by omega)
    (by rw [honly.eflags]; exact hdf)
  rw [hlen] at hx'
  refine ⟨e, w, by rw [execs_append hx, hx'], h.enterable, h.argument, ?_, fun a ha => ?_,
    h.stacked, fun r hr => ?_, h.seg.trans honly.seg, h.cr0.trans honly.cr0,
    h.gdtr.trans honly.gdtr, h.direction, h.mem, h.log⟩
  · rw [h.entryLog, honly.log]
  · rw [h.before a ha]
    refine hpush.frame a not_false ?_
    by_contra hin
    rw [not_or, Nat.not_lt, Nat.not_le] at hin
    exact R.own a hin.1 hin.2 ha
  · have hne : r ≠ .esp := by
      rintro rfl
      exact absurd hr (by decide)
    rw [h.saved r hr, honly.reg r hne]

end Call

/-! ## 3. Programs that are interrupted anywhere -/

section Injected

variable {σ ι : Type*} {next : σ → σ} {handler : ι → σ → σ → Prop}

/-- A run from `s` to `t`: the items are steps of the program and handlers that were run. -/
inductive Injected (next : σ → σ) (handler : ι → σ → σ → Prop) : σ → List (Option ι) → σ → Prop
  | done (s : σ) : Injected next handler s [] s
  | step {s t : σ} {l : List (Option ι)} (h : Injected next handler (next s) l t) :
      Injected next handler s (none :: l) t
  | interrupt {s s' t : σ} {i : ι} {l : List (Option ι)} (hi : handler i s s')
      (h : Injected next handler s' l t) : Injected next handler s (some i :: l) t

/-- The handlers that were run. -/
theorem Injected.forall_mem {C : ι → Prop} (hC : ∀ i s s', handler i s s' → C i) {s t : σ}
    {l : List (Option ι)} (h : Injected next handler s l t) : ∀ i ∈ l.filterMap id, C i := by
  induction h with
  | done s => exact fun i hi => absurd hi List.not_mem_nil
  | step h ih => exact ih
  | interrupt hi h ih => exact List.forall_mem_cons.mpr ⟨hC _ _ _ hi, ih⟩

/-- The program's own steps. -/
def ownSteps (l : List (Option ι)) : Nat := (l.filter Option.isNone).length

/-- **The program does not notice**: what its steps respect and no handler disturbs holds between
its run alone and the run with the handlers. -/
theorem Injected.sound {R : σ → σ → Prop} (hstep : ∀ c s, R c s → R (next c) (next s))
    (hint : ∀ c i s s', R c s → handler i s s' → R c s') {c s t : σ} {l : List (Option ι)}
    (h : Injected next handler s l t) (hR : R c s) : R (next^[ownSteps l] c) t := by
  induction h generalizing c with
  | done s => exact hR
  | step h ih =>
      have hrest := ih (hstep c _ hR)
      rw [← Function.iterate_succ_apply] at hrest
      exact hrest
  | interrupt hi h ih => exact ih (hint c _ _ _ hR hi)

/-- **The handlers do not notice either**: what the program keeps is changed by the handlers one
after the other, in the order they were run. -/
theorem Injected.foldlM {γ : Type*} (view : σ → γ) {act : γ → ι → Option γ}
    (hstep : ∀ s, view (next s) = view s)
    (hint : ∀ i s s' g, handler i s s' → act (view s) i = some g → view s' = g) {s t : σ}
    {l : List (Option ι)} (h : Injected next handler s l t) {g : γ}
    (hg : (l.filterMap id).foldlM act (view s) = some g) : view t = g := by
  induction h with
  | done s => exact Option.some.inj hg
  | step h ih =>
      rw [← hstep] at hg
      exact ih hg
  | interrupt hi h ih =>
      obtain ⟨g', hg', hrest⟩ := Option.bind_eq_some_iff.mp hg
      rw [← hint _ _ _ _ hi hg'] at hrest
      exact ih hrest

end Injected

/-! ## 4. A flat machine -/

/-- A table with the code segment `0x10` and the data segment `0x18`, both all of memory. -/
def flatTable : List UInt8 :=
  List.replicate 16 0 ++ [0xFF, 0xFF, 0, 0, 0, 0x9A, 0xCF, 0, 0xFF, 0xFF, 0, 0, 0, 0x92, 0xCF, 0]

/-- The memory that holds it at `0x2000`. -/
def flatMemory : Memory := fun a => (flatTable[(a - 0x2000).toNat]?).getD 0

/-- Protected mode with that table, and a stack that begins at `0x1000`. -/
def flatMachine (mem : Memory) : State where
  reg := fun r => if r = .esp then 0x1000 else 0
  seg := fun r => if r = .cs then ⟨0x10, 0, true⟩ else ⟨0x18, 0, true⟩
  eflags := 0x202
  cr0 := 1
  gdtr := ⟨31, 0x2000⟩
  mem := mem
  log := []

theorem flatMachine_coherent {mem : Memory}
    (h : ∀ a : UInt32, (a - 0x2000).toNat ≤ 31 → mem a = flatMemory a) (r : SegReg) :
    (flatMachine mem).Coherent r := by
  have hflat : (flatMachine flatMemory).Coherent r := by
    unfold State.Coherent
    cases r <;> decide
  have htable : SameTable (flatMachine flatMemory) (flatMachine mem) := ⟨rfl, rfl, h⟩
  exact htable.coherent rfl rfl hflat

/-- It can be interrupted, wherever the handlers have their variables above the table. -/
theorem flatMachine_interruptible {env : Env} {own : UInt32 → Prop} {mem : Memory} {need : Nat}
    (hneed : need ≤ 0x1000) (hdevice : ∀ a : UInt32, a.toNat < 0x1000 → env.device a = false)
    (hown : ∀ a, own a → 0x2020 ≤ a.toNat)
    (h : ∀ a : UInt32, (a - 0x2000).toNat ≤ 31 → mem a = flatMemory a) :
    Interruptible env own 0 need 0x10 (flatMachine mem) where
  flat := ⟨rfl, rfl⟩
  room := (Nat.zero_add need).symm ▸ hneed
  stack := by
    have htop : ((flatMachine mem).reg .esp).toNat = 0x1000 := rfl
    refine ⟨by omega, fun a _ hhi => hdevice a hhi, fun a _ hhi ha => ?_⟩
    have hlo := hown a ha
    omega
  protectedMode := (by decide : (1 : UInt32).toNat.testBit 0 = true)
  coherent := flatMachine_coherent h
  kernelCode := rfl
  direction := (by decide : (0x202 : UInt32) &&& 0x400 = 0)
  table := by
    intro a ha
    have hin : (a - 0x2000).toNat < 32 := Nat.lt_succ_of_le ha
    rw [toNat_sub_lt_iff (by decide)] at hin
    have hbase : (0x2000 : UInt32).toNat = 0x2000 := rfl
    have htop : ((flatMachine mem).reg .esp).toNat = 0x1000 := rfl
    refine ⟨fun ha' => ?_, .inr (by omega)⟩
    have hlo := hown a ha'
    omega

/-- A C function that changes its own variables and returns. -/
def simpleFunction (f : State → Memory) (s : State) : State :=
  { s.setReg .esp (s.reg .esp + 4) with mem := f s }

theorem cdecl_simple {own : UInt32 → Prop} {lo need n : Nat} {f : State → Memory}
    (h : ∀ s a, ¬ own a → f s a = s.mem a) : Cdecl own lo need n (simpleFunction f) := by
  intro s hs
  refine ⟨⟨fun r hr => setReg_of_ne (s := s) ?_, rfl, rfl, rfl, fun a ha _ => h s a ha,
    hs.direction⟩, ?_⟩
  · rintro rfl
    exact absurd hr (by decide)
  · show (s.setReg .esp (s.reg .esp + 4)).reg .esp = _
    exact setReg_self

/-- An environment of such functions, without devices in memory. -/
def simpleEnv (inb : UInt8 → State → UInt8) (f : UInt32 → State → Memory) : Env where
  device := fun _ => false
  inb := inb
  debugReg := fun _ _ => 0
  status := fun _ => 0
  returnAddress := fun _ => 0
  callee := fun target => simpleFunction (f target)

end X86
