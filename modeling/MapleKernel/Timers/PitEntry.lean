/-
  File:      Timers/PitEntry.lean
  Subject:   THE ENTRY POINT OF THE TIMER'S INTERRUPT (`pit_interrupt_handler.asm`), and its two
             ways.

  On the quick way nothing is called: the interrupt is noted in `pit_interrupt_handled` and
  acknowledged. Which way is taken is decided by the four bytes at `quick_pit`, a `bool` of one byte
  in C; the same four bytes are what is stored at `pit_interrupt_handled`, a `bool` too.

  * `pitInterruptHandlerAsm` -- the listing;
  * `shortWay`, `longWay` -- its straight parts;
  * `pit_serves` -- on both ways, whatever was interrupted finds everything as it was; the C handler
    is called once, on the long way only, and the quick way overwrites the three bytes behind
    `pit_interrupt_handled` with those behind `quick_pit`.
-/
import MapleKernel.Lib.X86.Interrupt
import MapleKernel.Lib.X86.Rules

namespace MapleKernel.Timers

open X86

/-! ## 1. The listing -/

inductive PitLabel where
  | longPit
  deriving DecidableEq, Repr

/-- Where the linker puts what the code names. -/
structure PitLinked where
  quickPit : Nat
  pitInterruptHandled : Nat
  pitInterruptHandler : UInt32

/-- `EOI_MMIO_ADDR`. -/
def eoiMmioAddr : Nat := 0xFEE000B0

def variableAt (k : Nat) : Mem := ⟨.ds, .w32, none, .ofNat k⟩

def pitInterruptHandlerAsm (l : PitLinked) : List (Line PitLabel) :=
  [ .instr (.push (.reg .eax)),
    .instr (.mov .w32 (.reg .eax) (.mem (variableAt l.quickPit))),
    .instr (.test .w32 (.reg .eax) (.reg .eax)),
    .jz .longPit,
    -- quick
    .instr (.mov .w32 (.mem (variableAt l.pitInterruptHandled)) (.reg .eax)),
    .instr (.mov .w32 (.mem (variableAt eoiMmioAddr)) (.imm 0)),
    .instr (.pop .w32 .eax),
    .iret,
    .label .longPit .w32,
    .instr (.pop .w32 .eax),
    .instr .pusha,
    .instr (.pushSeg .ds),
    .instr (.pushSeg .es),
    .instr (.pushSeg .fs),
    .instr (.pushSeg .gs),
    .instr (.call l.pitInterruptHandler),
    .instr (.popSeg .gs),
    .instr (.popSeg .fs),
    .instr (.popSeg .es),
    .instr (.popSeg .ds),
    .instr .popa,
    .iret ]

/-- The straight parts. -/
def decideWay (l : PitLinked) : List Instr :=
  [.mov .w32 (.reg .eax) (.mem (variableAt l.quickPit)), .test .w32 (.reg .eax) (.reg .eax)]

def shortWay (l : PitLinked) : List Instr :=
  [.mov .w32 (.mem (variableAt l.pitInterruptHandled)) (.reg .eax),
    .mov .w32 (.mem (variableAt eoiMmioAddr)) (.imm 0)]

def longWay (l : PitLinked) : List Instr :=
  .pop .w32 .eax :: (saveAll ++ (.call l.pitInterruptHandler :: restoreAll))

theorem pitInterruptHandlerAsm_eq (l : PitLinked) :
    pitInterruptHandlerAsm l = (.push (.reg .eax) :: decideWay l).map .instr ++ (.jz .longPit ::
      ((shortWay l ++ [Instr.pop .w32 .eax]).map .instr ++ (.iret :: .label .longPit .w32 ::
        ((longWay l).map .instr ++ [.iret])))) := rfl

theorem behind_longPit (l : PitLinked) :
    behind .longPit (pitInterruptHandlerAsm l) =
      some (.w32, (longWay l).map .instr ++ [.iret]) := rfl

/-! ## 2. An interrupt -/

/-- The variables are apart from the stack, and the acknowledgement goes to a device. -/
structure PitLinked.Placed (l : PitLinked) (env : Env) (own : UInt32 → Prop) (lo top : Nat) :
    Prop where
  handled : ∀ x : UInt32, l.pitInterruptHandled ≤ x.toNat → x.toNat < l.pitInterruptHandled + 4 →
    own x ∧ env.device x = false
  handledFits : l.pitInterruptHandled + 4 < 2 ^ 32
  quick : l.quickPit + 4 ≤ lo ∨ top ≤ l.quickPit
  quickFits : l.quickPit + 4 ≤ 2 ^ 32
  eoi : env.device (.ofNat eoiMmioAddr) = true

/-- The four bytes at `quick_pit`. -/
def PitLinked.quickWord (l : PitLinked) (m : Memory) : Nat := load m (.ofNat l.quickPit) 4

/-- The handler's share of the stack: the words of the processor, and what is saved. -/
def pitStack : Nat := 64

/-- **A tick was served**: `u` is what the interrupted program goes on with. -/
structure PitServed (env : Env) (own : UInt32 → Prop) (lo need : Nat) (l : PitLinked)
    (s u : State) : Prop where
  restores : Restores own lo s u
  quickLog : l.quickWord s.mem ≠ 0 → u.log = s.log ++ [.device (.ofNat eoiMmioAddr) 0]
  quickCopy : l.quickWord s.mem ≠ 0 → ∀ i < 4,
    u.mem (.ofNat (l.pitInterruptHandled + i)) = s.mem (.ofNat (l.quickPit + i))
  quickOthers : l.quickWord s.mem ≠ 0 → ∀ x : UInt32, own x →
    x.toNat < l.pitInterruptHandled ∨ l.pitInterruptHandled + 4 ≤ x.toNat → u.mem x = s.mem x
  long : l.quickWord s.mem = 0 → ∃ e, Enterable lo need e ∧
    e.log = s.log ++ [.call l.pitInterruptHandler] ∧ (∀ x, own x → e.mem x = s.mem x) ∧
      u.mem = (env.callee l.pitInterruptHandler e).mem ∧
        u.log = (env.callee l.pitInterruptHandler e).log

section Ways

variable {env : Env} {own : UInt32 → Prop} {lo need : Nat} {l : PitLinked} {sel : UInt16}
  {eip : UInt32} {s t p : State}

/-- The four bytes are loaded and tested. -/
theorem decideWay_ok (l : PitLinked) (hds : (p.seg .ds).base = 0) :
    After env (decideWay l) (fun q => ∃ R F, q = p.upd R F p.mem ∧
      (R .eax).toNat = l.quickWord p.mem ∧ (∀ r, r ≠ .eax → R r = p.reg r) ∧
      q.zf = decide (l.quickWord p.mem = 0) ∧
      F &&& systemFlags = p.eflags &&& systemFlags) p := by
  show After env (decideWay l) _ (p.upd p.reg p.eflags p.mem)
  refine after_load hds (by simp) fun R hR => ?_
  have heax : (R .eax).toNat = l.quickWord p.mem := by
    have hvalue : R .eax = .ofNat (l.quickWord p.mem) := hR.value
    rw [hvalue]
    exact UInt32.toNat_ofNat_of_lt' load_lt
  refine after_testSelf fun F hzf hF => after_nil ⟨R, F, rfl, heax, hR.others, ?_, hF⟩
  rw [hzf, ← heax]
  exact decide_eq_decide.mpr UInt32.toNat_inj.symm

/-- **The quick way.** -/
theorem shortWay_ok (h : Interruptible env own lo (need + pitStack) sel s)
    (hl : l.Placed env own lo (s.reg .esp).toNat) (hds : (s.seg .ds).base = 0)
    (hp : Begun lo [.eax] (s.reg .eax :: s.returnWords eip) s p)
    (heax : (p.reg .eax).toNat = l.quickWord s.mem) :
    ∃ z u, execs env (shortWay l ++ [.pop .w32 .eax]) p = some z ∧ z.iret = some (.iret eip, u) ∧
      Restores own lo s u ∧ u.log = s.log ++ [.device (.ofNat eoiMmioAddr) 0] ∧
      ∀ x, own x → u.mem x =
        store s.mem (.ofNat l.pitInterruptHandled) 4 (l.quickWord s.mem) x := by
  have hds' : (p.seg .ds).base = 0 := by
    rw [hp.seg]
    exact hds
  have hnat : (UInt32.ofNat l.pitInterruptHandled).toNat = l.pitInterruptHandled :=
    UInt32.toNat_ofNat_of_lt' (by have hfits := hl.handledFits; rw [UInt32.size]; omega)
  have hdev : env.device (.ofNat l.pitInterruptHandled) = false :=
    (hl.handled _ (by rw [hnat]) (by rw [hnat]; omega)).2
  have hstore : After env (shortWay l) (fun q => q = { p with
      mem := store p.mem (.ofNat l.pitInterruptHandled) 4 (l.quickWord s.mem)
      log := p.log ++ [.device (.ofNat eoiMmioAddr) 0] }) p := by
    show After env (shortWay l) _ (p.upd p.reg p.eflags p.mem)
    refine after_store hds' (by simp) hdev ?_
    refine after_storeDevice hds' (by simp) hl.eoi (after_nil ?_)
    rw [← heax]
    rfl
  obtain ⟨q, hx, hq⟩ := hstore
  have hinside : Inside own lo [.eax] (s.reg .eax :: s.returnWords eip) s q := by
    refine ⟨hp.stacked.weaken.resume h.stack (by rw [hq]) (by rw [hq]) fun x hx _ => ?_,
      fun r hr hr' => by rw [hq]; exact hp.reg r hr hr', by rw [hq]; exact hp.seg,
      by rw [hq]; exact hp.cr0, by rw [hq]; exact hp.gdtr⟩
    rw [hq]
    refine store_place_of_apart hl.handledFits ?_
    by_contra hin
    rw [not_or, Nat.not_lt, Nat.not_le] at hin
    exact hx (hl.handled x hin.1 hin.2).1
  obtain ⟨z, hpop, hz, hzmem, hzcontrol⟩ := hinside.popReg env h.stack.fits (by decide)
  obtain ⟨u, hu, hrestores, humem, hulog⟩ := restores_of_iret h hz
  refine ⟨z, u, ?_, hu, hrestores, ?_, fun x hown => ?_⟩
  · rw [execs_append hx, execs_cons hpop, execs]
  · rw [hulog, hzcontrol.log, hq, ← hp.log]
  · have hout : x.toNat < lo ∨ (s.reg .esp).toNat ≤ x.toNat := by
      by_contra hin
      rw [not_or, Nat.not_lt, Nat.not_le] at hin
      exact h.stack.own x hin.1 hin.2 hown
    have hsame : p.mem x = s.mem x := hp.stacked.frame x not_false hout
    rw [humem, hzmem, hq]
    show store p.mem _ 4 _ x = _
    rw [store, store, hsame]

/-- **The long way.** -/
theorem longWay_ok (h : Interruptible env own lo (need + pitStack) sel s)
    (hf : Cdecl own lo need 0 (env.callee l.pitInterruptHandler))
    (hp : Begun lo [.eax] (s.reg .eax :: s.returnWords eip) s p) :
    ∃ z u e, execs env (longWay l) p = some z ∧ z.iret = some (.iret eip, u) ∧
      Restores own lo s u ∧ Enterable lo need e ∧
      e.log = s.log ++ [.call l.pitInterruptHandler] ∧ (∀ x, own x → e.mem x = s.mem x) ∧
      u.mem = (env.callee l.pitInterruptHandler e).mem ∧
      u.log = (env.callee l.pitInterruptHandler e).log := by
  have hroom := h.room
  have hstack : pitStack = 64 := rfl
  have hwords : (s.returnWords eip).length = 3 := rfl
  obtain ⟨q, hpop, hq⟩ := hp.popReg env h.stack.fits (by decide)
  have hqdepth := hq.stacked.depth
  obtain ⟨g, hx₁, hg, honly, hafter⟩ := hq.around h (by omega)
  have hgdepth := hg.depth
  rw [List.length_append] at hgdepth
  have hsaved : q.saved.length = 12 := rfl
  have hgdf : g.eflags &&& State.directionFlag = 0 := by
    rw [honly.eflags]
    exact hq.direction
  have hgroom : lo + need + 4 ≤ (g.reg .esp).toNat := by omega
  obtain ⟨hentry, henter, helog⟩ :=
    hg.entry (f := l.pitInterruptHandler) h.stack.unowned hgroom hgdf
  obtain ⟨hkept, hesp⟩ := hg.weaken.call h.stack hf (by omega) hgdf
  obtain ⟨z, hx₂, hz, -, hzmem, hzlog⟩ := hafter _
    ⟨hesp, hkept.seg, hkept.cr0, hkept.gdtr, hkept.mem⟩
  obtain ⟨u, hu, hrestores, humem, hulog⟩ := restores_of_iret h hz
  refine ⟨z, u, g.entry env l.pitInterruptHandler, ?_, hu, hrestores, henter, ?_, fun x hown => ?_,
    humem.trans hzmem, hulog.trans hzlog⟩
  · rw [longWay, execs_cons hpop, execs_append hx₁, execs_cons exec_call]
    exact hx₂
  · rw [helog, honly.log, hq.log]
  · refine hentry.frame x not_false ?_
    by_contra hin
    rw [not_or, Nat.not_lt, Nat.not_le] at hin
    exact h.stack.own x hin.1 hin.2 hown

/-- `eax` is saved, and the word loaded. -/
theorem begun_decideWay (h : Interruptible env own lo (need + pitStack) sel s)
    (hl : l.Placed env own lo (s.reg .esp).toNat) (hds : (s.seg .ds).base = 0)
    (hd : Delivered lo (s.returnWords eip) s t) :
    ∃ q, execs env (.push (.reg .eax) :: decideWay l) t = some q ∧
      Begun lo [.eax] (s.reg .eax :: s.returnWords eip) s q ∧
      (q.reg .eax).toNat = l.quickWord s.mem ∧ q.zf = decide (l.quickWord s.mem = 0) := by
  have hroom := h.room
  have hstack : pitStack = 64 := rfl
  have htdepth := hd.stacked.depth
  have hwords : (s.returnWords eip).length = 3 := rfl
  have hpush := (hd.begun h).push h (by omega) (t.reg .eax)
  obtain ⟨p, hpdef⟩ : ∃ p, t.push env .w32 (t.reg .eax) = p := ⟨_, rfl⟩
  have hx₁ : exec env (.push (.reg .eax)) t = some p := congrArg some hpdef
  rw [hpdef, hd.reg .eax (by decide)] at hpush
  have hdecide : After env (decideWay l) _ p :=
    decideWay_ok l (by rw [hpush.seg]; exact hds)
  obtain ⟨q, hx₂, R, F, hq, heax, hothers, hzf, hF⟩ := hdecide
  have hquick : l.quickWord p.mem = l.quickWord s.mem := by
    refine load_congr_region hl.quickFits fun x hlo hhi => hpush.stacked.frame x not_false ?_
    have hout := hl.quick
    omega
  rw [hquick] at heax hzf
  have hmask : systemFlags &&& State.directionFlag = State.directionFlag := rfl
  have hdf : F &&& State.directionFlag = 0 := by
    rw [← hmask, ← UInt32.and_assoc, hF, UInt32.and_assoc, hmask]
    exact hpush.direction
  refine ⟨q, ?_, ?_, by rw [hq]; exact heax, hzf⟩
  · rw [execs_cons hx₁, hx₂]
  · rw [hq]
    exact hpush.set (by decide) hothers hdf

/-- **Every tick is served**, on the way that the four bytes at `quick_pit` decide. -/
theorem pit_serves (h : Interruptible env own lo (need + pitStack) sel s)
    (hl : l.Placed env own lo (s.reg .esp).toNat) (hds : (s.seg .ds).base = 0)
    (hf : Cdecl own lo need 0 (env.callee l.pitInterruptHandler)) (eip : UInt32) :
    ∃ t u, s.deliver env sel eip = some t ∧
      Runs env (pitInterruptHandlerAsm l) (pitInterruptHandlerAsm l) t (some (.iret eip, u)) ∧
      PitServed env own lo need l s u := by
  have hstack : pitStack = 64 := rfl
  obtain ⟨t, ht, hd⟩ := h.deliver eip (by omega)
  obtain ⟨q, hstart, hq, heax, hzf⟩ := begun_decideWay h hl hds hd
  by_cases hway : l.quickWord s.mem = 0
  · obtain ⟨z, u, e, hx, hu, hrestores, henter, helog, heown, humem, hulog⟩ := longWay_ok h hf hq
    refine ⟨t, u, ht, ?_, hrestores, fun hne => absurd hway hne, fun hne => absurd hway hne,
      fun hne => absurd hway hne, fun _ => ⟨e, henter, helog, heown, humem, hulog⟩⟩
    nth_rewrite 2 [pitInterruptHandlerAsm_eq]
    rw [runs_execs hstart, runs_jz_taken (by rw [hzf, decide_eq_true hway]) (behind_longPit l),
      runs_execs hx, ← hu]
    exact runs_iret
  · obtain ⟨z, u, hx, hu, hrestores, hulog, humem⟩ := shortWay_ok h hl hds hq heax
    refine ⟨t, u, ht, ?_, hrestores, fun _ => hulog, fun _ i hi => ?_, fun _ x hown hout => ?_,
      fun heq => absurd heq hway⟩
    · nth_rewrite 2 [pitInterruptHandlerAsm_eq]
      rw [runs_execs hstart, runs_jz_not_taken (by rw [hzf, decide_eq_false hway]), runs_execs hx,
        ← hu]
      exact runs_iret
    · have hplace : (UInt32.ofNat (l.pitInterruptHandled + i)).toNat = l.pitInterruptHandled + i :=
        UInt32.toNat_ofNat_of_lt' (by have hfits := hl.handledFits; rw [UInt32.size]; omega)
      rw [humem _ (hl.handled _ (by omega) (by omega)).1, UInt32.ofNat_add, UInt32.ofNat_add]
      exact store_load (by decide) hi
    · rw [humem x hown]
      exact store_place_of_apart hl.handledFits hout

end Ways

/-- A flat machine: `quick_pit` at `0x6000`, `pit_interrupt_handled` at `0x5000`, something else in
the bytes behind both, and the handler's count at `0x5004`. -/
def tickLinked : PitLinked := ⟨0x6000, 0x5000, 0x7000⟩

def tickOwn (x : UInt32) : Prop := 0x5000 ≤ x.toNat ∧ x.toNat < 0x5005

instance (x : UInt32) : Decidable (tickOwn x) := inferInstanceAs (Decidable (_ ∧ _))

/-- A C handler that counts. -/
def tickHandler (s : State) : Memory := Function.update s.mem 0x5004 (s.mem 0x5004 + 1)

def tickEnv : Env :=
  { simpleEnv (fun _ _ => 0) fun _ => tickHandler with device := fun a => a == .ofNat eoiMmioAddr }

def tickMemory (quick : Bool) : Memory := fun a =>
  if a = 0x6000 ∨ a = 0x6003 then quick.toUInt8
  else if a = 0x5001 ∨ a = 0x5004 then 7
  else flatMemory a

theorem tickHandler_frame (s : State) (x : UInt32) (hx : ¬ tickOwn x) :
    tickHandler s x = s.mem x := by
  refine Function.update_of_ne ?_ _ _
  rintro rfl
  exact hx ⟨by decide, by decide⟩

theorem tick_placed (quick : Bool) :
    tickLinked.Placed tickEnv tickOwn 0 ((flatMachine (tickMemory quick)).reg .esp).toNat := by
  have htop : ((flatMachine (tickMemory quick)).reg .esp).toNat = 0x1000 := rfl
  refine ⟨fun x hlo hhi => ⟨⟨hlo, Nat.lt_succ_of_lt hhi⟩, ?_⟩, by decide,
    .inr (by rw [htop]; decide), by decide, by decide⟩
  refine beq_false_of_ne fun heq => ?_
  rw [heq] at hhi
  exact absurd hhi (by decide)

theorem tick_interruptible (quick : Bool) :
    Interruptible tickEnv tickOwn 0 (0x100 + pitStack) 0x10 (flatMachine (tickMemory quick)) := by
  refine flatMachine_interruptible (by decide) (fun a ha => beq_false_of_ne ?_)
    (fun a ha => le_trans (by decide) ha.1) fun a ha => ?_
  · rintro rfl
    exact absurd ha (by decide)
  · have hin : (a - 0x2000).toNat < 32 := Nat.lt_succ_of_le ha
    rw [toNat_sub_lt_iff (by decide)] at hin
    have hbase : (0x2000 : UInt32).toNat = 0x2000 := rfl
    have hne : ∀ b : UInt32, 0x2020 ≤ b.toNat → a ≠ b := by
      rintro b hb rfl
      omega
    rw [tickMemory, if_neg (not_or.mpr ⟨hne _ (by decide), hne _ (by decide)⟩),
      if_neg (not_or.mpr ⟨hne _ (by decide), hne _ (by decide)⟩)]

/-- One tick on each way: the word at `quick_pit` is copied, or the handler counts. -/
theorem pit_serves_flat :
    (∃ t u, (flatMachine (tickMemory true)).deliver tickEnv 0x10 0x3000 = some t ∧
      Runs tickEnv (pitInterruptHandlerAsm tickLinked) (pitInterruptHandlerAsm tickLinked) t
        (some (.iret 0x3000, u)) ∧
      u.mem 0x5000 = 1 ∧ u.mem 0x5001 = 0 ∧ u.mem 0x5003 = 1 ∧ u.mem 0x5004 = 7) ∧
    ∃ t u, (flatMachine (tickMemory false)).deliver tickEnv 0x10 0x3000 = some t ∧
      Runs tickEnv (pitInterruptHandlerAsm tickLinked) (pitInterruptHandlerAsm tickLinked) t
        (some (.iret 0x3000, u)) ∧
      u.mem 0x5001 = 7 ∧ u.mem 0x5004 = 8 := by
  have hcdecl : Cdecl tickOwn 0 0x100 0 (tickEnv.callee tickLinked.pitInterruptHandler) :=
    cdecl_simple tickHandler_frame
  constructor
  · obtain ⟨t, u, ht, hruns, hserved⟩ := pit_serves (tick_interruptible true) (tick_placed true) rfl
      hcdecl 0x3000
    have hquick : tickLinked.quickWord (flatMachine (tickMemory true)).mem ≠ 0 := by decide
    exact ⟨t, u, ht, hruns, hserved.quickCopy hquick 0 (by decide),
      hserved.quickCopy hquick 1 (by decide), hserved.quickCopy hquick 3 (by decide),
      hserved.quickOthers hquick 0x5004 (by decide) (by decide)⟩
  · obtain ⟨t, u, ht, hruns, hserved⟩ := pit_serves (tick_interruptible false) (tick_placed false)
      rfl hcdecl 0x3000
    obtain ⟨e, -, -, hsame, hmem, -⟩ := hserved.long (by decide)
    have hcount : u.mem = Function.update e.mem 0x5004 (e.mem 0x5004 + 1) := hmem
    refine ⟨t, u, ht, hruns, ?_, ?_⟩
    · rw [hcount, Function.update_of_ne (by decide), hsame 0x5001 (by decide)]
      rfl
    · rw [hcount, Function.update_self, hsame 0x5004 (by decide)]
      rfl

end MapleKernel.Timers
