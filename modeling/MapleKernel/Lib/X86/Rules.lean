/-
  File:      Lib/X86/Rules.lean
  Subject:   RULES FOR STRAIGHT CODE: an assertion before each instruction, from the one behind it.

  `After is P s` says that the instructions go through from `s`, and that `P` holds then. The rules
  are about states `s.upd R F M`, in which registers, flags and memory have changed since `s`: what
  is assumed of the segments is assumed once, of `s`.

  * `after_append` -- parts of a listing;
  * `after_load`, `after_store` -- variables in a data segment that begins at 0;
  * `after_alu`, `after_movToSegs` -- results of which the flags do not matter, and one selector
    into several segment registers.
-/
import MapleKernel.Lib.X86.Stack

namespace X86

/-! ## 1. The assertion -/

/-- The instructions go through, and `P` holds then. -/
def After (env : Env) (is : List Instr) (P : State → Prop) (s : State) : Prop :=
  ∃ t, execs env is s = some t ∧ P t

/-- Registers, flags and memory that have changed since `s`. -/
def State.upd (s : State) (R : Reg → UInt32) (F : UInt32) (M : Memory) : State :=
  { s with reg := R, eflags := F, mem := M }

/-- In `R'` the register `r`, or its low half, is set to `v`. -/
structure Sets (z : Size) (R : Reg → UInt32) (r : Reg) (v : UInt32) (R' : Reg → UInt32) : Prop where
  value : z.trunc (R' r) = z.trunc v
  high : z = .w16 → R' r &&& 0xFFFF0000 = R r &&& 0xFFFF0000
  others : ∀ q, q ≠ r → R' q = R q

section Rules

variable {env : Env} {is js : List Instr} {i : Instr} {P Q : State → Prop} {s t : State}
  {R : Reg → UInt32} {F : UInt32} {M : Memory} {z : Size} {r q : Reg} {k : Nat}

/-- A state that differs in nothing else. -/
theorem eq_upd (hseg : t.seg = s.seg) (hcr0 : t.cr0 = s.cr0) (hgdtr : t.gdtr = s.gdtr)
    (hlog : t.log = s.log) : t = s.upd t.reg t.eflags t.mem := by
  rw [State.upd, ← hseg, ← hcr0, ← hgdtr, ← hlog]

theorem trunc_trunc (v : UInt32) : z.trunc (z.trunc v) = z.trunc v := by
  cases z with
  | w32 => rfl
  | w16 =>
      rw [Size.trunc, Size.trunc, UInt32.and_assoc]
      rfl

theorem sets_setSized (v : UInt32) : Sets z s.reg r v (s.setSized z r v).reg := by
  cases z with
  | w32 => exact ⟨setReg_self, by nofun, fun q hq => setSized_of_ne hq⟩
  | w16 =>
      have hset : (s.setSized .w16 r v).reg r = s.reg r &&& 0xFFFF0000 ||| v &&& 0xFFFF :=
        setReg_self
      have hlow : v &&& 0xFFFF &&& 0xFFFF0000 = 0 := by
        rw [UInt32.and_assoc]
        exact UInt32.and_zero
      refine ⟨?_, fun _ => ?_, fun q hq => setSized_of_ne hq⟩
      swap
      · rw [hset, or_and_distrib, hlow, UInt32.or_zero, UInt32.and_assoc, UInt32.and_self]
      have hhigh : s.reg r &&& 0xFFFF0000 &&& 0xFFFF = 0 := by
        rw [UInt32.and_assoc]
        exact UInt32.and_zero
      rw [hset, Size.trunc, Size.trunc, or_and_distrib, hhigh, UInt32.and_assoc, UInt32.zero_or]
      rfl

/-- A register is set, and nothing is known of the flags but those of the system. -/
theorem setSized_upd (v : UInt32) :
    (s.upd R F M).setSized z r v = s.upd ((s.upd R F M).setSized z r v).reg F M := by
  cases z <;> rfl

theorem after_nil (h : P s) : After env [] P s := ⟨s, rfl, h⟩

theorem after_cons (h : exec env i s = some t) (hrest : After env is P t) :
    After env (i :: is) P s := by
  obtain ⟨u, hu, hP⟩ := hrest
  exact ⟨u, (execs_cons h).trans hu, hP⟩

/-- **Parts of a listing.** -/
theorem after_append (h : After env is (After env js P) s) : After env (is ++ js) P s := by
  obtain ⟨t, ht, u, hu, hP⟩ := h
  exact ⟨u, (execs_append ht).trans hu, hP⟩

theorem After.mono (h : After env is P s) (hPQ : ∀ t, P t → Q t) : After env is Q s := by
  obtain ⟨t, ht, hP⟩ := h
  exact ⟨t, ht, hPQ t hP⟩

/-! ## 2. Moves -/

/-- **A register is set.** -/
theorem after_set {v : UInt32}
    (hexec : exec env i (s.upd R F M) = some ((s.upd R F M).setSized z r v))
    (h : ∀ R', Sets z R r v R' → After env is P (s.upd R' F M)) :
    After env (i :: is) P (s.upd R F M) := by
  rw [setSized_upd] at hexec
  exact after_cons hexec (h _ (sets_setSized (s := s.upd R F M) v))

theorem after_movImm {v : UInt32}
    (h : ∀ R', Sets z R r (z.trunc v) R' → After env is P (s.upd R' F M)) :
    After env (.mov z (.reg r) (.imm v) :: is) P (s.upd R F M) := after_set rfl h

theorem after_movReg (h : ∀ R', Sets z R r (z.trunc (R q)) R' → After env is P (s.upd R' F M)) :
    After env (.mov z (.reg r) (.reg q) :: is) P (s.upd R F M) := after_set rfl h

theorem after_movFromSeg {g : SegReg}
    (h : ∀ R', Sets .w16 R r (s.seg g).sel.toUInt32 R' → After env is P (s.upd R' F M)) :
    After env (.movFromSeg r g :: is) P (s.upd R F M) := after_set rfl h

theorem after_movFromCr0 (h : ∀ R', Sets .w32 R r s.cr0 R' → After env is P (s.upd R' F M)) :
    After env (.movFromCr0 r :: is) P (s.upd R F M) := after_set (z := .w32) rfl h

/-- `cr0` is set; there is no paging without protection. -/
theorem after_movToCr0 (hpg : (R r).toNat.testBit 31 = true → (R r).toNat.testBit 0 = true)
    (h : After env is P ({ s with cr0 := R r }.upd R F M)) :
    After env (.movToCr0 r :: is) P (s.upd R F M) := by
  refine after_cons (if_neg ?_) h
  rintro ⟨hpg', hpe⟩
  exact hpe (hpg hpg')

/-- The address of a variable, in a data segment that begins at 0. -/
theorem addr_of_base {m : Mem} (h : (s.seg m.seg).base = 0) : s.addr m = s.offset m := by
  rw [State.addr, h, UInt32.zero_add]

theorem offset_plain {g : SegReg} (hk : z = .w16 → k < 2 ^ 16) :
    s.offset ⟨g, z, none, .ofNat k⟩ = .ofNat k := by
  have hadd : s.offset ⟨g, z, none, .ofNat k⟩ = z.trunc (.ofNat k) := by
    show z.trunc (0 + .ofNat k) = _
    rw [UInt32.zero_add]
  rw [hadd]
  cases z with
  | w32 => rfl
  | w16 =>
      have hk := hk rfl
      refine UInt32.toNat_inj.mp ?_
      rw [Size.trunc, UInt32.toNat_and, UInt32.toNat_ofNat_of_lt' (by rw [UInt32.size]; omega)]
      exact (Nat.and_two_pow_sub_one_eq_mod k 16).trans (Nat.mod_eq_of_lt hk)

theorem addr_plain (h : (s.seg .ds).base = 0) (hk : z = .w16 → k < 2 ^ 16) :
    s.addr ⟨.ds, z, none, .ofNat k⟩ = .ofNat k := by
  have hds : (s.seg (Mem.seg ⟨.ds, z, none, .ofNat k⟩)).base = 0 := h
  rw [addr_of_base hds, offset_plain hk]

/-- **A variable is loaded.** -/
theorem after_load {z' : Size} (hds : (s.seg .ds).base = 0) (hk : z' = .w16 → k < 2 ^ 16)
    (h : ∀ R', Sets z R r (.ofNat (load M (.ofNat k) z.bytes)) R' → After env is P (s.upd R' F M)) :
    After env (.mov z (.reg r) (.mem ⟨.ds, z', none, .ofNat k⟩) :: is) P (s.upd R F M) := by
  refine after_set ?_ h
  have haddr : (s.upd R F M).addr ⟨.ds, z', none, .ofNat k⟩ = .ofNat k := addr_plain hds hk
  rw [exec, State.value, haddr]
  rfl

/-- **A word of the frame** is loaded. -/
theorem after_loadFrame {d : UInt32} (hss : (s.seg .ss).base = 0)
    (h : ∀ R', Sets z R r (.ofNat (load M (R .ebp + d) z.bytes)) R' →
      After env is P (s.upd R' F M)) :
    After env (.mov z (.reg r) (.mem ⟨.ss, .w32, some .ebp, d⟩) :: is) P (s.upd R F M) := by
  refine after_set ?_ h
  have haddr : (s.upd R F M).addr ⟨.ss, .w32, some .ebp, d⟩ = R .ebp + d := by
    have hbase : ((s.upd R F M).seg (Mem.seg ⟨.ss, .w32, some .ebp, d⟩)).base = 0 := hss
    rw [addr_of_base hbase]
    rfl
  rw [exec, State.value, haddr]
  rfl

/-- The low half is set in a register that is 0. -/
theorem Sets.half_of_zero {R' : Reg → UInt32} {v : UInt32} (h : Sets .w16 R r v R')
    (hzero : R r = 0) : R' r = v &&& 0xFFFF := by
  have hlow : R' r &&& 0xFFFF = v &&& 0xFFFF := h.value
  have hhigh : R' r &&& 0xFFFF0000 = 0 := by
    rw [h.high rfl, hzero]
    exact UInt32.zero_and
  have hsplit : R' r = R' r &&& 0xFFFF ||| R' r &&& 0xFFFF0000 := by
    have hall : (0xFFFF : UInt32) ||| 0xFFFF0000 = -1 := rfl
    rw [UInt32.and_comm, UInt32.and_comm (R' r) 0xFFFF0000, ← or_and_distrib, hall,
      UInt32.and_comm]
    exact UInt32.and_neg_one.symm
  rw [hsplit, hhigh, UInt32.or_zero, hlow]

theorem after_movFromDr {n : UInt8} {v : UInt32} (hv : env.debugReg n (s.upd R F M) = v)
    (h : ∀ R', Sets .w32 R r v R' → After env is P (s.upd R' F M)) :
    After env (.movFromDr r n :: is) P (s.upd R F M) :=
  after_set (z := .w32) (by rw [exec, hv]; rfl) h

/-- A debug register is set. -/
theorem after_movToDr {n : UInt8}
    (h : After env is P ({ s with log := s.log ++ [Event.debug n (R r)] }.upd R F M)) :
    After env (.movToDr n r :: is) P (s.upd R F M) := after_cons rfl h

/-- **A variable is stored.** -/
theorem after_store {z' : Size} (hds : (s.seg .ds).base = 0) (hk : z' = .w16 → k < 2 ^ 16)
    (hdev : env.device (.ofNat k) = false)
    (h : After env is P (s.upd R F (store M (.ofNat k) z.bytes (z.trunc (R r)).toNat))) :
    After env (.mov z (.mem ⟨.ds, z', none, .ofNat k⟩) (.reg r) :: is) P (s.upd R F M) := by
  refine after_cons ?_ h
  have haddr : (s.upd R F M).addr ⟨.ds, z', none, .ofNat k⟩ = .ofNat k := addr_plain hds hk
  rw [exec, haddr, storeAt_plain hdev]
  rfl

/-- A constant is written to a register of a device. -/
theorem after_storeDevice {z' : Size} {v : UInt32} (hds : (s.seg .ds).base = 0)
    (hk : z' = .w16 → k < 2 ^ 16) (hdev : env.device (.ofNat k) = true)
    (h : After env is P
      ({ s with log := s.log ++ [Event.device (.ofNat k) (z.trunc v).toNat] }.upd R F M)) :
    After env (.mov z (.mem ⟨.ds, z', none, .ofNat k⟩) (.imm v) :: is) P (s.upd R F M) := by
  refine after_cons ?_ h
  have haddr : (s.upd R F M).addr ⟨.ds, z', none, .ofNat k⟩ = .ofNat k := addr_plain hds hk
  rw [exec, haddr, State.storeAt, if_pos hdev]
  rfl

theorem after_lea {g : SegReg} {z' : Size} (hk : z' = .w16 → k < 2 ^ 16)
    (h : ∀ R', Sets z R r (.ofNat k) R' → After env is P (s.upd R' F M)) :
    After env (.lea z r ⟨g, z', none, .ofNat k⟩ :: is) P (s.upd R F M) := by
  refine after_set ?_ h
  have hoff : (s.upd R F M).offset ⟨g, z', none, .ofNat k⟩ = .ofNat k := offset_plain hk
  rw [exec, hoff]

/-! ## 3. Flags -/

/-- The flags that a result does not set. -/
def systemFlags : UInt32 := ~~~(State.zeroFlag ||| State.otherStatus)

theorem setStatus_systemFlags (env : Env) (s : State) (v : UInt32) :
    (s.setStatus env v).eflags &&& systemFlags = s.eflags &&& systemFlags := by
  have hother : State.otherStatus &&& systemFlags = 0 := rfl
  have hzero : (if v = 0 then State.zeroFlag else 0) &&& systemFlags = 0 := by
    split <;> rfl
  show (s.eflags &&& systemFlags ||| _ ||| _) &&& systemFlags = _
  rw [or_and_distrib, or_and_distrib, hzero, UInt32.and_assoc, UInt32.and_assoc, hother,
    UInt32.and_self, UInt32.and_zero, UInt32.or_zero, UInt32.or_zero]

/-- **A result**, with whatever status flags. -/
theorem after_alu {op : Alu} {src : Operand} {v : UInt32} (hv : (s.upd R F M).value z src = v)
    (h : ∀ R' F', Sets z R r (z.trunc (op.result (z.trunc (R r)) v)) R' →
      F' &&& systemFlags = F &&& systemFlags → After env is P (s.upd R' F' M)) :
    After env (.alu op z r src :: is) P (s.upd R F M) := by
  obtain ⟨w, hw⟩ : ∃ w, z.trunc (op.result (z.trunc (R r)) v) = w := ⟨_, rfl⟩
  rw [hw] at h
  have hexec : exec env (.alu op z r src) (s.upd R F M) =
      some (((s.upd R F M).setSized z r w).setStatus env w) := by
    rw [← hw, ← hv]
    rfl
  have hflags := setStatus_systemFlags env ((s.upd R F M).setSized z r w) w
  rw [setSized_eflags] at hflags
  have hupd : ((s.upd R F M).setSized z r w).setStatus env w =
      s.upd ((s.upd R F M).setSized z r w).reg
        (((s.upd R F M).setSized z r w).setStatus env w).eflags M := by
    cases z <;> rfl
  rw [hupd] at hexec
  exact after_cons hexec (h _ _ (sets_setSized (s := s.upd R F M) w) hflags)

theorem after_aluImm {op : Alu} {v : UInt32}
    (h : ∀ R' F', Sets z R r (z.trunc (op.result (z.trunc (R r)) (z.trunc v))) R' →
      F' &&& systemFlags = F &&& systemFlags → After env is P (s.upd R' F' M)) :
    After env (.alu op z r (.imm v) :: is) P (s.upd R F M) := after_alu rfl h

theorem after_aluReg {op : Alu}
    (h : ∀ R' F', Sets z R r (z.trunc (op.result (z.trunc (R r)) (z.trunc (R q)))) R' →
      F' &&& systemFlags = F &&& systemFlags → After env is P (s.upd R' F' M)) :
    After env (.alu op z r (.reg q) :: is) P (s.upd R F M) := after_alu rfl h

/-- The zero flag behind `setStatus`. -/
theorem zf_setStatus {v : UInt32} : (s.setStatus env v).zf = decide (v = 0) := by
  have hkept : ~~~(State.zeroFlag ||| State.otherStatus) &&& State.zeroFlag = 0 := rfl
  have hother : State.otherStatus &&& State.zeroFlag = 0 := rfl
  rw [State.zf, State.setStatus]
  dsimp only
  rw [or_and_distrib, or_and_distrib, UInt32.and_assoc, UInt32.and_assoc, hkept, hother,
    UInt32.and_zero, UInt32.and_zero, UInt32.zero_or, UInt32.zero_or]
  by_cases hv : v = 0
  · rw [if_pos hv, decide_eq_true hv]
    rfl
  · rw [if_neg hv, decide_eq_false hv]
    rfl

/-- A register is compared with 0. -/
theorem after_cmpZero
    (h : ∀ F', (s.upd R F' M).zf = decide (z.trunc (R r) = 0) →
      F' &&& systemFlags = F &&& systemFlags → After env is P (s.upd R F' M)) :
    After env (.cmp z (.reg r) (.imm 0) :: is) P (s.upd R F M) := by
  have hvalue : z.trunc ((s.upd R F M).value z (.reg r) - (s.upd R F M).value z (.imm 0)) =
      z.trunc (R r) := by
    cases z with
    | w16 =>
        show (R r &&& 0xFFFF) - (0 &&& 0xFFFF) &&& 0xFFFF = R r &&& 0xFFFF
        rw [UInt32.zero_and, UInt32.sub_zero, UInt32.and_assoc]
        rfl
    | w32 => exact UInt32.sub_zero _
  refine after_cons rfl (h _ ?_ ?_)
  · rw [hvalue]
    exact zf_setStatus
  · exact setStatus_systemFlags env (s.upd R F M) _

/-- A register is tested. -/
theorem after_testSelf
    (h : ∀ F', (s.upd R F' M).zf = decide (z.trunc (R r) = 0) →
      F' &&& systemFlags = F &&& systemFlags → After env is P (s.upd R F' M)) :
    After env (.test z (.reg r) (.reg r) :: is) P (s.upd R F M) := by
  have hvalue : (s.upd R F M).value z (.reg r) &&& (s.upd R F M).value z (.reg r) =
      z.trunc (R r) := UInt32.and_self
  refine after_cons rfl (h _ ?_ ?_)
  · rw [hvalue]
    exact zf_setStatus
  · exact setStatus_systemFlags env (s.upd R F M) _

theorem after_cli (h : After env is P (s.upd R (F &&& ~~~State.interruptFlag) M)) :
    After env (.cli :: is) P (s.upd R F M) := after_cons rfl h

theorem after_std (h : After env is P (s.upd R (F ||| State.directionFlag) M)) :
    After env (.std :: is) P (s.upd R F M) := after_cons rfl h

theorem after_cld (h : After env is P (s.upd R (F &&& ~~~State.directionFlag) M)) :
    After env (.cld :: is) P (s.upd R F M) := after_cons rfl h

theorem directionFlag_of_std (F : UInt32) :
    (F ||| State.directionFlag) &&& State.directionFlag ≠ 0 := by
  intro hzero
  have hten : State.directionFlag.toNat.testBit 10 = true := by decide
  have hbit : ((F ||| State.directionFlag) &&& State.directionFlag).toNat.testBit 10 = true := by
    rw [UInt32.toNat_and, UInt32.toNat_or, Nat.testBit_and, Nat.testBit_or, hten, Bool.or_true,
      Bool.and_true]
  rw [hzero] at hbit
  exact Bool.false_ne_true hbit

/-- Neither interrupts nor string instructions that go down. -/
def Quiet (F : UInt32) : Prop := F &&& 0x600 = 0

theorem quiet_of_systemFlags {F' : UInt32} (h : F' &&& systemFlags = F &&& systemFlags)
    (hF : Quiet F) : Quiet F' := by
  have hmask : systemFlags &&& 0x600 = 0x600 := rfl
  rw [Quiet, ← hmask, ← UInt32.and_assoc, h, UInt32.and_assoc, hmask]
  exact hF

/-- A bit that a mask does not have. -/
theorem quiet_and (v : UInt32) (hF : Quiet F) : Quiet (F &&& v) := by
  rw [Quiet, UInt32.and_assoc, UInt32.and_comm v, ← UInt32.and_assoc, hF, UInt32.zero_and]

theorem quiet_cli (hF : F &&& State.directionFlag = 0) : Quiet (F &&& ~~~State.interruptFlag) := by
  have hmask : ~~~State.interruptFlag &&& 0x600 = State.directionFlag := rfl
  rw [Quiet, UInt32.and_assoc, hmask, hF]

theorem quiet_cld_std (hF : Quiet F) :
    Quiet ((F ||| State.directionFlag) &&& ~~~State.directionFlag) := by
  have hmask : State.directionFlag &&& ~~~State.directionFlag = 0 := rfl
  rw [or_and_distrib, hmask, UInt32.or_zero]
  exact quiet_and _ hF

/-! ## 4. The stack -/

/-- A push onto a flat stack. -/
theorem after_pushSeg {g : SegReg} (hflat : s.Flat) (hdev : env.device (R .esp - 4) = false)
    (h : ∀ R', Sets .w32 R .esp (R .esp - 4) R' → After env is P (s.upd R' F
      (store M (R .esp - 4) 4 (s.seg g).sel.toUInt32.toNat))) :
    After env (.pushSeg g :: is) P (s.upd R F M) := by
  have hpush := push_eq (s := s.upd R F M) (v := (s.seg g).sel.toUInt32) hflat hdev
  exact after_cons (congrArg some hpush)
    (h _ ⟨congrArg (Size.trunc .w32) (Function.update_self _ _ _), by nofun,
      fun q hq => Function.update_of_ne hq _ _⟩)

/-- A pop of a half from it. -/
theorem after_popHalf (hflat : s.Flat)
    (h : ∀ R', (∀ q, q ≠ .esp → q ≠ r → R' q = R q) → After env is P (s.upd R' F M)) :
    After env (.pop .w16 r :: is) P (s.upd R F M) := by
  have hdrop : (s.upd R F M).drop .w16 = s.upd (Function.update R .esp (R .esp + 2)) F M := by
    rw [State.drop, State.Flat.stackSize (s := s.upd R F M) hflat]
    rfl
  refine after_cons (by rw [exec, hdrop]; rfl) (h _ fun q hq hqr => ?_)
  exact (Function.update_of_ne hqr _ _).trans (Function.update_of_ne hq _ _)

/-! ## 5. The descriptor table -/

/-- The register of the table is stored. -/
theorem after_sgdt {z' : Size} (hds : (s.seg .ds).base = 0) (hk : z' = .w16 → k < 2 ^ 16)
    (hdev : env.device (.ofNat k) = false) (hdev' : env.device (.ofNat (k + 2)) = false)
    (h : After env is P (s.upd R F (store (store M (.ofNat k) 2 s.gdtr.limit.toNat)
      (.ofNat (k + 2)) 4 s.gdtr.base.toNat))) :
    After env (.sgdt ⟨.ds, z', none, .ofNat k⟩ :: is) P (s.upd R F M) := by
  refine after_cons ?_ h
  have haddr : (s.upd R F M).addr ⟨.ds, z', none, .ofNat k⟩ = .ofNat k := addr_plain hds hk
  have hnext : UInt32.ofNat k + 2 = .ofNat (k + 2) := (UInt32.ofNat_add k 2).symm
  rw [exec, haddr, hnext, storeAt_plain hdev, storeAt_plain hdev']
  rfl

/-- **Another table**; with operands of 16 bits the base has 24. -/
theorem after_lgdt {z' : Size} (limit : UInt16) (base : UInt32) (hds : (s.seg .ds).base = 0)
    (hk : z' = .w16 → k < 2 ^ 16) (hlimit : load M (.ofNat k) 2 = limit.toNat)
    (hbase : load M (.ofNat (k + 2)) 4 = base.toNat) (h24 : z = .w16 → base &&& 0xFFFFFF = base)
    (h : After env is P ({ s with gdtr := ⟨limit, base⟩ }.upd R F M)) :
    After env (.lgdt z ⟨.ds, z', none, .ofNat k⟩ :: is) P (s.upd R F M) := by
  refine after_cons ?_ h
  have haddr : (s.upd R F M).addr ⟨.ds, z', none, .ofNat k⟩ = .ofNat k := addr_plain hds hk
  have hnext : UInt32.ofNat k + 2 = .ofNat (k + 2) := (UInt32.ofNat_add k 2).symm
  have hlow : (s.upd R F M).loadAt .w16 (.ofNat k) = limit.toUInt32 := by
    show UInt32.ofNat (load M (.ofNat k) 2) = _
    rw [hlimit, ← UInt16.toNat_toUInt32, UInt32.ofNat_toNat]
  have hhigh : (s.upd R F M).loadAt .w32 (.ofNat (k + 2)) = base := by
    show UInt32.ofNat (load M (.ofNat (k + 2)) 4) = _
    rw [hbase, UInt32.ofNat_toNat]
  have hsame : (if z = .w16 then base &&& 0xFFFFFF else base) = base := by
    split
    · exact h24 ‹_›
    · rfl
  rw [exec, haddr, hnext, hlow, hhigh, hsame, UInt16.toUInt16_toUInt32]
  rfl

end Rules

/-! ## 6. Segment registers -/

section Segments

variable {env : Env} {s : State} {src : Reg} {sel : UInt16} {g : Seg}

/-- **Several segment registers are loaded** with one selector. -/
theorem execs_movToSegs (hsel : (s.reg src).toUInt16 = sel) (rs : List SegReg)
    (hload : ∀ r ∈ rs, ∀ seg : SegReg → Seg, (∀ q, seg q = s.seg q ∨ seg q = g) →
      ({ s with seg } : State).loadSeg r sel = some g) :
    execs env (rs.map fun r => .movToSeg r src) s =
      some { s with seg := fun q => if q ∈ rs then g else s.seg q } := by
  induction rs generalizing s with
  | nil => simp only [List.map_nil, execs, List.not_mem_nil, if_false]
  | cons r rs ih =>
      have hfirst : exec env (.movToSeg r src) s =
          some { s with seg := Function.update s.seg r g } := by
        have hhead := hload r List.mem_cons_self s.seg fun q => .inl rfl
        rw [exec, hsel, State.setSeg, show s.loadSeg r sel = some g from hhead]
        rfl
      have hor : ∀ q, Function.update s.seg r g q = s.seg q ∨ Function.update s.seg r g q = g := by
        intro q
        by_cases hq : q = r
        · exact .inr (by rw [hq, Function.update_self])
        · exact .inl (Function.update_of_ne hq _ _)
      have hrest : execs env (rs.map fun r => .movToSeg r src)
          { s with seg := Function.update s.seg r g } =
            some { s with seg := fun q => if q ∈ rs then g else Function.update s.seg r g q } := by
        refine ih hsel fun q hq seg hseg => hload q (List.mem_cons_of_mem _ hq) seg fun p => ?_
        rcases hseg p with hp | hp
        · exact (hor p).imp hp.trans hp.trans
        · exact .inr hp
      have hfun : (fun q => if q ∈ rs then g else Function.update s.seg r g q) =
          fun q => if q ∈ r :: rs then g else s.seg q := by
        funext q
        by_cases hq : q = r
        · rw [hq, Function.update_self, ite_self, if_pos List.mem_cons_self]
        · simp only [Function.update_of_ne hq, List.mem_cons, hq, false_or]
      rw [List.map_cons, execs_cons hfirst, hrest, hfun]


theorem after_movToSegs {is : List Instr} {P : State → Prop} {R : Reg → UInt32} {F : UInt32}
    {M : Memory} (rs : List SegReg) (hsel : (R src).toUInt16 = sel)
    (hload : ∀ r ∈ rs, ∀ seg : SegReg → Seg, (∀ q, seg q = s.seg q ∨ seg q = g) →
      ({ s with seg, mem := M } : State).loadSeg r sel = some g)
    (h : After env is P ({ s with seg := fun q => if q ∈ rs then g else s.seg q }.upd R F M)) :
    After env ((rs.map fun r => .movToSeg r src) ++ is) P (s.upd R F M) :=
  after_append ⟨_, execs_movToSegs (s := s.upd R F M) hsel rs hload, h⟩

/-- A far jump to code of the right size. -/
theorem jmpFar_ok {ℓ : Type} [DecidableEq ℓ] {prog rest : List (Line ℓ)} {l : ℓ} {bits : Size}
    {t : State} (ht : s.setSeg .cs sel = some t) (hl : behind l prog = some (bits, rest))
    (hbig : (t.seg .cs).big = true ↔ bits = .w32) : s.jmpFar prog sel l = some (rest, t) := by
  rw [State.jmpFar, ht, Option.bind_eq_bind, Option.bind_some, hl]
  exact if_pos (propext hbig)

end Segments

end X86
