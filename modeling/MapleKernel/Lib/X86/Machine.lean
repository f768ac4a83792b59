/-
  File:      Lib/X86/Machine.lean
  Subject:   THE PART OF A 32-BIT x86 THAT A KERNEL'S OWN ASSEMBLY USES, as an interpreter of its
             listings: both operand sizes, both stack sizes, protected and real mode.

  Addresses are physical (no paging, or an identity mapping); there is one privilege level. A
  segment register has its hidden part, which only a load changes; in protected mode the load reads
  the descriptor in memory.

  * `State` -- registers, memory, and a log of what left the processor;
  * `Env` -- what is not in the listing: devices, the functions that are called, and the status
    flags no listing here looks at;
  * `exec` -- an instruction that goes on with the next line; `none` is a fault;
  * `next`, `Runs` -- a listing with its labels; it ends with `ret`, `iret` or a fault.
-/
import MapleKernel.Lib.Iterate
import MapleKernel.Lib.X86.Memory

namespace X86

open Iteration

/-! ## 1. The state -/

inductive Reg where
  | eax | ecx | edx | ebx | esp | ebp | esi | edi
  deriving DecidableEq, Repr

inductive SegReg where
  | es | cs | ss | ds | fs | gs
  deriving DecidableEq, Repr

/-- A segment register: its selector, and the hidden base and size bit (D or B). -/
structure Seg where
  sel : UInt16
  base : UInt32
  big : Bool
  deriving DecidableEq, Repr

/-- The register of the descriptor table. -/
structure Gdtr where
  limit : UInt16
  base : UInt32
  deriving DecidableEq, Repr

/-- What left the processor. -/
inductive Event where
  | portIn (port : UInt8) (value : UInt8)
  | device (addr : UInt32) (value : Nat)
  | debug (n : UInt8) (value : UInt32)
  | call (target : UInt32)
  deriving DecidableEq, Repr

structure State where
  reg : Reg → UInt32
  seg : SegReg → Seg
  eflags : UInt32
  cr0 : UInt32
  gdtr : Gdtr
  mem : Memory
  log : List Event

structure Env where
  /-- Addresses of registers of devices: a store there is logged. -/
  device : UInt32 → Bool
  inb : UInt8 → State → UInt8
  debugReg : UInt8 → State → UInt32
  /-- The status flags but ZF that an instruction leaves. -/
  status : State → UInt32
  /-- The address behind a `call`. -/
  returnAddress : State → UInt32
  /-- The state in which a called function returns. -/
  callee : UInt32 → State → State

/-! ## 2. Operands -/

inductive Size where
  | w16 | w32
  deriving DecidableEq, Repr

def Size.bytes : Size → Nat
  | .w16 => 2
  | .w32 => 4

def Size.trunc : Size → UInt32 → UInt32
  | .w16, v => v &&& 0xFFFF
  | .w32, v => v

/-- `[seg: base + disp]` with an offset of the given size. -/
structure Mem where
  seg : SegReg
  size : Size
  base : Option Reg
  disp : UInt32
  deriving DecidableEq, Repr

inductive Operand where
  | reg (r : Reg)
  | imm (v : UInt32)
  | mem (m : Mem)
  deriving DecidableEq, Repr

namespace State

variable (s : State)

def setReg (r : Reg) (v : UInt32) : State := { s with reg := Function.update s.reg r v }

/-- A register of 16 bits is the low half of one of 32. -/
def setSized : Size → Reg → UInt32 → State
  | .w16, r, v => s.setReg r (s.reg r &&& 0xFFFF0000 ||| v &&& 0xFFFF)
  | .w32, r, v => s.setReg r v

def offset (m : Mem) : UInt32 := m.size.trunc ((m.base.elim 0 s.reg) + m.disp)

def addr (m : Mem) : UInt32 := (s.seg m.seg).base + s.offset m

/-- The number of the given size at an address. -/
def loadAt (z : Size) (a : UInt32) : UInt32 := .ofNat (load s.mem a z.bytes)

def value (z : Size) : Operand → UInt32
  | .reg r => z.trunc (s.reg r)
  | .imm v => z.trunc v
  | .mem m => s.loadAt z (s.addr m)

/-- A store of `n` bytes. -/
def storeAt (env : Env) (a : UInt32) (n v : Nat) : State :=
  if env.device a then { s with log := s.log ++ [.device a v] }
  else { s with mem := store s.mem a n v }

/-! ## 3. The stack -/

/-- The size of the stack pointer. -/
def stackSize : Size := if (s.seg .ss).big then .w32 else .w16

/-- The address of the top of the stack, were it `n` bytes lower. -/
def stackAddr (n : UInt32) : UInt32 :=
  (s.seg .ss).base + s.stackSize.trunc (s.reg .esp - n)

def push (env : Env) (z : Size) (v : UInt32) : State :=
  (s.storeAt env (s.stackAddr (.ofNat z.bytes)) z.bytes (z.trunc v).toNat).setSized s.stackSize .esp
    (s.reg .esp - .ofNat z.bytes)

def top (z : Size) : UInt32 := s.loadAt z (s.stackAddr 0)

def drop (z : Size) : State := s.setSized s.stackSize .esp (s.reg .esp + .ofNat z.bytes)

/-! ## 4. Segments and flags -/

def protectedMode : Bool := s.cr0.toNat.testBit 0

/-- The byte `i` of the descriptor that a selector names. -/
def descriptorByte (sel : UInt16) (i : UInt32) : UInt8 :=
  s.mem (s.gdtr.base + (sel &&& 0xFFF8).toUInt32 + i)

/-- A descriptor that a segment register can be loaded with: in the table, and present. -/
def Describes (sel : UInt16) : Prop :=
  sel &&& 4 = 0 ∧ (sel &&& 0xFFF8).toNat + 7 ≤ s.gdtr.limit.toNat ∧
    (s.descriptorByte sel 5).toNat.testBit 7

instance (sel : UInt16) : Decidable (s.Describes sel) :=
  inferInstanceAs (Decidable (_ ∧ _ ∧ _))

/-- What loading a segment register gives. The null selector is loaded without a descriptor. -/
def loadSeg (r : SegReg) (sel : UInt16) : Option Seg :=
  if s.protectedMode then
    if sel &&& 0xFFFC = 0 then
      if r = .cs ∨ r = .ss then none else some ⟨sel, 0, false⟩
    else if s.Describes sel then
      some
        { sel
          base := (s.descriptorByte sel 2).toUInt32 ||| (s.descriptorByte sel 3).toUInt32 <<< 8 |||
            (s.descriptorByte sel 4).toUInt32 <<< 16 ||| (s.descriptorByte sel 7).toUInt32 <<< 24
          big := (s.descriptorByte sel 6).toNat.testBit 6 }
    else none
  else some { sel, base := sel.toUInt32 <<< 4, big := (s.seg r).big }

def setSeg (r : SegReg) (sel : UInt16) : Option State :=
  (s.loadSeg r sel).map fun g => { s with seg := Function.update s.seg r g }

def zeroFlag : UInt32 := 0x40
def interruptFlag : UInt32 := 0x200
def directionFlag : UInt32 := 0x400

/-- CF, PF, AF, SF and OF. -/
def otherStatus : UInt32 := 0x895

/-- RF, VM, VIF and VIP, which `pushf` and `popf` treat on their own. -/
def resumeFlags : UInt32 := 0x1B0000

def zf : Bool := s.eflags &&& zeroFlag != 0

/-- The flags after a result. -/
def setStatus (env : Env) (result : UInt32) : State :=
  { s with
    eflags := s.eflags &&& ~~~(zeroFlag ||| otherStatus) ||| env.status s &&& otherStatus |||
      if result = 0 then zeroFlag else 0 }

end State

/-! ## 5. Instructions -/

inductive Alu where
  | add | sub | and | or | shl | shr
  deriving DecidableEq, Repr

def Alu.result : Alu → UInt32 → UInt32 → UInt32
  | .add, v, w => v + w
  | .sub, v, w => v - w
  | .and, v, w => v &&& w
  | .or, v, w => v ||| w
  | .shl, v, w => v <<< w
  | .shr, v, w => v >>> w

/-- Instructions that go on with the next line. -/
inductive Instr where
  | mov (z : Size) (dst : Operand) (src : Operand)
  | alu (op : Alu) (z : Size) (dst : Reg) (src : Operand)
  | cmp (z : Size) (a b : Operand)
  | test (z : Size) (a b : Operand)
  | movzx (dst : Reg) (src : Mem)
  | lea (z : Size) (dst : Reg) (src : Mem)
  | push (src : Operand)
  | pushSeg (r : SegReg)
  | pusha
  | pushf
  | pop (z : Size) (dst : Reg)
  | popSeg (r : SegReg)
  | popa
  | popf
  | movFromSeg (dst : Reg) (src : SegReg)
  | movToSeg (dst : SegReg) (src : Reg)
  | movFromCr0 (dst : Reg)
  | movToCr0 (src : Reg)
  | movFromDr (dst : Reg) (n : UInt8)
  | movToDr (n : UInt8) (src : Reg)
  | inAl (port : UInt8)
  | cli
  | std
  | cld
  | sgdt (dst : Mem)
  | lgdt (z : Size) (src : Mem)
  | repMovsw
  | call (target : UInt32)
  | callReg (z : Size) (r : Reg)
  deriving DecidableEq, Repr

namespace State

/-- The registers in the order of `pusha`. -/
def pushaOrder : List Reg := [.eax, .ecx, .edx, .ebx, .esp, .ebp, .esi, .edi]

/-- `pusha` stores the values before it, that of `esp` too. -/
def pusha (env : Env) (s : State) : State :=
  (pushaOrder.map s.reg).foldl (fun t v => t.push env .w32 v) s

/-- `popa` passes over the slot of `esp`. -/
def popa (s : State) : State :=
  pushaOrder.reverse.foldl
    (fun t r => if r = .esp then t.drop .w32 else (t.drop .w32).setReg r (t.top .w32)) s

/-- `movsw`, from `ds:si` to `es:di`. -/
def movsw (env : Env) (s : State) : State :=
  let v := load s.mem ((s.seg .ds).base + (Size.w16.trunc (s.reg .esi))) 2
  let t := s.storeAt env ((s.seg .es).base + Size.w16.trunc (s.reg .edi)) 2 v
  let d : UInt32 := if s.eflags &&& directionFlag = 0 then 2 else 0xFFFFFFFE
  (t.setSized .w16 .esi (s.reg .esi + d)).setSized .w16 .edi (s.reg .edi + d)

/-- `rep movsw` with the count `n` in `cx`. -/
def repMovsw (env : Env) : Nat → State → State
  | 0, s => s
  | n + 1, s =>
      let t := s.movsw env
      repMovsw env n (t.setSized .w16 .ecx (t.reg .ecx - 1))

/-- The flags in the image that `pushf` pushes, and what `popf` makes of one. -/
def flagsImage (s : State) : UInt32 := s.eflags &&& 0xFCFFFF

def setFlags (s : State) (image : UInt32) : State :=
  { s with eflags := image &&& ~~~resumeFlags ||| s.eflags &&& 0x20000 }

/-- A call pushes the address behind it, and the function is left in the state it returns in. -/
def enter (env : Env) (z : Size) (target : UInt32) (s : State) : State :=
  let t := s.push env z (env.returnAddress s)
  env.callee target { t with log := t.log ++ [.call target] }

/-- Protection is needed for paging. -/
def setCr0 (s : State) (v : UInt32) : Option State :=
  if v.toNat.testBit 31 ∧ ¬ v.toNat.testBit 0 then none else some { s with cr0 := v }

end State

def exec (env : Env) : Instr → State → Option State
  | .mov z (.reg r) src, s => some (s.setSized z r (s.value z src))
  | .mov z (.mem m) src, s => some (s.storeAt env (s.addr m) z.bytes (s.value z src).toNat)
  | .mov _ (.imm _) _, _ => none
  | .alu op z dst src, s =>
      let v := z.trunc (op.result (z.trunc (s.reg dst)) (s.value z src))
      some ((s.setSized z dst v).setStatus env v)
  | .cmp z a b, s => some (s.setStatus env (z.trunc (s.value z a - s.value z b)))
  | .test z a b, s => some (s.setStatus env (s.value z a &&& s.value z b))
  | .movzx dst src, s => some (s.setReg dst (s.loadAt .w16 (s.addr src)))
  | .lea z dst src, s => some (s.setSized z dst (s.offset src))
  | .push src, s => some (s.push env .w32 (s.value .w32 src))
  | .pushSeg r, s => some (s.push env .w32 (s.seg r).sel.toUInt32)
  | .pusha, s => some (s.pusha env)
  | .pushf, s => some (s.push env .w32 s.flagsImage)
  | .pop z dst, s => some ((s.drop z).setSized z dst (s.top z))
  | .popSeg r, s => (s.drop .w32).setSeg r (s.top .w32).toUInt16
  | .popa, s => some s.popa
  | .popf, s => some ((s.drop .w32).setFlags (s.top .w32))
  | .movFromSeg dst src, s => some (s.setSized .w16 dst (s.seg src).sel.toUInt32)
  | .movToSeg dst src, s => s.setSeg dst (s.reg src).toUInt16
  | .movFromCr0 dst, s => some (s.setReg dst s.cr0)
  | .movToCr0 src, s => s.setCr0 (s.reg src)
  | .movFromDr dst n, s => some (s.setReg dst (env.debugReg n s))
  | .movToDr n src, s => some { s with log := s.log ++ [.debug n (s.reg src)] }
  | .inAl port, s =>
      let b := env.inb port s
      some { s.setReg .eax (s.reg .eax &&& 0xFFFFFF00 ||| b.toUInt32) with
        log := s.log ++ [.portIn port b] }
  | .cli, s => some { s with eflags := s.eflags &&& ~~~State.interruptFlag }
  | .std, s => some { s with eflags := s.eflags ||| State.directionFlag }
  | .cld, s => some { s with eflags := s.eflags &&& ~~~State.directionFlag }
  | .sgdt dst, s =>
      some ((s.storeAt env (s.addr dst) 2 s.gdtr.limit.toNat).storeAt env (s.addr dst + 2) 4
        s.gdtr.base.toNat)
  | .lgdt z src, s =>
      -- with operands of 16 bits the base has 24
      let base := s.loadAt .w32 (s.addr src + 2)
      some { s with
        gdtr :=
          { limit := (s.loadAt .w16 (s.addr src)).toUInt16
            base := if z = .w16 then base &&& 0xFFFFFF else base } }
  | .repMovsw, s => some (s.repMovsw env (Size.w16.trunc (s.reg .ecx)).toNat)
  | .call target, s => some (s.enter env .w32 target)
  | .callReg z r, s => some (s.enter env z (z.trunc (s.reg r)))

/-! ## 6. Listings -/

/-- A line of a listing. Behind a label the code is of the given size. -/
inductive Line (ℓ : Type) where
  | label (l : ℓ) (bits : Size)
  | instr (i : Instr)
  | jz (l : ℓ)
  | jmpFar (sel : UInt16) (l : ℓ)
  | ret
  | iret

/-- Where control goes at the end. -/
inductive Exit where
  | ret (eip : UInt32)
  | iret (eip : UInt32)
  deriving DecidableEq, Repr

section Listing

variable {ℓ : Type} [DecidableEq ℓ] (env : Env) (prog : List (Line ℓ))

/-- The lines behind a label, and the size of their code. -/
def behind (l : ℓ) : List (Line ℓ) → Option (Size × List (Line ℓ))
  | [] => none
  | .label l' bits :: rest => if l' = l then some (bits, rest) else behind l rest
  | _ :: rest => behind l rest

/-- `iret` pops the address, the code segment and the flags. -/
def State.iret (s : State) : Option (Exit × State) :=
  let eip := s.top .w32
  let s := s.drop .w32
  let sel := (s.top .w32).toUInt16
  let s := s.drop .w32
  let flags := s.top .w32
  ((s.drop .w32).setSeg .cs sel).map fun t => (.iret eip, { t with eflags := flags })

/-- A far jump loads `cs`, and gets only to code of the size of the segment. -/
def State.jmpFar (s : State) (sel : UInt16) (l : ℓ) : Option (List (Line ℓ) × State) := do
  let t ← s.setSeg .cs sel
  let (bits, rest) ← behind l prog
  if (t.seg .cs).big = (bits = .w32) then some (rest, t) else none

/-- One line. -/
def next : List (Line ℓ) × State → (List (Line ℓ) × State) ⊕ Option (Exit × State)
  | ([], _) => .inr none
  | (.label _ _ :: rest, s) => .inl (rest, s)
  | (.instr i :: rest, s) =>
      match exec env i s with
      | some t => .inl (rest, t)
      | none => .inr none
  | (.jz l :: rest, s) =>
      if s.zf then
        match behind l prog with
        | some (_, lines) => .inl (lines, s)
        | none => .inr none
      else .inl (rest, s)
  | (.jmpFar sel l :: _, s) =>
      match s.jmpFar prog sel l with
      | some c => .inl c
      | none => .inr none
  | (.ret :: _, s) => .inr (some (.ret (s.top .w32), s.drop .w32))
  | (.iret :: _, s) => .inr s.iret

/-- The listing, run from the given lines on, ends there. -/
def Runs (lines : List (Line ℓ)) (s : State) (r : Option (Exit × State)) : Prop :=
  Returns (next env prog) (lines, s) r

/-- Instructions one after the other. -/
def execs : List Instr → State → Option State
  | [], s => some s
  | i :: is, s => (exec env i s).bind (execs is)

variable {env prog} {s t : State} {r : Option (Exit × State)} {rest : List (Line ℓ)}

theorem execs_cons {i : Instr} {is : List Instr} (h : exec env i s = some t) :
    execs env (i :: is) s = execs env is t := by
  rw [execs, h, Option.bind_some]

theorem execs_append {is js : List Instr} (h : execs env is s = some t) :
    execs env (is ++ js) s = execs env js t := by
  induction is generalizing s with
  | nil =>
      obtain rfl := Option.some.inj h
      rfl
  | cons i is ih =>
      rw [execs, Option.bind_eq_some_iff] at h
      obtain ⟨u, hi, hu⟩ := h
      rw [List.cons_append, execs_cons hi]
      exact ih hu

theorem runs_instr {i : Instr} (h : exec env i s = some t) :
    Runs env prog (.instr i :: rest) s r ↔ Runs env prog rest t r :=
  returns_of_inl (by rw [next, h])

/-- **The rule for straight code.** -/
theorem runs_execs {is : List Instr} (h : execs env is s = some t) :
    Runs env prog (is.map .instr ++ rest) s r ↔ Runs env prog rest t r := by
  induction is generalizing s with
  | nil =>
      obtain rfl := Option.some.inj h
      rfl
  | cons i is ih =>
      rw [execs, Option.bind_eq_some_iff] at h
      obtain ⟨u, hi, hu⟩ := h
      rw [List.map_cons, List.cons_append, runs_instr hi]
      exact ih hu

theorem runs_label {l : ℓ} {bits : Size} :
    Runs env prog (.label l bits :: rest) s r ↔ Runs env prog rest s r :=
  returns_of_inl rfl

theorem runs_jz_taken {l : ℓ} {bits : Size} {lines : List (Line ℓ)} (h : s.zf = true)
    (hl : behind l prog = some (bits, lines)) :
    Runs env prog (.jz l :: rest) s r ↔ Runs env prog lines s r :=
  returns_of_inl (by rw [next, if_pos h, hl])

theorem runs_jz_not_taken {l : ℓ} (h : s.zf = false) :
    Runs env prog (.jz l :: rest) s r ↔ Runs env prog rest s r :=
  returns_of_inl (by rw [next, if_neg (by rw [h]; exact Bool.false_ne_true)])

theorem runs_jmpFar {sel : UInt16} {l : ℓ} {lines : List (Line ℓ)}
    (h : s.jmpFar prog sel l = some (lines, t)) :
    Runs env prog (.jmpFar sel l :: rest) s r ↔ Runs env prog lines t r :=
  returns_of_inl (by rw [next, h])

theorem runs_ret : Runs env prog (.ret :: rest) s (some (.ret (s.top .w32), s.drop .w32)) :=
  returns_of_inr rfl

theorem runs_iret : Runs env prog (.iret :: rest) s s.iret := returns_of_inr rfl

end Listing

end X86
