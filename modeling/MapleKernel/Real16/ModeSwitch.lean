/-
  File:      Real16/ModeSwitch.lean
  Subject:   A CALL OF A REAL-MODE FUNCTION, from protected mode there and back
             (`call_realmode_function_wrapper32.asm`, `call_realmode_function_wrapper16.asm`).

  `pm32_to_pm16` saves the registers, keeps its stack and its descriptor table in `args16_start`,
  and jumps into 16-bit code. This switches protection off, copies the arguments to the stack of
  real mode, calls, stores `ax`, and switches protection on again; `resume32` takes back what was
  kept and returns.

  * `wrapper` -- the listings, line by line; `Layout` is where the linker puts their data;
  * `park_ok`, `saveRegisters_ok` -- what is kept, and that it survives (`Parked`, `Stacked`);
  * `InPm16`, `InReal`, `AtCall`, `AtEntry`, `AtResume` -- the states between, each reached from the
    one before; `Prepared` is what the way back needs of the way there;
  * `RealFunction` -- what a function of real mode may do, with variables of its own;
  * `wrapper_returns` -- it is called, and the caller goes on with its result and everything else as
    it was;
  * `callRealModeFunction_returns` -- the same with what `call_real_mode_function` stored: each
    argument of the C caller stands where the function expects it.
-/
import MapleKernel.Lib.WordField
import MapleKernel.Lib.X86.Interrupt
import MapleKernel.Lib.X86.Real
import MapleKernel.Real16.CallRealMode

namespace MapleKernel.Real16

open X86

/-! ## 1. The listings -/

/-- Where the linker puts things. -/
structure Layout where
  stack16Start : Nat
  args16Start : Nat
  savedSp16 : Nat
  gdt16Descriptor : Nat
  gdt16Start : Nat

/-- `asm_constants.inc`. -/
def gdtRootOffset : Nat := 0
def espOffset : Nat := 8
def ssOffset : Nat := 12
def csOffset : Nat := 14
def ret1Offset : Nat := 16
def funcOffset : Nat := 20
def argcOffset : Nat := 24
def funcArgsOffset : Nat := 26
def codeSel : UInt16 := 0x10
def dataSel : UInt16 := 0x18

inductive Label where
  | pm16ToReal16
  | callReal16Function
  | argsDone
  | resume32
  deriving DecidableEq, Repr

/-- A variable in `ds`, in code of the given size. -/
def variableAt (z : Size) (k : Nat) : Mem := ⟨.ds, z, none, .ofNat k⟩

/-- `[args16_start + k]`. -/
def Layout.arg (l : Layout) (z : Size) (k : Nat) : Mem := variableAt z (l.args16Start + k)

def pm32ToPm16 (l : Layout) : List (Line Label) :=
  [ -- save 32-bit registers and flags
    .instr .pusha,
    .instr .pushf,
    .instr (.pushSeg .ds),
    .instr (.pushSeg .es),
    .instr (.pushSeg .fs),
    .instr (.pushSeg .gs),
    .instr (.mov .w32 (.reg .eax) (.imm 0xDEADBEEF)),
    -- into `args16_start`, where 16-bit code can see it
    .instr (.sgdt (l.arg .w32 gdtRootOffset)),
    .instr (.mov .w32 (.mem (l.arg .w32 espOffset)) (.reg .esp)),
    .instr (.movFromSeg .eax .ss),
    .instr (.mov .w16 (.mem (l.arg .w32 ssOffset)) (.reg .eax)),
    .instr (.pushSeg .cs),
    .instr (.pop .w16 .eax),
    .instr (.mov .w16 (.mem (l.arg .w32 csOffset)) (.reg .eax)),
    .instr .cli,
    .instr (.lgdt .w32 (variableAt .w32 l.gdt16Descriptor)),
    .jmpFar codeSel .pm16ToReal16 ]

def pm16AndReal16Wrappers (l : Layout) : List (Line Label) :=
  [ .label .pm16ToReal16 .w16,
    .instr (.mov .w16 (.reg .eax) (.imm dataSel.toUInt32)),
    .instr (.movToSeg .ds .eax),
    .instr (.movToSeg .es .eax),
    .instr (.movToSeg .fs .eax),
    .instr (.movToSeg .gs .eax),
    .instr (.movToSeg .ss .eax),
    .instr (.movFromCr0 .eax),
    .instr (.alu .and .w32 .eax (.imm 0xFFFFFFFE)),
    .instr (.movToCr0 .eax),
    .jmpFar 0 .callReal16Function,
    .label .callReal16Function .w16,
    .instr (.mov .w16 (.reg .eax) (.imm 0)),
    .instr (.movToSeg .ds .eax),
    .instr (.movToSeg .es .eax),
    .instr (.movToSeg .fs .eax),
    .instr (.movToSeg .gs .eax),
    .instr (.mov .w32 (.reg .eax) (.imm (.ofNat l.stack16Start))),
    .instr (.alu .shr .w32 .eax (.imm 4)),
    .instr (.movToSeg .ss .eax),
    .instr (.mov .w32 (.reg .esp) (.imm 0x4000)),
    .instr (.mov .w16 (.mem (variableAt .w16 l.savedSp16)) (.reg .esp)),
    .instr (.mov .w16 (.reg .ecx) (.mem (l.arg .w16 argcOffset))),
    .instr (.cmp .w16 (.reg .ecx) (.imm 0)),
    .jz .argsDone,
    .instr (.movFromSeg .eax .ss),
    .instr (.movToSeg .es .eax),
    -- `di` points to `sp`, `si` to the last argument
    .instr (.mov .w16 (.reg .edi) (.reg .esp)),
    .instr (.lea .w16 .esi (l.arg .w16 funcArgsOffset)),
    .instr (.alu .shl .w16 .ecx (.imm 1)),
    .instr (.alu .add .w16 .esi (.reg .ecx)),
    .instr (.alu .sub .w16 .esi (.imm 2)),
    .instr (.alu .sub .w16 .esp (.reg .ecx)),
    .instr (.alu .add .w16 .esp (.imm 2)),
    .instr (.alu .shr .w16 .ecx (.imm 1)),
    -- copy the last argument down to the first
    .instr .std,
    .instr .repMovsw,
    .instr .cld,
    .label .argsDone .w16,
    .instr (.mov .w16 (.reg .eax) (.mem (l.arg .w16 funcOffset))),
    .instr (.callReg .w16 .eax),
    .instr (.mov .w16 (.mem (l.arg .w16 ret1Offset)) (.reg .eax)),
    .instr (.mov .w16 (.reg .esp) (.mem (variableAt .w16 l.savedSp16))),
    -- switch back to protected mode
    .instr (.lgdt .w16 (l.arg .w16 gdtRootOffset)),
    .instr (.movFromCr0 .eax),
    .instr (.alu .or .w32 .eax (.imm 1)),
    .instr (.movToCr0 .eax),
    .jmpFar 0x10 .resume32 ]

def resume32 (l : Layout) : List (Line Label) :=
  [ .label .resume32 .w32,
    .instr (.mov .w32 (.reg .esp) (.mem (l.arg .w32 espOffset))),
    .instr (.mov .w16 (.reg .eax) (.mem (l.arg .w32 ssOffset))),
    .instr (.movToSeg .ss .eax),
    .instr (.popSeg .gs),
    .instr (.popSeg .fs),
    .instr (.popSeg .es),
    .instr (.popSeg .ds),
    .instr .popf,
    .instr .popa,
    .instr (.movzx .eax (l.arg .w32 ret1Offset)),
    .ret ]

/-- All of the code, in the order of the linker script. -/
def wrapper (l : Layout) : List (Line Label) :=
  pm32ToPm16 l ++ (pm16AndReal16Wrappers l ++ resume32 l)

/-- The straight parts. -/
def park (l : Layout) : List Instr :=
  [ .mov .w32 (.reg .eax) (.imm 0xDEADBEEF), .sgdt (l.arg .w32 gdtRootOffset),
    .mov .w32 (.mem (l.arg .w32 espOffset)) (.reg .esp), .movFromSeg .eax .ss,
    .mov .w16 (.mem (l.arg .w32 ssOffset)) (.reg .eax), .pushSeg .cs, .pop .w16 .eax,
    .mov .w16 (.mem (l.arg .w32 csOffset)) (.reg .eax), .cli,
    .lgdt .w32 (variableAt .w32 l.gdt16Descriptor) ]

def saveRegisters : List Instr := .pusha :: .pushf :: savedSegs.map .pushSeg

def dataSegs : List SegReg := [.ds, .es, .fs, .gs]

def enter16 : List Instr :=
  .mov .w16 (.reg .eax) (.imm dataSel.toUInt32) ::
    ((dataSegs ++ [SegReg.ss]).map (fun r => .movToSeg r .eax) ++
      [.movFromCr0 .eax, .alu .and .w32 .eax (.imm 0xFFFFFFFE), .movToCr0 .eax])

def setup16 (l : Layout) : List Instr :=
  .mov .w16 (.reg .eax) (.imm 0) ::
    (dataSegs.map (fun r => .movToSeg r .eax) ++
      .mov .w32 (.reg .eax) (.imm (.ofNat l.stack16Start)) :: .alu .shr .w32 .eax (.imm 4) ::
        ([SegReg.ss].map (fun r => .movToSeg r .eax) ++
          [.mov .w32 (.reg .esp) (.imm 0x4000),
            .mov .w16 (.mem (variableAt .w16 l.savedSp16)) (.reg .esp),
            .mov .w16 (.reg .ecx) (.mem (l.arg .w16 argcOffset)), .cmp .w16 (.reg .ecx) (.imm 0)]))

def copyArgs (l : Layout) : List Instr :=
  .movFromSeg .eax .ss :: ([SegReg.es].map (fun r => .movToSeg r .eax) ++
    [.mov .w16 (.reg .edi) (.reg .esp), .lea .w16 .esi (l.arg .w16 funcArgsOffset),
      .alu .shl .w16 .ecx (.imm 1), .alu .add .w16 .esi (.reg .ecx), .alu .sub .w16 .esi (.imm 2),
      .alu .sub .w16 .esp (.reg .ecx), .alu .add .w16 .esp (.imm 2), .alu .shr .w16 .ecx (.imm 1),
      .std, .repMovsw, .cld])

def callFunction (l : Layout) : List Instr :=
  [.mov .w16 (.reg .eax) (.mem (l.arg .w16 funcOffset)), .callReg .w16 .eax]

def leave16 (l : Layout) : List Instr :=
  [ .mov .w16 (.mem (l.arg .w16 ret1Offset)) (.reg .eax),
    .mov .w16 (.reg .esp) (.mem (variableAt .w16 l.savedSp16)),
    .lgdt .w16 (l.arg .w16 gdtRootOffset), .movFromCr0 .eax, .alu .or .w32 .eax (.imm 1), .movToCr0 .eax ]

def takeBack (l : Layout) : List Instr :=
  [ .mov .w32 (.reg .esp) (.mem (l.arg .w32 espOffset)),
    .mov .w16 (.reg .eax) (.mem (l.arg .w32 ssOffset)), .movToSeg .ss .eax ]

def restoreRegisters (l : Layout) : List Instr :=
  savedSegs.reverse.map .popSeg ++ [.popf, .popa, .movzx .eax (l.arg .w32 ret1Offset)]

/-- The lines behind the labels. -/
def argsDoneLines (l : Layout) : List (Line Label) :=
  (callFunction l ++ leave16 l).map .instr ++ (.jmpFar 0x10 .resume32 :: resume32 l)

def callReal16Lines (l : Layout) : List (Line Label) :=
  (setup16 l).map .instr ++
    (.jz .argsDone :: ((copyArgs l).map .instr ++ (.label .argsDone .w16 :: argsDoneLines l)))

def pm16Lines (l : Layout) : List (Line Label) :=
  enter16.map .instr ++
    (.jmpFar 0 .callReal16Function :: .label .callReal16Function .w16 :: callReal16Lines l)

def resume32Lines (l : Layout) : List (Line Label) :=
  (takeBack l ++ restoreRegisters l).map .instr ++ [.ret]

theorem wrapper_eq (l : Layout) :
    wrapper l = (saveRegisters ++ park l).map .instr ++ (.jmpFar codeSel .pm16ToReal16 ::
      .label .pm16ToReal16 .w16 :: pm16Lines l) := rfl

theorem behind_pm16ToReal16 (l : Layout) :
    behind .pm16ToReal16 (wrapper l) = some (.w16, pm16Lines l) := rfl

theorem behind_callReal16Function (l : Layout) :
    behind .callReal16Function (wrapper l) = some (.w16, callReal16Lines l) := rfl

theorem behind_argsDone (l : Layout) :
    behind .argsDone (wrapper l) = some (.w16, argsDoneLines l) := rfl

theorem behind_resume32 (l : Layout) :
    behind .resume32 (wrapper l) = some (.w32, resume32Lines l) := rfl

/-! ## 2. Into 16-bit code -/

/-- What the linker script promises. -/
structure Layout.Linked (l : Layout) : Prop where
  stack : l.stack16Start % 16 = 0
  args : l.args16Start = l.stack16Start + 0x4010
  sp : l.args16Start + 64 ≤ l.savedSp16
  low : l.savedSp16 + 2 < 2 ^ 16
  descriptor : l.savedSp16 + 2 ≤ l.gdt16Descriptor
  table : l.gdt16Start = l.gdt16Descriptor + 6
  fits : l.gdt16Start + 32 < 2 ^ 32

/-- What is kept for the way back. -/
structure Parked (l : Layout) (s : State) (m : Memory) : Prop where
  limit : load m (.ofNat l.args16Start) 2 = s.gdtr.limit.toNat
  base : load m (.ofNat (l.args16Start + 2)) 4 = s.gdtr.base.toNat
  esp : load m (.ofNat (l.args16Start + espOffset)) 4 = (s.reg .esp).toNat
  ss : load m (.ofNat (l.args16Start + ssOffset)) 2 = (s.seg .ss).sel.toNat

section Phases

variable {env : Env} {l : Layout} {s : State} {m m' : Memory} {R : Reg → UInt32} {F : UInt32}
  {M : Memory} {n : Nat}

theorem Parked.congr (h : Parked l s m) (hl : l.Linked)
    (hmem : ∀ x : UInt32, l.args16Start ≤ x.toNat → x.toNat < l.args16Start + 14 → m' x = m x) :
    Parked l s m' := by
  have hsp := hl.sp
  have hlow := hl.low
  have hload : ∀ k w, k + w ≤ 14 →
      load m' (.ofNat (l.args16Start + k)) w = load m (.ofNat (l.args16Start + k)) w :=
    fun k w hk => load_congr_region (by omega) fun x hlo hhi => hmem x (by omega) (by omega)
  exact ⟨(hload 0 2 (by decide)).trans h.limit, (hload 2 4 (by decide)).trans h.base,
    (hload espOffset 4 (by decide)).trans h.esp, (hload ssOffset 2 (by decide)).trans h.ss⟩

/-- The stores of `park`. -/
def parkMem (a e : Nat) (m : Memory) (limit base esp ss cs cs' : Nat) : Memory :=
  store (store (store (store (store (store m (.ofNat (a + gdtRootOffset)) 2 limit)
    (.ofNat (a + gdtRootOffset + 2)) 4 base) (.ofNat (a + espOffset)) 4 esp)
    (.ofNat (a + ssOffset)) 2 ss) (.ofNat e) 4 cs) (.ofNat (a + csOffset)) 2 cs'

/-- What they leave. -/
structure ParkStores (a e : Nat) (m m' : Memory) (limit base esp ss : Nat) : Prop where
  limit : load m' (.ofNat a) 2 = limit % 256 ^ 2
  base : load m' (.ofNat (a + 2)) 4 = base % 256 ^ 4
  esp : load m' (.ofNat (a + espOffset)) 4 = esp % 256 ^ 4
  ss : load m' (.ofNat (a + ssOffset)) 2 = ss % 256 ^ 2
  frame : ∀ x : UInt32, (x.toNat < a ∨ a + 16 ≤ x.toNat) → (x.toNat < e ∨ e + 4 ≤ x.toNat) →
    m' x = m x

theorem parkStores {a e : Nat} (m : Memory) (limit base esp ss cs cs' : Nat) (ha : a + 16 < 2 ^ 32)
    (he : e + 4 < 2 ^ 32) (hapart : e + 4 ≤ a ∨ a + 16 ≤ e) :
    ParkStores a e m (parkMem a e m limit base esp ss cs cs') limit base esp ss := by
  refine ⟨?_, ?_, ?_, ?_, fun x hx hx' => ?_⟩
  · simp (disch := omega) only [parkMem, gdtRootOffset, espOffset, ssOffset, csOffset, Nat.add_zero,
      load_store_place, load_store]
  · simp (disch := omega) only [parkMem, gdtRootOffset, espOffset, ssOffset, csOffset, Nat.add_zero,
      load_store_place, load_store]
  · simp (disch := omega) only [parkMem, gdtRootOffset, espOffset, ssOffset, csOffset, Nat.add_zero,
      load_store_place, load_store]
  · simp (disch := omega) only [parkMem, gdtRootOffset, espOffset, ssOffset, csOffset, Nat.add_zero,
      load_store_place, load_store]
  · simp (disch := omega) only [parkMem, gdtRootOffset, espOffset, ssOffset, csOffset, Nat.add_zero,
      store_place_of_apart]

/-- **Parked**: the table of 16-bit code is active, and what the way back needs is kept. -/
theorem park_ok (hl : l.Linked) (hds : (s.seg .ds).base = 0) (hflat : s.Flat)
    (hdev : ∀ k < 48, env.device (.ofNat (l.args16Start + k)) = false)
    (hpush : env.device (s.reg .esp - 4) = false) (hesp : 4 ≤ (s.reg .esp).toNat)
    (hapart : (s.reg .esp).toNat ≤ l.args16Start ∨ l.args16Start + 48 ≤ (s.reg .esp).toNat - 4)
    (hapart' : (s.reg .esp).toNat ≤ l.gdt16Descriptor ∨
      l.gdt16Descriptor + 38 ≤ (s.reg .esp).toNat - 4)
    (hlimit : load s.mem (.ofNat l.gdt16Descriptor) 2 = 31)
    (hbase : load s.mem (.ofNat (l.gdt16Descriptor + 2)) 4 = l.gdt16Start) :
    After env (park l) (fun t => ∃ R M,
      t = ({ s with gdtr := ⟨31, .ofNat l.gdt16Start⟩ }).upd R
        (s.eflags &&& ~~~State.interruptFlag) M ∧
      Parked l s M ∧ ∀ x : UInt32, (x.toNat < l.args16Start ∨ l.args16Start + 16 ≤ x.toNat) →
        (x.toNat + 4 < (s.reg .esp).toNat ∨ (s.reg .esp).toNat ≤ x.toNat) → M x = s.mem x) s := by
  have hsp := hl.sp
  have hlow := hl.low
  have hdesc := hl.descriptor
  have htable := hl.table
  have hfits := hl.fits
  have hesp32 : (s.reg .esp).toNat < 2 ^ 32 := (s.reg .esp).toNat_lt
  have hplace : s.reg .esp - 4 = .ofNat ((s.reg .esp).toNat - 4) := by
    have hnat := toNat_sub_ofNat (v := s.reg .esp) hesp
    rw [← UInt32.ofNat_toNat (x := s.reg .esp - 4)]
    exact congrArg UInt32.ofNat hnat
  rw [hplace] at hpush
  show After env (park l) _ (s.upd s.reg s.eflags s.mem)
  refine after_movImm fun R₁ h₁ => ?_
  refine after_sgdt hds (by simp) (hdev 0 (by decide)) (hdev 2 (by decide)) ?_
  refine after_store hds (by simp) (hdev 8 (by decide)) ?_
  refine after_movFromSeg fun R₂ h₂ => ?_
  refine after_store hds (by simp) (hdev 12 (by decide)) ?_
  have hesp₁ : R₁ .esp = s.reg .esp := h₁.others .esp (by decide)
  have hesp₂ : R₂ .esp - 4 = .ofNat ((s.reg .esp).toNat - 4) := by
    rw [h₂.others .esp (by decide), hesp₁, hplace]
  have hss : (Size.w16.trunc (R₂ .eax)).toNat = (s.seg .ss).sel.toNat := by
    rw [h₂.value, Size.trunc, UInt32.toNat_and, UInt16.toNat_toUInt32]
    exact (Nat.and_two_pow_sub_one_eq_mod _ 16).trans (Nat.mod_eq_of_lt (s.seg .ss).sel.toNat_lt)
  rw [hss, hesp₁]
  refine after_pushSeg hflat (by rw [hesp₂]; exact hpush) fun R₃ h₃ => ?_
  rw [hesp₂]
  refine after_popHalf hflat fun R₄ h₄ => ?_
  refine after_store hds (by simp) (hdev 14 (by decide)) ?_
  refine after_cli ?_
  have hstores := parkStores s.mem s.gdtr.limit.toNat s.gdtr.base.toNat (s.reg .esp).toNat
    (s.seg .ss).sel.toNat (s.seg .cs).sel.toUInt32.toNat (Size.w16.trunc (R₄ .eax)).toNat
    (a := l.args16Start) (e := (s.reg .esp).toNat - 4) (by omega) (by omega) (by omega)
  obtain ⟨M, hM⟩ : ∃ M, parkMem l.args16Start ((s.reg .esp).toNat - 4) s.mem s.gdtr.limit.toNat
    s.gdtr.base.toNat (s.reg .esp).toNat (s.seg .ss).sel.toNat (s.seg .cs).sel.toUInt32.toNat
    (Size.w16.trunc (R₄ .eax)).toNat = M := ⟨_, rfl⟩
  rw [hM] at hstores
  show After env _ _ (s.upd R₄ (s.eflags &&& ~~~State.interruptFlag) (parkMem l.args16Start
    ((s.reg .esp).toNat - 4) s.mem s.gdtr.limit.toNat s.gdtr.base.toNat (s.reg .esp).toNat
    (s.seg .ss).sel.toNat (s.seg .cs).sel.toUInt32.toNat (Size.w16.trunc (R₄ .eax)).toNat))
  rw [hM]
  have hdescriptor : ∀ k w, k + w ≤ 38 → load M (.ofNat (l.gdt16Descriptor + k)) w =
      load s.mem (.ofNat (l.gdt16Descriptor + k)) w := fun k w hk =>
    load_congr_region (by omega) fun x hlo hhi => hstores.frame x (by omega) (by omega)
  refine after_lgdt 31 (.ofNat l.gdt16Start) hds (by simp)
    ((hdescriptor 0 2 (by decide)).trans hlimit) ?_ (by simp) ?_
  · rw [hdescriptor 2 4 (by decide), hbase]
    exact (UInt32.toNat_ofNat_of_lt' (by rw [UInt32.size]; omega)).symm
  refine after_nil ⟨_, M, rfl, ⟨?_, ?_, ?_, ?_⟩, fun x hx hx' => ?_⟩
  · exact hstores.limit.trans (Nat.mod_eq_of_lt s.gdtr.limit.toNat_lt)
  · exact hstores.base.trans (Nat.mod_eq_of_lt s.gdtr.base.toNat_lt)
  · exact hstores.esp.trans (Nat.mod_eq_of_lt (s.reg .esp).toNat_lt)
  · exact hstores.ss.trans (Nat.mod_eq_of_lt (s.seg .ss).sel.toNat_lt)
  · exact hstores.frame x hx (by omega)

/-- `GDT16_START`: two null descriptors, code and data of 16 bits. -/
def gdt16 : List UInt8 :=
  List.replicate 16 0 ++ [0xFF, 0xFF, 0, 0, 0, 0x9A, 0, 0, 0xFF, 0xFF, 0, 0, 0, 0x92, 0, 0]

/-- It stands at `g`. -/
def HasGdt16 (g : Nat) (m : Memory) : Prop := ∀ i, i < 32 → m (.ofNat (g + i)) = (gdt16[i]?).getD 0

theorem descriptorByte_gdt16 {g : Nat} {t : State} {sel : UInt16} {i : UInt32}
    (hgdtr : t.gdtr = ⟨31, .ofNat g⟩) (htable : HasGdt16 g t.mem)
    (hin : (sel &&& 0xFFF8).toNat + i.toNat < 32) :
    t.descriptorByte sel i = (gdt16[(sel &&& 0xFFF8).toNat + i.toNat]?).getD 0 := by
  have haddr : UInt32.ofNat g + (sel &&& 0xFFF8).toUInt32 + i =
      .ofNat (g + ((sel &&& 0xFFF8).toNat + i.toNat)) := by
    rw [UInt32.ofNat_add, UInt32.ofNat_add, UInt32.ofNat_toNat, ← UInt16.toNat_toUInt32,
      UInt32.ofNat_toNat, UInt32.add_assoc]
  rw [State.descriptorByte, hgdtr, haddr]
  exact htable _ hin

/-- Both of its selectors can be loaded. -/
theorem loadSeg_gdt16 {g : Nat} {t : State} {r : SegReg} {sel : UInt16}
    (hsel : sel = codeSel ∨ sel = dataSel) (hpe : t.protectedMode = true)
    (hgdtr : t.gdtr = ⟨31, .ofNat g⟩) (htable : HasGdt16 g t.mem) :
    t.loadSeg r sel = some ⟨sel, 0, false⟩ := by
  have hbyte : ∀ i : UInt32, i.toNat < 8 →
      t.descriptorByte sel i = (gdt16[(sel &&& 0xFFF8).toNat + i.toNat]?).getD 0 := by
    intro i hi
    refine descriptorByte_gdt16 hgdtr htable ?_
    rcases hsel with rfl | rfl
    · exact lt_trans (Nat.add_lt_add_left hi 16) (by decide)
    · exact Nat.add_lt_add_left hi 24
  have hdesc : t.Describes sel := by
    rw [State.Describes, hgdtr, hbyte 5 (by decide)]
    show _ ∧ _ + 7 ≤ 31 ∧ _
    rcases hsel with rfl | rfl <;> decide
  rw [State.loadSeg, if_pos hpe, if_neg (by rcases hsel with rfl | rfl <;> decide), if_pos hdesc,
    hbyte 2 (by decide), hbyte 3 (by decide), hbyte 4 (by decide), hbyte 6 (by decide),
    hbyte 7 (by decide)]
  rcases hsel with rfl | rfl <;> rfl

/-- **Protection is off**, and all segments but `cs` are those of 16-bit data. -/
theorem enter16_ok (env : Env) (hpe : s.protectedMode = true) (hpg : s.cr0.toNat.testBit 31 = false)
    {g : Nat} (hgdtr : s.gdtr = ⟨31, .ofNat g⟩) (htable : HasGdt16 g M) :
    After env enter16 (fun t => ∃ R F', F' &&& systemFlags = F &&& systemFlags ∧ t = ({ s with
      seg := fun q => if q ∈ dataSegs ++ [SegReg.ss] then ⟨dataSel, 0, false⟩ else s.seg q
      cr0 := s.cr0 &&& 0xFFFFFFFE }).upd R F' M) (s.upd R F M) := by
  refine after_movImm fun R₁ h₁ => ?_
  have hax : (R₁ .eax).toUInt16 = dataSel := h₁.toUInt16_eq
  refine after_movToSegs _ hax (fun r _ seg _ => loadSeg_gdt16 (.inr rfl) hpe hgdtr htable) ?_
  refine after_movFromCr0 fun R₂ h₂ => ?_
  refine after_aluImm fun R₃ F₃ h₃ hF₃ => ?_
  have hcr0 : R₃ .eax = s.cr0 &&& 0xFFFFFFFE := by
    have hold : R₂ .eax = s.cr0 := h₂.value
    have hnew : R₃ .eax = R₂ .eax &&& 0xFFFFFFFE := h₃.value
    rw [hnew, hold]
  refine after_movToCr0 (fun hbit => ?_) (after_nil ⟨R₃, F₃, hF₃, by rw [hcr0]⟩)
  rw [hcr0, UInt32.toNat_and, Nat.testBit_and, hpg, Bool.false_and] at hbit
  exact absurd hbit Bool.false_ne_true

/-- The stack of 16-bit code. -/
def Layout.stackSeg (l : Layout) : Seg :=
  ⟨.ofNat (l.stack16Start / 16), .ofNat l.stack16Start, false⟩

/-- The segments of real-mode code; `es` may be that of the stack. -/
def Layout.realSegs (l : Layout) (seg : SegReg → Seg) (q : SegReg) : Seg :=
  if q ∈ [SegReg.ss] then l.stackSeg else if q ∈ dataSegs then ⟨0, 0, false⟩ else seg q

theorem stackSeg_sel (hl : l.Linked) :
    ((UInt32.ofNat l.stack16Start) >>> 4).toUInt16 = l.stackSeg.sel ∧
      l.stackSeg.sel.toUInt32 <<< 4 = l.stackSeg.base := by
  have hstack := hl.stack
  have hargs := hl.args
  have hsp := hl.sp
  have hlow := hl.low
  have hnat : (UInt32.ofNat l.stack16Start).toNat = l.stack16Start :=
    UInt32.toNat_ofNat_of_lt' (by rw [UInt32.size]; omega)
  have hsel : l.stackSeg.sel.toNat = l.stack16Start / 16 :=
    UInt16.toNat_ofNat_of_lt' (by rw [UInt16.size]; omega)
  constructor
  · refine UInt16.toNat_inj.mp ?_
    rw [UInt32.toNat_toUInt16, UInt32.toNat_shiftRight, hnat, hsel]
    show l.stack16Start >>> 4 % 2 ^ 16 = _
    rw [Nat.shiftRight_eq_div_pow]
    omega
  · refine UInt32.toNat_inj.mp ?_
    rw [UInt32.toNat_shiftLeft, UInt16.toNat_toUInt32, hsel]
    show (l.stack16Start / 16) <<< 4 % 2 ^ 32 = _
    rw [Nat.shiftLeft_eq, show l.stackSeg.base.toNat = l.stack16Start from hnat]
    omega

/-- **Real mode is set up**: the segments, the stack, and the count. -/
theorem setup16_ok (hl : l.Linked) (hreal : s.protectedMode = false)
    (hbig : ∀ r, (s.seg r).big = false) (hdev : env.device (.ofNat l.savedSp16) = false)
    (hargc : load M (.ofNat (l.args16Start + argcOffset)) 2 = n) :
    After env (setup16 l) (fun t => ∃ R F', F' &&& systemFlags = F &&& systemFlags ∧
      t = ({ s with seg := l.realSegs s.seg }).upd R F' (store M (.ofNat l.savedSp16) 2 0x4000) ∧
        R .esp = 0x4000 ∧ low16 (R .ecx) = n ∧ t.zf = decide (n = 0)) (s.upd R F M) := by
  have hoff : argcOffset = 24 := rfl
  have hsp := hl.sp
  have hlow := hl.low
  have hn : n < 2 ^ 16 := by
    rw [← hargc]
    exact load_lt
  obtain ⟨hsel, hbase⟩ := stackSeg_sel hl
  refine after_movImm fun R₁ h₁ => ?_
  refine after_movToSegs_real dataSegs hreal hbig (h₁.toUInt16_eq (v := 0)) ?_
  refine after_movImm fun R₂ h₂ => ?_
  refine after_aluImm fun R₃ F₃ h₃ hF₃ => ?_
  have hax : (R₃ .eax).toUInt16 = l.stackSeg.sel := by
    have hold : R₂ .eax = .ofNat l.stack16Start := h₂.value
    have hnew : R₃ .eax = R₂ .eax >>> 4 := h₃.value
    rw [hnew, hold, hsel]
  have hbig' : ∀ q, (if q ∈ dataSegs then (⟨0, 0, false⟩ : Seg) else s.seg q).big = false := by
    intro q
    split
    · rfl
    · exact hbig q
  refine after_movToSegs_real [.ss] hreal hbig' hax ?_
  rw [hbase]
  refine after_movImm fun R₄ h₄ => ?_
  have hds : (({ s with seg := l.realSegs s.seg } : State).seg .ds).base = 0 := rfl
  refine after_store hds (fun _ => by omega) hdev ?_
  have hesp : R₄ .esp = 0x4000 := h₄.value
  rw [hesp]
  refine after_load hds (fun _ => by omega) fun R₅ h₅ => ?_
  have hcx : low16 (R₅ .ecx) = n := by
    rw [h₅.low16_eq]
    show low16 (.ofNat (load (store M (.ofNat l.savedSp16) 2 0x4000)
      (.ofNat (l.args16Start + argcOffset)) 2)) = n
    rw [load_store_place (by omega) (by omega) (by omega), hargc, low16_ofNat hn]
  refine after_cmpZero fun F' hzf hF' => after_nil ⟨R₅, F', hF'.trans hF₃, rfl, ?_, hcx, ?_⟩
  · rw [h₅.others .esp (by decide), hesp]
  · rw [hzf, ← hcx]
    exact decide_eq_decide.mpr UInt32.toNat_inj.symm

/-- The arguments of a real-mode function stand at `sp`, the first one lowest. -/
structure ArgsAt (l : Layout) (n sp : Nat) (m m' : Memory) : Prop where
  args : ∀ i < n, load m' (.ofNat (l.stack16Start + sp + 2 * i)) 2 =
    load m (.ofNat (l.args16Start + funcArgsOffset + 2 * i)) 2
  frame : ∀ x : UInt32, x.toNat < l.stack16Start + sp ∨ l.stack16Start + 0x4002 ≤ x.toNat →
    m' x = m x

/-- The registers of `rep movsw`, for `n` words from the last one down, and the stack pointer below
them. -/
structure Pointed (l : Layout) (n : Nat) (R : Reg → UInt32) : Prop where
  esp : low16 (R .esp) = 0x4002 - 2 * n
  ecx : low16 (R .ecx) = n
  esi : low16 (R .esi) = l.args16Start + 24 + 2 * n
  edi : low16 (R .edi) = 0x4000

/-- The count is made one of bytes, the pointers are moved by it, and it is made one of words
again. -/
theorem movePointers_ok {is : List Instr} {P : State → Prop} (hl : l.Linked) (hn : n ≤ maxFuncArgs)
    (hcx : low16 (R .ecx) = n) (hsi : low16 (R .esi) = l.args16Start + 26)
    (hdi : low16 (R .edi) = 0x4000) (hsp : low16 (R .esp) = 0x4000) (hF : Quiet F)
    (h : ∀ R' F', Pointed l n R' → Quiet F' → After env is P (s.upd R' F' M)) :
    After env (.alu .shl .w16 .ecx (.imm 1) :: .alu .add .w16 .esi (.reg .ecx) ::
      .alu .sub .w16 .esi (.imm 2) :: .alu .sub .w16 .esp (.reg .ecx) ::
        .alu .add .w16 .esp (.imm 2) :: .alu .shr .w16 .ecx (.imm 1) :: is) P (s.upd R F M) := by
  have hmax : maxFuncArgs = 11 := rfl
  have htwo : low16 2 = 2 := rfl
  have hspace := hl.sp
  have hlow := hl.low
  refine after_aluImm fun R₁ F₁ h₁ hF₁ => ?_
  have hcx₁ : low16 (R₁ .ecx) = 2 * n := by
    rw [h₁.low16_shl, hcx]
    omega
  refine after_aluReg fun R₂ F₂ h₂ hF₂ => ?_
  have hsi₂ : low16 (R₂ .esi) = l.args16Start + 26 + 2 * n := by
    rw [h₂.low16_add, h₁.others .esi (by decide), hsi, hcx₁]
    omega
  refine after_aluImm fun R₃ F₃ h₃ hF₃ => ?_
  have hsi₃ : low16 (R₃ .esi) = l.args16Start + 24 + 2 * n := by
    rw [h₃.low16_sub (by omega), hsi₂, htwo]
    omega
  have hcx₃ : low16 (R₃ .ecx) = 2 * n := by
    rw [h₃.others .ecx (by decide), h₂.others .ecx (by decide), hcx₁]
  have hsp₃ : low16 (R₃ .esp) = 0x4000 := by
    rw [h₃.others .esp (by decide), h₂.others .esp (by decide), h₁.others .esp (by decide), hsp]
  have hdi₃ : low16 (R₃ .edi) = 0x4000 := by
    rw [h₃.others .edi (by decide), h₂.others .edi (by decide), h₁.others .edi (by decide), hdi]
  refine after_aluReg fun R₄ F₄ h₄ hF₄ => ?_
  have hsp₄ : low16 (R₄ .esp) = 0x4000 - 2 * n := by
    rw [h₄.low16_sub (by omega), hsp₃, hcx₃]
  refine after_aluImm fun R₅ F₅ h₅ hF₅ => ?_
  have hsp₅ : low16 (R₅ .esp) = 0x4002 - 2 * n := by
    rw [h₅.low16_add, hsp₄, htwo]
    omega
  refine after_aluImm fun R₆ F₆ h₆ hF₆ => h R₆ F₆ ⟨?_, ?_, ?_, ?_⟩ (quiet_of_systemFlags
    (hF₆.trans (hF₅.trans (hF₄.trans (hF₃.trans (hF₂.trans hF₁))))) hF)
  · rw [h₆.others .esp (by decide), hsp₅]
  · rw [h₆.low16_shr, h₅.others .ecx (by decide), h₄.others .ecx (by decide), hcx₃]
    omega
  · rw [h₆.others .esi (by decide), h₅.others .esi (by decide), h₄.others .esi (by decide), hsi₃]
  · rw [h₆.others .edi (by decide), h₅.others .edi (by decide), h₄.others .edi (by decide), hdi₃]

/-- The words are copied, from the last one down. -/
theorem moveWords_ok (hl : l.Linked) (hds : s.seg .ds = ⟨0, 0, false⟩)
    (hes : s.seg .es = l.stackSeg)
    (hdev : ∀ x : UInt32, l.stack16Start ≤ x.toNat → x.toNat < l.stack16Start + 0x4002 →
      env.device x = false)
    (hn : n ≤ maxFuncArgs) (h : Pointed l n R) (hF : Quiet F) :
    After env [.std, .repMovsw, .cld] (fun t => ∃ R F M', t = s.upd R F M' ∧
      low16 (R .esp) = 0x4002 - 2 * n ∧ Quiet F ∧ ArgsAt l n (0x4002 - 2 * n) M M')
      (s.upd R F M) := by
  have hoff : funcArgsOffset = 26 := rfl
  have hmax : maxFuncArgs = 11 := rfl
  have hargs := hl.args
  have hsp := hl.sp
  have hlow := hl.low
  have hsi := h.esi
  have hdi := h.edi
  have hstart : (UInt32.ofNat l.stack16Start).toNat = l.stack16Start :=
    UInt32.toNat_ofNat_of_lt' (by rw [UInt32.size]; omega)
  refine after_std ?_
  refine after_repMovsw (A := l.args16Start + 24 + 2 * n) (B := l.stack16Start + 0x4000) h.ecx
    (directionFlag_of_std F) ?_ ?_ (by omega) (by omega) (by omega) (by omega)
    (fun x hlt hle => hdev x (by omega) (by omega)) fun R' M' hcopied => ?_
  · show (s.seg .ds).base.toNat + _ = _
    rw [hds, hsi]
    exact Nat.zero_add _
  · show (s.seg .es).base.toNat + _ = _
    rw [hes, hdi]
    exact congrArg (· + 0x4000) hstart
  refine after_cld (after_nil ⟨R', _, M', rfl, ?_, quiet_cld_std hF, fun i hi => ?_,
    fun x hout => hcopied.frame x (by omega)⟩)
  · rw [show R' .esp = R .esp from hcopied.reg .esp (by decide) (by decide) (by decide), h.esp]
  · have hword := hcopied.words (n - 1 - i) (by omega)
    have hdst : l.stack16Start + 0x4000 - 2 * (n - 1 - i) =
        l.stack16Start + (0x4002 - 2 * n) + 2 * i := by omega
    have hsrc : l.args16Start + 24 + 2 * n - 2 * (n - 1 - i) =
        l.args16Start + funcArgsOffset + 2 * i := by omega
    rw [hdst, hsrc] at hword
    exact hword

/-- **The arguments are copied**; the last one ends 2 bytes behind the stack. -/
theorem copyArgs_ok (hl : l.Linked) (hreal : s.protectedMode = false)
    (hbig : ∀ r, (s.seg r).big = false) (hss : s.seg .ss = l.stackSeg)
    (hds : s.seg .ds = ⟨0, 0, false⟩)
    (hdev : ∀ x : UInt32, l.stack16Start ≤ x.toNat → x.toNat < l.stack16Start + 0x4002 →
      env.device x = false)
    (hesp : R .esp = 0x4000) (hcx : low16 (R .ecx) = n) (hn : n ≤ maxFuncArgs) (hF : Quiet F) :
    After env (copyArgs l) (fun t => ∃ R F M',
      t = ({ s with seg := fun q => if q ∈ [SegReg.es] then l.stackSeg else s.seg q }).upd R F M' ∧
        low16 (R .esp) = 0x4002 - 2 * n ∧ Quiet F ∧ ArgsAt l n (0x4002 - 2 * n) M M')
      (s.upd R F M) := by
  have hsp := hl.sp
  have hlow := hl.low
  obtain ⟨-, hbase⟩ := stackSeg_sel hl
  have hsp₀ : low16 (R .esp) = 0x4000 := by rw [hesp]; decide
  refine after_movFromSeg fun R₁ h₁ => ?_
  have hax : (R₁ .eax).toUInt16 = l.stackSeg.sel := by
    rw [h₁.toUInt16_eq, hss, UInt16.toUInt16_toUInt32]
  refine after_movToSegs_real [.es] hreal hbig hax ?_
  rw [hbase]
  refine after_movReg fun R₂ h₂ => ?_
  have hdi₂ : low16 (R₂ .edi) = 0x4000 := by
    rw [h₂.low16_eq, low16_trunc, h₁.others .esp (by decide), hsp₀]
  have hoff : funcArgsOffset = 26 := rfl
  refine after_lea (fun _ => by omega) fun R₃ h₃ => ?_
  refine movePointers_ok hl hn ?_ ?_ ?_ ?_ hF fun R' F' hR' hF' =>
    moveWords_ok hl hds rfl hdev hn hR' hF'
  · rw [h₃.others .ecx (by decide), h₂.others .ecx (by decide), h₁.others .ecx (by decide), hcx]
  · rw [h₃.low16_eq, low16_ofNat (by omega), hoff]
  · rw [h₃.others .edi (by decide), hdi₂]
  · rw [h₃.others .esp (by decide), h₂.others .esp (by decide), h₁.others .esp (by decide), hsp₀]

/-! ## 3. The function and the way back -/

/-- The stack of 16-bit code, and the 2 bytes behind it. -/
def Layout.RealStack (l : Layout) (x : UInt32) : Prop :=
  l.stack16Start ≤ x.toNat ∧ x.toNat < l.stack16Start + 0x4002

/-- `args16_start` and `saved_sp16`. -/
def Layout.Fixed (l : Layout) (x : UInt32) : Prop :=
  (l.args16Start ≤ x.toNat ∧ x.toNat < l.args16Start + 48) ∨
    (l.savedSp16 ≤ x.toNat ∧ x.toNat < l.savedSp16 + 2)

/-- A state in which a real-mode function can begin. -/
structure RealEnterable (l : Layout) (e : State) : Prop where
  realMode : e.protectedMode = false
  cs : e.seg .cs = ⟨0, 0, false⟩
  ds : e.seg .ds = ⟨0, 0, false⟩
  ss : e.seg .ss = l.stackSeg
  quiet : Quiet e.eflags

/-- VM, which real-mode code cannot set. -/
def virtualFlag : UInt32 := 0x20000

/-- A real-mode function with variables of its own: it leaves `ds`, stays in real mode, and writes
to its variables and to the stack only. -/
def RealFunction (own : UInt32 → Prop) (l : Layout) (f : State → State) : Prop :=
  ∀ e, RealEnterable l e → (f e).seg .ds = e.seg .ds ∧ (f e).cr0 = e.cr0 ∧
    (f e).eflags &&& virtualFlag = 0 ∧
      ∀ x, ¬ own x → ¬ l.RealStack x → (f e).mem x = e.mem x

/-- Protection is switched off and on. -/
theorem cr0_restored {c : UInt32} (h : c.toNat.testBit 0 = true) : c &&& 0xFFFFFFFE ||| 1 = c := by
  have hodd : c.toNat % 2 = 1 := by
    rw [Nat.testBit_zero] at h
    exact of_decide_eq_true h
  have heven : (c &&& 0xFFFFFFFE).toNat = c.toNat / 2 * 2 :=
    WordField.toNat_and_high c.toBitVec 1
  refine UInt32.toNat_inj.mp ?_
  have hor := Nat.two_pow_add_eq_or_of_lt (show 1 < 2 ^ 1 by decide) (c.toNat / 2)
  rw [UInt32.toNat_or, heven, Nat.mul_comm]
  exact hor.symm.trans (by omega)

/-- **Protection is on again**, with the table of before; the result is kept. -/
theorem leave16_ok {p : State} (hl : l.Linked) (hds : (s.seg .ds).base = 0)
    (hparked : Parked l p s.mem) (hgdtr : p.gdtr.base &&& 0xFFFFFF = p.gdtr.base)
    (hcr0 : s.cr0 = p.cr0 &&& 0xFFFFFFFE) (hpe : p.protectedMode = true)
    (hdev : env.device (.ofNat (l.args16Start + ret1Offset)) = false) :
    After env (leave16 l) (fun t => ∃ R F, F &&& systemFlags = s.eflags &&& systemFlags ∧
      t = ({ s with gdtr := p.gdtr, cr0 := p.cr0 }).upd R F
        (store s.mem (.ofNat (l.args16Start + ret1Offset)) 2 (low16 (s.reg .eax)))) s := by
  have hoff : ret1Offset = 16 := rfl
  have hsp := hl.sp
  have hlow := hl.low
  have hback := cr0_restored hpe
  show After env (leave16 l) _ (s.upd s.reg s.eflags s.mem)
  refine after_store hds (fun _ => by omega) hdev ?_
  refine after_load hds (fun _ => by omega) fun R₁ h₁ => ?_
  obtain ⟨M, hM⟩ : ∃ M, store s.mem (.ofNat (l.args16Start + ret1Offset)) 2 (low16 (s.reg .eax)) =
    M := ⟨_, rfl⟩
  have hkept : Parked l p M := hparked.congr hl fun x hlo hhi => by
    rw [← hM]
    exact store_place_of_apart (by omega) (by omega)
  refine after_lgdt p.gdtr.limit p.gdtr.base hds (fun _ => ?_) ?_ ?_
    (fun _ => hgdtr) ?_
  · show l.args16Start + 0 < 2 ^ 16
    omega
  · show load (store s.mem (.ofNat (l.args16Start + ret1Offset)) 2 (low16 (s.reg .eax)))
      (.ofNat l.args16Start) 2 = _
    rw [hM]
    exact hkept.limit
  · show load (store s.mem (.ofNat (l.args16Start + ret1Offset)) 2 (low16 (s.reg .eax)))
      (.ofNat (l.args16Start + 2)) 4 = _
    rw [hM]
    exact hkept.base
  refine after_movFromCr0 fun R₂ h₂ => ?_
  refine after_aluImm fun R₃ F₃ h₃ hF₃ => ?_
  have hcr0' : R₃ .eax = p.cr0 := by
    have hold : R₂ .eax = s.cr0 := h₂.value
    have hnew : R₃ .eax = R₂ .eax ||| 1 := h₃.value
    rw [hnew, hold, hcr0, hback]
  refine after_movToCr0 (fun _ => ?_) (after_nil ⟨R₃, F₃, hF₃, by rw [hcr0']; rfl⟩)
  rw [hcr0']
  exact hpe

end Phases

section Stack

variable {env : Env} {l : Layout} {own : UInt32 → Prop} {m : Memory} {lo top : Nat}
  {ws : List UInt32} {s p t : State}

/-- The words that `pm32_to_pm16` saves, the last one first. -/
def savedWords (s : State) : List UInt32 :=
  (savedSegs.reverse.map fun r => (s.seg r).sel.toUInt32) ++
    s.flagsImage :: State.pushaOrder.reverse.map s.reg

theorem saveRegisters_ok (h : Stacked own m lo top ws s) (R : StackRegion env own lo top)
    (hroom : lo + 52 ≤ (s.reg .esp).toNat) :
    ∃ t, execs env saveRegisters s = some t ∧ Stacked own m lo top (savedWords s ++ ws) t ∧
      OnlyStack s t := by
  obtain ⟨hregs, honly⟩ := h.pushes (State.pushaOrder.map s.reg) R
    (by rw [List.length_map]; show lo + 32 ≤ _; omega)
  have hdepth := h.depth
  have hdepth₁ := hregs.depth
  rw [List.length_append, List.length_reverse, List.length_map] at hdepth₁
  have hlen : State.pushaOrder.length = 8 := rfl
  obtain ⟨u, hu⟩ : ∃ u, s.pusha env = u := ⟨_, rfl⟩
  rw [show (State.pushaOrder.map s.reg).foldl (fun t v => t.push env .w32 v) s = u from hu]
    at hregs honly hdepth₁
  have hflags := hregs.push R (by omega) s.flagsImage
  have honly' := hregs.onlyStack_push R (by omega) s.flagsImage
  have hdepth₂ := hflags.depth
  rw [List.length_cons, List.length_append, List.length_reverse, List.length_map] at hdepth₂
  obtain ⟨hsegs, honly''⟩ := hflags.pushes (savedSegs.map fun r => (s.seg r).sel.toUInt32) R
    (by rw [List.length_map]; show _ + 16 ≤ _; omega)
  refine ⟨_, ?_, ?_, (honly.trans honly').trans honly''⟩
  · have himage : u.flagsImage = s.flagsImage := by
      rw [State.flagsImage, honly.eflags]
      rfl
    have hpushf : exec env .pushf u = some (u.push env .w32 s.flagsImage) := by
      rw [exec, himage]
    have hseg : (u.push env .w32 s.flagsImage).seg = s.seg := (honly.trans honly').seg
    have hpusha : exec env .pusha s = some u := congrArg some hu
    rw [saveRegisters, execs_cons hpusha, execs_cons hpushf, execs_pushSeg, hseg]
  · rw [savedWords, List.append_assoc, List.map_reverse, List.map_reverse]
    exact hsegs

/-- **The stack is taken back**: `esp` and `ss` as they were saved. -/
theorem takeBack_ok (env : Env) (hds : (s.seg .ds).base = 0) (hparked : Parked l p s.mem)
    (hss : s.loadSeg .ss (p.seg .ss).sel = some (p.seg .ss)) :
    After env (takeBack l) (fun t => ∃ R, t =
      ({ s with seg := Function.update s.seg .ss (p.seg .ss) }).upd R s.eflags s.mem ∧
        R .esp = p.reg .esp) s := by
  show After env (takeBack l) _ (s.upd s.reg s.eflags s.mem)
  refine after_load hds (by simp) fun R₁ h₁ => ?_
  refine after_load hds (by simp) fun R₂ h₂ => ?_
  have hesp : R₂ .esp = p.reg .esp := by
    have hload : R₁ .esp = .ofNat (load s.mem (.ofNat (l.args16Start + espOffset)) 4) := h₁.value
    rw [h₂.others .esp (by decide), hload, hparked.esp, UInt32.ofNat_toNat]
  have hax : (R₂ .eax).toUInt16 = (p.seg .ss).sel := by
    have hload : (R₂ .eax).toUInt16 =
        (UInt32.ofNat (load s.mem (.ofNat (l.args16Start + ssOffset)) 2)).toUInt16 :=
      h₂.toUInt16_eq
    rw [hload, hparked.ss, ← UInt16.toNat_toUInt32, UInt32.ofNat_toNat, UInt16.toUInt16_toUInt32]
  refine after_cons ?_ (after_nil ⟨R₂, rfl, hesp⟩)
  rw [exec, State.setSeg, show (State.reg _ .eax).toUInt16 = _ from hax,
    show (s.upd R₂ s.eflags s.mem).loadSeg .ss (p.seg .ss).sel = _ from hss]
  rfl

/-- **All is restored** but `eax`, which is the result. -/
theorem restoreRegisters_ok (env : Env) (l : Layout) (h : Stacked own m lo top (savedWords s ++ ws) t)
    (hfits : top < 2 ^ 32) (hco : ∀ r ∈ savedSegs, s.Coherent r) (htable : SameTable s t)
    (hpe : s.protectedMode = true) (hds : (s.seg .ds).base = 0)
    (hvm : t.eflags &&& virtualFlag = 0) :
    ∃ u, execs env (restoreRegisters l) t = some u ∧ Stacked own m lo top ws u ∧
      (∀ r, r ≠ .esp → r ≠ .eax → u.reg r = s.reg r) ∧
      u.reg .eax = .ofNat (load t.mem (.ofNat (l.args16Start + ret1Offset)) 2) ∧
      (∀ r, u.seg r = if r ∈ savedSegs then s.seg r else t.seg r) ∧ u.mem = t.mem ∧
      u.eflags = s.eflags &&& 0xE4FFFF ∧ u.cr0 = t.cr0 ∧ u.gdtr = t.gdtr ∧ u.log = t.log := by
  rw [savedWords, List.append_assoc] at h
  obtain ⟨t₁, hx₁, h₁, hseg₁, -, hmem₁, hcontrol₁⟩ := h.popSegs env hfits (by decide)
    (fun r hr => hco r (List.mem_reverse.mp hr)) htable hpe
  have hdrop := h₁.drop hfits
  have htop := h₁.top_eq
  obtain ⟨t₂, ht₂⟩ : ∃ t₂, (t₁.drop .w32).setFlags s.flagsImage = t₂ := ⟨_, rfl⟩
  have hx₂ : exec env .popf t₁ = some t₂ := by rw [exec, htop, ht₂]
  have h₂ : Stacked own m lo top (State.pushaOrder.reverse.map s.reg ++ ws) t₂ := by
    rw [← ht₂]
    exact hdrop.congr rfl rfl rfl
  obtain ⟨t₃, ht₃, h₃, hreg₃, hseg₃, hmem₃, hcontrol₃⟩ := h₂.popRegs hfits (by decide)
  have hx₃ : exec env .popa t₂ = some t₃ := congrArg some ht₃
  have hseg : t₃.seg = t₁.seg := by
    rw [hseg₃, ← ht₂]
    exact drop_seg
  have hmem : t₃.mem = t.mem := by
    rw [hmem₃, ← ht₂, ← hmem₁]
    exact drop_mem
  have hds₃ : (t₃.seg .ds).base = 0 := by
    rw [hseg, hseg₁, if_pos (by decide), hds]
  obtain ⟨v, hv⟩ : ∃ v, UInt32.ofNat (load t.mem (.ofNat (l.args16Start + ret1Offset)) 2) = v :=
    ⟨_, rfl⟩
  have hx₄ : exec env (.movzx .eax (l.arg .w32 ret1Offset)) t₃ = some (t₃.setReg .eax v) := by
    have haddr : t₃.addr (l.arg .w32 ret1Offset) = .ofNat (l.args16Start + ret1Offset) :=
      addr_plain hds₃ (by simp)
    rw [exec, haddr, State.loadAt, hmem]
    exact congrArg (fun v => some (t₃.setReg .eax v)) hv
  rw [hv]
  refine ⟨t₃.setReg .eax v, ?_, h₃.congr rfl (setReg_of_ne (by decide)) rfl, fun r hr hr' => ?_,
    setReg_self, fun r => ?_, hmem, ?_, ?_, ?_, ?_⟩
  · rw [restoreRegisters, execs_append hx₁, execs_cons hx₂, execs_cons hx₃, execs_cons hx₄, execs]
  · rw [setReg_of_ne hr', hreg₃ r hr, if_pos (by cases r <;> decide)]
  · show t₃.seg r = _
    rw [hseg, hseg₁]
    simp only [List.mem_reverse]
  · show t₃.eflags = _
    have hflags : t₂.eflags =
        s.flagsImage &&& ~~~State.resumeFlags ||| (t₁.drop .w32).eflags &&& virtualFlag := by
      rw [← ht₂]
      rfl
    have hmask : (0xFCFFFF : UInt32) &&& ~~~State.resumeFlags = 0xE4FFFF := rfl
    rw [hcontrol₃.eflags, hflags, drop_eflags, hcontrol₁.eflags, hvm, UInt32.or_zero,
      State.flagsImage, UInt32.and_assoc, hmask]
  · show t₃.cr0 = _
    rw [hcontrol₃.cr0, ← ht₂, ← hcontrol₁.cr0]
    exact drop_cr0
  · show t₃.gdtr = _
    rw [hcontrol₃.gdtr, ← ht₂, ← hcontrol₁.gdtr]
    exact drop_gdtr
  · show t₃.log = _
    rw [hcontrol₃.log, ← ht₂, ← hcontrol₁.log]
    exact drop_log

end Stack

/-! ## 4. From protected mode to the function -/

/-- What may change in a call. -/
def Layout.Used (l : Layout) (own : UInt32 → Prop) (x : UInt32) : Prop :=
  own x ∨ l.RealStack x ∨ l.Fixed x

/-- The 32-bit stack that the wrapper uses. -/
def wrapperStack : Nat := 56

/-- **A call can be made**: the 16-bit table stands in memory, and there is no paging. The base of
the kernel's table has 24 bits, of which alone `lgdt` in 16-bit code loads. -/
structure Ready (env : Env) (own : UInt32 → Prop) (l : Layout) (lo : Nat) (s : State) : Prop where
  machine : Interruptible env (l.Used own) lo wrapperStack codeSel s
  linked : l.Linked
  code32 : (s.seg .cs).big = true
  dataFlat : (s.seg .ds).base = 0
  noPaging : s.cr0.toNat.testBit 31 = false
  gdtBase : s.gdtr.base &&& 0xFFFFFF = s.gdtr.base
  limit16 : load s.mem (.ofNat l.gdt16Descriptor) 2 = 31
  base16 : load s.mem (.ofNat (l.gdt16Descriptor + 2)) 4 = l.gdt16Start
  table16 : HasGdt16 l.gdt16Start s.mem
  tableApart : ∀ x : UInt32, l.gdt16Descriptor ≤ x.toNat → x.toNat < l.gdt16Descriptor + 38 →
    x.toNat < lo ∨ (s.reg .esp).toNat ≤ x.toNat
  device : ∀ x, l.RealStack x ∨ l.Fixed x → env.device x = false
  ownApart : ∀ x, own x → ¬ l.RealStack x ∧ ¬ l.Fixed x
  top : (s.reg .esp).toNat + 4 ≤ 2 ^ 32
  returnAddress : ∀ x : UInt32, (s.reg .esp).toNat ≤ x.toNat →
    x.toNat < (s.reg .esp).toNat + 4 → ¬ l.Used own x

/-- Two intervals of addresses that have nothing in common. -/
theorem apart_of_disjoint {a b c d : Nat} (hab : a < b) (hcd : c < d) (hb : b ≤ 2 ^ 32)
    (h : ∀ x : UInt32, a ≤ x.toNat → x.toNat < b → x.toNat < c ∨ d ≤ x.toNat) : b ≤ c ∨ d ≤ a := by
  by_contra hin
  rw [not_or, Nat.not_le, Nat.not_le] at hin
  have hmax : (UInt32.ofNat (max a c)).toNat = max a c :=
    UInt32.toNat_ofNat_of_lt' (by rw [UInt32.size]; omega)
  have hx := h (.ofNat (max a c)) (by rw [hmax]; omega) (by rw [hmax]; omega)
  rw [hmax] at hx
  omega

section Call

variable {env : Env} {own : UInt32 → Prop} {l : Layout} {lo n : Nat} {target func : UInt32}
  {s p q u : State} {m : Memory} {args : List UInt32} {junk : Nat → UInt32} {mem : Nat → UInt16}
  {r : CallState}

/-- In 16-bit protected mode, after `p` saved its registers. -/
structure InPm16 (l : Layout) (p q : State) : Prop where
  cs : q.seg .cs = ⟨codeSel, 0, false⟩
  cr0 : q.cr0 = p.cr0
  gdtr : q.gdtr = ⟨31, .ofNat l.gdt16Start⟩
  log : q.log = p.log
  quiet : Quiet q.eflags
  table : HasGdt16 l.gdt16Start q.mem
  parked : Parked l p q.mem
  frame : ∀ x : UInt32, (x.toNat < l.args16Start ∨ l.args16Start + 16 ≤ x.toNat) →
    (x.toNat + 4 < (p.reg .esp).toNat ∨ (p.reg .esp).toNat ≤ x.toNat) → q.mem x = p.mem x

/-- **The first part**: registers saved, and into 16-bit code. -/
theorem Ready.toPm16 (h : Ready env own l lo s) :
    ∃ p q, (∀ r, Runs env (wrapper l) (wrapper l) s r ↔ Runs env (wrapper l) (pm16Lines l) q r) ∧
      Stacked nobody s.mem lo (s.reg .esp).toNat (savedWords s) p ∧ OnlyStack s p ∧
        (p.reg .esp).toNat + 52 = (s.reg .esp).toNat ∧ InPm16 l p q := by
  have hl := h.linked
  have hargs := hl.args
  have hsp := hl.sp
  have hlow := hl.low
  have hdesc := hl.descriptor
  have htable := hl.table
  have hfits := hl.fits
  have R := h.machine.stack
  have hroom := h.machine.room
  have hstack : wrapperStack = 56 := rfl
  have hesp32 : (s.reg .esp).toNat < 2 ^ 32 := (s.reg .esp).toNat_lt
  have hstart : Stacked nobody s.mem lo (s.reg .esp).toNat [] s :=
    .start h.machine.flat (by omega)
  obtain ⟨p, hx₁, hp, honly⟩ := saveRegisters_ok hstart R.unowned (by omega)
  rw [List.append_nil] at hp
  have hdepth := hp.depth
  have hlen : (savedWords s).length = 13 := rfl
  rw [hlen] at hdepth
  have hfixed : ∀ k < 48, l.Fixed (.ofNat (l.args16Start + k)) := by
    intro k hk
    have hnat : (UInt32.ofNat (l.args16Start + k)).toNat = l.args16Start + k :=
      UInt32.toNat_ofNat_of_lt' (by rw [UInt32.size]; omega)
    exact .inl ⟨by omega, by omega⟩
  have hapart : l.args16Start + 48 ≤ lo ∨ (s.reg .esp).toNat ≤ l.args16Start := by
    refine apart_of_disjoint (by omega) (by omega) (by omega) fun x hlo hhi => ?_
    by_contra hin
    rw [not_or, Nat.not_lt, Nat.not_le] at hin
    exact R.own x hin.1 hin.2 (.inr (.inr (.inl ⟨hlo, hhi⟩)))
  have hapart' : l.gdt16Descriptor + 38 ≤ lo ∨ (s.reg .esp).toNat ≤ l.gdt16Descriptor :=
    apart_of_disjoint (by omega) (by omega) (by omega) h.tableApart
  have hmem : ∀ x : UInt32, l.gdt16Descriptor ≤ x.toNat → x.toNat < l.gdt16Descriptor + 38 →
      p.mem x = s.mem x := fun x hlo hhi => hp.frame x not_false (by omega)
  have hespp : (p.reg .esp - 4).toNat = (p.reg .esp).toNat - 4 :=
    toNat_sub_ofNat (n := 4) (by omega)
  have hload : ∀ k w, k + w ≤ 38 → load p.mem (.ofNat (l.gdt16Descriptor + k)) w =
      load s.mem (.ofNat (l.gdt16Descriptor + k)) w := fun k w hk =>
    load_congr_region (by omega) fun x hlo hhi => hmem x (by omega) (by omega)
  obtain ⟨t, hx₂, R₁, M₁, ht, hparked, hframe⟩ := park_ok (s := p) hl
    (by rw [honly.seg]; exact h.dataFlat) hp.flat (fun k hk => h.device _ (.inr (hfixed k hk)))
    (R.device _ (by omega) (by omega)) (by omega) (by omega) (by omega)
    ((hload 0 2 (by decide)).trans h.limit16) ((hload 2 4 (by decide)).trans h.base16)
  have htable' : HasGdt16 l.gdt16Start M₁ := by
    intro i hi
    have hnat : (UInt32.ofNat (l.gdt16Start + i)).toNat = l.gdt16Start + i :=
      UInt32.toNat_ofNat_of_lt' (by rw [UInt32.size]; omega)
    rw [hframe _ (by omega) (by omega), hmem _ (by omega) (by omega)]
    exact h.table16 i hi
  obtain ⟨q, hq⟩ : ∃ q, { t with seg := Function.update t.seg .cs ⟨codeSel, 0, false⟩ } = q :=
    ⟨_, rfl⟩
  have hcs : q.seg .cs = ⟨codeSel, 0, false⟩ := by
    rw [← hq]
    show Function.update t.seg .cs _ .cs = _
    exact Function.update_self _ _ _
  have hset : t.setSeg .cs codeSel = some q := by
    have hpe : t.protectedMode = true := by
      rw [ht, State.protectedMode]
      show p.cr0.toNat.testBit 0 = true
      rw [honly.cr0]
      exact h.machine.protectedMode
    rw [State.setSeg, loadSeg_gdt16 (.inl rfl) hpe (by rw [ht]; rfl) (by rw [ht]; exact htable')]
    exact congrArg some hq
  have hjmp : t.jmpFar (wrapper l) codeSel .pm16ToReal16 = some (pm16Lines l, q) := by
    refine jmpFar_ok hset (behind_pm16ToReal16 l) ?_
    rw [hcs]
    exact iff_of_false Bool.false_ne_true (by decide)
  refine ⟨p, q, fun r => ?_, hp, honly, hdepth, ?_⟩
  · nth_rewrite 2 [wrapper_eq]
    rw [runs_execs ((execs_append hx₁).trans hx₂), runs_jmpFar hjmp]
  · have hdf : p.eflags &&& State.directionFlag = 0 := by
      rw [honly.eflags]
      exact h.machine.direction
    subst hq ht
    exact ⟨hcs, rfl, rfl, rfl, quiet_cli hdf, htable', hparked, hframe⟩

/-- In real mode, with no interrupts. -/
structure InReal (l : Layout) (p q : State) : Prop where
  cs : q.seg .cs = ⟨0, 0, false⟩
  big : ∀ r, (q.seg r).big = false
  cr0 : q.cr0 = p.cr0 &&& 0xFFFFFFFE
  log : q.log = p.log
  quiet : Quiet q.eflags

/-- **Protection is switched off.** -/
theorem InPm16.toReal (env : Env) (h : InPm16 l p q) (hpe : p.protectedMode = true)
    (hpg : p.cr0.toNat.testBit 31 = false) :
    ∃ u, (∀ r, Runs env (wrapper l) (pm16Lines l) q r ↔
        Runs env (wrapper l) (callReal16Lines l) u r) ∧ InReal l p u ∧ u.mem = q.mem := by
  have hpe' : q.protectedMode = true := by
    rw [State.protectedMode, h.cr0]
    exact hpe
  obtain ⟨t, hx, R, F, hF, ht⟩ := enter16_ok env (R := q.reg) (F := q.eflags) (M := q.mem)
    hpe' (by rw [h.cr0]; exact hpg) h.gdtr h.table
  have hcr0 : t.cr0 = p.cr0 &&& 0xFFFFFFFE := by
    rw [ht, ← h.cr0]
    rfl
  have hreal : t.protectedMode = false := by
    have hbit : (0xFFFFFFFE : UInt32).toNat.testBit 0 = false := by decide
    rw [State.protectedMode, hcr0, UInt32.toNat_and, Nat.testBit_and, hbit, Bool.and_false]
  have hcs : t.seg .cs = ⟨codeSel, 0, false⟩ := by
    rw [ht]
    exact h.cs
  obtain ⟨u, hu⟩ : ∃ u, { t with seg := Function.update t.seg .cs ⟨0, 0, false⟩ } = u := ⟨_, rfl⟩
  have hucs : u.seg .cs = ⟨0, 0, false⟩ := by
    rw [← hu]
    show Function.update t.seg .cs _ .cs = _
    exact Function.update_self _ _ _
  have hset : t.setSeg .cs 0 = some u := by
    rw [State.setSeg, loadSeg_real .cs 0 hreal, hcs]
    exact congrArg some hu
  have hjmp : t.jmpFar (wrapper l) 0 .callReal16Function = some (callReal16Lines l, u) := by
    refine jmpFar_ok hset (behind_callReal16Function l) ?_
    rw [hucs]
    exact iff_of_false Bool.false_ne_true (by decide)
  refine ⟨u, fun r => ?_, ⟨hucs, fun r => ?_, ?_, ?_, ?_⟩, ?_⟩
  · show Runs env (wrapper l) (enter16.map .instr ++ (.jmpFar 0 .callReal16Function ::
      .label .callReal16Function .w16 :: callReal16Lines l)) q r ↔ _
    rw [runs_execs (show execs env enter16 q = some t from hx), runs_jmpFar hjmp]
  · rw [← hu]
    show (Function.update t.seg .cs _ r).big = false
    by_cases hr : r = .cs
    · rw [hr, Function.update_self]
    · have hin : r ∈ dataSegs ++ [SegReg.ss] := by
        cases r <;> first | exact absurd rfl hr | decide
      rw [Function.update_of_ne hr, ht]
      show (if r ∈ dataSegs ++ [SegReg.ss] then (⟨dataSel, 0, false⟩ : Seg)
        else q.seg r).big = false
      rw [if_pos hin]
  · rw [← hu]
    exact hcr0
  · rw [← hu]
    show t.log = _
    rw [ht]
    exact h.log
  · rw [← hu]
    show Quiet t.eflags
    rw [ht]
    exact quiet_of_systemFlags hF h.quiet
  · rw [← hu]
    show t.mem = _
    rw [ht]
    rfl

/-- The stack pointer behind `n` arguments. -/
def argsSp (n : Nat) : Nat := 0x4000 - 2 * (n - 1)

/-- At `args_done`: the arguments are on the stack. -/
structure AtCall (l : Layout) (n : Nat) (p q u : State) : Prop where
  enterable : RealEnterable l u
  cr0 : u.cr0 = p.cr0 &&& 0xFFFFFFFE
  log : u.log = p.log
  sp : low16 (u.reg .esp) = argsSp n
  args : ∀ i < n, load u.mem (.ofNat (l.stack16Start + argsSp n + 2 * i)) 2 =
    load q.mem (.ofNat (l.args16Start + funcArgsOffset + 2 * i)) 2
  frame : ∀ x : UInt32, (x.toNat < l.savedSp16 ∨ l.savedSp16 + 2 ≤ x.toNat) → ¬ l.RealStack x →
    u.mem x = q.mem x

/-- **The arguments get onto the stack**, if there are any. -/
theorem InReal.toCall (h : InReal l p q) (hl : l.Linked)
    (hargc : load q.mem (.ofNat (l.args16Start + argcOffset)) 2 = n) (hn : n ≤ maxFuncArgs)
    (hdev : ∀ x, l.RealStack x ∨ l.Fixed x → env.device x = false) :
    ∃ u, (∀ r, Runs env (wrapper l) (callReal16Lines l) q r ↔
        Runs env (wrapper l) (argsDoneLines l) u r) ∧ AtCall l n p q u := by
  have hargs := hl.args
  have hsp := hl.sp
  have hlow := hl.low
  have hreal : ∀ t : State, t.cr0 = q.cr0 → t.protectedMode = false := by
    intro t ht
    have hbit : (0xFFFFFFFE : UInt32).toNat.testBit 0 = false := by decide
    rw [State.protectedMode, ht, h.cr0, UInt32.toNat_and, Nat.testBit_and, hbit, Bool.and_false]
  have hspnat : (UInt32.ofNat l.savedSp16).toNat = l.savedSp16 :=
    UInt32.toNat_ofNat_of_lt' (by rw [UInt32.size]; omega)
  obtain ⟨t, hx, R, F, hF, ht, hesp, hcx, hzf⟩ := setup16_ok (R := q.reg)
    (F := q.eflags) (M := q.mem) hl (hreal q rfl) h.big
    (hdev _ (.inr (.inr ⟨hspnat.ge, by omega⟩))) hargc
  obtain ⟨M, hM⟩ : ∃ M, store q.mem (.ofNat l.savedSp16) 2 0x4000 = M := ⟨_, rfl⟩
  obtain ⟨s₁, hs₁⟩ : ∃ s₁ : State, { q with seg := l.realSegs q.seg } = s₁ := ⟨_, rfl⟩
  rw [hM, hs₁] at ht
  have hMout : ∀ x : UInt32, (x.toNat < l.savedSp16 ∨ l.savedSp16 + 2 ≤ x.toNat) →
      M x = q.mem x := fun x hx => by
    rw [← hM]
    exact store_place_of_apart (by omega) hx
  have hseg : s₁.seg = l.realSegs q.seg := by rw [← hs₁]
  have hcs : s₁.seg .cs = ⟨0, 0, false⟩ := by rw [hseg]; exact h.cs
  have hcr0 : s₁.cr0 = q.cr0 := by rw [← hs₁]
  have hlog : s₁.log = q.log := by rw [← hs₁]
  have hquiet : Quiet F := quiet_of_systemFlags hF h.quiet
  have hlines : ∀ r, Runs env (wrapper l) (callReal16Lines l) q r ↔ Runs env (wrapper l)
      (.jz .argsDone :: ((copyArgs l).map .instr ++ (.label .argsDone .w16 :: argsDoneLines l)))
      t r := fun r => runs_execs (show execs env (setup16 l) q = some t from hx)
  by_cases hzero : n = 0
  · have hsp₀ : low16 (R .esp) = argsSp n := by
      rw [hesp, hzero]
      decide
    refine ⟨t, fun r => ?_, ?_⟩
    · rw [hlines, runs_jz_taken (by rw [hzf, hzero]; rfl) (behind_argsDone l)]
    · rw [ht]
      exact ⟨⟨hreal _ hcr0, hcs, by rw [State.upd, hseg]; rfl, by rw [State.upd, hseg]; rfl,
        hquiet⟩, hcr0.trans h.cr0, hlog.trans h.log, hsp₀, fun i hi => absurd hi (by omega),
        fun x hx _ => hMout x hx⟩
  · have hsegs : ∀ r, (s₁.seg r).big = false := by
      intro r
      rw [hseg, Layout.realSegs]
      split
      · rfl
      · split
        · rfl
        · exact h.big r
    obtain ⟨u, hx', R', F', M', hu, hsp', hquiet', hcopied⟩ := copyArgs_ok (s := s₁)
      (M := M) hl (hreal s₁ hcr0) hsegs (by rw [hseg]; rfl) (by rw [hseg]; rfl)
      (fun x hlo hhi => hdev x (.inl ⟨hlo, hhi⟩)) hesp hcx hn hquiet
    have hsp'' : 0x4002 - 2 * n = argsSp n := by
      have hmax : maxFuncArgs = 11 := rfl
      rw [argsSp]
      omega
    rw [hsp''] at hsp' hcopied
    refine ⟨u, fun r => ?_, ?_⟩
    · rw [hlines, runs_jz_not_taken (by rw [hzf]; exact decide_eq_false hzero),
        runs_execs (show execs env (copyArgs l) t = some u by rw [ht]; exact hx'), runs_label]
    · rw [hu]
      refine ⟨⟨hreal _ hcr0, hcs, ?_, ?_, hquiet'⟩, hcr0.trans h.cr0, hlog.trans h.log, hsp',
        fun i hi => ?_, fun x hx hout => ?_⟩
      · show s₁.seg .ds = _
        rw [hseg]
        rfl
      · show s₁.seg .ss = _
        rw [hseg]
        rfl
      · have hmax : maxFuncArgs = 11 := rfl
        have hoff : funcArgsOffset = 26 := rfl
        refine (hcopied.args i hi).trans (load_congr_region (by omega) fun x hlo hhi => ?_)
        exact hMout x (.inl (by omega))
      · rw [Layout.RealStack] at hout
        have hge : argsSp n ≤ 0x4000 := Nat.sub_le _ _
        exact (hcopied.frame x (by omega)).trans (hMout x hx)

/-! ## 5. There and back -/

/-- The function begins in `e`, called at `u`. -/
structure AtEntry (l : Layout) (n : Nat) (target : UInt32) (u e : State) : Prop where
  enterable : RealEnterable l e
  cr0 : e.cr0 = u.cr0
  log : e.log = u.log ++ [.call target]
  sp : low16 (e.reg .esp) + 2 = argsSp n
  mem : ∀ x : UInt32, x.toNat < l.stack16Start + argsSp n - 2 ∨
    l.stack16Start + argsSp n ≤ x.toNat → e.mem x = u.mem x

/-- At `resume32`, after the function returned in `r`. -/
structure AtResume (l : Layout) (p r v : State) : Prop where
  ds : (v.seg .ds).base = 0
  cs : v.seg .cs = p.seg .cs
  cr0 : v.cr0 = p.cr0
  gdtr : v.gdtr = p.gdtr
  log : v.log = r.log
  virtual : v.eflags &&& virtualFlag = 0
  mem : v.mem = store r.mem (.ofNat (l.args16Start + ret1Offset)) 2 (low16 (r.reg .eax))

/-- The function is called, and protection is on again. -/
theorem AtCall.leave (h : AtCall l n p q u) (hl : l.Linked) (hparked : Parked l p u.mem)
    (hfunc : load u.mem (.ofNat (l.args16Start + funcOffset)) 2 = target.toNat)
    (hpe : p.protectedMode = true) (hgdtr : p.gdtr.base &&& 0xFFFFFF = p.gdtr.base)
    (hn : n ≤ maxFuncArgs) (hdev : ∀ x, l.RealStack x ∨ l.Fixed x → env.device x = false)
    (hf : RealFunction own l (env.callee target))
    (hown : ∀ x, own x → ¬ l.RealStack x ∧ ¬ l.Fixed x) :
    After env (callFunction l ++ leave16 l) (fun t => ∃ e, AtEntry l n target u e ∧
      (t.seg .ds).base = 0 ∧ t.cr0 = p.cr0 ∧ t.gdtr = p.gdtr ∧
        t.log = (env.callee target e).log ∧ t.eflags &&& virtualFlag = 0 ∧
          t.mem = store (env.callee target e).mem (.ofNat (l.args16Start + ret1Offset)) 2
            (low16 ((env.callee target e).reg .eax))) u := by
  have hmax : maxFuncArgs = 11 := rfl
  have hoff : funcOffset = 20 := rfl
  have hret : ret1Offset = 16 := rfl
  have hargs := hl.args
  have hsp := hl.sp
  have hlow := hl.low
  have hge : 0x3FEC ≤ argsSp n := by
    rw [argsSp]
    omega
  have hle : argsSp n ≤ 0x4000 := Nat.sub_le _ _
  have hnat : ∀ k, k < 2 ^ 32 → (UInt32.ofNat k).toNat = k := fun k hk =>
    UInt32.toNat_ofNat_of_lt' (by rw [UInt32.size]; exact hk)
  have hds := h.enterable.ds
  have hss := h.enterable.ss
  show After env _ _ (u.upd u.reg u.eflags u.mem)
  refine after_load (by rw [hds]) (fun _ => by omega) fun R₁ h₁ => ?_
  have htarget : Size.w16.trunc (R₁ .eax) = target := by
    have hload : Size.w16.trunc (R₁ .eax) =
        Size.w16.trunc (.ofNat (load u.mem (.ofNat (l.args16Start + funcOffset)) 2)) := h₁.value
    have hlt : target.toNat < 2 ^ 16 := by
      rw [← hfunc]
      exact load_lt
    rw [hload, hfunc, UInt32.ofNat_toNat, trunc_eq_ofNat, low16_of_lt hlt, UInt32.ofNat_toNat]
  have hesp : low16 (R₁ .esp) = argsSp n - 2 + 2 := by
    rw [h₁.others .esp (by decide), h.sp]
    omega
  refine after_callReg l.stack16Start (by rw [hss]; rfl) (by rw [hss]; rfl) (by omega)
    hesp (hdev _ (.inl ?_)) fun R' M' hsp' _ hM' => ?_
  · rw [Layout.RealStack, hnat _ (by omega)]
    omega
  rw [htarget]
  obtain ⟨e, he⟩ : ∃ e, ({ u with log := u.log ++ [.call target] } : State).upd R' u.eflags M' =
    e := ⟨_, rfl⟩
  rw [he]
  have hentry : AtEntry l n target u e := by
    rw [← he]
    exact ⟨⟨h.enterable.realMode, h.enterable.cs, hds, hss, h.enterable.quiet⟩, rfl, rfl,
      by show low16 (R' .esp) + 2 = _; omega, fun x hx => hM' x (by omega)⟩
  obtain ⟨hfds, hfcr0, hfvm, hfmem⟩ := hf e hentry.enterable
  have hfds' : ((env.callee target e).seg .ds).base = 0 := by
    rw [hfds, hentry.enterable.ds]
  have hparked' : Parked l p (env.callee target e).mem := by
    refine hparked.congr hl fun x hlo hhi => ?_
    rw [hfmem x (fun hx => (hown x hx).2 (.inl ⟨hlo, by omega⟩)) fun hx => ?_]
    · exact hentry.mem x (by omega)
    · have hlt := hx.2
      omega
  have hret1 : l.Fixed (.ofNat (l.args16Start + ret1Offset)) := by
    rw [Layout.Fixed, hnat _ (by omega)]
    omega
  refine (leave16_ok hl hfds' hparked' hgdtr
    (by rw [hfcr0, hentry.cr0, h.cr0]) hpe (hdev _ (.inr hret1))).mono ?_
  rintro t ⟨R, F, hF, rfl⟩
  refine ⟨e, hentry, hfds', rfl, rfl, rfl, ?_, rfl⟩
  have hmask : systemFlags &&& virtualFlag = virtualFlag := rfl
  show F &&& virtualFlag = 0
  rw [← hmask, ← UInt32.and_assoc, hF, UInt32.and_assoc, hmask, hfvm]

/-- **From the call to `resume32`**, in the 32-bit segment of the caller. -/
theorem AtCall.back (h : AtCall l n p q u) (hl : l.Linked) (hparked : Parked l p u.mem)
    (hfunc : load u.mem (.ofNat (l.args16Start + funcOffset)) 2 = target.toNat)
    (hpe : p.protectedMode = true) (hgdtr : p.gdtr.base &&& 0xFFFFFF = p.gdtr.base)
    (hn : n ≤ maxFuncArgs) (hdev : ∀ x, l.RealStack x ∨ l.Fixed x → env.device x = false)
    (hf : RealFunction own l (env.callee target))
    (hown : ∀ x, own x → ¬ l.RealStack x ∧ ¬ l.Fixed x)
    (hcs : (p.seg .cs).sel = codeSel) (hbig : (p.seg .cs).big = true) (hco : p.Coherent .cs)
    (htable : ∀ x, p.InTable x → ¬ l.Used own x ∧ u.mem x = p.mem x) :
    ∃ e v, (∀ r, Runs env (wrapper l) (argsDoneLines l) u r ↔
        Runs env (wrapper l) (resume32Lines l) v r) ∧
      AtEntry l n target u e ∧ AtResume l p (env.callee target e) v := by
  have hmax : maxFuncArgs = 11 := rfl
  have hret : ret1Offset = 16 := rfl
  have hargs := hl.args
  have hsp := hl.sp
  have hlow := hl.low
  have hge : 0x3FEC ≤ argsSp n := by
    rw [argsSp]
    omega
  have hle : argsSp n ≤ 0x4000 := Nat.sub_le _ _
  obtain ⟨t, hx, e, hentry, hds, hcr0, hgdtr', hlog, hvm, hmem⟩ :=
    h.leave hl hparked hfunc hpe hgdtr hn hdev hf hown
  -- the table of the caller is where it was, and with it the segment
  have hsame : SameTable p t := by
    refine ⟨hcr0, hgdtr', fun x hin => ?_⟩
    obtain ⟨hout, hux⟩ := htable x hin
    rw [Layout.Used, not_or, not_or] at hout
    have hstackx := hout.2.1
    have hfixedx := hout.2.2
    rw [Layout.RealStack] at hstackx
    rw [Layout.Fixed] at hfixedx
    have hxlt : x.toNat < 2 ^ 32 := x.toNat_lt
    rw [hmem, store_place_of_apart (by omega) (by omega),
      (hf e hentry.enterable).2.2.2 x hout.1 hout.2.1, hentry.mem x (by omega), hux]
  obtain ⟨v, hv⟩ : ∃ v, { t with seg := Function.update t.seg .cs (p.seg .cs) } = v := ⟨_, rfl⟩
  have hvcs : v.seg .cs = p.seg .cs := by
    rw [← hv]
    show Function.update t.seg .cs _ .cs = _
    exact Function.update_self _ _ _
  have hset : t.setSeg .cs 0x10 = some v := by
    have hload := setSeg_restores hco hsame hpe
    rw [hcs] at hload
    exact hload.trans (congrArg some hv)
  have hjmp : t.jmpFar (wrapper l) 0x10 .resume32 = some (resume32Lines l, v) := by
    refine jmpFar_ok hset (behind_resume32 l) ?_
    rw [hvcs]
    exact iff_of_true hbig rfl
  refine ⟨e, v, fun r => ?_, hentry, ?_, hvcs, ?_, ?_, ?_, ?_, ?_⟩
  · show Runs env (wrapper l) ((callFunction l ++ leave16 l).map .instr ++
      (.jmpFar 0x10 .resume32 :: resume32 l)) u r ↔ _
    rw [runs_execs hx, runs_jmpFar hjmp]
  · have hvds : v.seg .ds = t.seg .ds := by
      rw [← hv]
      exact Function.update_of_ne (show SegReg.ds ≠ .cs by decide) (p.seg .cs) t.seg
    rw [hvds]
    exact hds
  · rw [← hv]
    exact hcr0
  · rw [← hv]
    exact hgdtr'
  · rw [← hv]
    exact hlog
  · rw [← hv]
    exact hvm
  · rw [← hv]
    exact hmem

/-- The state in which the real-mode function begins, for the caller in `s`. -/
structure RealEntry (l : Layout) (lo n : Nat) (target : UInt32) (s e : State) : Prop where
  enterable : RealEnterable l e
  /-- The return address is below the arguments. -/
  sp : low16 (e.reg .esp) + 2 = argsSp n
  args : ∀ i < n, load e.mem (.ofNat (l.stack16Start + argsSp n + 2 * i)) 2 =
    load s.mem (.ofNat (l.args16Start + funcArgsOffset + 2 * i)) 2
  log : e.log = s.log ++ [.call target]
  before : ∀ x : UInt32, ¬ l.RealStack x → ¬ l.Fixed x →
    x.toNat < lo ∨ (s.reg .esp).toNat ≤ x.toNat → e.mem x = s.mem x

/-- **The caller in `s` goes on with `u`**, where the function returned in `r`: it finds the result
in `eax`, and everything else as it was. -/
structure CameBack (own : UInt32 → Prop) (l : Layout) (lo : Nat) (s u r : State) : Prop where
  reg : ∀ q, q ≠ .eax → q ≠ .esp → u.reg q = s.reg q
  esp : u.reg .esp = s.reg .esp + 4
  eax : u.reg .eax = Size.w16.trunc (r.reg .eax)
  seg : u.seg = s.seg
  cr0 : u.cr0 = s.cr0
  gdtr : u.gdtr = s.gdtr
  /-- All flags but RF, VM, VIF and VIP, which are cleared. -/
  eflags : u.eflags = s.eflags &&& 0xE4FFFF
  log : u.log = r.log
  mem : ∀ x : UInt32, ¬ l.Used own x → x.toNat < lo ∨ (s.reg .esp).toNat ≤ x.toNat →
    u.mem x = s.mem x
  after : ∀ x, own x → u.mem x = r.mem x

/-- **The call can be made in `u`**: the registers of the caller in `s` are saved in `p`. -/
structure Prepared (l : Layout) (lo n : Nat) (target : UInt32) (s p q u : State) : Prop where
  saved : Stacked nobody s.mem lo (s.reg .esp).toNat (savedWords s) p
  only : OnlyStack s p
  depth : (p.reg .esp).toNat + 52 = (s.reg .esp).toNat
  atCall : AtCall l n p q u
  parked : Parked l p u.mem
  func : load u.mem (.ofNat (l.args16Start + funcOffset)) 2 = target.toNat
  args : ∀ i < n, load u.mem (.ofNat (l.stack16Start + argsSp n + 2 * i)) 2 =
    load s.mem (.ofNat (l.args16Start + funcArgsOffset + 2 * i)) 2
  mem : ∀ x : UInt32, ¬ l.RealStack x → ¬ l.Fixed x →
    x.toNat + 4 < (p.reg .esp).toNat ∨ (p.reg .esp).toNat ≤ x.toNat → u.mem x = p.mem x

/-- **The way to the call.** -/
theorem Ready.prepare (h : Ready env own l lo s)
    (hargc : load s.mem (.ofNat (l.args16Start + argcOffset)) 2 = n) (hn : n ≤ maxFuncArgs)
    (htarget : load s.mem (.ofNat (l.args16Start + funcOffset)) 2 = target.toNat) :
    ∃ p q u, (∀ r, Runs env (wrapper l) (wrapper l) s r ↔
      Runs env (wrapper l) (argsDoneLines l) u r) ∧ Prepared l lo n target s p q u := by
  have hmax : maxFuncArgs = 11 := rfl
  have hargcOff : argcOffset = 24 := rfl
  have hfuncOff : funcOffset = 20 := rfl
  have hargsOff : funcArgsOffset = 26 := rfl
  have hstack : wrapperStack = 56 := rfl
  have hl := h.linked
  have hargs := hl.args
  have hsp := hl.sp
  have hlow := hl.low
  have hroom := h.machine.room
  obtain ⟨p, q, hruns₁, hp, honly, hdepth, hq⟩ := h.toPm16
  have hpe : p.protectedMode = true := by
    rw [State.protectedMode, honly.cr0]
    exact h.machine.protectedMode
  obtain ⟨q', hruns₂, hq', hmem₂⟩ := hq.toReal env hpe
    (by rw [honly.cr0]; exact h.noPaging)
  -- what stands in `args16_start` behind the saved part
  have houtside : ∀ x, l.Fixed x → x.toNat < lo ∨ (s.reg .esp).toNat ≤ x.toNat := by
    intro x hx
    by_contra hin
    rw [not_or, Nat.not_lt, Nat.not_le] at hin
    exact h.machine.stack.own x hin.1 hin.2 (.inr (.inr hx))
  have hkept : ∀ x : UInt32, l.args16Start + 16 ≤ x.toNat → x.toNat < l.args16Start + 48 →
      q'.mem x = s.mem x := by
    intro x hlo hhi
    have hx := houtside x (.inl ⟨by omega, hhi⟩)
    rw [hmem₂, hq.frame x (.inr hlo) (by omega), hp.frame x not_false hx]
  have hword : ∀ k, 16 ≤ k → k + 2 ≤ 48 → load q'.mem (.ofNat (l.args16Start + k)) 2 =
      load s.mem (.ofNat (l.args16Start + k)) 2 := fun k hk hk' =>
    load_congr_region (by omega) fun x hlo hhi => hkept x (by omega) (by omega)
  obtain ⟨u, hruns₃, hu⟩ := hq'.toCall hl
    ((hword argcOffset (by omega) (by omega)).trans hargc) hn h.device
  have hfixed : ∀ x : UInt32, l.args16Start ≤ x.toNat → x.toNat < l.args16Start + 48 →
      u.mem x = q'.mem x := by
    intro x hlo hhi
    refine hu.frame x (by omega) ?_
    rw [Layout.RealStack]
    omega
  refine ⟨p, q', u, fun r => by rw [hruns₁, hruns₂, hruns₃], hp, honly, hdepth, hu, ?_, ?_,
    fun i hi => ?_, fun x hx hx' hout => ?_⟩
  · refine hq.parked.congr hl fun x hlo hhi => ?_
    rw [hfixed x hlo (by omega), hmem₂]
  · rw [← htarget, ← hword funcOffset (by omega) (by omega)]
    exact load_congr_region (by omega) fun x hlo hhi => hfixed x (by omega) (by omega)
  · have hplace : l.args16Start + funcArgsOffset + 2 * i = l.args16Start + (26 + 2 * i) := by omega
    rw [hu.args i hi, hplace]
    exact hword _ (by omega) (by omega)
  · rw [Layout.Fixed] at hx'
    rw [hu.frame x (by omega) hx, hmem₂]
    exact hq.frame x (by omega) hout

/-- The stack of the caller is back in `t`, with its registers on it. -/
structure StackBack (own : UInt32 → Prop) (l : Layout) (lo : Nat) (s v t : State) : Prop where
  stacked : Stacked (l.Used own) s.mem lo (s.reg .esp).toNat (savedWords s ++ []) t
  table : SameTable s t
  seg : t.seg = Function.update v.seg .ss (s.seg .ss)
  mem : t.mem = v.mem
  eflags : t.eflags = v.eflags
  log : t.log = v.log

/-- **From `resume32` to the stack of the caller**, if the function kept what is not its own. -/
theorem Ready.stackBack {v x : State} (h : Ready env own l lo s)
    (hp : Prepared l lo n target s p q u) (hv : AtResume l p x v) (hparked : Parked l p v.mem)
    (hmem : ∀ a : UInt32, ¬ l.Used own a →
      a.toNat + 4 < (p.reg .esp).toNat ∨ (p.reg .esp).toNat ≤ a.toNat → v.mem a = p.mem a) :
    ∃ t, execs env (takeBack l) v = some t ∧ StackBack own l lo s v t := by
  have hstack : wrapperStack = 56 := rfl
  have hroom := h.machine.room
  have hdepth := hp.depth
  have hpe : p.protectedMode = true := by
    rw [State.protectedMode, hp.only.cr0]
    exact h.machine.protectedMode
  have hsame : SameTable s p := h.machine.sameTable hp.saved.weaken hp.only.cr0 hp.only.gdtr
  have hpv : SameTable p v := by
    refine ⟨hv.cr0, hv.gdtr, fun a hin => ?_⟩
    rw [State.InTable, hp.only.gdtr] at hin
    obtain ⟨hout, hplace⟩ := h.machine.table a hin
    exact hmem a hout (by omega)
  have hss : v.loadSeg .ss (p.seg .ss).sel = some (p.seg .ss) := by
    rw [loadSeg_congr hpv hpe]
    exact hsame.coherent (congrFun hp.only.seg .ss) h.machine.protectedMode
      (h.machine.coherent .ss)
  obtain ⟨t, hx, R, ht, hesp⟩ := takeBack_ok env hv.ds hparked hss
  have htmem : t.mem = v.mem := by
    rw [ht]
    rfl
  have hseg : t.seg = Function.update v.seg .ss (s.seg .ss) := by
    rw [ht, ← hp.only.seg]
    rfl
  refine ⟨t, hx, ?_, ?_, hseg, htmem, by rw [ht]; rfl, by rw [ht]; rfl⟩
  · rw [List.append_nil]
    refine hp.saved.weaken.resume h.machine.stack ?_ ?_ fun a ha hout => ?_
    · rw [hseg, Function.update_self, hp.only.seg]
    · rw [ht]
      exact hesp
    · rw [htmem]
      exact hmem a ha (by omega)
  · exact hsame.trans (hpv.trans ⟨by rw [ht]; rfl, by rw [ht]; rfl, fun a _ => by rw [htmem]⟩)

/-- The return address is where it was. -/
theorem Ready.top_eq {w : State} (h : Ready env own l lo s)
    (hw : Stacked (l.Used own) s.mem lo (s.reg .esp).toNat [] w)
    (hesp : w.reg .esp = s.reg .esp) : s.top .w32 = w.top .w32 := by
  have hfits := h.top
  have hword : load s.mem (s.reg .esp) 4 = load w.mem (s.reg .esp) 4 := by
    refine load_congr fun i hi => (hw.frame _ (h.returnAddress _ ?_ ?_) ?_).symm
    · rw [toNat_add_ofNat (by omega)]
      omega
    · rw [toNat_add_ofNat (by omega)]
      omega
    · rw [toNat_add_ofNat (by omega)]
      omega
  rw [X86.top_eq h.machine.flat, X86.top_eq hw.flat, hesp, hword]

/-- **The way back from `resume32`**, in `v`, if the function returned in `r` and kept what is not
its own. -/
theorem Ready.goOn {v : State} {x : State} (h : Ready env own l lo s)
    (hp : Prepared l lo n target s p q u) (hv : AtResume l p x v) (hparked : Parked l p v.mem)
    (hmem : ∀ a : UInt32, ¬ l.Used own a →
      a.toNat + 4 < (p.reg .esp).toNat ∨ (p.reg .esp).toNat ≤ a.toNat → v.mem a = p.mem a) :
    ∃ y, Runs env (wrapper l) (resume32Lines l) v (some (.ret (s.top .w32), y)) ∧
      CameBack own l lo s y x := by
  have hret : ret1Offset = 16 := rfl
  have hargs := h.linked.args
  have hsp := h.linked.sp
  have hlow := h.linked.low
  obtain ⟨t, hx₁, ht⟩ := h.stackBack hp hv hparked hmem
  obtain ⟨w, hx₂, hw, hwreg, hweax, hwseg, hwmem, hwflags, hwcr0, hwgdtr, hwlog⟩ :=
    restoreRegisters_ok env l ht.stacked h.machine.stack.fits (fun r _ => h.machine.coherent r)
      ht.table h.machine.protectedMode h.dataFlat (by rw [ht.eflags]; exact hv.virtual)
  have hwesp : w.reg .esp = s.reg .esp := by
    have hdepth := hw.depth
    rw [List.length_nil, Nat.mul_zero, Nat.add_zero] at hdepth
    exact UInt32.toNat_inj.mp hdepth
  refine ⟨w.drop .w32, ?_, fun r hr hr' => ?_, ?_, ?_, ?_, ?_, ?_, ?_, ?_, fun a ha hout => ?_,
    fun a ha => ?_⟩
  · rw [h.top_eq hw hwesp]
    show Runs env (wrapper l) ((takeBack l ++ restoreRegisters l).map .instr ++ [.ret]) v _
    rw [runs_execs ((execs_append hx₁).trans hx₂)]
    exact runs_ret
  · rw [drop_reg_of_ne hr', hwreg r hr' hr]
  · rw [drop_eq hw.flat, setReg_self, hwesp]
  · have hlow16 : low16 (x.reg .eax) < 256 ^ 2 := low16_lt
    rw [drop_reg_of_ne (by decide), hweax, ht.mem, hv.mem, load_store (by decide),
      Nat.mod_eq_of_lt hlow16, trunc_eq_ofNat]
  · refine funext fun r => ?_
    have hcs : p.seg .cs = s.seg .cs := congrFun hp.only.seg .cs
    rw [drop_seg, hwseg, ht.seg]
    cases r with
    | cs => exact (Function.update_of_ne (by decide) _ _).trans (hv.cs.trans hcs)
    | ss =>
        show Function.update v.seg .ss _ .ss = _
        exact Function.update_self _ _ _
    | ds => rfl
    | es => rfl
    | fs => rfl
    | gs => rfl
  · rw [drop_cr0, hwcr0, ht.table.cr0]
  · rw [drop_gdtr, hwgdtr, ht.table.gdtr]
  · rw [drop_eflags, hwflags]
  · rw [drop_log, hwlog, ht.log, hv.log]
  · rw [drop_mem]
    exact hw.frame a ha hout
  · have hfixed := (h.ownApart a ha).2
    rw [Layout.Fixed] at hfixed
    rw [drop_mem, hwmem, ht.mem, hv.mem, store_place_of_apart (by omega) (by omega)]

/-- **A real-mode function is called and returns**: it begins in real mode with interrupts off and
its arguments on the stack, and the caller goes on in protected mode, with its result. -/
theorem wrapper_returns (h : Ready env own l lo s)
    (hargc : load s.mem (.ofNat (l.args16Start + argcOffset)) 2 = n) (hn : n ≤ maxFuncArgs)
    (htarget : load s.mem (.ofNat (l.args16Start + funcOffset)) 2 = target.toNat)
    (hf : RealFunction own l (env.callee target)) :
    ∃ e u, RealEntry l lo n target s e ∧ CameBack own l lo s u (env.callee target e) ∧
      Runs env (wrapper l) (wrapper l) s (some (.ret (s.top .w32), u)) := by
  have hmax : maxFuncArgs = 11 := rfl
  have hret : ret1Offset = 16 := rfl
  have hstack : wrapperStack = 56 := rfl
  have hl := h.linked
  have hargs := hl.args
  have hsp := hl.sp
  have hlow := hl.low
  have hroom := h.machine.room
  have hge : 0x3FEC ≤ argsSp n := by
    rw [argsSp]
    omega
  have hle : argsSp n ≤ 0x4000 := Nat.sub_le _ _
  obtain ⟨p, q, u, hruns₁, hp⟩ := h.prepare hargc hn htarget
  have hdepth := hp.depth
  have hpe : p.protectedMode = true := by
    rw [State.protectedMode, hp.only.cr0]
    exact h.machine.protectedMode
  have htable : ∀ x, p.InTable x → ¬ l.Used own x ∧ u.mem x = p.mem x := by
    intro x hin
    rw [State.InTable, hp.only.gdtr] at hin
    obtain ⟨hout, hplace⟩ := h.machine.table x hin
    refine ⟨hout, ?_⟩
    rw [Layout.Used, not_or, not_or] at hout
    exact hp.mem x hout.2.1 hout.2.2 (by omega)
  have hcs : p.seg .cs = s.seg .cs := congrFun hp.only.seg .cs
  have hsame : SameTable s p := h.machine.sameTable hp.saved.weaken hp.only.cr0 hp.only.gdtr
  obtain ⟨e, v, hruns₂, he, hv⟩ := hp.atCall.back hl hp.parked hp.func hpe
    (by rw [hp.only.gdtr]; exact h.gdtBase) hn h.device hf h.ownApart
    (by rw [hcs]; exact h.machine.kernelCode) (by rw [hcs]; exact h.code32)
    (hsame.coherent hcs h.machine.protectedMode (h.machine.coherent .cs)) htable
  -- the function keeps what is not its own
  obtain ⟨-, -, -, hfmem⟩ := hf e he.enterable
  have hvmem : ∀ x, ¬ l.Used own x →
      x.toNat + 4 < (p.reg .esp).toNat ∨ (p.reg .esp).toNat ≤ x.toNat → v.mem x = p.mem x := by
    intro x hx hout
    rw [Layout.Used, not_or, not_or] at hx
    have hstackx := hx.2.1
    have hfixedx := hx.2.2
    rw [Layout.RealStack] at hstackx
    rw [Layout.Fixed] at hfixedx
    have hxlt : x.toNat < 2 ^ 32 := x.toNat_lt
    rw [hv.mem, store_place_of_apart (by omega) (by omega), hfmem x hx.1 hx.2.1,
      he.mem x (by omega), hp.mem x hx.2.1 hx.2.2 hout]
  have hparked : Parked l p v.mem := by
    refine hp.parked.congr hl fun x hlo hhi => ?_
    rw [hv.mem, store_place_of_apart (by omega) (by omega), hfmem x
      (fun hx => (h.ownApart x hx).2 (.inl ⟨hlo, by omega⟩)) fun hx => ?_]
    · exact he.mem x (by omega)
    · have hlt := hx.2
      omega
  obtain ⟨w, hruns₃, hw⟩ := h.goOn hp hv hparked hvmem
  refine ⟨e, w, ⟨he.enterable, he.sp, fun i hi => ?_, ?_, fun x hx hx' hout => ?_⟩, hw, ?_⟩
  · rw [← hp.args i hi]
    exact load_congr_region (by omega) fun x hlo hhi => he.mem x (by omega)
  · rw [he.log, hp.atCall.log, hp.only.log]
  · have hstackx := hx
    rw [Layout.RealStack] at hstackx
    rw [he.mem x (by omega), hp.mem x hx hx' (by omega)]
    exact hp.saved.frame x not_false hout
  · rw [hruns₁, hruns₂]
    exact hruns₃

/-! ## 6. A call from C -/

/-- `args16_start` holds the halfwords that C stored. -/
def HoldsArgs16 (l : Layout) (m : Memory) (mem : Nat → UInt16) : Prop :=
  ∀ j < args16.extent / 2, load m (.ofNat (l.args16Start + 2 * j)) 2 = (mem j).toNat

/-- Where the assembly expects a halfword is where the compiler puts it. -/
theorem HoldsArgs16.at (h : HoldsArgs16 l m mem) {k j : Nat} (hk : k = 2 * j)
    (hj : j < args16.extent / 2) : load m (.ofNat (l.args16Start + k)) 2 = (mem j).toNat := by
  rw [hk]
  exact h j hj

/-- **A real-mode function is called from C and returns**, if it is below 64 KiB: it finds the low
halfwords of the arguments above its return address, the first one first, and its `ax` is what the
caller gets. The segment of its address is not used, so that above 64 KiB what is called is not the
function. -/
theorem callRealModeFunction_returns (hlow : func ≤ 0xFFFF) (hargs : args.length ≤ maxFuncArgs)
    (hcall : CallRealModeFunction func args junk mem r) (h : Ready env own l lo s)
    (hmem : HoldsArgs16 l s.mem r.mem) (hf : RealFunction own l (env.callee func)) :
    ∃ e u, RealEntry l lo args.length func s e ∧
      (∀ i (hi : i < args.length),
        load e.mem (.ofNat (l.stack16Start + (low16 (e.reg .esp) + 2) + 2 * i)) 2 =
          args[i].toUInt16.toNat) ∧
      CameBack own l lo s u (env.callee func e) ∧
      Runs env (wrapper l) (wrapper l) s (some (.ret (s.top .w32), u)) := by
  have hmax : maxFuncArgs = 11 := rfl
  have hppNarg : ppNargMax = 50 := rfl
  have hextent : args16.extent / 2 = 24 := by decide
  obtain ⟨hfunc, -, hargc, hzero, -⟩ := halfwords
  obtain rfl := (callRealModeFunction_iff (by omega)).mp hcall
  have hcount : load s.mem (.ofNat (l.args16Start + argcOffset)) 2 = args.length := by
    rw [hmem.at (j := halfword .argc) (by rw [hargc]; rfl) (by omega), argc_callState (by omega)]
    exact UInt16.toNat_ofNat_of_lt' (by rw [UInt16.size]; omega)
  have hpair : (callState func args junk mem).rmAddress = getRealmodeFunctionAddress func :=
    rmAddress_callState
  have htarget : load s.mem (.ofNat (l.args16Start + funcOffset)) 2 = func.toNat := by
    have hword : ((callState func args junk mem).rmAddress.funcAddress).toNat = func.toNat := by
      rw [hpair, funcAddress_of_low hlow]
    rw [hmem.at (j := halfword .func) (by rw [hfunc]; rfl) (by omega), ← hword]
    rfl
  obtain ⟨e, u, he, hback, hruns⟩ := wrapper_returns h hcount hargs htarget hf
  refine ⟨e, u, he, fun i hi => ?_, hback, hruns⟩
  have hslot : argSlot i = 13 + i := by
    rw [argSlot_eq, hzero]
  have hplace : funcArgsOffset + 2 * i = 2 * argSlot i := by
    have hoff : funcArgsOffset = 26 := rfl
    omega
  rw [he.sp, he.args i hi, Nat.add_assoc, hmem.at hplace (by omega), args_callState hi]

end Call

/-- Low memory: the stack at `0x8000`, then `args16_start` with the addition of the tests, which is
at `0x7C00`, and the table of 16-bit code. -/
def exampleLayout : Layout where
  stack16Start := 0x8000
  args16Start := 0xC010
  savedSp16 := 0xC050
  gdt16Descriptor := 0xC060
  gdt16Start := 0xC066

def exampleImage : List UInt8 :=
  List.replicate 20 0 ++ [0x00, 0x7C, 0, 0, 2, 0, 104, 0, 201, 0] ++ List.replicate 50 0 ++
    [31, 0, 0x66, 0xC0, 0, 0] ++ gdt16

def exampleMemory : Memory := fun a =>
  if 0xC010 ≤ a.toNat then (exampleImage[a.toNat - 0xC010]?).getD 0 else flatMemory a

/-- `mov ax, [sp + 2]`, `add ax, [sp + 4]`, as a function. -/
def addReal (e : State) : State :=
  let sp := 0x8000 + low16 (e.reg .esp)
  { e.setReg .eax (.ofNat (load e.mem (.ofNat (sp + 2)) 2 + load e.mem (.ofNat (sp + 4)) 2)) with
    eflags := 2 }

def addEnv : Env := { simpleEnv (fun _ _ => 0) fun _ s => s.mem with callee := fun _ => addReal }

theorem exampleLayout_linked : exampleLayout.Linked :=
  ⟨rfl, rfl, by decide, by decide, by decide, rfl, by decide⟩

theorem realFunction_addReal : RealFunction nobody exampleLayout addReal :=
  fun _ _ => ⟨rfl, rfl, show (2 : UInt32) &&& virtualFlag = 0 by decide, fun _ _ _ => rfl⟩

theorem exampleMachine_ready :
    Ready addEnv nobody exampleLayout 0 (flatMachine exampleMemory) where
  machine := by
    refine flatMachine_interruptible (by decide) (fun _ _ => rfl) (fun a ha => ?_) fun a ha => ?_
    · rcases ha with hnone | hstack | hargs | hsp
      · exact hnone.elim
      · exact le_trans (by decide) hstack.1
      · exact le_trans (by decide) hargs.1
      · exact le_trans (by decide) hsp.1
    · have hin : (a - 0x2000).toNat < 32 := Nat.lt_succ_of_le ha
      rw [toNat_sub_lt_iff (by decide)] at hin
      have hbase : (0x2000 : UInt32).toNat = 0x2000 := rfl
      exact if_neg (by omega)
  linked := exampleLayout_linked
  code32 := rfl
  dataFlat := rfl
  noPaging := by decide
  gdtBase := by decide
  limit16 := by decide +kernel
  base16 := by decide +kernel
  table16 := by
    unfold HasGdt16
    decide +kernel
  tableApart := fun x hlo _ => .inr (le_trans (by decide) hlo)
  device := fun _ _ => rfl
  ownApart := fun _ h => h.elim
  top := by decide
  returnAddress := by
    intro x _ hhi hx
    have hesp : ((flatMachine exampleMemory).reg .esp).toNat = 0x1000 := rfl
    rcases hx with hnone | hstack | hargs | hsp
    · exact hnone.elim
    · have hlo : 0x8000 ≤ x.toNat := hstack.1
      omega
    · have hlo : 0xC010 ≤ x.toNat := hargs.1
      omega
    · have hlo : 0xC050 ≤ x.toNat := hsp.1
      omega

/-- The addition of the tests gives 305. -/
theorem callRealModeFunction_returns_add : ∃ u,
    Runs addEnv (wrapper exampleLayout) (wrapper exampleLayout) (flatMachine exampleMemory)
        (some (.ret ((flatMachine exampleMemory).top .w32), u)) ∧ u.reg .eax = 305 := by
  have hholds : HoldsArgs16 exampleLayout exampleMemory
      (callState 0x7C00 [104, 201] (fun _ => 0) fun _ => 0).mem := by
    unfold HoldsArgs16
    decide +kernel
  obtain ⟨e, u, he, hargs, hback, hruns⟩ := callRealModeFunction_returns
    (show (0x7C00 : UInt32) ≤ 0xFFFF by decide) (show [104, 201].length ≤ maxFuncArgs by decide)
    ((callRealModeFunction_iff (by decide)).mpr rfl) exampleMachine_ready hholds
    realFunction_addReal
  refine ⟨u, hruns, ?_⟩
  have hfirst := hargs 0 (by decide)
  have hsecond := hargs 1 (by decide)
  have hsum : (addReal e).reg .eax = 305 := by
    have hadd : (addReal e).reg .eax =
        .ofNat (load e.mem (.ofNat (0x8000 + low16 (e.reg .esp) + 2)) 2 +
          load e.mem (.ofNat (0x8000 + low16 (e.reg .esp) + 4)) 2) := by
      show (e.setReg .eax _).reg .eax = _
      exact setReg_self
    have hsp : 0x8000 + low16 (e.reg .esp) + 2 =
        exampleLayout.stack16Start + (low16 (e.reg .esp) + 2) + 2 * 0 := rfl
    have hsp' : 0x8000 + low16 (e.reg .esp) + 4 =
        exampleLayout.stack16Start + (low16 (e.reg .esp) + 2) + 2 * 1 := by
      show _ = 0x8000 + (low16 (e.reg .esp) + 2) + 2 * 1
      omega
    rw [hadd, hsp, hsp', hfirst, hsecond]
    rfl
  rw [hback.eax]
  show Size.w16.trunc ((addReal e).reg .eax) = 305
  rw [hsum]
  rfl

end MapleKernel.Real16
