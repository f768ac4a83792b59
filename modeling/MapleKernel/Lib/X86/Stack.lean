/-
  File:      Lib/X86/Stack.lean
  Subject:   WHAT STANDS ON A FLAT 32-BIT STACK: pushes, pops, and registers saved there.

  The assertion `Stacked` says which words were pushed since memory was `m`, and that nothing
  outside of the stack and of somebody's own variables has changed since. Every instruction that
  handles the stack has one rule for it.

  * `Stacked.push`, `Stacked.drop`, `Stacked.resume` -- the rules;
  * `loadSeg_congr` -- a segment register is loaded the same while its descriptor is the same;
  * `saveAll`, `restoreAll`, `Stacked.around` -- all registers saved and restored around other code,
    which may use any of them.
-/
import MapleKernel.Lib.X86.Machine

namespace X86

/-! ## 1. Components that an instruction leaves alone -/

section Components

variable {env : Env} {s : State} {z : Size} {v a : UInt32} {n w : Nat} {r q : Reg}

theorem toNat_sub_ofNat (h : n ≤ v.toNat) : (v - .ofNat n).toNat = v.toNat - n := by
  have hv : v.toNat < 2 ^ 32 := v.toNat_lt
  have hn : (UInt32.ofNat n).toNat = n := UInt32.toNat_ofNat_of_lt' (by rw [UInt32.size]; omega)
  rw [UInt32.toNat_sub_of_le _ _ (by rw [UInt32.le_iff_toNat_le, hn]; exact h), hn]

theorem toNat_add_ofNat (h : v.toNat + n < 2 ^ 32) : (v + .ofNat n).toNat = v.toNat + n := by
  have hn : (UInt32.ofNat n).toNat = n := UInt32.toNat_ofNat_of_lt' (by rw [UInt32.size]; omega)
  rw [UInt32.toNat_add, hn]
  exact Nat.mod_eq_of_lt h

@[simp] theorem storeAt_reg : (s.storeAt env a n w).reg = s.reg := by
  unfold State.storeAt
  split <;> rfl

@[simp] theorem storeAt_seg : (s.storeAt env a n w).seg = s.seg := by
  unfold State.storeAt
  split <;> rfl

@[simp] theorem storeAt_eflags : (s.storeAt env a n w).eflags = s.eflags := by
  unfold State.storeAt
  split <;> rfl

@[simp] theorem storeAt_cr0 : (s.storeAt env a n w).cr0 = s.cr0 := by
  unfold State.storeAt
  split <;> rfl

@[simp] theorem storeAt_gdtr : (s.storeAt env a n w).gdtr = s.gdtr := by
  unfold State.storeAt
  split <;> rfl

/-- A store into plain memory. -/
theorem storeAt_plain (h : env.device a = false) :
    s.storeAt env a n w = { s with mem := store s.mem a n w } :=
  if_neg (by rw [h]; exact Bool.false_ne_true)

@[simp] theorem setReg_self : (s.setReg r v).reg r = v := Function.update_self _ _ _

theorem setReg_of_ne (h : q ≠ r) : (s.setReg r v).reg q = s.reg q := Function.update_of_ne h _ _

@[simp] theorem setSized_seg : (s.setSized z r v).seg = s.seg := by cases z <;> rfl
@[simp] theorem setSized_mem : (s.setSized z r v).mem = s.mem := by cases z <;> rfl
@[simp] theorem setSized_eflags : (s.setSized z r v).eflags = s.eflags := by cases z <;> rfl
@[simp] theorem setSized_cr0 : (s.setSized z r v).cr0 = s.cr0 := by cases z <;> rfl
@[simp] theorem setSized_gdtr : (s.setSized z r v).gdtr = s.gdtr := by cases z <;> rfl
@[simp] theorem setSized_log : (s.setSized z r v).log = s.log := by cases z <;> rfl

theorem setSized_of_ne (h : q ≠ r) : (s.setSized z r v).reg q = s.reg q := by
  cases z <;> exact setReg_of_ne h

@[simp] theorem push_seg : (s.push env z v).seg = s.seg := by simp [State.push]
@[simp] theorem push_eflags : (s.push env z v).eflags = s.eflags := by simp [State.push]
@[simp] theorem push_cr0 : (s.push env z v).cr0 = s.cr0 := by simp [State.push]
@[simp] theorem push_gdtr : (s.push env z v).gdtr = s.gdtr := by simp [State.push]

theorem push_reg_of_ne (h : r ≠ .esp) : (s.push env z v).reg r = s.reg r := by
  rw [State.push, setSized_of_ne h, storeAt_reg]

@[simp] theorem drop_seg : (s.drop z).seg = s.seg := by simp [State.drop]
@[simp] theorem drop_mem : (s.drop z).mem = s.mem := by simp [State.drop]
@[simp] theorem drop_eflags : (s.drop z).eflags = s.eflags := by simp [State.drop]
@[simp] theorem drop_cr0 : (s.drop z).cr0 = s.cr0 := by simp [State.drop]
@[simp] theorem drop_gdtr : (s.drop z).gdtr = s.gdtr := by simp [State.drop]
@[simp] theorem drop_log : (s.drop z).log = s.log := by simp [State.drop]

theorem drop_reg_of_ne (h : r ≠ .esp) : (s.drop z).reg r = s.reg r := setSized_of_ne h

@[simp] theorem setStatus_reg : (s.setStatus env v).reg = s.reg := rfl
@[simp] theorem setStatus_seg : (s.setStatus env v).seg = s.seg := rfl
@[simp] theorem setStatus_cr0 : (s.setStatus env v).cr0 = s.cr0 := rfl
@[simp] theorem setStatus_gdtr : (s.setStatus env v).gdtr = s.gdtr := rfl
@[simp] theorem setStatus_mem : (s.setStatus env v).mem = s.mem := rfl
@[simp] theorem setStatus_log : (s.setStatus env v).log = s.log := rfl

theorem or_and_distrib (x y w : UInt32) : (x ||| y) &&& w = (x &&& w) ||| (y &&& w) := by
  apply UInt32.toBitVec_inj.mp
  exact BitVec.and_or_distrib_right

/-- An instruction that sets the status flags keeps the direction flag. -/
theorem setStatus_direction :
    (s.setStatus env v).eflags &&& State.directionFlag = s.eflags &&& State.directionFlag := by
  have hzero : (if v = 0 then State.zeroFlag else 0) &&& State.directionFlag = 0 := by
    split <;> rfl
  have hkept : ~~~(State.zeroFlag ||| State.otherStatus) &&& State.directionFlag =
      State.directionFlag := rfl
  have hother : State.otherStatus &&& State.directionFlag = 0 := rfl
  rw [State.setStatus, or_and_distrib, or_and_distrib, hzero, UInt32.and_assoc, UInt32.and_assoc,
    hkept, hother, UInt32.and_zero, UInt32.or_zero, UInt32.or_zero]

/-- A stack that is all of memory. -/
def State.Flat (s : State) : Prop := (s.seg .ss).base = 0 ∧ (s.seg .ss).big = true

theorem State.Flat.stackSize (h : s.Flat) : s.stackSize = .w32 := if_pos h.2

theorem State.Flat.stackAddr (h : s.Flat) (k : UInt32) : s.stackAddr k = s.reg .esp - k := by
  rw [State.stackAddr, h.1, h.stackSize]
  exact UInt32.zero_add _

/-- A push onto plain memory. -/
theorem push_eq (h : s.Flat) (hdev : env.device (s.reg .esp - 4) = false) :
    s.push env .w32 v =
      { s with
        reg := Function.update s.reg .esp (s.reg .esp - 4)
        mem := store s.mem (s.reg .esp - 4) 4 v.toNat } := by
  have haddr : s.stackAddr (.ofNat Size.w32.bytes) = s.reg .esp - 4 := h.stackAddr _
  rw [State.push, haddr, storeAt_plain hdev, h.stackSize]
  rfl

theorem push_esp (h : s.Flat) : (s.push env .w32 v).reg .esp = s.reg .esp - 4 := by
  rw [State.push, h.stackSize]
  exact setReg_self

theorem push_mem (h : s.Flat) (hdev : env.device (s.reg .esp - 4) = false) :
    (s.push env .w32 v).mem = store s.mem (s.reg .esp - 4) 4 v.toNat := by
  rw [push_eq h hdev]

theorem top_eq (h : s.Flat) : s.top .w32 = .ofNat (load s.mem (s.reg .esp) 4) := by
  rw [State.top, State.loadAt, h.stackAddr, UInt32.sub_zero]
  rfl

theorem drop_eq (h : s.Flat) : s.drop .w32 = s.setReg .esp (s.reg .esp + 4) := by
  rw [State.drop, h.stackSize]
  rfl

end Components

/-! ## 2. The stack assertion -/

/-- A stack in `[lo, top)`: no device in it, and none of the variables that are somebody's own. -/
structure StackRegion (env : Env) (own : UInt32 → Prop) (lo top : Nat) : Prop where
  fits : top < 2 ^ 32
  device : ∀ a : UInt32, lo ≤ a.toNat → a.toNat < top → env.device a = false
  own : ∀ a : UInt32, lo ≤ a.toNat → a.toNat < top → ¬ own a

/-- The words `ws` are on the stack that began at `top` when memory was `m`. -/
structure Stacked (own : UInt32 → Prop) (m : Memory) (lo top : Nat) (ws : List UInt32) (s : State) :
    Prop where
  flat : s.Flat
  depth : (s.reg .esp).toNat + 4 * ws.length = top
  low : lo ≤ (s.reg .esp).toNat
  words : Words s.mem (s.reg .esp).toNat ws
  frame : ∀ a : UInt32, ¬ own a → a.toNat < lo ∨ top ≤ a.toNat → s.mem a = m a

section Stacked

variable {env : Env} {own : UInt32 → Prop} {m : Memory} {lo top : Nat} {ws us : List UInt32}
  {s t : State} {v w : UInt32}

theorem StackRegion.mono (R : StackRegion env own lo top) {top' : Nat} (h : top' ≤ top) :
    StackRegion env own lo top' where
  fits := Nat.lt_of_le_of_lt h R.fits
  device := fun a hlo hhi => R.device a hlo (hhi.trans_le h)
  own := fun a hlo hhi => R.own a hlo (hhi.trans_le h)

/-- Nobody has variables. -/
def nobody : UInt32 → Prop := fun _ => False

theorem StackRegion.unowned (R : StackRegion env own lo top) : StackRegion env nobody lo top :=
  ⟨R.fits, R.device, fun _ _ _ => not_false⟩

theorem Stacked.weaken (h : Stacked nobody m lo top ws s) : Stacked own m lo top ws s :=
  ⟨h.flat, h.depth, h.low, h.words, fun a _ hout => h.frame a not_false hout⟩

theorem Stacked.start (hflat : s.Flat) (hlow : lo ≤ (s.reg .esp).toNat) :
    Stacked own s.mem lo (s.reg .esp).toNat [] s where
  flat := hflat
  depth := rfl
  low := hlow
  words := trivial
  frame := fun _ _ _ => rfl

/-- **A push.** -/
theorem Stacked.push (h : Stacked own m lo top ws s) (R : StackRegion env own lo top)
    (hroom : lo + 4 ≤ (s.reg .esp).toNat) (v : UInt32) :
    Stacked own m lo top (v :: ws) (s.push env .w32 v) := by
  have hdepth := h.depth
  have hfits := R.fits
  have hesp : (s.reg .esp - 4).toNat = (s.reg .esp).toNat - 4 :=
    toNat_sub_ofNat (n := 4) (by omega)
  have hdev : env.device (s.reg .esp - 4) = false := R.device _ (by omega) (by omega)
  have hnew : (s.push env .w32 v).reg .esp = s.reg .esp - 4 := push_esp h.flat
  have hmem := push_mem (v := v) h.flat hdev
  have hplace : (s.reg .esp - 4).toNat + 4 = (s.reg .esp).toNat := by omega
  refine ⟨?_, ?_, ?_, ?_, fun a hown hout => ?_⟩
  · rw [State.Flat, push_seg]
    exact h.flat
  · rw [hnew, hesp, List.length_cons]
    omega
  · rw [hnew, hesp]
    omega
  · rw [hnew, hmem]
    exact Words.push (by rw [hplace]; exact h.words) (by omega) v
  · rw [← h.frame a hown hout, hmem]
    exact store_of_apart (by omega) (by omega)

/-- Something else was done above the words, below `esp` or in one's own variables. -/
theorem Stacked.resume (h : Stacked own m lo top ws s) (R : StackRegion env own lo top)
    (hss : t.seg .ss = s.seg .ss) (hesp : t.reg .esp = s.reg .esp)
    (hmem : ∀ a : UInt32, ¬ own a → a.toNat < lo ∨ (s.reg .esp).toNat ≤ a.toNat →
      t.mem a = s.mem a) :
    Stacked own m lo top ws t := by
  have hdepth := h.depth
  have hlow := h.low
  have hfits := R.fits
  refine ⟨?_, by rw [hesp]; exact hdepth, by rw [hesp]; exact hlow, ?_, fun a hown hout => ?_⟩
  · rw [State.Flat, hss]
    exact h.flat
  · rw [hesp]
    refine h.words.congr (by omega) fun x hlo hhi => ?_
    exact hmem x (R.own x (by omega) (by omega)) (.inr hlo)
  · rw [← h.frame a hown hout]
    exact hmem a hown (by omega)

/-- Registers but `esp`, flags and the rest may change. -/
theorem Stacked.congr (h : Stacked own m lo top ws s) (hss : t.seg .ss = s.seg .ss)
    (hesp : t.reg .esp = s.reg .esp) (hmem : t.mem = s.mem) : Stacked own m lo top ws t := by
  refine ⟨?_, by rw [hesp]; exact h.depth, by rw [hesp]; exact h.low, ?_, ?_⟩
  · rw [State.Flat, hss]
    exact h.flat
  · rw [hesp, hmem]
    exact h.words
  · rw [hmem]
    exact h.frame

/-- `esp` is lowered by a word, which is whatever stands there. -/
theorem Stacked.alloc (h : Stacked own m lo top ws s) (R : StackRegion env own lo top)
    (hroom : lo + 4 ≤ (s.reg .esp).toNat) (hss : t.seg .ss = s.seg .ss)
    (hesp : t.reg .esp = s.reg .esp - 4) (hmem : t.mem = s.mem) :
    ∃ w, Stacked own m lo top (w :: ws) t := by
  have hdepth := h.depth
  have hfits := R.fits
  have hlow : (s.reg .esp - 4).toNat = (s.reg .esp).toNat - 4 :=
    toNat_sub_ofNat (n := 4) (by omega)
  have hplace : (s.reg .esp - 4).toNat + 4 = (s.reg .esp).toNat := by omega
  refine ⟨.ofNat (load s.mem (s.reg .esp - 4) 4), ?_, ?_, ?_, ⟨?_, ?_⟩, ?_⟩
  · rw [State.Flat, hss]
    exact h.flat
  · rw [hesp, List.length_cons]
    omega
  · rw [hesp]
    omega
  · rw [hesp, hmem, UInt32.ofNat_toNat, UInt32.toNat_ofNat_of_lt' load_lt]
  · rw [hesp, hmem, hplace]
    exact h.words
  · rw [hmem]
    exact h.frame

/-- **The word on top.** -/
theorem Stacked.top_eq (h : Stacked own m lo top (w :: ws) s) : s.top .w32 = w := by
  have hword := h.words.1
  rw [UInt32.ofNat_toNat] at hword
  rw [X86.top_eq h.flat, hword, UInt32.ofNat_toNat]

/-- **A pop.** -/
theorem Stacked.drop (h : Stacked own m lo top (w :: ws) s) (hfits : top < 2 ^ 32) :
    Stacked own m lo top ws (s.drop .w32) := by
  have hdepth := h.depth
  have hlow := h.low
  rw [List.length_cons] at hdepth
  have hesp : (s.reg .esp + 4).toNat = (s.reg .esp).toNat + 4 :=
    toNat_add_ofNat (n := 4) (by omega)
  rw [drop_eq h.flat]
  refine ⟨h.flat, ?_, ?_, ?_, h.frame⟩
  · rw [setReg_self, hesp]
    omega
  · rw [setReg_self, hesp]
    omega
  · rw [setReg_self, hesp]
    exact h.words.2

/-- A pop into a register. -/
theorem Stacked.popReg (env : Env) (h : Stacked own m lo top (w :: ws) s) (hfits : top < 2 ^ 32)
    {r : Reg} (hr : r ≠ .esp) :
    exec env (.pop .w32 r) s = some ((s.drop .w32).setReg r w) ∧
      Stacked own m lo top ws ((s.drop .w32).setReg r w) := by
  have htop := h.top_eq
  refine ⟨by rw [exec, htop]; rfl, ?_⟩
  have hdrop := h.drop hfits
  have hesp : ((s.drop .w32).setReg r w).reg .esp = (s.drop .w32).reg .esp :=
    setReg_of_ne hr.symm
  exact ⟨hdrop.flat, by rw [hesp]; exact hdrop.depth, by rw [hesp]; exact hdrop.low,
    by rw [hesp]; exact hdrop.words, hdrop.frame⟩

/-- A store into one of the words. -/
theorem Stacked.poke (h : Stacked own m lo top (us ++ w :: ws) s) (R : StackRegion env own lo top)
    {a : UInt32} (ha : a.toNat = (s.reg .esp).toNat + 4 * us.length) :
    Stacked own m lo top (us ++ v :: ws) (s.storeAt env a 4 v.toNat) := by
  have hdepth := h.depth
  have hlow := h.low
  have hfits := R.fits
  have hlen := hdepth
  rw [List.length_append, List.length_cons] at hlen
  have hdev : env.device a = false := R.device a (by omega) (by omega)
  rw [storeAt_plain hdev]
  refine ⟨h.flat, ?_, hlow, h.words.poke (by omega) ha v, fun x hown hout => ?_⟩
  · rw [List.length_append, List.length_cons]
    omega
  · rw [← h.frame x hown hout]
    exact store_of_apart (by omega) (by omega)

/-- The word at a place. -/
theorem Stacked.load_eq (us : List UInt32) (h : Stacked own m lo top (us ++ w :: ws) s)
    {a : UInt32} (ha : a.toNat = (s.reg .esp).toNat + 4 * us.length) :
    load s.mem a 4 = w.toNat := by
  have hwords := h.words
  rw [words_append] at hwords
  have hword := hwords.2.1
  rw [← ha, UInt32.ofNat_toNat] at hword
  exact hword

end Stacked

/-! ## 3. Loading a segment register -/

/-- The bytes of the descriptor table. -/
def State.InTable (s : State) (a : UInt32) : Prop :=
  (a - s.gdtr.base).toNat ≤ s.gdtr.limit.toNat

/-- The same table, seen in the same mode. -/
structure SameTable (s t : State) : Prop where
  cr0 : t.cr0 = s.cr0
  gdtr : t.gdtr = s.gdtr
  bytes : ∀ a, s.InTable a → t.mem a = s.mem a

section Segments

variable {s t u : State} {r : SegReg} {sel : UInt16}

theorem SameTable.refl (s : State) : SameTable s s := ⟨rfl, rfl, fun _ _ => rfl⟩

theorem SameTable.trans (h : SameTable s t) (h' : SameTable t u) : SameTable s u := by
  refine ⟨h'.cr0.trans h.cr0, h'.gdtr.trans h.gdtr, fun a ha => ?_⟩
  have ha' : t.InTable a := by
    rw [State.InTable, h.gdtr]
    exact ha
  rw [h'.bytes a ha', h.bytes a ha]

/-- Two states with the table of a third. -/
theorem SameTable.of_both (h : SameTable s t) (h' : SameTable s u) : SameTable t u := by
  refine ⟨h'.cr0.trans h.cr0.symm, h'.gdtr.trans h.gdtr.symm, fun a ha => ?_⟩
  have ha' : s.InTable a := by
    rw [State.InTable, ← h.gdtr]
    exact ha
  rw [h'.bytes a ha', h.bytes a ha']

theorem SameTable.descriptorByte (h : SameTable s t) {i : UInt32}
    (hin : (sel &&& 0xFFF8).toNat + 7 ≤ s.gdtr.limit.toNat) (hi : i.toNat ≤ 7) :
    t.descriptorByte sel i = s.descriptorByte sel i := by
  rw [State.descriptorByte, State.descriptorByte, h.gdtr]
  refine h.bytes _ ?_
  have hlimit : s.gdtr.limit.toNat < 2 ^ 16 := s.gdtr.limit.toNat_lt
  have hoff : s.gdtr.base + (sel &&& 0xFFF8).toUInt32 + i - s.gdtr.base =
      (sel &&& 0xFFF8).toUInt32 + i := by
    rw [UInt32.add_assoc, UInt32.add_comm, UInt32.add_sub_cancel]
  rw [State.InTable, hoff, UInt32.toNat_add, UInt16.toNat_toUInt32, Nat.mod_eq_of_lt (by omega)]
  omega

theorem SameTable.describes_iff (h : SameTable s t) : t.Describes sel ↔ s.Describes sel := by
  rw [State.Describes, State.Describes, h.gdtr]
  refine and_congr_right fun _ => and_congr_right fun hin => ?_
  rw [h.descriptorByte hin (by decide)]

/-- **In protected mode a load depends on the table only.** -/
theorem loadSeg_congr (h : SameTable s t) (hpe : s.protectedMode = true) :
    t.loadSeg r sel = s.loadSeg r sel := by
  have hpe' : t.protectedMode = true := by
    rw [State.protectedMode, h.cr0]
    exact hpe
  rw [State.loadSeg, State.loadSeg, if_pos hpe, if_pos hpe']
  by_cases hnull : sel &&& 0xFFFC = 0
  · rw [if_pos hnull, if_pos hnull]
  · rw [if_neg hnull, if_neg hnull]
    by_cases hdesc : s.Describes sel
    · rw [if_pos hdesc, if_pos (h.describes_iff.mpr hdesc)]
      rw [h.descriptorByte hdesc.2.1 (by decide), h.descriptorByte hdesc.2.1 (by decide),
        h.descriptorByte hdesc.2.1 (by decide), h.descriptorByte hdesc.2.1 (by decide),
        h.descriptorByte hdesc.2.1 (by decide)]
    · rw [if_neg hdesc, if_neg fun h' => hdesc (h.describes_iff.mp h')]

/-- The hidden part of a segment register is what its selector stands for. -/
def State.Coherent (s : State) (r : SegReg) : Prop := s.loadSeg r (s.seg r).sel = some (s.seg r)

theorem SameTable.protectedMode (h : SameTable s t) : t.protectedMode = s.protectedMode := by
  rw [State.protectedMode, State.protectedMode, h.cr0]

theorem SameTable.coherent (h : SameTable s t) (hseg : t.seg r = s.seg r)
    (hpe : s.protectedMode = true) (hco : s.Coherent r) : t.Coherent r := by
  rw [State.Coherent, hseg, loadSeg_congr h hpe]
  exact hco

/-- Such a register is restored by a load of its selector. -/
theorem setSeg_restores (hco : s.Coherent r) (h : SameTable s t) (hpe : s.protectedMode = true) :
    t.setSeg r (s.seg r).sel = some { t with seg := Function.update t.seg r (s.seg r) } := by
  rw [State.setSeg, loadSeg_congr h hpe, hco]
  rfl

end Segments

/-! ## 4. All registers saved and restored -/

/-- What no instruction here but those for it changes. -/
structure SameControl (s t : State) : Prop where
  eflags : t.eflags = s.eflags
  cr0 : t.cr0 = s.cr0
  gdtr : t.gdtr = s.gdtr
  log : t.log = s.log

/-- `t` differs from `s` in `esp` and in memory only. -/
structure OnlyStack (s t : State) : Prop extends SameControl s t where
  reg : ∀ r, r ≠ .esp → t.reg r = s.reg r
  seg : t.seg = s.seg

/-- The segment registers that `saveAll` saves, as they are pushed. -/
def savedSegs : List SegReg := [.ds, .es, .fs, .gs]

def saveAll : List Instr := .pusha :: savedSegs.map .pushSeg

def restoreAll : List Instr := savedSegs.reverse.map .popSeg ++ [.popa]

/-- The words that `saveAll` pushes, the last one first. -/
def State.saved (s : State) : List UInt32 :=
  (savedSegs.reverse.map fun r => (s.seg r).sel.toUInt32) ++ State.pushaOrder.reverse.map s.reg

section SaveRestore

variable {env : Env} {own : UInt32 → Prop} {m : Memory} {lo top : Nat} {ws vs : List UInt32}
  {s t u : State} {v : UInt32}

theorem SameControl.trans (h : SameControl s t) (h' : SameControl t u) : SameControl s u :=
  ⟨h'.eflags.trans h.eflags, h'.cr0.trans h.cr0, h'.gdtr.trans h.gdtr, h'.log.trans h.log⟩

/-- What a listing without segment loads keeps. -/
structure SameMode (s t : State) : Prop where
  seg : t.seg = s.seg
  cr0 : t.cr0 = s.cr0
  gdtr : t.gdtr = s.gdtr
  direction : t.eflags &&& State.directionFlag = s.eflags &&& State.directionFlag

theorem SameMode.trans (h : SameMode s t) (h' : SameMode t u) : SameMode s u :=
  ⟨h'.seg.trans h.seg, h'.cr0.trans h.cr0, h'.gdtr.trans h.gdtr, h'.direction.trans h.direction⟩

theorem SameMode.of_both (h : SameMode s t) (h' : SameMode s u) : SameMode t u :=
  ⟨h'.seg.trans h.seg.symm, h'.cr0.trans h.cr0.symm, h'.gdtr.trans h.gdtr.symm,
    h'.direction.trans h.direction.symm⟩

theorem OnlyStack.sameMode (h : OnlyStack s t) : SameMode s t :=
  ⟨h.seg, h.cr0, h.gdtr, by rw [h.eflags]⟩

theorem OnlyStack.refl (s : State) : OnlyStack s s := ⟨⟨rfl, rfl, rfl, rfl⟩, fun _ _ => rfl, rfl⟩

theorem OnlyStack.trans (h : OnlyStack s t) (h' : OnlyStack t u) : OnlyStack s u where
  toSameControl := h.toSameControl.trans h'.toSameControl
  reg := fun r hr => (h'.reg r hr).trans (h.reg r hr)
  seg := h'.seg.trans h.seg

theorem sameControl_drop {z : Size} : SameControl s (s.drop z) :=
  ⟨drop_eflags, drop_cr0, drop_gdtr, drop_log⟩

theorem SameTable.control (h : SameTable s t) (hc : SameControl t u) (hmem : u.mem = t.mem) :
    SameTable s u :=
  ⟨hc.cr0.trans h.cr0, hc.gdtr.trans h.gdtr, fun a ha => by rw [hmem, h.bytes a ha]⟩

theorem Stacked.onlyStack_push (h : Stacked own m lo top ws s) (R : StackRegion env own lo top)
    (hroom : lo + 4 ≤ (s.reg .esp).toNat) (v : UInt32) : OnlyStack s (s.push env .w32 v) := by
  have hdepth := h.depth
  have hesp : (s.reg .esp - 4).toNat = (s.reg .esp).toNat - 4 :=
    toNat_sub_ofNat (n := 4) (by omega)
  have hdev : env.device (s.reg .esp - 4) = false := R.device _ (by omega) (by omega)
  have hlog : (s.push env .w32 v).log = s.log := by rw [push_eq h.flat hdev]
  exact ⟨⟨push_eflags, push_cr0, push_gdtr, hlog⟩, fun r hr => push_reg_of_ne hr, push_seg⟩

/-- Several pushes. -/
theorem Stacked.pushes (vs : List UInt32) (h : Stacked own m lo top ws s)
    (R : StackRegion env own lo top) (hroom : lo + 4 * vs.length ≤ (s.reg .esp).toNat) :
    Stacked own m lo top (vs.reverse ++ ws) (vs.foldl (fun t v => t.push env .w32 v) s) ∧
      OnlyStack s (vs.foldl (fun t v => t.push env .w32 v) s) := by
  induction vs generalizing s ws with
  | nil => exact ⟨h, .refl s⟩
  | cons v vs ih =>
      rw [List.length_cons] at hroom
      have hpush := h.push R (by omega) v
      have honly := h.onlyStack_push R (by omega) v
      have hdepth := h.depth
      have hdepth' := hpush.depth
      rw [List.length_cons] at hdepth'
      obtain ⟨hrest, honly'⟩ := ih hpush (by omega)
      rw [List.reverse_cons, List.append_assoc]
      exact ⟨hrest, honly.trans honly'⟩

/-- Several segment registers are pushed. -/
theorem execs_pushSeg (rs : List SegReg) (s : State) :
    execs env (rs.map .pushSeg) s =
      some ((rs.map fun r => (s.seg r).sel.toUInt32).foldl (fun t v => t.push env .w32 v) s) := by
  induction rs generalizing s with
  | nil => rfl
  | cons r rs ih =>
      rw [List.map_cons, execs, exec, Option.bind_some, ih, push_seg]
      rfl

/-- An operand that a push does not change. -/
def Operand.Plain : Operand → Prop
  | .reg r => r ≠ .esp
  | .imm _ => True
  | .mem _ => False

/-- Several registers and constants are pushed. -/
theorem execs_push {os : List Operand} (hos : ∀ o ∈ os, o.Plain) (s : State) :
    execs env (os.map .push) s =
      some ((os.map (s.value .w32)).foldl (fun t v => t.push env .w32 v) s) := by
  induction os generalizing s with
  | nil => rfl
  | cons o os ih =>
      have hsame : ∀ o' ∈ os, (s.push env .w32 (s.value .w32 o)).value .w32 o' =
          s.value .w32 o' := by
        intro o' ho'
        have hplain := hos o' (List.mem_cons_of_mem o ho')
        cases o' with
        | reg r => exact push_reg_of_ne hplain
        | imm v => rfl
        | mem m => exact hplain.elim
      rw [List.map_cons, execs, exec, Option.bind_some,
        ih (fun o' ho' => hos o' (List.mem_cons_of_mem o ho')), List.map_congr_left hsame]
      rfl

/-- **All registers are saved.** -/
theorem Stacked.saveAll (h : Stacked own m lo top ws s) (R : StackRegion env own lo top)
    (hroom : lo + 48 ≤ (s.reg .esp).toNat) :
    ∃ t, execs env X86.saveAll s = some t ∧ Stacked own m lo top (s.saved ++ ws) t ∧
      OnlyStack s t := by
  obtain ⟨hregs, honly⟩ := h.pushes (State.pushaOrder.map s.reg) R
    (by rw [List.length_map]; show lo + 32 ≤ _; omega)
  have hdepth := h.depth
  have hdepth' := hregs.depth
  rw [List.length_append, List.length_reverse, List.length_map] at hdepth'
  have hlen : State.pushaOrder.length = 8 := rfl
  obtain ⟨hsegs, honly'⟩ := hregs.pushes (savedSegs.map fun r => (s.seg r).sel.toUInt32) R
    (by rw [List.length_map]; show _ + 16 ≤ _; omega)
  refine ⟨_, ?_, ?_, honly.trans honly'⟩
  · have hseg : (s.pusha env).seg = s.seg := honly.seg
    rw [X86.saveAll, execs_cons rfl, execs_pushSeg, hseg]
    rfl
  · rw [State.saved, List.append_assoc, List.map_reverse, List.map_reverse]
    exact hsegs

/-- A segment register is popped that was pushed in `s`. -/
theorem Stacked.popSeg (env : Env) {r : SegReg}
    (h : Stacked own m lo top ((s.seg r).sel.toUInt32 :: ws) t)
    (hfits : top < 2 ^ 32) (hr : r ≠ .ss) (hco : s.Coherent r) (htable : SameTable s t)
    (hpe : s.protectedMode = true) :
    ∃ u, exec env (.popSeg r) t = some u ∧ Stacked own m lo top ws u ∧
      u.seg = Function.update t.seg r (s.seg r) ∧ (∀ q, q ≠ .esp → u.reg q = t.reg q) ∧
      u.mem = t.mem ∧ SameControl t u := by
  have hdrop : SameTable s (t.drop .w32) := htable.control sameControl_drop drop_mem
  refine ⟨{ t.drop .w32 with seg := Function.update (t.drop .w32).seg r (s.seg r) }, ?_, ?_, ?_,
    fun q hq => drop_reg_of_ne hq, drop_mem, sameControl_drop.1, sameControl_drop.2,
    sameControl_drop.3, sameControl_drop.4⟩
  · rw [exec, h.top_eq, UInt16.toUInt16_toUInt32]
    exact setSeg_restores hco hdrop hpe
  · refine (h.drop hfits).congr ?_ rfl rfl
    exact Function.update_of_ne hr.symm _ _
  · rw [drop_seg]

/-- Several segment registers are popped. -/
theorem Stacked.popSegs (env : Env) {rs : List SegReg}
    (h : Stacked own m lo top ((rs.map fun r => (s.seg r).sel.toUInt32) ++ ws) t)
    (hfits : top < 2 ^ 32) (hrs : .ss ∉ rs) (hco : ∀ r ∈ rs, s.Coherent r)
    (htable : SameTable s t) (hpe : s.protectedMode = true) :
    ∃ u, execs env (rs.map .popSeg) t = some u ∧ Stacked own m lo top ws u ∧
      (∀ r, u.seg r = if r ∈ rs then s.seg r else t.seg r) ∧
      (∀ q, q ≠ .esp → u.reg q = t.reg q) ∧ u.mem = t.mem ∧ SameControl t u := by
  induction rs generalizing t with
  | nil =>
      exact ⟨t, rfl, h, fun r => by rw [if_neg List.not_mem_nil], fun _ _ => rfl, rfl,
        ⟨rfl, rfl, rfl, rfl⟩⟩
  | cons r rs ih =>
      rw [List.mem_cons, not_or] at hrs
      rw [List.forall_mem_cons] at hco
      obtain ⟨t', hx, h', hseg, hreg, hmem, hcontrol⟩ :=
        h.popSeg env hfits (Ne.symm hrs.1) hco.1 htable hpe
      obtain ⟨u, hxs, hu, hseg', hreg', hmem', hcontrol'⟩ :=
        ih h' hrs.2 hco.2 (htable.control hcontrol hmem)
      refine ⟨u, by rw [List.map_cons, execs_cons hx, hxs], hu, fun q => ?_,
        fun q hq => (hreg' q hq).trans (hreg q hq), hmem'.trans hmem, hcontrol.trans hcontrol'⟩
      rw [hseg', hseg]
      by_cases hq : q = r
      · subst hq
        rw [if_pos List.mem_cons_self, Function.update_self, ite_self]
      · rw [Function.update_of_ne hq]
        simp only [List.mem_cons, hq, false_or]

/-- `popa` in the order of its registers. -/
theorem Stacked.popRegs {f : Reg → UInt32} {rs : List Reg}
    (h : Stacked own m lo top (rs.map f ++ ws) t) (hfits : top < 2 ^ 32) (hrs : rs.Nodup) :
    ∃ u, rs.foldl
        (fun t r => if r = .esp then t.drop .w32 else (t.drop .w32).setReg r (t.top .w32)) t = u ∧
      Stacked own m lo top ws u ∧ (∀ r, r ≠ .esp → u.reg r = if r ∈ rs then f r else t.reg r) ∧
      u.seg = t.seg ∧ u.mem = t.mem ∧ SameControl t u := by
  induction rs generalizing t with
  | nil =>
      exact ⟨t, rfl, h, fun r _ => by rw [if_neg List.not_mem_nil], rfl, rfl, ⟨rfl, rfl, rfl, rfl⟩⟩
  | cons r rs ih =>
      rw [List.nodup_cons] at hrs
      rw [List.map_cons, List.cons_append] at h
      have hdrop := h.drop hfits
      have hcontrol : SameControl t (t.drop .w32) := sameControl_drop
      by_cases hr : r = .esp
      · obtain ⟨u, hu, hst, hreg, hseg, hmem, hcontrol'⟩ := ih hdrop hrs.2
        refine ⟨u, by rw [List.foldl_cons, if_pos hr, hu], hst, fun q hq => ?_,
          hseg.trans drop_seg, hmem.trans drop_mem, hcontrol.trans hcontrol'⟩
        have hne : q ≠ r := by rw [hr]; exact hq
        rw [hreg q hq, drop_reg_of_ne hq]
        simp only [List.mem_cons, hne, false_or]
      · have hset : Stacked own m lo top (rs.map f ++ ws)
            ((t.drop .w32).setReg r (t.top .w32)) :=
          hdrop.congr rfl (setReg_of_ne (Ne.symm hr)) rfl
        obtain ⟨u, hu, hst, hreg, hseg, hmem, hcontrol'⟩ := ih hset hrs.2
        refine ⟨u, by rw [List.foldl_cons, if_neg hr, hu], hst, fun q hq => ?_,
          hseg.trans drop_seg, hmem.trans drop_mem,
          hcontrol.trans ⟨hcontrol'.eflags, hcontrol'.cr0, hcontrol'.gdtr, hcontrol'.log⟩⟩
        rw [hreg q hq]
        by_cases hqr : q = r
        · subst hqr
          rw [if_neg hrs.1, if_pos List.mem_cons_self, setReg_self, h.top_eq]
        · rw [setReg_of_ne hqr, drop_reg_of_ne hq]
          simp only [List.mem_cons, hqr, false_or]

/-- **All registers are restored** to those of `s`, which saved them. -/
theorem Stacked.restoreAll (env : Env) (h : Stacked own m lo top (s.saved ++ ws) t)
    (hfits : top < 2 ^ 32) (hco : ∀ r ∈ savedSegs, s.Coherent r) (htable : SameTable s t)
    (hpe : s.protectedMode = true) :
    ∃ u, execs env X86.restoreAll t = some u ∧ Stacked own m lo top ws u ∧
      (∀ r, r ≠ .esp → u.reg r = s.reg r) ∧
      (∀ r, u.seg r = if r ∈ savedSegs then s.seg r else t.seg r) ∧
      u.mem = t.mem ∧ SameControl t u := by
  rw [State.saved, List.append_assoc] at h
  obtain ⟨t', hx, h', hseg, hreg, hmem, hcontrol⟩ := h.popSegs env hfits (by decide)
    (fun r hr => hco r (List.mem_reverse.mp hr)) htable hpe
  obtain ⟨u, hu, hst, hreg', hseg', hmem', hcontrol'⟩ := h'.popRegs hfits (by decide)
  refine ⟨u, ?_, hst, fun r hr => ?_, fun r => ?_, hmem'.trans hmem, hcontrol.trans hcontrol'⟩
  · rw [X86.restoreAll, execs_append hx, ← hu]
    rfl
  · rw [hreg' r hr, if_pos (by cases r <;> decide)]
  · rw [hseg', hseg]
    simp only [List.mem_reverse]

/-- What is done between `saveAll` and `restoreAll`, from `g` to `v`: the stack is as it was, and
memory too, but for one's own variables. -/
structure Between (own : UInt32 → Prop) (lo : Nat) (g v : State) : Prop where
  esp : v.reg .esp = g.reg .esp
  seg : v.seg = g.seg
  cr0 : v.cr0 = g.cr0
  gdtr : v.gdtr = g.gdtr
  mem : ∀ a : UInt32, ¬ own a → a.toNat < lo ∨ (g.reg .esp).toNat ≤ a.toNat → v.mem a = g.mem a

/-- **Code around which all registers are saved** leaves them as they were, whatever it does with
them. -/
theorem Stacked.around (env : Env) (h : Stacked nobody m lo top ws s)
    (R : StackRegion env own lo top) (hroom : lo + 48 ≤ (s.reg .esp).toNat)
    (hco : ∀ r ∈ savedSegs, s.Coherent r) (hpe : s.protectedMode = true)
    (htable : ∀ a, s.InTable a → ¬ own a ∧ (a.toNat < lo ∨ top ≤ a.toNat)) :
    ∃ g, execs env X86.saveAll s = some g ∧ Stacked nobody m lo top (s.saved ++ ws) g ∧
      OnlyStack s g ∧ ∀ v, Between own lo g v →
        ∃ u, execs env X86.restoreAll v = some u ∧ Stacked own m lo top ws u ∧ u.reg = s.reg ∧
          u.seg = s.seg ∧ u.mem = v.mem ∧ SameControl v u := by
  obtain ⟨g, hx, hg, honly⟩ := h.saveAll R.unowned hroom
  refine ⟨g, hx, hg, honly, fun v hv => ?_⟩
  have hst : Stacked own m lo top (s.saved ++ ws) v :=
    hg.weaken.resume R (congrFun hv.seg .ss) hv.esp hv.mem
  have hsame : SameTable s v := by
    refine ⟨hv.cr0.trans honly.cr0, hv.gdtr.trans honly.gdtr, fun a ha => ?_⟩
    obtain ⟨hown, hout⟩ := htable a ha
    rw [hst.frame a hown hout, h.frame a not_false hout]
  obtain ⟨u, hu, hstu, hreg, hseg, hmem, hcontrol⟩ := hst.restoreAll env R.fits hco hsame hpe
  refine ⟨u, hu, hstu, funext fun r => ?_, funext fun r => ?_, hmem, hcontrol⟩
  · by_cases hr : r = .esp
    · subst hr
      have hdepth := h.depth
      have hdepth' := hstu.depth
      exact UInt32.toNat_inj.mp (by omega)
    · exact hreg r hr
  · rw [hseg r, hv.seg, honly.seg, ite_self]

end SaveRestore

end X86
