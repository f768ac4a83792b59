/-
  File:      Lib/X86/Real.lean
  Subject:   16-BIT CODE: halves of registers, segments in real mode, and `rep movsw`.

  * `low16` -- the half of a register that 16-bit code sees;
  * `loadSeg_real` -- a segment register is loaded in real mode;
  * `repMovsw_down` -- words copied downwards into a region below their own.
-/
import MapleKernel.Lib.X86.Rules

namespace X86

/-! ## 1. Halves of registers -/

/-- What 16-bit code sees of a register. -/
def low16 (v : UInt32) : Nat := (Size.w16.trunc v).toNat

section Halves

variable {env : Env} {s t : State} {v w : UInt32} {r q : Reg} {n : Nat}

theorem low16_eq (v : UInt32) : low16 v = v.toNat % 2 ^ 16 := by
  rw [low16, Size.trunc, UInt32.toNat_and]
  exact Nat.and_two_pow_sub_one_eq_mod _ 16

theorem low16_lt : low16 v < 2 ^ 16 := by
  rw [low16_eq]
  exact Nat.mod_lt _ (Nat.two_pow_pos _)

theorem trunc_eq_ofNat (v : UInt32) : Size.w16.trunc v = .ofNat (low16 v) :=
  UInt32.ofNat_toNat.symm

theorem low16_trunc (v : UInt32) : low16 (Size.w16.trunc v) = low16 v := by
  rw [low16, trunc_trunc, low16]

/-- A half is set, and read back. -/
theorem low16_setSized (v : UInt32) : low16 ((s.setSized .w16 r v).reg r) = low16 v :=
  congrArg UInt32.toNat (sets_setSized v).value

theorem Sets.low16_eq {R R' : Reg → UInt32} (h : Sets .w16 R r v R') : low16 (R' r) = low16 v :=
  congrArg UInt32.toNat h.value

theorem toNat_toUInt16_eq (v : UInt32) : v.toUInt16.toNat = low16 v := by
  rw [low16_eq]
  exact UInt32.toNat_toUInt16 v

/-- The selector in a half. -/
theorem Sets.toUInt16_eq {R R' : Reg → UInt32} (h : Sets .w16 R r v R') :
    (R' r).toUInt16 = v.toUInt16 :=
  UInt16.toNat_inj.mp (by rw [toNat_toUInt16_eq, toNat_toUInt16_eq, h.low16_eq])

theorem low16_add (v w : UInt32) : low16 (v + w) = (low16 v + low16 w) % 2 ^ 16 := by
  rw [low16_eq, low16_eq, low16_eq, UInt32.toNat_add, Nat.mod_mod_of_dvd _ (by decide),
    ← Nat.add_mod]

theorem low16_of_lt (h : v.toNat < 2 ^ 16) : low16 v = v.toNat := by
  rw [low16_eq, Nat.mod_eq_of_lt h]

theorem low16_ofNat (h : n < 2 ^ 16) : low16 (.ofNat n) = n := by
  have hn : (UInt32.ofNat n).toNat = n := UInt32.toNat_ofNat_of_lt' (by rw [UInt32.size]; omega)
  rw [low16_of_lt (by rw [hn]; exact h), hn]

theorem low16_sub (h : low16 w ≤ low16 v) : low16 (v - w) = low16 v - low16 w := by
  have hv : v.toNat < 2 ^ 32 := v.toNat_lt
  have hw : w.toNat < 2 ^ 32 := w.toNat_lt
  rw [low16_eq, low16_eq] at h ⊢
  rw [low16_eq, UInt32.toNat_sub]
  omega

/-- Results in halves. -/
theorem Sets.low16_add {R R' : Reg → UInt32}
    (h : Sets .w16 R r
      (Size.w16.trunc (Alu.add.result (Size.w16.trunc (R r)) (Size.w16.trunc v))) R') :
    low16 (R' r) = (low16 (R r) + low16 v) % 2 ^ 16 := by
  rw [h.low16_eq, low16_trunc, Alu.result, X86.low16_add, low16_trunc, low16_trunc]

theorem Sets.low16_sub {R R' : Reg → UInt32}
    (h : Sets .w16 R r
      (Size.w16.trunc (Alu.sub.result (Size.w16.trunc (R r)) (Size.w16.trunc v))) R')
    (hle : low16 v ≤ low16 (R r)) : low16 (R' r) = low16 (R r) - low16 v := by
  rw [h.low16_eq, low16_trunc, Alu.result,
    X86.low16_sub (by rw [low16_trunc, low16_trunc]; exact hle), low16_trunc, low16_trunc]

theorem Sets.low16_shl {R R' : Reg → UInt32}
    (h : Sets .w16 R r
      (Size.w16.trunc (Alu.shl.result (Size.w16.trunc (R r)) (Size.w16.trunc 1))) R') :
    low16 (R' r) = 2 * low16 (R r) % 2 ^ 16 := by
  have hlt : low16 (R r) < 2 ^ 16 := low16_lt
  rw [h.low16_eq, low16_trunc, X86.low16_eq]
  show (Size.w16.trunc (R r) <<< 1).toNat % 2 ^ 16 = _
  rw [UInt32.toNat_shiftLeft, show (Size.w16.trunc (R r)).toNat = low16 (R r) from rfl]
  show low16 (R r) <<< 1 % 2 ^ 32 % 2 ^ 16 = _
  rw [Nat.shiftLeft_eq]
  omega

theorem Sets.low16_shr {R R' : Reg → UInt32}
    (h : Sets .w16 R r
      (Size.w16.trunc (Alu.shr.result (Size.w16.trunc (R r)) (Size.w16.trunc 1))) R') :
    low16 (R' r) = low16 (R r) / 2 := by
  have hlt : low16 (R r) < 2 ^ 16 := low16_lt
  rw [h.low16_eq, low16_trunc, X86.low16_eq]
  show (Size.w16.trunc (R r) >>> 1).toNat % 2 ^ 16 = _
  rw [UInt32.toNat_shiftRight, show (Size.w16.trunc (R r)).toNat = low16 (R r) from rfl]
  show low16 (R r) >>> 1 % 2 ^ 16 = _
  rw [Nat.shiftRight_eq_div_pow]
  omega

end Halves

/-! ## 2. Real mode -/

section Segments

variable {env : Env} {s : State} {is : List Instr} {P : State → Prop} {R : Reg → UInt32}
  {F : UInt32} {M : Memory} {src : Reg} {sel : UInt16}

/-- In real mode a segment is 16 times its selector, and the size bit stays. -/
theorem loadSeg_real (r : SegReg) (sel : UInt16) (h : s.protectedMode = false) :
    s.loadSeg r sel = some ⟨sel, sel.toUInt32 <<< 4, (s.seg r).big⟩ := by
  rw [State.loadSeg, if_neg (by rw [h]; exact Bool.false_ne_true)]

/-- **Segment registers in real mode**, when all have come from 16-bit code. -/
theorem after_movToSegs_real (rs : List SegReg) (hreal : s.protectedMode = false)
    (hbig : ∀ q, (s.seg q).big = false) (hsel : (R src).toUInt16 = sel)
    (h : After env is P ({ s with
      seg := fun q => if q ∈ rs then ⟨sel, sel.toUInt32 <<< 4, false⟩ else s.seg q }.upd R F M)) :
    After env ((rs.map fun r => .movToSeg r src) ++ is) P (s.upd R F M) := by
  refine after_movToSegs rs hsel (fun r _ seg hor => ?_) h
  have hload := loadSeg_real (s := { s with seg, mem := M }) r sel hreal
  have hsmall : (seg r).big = false := by
    rcases hor r with hr | hr
    · rw [hr, hbig]
    · rw [hr]
  rw [hload]
  exact congrArg (fun b => some (Seg.mk sel (sel.toUInt32 <<< 4) b)) hsmall

end Segments

/-! ## 3. Copying -/

/-- `n` words were copied downwards, from `A` and below to `B` and below. -/
structure Copied (A B n : Nat) (s t : State) : Prop where
  words : ∀ i < n, load t.mem (.ofNat (B - 2 * i)) 2 = load s.mem (.ofNat (A - 2 * i)) 2
  frame : ∀ x : UInt32, x.toNat + 2 * n < B + 2 ∨ B + 2 ≤ x.toNat → t.mem x = s.mem x
  reg : ∀ r, r ≠ .ecx → r ≠ .esi → r ≠ .edi → t.reg r = s.reg r
  seg : t.seg = s.seg
  eflags : t.eflags = s.eflags
  cr0 : t.cr0 = s.cr0
  gdtr : t.gdtr = s.gdtr
  log : t.log = s.log

section Copy

variable {env : Env} {s : State} {A B n : Nat}

/-- One word, with the direction flag set. -/
theorem movsw_ok (hdf : s.eflags &&& State.directionFlag ≠ 0)
    (hA : (s.seg .ds).base.toNat + low16 (s.reg .esi) = A)
    (hB : (s.seg .es).base.toNat + low16 (s.reg .edi) = B)
    (hdev : env.device (.ofNat B) = false) :
    ∃ t, s.movsw env = t ∧ t.mem = store s.mem (.ofNat B) 2 (load s.mem (.ofNat A) 2) ∧
      (2 ≤ low16 (s.reg .esi) → low16 (t.reg .esi) = low16 (s.reg .esi) - 2) ∧
      (2 ≤ low16 (s.reg .edi) → low16 (t.reg .edi) = low16 (s.reg .edi) - 2) ∧
      (∀ r, r ≠ .esi → r ≠ .edi → t.reg r = s.reg r) ∧
      t.seg = s.seg ∧ t.eflags = s.eflags ∧ t.cr0 = s.cr0 ∧ t.gdtr = s.gdtr ∧ t.log = s.log := by
  have hsrc : (s.seg .ds).base + Size.w16.trunc (s.reg .esi) = .ofNat A := by
    rw [trunc_eq_ofNat, ← hA, UInt32.ofNat_add, UInt32.ofNat_toNat]
  have hdst : (s.seg .es).base + Size.w16.trunc (s.reg .edi) = .ofNat B := by
    rw [trunc_eq_ofNat, ← hB, UInt32.ofNat_add, UInt32.ofNat_toNat]
  have hdown : ∀ v : UInt32, 2 ≤ low16 v → low16 (v + 0xFFFFFFFE) = low16 v - 2 := by
    intro v hv
    have hlt : low16 v < 2 ^ 16 := low16_lt
    have htwo : low16 0xFFFFFFFE = 0xFFFE := by decide
    rw [low16_add, htwo]
    omega
  have hmovsw : s.movsw env =
      ((s.storeAt env (.ofNat B) 2 (load s.mem (.ofNat A) 2)).setSized .w16 .esi
        (s.reg .esi + 0xFFFFFFFE)).setSized .w16 .edi (s.reg .edi + 0xFFFFFFFE) := by
    rw [← hsrc, ← hdst]
    simp only [State.movsw, if_neg hdf]
  refine ⟨_, hmovsw, ?_, fun h => ?_, fun h => ?_, fun r hsi hdi => ?_, ?_, ?_, ?_, ?_, ?_⟩
  · rw [setSized_mem, setSized_mem, storeAt_plain hdev]
  · rw [setSized_of_ne (by decide), low16_setSized, hdown _ h]
  · rw [low16_setSized, hdown _ h]
  · rw [setSized_of_ne hdi, setSized_of_ne hsi, storeAt_reg]
  · rw [setSized_seg, setSized_seg, storeAt_seg]
  · rw [setSized_eflags, setSized_eflags, storeAt_eflags]
  · rw [setSized_cr0, setSized_cr0, storeAt_cr0]
  · rw [setSized_gdtr, setSized_gdtr, storeAt_gdtr]
  · rw [setSized_log, setSized_log, storeAt_plain hdev]

/-- **Words are copied downwards** by `rep movsw`, into a region below theirs. -/
theorem repMovsw_down (hdf : s.eflags &&& State.directionFlag ≠ 0)
    (hA : 0 < n → (s.seg .ds).base.toNat + low16 (s.reg .esi) = A)
    (hB : 0 < n → (s.seg .es).base.toNat + low16 (s.reg .edi) = B)
    (hsi : 2 * n ≤ low16 (s.reg .esi) + 2) (hdi : 2 * n ≤ low16 (s.reg .edi) + 2)
    (hbelow : B + 2 * n ≤ A) (hfits : A + 2 ≤ 2 ^ 32)
    (hdev : ∀ x : UInt32, x.toNat < B + 2 → B + 2 ≤ x.toNat + 2 * n → env.device x = false) :
    Copied A B n s (s.repMovsw env n) := by
  induction n generalizing s A B with
  | zero =>
      exact ⟨fun i hi => absurd hi (Nat.not_lt_zero i), fun _ _ => rfl, fun _ _ _ _ => rfl, rfl,
        rfl, rfl, rfl, rfl⟩
  | succ n ih =>
      have hA := hA (Nat.succ_pos n)
      have hB := hB (Nat.succ_pos n)
      have hBnat : (UInt32.ofNat B).toNat = B :=
        UInt32.toNat_ofNat_of_lt' (by rw [UInt32.size]; omega)
      obtain ⟨t, ht, hmem, hesi, hedi, hreg, hseg, hflags, hcr0, hgdtr, hlog⟩ :=
        movsw_ok hdf hA hB (hdev _ (by rw [hBnat]; omega) (by rw [hBnat]; omega))
      obtain ⟨u, hu⟩ : ∃ u, t.setSized .w16 .ecx (t.reg .ecx - 1) = u := ⟨_, rfl⟩
      have humem : u.mem = store s.mem (.ofNat B) 2 (load s.mem (.ofNat A) 2) := by
        rw [← hu, setSized_mem, hmem]
      have husi : u.reg .esi = t.reg .esi := by rw [← hu]; exact setSized_of_ne (by decide)
      have hudi : u.reg .edi = t.reg .edi := by rw [← hu]; exact setSized_of_ne (by decide)
      have huseg : u.seg = s.seg := by rw [← hu, setSized_seg, hseg]
      have hrest : Copied (A - 2) (B - 2) n u (u.repMovsw env n) := by
        refine ih (by rw [← hu, setSized_eflags, hflags]; exact hdf) (fun hn => ?_) (fun hn => ?_)
          ?_ ?_ (by omega) (by omega) fun x hlt hle => hdev x (by omega) (by omega)
        · rw [huseg, husi, hesi (by omega)]
          omega
        · rw [huseg, hudi, hedi (by omega)]
          omega
        · rw [husi]
          by_cases hn : n = 0
          · omega
          · rw [hesi (by omega)]
            omega
        · rw [hudi]
          by_cases hn : n = 0
          · omega
          · rw [hedi (by omega)]
            omega
      have hstep : s.repMovsw env (n + 1) = u.repMovsw env n := by
        rw [State.repMovsw, ht, hu]
      rw [hstep]
      refine ⟨fun i hi => ?_, fun x hout => ?_, fun r hcx hsi' hdi' => ?_, hrest.seg.trans huseg,
        ?_, ?_, ?_, ?_⟩
      · cases i with
        | zero =>
            -- the first word is above the others
            have hlow : load s.mem (.ofNat A) 2 % 256 ^ 2 = load s.mem (.ofNat A) 2 :=
              Nat.mod_eq_of_lt load_lt
            rw [Nat.mul_zero, Nat.sub_zero, Nat.sub_zero, ← hlow, ← load_store (by decide), ← humem]
            refine load_congr_region (by omega) fun x hlo hhi => ?_
            exact hrest.frame x (by omega)
        | succ i =>
            have hAi : A - 2 * (i + 1) = A - 2 - 2 * i := by omega
            have hBi : B - 2 * (i + 1) = B - 2 - 2 * i := by omega
            rw [hAi, hBi, hrest.words i (by omega), humem]
            exact load_store_apart (by rw [hBnat]; omega) (by omega) (by rw [hBnat]; omega)
      · rw [hrest.frame x (by omega), humem]
        exact store_of_apart (by rw [hBnat]; omega) (by rw [hBnat]; omega)
      · rw [hrest.reg r hcx hsi' hdi', ← hu, setSized_of_ne hcx, hreg r hsi' hdi']
      · rw [hrest.eflags, ← hu, setSized_eflags, hflags]
      · rw [hrest.cr0, ← hu, setSized_cr0, hcr0]
      · rw [hrest.gdtr, ← hu, setSized_gdtr, hgdtr]
      · rw [hrest.log, ← hu, setSized_log, hlog]

/-- The instruction, as a rule. -/
theorem after_repMovsw {is : List Instr} {P : State → Prop} {R : Reg → UInt32} {F : UInt32}
    {M : Memory} (hcx : low16 (R .ecx) = n) (hdf : F &&& State.directionFlag ≠ 0)
    (hA : (s.seg .ds).base.toNat + low16 (R .esi) = A)
    (hB : (s.seg .es).base.toNat + low16 (R .edi) = B)
    (hsi : 2 * n ≤ low16 (R .esi) + 2) (hdi : 2 * n ≤ low16 (R .edi) + 2)
    (hbelow : B + 2 * n ≤ A) (hfits : A + 2 ≤ 2 ^ 32)
    (hdev : ∀ x : UInt32, x.toNat < B + 2 → B + 2 ≤ x.toNat + 2 * n → env.device x = false)
    (h : ∀ R' M', Copied A B n (s.upd R F M) (s.upd R' F M') → After env is P (s.upd R' F M')) :
    After env (.repMovsw :: is) P (s.upd R F M) := by
  have hcopied : Copied A B n (s.upd R F M) ((s.upd R F M).repMovsw env n) :=
    repMovsw_down hdf (fun _ => hA) (fun _ => hB) hsi hdi hbelow hfits hdev
  have hexec : exec env .repMovsw (s.upd R F M) = some ((s.upd R F M).repMovsw env n) := by
    rw [← hcx]
    rfl
  obtain ⟨t, ht⟩ : ∃ t, (s.upd R F M).repMovsw env n = t := ⟨_, rfl⟩
  rw [ht] at hcopied hexec
  have hupd : t = s.upd t.reg F t.mem := by
    have hsame : t = s.upd t.reg t.eflags t.mem :=
      eq_upd hcopied.seg hcopied.cr0 hcopied.gdtr hcopied.log
    rw [show t.eflags = F from hcopied.eflags] at hsame
    exact hsame
  rw [hupd] at hcopied hexec
  exact after_cons hexec (h _ _ hcopied)

end Copy

/-! ## 4. Calls -/

section Call

variable {env : Env} {s : State} {is : List Instr} {P : State → Prop} {R : Reg → UInt32}
  {F : UInt32} {M : Memory} {r : Reg} {sp : Nat}

/-- **A near call** on a 16-bit stack that begins at `base`. -/
theorem after_callReg (base : Nat) (hbig : (s.seg .ss).big = false)
    (hbase : (s.seg .ss).base = .ofNat base) (hfits : base + 2 ^ 16 < 2 ^ 32)
    (hsp : low16 (R .esp) = sp + 2) (hdev : env.device (.ofNat (base + sp)) = false)
    (h : ∀ (R' : Reg → UInt32) (M' : Memory), low16 (R' .esp) = sp → (∀ q, q ≠ .esp → R' q = R q) →
      (∀ x : UInt32, x.toNat < base + sp ∨ base + sp + 2 ≤ x.toNat → M' x = M x) →
      After env is P (env.callee (Size.w16.trunc (R r))
        ({ s with log := s.log ++ [Event.call (Size.w16.trunc (R r))] }.upd R' F M'))) :
    After env (.callReg .w16 r :: is) P (s.upd R F M) := by
  have hlt : low16 (R .esp) < 2 ^ 16 := low16_lt
  have hsize : (s.upd R F M).stackSize = .w16 := if_neg (by
    show ¬ (s.seg .ss).big = true
    rw [hbig]
    exact Bool.false_ne_true)
  have htwo : low16 2 = 2 := rfl
  have hlow : low16 (R .esp - 2) = sp := by
    rw [low16_sub (by omega), htwo]
    omega
  have haddr : (s.upd R F M).stackAddr (.ofNat Size.w16.bytes) = .ofNat (base + sp) := by
    show (s.seg .ss).base + (s.upd R F M).stackSize.trunc (R .esp - 2) = _
    rw [hsize, hbase, trunc_eq_ofNat, hlow, UInt32.ofNat_add]
  obtain ⟨v, hv⟩ : ∃ v, (Size.w16.trunc (env.returnAddress (s.upd R F M))).toNat = v := ⟨_, rfl⟩
  have hpush : (s.upd R F M).push env .w16 (env.returnAddress (s.upd R F M)) =
      (s.upd R F (store M (.ofNat (base + sp)) 2 v)).setSized .w16 .esp (R .esp - 2) := by
    rw [State.push, haddr, storeAt_plain hdev, hsize, hv]
    rfl
  rw [setSized_upd] at hpush
  have hexec : exec env (.callReg .w16 r) (s.upd R F M) =
      some (env.callee (Size.w16.trunc (R r))
        ({ s with log := s.log ++ [Event.call (Size.w16.trunc (R r))] }.upd
          ((s.upd R F (store M (.ofNat (base + sp)) 2 v)).setSized .w16 .esp (R .esp - 2)).reg F
            (store M (.ofNat (base + sp)) 2 v))) := by
    rw [exec, State.enter, hpush]
    rfl
  refine after_cons hexec (h _ _ ?_ (fun q hq => setSized_of_ne hq) fun x hx =>
    store_place_of_apart (by omega) hx)
  rw [low16_setSized, hlow]

end Call

end X86
