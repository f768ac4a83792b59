/-
  File:      Real16/CallRealMode.lean
  Subject:   CALLS INTO REAL MODE (`call_real16_wrapper.c`): how a function and its arguments are
             put into `args16_start`.

  The macro `call_real_mode_function` counts its words, the function among them.
  `call_real_mode_function_with_argc` takes the function from the list, stores one less in `argc`,
  and then copies as many words as were counted: one more than there are arguments left.
  `get_realmode_function_address` splits the address of the function into a segment and an offset.

  * `args16` -- the structure, laid out by the compiler; `CallState.mem` are the halfwords from its
    begin on, those behind it included;
  * `CallWithArgc`, `getRealmodeFunctionAddress` -- from the source; `vaArgs` counts the words that
    are taken;
  * `callRealModeFunction_iff`, `mem_afterCopy` -- a call gets to the switch of modes, and what
    stands in memory then;
  * `marshalled_never` -- no call leaves what it should: each takes a word too many from its
    arguments;
  * `keepsOthers_callState_iff` -- the memory around is kept exactly when that word stood there
    already;
  * `splitsAddress_iff` -- the address is split right below 64 KiB, and above 1 MiB marked invalid.
-/
import MapleKernel.Lib.Iterate
import MapleKernel.Lib.StructLayout

namespace MapleKernel.Real16

open Iteration StructLayout

/-! ## 1. The structure -/

inductive Args16Member where
  | gdtRoot | esp | ss | cs | ret1 | ret2 | func | funcCs | argc | funcArgs
  deriving DecidableEq, Repr

/-- `gdtr32_t`: 6 bytes, packed, but aligned to 4 bytes. -/
def gdtr32 : MemberType := { uint32 with size := 8 }

/-- The slots of `func_args`. -/
def maxFuncArgs : Nat := 11

/-- `struct Args16`. -/
def args16 : Struct Args16Member where
  packed := true
  members :=
    [(.gdtRoot, gdtr32), (.esp, uint32), (.ss, uint16), (.cs, uint16), (.ret1, uint16),
      (.ret2, uint16), (.func, uint16), (.funcCs, uint16), (.argc, uint16),
      (.funcArgs, uint16.array maxFuncArgs)]

/-- The halfword where a member begins. -/
def halfword (m : Args16Member) : Nat := ((args16.place m).getD (0, 0)).1 / 2

/-- `func_args[i]`, which is behind the structure from `maxFuncArgs` on. -/
def argSlot (i : Nat) : Nat := halfword .funcArgs + i

theorem argSlot_eq (i : Nat) : argSlot i = argSlot 0 + i := by
  show halfword .funcArgs + i = halfword .funcArgs + 0 + i
  rw [Nat.add_zero]

/-- The members from `func` on are adjacent, and the last slot is the last halfword. -/
theorem halfwords :
    halfword .func = 10 ∧ halfword .funcCs = 11 ∧ halfword .argc = 12 ∧ argSlot 0 = 13 ∧
      2 * argSlot maxFuncArgs = args16.extent := by
  decide

/-! ## 2. Segment and offset -/

/-- `struct realmode_address`. -/
structure RealmodeAddress where
  funcAddress : UInt16
  funcCs : UInt16
  deriving DecidableEq, Repr

def RealmodeAddress.invalid : RealmodeAddress := ⟨0xFFFF, 0xFFFF⟩

def getRealmodeFunctionAddress (addr : UInt32) : RealmodeAddress :=
  if addr > 0xFFFFF then .invalid
  else
    let funcAddress := (addr &&& 0xFFFF).toUInt16
    let cs := ((addr - funcAddress.toUInt32) >>> 16).toUInt16
    { funcAddress, funcCs := cs }

/-- **The pair is the address**: a segment counts 16 bytes. Above 1 MiB it is the invalid one, and
only there. -/
structure SplitsAddress (addr : UInt32) (rm : RealmodeAddress) : Prop where
  linear : addr ≤ 0xFFFFF → rm.funcCs.toNat * 16 + rm.funcAddress.toNat = addr.toNat
  valid : addr ≤ 0xFFFFF → rm ≠ .invalid
  invalid : 0xFFFFF < addr → rm = .invalid

section Address

variable {addr : UInt32}

/-- The segment is the part above 64 KiB, and counts as if it were in units of 64 KiB. -/
theorem getRealmodeFunctionAddress_of_le (h : addr ≤ 0xFFFFF) :
    (getRealmodeFunctionAddress addr).funcAddress.toNat = addr.toNat % 2 ^ 16 ∧
      (getRealmodeFunctionAddress addr).funcCs.toNat = addr.toNat / 2 ^ 16 := by
  have hle : addr.toNat ≤ 0xFFFFF := UInt32.le_iff_toNat_le.mp h
  have hnot : ¬ addr > 0xFFFFF := by
    rw [gt_iff_lt, UInt32.lt_iff_toNat_lt]
    exact Nat.not_lt.mpr hle
  have hlow : (addr &&& 0xFFFF).toUInt16.toNat = addr.toNat % 2 ^ 16 := by
    rw [UInt32.toNat_toUInt16, UInt32.toNat_and]
    show (addr.toNat &&& 2 ^ 16 - 1) % 2 ^ 16 = _
    rw [Nat.and_two_pow_sub_one_eq_mod, Nat.mod_mod]
  have hsub : (addr - (addr &&& 0xFFFF).toUInt16.toUInt32).toNat =
      addr.toNat - addr.toNat % 2 ^ 16 := by
    have hback : (addr &&& 0xFFFF).toUInt16.toUInt32.toNat = addr.toNat % 2 ^ 16 := by
      rw [UInt16.toNat_toUInt32, hlow]
    rw [UInt32.toNat_sub_of_le _ _ ?_, hback]
    rw [UInt32.le_iff_toNat_le, hback]
    exact Nat.mod_le _ _
  rw [getRealmodeFunctionAddress, if_neg hnot]
  refine ⟨hlow, ?_⟩
  show (((addr - (addr &&& 0xFFFF).toUInt16.toUInt32) >>> 16).toUInt16).toNat = _
  rw [UInt32.toNat_toUInt16, UInt32.toNat_shiftRight, hsub]
  show (addr.toNat - addr.toNat % 2 ^ 16) >>> 16 % 2 ^ 16 = _
  rw [Nat.shiftRight_eq_div_pow]
  omega

theorem funcAddress_of_low (h : addr ≤ 0xFFFF) :
    (getRealmodeFunctionAddress addr).funcAddress.toNat = addr.toNat := by
  have hle : addr.toNat ≤ 0xFFFF := UInt32.le_iff_toNat_le.mp h
  have hmib : addr ≤ 0xFFFFF := UInt32.le_iff_toNat_le.mpr (le_trans hle (by decide))
  rw [(getRealmodeFunctionAddress_of_le hmib).1]
  exact Nat.mod_eq_of_lt (Nat.lt_succ_of_le hle)

/-- **The address is split right** below 64 KiB, where the segment is 0. -/
theorem getRealmodeFunctionAddress_iff :
    SplitsAddress addr (getRealmodeFunctionAddress addr) ↔ addr ≤ 0xFFFF ∨ 0xFFFFF < addr := by
  rw [UInt32.le_iff_toNat_le, UInt32.lt_iff_toNat_lt]
  show _ ↔ addr.toNat ≤ 0xFFFF ∨ 0xFFFFF < addr.toNat
  by_cases h : addr ≤ 0xFFFFF
  · obtain ⟨hlow, hcs⟩ := getRealmodeFunctionAddress_of_le h
    have hle : addr.toNat ≤ 0xFFFFF := UInt32.le_iff_toNat_le.mp h
    constructor
    · intro hsplit
      have hlinear := hsplit.linear h
      rw [hlow, hcs] at hlinear
      omega
    · intro hor
      refine ⟨fun _ => ?_, fun _ heq => ?_, fun hlt => absurd h (UInt32.not_le.mpr hlt)⟩
      · rw [hlow, hcs]
        omega
      · rw [heq] at hcs
        have hmax : RealmodeAddress.invalid.funcCs.toNat = 0xFFFF := rfl
        omega
  · have hlt : 0xFFFFF < addr := UInt32.not_le.mp h
    have hnat : 0xFFFFF < addr.toNat := UInt32.lt_iff_toNat_lt.mp hlt
    refine iff_of_true ⟨fun hle => absurd hle h, fun hle => absurd hle h, fun _ => ?_⟩ (.inr hnat)
    exact if_pos hlt

end Address

/-! ## 3. The call -/

/-- Memory from `args16_start` on in halfwords, and how often `va_arg` was called. -/
structure CallState where
  mem : Nat → UInt16
  vaArgs : Nat

/-- The words behind `argc` on the stack: those that were passed, then whatever stands there. -/
def stackWords (passed : List UInt32) (junk : Nat → UInt32) (n : Nat) : UInt32 :=
  (passed[n]?).getD (junk (n - passed.length))

/-- `call_real_mode_function_with_argc` up to its loop. -/
def prepareCall (words : Nat → UInt32) (argc : UInt32) (mem : Nat → UInt16) : CallState :=
  let func := words 0
  let rmAddress := getRealmodeFunctionAddress func
  let mem := Function.update mem (halfword .func) rmAddress.funcAddress
  let mem := Function.update mem (halfword .funcCs) rmAddress.funcCs
  { mem := Function.update mem (halfword .argc) (argc - 1).toUInt16, vaArgs := 1 }

/-- A round of its loop. -/
def copyRound (words : Nat → UInt32) (i : Nat) (s : CallState) : CallState ⊕ CallState :=
  .inl
    { mem := Function.update s.mem (argSlot i) (words s.vaArgs).toUInt16
      vaArgs := s.vaArgs + 1 }

/-- `call_real_mode_function_with_argc` enters `pm32_to_pm16` with `r`. -/
def CallWithArgc (words : Nat → UInt32) (argc : UInt32) (mem : Nat → UInt16) (r : CallState) :
    Prop :=
  Returns (countedBody argc.toNat (copyRound words) id) (0, prepareCall words argc mem) r

/-- The words that `PP_NARG` can count. -/
def ppNargMax : Nat := 50

/-- `call_real_mode_function(func, args...)`; `PP_NARG` counts the function too. -/
def CallRealModeFunction (func : UInt32) (args : List UInt32) (junk : Nat → UInt32)
    (mem : Nat → UInt16) (r : CallState) : Prop :=
  CallWithArgc (stackWords (func :: args) junk) (.ofNat (func :: args).length) mem r

section Call

variable {func : UInt32} {args : List UInt32} {junk : Nat → UInt32} {mem : Nat → UInt16}
  {r : CallState}

/-- The state after `k` rounds from round `i` on. -/
def afterCopy (words : Nat → UInt32) (k i : Nat) (s : CallState) : CallState :=
  counted (copyRound words) id k i s

theorem vaArgs_afterCopy (words : Nat → UInt32) (k i : Nat) (s : CallState) :
    (afterCopy words k i s).vaArgs = s.vaArgs + k := by
  induction k generalizing i s with
  | zero => rfl
  | succ k ih =>
      show (afterCopy words k (i + 1) _).vaArgs = _
      rw [ih]
      show s.vaArgs + 1 + k = s.vaArgs + (k + 1)
      omega

/-- **The loop fills the slots** with the words in order, and changes nothing else. -/
theorem mem_afterCopy (words : Nat → UInt32) (k i : Nat) (s : CallState) (j : Nat) :
    (afterCopy words k i s).mem j =
      if argSlot i ≤ j ∧ j < argSlot (i + k) then (words (s.vaArgs + (j - argSlot i))).toUInt16
      else s.mem j := by
  induction k generalizing i s with
  | zero => exact (if_neg (by rw [Nat.add_zero]; omega)).symm
  | succ k ih =>
      have hnext : argSlot (i + 1) = argSlot i + 1 := rfl
      have hend : argSlot (i + 1 + k) = argSlot (i + (k + 1)) := congrArg argSlot (by omega)
      have hlt : argSlot i < argSlot (i + (k + 1)) := Nat.add_lt_add_left (by omega) _
      show (afterCopy words k (i + 1) _).mem j = _
      rw [ih, hend, hnext]
      dsimp only
      by_cases hj : j = argSlot i
      · -- the slot of this round
        subst hj
        rw [if_neg (by omega), if_pos ⟨Nat.le_refl _, hlt⟩, Function.update_self, Nat.sub_self,
          Nat.add_zero]
      · by_cases hin : argSlot i ≤ j ∧ j < argSlot (i + (k + 1))
        · have hword : s.vaArgs + 1 + (j - (argSlot i + 1)) = s.vaArgs + (j - argSlot i) := by
            omega
          rw [if_pos (by omega), if_pos hin, hword]
        · rw [if_neg (by omega), if_neg hin, Function.update_of_ne hj]

/-- The state in which the call enters `pm32_to_pm16`. -/
def callState (func : UInt32) (args : List UInt32) (junk : Nat → UInt32) (mem : Nat → UInt16) :
    CallState :=
  afterCopy (stackWords (func :: args) junk) (args.length + 1) 0
    (prepareCall (stackWords (func :: args) junk) (.ofNat (func :: args).length) mem)

/-- **The call gets there**, in this state only. -/
theorem callRealModeFunction_iff (hargs : args.length < ppNargMax) :
    CallRealModeFunction func args junk mem r ↔ r = callState func args junk mem := by
  have hmax : ppNargMax = 50 := rfl
  have hcount : (UInt32.ofNat (func :: args).length).toNat = args.length + 1 :=
    UInt32.toNat_ofNat_of_lt' (by rw [List.length_cons, UInt32.size]; omega)
  have hreturns : CallRealModeFunction func args junk mem (callState func args junk mem) := by
    unfold CallRealModeFunction CallWithArgc
    rw [hcount]
    exact returns_counted (by omega) (Nat.zero_add _) _
  constructor
  · intro h
    exact h.unique hreturns
  · rintro rfl
    exact hreturns

theorem stackWords_arg {i : Nat} (hi : i < args.length) :
    stackWords (func :: args) junk (1 + i) = args[i] := by
  rw [stackWords, Nat.add_comm, List.getElem?_cons_succ, List.getElem?_eq_getElem hi]
  rfl

/-- Behind the arguments stands what was on the stack. -/
theorem stackWords_junk : stackWords (func :: args) junk (1 + args.length) = junk 0 := by
  rw [stackWords, Nat.add_comm, List.getElem?_cons_succ, List.getElem?_eq_none (Nat.le_refl _),
    List.length_cons, Nat.sub_self]
  rfl

theorem vaArgs_callState : (callState func args junk mem).vaArgs = args.length + 2 := by
  rw [callState, vaArgs_afterCopy]
  show 1 + (args.length + 1) = args.length + 2
  omega

/-- The slots up to one behind the arguments. -/
theorem mem_callState_slot {i : Nat} (hi : i ≤ args.length) :
    (callState func args junk mem).mem (argSlot i) =
      (stackWords (func :: args) junk (1 + i)).toUInt16 := by
  have hslot := argSlot_eq i
  have hlt : argSlot i < argSlot (0 + (args.length + 1)) := Nat.add_lt_add_left (by omega) _
  have hoff : argSlot i - argSlot 0 = i := by rw [hslot, Nat.add_sub_cancel_left]
  rw [callState, mem_afterCopy, if_pos ⟨by omega, hlt⟩, hoff]
  rfl

theorem mem_callState_of_not_slot {j : Nat}
    (hj : ¬ (argSlot 0 ≤ j ∧ j < argSlot (args.length + 1))) :
    (callState func args junk mem).mem j =
      (prepareCall (stackWords (func :: args) junk) (.ofNat (func :: args).length) mem).mem j := by
  rw [callState, mem_afterCopy, Nat.zero_add, if_neg hj]

/-- The pair that is stored. -/
def CallState.rmAddress (s : CallState) : RealmodeAddress :=
  ⟨s.mem (halfword .func), s.mem (halfword .funcCs)⟩

theorem rmAddress_callState :
    (callState func args junk mem).rmAddress = getRealmodeFunctionAddress func := by
  obtain ⟨hfunc, hcs, -, hzero, -⟩ := halfwords
  rw [CallState.rmAddress, mem_callState_of_not_slot (by omega),
    mem_callState_of_not_slot (by omega)]
  rfl

theorem argc_callState (hargs : args.length < ppNargMax) :
    (callState func args junk mem).mem (halfword .argc) = .ofNat args.length := by
  have hmax : ppNargMax = 50 := rfl
  obtain ⟨-, -, hargc, hzero, -⟩ := halfwords
  have hone : UInt32.ofNat (func :: args).length - 1 = .ofNat args.length := by
    rw [List.length_cons, UInt32.ofNat_add]
    exact UInt32.add_sub_cancel _ _
  rw [mem_callState_of_not_slot (by omega)]
  show (UInt32.ofNat (func :: args).length - 1).toUInt16 = _
  rw [hone, ← UInt16.toNat_inj, UInt32.toNat_toUInt16,
    UInt32.toNat_ofNat_of_lt' (by rw [UInt32.size]; omega), UInt16.toNat_ofNat']

/-- What neither the function nor the count nor an argument is stored in. -/
def KeepsOthers (args : List UInt32) (mem : Nat → UInt16) (r : CallState) : Prop :=
  ∀ j, j ≠ halfword .func → j ≠ halfword .funcCs → j ≠ halfword .argc →
    ¬ (argSlot 0 ≤ j ∧ j < argSlot args.length) → r.mem j = mem j

/-- **The call is marshalled**: the count and the arguments stand in their places, nothing else has
changed, and no more words were taken than were passed. -/
structure Marshalled (args : List UInt32) (mem : Nat → UInt16) (r : CallState) : Prop where
  argc : r.mem (halfword .argc) = .ofNat args.length
  slots : ∀ i (hi : i < args.length), r.mem (argSlot i) = args[i].toUInt16
  others : KeepsOthers args mem r
  reads : r.vaArgs ≤ args.length + 1

/-- **The rest is kept** exactly when the word behind the arguments stood in the slot behind them
already; with 11 arguments that slot is behind the structure. -/
theorem keepsOthers_callState_iff :
    KeepsOthers args mem (callState func args junk mem) ↔
      (junk 0).toUInt16 = mem (argSlot args.length) := by
  obtain ⟨hfunc, hcs, hargc, hzero, -⟩ := halfwords
  have hslot := argSlot_eq args.length
  have hnext : argSlot (args.length + 1) = argSlot args.length + 1 := rfl
  have hjunk : (callState func args junk mem).mem (argSlot args.length) = (junk 0).toUInt16 := by
    rw [mem_callState_slot (Nat.le_refl _), stackWords_junk]
  constructor
  · intro hkeeps
    rw [← hjunk]
    exact hkeeps _ (by omega) (by omega) (by omega) (by omega)
  · intro hsame j hne hne' hne'' hout
    by_cases hj : j = argSlot args.length
    · rw [hj, hjunk, hsame]
    · rw [mem_callState_of_not_slot (by omega)]
      show Function.update (Function.update (Function.update mem _ _) _ _) _ _ j = mem j
      rw [Function.update_of_ne hne'', Function.update_of_ne hne', Function.update_of_ne hne]

/-- The count and the arguments are right. -/
theorem args_callState {i : Nat} (hi : i < args.length) :
    (callState func args junk mem).mem (argSlot i) = args[i].toUInt16 := by
  rw [mem_callState_slot (Nat.le_of_lt hi), stackWords_arg hi]

/-- **No call is marshalled**: the loop takes as many words as were counted with the function, which
was taken before. -/
theorem marshalled_never (hargs : args.length < ppNargMax) :
    (∃ r, CallRealModeFunction func args junk mem r) ∧
      ∀ r, CallRealModeFunction func args junk mem r → ¬ Marshalled args mem r := by
  refine ⟨⟨_, (callRealModeFunction_iff hargs).mpr rfl⟩, fun r hr hmarshalled => ?_⟩
  obtain rfl := (callRealModeFunction_iff hargs).mp hr
  have hreads := hmarshalled.reads
  rw [vaArgs_callState] at hreads
  omega

/-- The addition of the tests. -/
theorem marshalled_never_add :
    (∃ r, CallRealModeFunction 0x7C00 [104, 201] (fun _ => 0) (fun _ => 0) r) ∧
      ∀ r, CallRealModeFunction 0x7C00 [104, 201] (fun _ => 0) (fun _ => 0) r →
        ¬ Marshalled [104, 201] (fun _ => 0) r :=
  marshalled_never (by decide)

/-- **The address is stored right** exactly below 64 KiB and above 1 MiB. -/
theorem splitsAddress_iff (hargs : args.length < ppNargMax) :
    (SplitsAddress func (getRealmodeFunctionAddress func) ∧
      ∃ r, CallRealModeFunction func args junk mem r ∧ SplitsAddress func r.rmAddress) ↔
        func ≤ 0xFFFF ∨ 0xFFFFF < func := by
  rw [← getRealmodeFunctionAddress_iff]
  constructor
  · rintro ⟨hsplit, -⟩
    exact hsplit
  · intro hsplit
    refine ⟨hsplit, _, (callRealModeFunction_iff hargs).mpr rfl, ?_⟩
    rw [rmAddress_callState]
    exact hsplit

end Call

/-- A function without arguments: the slot 0 is overwritten. With 11 arguments the store is behind the
array, which C leaves undefined; as an address it is the halfword behind the structure. -/
theorem marshalled_overrun :
    (¬ ∃ r, CallRealModeFunction 0x7C00 [] (fun _ => 0xBEEF) (fun _ => 0) r ∧
      Marshalled [] (fun _ => 0) r) ∧
    ∃ r, CallRealModeFunction 0x7C00 (.replicate 11 7) (fun _ => 0xBEEF) (fun _ => 0) r ∧
      r.mem (args16.extent / 2) = 0xBEEF := by
  constructor
  · rintro ⟨r, hr, hmarshalled⟩
    obtain rfl := (callRealModeFunction_iff (by decide)).mp hr
    have hsame : (0xBEEF : UInt32).toUInt16 = 0 :=
      keepsOthers_callState_iff.mp hmarshalled.others
    exact absurd hsame (by decide)
  · exact ⟨callState 0x7C00 (.replicate 11 7) (fun _ => 0xBEEF) (fun _ => 0),
      (callRealModeFunction_iff (by decide)).mpr rfl, by decide⟩

/-- A function at `0x7C00`, and an address above 1 MiB. -/
theorem splitsAddress_iff_low :
    SplitsAddress 0x7C00 (getRealmodeFunctionAddress 0x7C00) ∧
      ∃ r, CallRealModeFunction 0x7C00 [104, 201] (fun _ => 0) (fun _ => 0) r ∧
        SplitsAddress 0x7C00 r.rmAddress :=
  (splitsAddress_iff (by decide)).mpr (.inl (by decide))

/-- The address `0x12345` becomes `0001:2345`, which is `0x2355`. -/
theorem splitsAddress_second64k :
    getRealmodeFunctionAddress 0x12345 = ⟨0x2345, 0x0001⟩ ∧
      ¬ SplitsAddress 0x12345 (getRealmodeFunctionAddress 0x12345) := by
  have hpair : getRealmodeFunctionAddress 0x12345 = ⟨0x2345, 0x0001⟩ := by decide
  refine ⟨hpair, fun h => ?_⟩
  have hlinear := h.linear (by decide)
  rw [hpair] at hlinear
  exact absurd hlinear (by decide)

end MapleKernel.Real16
