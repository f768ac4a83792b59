/-
  File:      Cpu/ReentrantLock.lean
  Subject:   THE REENTRANT LOCK of `multicore.c` as a step machine over one 32-bit word.

  The word packs a locked flag (bit 31), a recursion count (bits 16-30) and the owner's id
  (bits 0-15). `reentrant_trylock`, `reentrant_lock` and `reentrant_unlock` compute the next word
  from a possibly stale copy `expected` and store it by compare-exchange. Here every load and
  every compare-exchange is one atomic step, any number of cores take steps in any order, the
  weak compare-exchange may fail although the word matches, and a core may call `unlock` at any
  time.

  * `tryDesired`, `fastDesired`, `unlockDesired` -- the next word each loop computes, from the
    source; `lockWord` -- the word of "core `i` holds the lock `n` times", and one lemma for each
    loop and shape of the word;
  * `LockStep` -- the machine;
  * `LockInv`, `lockInv_step` -- the invariant: the word is zero and nobody holds, or it is the
    `lockWord` of the one holder. A compare-exchange succeeds only on the current word, so the
    staleness of `expected` never matters;
  * `reentrantLock_safety` -- mutual exclusion, the word's fields and the harmless unlock, in
    every reachable state.
-/
import MapleKernel.Lib.WordField

namespace MapleKernel.Cpu

open WordField

/-! ## 1. The word -/

def lockFlag : BitVec 32 := 1#32 <<< 31
def recursionShift : Nat := 16
def recursionMask : BitVec 32 := 0x7FFF#32 <<< recursionShift
def ownerMask : BitVec 32 := 0xFFFF#32

/-- `is_locked`, as the code tests it. -/
def isLocked (expected : BitVec 32) : Prop := expected &&& lockFlag ≠ 0

instance (expected : BitVec 32) : Decidable (isLocked expected) :=
  inferInstanceAs (Decidable (_ ≠ _))

def owner (expected : BitVec 32) : BitVec 32 := expected &&& ownerMask

def recursion (expected : BitVec 32) : BitVec 32 := (expected &&& recursionMask) >>> recursionShift

/-- The test of the fast path: locked, by this core. -/
def mineFast (cpuId expected : BitVec 32) : Prop :=
  expected &&& (lockFlag ||| ownerMask) = lockFlag ||| cpuId

instance (cpuId expected : BitVec 32) : Decidable (mineFast cpuId expected) :=
  inferInstanceAs (Decidable (_ = _))

/-- The loop body of `reentrant_trylock`: the desired word, `none` for `return false`. -/
def tryDesired (cpuId expected : BitVec 32) : Option (BitVec 32) :=
  if isLocked expected ∧ owner expected = cpuId then
    if recursion expected = 0x7FFF then none
    else some (expected + (1#32 <<< recursionShift))
  else if ¬ isLocked expected then some (lockFlag ||| cpuId ||| (1#32 <<< recursionShift))
  else none

/-- The loop body of the fast path of `reentrant_lock`: `none` for `break`. -/
def fastDesired (expected : BitVec 32) : Option (BitVec 32) :=
  if recursion expected = 0x7FFF then none else some (expected + (1#32 <<< recursionShift))

/-- The loop body of `reentrant_unlock`: `none` for the early `return`. -/
def unlockDesired (cpuId expected : BitVec 32) : Option (BitVec 32) :=
  if ¬ isLocked expected ∨ owner expected ≠ cpuId then none
  else if recursion expected > 1 then some (expected - (1#32 <<< recursionShift))
  else some 0

/-- The word when the core with id `i` holds the lock `n` times. -/
def lockWord (i n : Nat) : BitVec 32 := BitVec.ofNat 32 (2 ^ 31 + n * 2 ^ 16 + i)

section Word

variable {i j n : Nat}

theorem toNat_lockWord (hi : i < 2 ^ 16) (hn : n < 2 ^ 15) :
    (lockWord i n).toNat = 2 ^ 31 + n * 2 ^ 16 + i := by
  rw [lockWord, BitVec.toNat_ofNat]
  exact Nat.mod_eq_of_lt (by omega)

theorem isLocked_lockWord (hi : i < 2 ^ 16) (hn : n < 2 ^ 15) : isLocked (lockWord i n) := by
  have h := and_bit_eq_zero_iff (lockWord i n) 31 (by decide)
  rw [toNat_lockWord hi hn] at h
  intro h0
  have := h.mp h0
  omega

theorem not_isLocked_zero : ¬ isLocked 0 := by decide

theorem owner_lockWord (hi : i < 2 ^ 16) (hn : n < 2 ^ 15) :
    owner (lockWord i n) = BitVec.ofNat 32 i := by
  apply BitVec.eq_of_toNat_eq
  have h := toNat_and_low (lockWord i n) 16 (by decide)
  rw [toNat_lockWord hi hn] at h
  have hi32 : i < 2 ^ 32 := by omega
  rw [BitVec.toNat_ofNat, Nat.mod_eq_of_lt hi32]
  exact h.trans (by omega)

theorem recursion_lockWord (hi : i < 2 ^ 16) (hn : n < 2 ^ 15) :
    recursion (lockWord i n) = BitVec.ofNat 32 n := by
  apply BitVec.eq_of_toNat_eq
  have h := toNat_and_shift (lockWord i n) 16 15 (by decide)
  rw [toNat_lockWord hi hn] at h
  have hn32 : n < 2 ^ 32 := by omega
  rw [BitVec.toNat_ofNat, Nat.mod_eq_of_lt hn32]
  exact h.trans (by omega)

theorem lockWord_ne_zero (hi : i < 2 ^ 16) (hn : n < 2 ^ 15) : lockWord i n ≠ 0 := by
  intro h
  exact not_isLocked_zero (h ▸ isLocked_lockWord hi hn)

theorem ofNat_inj (hi : i < 2 ^ 16) (hj : j < 2 ^ 16) :
    BitVec.ofNat 32 i = BitVec.ofNat 32 j ↔ i = j := by
  rw [← BitVec.toNat_inj, BitVec.toNat_ofNat, BitVec.toNat_ofNat,
    Nat.mod_eq_of_lt (by omega), Nat.mod_eq_of_lt (by omega)]

theorem recursion_full (hn : n < 2 ^ 15) : BitVec.ofNat 32 n = 0x7FFF ↔ n = 0x7FFF :=
  ofNat_inj (j := 0x7FFF) (by omega) (by decide)

/-- One recursion more is the next lock word: below `0x7FFF` no carry reaches bit 31. -/
theorem lockWord_succ : lockWord i n + (1#32 <<< recursionShift) = lockWord i (n + 1) := by
  have h : (1#32 <<< recursionShift : BitVec 32) = BitVec.ofNat 32 (2 ^ 16) := by decide
  rw [h, lockWord, lockWord, ← BitVec.ofNat_add]
  congr 1
  omega

theorem lockWord_pred (hn : 1 ≤ n) :
    lockWord i n - (1#32 <<< recursionShift) = lockWord i (n - 1) := by
  obtain ⟨m, rfl⟩ : ∃ m, n = m + 1 := ⟨n - 1, by omega⟩
  rw [← lockWord_succ, Nat.add_sub_cancel, BitVec.add_sub_cancel]

theorem lockWord_fresh (hi : i < 2 ^ 16) :
    lockFlag ||| BitVec.ofNat 32 i ||| (1#32 <<< recursionShift) = lockWord i 1 := by
  have hlow : lockFlag &&& BitVec.ofNat 32 i = 0#32 := by
    have h := and_bit_eq_zero_iff (BitVec.ofNat 32 i) 31 (by decide)
    rw [BitVec.toNat_ofNat] at h
    rw [BitVec.and_comm]
    exact h.mpr (by omega)
  have hmid : (lockFlag + BitVec.ofNat 32 i) &&& (1#32 <<< recursionShift) = 0#32 := by
    have h := and_bit_eq_zero_iff (lockFlag + BitVec.ofNat 32 i) 16 (by decide)
    have e : (lockFlag + BitVec.ofNat 32 i).toNat = 2 ^ 31 + i := by
      rw [BitVec.toNat_add, BitVec.toNat_ofNat, show lockFlag.toNat = 2 ^ 31 from rfl]
      omega
    rw [e] at h
    exact h.mpr (by omega)
  have e1 : lockFlag ||| BitVec.ofNat 32 i = lockFlag + BitVec.ofNat 32 i :=
    (BitVec.add_eq_or_of_and_eq_zero _ _ hlow).symm
  rw [e1, ← BitVec.add_eq_or_of_and_eq_zero _ _ hmid]
  have h1 : lockFlag = BitVec.ofNat 32 (2 ^ 31) := by decide
  have h2 : (1#32 <<< recursionShift : BitVec 32) = BitVec.ofNat 32 (2 ^ 16) := by decide
  rw [h1, h2, ← BitVec.ofNat_add, ← BitVec.ofNat_add, lockWord]
  congr 1
  omega

/-! ### The three loop bodies on the words that occur -/

theorem tryDesired_zero (hi : i < 2 ^ 16) :
    tryDesired (BitVec.ofNat 32 i) 0 = some (lockWord i 1) := by
  rw [tryDesired, if_neg fun h => not_isLocked_zero h.1, if_pos not_isLocked_zero,
    lockWord_fresh hi]

theorem tryDesired_own (hi : i < 2 ^ 16) (hn : n < 2 ^ 15) :
    tryDesired (BitVec.ofNat 32 i) (lockWord i n)
      = if n = 0x7FFF then none else some (lockWord i (n + 1)) := by
  rw [tryDesired, if_pos ⟨isLocked_lockWord hi hn, owner_lockWord hi hn⟩,
    recursion_lockWord hi hn, lockWord_succ]
  simp only [recursion_full hn]

theorem tryDesired_other (hi : i < 2 ^ 16) (hj : j < 2 ^ 16) (hn : n < 2 ^ 15) (hij : j ≠ i) :
    tryDesired (BitVec.ofNat 32 i) (lockWord j n) = none := by
  have hl := isLocked_lockWord hj hn
  rw [tryDesired, if_neg, if_neg (not_not.mpr hl)]
  rw [owner_lockWord hj hn, ofNat_inj hj hi]
  exact fun h => hij h.2

theorem fastDesired_lockWord (hi : i < 2 ^ 16) (hn : n < 2 ^ 15) :
    fastDesired (lockWord i n) = if n = 0x7FFF then none else some (lockWord i (n + 1)) := by
  rw [fastDesired, recursion_lockWord hi hn, lockWord_succ]
  simp only [recursion_full hn]

/-- The fast path's test holds on a lock word only for its owner. -/
theorem mineFast_lockWord (hi : i < 2 ^ 16) (hj : j < 2 ^ 16) (hn : n < 2 ^ 15)
    (h : mineFast (BitVec.ofNat 32 i) (lockWord j n)) : j = i := by
  have h' := congrArg owner h
  have hmask : (lockFlag ||| ownerMask) &&& ownerMask = ownerMask := by decide
  have hflag : lockFlag &&& ownerMask = 0#32 := by decide
  have hid : BitVec.ofNat 32 i &&& ownerMask = BitVec.ofNat 32 i := by
    apply BitVec.eq_of_toNat_eq
    have := toNat_and_low (BitVec.ofNat 32 i) 16 (by decide)
    refine this.trans ?_
    rw [BitVec.toNat_ofNat]
    omega
  have hl : (lockWord j n &&& (lockFlag ||| ownerMask)) &&& ownerMask = BitVec.ofNat 32 j := by
    rw [BitVec.and_assoc, hmask]
    exact owner_lockWord hj hn
  have hr : (lockFlag ||| BitVec.ofNat 32 i) &&& ownerMask = BitVec.ofNat 32 i := by
    rw [BitVec.and_comm, BitVec.and_or_distrib_left, BitVec.and_comm, hflag,
      BitVec.zero_or, BitVec.and_comm, hid]
  unfold owner at h'
  rw [hl, hr] at h'
  exact (ofNat_inj hj hi).mp h'

theorem not_mineFast_zero : ¬ mineFast (BitVec.ofNat 32 i) 0 := by
  intro h
  have h0 : lockFlag ||| BitVec.ofNat 32 i = 0#32 := by simpa [mineFast] using h.symm
  have hf : lockFlag = 0#32 := (BitVec.or_eq_zero_iff.mp h0).1
  exact absurd hf (by decide)

theorem unlockDesired_zero (c : BitVec 32) : unlockDesired c 0 = none := by
  rw [unlockDesired, if_pos (.inl not_isLocked_zero)]

theorem unlockDesired_other (hi : i < 2 ^ 16) (hj : j < 2 ^ 16) (hn : n < 2 ^ 15) (hij : j ≠ i) :
    unlockDesired (BitVec.ofNat 32 i) (lockWord j n) = none := by
  rw [unlockDesired, if_pos]
  right
  rw [owner_lockWord hj hn, ne_eq, ofNat_inj hj hi]
  exact hij

theorem unlockDesired_own (hi : i < 2 ^ 16) (hn : n < 2 ^ 15) (h1 : 1 ≤ n) :
    unlockDesired (BitVec.ofNat 32 i) (lockWord i n)
      = some (if 1 < n then lockWord i (n - 1) else 0) := by
  have hgt : BitVec.ofNat 32 n > 1 ↔ 1 < n := by
    have e1 : (1 : BitVec 32).toNat = 1 := rfl
    rw [gt_iff_lt, BitVec.lt_def, BitVec.toNat_ofNat, Nat.mod_eq_of_lt (by omega), e1]
  rw [unlockDesired, if_neg, recursion_lockWord hi hn, lockWord_pred h1]
  · by_cases h : 1 < n
    · rw [if_pos (hgt.mpr h), if_pos h]
    · rw [if_neg (fun hc => h (hgt.mp hc)), if_neg h]
  · intro hc
    rcases hc with h | h
    · exact h (isLocked_lockWord hi hn)
    · exact h (owner_lockWord hi hn)

end Word

/-! ## 2. The machine -/

/-- Where a core is. `tryLoad`/`tryCas` carry whether `reentrant_lock` called
    `reentrant_trylock`; a compare-exchange is about to run on its `expected` and `desired`. -/
inductive LockPc where
  | idle
  | tryLoad (fromLock : Bool)
  | tryCas (fromLock : Bool) (expected desired : BitVec 32)
  | lockLoad
  | lockCas (expected desired : BitVec 32)
  | lockSpin
  | unlockLoad
  | unlockCas (expected desired : BitVec 32)
  deriving DecidableEq, Repr

/-- The lock word, the cores, and how often each core's acquisitions and releases took effect. -/
structure LockSys (Core : Type) where
  state : BitVec 32
  pc : Core → LockPc
  acquired : Core → Nat
  released : Core → Nat

/-- `.state = 0`, every core outside the lock functions. -/
def LockSys.boot (Core : Type) : LockSys Core := ⟨0, fun _ => .idle, fun _ => 0, fun _ => 0⟩

/-- `reentrant_trylock` with a value of `expected` in hand: up to the compare-exchange, or to the
    failing return. -/
def tryResume (cpuId : BitVec 32) (fromLock : Bool) (expected : BitVec 32) : LockPc :=
  match tryDesired cpuId expected with
  | some desired => .tryCas fromLock expected desired
  | none => if fromLock then .lockSpin else .idle

/-- The fast path of `reentrant_lock` with a value of `expected` in hand. -/
def fastResume (cpuId expected : BitVec 32) : LockPc :=
  if mineFast cpuId expected then
    match fastDesired expected with
    | some desired => .lockCas expected desired
    | none => .tryLoad true
  else .tryLoad true

/-- `reentrant_unlock` with a value of `expected` in hand. -/
def unlockResume (cpuId expected : BitVec 32) : LockPc :=
  match unlockDesired cpuId expected with
  | some desired => .unlockCas expected desired
  | none => .idle

section Machine

variable {Core : Type} [DecidableEq Core]

def LockSys.goto (S : LockSys Core) (c : Core) (p : LockPc) : LockSys Core :=
  { S with pc := Function.update S.pc c p }

/-- A successful compare-exchange of `trylock` or of the fast path. -/
def LockSys.acquire (S : LockSys Core) (c : Core) (desired : BitVec 32) : LockSys Core :=
  { S with state := desired
           pc := Function.update S.pc c .idle
           acquired := Function.update S.acquired c (S.acquired c + 1) }

/-- A successful compare-exchange of `unlock`. -/
def LockSys.release (S : LockSys Core) (c : Core) (desired : BitVec 32) : LockSys Core :=
  { S with state := desired
           pc := Function.update S.pc c .idle
           released := Function.update S.released c (S.released c + 1) }

variable (apicGetCoreId : Core → BitVec 32)

def cpuId (c : Core) : BitVec 32 := apicGetCoreId c &&& ownerMask

/-- **One atomic step of core `c`.** A failing weak compare-exchange needs no reason; the strong
    one of `unlock` fails only on a different word. Either way `expected` becomes the word. -/
inductive LockStep (S : LockSys Core) (c : Core) : LockSys Core → Prop where
  | callTrylock (h : S.pc c = .idle) : LockStep S c (S.goto c (.tryLoad false))
  | callLock (h : S.pc c = .idle) : LockStep S c (S.goto c .lockLoad)
  | callUnlock (h : S.pc c = .idle) : LockStep S c (S.goto c .unlockLoad)
  | tryLoad (fromLock : Bool) (h : S.pc c = .tryLoad fromLock) :
      LockStep S c (S.goto c (tryResume (cpuId apicGetCoreId c) fromLock S.state))
  | tryCasOk (fromLock : Bool) (expected desired : BitVec 32)
      (h : S.pc c = .tryCas fromLock expected desired) (he : S.state = expected) :
      LockStep S c (S.acquire c desired)
  | tryCasFail (fromLock : Bool) (expected desired : BitVec 32)
      (h : S.pc c = .tryCas fromLock expected desired) :
      LockStep S c (S.goto c (tryResume (cpuId apicGetCoreId c) fromLock S.state))
  | lockLoad (h : S.pc c = .lockLoad) :
      LockStep S c (S.goto c (fastResume (cpuId apicGetCoreId c) S.state))
  | lockCasOk (expected desired : BitVec 32) (h : S.pc c = .lockCas expected desired)
      (he : S.state = expected) : LockStep S c (S.acquire c desired)
  | lockCasFail (expected desired : BitVec 32) (h : S.pc c = .lockCas expected desired) :
      LockStep S c (S.goto c (fastResume (cpuId apicGetCoreId c) S.state))
  | lockSpin (h : S.pc c = .lockSpin) :
      LockStep S c (S.goto c (if isLocked S.state then .lockSpin else .tryLoad true))
  | unlockLoad (h : S.pc c = .unlockLoad) :
      LockStep S c (S.goto c (unlockResume (cpuId apicGetCoreId c) S.state))
  | unlockCasOk (expected desired : BitVec 32) (h : S.pc c = .unlockCas expected desired)
      (he : S.state = expected) : LockStep S c (S.release c desired)
  | unlockCasFail (expected desired : BitVec 32) (h : S.pc c = .unlockCas expected desired)
      (he : S.state ≠ expected) :
      LockStep S c (S.goto c (unlockResume (cpuId apicGetCoreId c) S.state))

/-- The states any interleaving reaches. -/
def LockReachable (S : LockSys Core) : Prop :=
  Relation.ReflTransGen (fun S S' => ∃ c, LockStep apicGetCoreId S c S') (.boot Core) S

/-- The core holds the lock: more acquisitions than releases. -/
def LockSys.Holds (S : LockSys Core) (c : Core) : Prop := S.released c < S.acquired c

instance (S : LockSys Core) (c : Core) : Decidable (S.Holds c) :=
  inferInstanceAs (Decidable (_ < _))

/-- The core is inside `reentrant_unlock`. -/
def LockPc.inUnlock : LockPc → Prop
  | .unlockLoad | .unlockCas _ _ => True
  | _ => False

/-! ## 3. The invariant -/

/-- What the word says about the holders. -/
def WordOk (S : LockSys Core) : Prop :=
  (S.state = 0 ∧ ∀ c, S.acquired c = S.released c) ∨
  ∃ c n, 1 ≤ n ∧ n ≤ 0x7FFF ∧ S.state = lockWord (apicGetCoreId c).toNat n ∧
    S.acquired c = S.released c + n ∧ ∀ c', c' ≠ c → S.acquired c' = S.released c'

/-- What a core about to run a compare-exchange knows: its `desired` was computed from its
    `expected`, and in `unlock` it holds the lock. -/
def PcOk (S : LockSys Core) (c : Core) : Prop :=
  match S.pc c with
  | .tryCas _ expected desired => tryDesired (cpuId apicGetCoreId c) expected = some desired
  | .lockCas expected desired =>
      mineFast (cpuId apicGetCoreId c) expected ∧ fastDesired expected = some desired
  | .unlockCas expected desired =>
      unlockDesired (cpuId apicGetCoreId c) expected = some desired ∧ S.Holds c
  | _ => True

structure LockInv (S : LockSys Core) : Prop where
  word : WordOk apicGetCoreId S
  pcs : ∀ c, PcOk apicGetCoreId S c

omit [DecidableEq Core] in
theorem lockInv_boot : LockInv apicGetCoreId (LockSys.boot Core) where
  word := .inl ⟨rfl, fun _ => rfl⟩
  pcs _ := trivial

variable {apicGetCoreId}

omit [DecidableEq Core] in
/-- The positions of the other cores survive a word change that leaves their counts alone. -/
theorem pcOk_of_same {S S' : LockSys Core} {c : Core} (hpc : S'.pc c = S.pc c)
    (ha : S'.acquired c = S.acquired c) (hr : S'.released c = S.released c)
    (h : PcOk apicGetCoreId S c) : PcOk apicGetCoreId S' c := by
  unfold PcOk LockSys.Holds at h ⊢
  rw [hpc, ha, hr]
  exact h

/-- A local step leaves word and counts alone; only the actor's position is to be justified. -/
theorem lockInv_goto {S : LockSys Core} (hI : LockInv apicGetCoreId S) {c : Core} {p : LockPc}
    (hp : PcOk apicGetCoreId (S.goto c p) c) : LockInv apicGetCoreId (S.goto c p) where
  word := hI.word
  pcs c' := by
    by_cases hc : c' = c
    · exact hc ▸ hp
    · exact pcOk_of_same (Function.update_of_ne hc _ _) rfl rfl (hI.pcs c')

theorem tryResume_ok {S : LockSys Core} {c : Core} {fl : Bool} {e : BitVec 32} :
    PcOk apicGetCoreId (S.goto c (tryResume (cpuId apicGetCoreId c) fl e)) c := by
  unfold PcOk
  simp only [LockSys.goto, Function.update_self]
  unfold tryResume
  cases h : tryDesired (cpuId apicGetCoreId c) e with
  | some d => exact h
  | none => cases fl <;> trivial

theorem fastResume_ok {S : LockSys Core} {c : Core} {e : BitVec 32} :
    PcOk apicGetCoreId (S.goto c (fastResume (cpuId apicGetCoreId c) e)) c := by
  unfold PcOk
  simp only [LockSys.goto, Function.update_self]
  unfold fastResume
  by_cases hm : mineFast (cpuId apicGetCoreId c) e
  · rw [if_pos hm]
    cases h : fastDesired e with
    | some d => exact ⟨hm, h⟩
    | none => trivial
  · rw [if_neg hm]
    trivial

/-! ## 4. Every step keeps the invariant -/

section Ids

variable (hid : ∀ c, (apicGetCoreId c).toNat < 2 ^ 16)

include hid

omit [DecidableEq Core] in
theorem cpuId_eq (c : Core) :
    cpuId apicGetCoreId c = BitVec.ofNat 32 (apicGetCoreId c).toNat := by
  apply BitVec.eq_of_toNat_eq
  have h := toNat_and_low (apicGetCoreId c) 16 (by decide)
  rw [cpuId, BitVec.ofNat_toNat, BitVec.setWidth_eq]
  exact h.trans (Nat.mod_eq_of_lt (hid c))

variable (hinj : Function.Injective apicGetCoreId)

include hinj

omit [DecidableEq Core] hid in
/-- The word of a holder names it. -/
theorem id_toNat_inj {c c' : Core} (h : (apicGetCoreId c).toNat = (apicGetCoreId c').toNat) :
    c = c' := hinj (BitVec.eq_of_toNat_eq h)

omit [DecidableEq Core] in
/-- **What an acquiring compare-exchange can store.** If the word matches and `trylock` computed
    `desired` from it, the lock was free, or this core held it below the limit. -/
theorem tryDesired_cases {S : LockSys Core} (hW : WordOk apicGetCoreId S) {c : Core}
    {desired : BitVec 32} (h : tryDesired (cpuId apicGetCoreId c) S.state = some desired) :
    (S.state = 0 ∧ (∀ c, S.acquired c = S.released c) ∧
      desired = lockWord (apicGetCoreId c).toNat 1) ∨
    ∃ n, 1 ≤ n ∧ n + 1 ≤ 0x7FFF ∧ S.acquired c = S.released c + n ∧
      (∀ c', c' ≠ c → S.acquired c' = S.released c') ∧
      desired = lockWord (apicGetCoreId c).toNat (n + 1) := by
  rw [cpuId_eq hid] at h
  rcases hW with ⟨h0, hall⟩ | ⟨o, n, h1, hn, hw, hacq, hoth⟩
  · rw [h0, tryDesired_zero (hid c)] at h
    exact .inl ⟨h0, hall, (Option.some.inj h).symm⟩
  · right
    rw [hw] at h
    by_cases hoc : o = c
    · subst hoc
      rw [tryDesired_own (hid o) (by omega)] at h
      by_cases hfull : n = 0x7FFF
      · rw [if_pos hfull] at h; cases h
      · rw [if_neg hfull] at h
        exact ⟨n, h1, by omega, hacq, hoth, (Option.some.inj h).symm⟩
    · rw [tryDesired_other (hid c) (hid o) (by omega)
        (fun e => hoc (id_toNat_inj hinj e))] at h
      cases h

omit [DecidableEq Core] in
/-- The same for the fast path: this core held the lock below the limit. -/
theorem fastDesired_cases {S : LockSys Core} (hW : WordOk apicGetCoreId S) {c : Core}
    {desired : BitVec 32} (hm : mineFast (cpuId apicGetCoreId c) S.state)
    (h : fastDesired S.state = some desired) :
    ∃ n, 1 ≤ n ∧ n + 1 ≤ 0x7FFF ∧ S.acquired c = S.released c + n ∧
      (∀ c', c' ≠ c → S.acquired c' = S.released c') ∧
      desired = lockWord (apicGetCoreId c).toNat (n + 1) := by
  rw [cpuId_eq hid] at hm
  rcases hW with ⟨h0, _⟩ | ⟨o, n, h1, hn, hw, hacq, hoth⟩
  · rw [h0] at hm
    exact absurd hm not_mineFast_zero
  · rw [hw] at hm h
    have hoc : o = c := id_toNat_inj hinj (mineFast_lockWord (hid c) (hid o) (by omega) hm)
    subst hoc
    rw [fastDesired_lockWord (hid o) (by omega)] at h
    by_cases hfull : n = 0x7FFF
    · rw [if_pos hfull] at h; cases h
    · rw [if_neg hfull] at h
      exact ⟨n, h1, by omega, hacq, hoth, (Option.some.inj h).symm⟩

omit [DecidableEq Core] in
/-- **What a releasing compare-exchange can store**: this core held the lock. -/
theorem unlockDesired_cases {S : LockSys Core} (hW : WordOk apicGetCoreId S) {c : Core}
    {desired : BitVec 32} (h : unlockDesired (cpuId apicGetCoreId c) S.state = some desired) :
    ∃ n, 1 ≤ n ∧ n ≤ 0x7FFF ∧ S.acquired c = S.released c + n ∧
      (∀ c', c' ≠ c → S.acquired c' = S.released c') ∧
      desired = if 1 < n then lockWord (apicGetCoreId c).toNat (n - 1) else 0 := by
  rw [cpuId_eq hid] at h
  rcases hW with ⟨h0, _⟩ | ⟨o, n, h1, hn, hw, hacq, hoth⟩
  · rw [h0, unlockDesired_zero] at h; cases h
  · rw [hw] at h
    by_cases hoc : o = c
    · subst hoc
      rw [unlockDesired_own (hid o) (by omega) h1] at h
      exact ⟨n, h1, hn, hacq, hoth, (Option.some.inj h).symm⟩
    · rw [unlockDesired_other (hid c) (hid o) (by omega)
        (fun e => hoc (id_toNat_inj hinj e))] at h
      cases h

omit hid hinj in
/-- A core that moves to `n + 1` acquisitions over its releases becomes, or stays, the holder. -/
theorem lockInv_acquire {S : LockSys Core} (hI : LockInv apicGetCoreId S) {c : Core} {n : Nat}
    (hn : n + 1 ≤ 0x7FFF) (hacq : S.acquired c = S.released c + n)
    (hoth : ∀ c', c' ≠ c → S.acquired c' = S.released c') :
    LockInv apicGetCoreId (S.acquire c (lockWord (apicGetCoreId c).toNat (n + 1))) where
  word := by
    refine .inr ⟨c, n + 1, by omega, hn, rfl, ?_, fun c' hc' => ?_⟩
    · simp only [LockSys.acquire, Function.update_self]; omega
    · simp only [LockSys.acquire, Function.update_of_ne hc']
      exact hoth c' hc'
  pcs c' := by
    by_cases hc : c' = c
    · subst hc; unfold PcOk; simp [LockSys.acquire]
    · exact pcOk_of_same (Function.update_of_ne hc _ _) (Function.update_of_ne hc _ _) rfl
        (hI.pcs c')

omit hid hinj in
theorem lockInv_release {S : LockSys Core} (hI : LockInv apicGetCoreId S) {c : Core} {n : Nat}
    (h1 : 1 ≤ n) (hn : n ≤ 0x7FFF) (hacq : S.acquired c = S.released c + n)
    (hoth : ∀ c', c' ≠ c → S.acquired c' = S.released c') :
    LockInv apicGetCoreId
      (S.release c (if 1 < n then lockWord (apicGetCoreId c).toNat (n - 1) else 0)) where
  word := by
    by_cases h : 1 < n
    · refine .inr ⟨c, n - 1, by omega, by omega, if_pos h, ?_, fun c' hc' => ?_⟩
      · simp only [LockSys.release, Function.update_self]; omega
      · simp only [LockSys.release, Function.update_of_ne hc']
        exact hoth c' hc'
    · refine .inl ⟨if_neg h, fun c' => ?_⟩
      by_cases hc : c' = c
      · subst hc; simp only [LockSys.release, Function.update_self]; omega
      · simp only [LockSys.release, Function.update_of_ne hc]
        exact hoth c' hc
  pcs c' := by
    by_cases hc : c' = c
    · subst hc; unfold PcOk; simp [LockSys.release]
    · exact pcOk_of_same (Function.update_of_ne hc _ _) rfl (Function.update_of_ne hc _ _)
        (hI.pcs c')

theorem unlockResume_ok {S : LockSys Core} (hW : WordOk apicGetCoreId S) {c : Core} :
    PcOk apicGetCoreId (S.goto c (unlockResume (cpuId apicGetCoreId c) S.state)) c := by
  unfold PcOk
  simp only [LockSys.goto, Function.update_self]
  unfold unlockResume
  cases h : unlockDesired (cpuId apicGetCoreId c) S.state with
  | none => trivial
  | some d =>
      obtain ⟨n, h1, _, hacq, _⟩ := unlockDesired_cases hid hinj hW h
      refine ⟨h, ?_⟩
      show S.released c < S.acquired c
      omega

/-- **Every step of every core keeps the invariant.** -/
theorem lockInv_step {S S' : LockSys Core} {c : Core} (hI : LockInv apicGetCoreId S)
    (hs : LockStep apicGetCoreId S c S') : LockInv apicGetCoreId S' := by
  have hpc := hI.pcs c
  unfold PcOk at hpc
  cases hs with
  | callTrylock _ => exact lockInv_goto hI (by simp [PcOk, LockSys.goto])
  | callLock _ => exact lockInv_goto hI (by simp [PcOk, LockSys.goto])
  | callUnlock _ => exact lockInv_goto hI (by simp [PcOk, LockSys.goto])
  | tryLoad fl _ => exact lockInv_goto hI tryResume_ok
  | tryCasFail fl e d _ => exact lockInv_goto hI tryResume_ok
  | lockLoad _ => exact lockInv_goto hI fastResume_ok
  | lockCasFail e d _ => exact lockInv_goto hI fastResume_ok
  | lockSpin _ =>
      refine lockInv_goto hI ?_
      by_cases h : isLocked S.state <;> simp [PcOk, LockSys.goto, h]
  | unlockLoad _ => exact lockInv_goto hI (unlockResume_ok hid hinj hI.word)
  | unlockCasFail e d _ _ => exact lockInv_goto hI (unlockResume_ok hid hinj hI.word)
  | tryCasOk fl e d h he =>
      rw [h] at hpc
      subst he
      rcases tryDesired_cases hid hinj hI.word hpc with
        ⟨_, hall, rfl⟩ | ⟨n, _, hn, hacq, hoth, rfl⟩
      · exact lockInv_acquire (n := 0) hI (by decide) (hall c) fun c' _ => hall c'
      · exact lockInv_acquire hI hn hacq hoth
  | lockCasOk e d h he =>
      rw [h] at hpc
      subst he
      obtain ⟨n, _, hn, hacq, hoth, rfl⟩ := fastDesired_cases hid hinj hI.word hpc.1 hpc.2
      exact lockInv_acquire hI hn hacq hoth
  | unlockCasOk e d h he =>
      rw [h] at hpc
      subst he
      obtain ⟨n, h1, hn, hacq, hoth, rfl⟩ := unlockDesired_cases hid hinj hI.word hpc.1
      exact lockInv_release hI h1 hn hacq hoth

theorem lockInv_reachable {S : LockSys Core} (h : LockReachable apicGetCoreId S) :
    LockInv apicGetCoreId S := by
  induction h with
  | refl => exact lockInv_boot apicGetCoreId
  | tail _ hs ih =>
      obtain ⟨c, hs⟩ := hs
      exact lockInv_step hid hinj ih hs

/-- A core inside `unlock` without the lock returns with its next step and stores nothing. -/
theorem unlock_harmless {S S' : LockSys Core} {c : Core} (hI : LockInv apicGetCoreId S)
    (hu : (S.pc c).inUnlock) (hh : ¬ S.Holds c) (hs : LockStep apicGetCoreId S c S') :
    S'.state = S.state ∧ S'.pc c = .idle := by
  have hpc := hI.pcs c
  unfold PcOk at hpc
  cases hp : S.pc c with
  | unlockCas e d => rw [hp] at hpc; exact absurd hpc.2 hh
  | unlockLoad =>
      cases hs <;> simp_all only [reduceCtorEq]
      refine ⟨rfl, ?_⟩
      simp only [LockSys.goto, Function.update_self]
      unfold unlockResume
      cases hd : unlockDesired (cpuId apicGetCoreId c) S.state with
      | none => rfl
      | some d =>
          obtain ⟨n, h1, _, hacq, _⟩ := unlockDesired_cases hid hinj hI.word hd
          exact absurd (show S.released c < S.acquired c by omega) hh
  | idle => rw [hp] at hu; exact hu.elim
  | tryLoad _ => rw [hp] at hu; exact hu.elim
  | tryCas _ _ _ => rw [hp] at hu; exact hu.elim
  | lockLoad => rw [hp] at hu; exact hu.elim
  | lockCas _ _ => rw [hp] at hu; exact hu.elim
  | lockSpin => rw [hp] at hu; exact hu.elim

end Ids

omit [DecidableEq Core] in
/-- Where everybody else's acquisitions are balanced, only `o` can hold. -/
theorem holds_eq {S : LockSys Core} {c o : Core}
    (hoth : ∀ c', c' ≠ o → S.acquired c' = S.released c') (hc : S.Holds c) : c = o := by
  by_contra hco
  unfold LockSys.Holds at hc
  rw [hoth c hco] at hc
  exact Nat.lt_irrefl _ hc

/-- **Safety of the reentrant lock, in every reachable state**, for any set of cores with
    distinct ids below 65536: at most one core holds the lock; the word is zero exactly when none
    does; otherwise bit 31 is set, bits 0-15 are the holder's id and bits 16-30 its acquisitions
    minus releases, between 1 and `0x7FFF`; and a step of `unlock` by a core that does not hold
    the lock leaves the word alone and ends the call. -/
theorem reentrantLock_safety (hid : ∀ c, (apicGetCoreId c).toNat < 2 ^ 16)
    (hinj : Function.Injective apicGetCoreId) {S : LockSys Core}
    (h : LockReachable apicGetCoreId S) :
    (∀ c c', S.Holds c → S.Holds c' → c = c') ∧
    (∀ c, S.released c ≤ S.acquired c) ∧
    (S.state = 0 ↔ ∀ c, ¬ S.Holds c) ∧
    (∀ c, S.Holds c →
      S.state.extractLsb' 31 1 = 1#1 ∧
      (S.state.extractLsb' 0 16).toNat = (apicGetCoreId c).toNat ∧
      (S.state.extractLsb' 16 15).toNat = S.acquired c - S.released c ∧
      1 ≤ S.acquired c - S.released c ∧ S.acquired c - S.released c ≤ 0x7FFF) ∧
    (∀ c S', (S.pc c).inUnlock → ¬ S.Holds c → LockStep apicGetCoreId S c S' →
      S'.state = S.state ∧ S'.pc c = .idle) := by
  have hI := lockInv_reachable hid hinj h
  refine ⟨?_, ?_, ?_, ?_, fun c S' hu hh hs => unlock_harmless hid hinj hI hu hh hs⟩
  all_goals rcases hI.word with ⟨h0, hall⟩ | ⟨o, n, h1, hn, hw, hacq, hoth⟩
  · intro c _ hc _
    exact absurd hc (by simp [LockSys.Holds, hall c])
  · exact fun c c' hc hc' => (holds_eq hoth hc).trans (holds_eq hoth hc').symm
  · exact fun c => Nat.le_of_eq (hall c).symm
  · intro c
    by_cases hco : c = o
    · subst hco; omega
    · exact Nat.le_of_eq (hoth c hco).symm
  · exact ⟨fun _ c => by simp [LockSys.Holds, hall c], fun _ => h0⟩
  · refine ⟨fun h => ?_, fun h => ?_⟩
    · exact absurd (hw.symm.trans h) (lockWord_ne_zero (hid o) (by omega))
    · exact absurd (show S.released o < S.acquired o by omega) (h o)
  · intro c hc
    exact absurd hc (by simp [LockSys.Holds, hall c])
  · intro c hc
    obtain rfl : c = o := holds_eq hoth hc
    have hval := toNat_lockWord (hid c) (n := n) (by omega)
    have hlt := hid c
    refine ⟨?_, ?_, ?_, by omega, by omega⟩
    · apply BitVec.eq_of_toNat_eq
      rw [BitVec.extractLsb'_toNat, hw, hval, Nat.shiftRight_eq_div_pow]
      simp only [BitVec.toNat_ofNat]
      omega
    · rw [BitVec.extractLsb'_toNat, hw, hval, Nat.shiftRight_eq_div_pow]
      omega
    · rw [BitVec.extractLsb'_toNat, hw, hval, Nat.shiftRight_eq_div_pow]
      omega

end Machine

/-- Two cores, ids 0 and 1: core 1 takes the free lock by `trylock`, and core 0 is about to call
    `unlock` on it. -/
theorem reentrantLock_two_cores :
    ∃ S : LockSys (Fin 2), LockReachable (fun c => BitVec.ofNat 32 c.val) S ∧ S.Holds 1 ∧
      (S.state.extractLsb' 0 16).toNat = 1 ∧ (S.state.extractLsb' 16 15).toNat = 1 ∧
      (S.pc 0).inUnlock ∧
      ∀ S', LockStep (fun c => BitVec.ofNat 32 c.val) S 0 S' → S'.state = S.state := by
  have hr : LockReachable (fun c : Fin 2 => BitVec.ofNat 32 c.val)
      ((((LockSys.boot (Fin 2)).goto 1 (.tryLoad false)).goto 1
        (tryResume (cpuId (fun c : Fin 2 => BitVec.ofNat 32 c.val) 1) false 0)).acquire 1
          (lockWord 1 1) |>.goto 0 .unlockLoad) :=
    (((Relation.ReflTransGen.refl.tail ⟨1, .callTrylock rfl⟩).tail ⟨1, .tryLoad false rfl⟩).tail
      ⟨1, .tryCasOk false 0 (lockWord 1 1) rfl rfl⟩).tail ⟨0, .callUnlock rfl⟩
  have hsafe := reentrantLock_safety (fun c : Fin 2 => by decide +revert)
    (by intro a b h; revert h; decide +revert) hr
  refine ⟨_, hr, by decide, ?_, ?_, trivial, fun S' hs => (hsafe.2.2.2.2 0 S' trivial ?_ hs).1⟩
  · exact (hsafe.2.2.2.1 1 (by decide)).2.1
  · exact (hsafe.2.2.2.1 1 (by decide)).2.2.1
  · decide

end MapleKernel.Cpu
