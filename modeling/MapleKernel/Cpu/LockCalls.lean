/-
  File:      Cpu/LockCalls.lean
  Subject:   ONE CALL of `reentrant_lock` and of `reentrant_unlock`, as its caller sees it.

  Over the lock machine of Cpu/ReentrantLock.lean: a core that called `reentrant_lock` is inside
  it until one acquisition took effect (`lockCall_step`); a core that holds the lock and called
  `reentrant_unlock` is inside it until one release took effect (`unlockCall_step`). Nobody
  else's position and counts move (`lockStep_other`).

  `recursionOf` reads from the word how often a core holds the lock, and `recursionOf_eq` says
  that it is what the core acquired and did not release.
-/
import MapleKernel.Cpu.ReentrantLock

namespace MapleKernel.Cpu

/-- Inside `reentrant_lock`, with the acquisition still to come. -/
def LockPc.inLock : LockPc → Prop
  | .tryLoad true | .tryCas true _ _ | .lockLoad | .lockCas _ _ | .lockSpin => True
  | _ => False

theorem LockPc.not_idle_of_inLock {p : LockPc} (h : p.inLock) : p ≠ .idle := by
  rintro rfl
  exact h

theorem LockPc.not_idle_of_inUnlock {p : LockPc} (h : p.inUnlock) : p ≠ .idle := by
  rintro rfl
  exact h

/-! ## 1. Where a loop goes on from a value of `expected` -/

theorem tryResume_inLock (cpuId expected : BitVec 32) : (tryResume cpuId true expected).inLock := by
  unfold tryResume
  cases tryDesired cpuId expected <;> trivial

theorem fastResume_inLock (cpuId expected : BitVec 32) : (fastResume cpuId expected).inLock := by
  unfold fastResume
  by_cases h : mineFast cpuId expected
  · rw [if_pos h]
    cases fastDesired expected <;> trivial
  · rw [if_neg h]
    trivial

section Calls

variable {Core : Type} [DecidableEq Core] {apicGetCoreId : Core → BitVec 32}

/-! ## 2. The word, read by a core -/

/-- How often core `c` holds the lock, read from the word. -/
def recursionOf (apicGetCoreId : Core → BitVec 32) (state : BitVec 32) (c : Core) : Nat :=
  if isLocked state ∧ owner state = cpuId apicGetCoreId c then (recursion state).toNat else 0

/-! ## 3. One step of a call -/

/-- Core `c` is as it was, for the lock. -/
structure LockSame (S S' : LockSys Core) (c : Core) : Prop where
  pc : S'.pc c = S.pc c
  acquired : S'.acquired c = S.acquired c
  released : S'.released c = S.released c

/-- A step leaves the position and the counts of every other core alone. -/
theorem lockStep_other {S S' : LockSys Core} {c c' : Core} (hs : LockStep apicGetCoreId S c S')
    (hc : c' ≠ c) : LockSame S S' c' := by
  cases hs
  case tryCasOk | lockCasOk =>
    exact ⟨Function.update_of_ne hc _ _, Function.update_of_ne hc _ _, rfl⟩
  case unlockCasOk =>
    exact ⟨Function.update_of_ne hc _ _, rfl, Function.update_of_ne hc _ _⟩
  all_goals exact ⟨Function.update_of_ne hc _ _, rfl, rfl⟩

/-- **A step inside `reentrant_lock`**: the core stays inside with its counts unchanged, or it
    returns with one acquisition more. -/
theorem lockCall_step {S S' : LockSys Core} {c : Core} (hp : (S.pc c).inLock)
    (hs : LockStep apicGetCoreId S c S') : S'.released c = S.released c ∧
      ((S'.pc c).inLock ∧ S'.acquired c = S.acquired c ∨
        S'.pc c = .idle ∧ S'.acquired c = S.acquired c + 1) := by
  have hgoto : ∀ p : LockPc, p.inLock → (S.goto c p).released c = S.released c ∧
      (((S.goto c p).pc c).inLock ∧ (S.goto c p).acquired c = S.acquired c ∨
        (S.goto c p).pc c = .idle ∧ (S.goto c p).acquired c = S.acquired c + 1) := by
    intro p h
    refine ⟨rfl, .inl ⟨?_, rfl⟩⟩
    simpa only [LockSys.goto, Function.update_self] using h
  have hacquire : ∀ d, (S.acquire c d).released c = S.released c ∧
      (((S.acquire c d).pc c).inLock ∧ (S.acquire c d).acquired c = S.acquired c ∨
        (S.acquire c d).pc c = .idle ∧ (S.acquire c d).acquired c = S.acquired c + 1) := by
    intro d
    refine ⟨rfl, .inr ⟨?_, ?_⟩⟩ <;> simp only [LockSys.acquire, Function.update_self]
  cases hs with
  | callTrylock h => rw [h] at hp; exact hp.elim
  | callLock h => rw [h] at hp; exact hp.elim
  | callUnlock h => rw [h] at hp; exact hp.elim
  | unlockLoad h => rw [h] at hp; exact hp.elim
  | unlockCasOk _ _ h => rw [h] at hp; exact hp.elim
  | unlockCasFail _ _ h => rw [h] at hp; exact hp.elim
  | tryCasOk => exact hacquire _
  | lockCasOk => exact hacquire _
  | lockLoad => exact hgoto _ (fastResume_inLock _ _)
  | lockCasFail => exact hgoto _ (fastResume_inLock _ _)
  | lockSpin =>
      refine hgoto _ ?_
      by_cases h : isLocked S.state
      · rw [if_pos h]; trivial
      · rw [if_neg h]; trivial
  | tryLoad fl h =>
      -- the trylock that `reentrant_lock` called, since the core is inside it
      rw [h] at hp
      cases fl
      · exact hp.elim
      · exact hgoto _ (tryResume_inLock _ _)
  | tryCasFail fl e d h =>
      rw [h] at hp
      cases fl
      · exact hp.elim
      · exact hgoto _ (tryResume_inLock _ _)

omit [DecidableEq Core] in
/-- Where one core holds the lock, everybody else's calls are balanced. -/
theorem balanced_of_holds {S : LockSys Core} (hW : WordOk apicGetCoreId S) {c c' : Core}
    (hh : S.Holds c) (hc : c' ≠ c) : S.acquired c' = S.released c' := by
  rcases hW with ⟨_, hall⟩ | ⟨o, n, _, _, _, _, hoth⟩
  · exact hall c'
  · obtain rfl : c = o := holds_eq hoth hh
    exact hoth c' hc

section Ids

variable (hid : ∀ c, (apicGetCoreId c).toNat < 2 ^ 16)

include hid

omit [DecidableEq Core] in
/-- A holder's `reentrant_unlock` never takes the early return. -/
theorem unlockResume_holds {S : LockSys Core} (hW : WordOk apicGetCoreId S) {c : Core}
    (hh : S.Holds c) : (unlockResume (cpuId apicGetCoreId c) S.state).inUnlock := by
  rcases hW with ⟨_, hall⟩ | ⟨o, n, h1, hn, hw, _, hoth⟩
  · exact absurd hh (by simp [LockSys.Holds, hall c])
  · obtain rfl : c = o := holds_eq hoth hh
    rw [unlockResume, cpuId_eq hid, hw, unlockDesired_own (hid c) (by omega) h1]
    trivial

/-- **A step inside `reentrant_unlock` by a holder**: the core stays inside with its counts
    unchanged, or it returns with one release more. -/
theorem unlockCall_step {S S' : LockSys Core} {c : Core} (hW : WordOk apicGetCoreId S)
    (hh : S.Holds c) (hp : (S.pc c).inUnlock) (hs : LockStep apicGetCoreId S c S') :
    S'.acquired c = S.acquired c ∧
      ((S'.pc c).inUnlock ∧ S'.released c = S.released c ∨
        S'.pc c = .idle ∧ S'.released c = S.released c + 1) := by
  have hgoto : (S.goto c (unlockResume (cpuId apicGetCoreId c) S.state)).pc c
      = unlockResume (cpuId apicGetCoreId c) S.state := Function.update_self _ _ _
  have hresume := unlockResume_holds hid hW hh
  cases hs with
  | unlockLoad => exact ⟨rfl, .inl ⟨by rwa [hgoto], rfl⟩⟩
  | unlockCasFail => exact ⟨rfl, .inl ⟨by rwa [hgoto], rfl⟩⟩
  | unlockCasOk =>
      refine ⟨rfl, .inr ⟨?_, ?_⟩⟩ <;> simp only [LockSys.release, Function.update_self]
  | callTrylock h => rw [h] at hp; exact hp.elim
  | callLock h => rw [h] at hp; exact hp.elim
  | callUnlock h => rw [h] at hp; exact hp.elim
  | tryLoad _ h => rw [h] at hp; exact hp.elim
  | tryCasOk _ _ _ h => rw [h] at hp; exact hp.elim
  | tryCasFail _ _ _ h => rw [h] at hp; exact hp.elim
  | lockLoad h => rw [h] at hp; exact hp.elim
  | lockCasOk _ _ h => rw [h] at hp; exact hp.elim
  | lockCasFail _ _ h => rw [h] at hp; exact hp.elim
  | lockSpin h => rw [h] at hp; exact hp.elim

variable (hinj : Function.Injective apicGetCoreId)

include hinj

omit [DecidableEq Core] in
/-- **The count in the word is what the core acquired and did not release.** -/
theorem recursionOf_eq {S : LockSys Core} (hW : WordOk apicGetCoreId S) (c : Core) :
    S.acquired c = S.released c + recursionOf apicGetCoreId S.state c := by
  unfold recursionOf
  rcases hW with ⟨h0, hall⟩ | ⟨o, n, h1, hn, hw, hacq, hoth⟩
  · have hfree : ¬ isLocked S.state := h0 ▸ not_isLocked_zero
    rw [if_neg fun h => hfree h.1, hall c, Nat.add_zero]
  · have hn15 : n < 2 ^ 15 := by omega
    have howner : owner S.state = BitVec.ofNat 32 (apicGetCoreId o).toNat :=
      hw ▸ owner_lockWord (hid o) hn15
    by_cases hco : c = o
    · subst hco
      have hrec : recursion S.state = BitVec.ofNat 32 n := hw ▸ recursion_lockWord (hid c) hn15
      rw [if_pos ⟨hw ▸ isLocked_lockWord (hid c) hn15, howner.trans (cpuId_eq hid c).symm⟩, hrec,
        BitVec.toNat_ofNat, Nat.mod_eq_of_lt (by omega)]
      exact hacq
    · have hne : ¬ owner S.state = cpuId apicGetCoreId c := by
        rw [howner, cpuId_eq hid, ofNat_inj (hid o) (hid c)]
        exact fun h => hco (id_toNat_inj hinj h).symm
      rw [if_neg fun h => hne h.2, Nat.add_zero]
      exact hoth c hco

end Ids

end Calls

end MapleKernel.Cpu
