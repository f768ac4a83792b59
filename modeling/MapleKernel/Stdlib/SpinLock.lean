/-
  File:      Stdlib/SpinLock.lean
  Subject:   THE SPIN LOCK (`simple_spin_lock`, `spin_trylock`, `simple_spin_unlock` of `atomic.h`)
             over any number of cores.

  Each load, compare-exchange and store of the word is one atomic step, and the cores take steps in
  any order. The compare-exchange is weak: it may fail though the word is as expected, and when it
  fails it puts the word into `expected`, which `simple_spin_lock` resets before it spins again. A
  core unlocks only what it holds; it may ask for the lock while it holds it.

  * `SpinStep` -- one step of one core, from the source; `holds` is ghost data, set by the
    compare-exchange that takes the lock and cleared by the store that releases it;
  * `Represents` -- which abstract lock a state stands for: the word is its state, and `expected` is
    0 before every compare-exchange;
  * `spinStep_simulates` -- each step is one of the abstract lock, or none;
  * `spinLock_exclusion` -- in every reachable state at most one core holds the lock, and the word
    is 1 exactly if one does.
-/
import MapleKernel.Lib.Ownership

namespace MapleKernel.Stdlib

open Ownership Relation

/-! ## 1. The machine -/

/-- Where a core is; `expected` is the local variable of that name. -/
inductive SpinPc where
  | idle
  /-- The first loop of `simple_spin_lock`. -/
  | lockWait
  /-- At its compare-exchange. -/
  | lockCas (expected : UInt32)
  /-- At `expected = 0`. -/
  | lockReset (expected : UInt32)
  /-- The inner loop. -/
  | lockSpin (expected : UInt32)
  /-- At the compare-exchange of `spin_trylock`. -/
  | tryCas (expected : UInt32)
  /-- At the store of `simple_spin_unlock`. -/
  | unlockStore
  deriving DecidableEq, Repr

structure SpinSystem (Core : Type) where
  lock : UInt32
  pc : Core → SpinPc
  holds : Core → Bool

section Machine

variable {Core : Type} [DecidableEq Core]

def SpinSystem.start : SpinSystem Core := ⟨0, fun _ => .idle, fun _ => false⟩

def SpinSystem.goto (S : SpinSystem Core) (c : Core) (pc : SpinPc) : SpinSystem Core :=
  { S with pc := Function.update S.pc c pc }

/-- The compare-exchange has stored 1, and the function returns. -/
def SpinSystem.acquire (S : SpinSystem Core) (c : Core) : SpinSystem Core :=
  { S.goto c .idle with lock := 1, holds := Function.update S.holds c true }

/-- 0 is stored, and the function returns. -/
def SpinSystem.release (S : SpinSystem Core) (c : Core) : SpinSystem Core :=
  { S.goto c .idle with lock := 0, holds := Function.update S.holds c false }

/-- **One atomic step of core `c`.** -/
inductive SpinStep (S : SpinSystem Core) (c : Core) : SpinSystem Core → Prop where
  | callLock (h : S.pc c = .idle) : SpinStep S c (S.goto c .lockWait)
  | waitAgain (h : S.pc c = .lockWait) (hl : S.lock ≠ 0) : SpinStep S c (S.goto c .lockWait)
  | waitDone (h : S.pc c = .lockWait) (hl : S.lock = 0) : SpinStep S c (S.goto c (.lockCas 0))
  | lockTaken (ex : UInt32) (h : S.pc c = .lockCas ex) (hl : S.lock = ex) :
      SpinStep S c (S.acquire c)
  | lockFailed (ex : UInt32) (h : S.pc c = .lockCas ex) :
      SpinStep S c (S.goto c (.lockReset S.lock))
  | reset (ex : UInt32) (h : S.pc c = .lockReset ex) : SpinStep S c (S.goto c (.lockSpin 0))
  | spinAgain (ex : UInt32) (h : S.pc c = .lockSpin ex) (hl : S.lock ≠ 0) :
      SpinStep S c (S.goto c (.lockSpin ex))
  | spinDone (ex : UInt32) (h : S.pc c = .lockSpin ex) (hl : S.lock = 0) :
      SpinStep S c (S.goto c (.lockCas ex))
  | callTrylock (h : S.pc c = .idle) : SpinStep S c (S.goto c (.tryCas 0))
  | tryTaken (ex : UInt32) (h : S.pc c = .tryCas ex) (hl : S.lock = ex) :
      SpinStep S c (S.acquire c)
  | tryFailed (ex : UInt32) (h : S.pc c = .tryCas ex) : SpinStep S c (S.goto c .idle)
  | callUnlock (h : S.pc c = .idle) (hh : S.holds c = true) :
      SpinStep S c (S.goto c .unlockStore)
  | unlocked (h : S.pc c = .unlockStore) : SpinStep S c (S.release c)

/-- The states any interleaving reaches. -/
def SpinReachable (S : SpinSystem Core) : Prop :=
  ReflTransGen (fun S S' => ∃ c, SpinStep S c S') .start S

theorem SpinReachable.step {S S' : SpinSystem Core} (h : SpinReachable S) (c : Core)
    (hs : SpinStep S c S') : SpinReachable S' := ReflTransGen.tail h ⟨c, hs⟩

/-! ## 2. The abstract lock of a state -/

/-- What a core may rely on where it is: `expected` is 0 at a compare-exchange and on the way to it,
    and who unlocks holds. -/
def SpinPc.Ok (holds : Bool) : SpinPc → Prop
  | .lockCas ex | .lockSpin ex | .tryCas ex => ex = 0
  | .unlockStore => holds = true
  | _ => True

/-- The state stands for the abstract lock with that owner. -/
structure Represents (S : SpinSystem Core) (owner : Option Core) : Prop where
  word : S.lock = if owner = none then 0 else 1
  held : HeldBy S.holds owner
  ok : ∀ c, (S.pc c).Ok (S.holds c)

variable {S S' : SpinSystem Core} {owner : Option Core} {c : Core}

omit [DecidableEq Core] in
theorem represents_start : Represents (.start : SpinSystem Core) none :=
  ⟨rfl, heldBy_nobody, fun _ => trivial⟩

/-- A step that does not change the word. -/
theorem Represents.goto (h : Represents S owner) {pc : SpinPc} (hpc : pc.Ok (S.holds c)) :
    Represents (S.goto c pc) owner where
  word := h.word
  held := h.held
  ok := by
    intro d
    show (Function.update S.pc c pc d).Ok (S.holds d)
    by_cases hd : d = c
    · subst hd
      rw [Function.update_self]
      exact hpc
    · rw [Function.update_of_ne hd]
      exact h.ok d

/-- The core goes idle, and the others do not see who holds. -/
theorem ok_update (h : ∀ d, (S.pc d).Ok (S.holds d)) (c : Core) (b : Bool) (d : Core) :
    (Function.update S.pc c .idle d).Ok (Function.update S.holds c b d) := by
  by_cases hd : d = c
  · subst hd
    rw [Function.update_self, Function.update_self]
    trivial
  · rw [Function.update_of_ne hd, Function.update_of_ne hd]
    exact h d

omit [DecidableEq Core] in
/-- Where the word is 0 nobody owns the lock. -/
theorem Represents.owner_none (h : Represents S owner) (hl : S.lock = 0) : owner = none := by
  by_contra howner
  have hword := h.word
  rw [if_neg howner, hl] at hword
  exact absurd hword (by decide)

theorem Represents.acquire (h : Represents S owner) (hl : S.lock = 0) :
    OwnerStep owner (some c) ∧ Represents (S.acquire c) (some c) := by
  obtain rfl := h.owner_none hl
  exact ⟨.take c, (if_neg (Option.some_ne_none c)).symm, h.held.take c, ok_update h.ok c true⟩

theorem Represents.release (h : Represents S owner) (hh : S.holds c = true) :
    OwnerStep owner none ∧ Represents (S.release c) none := by
  obtain rfl : owner = some c := (h.held c).mp hh
  exact ⟨.giveBack c, rfl, h.held.giveBack, ok_update h.ok c false⟩

/-- **Each step is a step of the abstract lock, or none.** -/
theorem spinStep_simulates (h : Represents S owner) (hs : SpinStep S c S') :
    ∃ owner', ReflTransGen OwnerStep owner owner' ∧ Represents S' owner' := by
  have hok := h.ok c
  cases hs with
  | callLock hpc => exact ⟨owner, .refl, h.goto trivial⟩
  | waitAgain hpc hl => exact ⟨owner, .refl, h.goto trivial⟩
  | waitDone hpc hl => exact ⟨owner, .refl, h.goto rfl⟩
  | lockTaken ex hpc hl =>
      rw [hpc] at hok
      obtain ⟨hstep, hnew⟩ := h.acquire (c := c) (hl.trans hok)
      exact ⟨some c, .single hstep, hnew⟩
  | lockFailed ex hpc => exact ⟨owner, .refl, h.goto trivial⟩
  | reset ex hpc => exact ⟨owner, .refl, h.goto rfl⟩
  | spinAgain ex hpc hl =>
      rw [hpc] at hok
      exact ⟨owner, .refl, h.goto hok⟩
  | spinDone ex hpc hl =>
      rw [hpc] at hok
      exact ⟨owner, .refl, h.goto hok⟩
  | callTrylock hpc => exact ⟨owner, .refl, h.goto rfl⟩
  | tryTaken ex hpc hl =>
      rw [hpc] at hok
      obtain ⟨hstep, hnew⟩ := h.acquire (c := c) (hl.trans hok)
      exact ⟨some c, .single hstep, hnew⟩
  | tryFailed ex hpc => exact ⟨owner, .refl, h.goto trivial⟩
  | callUnlock hpc hh => exact ⟨owner, .refl, h.goto hh⟩
  | unlocked hpc =>
      rw [hpc] at hok
      obtain ⟨hstep, hnew⟩ := h.release (c := c) hok
      exact ⟨none, .single hstep, hnew⟩

/-- **Every run is one of the abstract lock.** -/
theorem spinReachable_represents (h : SpinReachable S) :
    ∃ owner, ReflTransGen OwnerStep none owner ∧ Represents S owner :=
  simulates_run (fun _ _ _ hrep hs => hs.elim fun _ hstep => spinStep_simulates hrep hstep)
    represents_start h

/-- **Mutual exclusion.** In every reachable state at most one core holds the lock, and the word is
    1 exactly if one does, and 0 else. -/
theorem spinLock_exclusion (h : SpinReachable S) :
    (∀ c c', S.holds c = true → S.holds c' = true → c = c') ∧
    (S.lock = 1 ↔ ∃ c, S.holds c = true) ∧ (S.lock = 0 ∨ S.lock = 1) := by
  obtain ⟨owner, -, hrep⟩ := spinReachable_represents h
  refine ⟨fun c c' => hrep.held.unique, ?_, ?_⟩
  · rw [hrep.held.exists_iff, hrep.word]
    by_cases howner : owner = none
    · rw [if_pos howner]
      exact iff_of_false (by decide) (not_not.mpr howner)
    · rw [if_neg howner]
      exact iff_of_true rfl howner
  · rw [hrep.word]
    by_cases howner : owner = none
    · exact Or.inl (if_pos howner)
    · exact Or.inr (if_neg howner)

end Machine

/-- Core `true` has waited and is at its compare-exchange, and core `false` has taken the lock. -/
def contended : SpinSystem Bool :=
  (((SpinSystem.start.goto true .lockWait).goto true (.lockCas 0)).goto false (.tryCas 0)).acquire
    false

theorem spinReachable_contended : SpinReachable contended := by
  have hstart : SpinReachable (.start : SpinSystem Bool) := .refl
  have hcall := hstart.step true (.callLock rfl)
  have hwaited := hcall.step true (.waitDone rfl rfl)
  have htry := hwaited.step false (.callTrylock rfl)
  exact htry.step false (.tryTaken 0 rfl rfl)

theorem spinLock_exclusion_contended :
    (∀ c c', contended.holds c = true → contended.holds c' = true → c = c') ∧
    (contended.lock = 1 ↔ ∃ c, contended.holds c = true) ∧
    (contended.lock = 0 ∨ contended.lock = 1) :=
  spinLock_exclusion spinReachable_contended

end MapleKernel.Stdlib
