/-
  File:      Cpu/IpiLock.lean
  Subject:   THE SPIN LOCK OF THE IPI MAILBOX (`apic.cpp`, `atomic.h`) over any number of cores.

  `send_ipi` and `wait_till_interrupt` share the array `last_interrupt_received` and guard it with
  one spin lock. Here every load, every compare-exchange and every access to the array is one
  atomic step, the cores take steps in any order, and the weak compare-exchange may fail for no
  reason. `send_ipi` takes and releases the lock once. `wait_till_interrupt` takes it once for
  each sender it looks at and releases it only in the branch that found its vector.

  * `ipiAct` -- one step of one core, from the source; `held` is ghost data, set by the
    compare-exchange that takes the lock and cleared by the store that releases it;
  * `LockDiscipline` -- nobody acquires what it holds, nobody returns or halts holding it, and
    there is no deadlock on a spinning holder;
  * `ipiLock_discipline_iff` -- a run keeps the discipline exactly when every slot that a wait
    looks at holds the vector it waits for.
-/
import MapleKernel.Lib.Run

namespace MapleKernel.Cpu

open Runs

/-! ## 1. The cores and the mailbox -/

abbrev maxCoreCount : Nat := 12

/-- `runtime_core_count`, with the bound the arrays are built for, and the LAPIC ids of the
    cores. The ids index the arrays; the count is a count, not a bound of them. -/
structure Platform where
  runtimeCoreCount : Nat
  pos : 0 < runtimeCoreCount
  le_max : runtimeCoreCount ≤ maxCoreCount
  lapicIds : Finset (Fin maxCoreCount)

/-- The ids `get_core_id_fast` returns. -/
abbrev Platform.Core (P : Platform) : Type := {id : Fin maxCoreCount // id ∈ P.lapicIds}

/-- A core id as an index of `last_interrupt_received`. -/
def Platform.slot (P : Platform) (c : P.Core) : Fin maxCoreCount := c.val

/-- The values of `sender_id` in the loop of `wait_till_interrupt`. -/
abbrev Platform.Sender (P : Platform) : Type := Fin P.runtimeCoreCount

/-- `sender_id` as an index of `last_interrupt_received`. -/
def Platform.senderSlot (P : Platform) (k : P.Sender) : Fin maxCoreCount := k.castLE P.le_max

def noInterrupt : UInt8 := 255

/-- `last_interrupt_received[receiver][sender]`. -/
abbrev Mailbox : Type := Fin maxCoreCount → Fin maxCoreCount → UInt8

/-- The store `last_interrupt_received[receiver][sender] = v`. -/
def Mailbox.store (m : Mailbox) (receiver sender : Fin maxCoreCount) (v : UInt8) : Mailbox :=
  Function.update m receiver (Function.update (m receiver) sender v)

/-- A static array without an initialiser. -/
def Mailbox.boot : Mailbox := fun _ _ => 0

/-! ## 2. The machine -/

section Machine

variable {P : Platform}

/-- What a core goes on with once it has the lock: the store of `send_ipi`, or the look of
    `wait_till_interrupt` at one sender. -/
inductive Section (P : Platform) where
  | send (coreId : Fin maxCoreCount) (intVector : UInt8)
  | look (interruptVector : UInt8) (senderId : P.Sender)
  deriving DecidableEq

/-- Where a core is. `spin` and `cas` are the two phases of `simple_spin_lock`. -/
inductive IpiPc (P : Platform) where
  | idle
  | spin (sec : Section P)
  | cas (sec : Section P)
  | sendWrite (coreId : Fin maxCoreCount) (intVector : UInt8)
  | sendUnlock (coreId : Fin maxCoreCount) (intVector : UInt8)
  | sendPending (i : Nat)
  | waitHlt (interruptVector : UInt8)
  | waitRead (interruptVector : UInt8) (senderId : P.Sender)
  | waitClear (interruptVector : UInt8) (senderId : P.Sender)
  | waitUnlock
  | aborted
  deriving DecidableEq

structure IpiState (P : Platform) where
  spinLock : UInt32
  lastInterruptReceived : Mailbox
  pc : P.Core → IpiPc P
  held : P.Core → Bool

def IpiState.boot (P : Platform) : IpiState P :=
  { spinLock := 0, lastInterruptReceived := .boot, pc := fun _ => .idle, held := fun _ => false }

def IpiState.goto (s : IpiState P) (c : P.Core) (p : IpiPc P) : IpiState P :=
  { s with pc := Function.update s.pc c p }

/-- What the scheduler and the hardware decide: the call an idle core makes, a compare-exchange
    that fails for no reason, a delivery that is still pending. -/
inductive Choice where
  | callSend (coreId : Fin maxCoreCount) (intVector : UInt8)
  | callWait (interruptVector : UInt8)
  | go
  | casFails
  | pending
  deriving DecidableEq

def timeoutIpiPending : Nat := 1000000

/-- The head of the loop over the senders: at the end of the senders the core halts again. -/
def nextSender (P : Platform) (w : UInt8) (senderId : Nat) : IpiPc P :=
  if h : senderId < P.runtimeCoreCount then .spin (.look w ⟨senderId, h⟩) else .waitHlt w

/-- The step after the compare-exchange has taken the lock. -/
def Section.enter : Section P → IpiPc P
  | .send t v => .sendWrite t v
  | .look w k => .waitRead w k

/-- **One atomic step of core `c`.** -/
def ipiAct (s : IpiState P) (c : P.Core) (choice : Choice) : IpiState P :=
  match s.pc c with
  | .idle =>
      match choice with
      | .callSend t v => s.goto c (.spin (.send t v))
      | .callWait w => if w = noInterrupt then s.goto c .aborted else s.goto c (.waitHlt w)
      | _ => s
  | .spin sec => if s.spinLock = 0 then s.goto c (.cas sec) else s
  | .cas sec =>
      if s.spinLock = 0 ∧ choice ≠ .casFails then
        { s.goto c sec.enter with spinLock := 1, held := Function.update s.held c true }
      else s.goto c (.spin sec)
  | .sendWrite t v =>
      { s.goto c (.sendUnlock t v) with
        lastInterruptReceived := s.lastInterruptReceived.store t (P.slot c) v }
  | .sendUnlock _ _ =>
      { s.goto c (.sendPending 0) with spinLock := 0, held := Function.update s.held c false }
  | .sendPending i =>
      if i < timeoutIpiPending ∧ choice = .pending then s.goto c (.sendPending (i + 1))
      else s.goto c .idle
  | .waitHlt w => s.goto c (nextSender P w 0)
  | .waitRead w k =>
      -- without a match the loop goes on to the next sender and nobody unlocks
      if s.lastInterruptReceived (P.slot c) (P.senderSlot k) = w then s.goto c (.waitClear w k)
      else s.goto c (nextSender P w (k + 1))
  | .waitClear _ k =>
      { s.goto c .waitUnlock with
        lastInterruptReceived :=
          s.lastInterruptReceived.store (P.slot c) (P.senderSlot k) noInterrupt }
  | .waitUnlock =>
      { s.goto c .idle with spinLock := 0, held := Function.update s.held c false }
  | .aborted => s

/-- The interleavings: who moves next, and with which choice. -/
def ipiStep (s : IpiState P) (op : P.Core × Choice) : IpiState P := ipiAct s op.1 op.2

/-! ## 3. The discipline -/

/-- The core is inside `simple_spin_lock`. -/
def IpiPc.acquiring : IpiPc P → Prop
  | .spin _ | .cas _ => True
  | _ => False

/-- The core has returned from both functions, or is halted inside `wait_till_interrupt`. -/
def IpiPc.outside : IpiPc P → Prop
  | .idle | .waitHlt _ => True
  | _ => False

/-- The core is between the acquire and the release that the source writes for it. -/
def IpiPc.critical : IpiPc P → Bool
  | .sendWrite _ _ | .sendUnlock _ _ | .waitRead _ _ | .waitClear _ _ | .waitUnlock => true
  | _ => false

structure LockDiscipline (s : IpiState P) : Prop where
  acquire_free : ∀ c, (s.pc c).acquiring → s.held c = false
  outside_free : ∀ c, (s.pc c).outside → s.held c = false
  no_deadlock : ¬ ∃ h, s.held h = true ∧ ∀ c, (s.pc c).acquiring

/-- Whoever looks at a slot finds there the vector it waits for. -/
def FindsVector (s : IpiState P) (op : P.Core × Choice) : Prop :=
  ∀ w k, s.pc op.1 = .waitRead w k → s.lastInterruptReceived (P.slot op.1) (P.senderSlot k) = w

/-- The invariant: a core holds the lock exactly inside its critical section. -/
def Balanced (s : IpiState P) : Prop := ∀ c, s.held c = (s.pc c).critical

theorem balanced_boot : Balanced (IpiState.boot P) := fun _ => rfl

theorem critical_of_acquiring {p : IpiPc P} (h : p.acquiring) : p.critical = false := by
  cases p <;> first | rfl | exact h.elim

theorem critical_of_outside {p : IpiPc P} (h : p.outside) : p.critical = false := by
  cases p <;> first | rfl | exact h.elim

theorem Balanced.discipline {s : IpiState P} (h : Balanced s) : LockDiscipline s where
  acquire_free c hc := (h c).trans (critical_of_acquiring hc)
  outside_free c hc := (h c).trans (critical_of_outside hc)
  no_deadlock := by
    intro h
    obtain ⟨c, hheld, hall⟩ := h
    have hfree := (h c).trans (critical_of_acquiring (hall c))
    rw [hheld] at hfree
    exact Bool.noConfusion hfree

/-- A step that moves `c` to `p` and leaves the ghost right for `p` keeps the balance. -/
theorem Balanced.update {s s' : IpiState P} (h : Balanced s) {c : P.Core} {p : IpiPc P} {b : Bool}
    (hpc : s'.pc = Function.update s.pc c p) (hheld : s'.held = Function.update s.held c b)
    (hb : b = p.critical) : Balanced s' := by
  intro d
  rw [hpc, hheld]
  by_cases hd : d = c
  · subst hd
    rw [Function.update_self, Function.update_self]
    exact hb
  · rw [Function.update_of_ne hd, Function.update_of_ne hd]
    exact h d

/-- The case of `Balanced.update` without a change of the ghost. -/
theorem Balanced.goto {s : IpiState P} (h : Balanced s) {c : P.Core} {p : IpiPc P}
    (hp : (s.pc c).critical = p.critical) : Balanced (s.goto c p) := by
  refine h.update (c := c) (p := p) (b := s.held c) rfl ?_ ((h c).trans hp)
  rw [Function.update_eq_self]
  rfl

theorem critical_nextSender (w : UInt8) (k : Nat) : (nextSender P w k).critical = false := by
  unfold nextSender
  split <;> rfl

theorem critical_enter (sec : Section P) : sec.enter.critical = true := by
  cases sec <;> rfl

/-- **One step keeps the balance**, unless a wait looks at a slot without its vector. -/
theorem balanced_step (s : IpiState P) (op : P.Core × Choice) (h : Balanced s)
    (hf : FindsVector s op) : Balanced (ipiStep s op) := by
  obtain ⟨c, choice⟩ := op
  show Balanced (ipiAct s c choice)
  unfold ipiAct
  cases hpc : s.pc c with
  | idle =>
      cases choice with
      | callSend t v => exact h.goto (by rw [hpc]; rfl)
      | callWait w =>
          dsimp only
          split
          · exact h.goto (by rw [hpc]; rfl)
          · exact h.goto (by rw [hpc]; rfl)
      | go | casFails | pending => exact h
  | spin sec =>
      dsimp only
      split
      · exact h.goto (by rw [hpc]; rfl)
      · exact h
  | cas sec =>
      dsimp only
      split
      · exact h.update rfl rfl (critical_enter sec).symm
      · exact h.goto (by rw [hpc]; rfl)
  | sendWrite t v =>
      exact h.goto (p := .sendUnlock t v) (by rw [hpc]; rfl)
  | sendUnlock t v => exact h.update rfl rfl rfl
  | sendPending i =>
      dsimp only
      split
      · exact h.goto (by rw [hpc]; rfl)
      · exact h.goto (by rw [hpc]; rfl)
  | waitHlt w =>
      exact h.goto (by rw [hpc]; exact (critical_nextSender w 0).symm)
  | waitRead w k =>
      dsimp only
      rw [if_pos (hf w k hpc)]
      exact h.goto (by rw [hpc]; rfl)
  | waitClear w k =>
      exact h.goto (p := .waitUnlock) (by rw [hpc]; rfl)
  | waitUnlock => exact h.update rfl rfl rfl
  | aborted => exact h

/-- The loop's head either takes the lock or halts: both need it free. -/
theorem nextSender_needs_free (w : UInt8) (k : Nat) :
    (nextSender P w k).acquiring ∨ (nextSender P w k).outside := by
  unfold nextSender
  split
  · exact .inl trivial
  · exact .inr trivial

/-- **A look without a match breaks the discipline at once**: the core goes on holding. -/
theorem findsVector_of_discipline (s : IpiState P) (op : P.Core × Choice) (h : Balanced s)
    (hd : LockDiscipline (ipiStep s op)) : FindsVector s op := by
  obtain ⟨c, choice⟩ := op
  intro w k hpc
  by_contra hne
  have hstep : ipiStep s (c, choice) = s.goto c (nextSender P w (k + 1)) := by
    unfold ipiStep ipiAct
    rw [hpc]
    exact if_neg hne
  rw [hstep] at hd
  have hheld : s.held c = true := by
    have hb := h c
    rw [hpc] at hb
    exact hb
  have hat : (s.goto c (nextSender P w (k + 1))).pc c = nextSender P w (k + 1) :=
    Function.update_self _ _ _
  have hfree : s.held c = false := by
    rcases nextSender_needs_free (P := P) w (k + 1) with ha | ho
    · rw [← hat] at ha
      exact hd.acquire_free c ha
    · rw [← hat] at ho
      exact hd.outside_free c ho
  exact Bool.noConfusion (hheld.symm.trans hfree)

/-- **The exact condition of the lock discipline.** In every interleaving of any number of cores,
    the discipline holds in every state of the run if and only if every slot that a wait looks at
    holds the vector it waits for. -/
theorem ipiLock_discipline_iff (P : Platform) (l : List (P.Core × Choice)) :
    Along ipiStep LockDiscipline (IpiState.boot P) l
      ↔ Guarded ipiStep FindsVector (IpiState.boot P) l :=
  along_iff_guarded_of_inv (fun _ h => h.discipline) balanced_step findsVector_of_discipline
    balanced_boot

end Machine

/-- Two cores, with the ids 0 and 1. -/
def twoCores : Platform where
  runtimeCoreCount := 2
  pos := Nat.two_pos
  le_max := by decide
  lapicIds := {0, 1}

/-- Core 0 waits for vector 40 and finds nothing from sender 0; core 1 sends. -/
def deadlockRun : List (twoCores.Core × Choice) :=
  let core0 : twoCores.Core := ⟨0, by decide⟩
  [(core0, .callWait 40), (core0, .go), (core0, .go), (core0, .go), (core0, .go),
    (⟨1, by decide⟩, .callSend 0 40)]

/-- **The discipline is not kept**: core 0 spins on the lock it holds, and core 1 with it. -/
theorem ipiLock_discipline_broken :
    ¬ ∀ (P : Platform) (l : List (P.Core × Choice)),
      Along ipiStep LockDiscipline (IpiState.boot P) l := by
  intro h
  have hd := (h twoCores deadlockRun).final
  refine hd.no_deadlock ⟨⟨0, by decide⟩, rfl, fun c => ?_⟩
  obtain ⟨id, hid⟩ := c
  rcases Finset.mem_insert.mp hid with rfl | h1
  · trivial
  · obtain rfl := Finset.mem_singleton.mp h1
    trivial

end MapleKernel.Cpu
