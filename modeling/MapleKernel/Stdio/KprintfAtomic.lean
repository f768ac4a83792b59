/-
  File:      Stdio/KprintfAtomic.lean
  Subject:   THE LOCK AROUND THE FORMATTERS: one call prints in one piece, on any number of cores.

  `vkprintf` and `kprintf_argc` save and clear the interrupt flag, take `kprintf_lock`, print and
  undo both on each of their return paths. Here a call is the sequence of its steps, one
  `terminal_putchar` a step, and the lock's loads and compare-exchanges are those of
  Cpu/ReentrantLock.lean. Any number of cores run in any interleaving; each of them makes calls
  outside and inside interrupt handlers, and is interrupted wherever its flag allows it.

  * `vkprintfSteps`, `kprintfArgcSteps` -- the two functions as sequences of steps;
    `vkprintfSteps_eq`, `kprintfArgcSteps_eq` -- each return path is the same bracket around what
    Stdio/Format.lean and Stdio/KprintfArgc.lean say it prints;
  * `KprintfStep` -- the machine; `Stage` -- how far a call has come;
  * `CoreOk`, `kprintfInv_step` -- the invariant: at most the uppermost call of a core is between
    `cli` and `popf`, and it prints only with one acquisition more than at its entry;
  * `kprintf_atomic` -- the characters of a call are one block of the terminal's characters, and
    at the end of a call the lock's count is that of its entry, in every reachable state.
-/
import MapleKernel.Cpu.LockCalls
import MapleKernel.Lib.OwnEntries
import MapleKernel.Stdio.KprintfArgc

namespace MapleKernel.Stdio

open Cpu OwnEntries

/-! ## 1. The functions as sequences of steps -/

/-- A step of a call: the two halves of `irq_save`, the call of a lock function and the return
    from it, a `terminal_putchar`, the `popf` of `irq_restore`. -/
inductive Instr where
  | pushf
  | cli
  | lockCall
  | lockReturn
  | putchar (c : UInt8)
  | unlockCall
  | unlockReturn
  | popf
  deriving DecidableEq, Repr

def irqSave : List Instr := [.pushf, .cli]
def irqRestore : List Instr := [.popf]
def reentrantLock : List Instr := [.lockCall, .lockReturn]
def reentrantUnlock : List Instr := [.unlockCall, .unlockReturn]
def putchars (chars : List UInt8) : List Instr := chars.map .putchar

/-- `vkprintf`, step by step; an error is a call that does not come to a return. -/
def vkprintfSteps (env : PrintfEnv) (fuel : Nat) (fmt : List UInt8) (args : List Word32) :
    Except Failure (List Instr) :=
  let enter := irqSave ++ reentrantLock
  let len := countChar fmt 0x25
  if len = 0 then return enter ++ putchars fmt ++ reentrantUnlock ++ irqRestore
  else do
    let ps ← setTypesAndPos env.frames fmt len fuel 0 0
    match startAndEnds ps (fmt.length % 2 ^ 16) with
    | w :: ws =>
        let rest ← printFields env fmt ps ws args
        return enter ++ putchars (windowText fmt w) ++ putchars rest ++ reentrantUnlock
          ++ irqRestore
    | [] => return enter ++ reentrantUnlock ++ irqRestore

/-- `kprintf_argc`, step by step. Where the count check fails it unlocks too, but then aborts. -/
def kprintfArgcSteps (env : PrintfEnv) (fuel argc : Nat) (fmt : List UInt8)
    (args : List Word32) : Except Failure (List Instr) :=
  let enter := irqSave ++ reentrantLock
  let len := (argc + 2 ^ 8 - 1) % 2 ^ 8
  let lenCheck := countChar fmt 0x25
  if len ≠ lenCheck then .error .aborted
  else if len = 0 then return enter ++ putchars fmt ++ reentrantUnlock ++ irqRestore
  else do
    let ps ← setTypesAndPos env.frames fmt len fuel 0 0
    match startAndEnds ps (fmt.length % 2 ^ 16) with
    | w :: ws =>
        let rest ← printFieldsArgc env fmt ps ws args
        return enter ++ putchars (windowText fmt w) ++ putchars rest ++ reentrantUnlock
          ++ irqRestore
    | [] => return enter ++ reentrantUnlock ++ irqRestore

/-- What follows the lock: the characters, and both undone. -/
def body (chars : List UInt8) : List Instr := putchars chars ++ reentrantUnlock ++ irqRestore

/-- The steps of a call that prints `out`. -/
def bracket (out : List UInt8) : List Instr := irqSave ++ reentrantLock ++ body out

/-- The path with fields: the first window, then what the loop over the fields prints. -/
theorem bracket_fields (first : List UInt8) (fields : Except Failure (List UInt8)) :
    (do let rest ← fields
        return irqSave ++ reentrantLock ++ putchars first ++ putchars rest ++ reentrantUnlock
          ++ irqRestore : Except Failure (List Instr))
      = (do let rest ← fields
            return first ++ rest : Except Failure (List UInt8)).map bracket := by
  cases fields with
  | error e => rfl
  | ok rest =>
      simp only [bind, Except.bind, pure, Except.pure, Except.map, bracket, body, putchars,
        List.map_append, List.append_assoc]

/-- The path without fields. -/
theorem bracket_plain (fmt : List UInt8) :
    irqSave ++ reentrantLock ++ putchars fmt ++ reentrantUnlock ++ irqRestore = bracket fmt := by
  simp only [bracket, body, List.append_assoc]

/-- **Every return path of `vkprintf` is the bracket around what it prints.** -/
theorem vkprintfSteps_eq (env : PrintfEnv) (fuel : Nat) (fmt : List UInt8) (args : List Word32) :
    vkprintfSteps env fuel fmt args = (vkprintf env fuel fmt args).map bracket := by
  unfold vkprintfSteps vkprintf
  by_cases hlen : countChar fmt 0x25 = 0
  · rw [if_pos hlen, if_pos hlen, bracket_plain]
    rfl
  · rw [if_neg hlen, if_neg hlen]
    cases setTypesAndPos env.frames fmt (countChar fmt 0x25) fuel 0 0 with
    | error e => rfl
    | ok ps =>
        cases hwindows : startAndEnds ps (fmt.length % 2 ^ 16) with
        | nil =>
            simp only [bind, Except.bind, hwindows]
            rfl
        | cons w ws =>
            simp only [bind, Except.bind, hwindows]
            exact bracket_fields (windowText fmt w) (printFields env fmt ps ws args)

/-- **So is every return path of `kprintf_argc`.** -/
theorem kprintfArgcSteps_eq (env : PrintfEnv) (fuel argc : Nat) (fmt : List UInt8)
    (args : List Word32) :
    kprintfArgcSteps env fuel argc fmt args = (kprintfArgc env fuel argc fmt args).map bracket := by
  unfold kprintfArgcSteps kprintfArgc
  by_cases hcheck : (argc + 2 ^ 8 - 1) % 2 ^ 8 ≠ countChar fmt 0x25
  · rw [if_pos hcheck, if_pos hcheck]
    rfl
  · rw [if_neg hcheck, if_neg hcheck]
    by_cases hlen : (argc + 2 ^ 8 - 1) % 2 ^ 8 = 0
    · rw [if_pos hlen, if_pos hlen, bracket_plain]
      rfl
    · rw [if_neg hlen, if_neg hlen]
      cases setTypesAndPos env.frames fmt ((argc + 2 ^ 8 - 1) % 2 ^ 8) fuel 0 0 with
      | error e => rfl
      | ok ps =>
          cases hwindows : startAndEnds ps (fmt.length % 2 ^ 16) with
          | nil =>
              simp only [bind, Except.bind, hwindows]
              rfl
          | cons w ws =>
              simp only [bind, Except.bind, hwindows]
              exact bracket_fields (windowText fmt w) (printFieldsArgc env fmt ps ws args)

/-- The sequences of the calls that return. -/
inductive PrintCall : List Instr → Prop where
  | vkprintf (env : PrintfEnv) (fuel : Nat) (fmt : List UInt8) (args : List Word32)
      {steps : List Instr} (h : vkprintfSteps env fuel fmt args = .ok steps) : PrintCall steps
  | kprintfArgc (env : PrintfEnv) (fuel argc : Nat) (fmt : List UInt8) (args : List Word32)
      {steps : List Instr} (h : kprintfArgcSteps env fuel argc fmt args = .ok steps) :
      PrintCall steps

theorem PrintCall.eq_bracket {steps : List Instr} (h : PrintCall steps) :
    ∃ out, steps = bracket out := by
  have of_map : ∀ r : Except Failure (List UInt8), r.map bracket = .ok steps →
      ∃ out, steps = bracket out := by
    intro r hr
    cases r with
    | error e => cases hr
    | ok out => exact ⟨out, (Except.ok.inj hr).symm⟩
  cases h with
  | vkprintf env fuel fmt args h => exact of_map _ (vkprintfSteps_eq env fuel fmt args ▸ h)
  | kprintfArgc env fuel argc fmt args h =>
      exact of_map _ (kprintfArgcSteps_eq env fuel argc fmt args ▸ h)

/-- The characters among the steps. -/
def charsOf (steps : List Instr) : List UInt8 :=
  steps.filterMap fun i => match i with
    | .putchar c => some c
    | _ => none

@[simp] theorem charsOf_body (chars : List UInt8) : charsOf (body chars) = chars := by
  induction chars with
  | nil => rfl
  | cons c chars ih =>
      have h : charsOf (body (c :: chars)) = c :: charsOf (body chars) := rfl
      rw [h, ih]

@[simp] theorem charsOf_bracket (out : List UInt8) : charsOf (bracket out) = out :=
  charsOf_body out

/-! ## 2. The machine -/

/-- A call under way: its number among the calls of its core, all its steps and those to come,
    the local `flags`, and, as ghost data, how often its core held the lock at its entry. -/
structure Call where
  number : Nat
  steps : List Instr
  todo : List Instr
  flags : Bool
  entry : Nat

/-- What a core has to come back to. -/
inductive Activation where
  | handler
  | call (k : Call)

/-- A core: its stack, uppermost first, its interrupt flag, and how many calls it made. -/
structure CoreState where
  stack : List Activation
  interrupts : Bool
  calls : Nat

/-- A character of the terminal, and the call that printed it. -/
structure Printed (Core : Type) where
  caller : Core × Nat
  char : UInt8

structure KprintfSys (Core : Type) where
  lock : LockSys Core
  cores : Core → CoreState
  terminal : List (Printed Core)

/-- The core is not in a call of its own: it runs other code, or a handler. -/
def CoreState.Outside (x : CoreState) : Prop := ∀ k rest, x.stack ≠ .call k :: rest

/-- The core is in the call `k`, and `i` is its next step. -/
def CoreState.Next (x : CoreState) (i : Instr) (k : Call) (todo : List Instr)
    (rest : List Activation) : Prop :=
  x.stack = .call k :: rest ∧ k.todo = i :: todo

def CoreState.goOn (x : CoreState) (k : Call) (todo : List Instr) (rest : List Activation) :
    CoreState :=
  { x with stack := .call { k with todo := todo } :: rest }

/-- **The steps of a core that touch neither the lock nor the terminal.** `count` is what it holds
    of the lock. An interrupt gate clears the flag, and `iret` sets it again. -/
inductive OwnStep (count : Nat) (x : CoreState) : CoreState → Prop where
  | call (steps : List Instr) (hcall : PrintCall steps) (hout : x.Outside) :
      OwnStep count x { x with stack := .call ⟨x.calls, steps, steps, false, count⟩ :: x.stack
                               calls := x.calls + 1 }
  | interrupt (h : x.interrupts = true) :
      OwnStep count x { x with stack := .handler :: x.stack, interrupts := false }
  | setInterrupts (b : Bool) (hout : x.Outside) : OwnStep count x { x with interrupts := b }
  | iret (rest : List Activation) (h : x.stack = .handler :: rest) :
      OwnStep count x { x with stack := rest, interrupts := true }
  | pushf (k : Call) (todo : List Instr) (rest : List Activation) (h : x.Next .pushf k todo rest) :
      OwnStep count x (x.goOn { k with flags := x.interrupts } todo rest)
  | cli (k : Call) (todo : List Instr) (rest : List Activation) (h : x.Next .cli k todo rest) :
      OwnStep count x { x.goOn k todo rest with interrupts := false }
  | popf (k : Call) (todo : List Instr) (rest : List Activation) (h : x.Next .popf k todo rest) :
      OwnStep count x { x.goOn k todo rest with interrupts := k.flags }
  | ret (k : Call) (rest : List Activation) (h : x.stack = .call k :: rest) (hend : k.todo = []) :
      OwnStep count x { x with stack := rest }

section Machine

variable {Core : Type} [DecidableEq Core]

def KprintfSys.setCore (S : KprintfSys Core) (c : Core) (x : CoreState) : KprintfSys Core :=
  { S with cores := Function.update S.cores c x }

theorem setCore_self {S : KprintfSys Core} {c : Core} {x : CoreState} :
    (S.setCore c x).cores c = x := Function.update_self _ _ _

/-- Core `c` has done the first of its steps. -/
def KprintfSys.goOn (S : KprintfSys Core) (c : Core) (k : Call) (todo : List Instr)
    (rest : List Activation) : KprintfSys Core :=
  S.setCore c ((S.cores c).goOn k todo rest)

variable (apicGetCoreId : Core → BitVec 32)

/-- **One step of core `c`.** Between the call of a lock function and the return from it the core
    takes the steps of the lock machine, until that has the core outside again. -/
inductive KprintfStep (S : KprintfSys Core) (c : Core) : KprintfSys Core → Prop where
  | own (x : CoreState) (h : OwnStep (recursionOf apicGetCoreId S.lock.state c) (S.cores c) x) :
      KprintfStep S c (S.setCore c x)
  | lockCall (k : Call) (todo : List Instr) (rest : List Activation)
      (h : (S.cores c).Next .lockCall k todo rest) :
      KprintfStep S c { S.goOn c k todo rest with lock := S.lock.goto c .lockLoad }
  | lockWork (k : Call) (todo : List Instr) (rest : List Activation) (L : LockSys Core)
      (h : (S.cores c).Next .lockReturn k todo rest) (hpc : S.lock.pc c ≠ .idle)
      (hs : LockStep apicGetCoreId S.lock c L) : KprintfStep S c { S with lock := L }
  | lockReturn (k : Call) (todo : List Instr) (rest : List Activation)
      (h : (S.cores c).Next .lockReturn k todo rest) (hpc : S.lock.pc c = .idle) :
      KprintfStep S c (S.goOn c k todo rest)
  | putchar (ch : UInt8) (k : Call) (todo : List Instr) (rest : List Activation)
      (h : (S.cores c).Next (.putchar ch) k todo rest) :
      KprintfStep S c { S.goOn c k todo rest with
                        terminal := S.terminal ++ [⟨(c, k.number), ch⟩] }
  | unlockCall (k : Call) (todo : List Instr) (rest : List Activation)
      (h : (S.cores c).Next .unlockCall k todo rest) :
      KprintfStep S c { S.goOn c k todo rest with lock := S.lock.goto c .unlockLoad }
  | unlockWork (k : Call) (todo : List Instr) (rest : List Activation) (L : LockSys Core)
      (h : (S.cores c).Next .unlockReturn k todo rest) (hpc : S.lock.pc c ≠ .idle)
      (hs : LockStep apicGetCoreId S.lock c L) : KprintfStep S c { S with lock := L }
  | unlockReturn (k : Call) (todo : List Instr) (rest : List Activation)
      (h : (S.cores c).Next .unlockReturn k todo rest) (hpc : S.lock.pc c = .idle) :
      KprintfStep S c (S.goOn c k todo rest)

/-- Nobody is in a call and nothing is printed. The lock is free, or a core holds it, any number
    of times. -/
structure KprintfStart (S : KprintfSys Core) : Prop where
  lock : LockInv apicGetCoreId S.lock
  outside : ∀ c, S.lock.pc c = .idle
  noCall : ∀ c, (S.cores c).stack = []
  terminal : S.terminal = []

/-- The states any interleaving reaches. -/
def KprintfReachable (S : KprintfSys Core) : Prop :=
  ∃ S₀, KprintfStart apicGetCoreId S₀ ∧
    Relation.ReflTransGen (fun S S' => ∃ c, KprintfStep apicGetCoreId S c S') S₀ S

variable {apicGetCoreId}

theorem KprintfReachable.step {S S' : KprintfSys Core} (h : KprintfReachable apicGetCoreId S)
    (c : Core) (hs : KprintfStep apicGetCoreId S c S') :
    KprintfReachable apicGetCoreId S' := by
  obtain ⟨S₀, hstart, hrun⟩ := h
  exact ⟨S₀, hstart, hrun.tail ⟨c, hs⟩⟩

end Machine

/-! ## 3. How far a call has come -/

inductive Stage where
  | entry
  | saved
  | masked
  | locking
  | printing (rest : List UInt8)
  | unlocking
  | unlocked
  | finished

/-- The steps to come of a call that prints `out`. -/
def Stage.todo (out : List UInt8) : Stage → List Instr
  | .entry => bracket out
  | .saved => .cli :: reentrantLock ++ body out
  | .masked => reentrantLock ++ body out
  | .locking => .lockReturn :: body out
  | .printing rest => body rest
  | .unlocking => .unlockReturn :: irqRestore
  | .unlocked => irqRestore
  | .finished => []

/-- The characters to come. -/
def Stage.left (out : List UInt8) : Stage → List UInt8
  | .entry | .saved | .masked | .locking => out
  | .printing rest => rest
  | .unlocking | .unlocked | .finished => []

/-- The stages at which the interrupt flag may be set. -/
def Stage.Open : Stage → Prop
  | .entry | .saved | .finished => True
  | _ => False

@[simp] theorem Stage.charsOf_todo (out : List UInt8) (s : Stage) :
    charsOf (s.todo out) = s.left out := by
  cases s with
  | printing rest => exact charsOf_body rest
  | entry => exact charsOf_body out
  | saved => exact charsOf_body out
  | masked => exact charsOf_body out
  | locking => exact charsOf_body out
  | unlocking => rfl
  | unlocked => rfl
  | finished => rfl

/-- **What the next step of a call can be**, at each of its stages. -/
theorem Stage.todo_cons {out : List UInt8} {s : Stage} {i : Instr} {todo : List Instr}
    (h : s.todo out = i :: todo) :
    (s = .entry ∧ i = .pushf ∧ todo = Stage.saved.todo out) ∨
    (s = .saved ∧ i = .cli ∧ todo = Stage.masked.todo out) ∨
    (s = .masked ∧ i = .lockCall ∧ todo = Stage.locking.todo out) ∨
    (s = .locking ∧ i = .lockReturn ∧ todo = (Stage.printing out).todo out) ∨
    (∃ ch rest, s = .printing (ch :: rest) ∧ i = .putchar ch ∧
      todo = (Stage.printing rest).todo out) ∨
    (s = .printing [] ∧ i = .unlockCall ∧ todo = Stage.unlocking.todo out) ∨
    (s = .unlocking ∧ i = .unlockReturn ∧ todo = Stage.unlocked.todo out) ∨
    (s = .unlocked ∧ i = .popf ∧ todo = Stage.finished.todo out) := by
  rcases s with _ | _ | _ | _ | (_ | ⟨ch, rest⟩) | _ | _ | _
  case finished => cases h
  case printing.cons =>
    obtain ⟨rfl, rfl⟩ := List.cons.inj h
    exact .inr (.inr (.inr (.inr (.inl ⟨_, _, rfl, rfl, rfl⟩))))
  all_goals obtain ⟨rfl, rfl⟩ := List.cons.inj h
  all_goals simp [Stage.todo, reentrantLock, irqRestore]

theorem Stage.eq_finished {out : List UInt8} {s : Stage} (h : s.todo out = []) :
    s = .finished := by
  rcases s with _ | _ | _ | _ | (_ | ⟨ch, rest⟩) | _ | _ | _
  case finished => rfl
  all_goals cases h

/-- A call at stage `s`, with `text` printed so far. -/
structure CallAt (text : List UInt8) (entry : Nat) (k : Call) (out : List UInt8) (s : Stage) :
    Prop where
  steps : k.steps = bracket out
  todo : k.todo = s.todo out
  text : text ++ s.left out = out
  entry : k.entry = entry

/-! ## 4. The invariant of a core -/

section Invariant

variable {Core : Type} [DecidableEq Core]

/-- What the `n`-th call of core `c` has printed. -/
def KprintfSys.textOf (S : KprintfSys Core) (c : Core) (n : Nat) : List UInt8 :=
  (own Printed.caller (c, n) S.terminal).map Printed.char

def callsOf (stack : List Activation) : List Call :=
  stack.filterMap fun a => match a with
    | .call k => some k
    | .handler => none

@[simp] theorem callsOf_call (k : Call) (rest : List Activation) :
    callsOf (.call k :: rest) = k :: callsOf rest := rfl

@[simp] theorem callsOf_handler (rest : List Activation) :
    callsOf (.handler :: rest) = callsOf rest := rfl

/-- Core `c` is outside the lock functions and holds the lock `held` times. -/
def KprintfSys.Away (S : KprintfSys Core) (held : Nat) (c : Core) : Prop :=
  S.lock.pc c = .idle ∧ S.lock.acquired c = S.lock.released c + held

/-- What holds while the uppermost call of core `c`, its `n`-th, is at a stage. -/
def Phase (S : KprintfSys Core) (base : Nat) (c : Core) (n : Nat) : Stage → Prop
  | .entry | .saved | .finished => S.Away base c
  | .masked | .unlocked => (S.cores c).interrupts = false ∧ S.Away base c
  | .locking => (S.cores c).interrupts = false ∧
      ((S.lock.pc c).inLock ∧ S.lock.acquired c = S.lock.released c + base ∨
        S.Away (base + 1) c)
  | .printing _ => (S.cores c).interrupts = false ∧ S.Away (base + 1) c ∧
      AtEnd Printed.caller (c, n) S.terminal
  | .unlocking => (S.cores c).interrupts = false ∧
      ((S.lock.pc c).inUnlock ∧ S.lock.acquired c = S.lock.released c + (base + 1) ∨
        S.Away base c)

/-- What holds of the uppermost activation. -/
def TopOk (S : KprintfSys Core) (base : Nat) (c : Core) : List Activation → Prop
  | .call k :: _ =>
      ∃ out s, CallAt (S.textOf c k.number) base k out s ∧ Phase S base c k.number s
  | _ => S.Away base c

/-- A call that waits for the return of a handler, or goes on: it is outside `cli` and `popf`. -/
def Resting (S : KprintfSys Core) (base : Nat) (c : Core) (k : Call) : Prop :=
  ∃ out s, CallAt (S.textOf c k.number) base k out s ∧ s.Open

/-- **The invariant of a core**, which held the lock `base` times at the start. -/
structure CoreOk (S : KprintfSys Core) (base : Nat) (c : Core) : Prop where
  fresh : ∀ n, (S.cores c).calls ≤ n → S.textOf c n = []
  known : ∀ k ∈ callsOf (S.cores c).stack, k.number < (S.cores c).calls
  distinct : ((callsOf (S.cores c).stack).map Call.number).Nodup
  resting : ∀ k ∈ callsOf (S.cores c).stack.tail, Resting S base c k
  top : TopOk S base c (S.cores c).stack

variable {S S' : KprintfSys Core} {base : Nat} {c : Core}

/-- The stages of an open interrupt flag are those away from the lock. -/
theorem phase_of_open {n : Nat} {s : Stage} (hs : s.Open) : Phase S base c n s ↔ S.Away base c := by
  cases s <;> first | exact Iff.rfl | exact hs.elim

theorem open_of_interrupts {n : Nat} {s : Stage} (h : Phase S base c n s)
    (hi : (S.cores c).interrupts = true) : s.Open := by
  have masked : ¬ (S.cores c).interrupts = false := by simp [hi]
  cases s with
  | entry => trivial
  | saved => trivial
  | finished => trivial
  | masked => exact masked h.1
  | locking => exact masked h.1
  | printing rest => exact masked h.1
  | unlocking => exact masked h.1
  | unlocked => exact masked h.1

theorem topOk_of_resting (haway : S.Away base c) {stack : List Activation}
    (h : ∀ k ∈ callsOf stack, Resting S base c k) : TopOk S base c stack := by
  rcases stack with _ | ⟨_ | k, rest⟩
  · exact haway
  · exact haway
  · obtain ⟨out, s, hat, hopen⟩ := h k List.mem_cons_self
    exact ⟨out, s, hat, (phase_of_open hopen).mpr haway⟩

/-- Where a core can start something else, all its calls rest. -/
theorem CoreOk.atRest (h : CoreOk S base c)
    (hq : (S.cores c).Outside ∨ (S.cores c).interrupts = true) :
    S.Away base c ∧ ∀ k ∈ callsOf (S.cores c).stack, Resting S base c k := by
  have htop := h.top
  have hrest := h.resting
  rcases hstack : (S.cores c).stack with _ | ⟨_ | k, rest⟩
  · rw [hstack] at htop
    exact ⟨htop, fun k hk => absurd hk List.not_mem_nil⟩
  · rw [hstack] at htop hrest
    exact ⟨htop, hrest⟩
  · rw [hstack] at htop hrest
    obtain ⟨out, s, hat, hphase⟩ := htop
    have hi : (S.cores c).interrupts = true := hq.resolve_left fun hout => hout k rest hstack
    have hopen := open_of_interrupts hphase hi
    refine ⟨(phase_of_open hopen).mp hphase, fun k' hk' => ?_⟩
    rcases List.mem_cons.mp hk' with rfl | hk'
    · exact ⟨out, s, hat, hopen⟩
    · exact hrest k' hk'

/-- The core goes to a stack of resting calls. -/
theorem CoreOk.rest (h : CoreOk S base c) {x : CoreState} (haway : S.Away base c)
    (hcalls : x.calls = (S.cores c).calls)
    (hsub : (callsOf x.stack).Sublist (callsOf (S.cores c).stack))
    (hrest : ∀ k ∈ callsOf x.stack, Resting S base c k) : CoreOk (S.setCore c x) base c := by
  have htail : (callsOf x.stack.tail).Sublist (callsOf x.stack) :=
    (List.tail_sublist x.stack).filterMap _
  constructor
  all_goals rw [setCore_self]
  · rw [hcalls]
    exact h.fresh
  · rw [hcalls]
    exact fun k hk => h.known k (hsub.subset hk)
  · exact h.distinct.sublist (hsub.map _)
  · exact fun k hk => hrest k (htail.subset hk)
  · exact topOk_of_resting (S := S.setCore c x) haway hrest

/-- The uppermost call `k` of the core becomes `k'`. -/
theorem CoreOk.setTop (h : CoreOk S base c) {k : Call} (k' : Call) {rest : List Activation}
    (hstack : (S.cores c).stack = .call k :: rest)
    (hstack' : (S'.cores c).stack = .call k' :: rest)
    (hcalls : (S'.cores c).calls = (S.cores c).calls) (hnum : k'.number = k.number)
    (htext : ∀ n, n ≠ k.number → S'.textOf c n = S.textOf c n)
    (htop : ∃ out s, CallAt (S'.textOf c k.number) base k' out s ∧ Phase S' base c k.number s) :
    CoreOk S' base c := by
  have hknown := h.known
  have hdistinct := h.distinct
  have hresting := h.resting
  rw [hstack] at hknown hdistinct hresting
  have hk : k.number < (S.cores c).calls := hknown k List.mem_cons_self
  constructor
  · intro n hn
    rw [hcalls] at hn
    rw [htext n (by omega)]
    exact h.fresh n hn
  · intro j hj
    rw [hstack', callsOf_call] at hj
    rw [hcalls]
    rcases List.mem_cons.mp hj with rfl | hj
    · omega
    · exact hknown j (List.mem_cons_of_mem k hj)
  · rw [hstack', callsOf_call, List.map_cons, hnum]
    exact hdistinct
  · intro j hj
    rw [hstack'] at hj
    obtain ⟨out, s, hat, hopen⟩ := hresting j hj
    have hne : j.number ≠ k.number := by
      intro he
      exact (List.nodup_cons.mp hdistinct).1 (he ▸ List.mem_map_of_mem hj)
    exact ⟨out, s, htext _ hne ▸ hat, hopen⟩
  · rw [hstack', TopOk, hnum]
    exact htop

omit [DecidableEq Core] in
theorem KprintfSys.Away.other {held : Nat} (h : S.Away held c)
    (hlock : LockSame S.lock S'.lock c) : S'.Away held c := by
  refine ⟨hlock.pc.trans h.1, ?_⟩
  rw [hlock.acquired, hlock.released]
  exact h.2

/-- A stage survives what other cores do, if a core that prints stays at the terminal's end. -/
theorem Phase.other {n : Nat} {s : Stage} (h : Phase S base c n s)
    (hcore : S'.cores c = S.cores c) (hlock : LockSame S.lock S'.lock c)
    (hend : S.lock.Holds c → AtEnd Printed.caller (c, n) S.terminal →
      AtEnd Printed.caller (c, n) S'.terminal) : Phase S' base c n s := by
  have haway : ∀ held, S.Away held c → S'.Away held c := fun _ h => h.other hlock
  cases s with
  | entry => exact haway _ h
  | saved => exact haway _ h
  | finished => exact haway _ h
  | masked => exact ⟨hcore ▸ h.1, haway _ h.2⟩
  | unlocked => exact ⟨hcore ▸ h.1, haway _ h.2⟩
  | locking =>
      refine ⟨hcore ▸ h.1, h.2.imp (fun hin => ?_) (haway _)⟩
      rw [hlock.pc, hlock.acquired, hlock.released]
      exact hin
  | printing rest =>
      obtain ⟨hi, hheld, hlast⟩ := h
      have hholds : S.lock.Holds c := by
        rw [LockSys.Holds, hheld.2]
        omega
      exact ⟨hcore ▸ hi, haway _ hheld, hend hholds hlast⟩
  | unlocking =>
      refine ⟨hcore ▸ h.1, h.2.imp (fun hin => ?_) (haway _)⟩
      rw [hlock.pc, hlock.acquired, hlock.released]
      exact hin

/-- Nothing that the invariant of core `c` speaks of has changed. -/
theorem CoreOk.other (h : CoreOk S base c) (hcore : S'.cores c = S.cores c)
    (hlock : LockSame S.lock S'.lock c) (htext : ∀ n, S'.textOf c n = S.textOf c n)
    (hend : S.lock.Holds c → ∀ n, AtEnd Printed.caller (c, n) S.terminal →
      AtEnd Printed.caller (c, n) S'.terminal) : CoreOk S' base c := by
  constructor
  all_goals rw [hcore]
  · intro n hn
    rw [htext]
    exact h.fresh n hn
  · exact h.known
  · exact h.distinct
  · intro k hk
    obtain ⟨out, s, hat, hopen⟩ := h.resting k hk
    exact ⟨out, s, (htext k.number).symm ▸ hat, hopen⟩
  · have htop := h.top
    rcases hstack : (S.cores c).stack with _ | ⟨_ | k, rest⟩
    · rw [hstack] at htop
      exact htop.other hlock
    · rw [hstack] at htop
      exact htop.other hlock
    · rw [hstack] at htop
      obtain ⟨out, s, hat, hs⟩ := htop
      exact ⟨out, s, (htext k.number).symm ▸ hat,
        hs.other hcore hlock fun hholds => hend hholds k.number⟩

/-! ## 5. Every step keeps the invariant -/

theorem CoreOk.next (h : CoreOk S base c) {i : Instr} {k : Call} {todo : List Instr}
    {rest : List Activation} (hn : (S.cores c).Next i k todo rest) :
    ∃ out s, CallAt (S.textOf c k.number) base k out s ∧ Phase S base c k.number s ∧
      s.todo out = i :: todo := by
  have htop := h.top
  rw [hn.1] at htop
  obtain ⟨out, s, hat, hphase⟩ := htop
  exact ⟨out, s, hat, hphase, hat.todo.symm.trans hn.2⟩

/-- The call goes on to a stage at which it has printed no more. -/
theorem CallAt.goOn {text : List UInt8} {entry : Nat} {k k' : Call} {out : List UInt8}
    {s s' : Stage} (h : CallAt text entry k out s) (hsteps : k'.steps = k.steps)
    (hentry : k'.entry = k.entry) (htodo : k'.todo = s'.todo out)
    (hleft : s'.left out = s.left out) : CallAt text entry k' out s' :=
  ⟨hsteps.trans h.steps, htodo, hleft ▸ h.text, hentry.trans h.entry⟩

/-- The uppermost call has done a step in which it prints nothing, and is now at stage `s'`. -/
theorem CoreOk.advance (h : CoreOk S base c) {i : Instr} {k : Call} {out : List UInt8}
    {s s' : Stage} {rest : List Activation} (hn : (S.cores c).Next i k (s'.todo out) rest)
    (hat : CallAt (S.textOf c k.number) base k out s) (hleft : s'.left out = s.left out)
    (hcore : S'.cores c = (S.cores c).goOn k (s'.todo out) rest)
    (hterm : S'.terminal = S.terminal) (hphase : Phase S' base c k.number s') :
    CoreOk S' base c := by
  have htext : ∀ n, S'.textOf c n = S.textOf c n := by
    intro n
    rw [KprintfSys.textOf, hterm]
    rfl
  refine h.setTop { k with todo := s'.todo out } hn.1 (by rw [hcore]; rfl) (by rw [hcore]; rfl) rfl
    (fun n _ => htext n) ⟨out, s', ?_, hphase⟩
  rw [htext]
  exact hat.goOn rfl rfl rfl hleft

/-- The core enters a new call that prints `out`, with the next number. -/
theorem CoreOk.call (h : CoreOk S base c) (haway : S.Away base c)
    (hrest : ∀ k ∈ callsOf (S.cores c).stack, Resting S base c k) {out : List UInt8} {count : Nat}
    (hcount : count = base) :
    CoreOk (S.setCore c
      { S.cores c with
        stack := .call ⟨(S.cores c).calls, bracket out, bracket out, false, count⟩
          :: (S.cores c).stack
        calls := (S.cores c).calls + 1 }) base c := by
  constructor
  all_goals rw [setCore_self]
  · exact fun n hn => h.fresh n (Nat.le_of_succ_le hn)
  · intro k hk
    rcases List.mem_cons.mp hk with rfl | hk
    · exact Nat.lt_succ_self _
    · exact Nat.lt_succ_of_lt (h.known k hk)
  · refine List.nodup_cons.mpr ⟨fun hmem => ?_, h.distinct⟩
    obtain ⟨k, hk, hnum⟩ := List.mem_map.mp hmem
    exact absurd (h.known k hk) (by rw [hnum]; exact Nat.lt_irrefl _)
  · exact hrest
  · refine ⟨out, .entry, ⟨rfl, rfl, ?_, hcount⟩, haway⟩
    show S.textOf c (S.cores c).calls ++ out = out
    rw [h.fresh _ (Nat.le_refl _), List.nil_append]

/-- **A step that touches neither the lock nor the terminal keeps the core's invariant.** -/
theorem coreOk_own {count : Nat} (h : CoreOk S base c) (hcount : S.Away base c → count = base)
    {x : CoreState} (hs : OwnStep count (S.cores c) x) : CoreOk (S.setCore c x) base c := by
  cases hs with
  | call steps hcall hout =>
      obtain ⟨haway, hrest⟩ := h.atRest (.inl hout)
      obtain ⟨out, rfl⟩ := hcall.eq_bracket
      exact h.call haway hrest (hcount haway)
  | interrupt hi =>
      obtain ⟨haway, hrest⟩ := h.atRest (.inr hi)
      exact h.rest haway rfl (List.Sublist.refl _) hrest
  | setInterrupts b hout =>
      obtain ⟨haway, hrest⟩ := h.atRest (.inl hout)
      exact h.rest haway rfl (List.Sublist.refl _) hrest
  | iret rest hstack =>
      have hsame : callsOf (S.cores c).stack = callsOf rest := by rw [hstack, callsOf_handler]
      have hout : (S.cores c).Outside := by
        intro k rest' he
        rw [hstack] at he
        cases he
      obtain ⟨haway, hrest⟩ := h.atRest (.inl hout)
      exact h.rest haway rfl (hsame ▸ List.Sublist.refl _) (hsame ▸ hrest)
  | ret k rest hstack hend =>
      have htop := h.top
      have hresting := h.resting
      rw [hstack] at htop hresting
      obtain ⟨out, s, hat, haway⟩ := htop
      obtain rfl : s = .finished := Stage.eq_finished (hat.todo.symm.trans hend)
      refine h.rest haway rfl ?_ hresting
      rw [hstack]
      exact List.sublist_cons_self k (callsOf rest)
  | pushf k todo rest hn =>
      obtain ⟨out, s, hat, hphase, htodo⟩ := h.next hn
      obtain ⟨rfl, rfl⟩ : s = .entry ∧ todo = Stage.saved.todo out := by
        simpa using Stage.todo_cons htodo
      exact h.setTop { k with todo := Stage.saved.todo out, flags := (S.cores c).interrupts } hn.1
        (by rw [setCore_self]; rfl) (by rw [setCore_self]; rfl) rfl (fun _ _ => rfl)
        ⟨out, .saved, hat.goOn rfl rfl rfl rfl, hphase⟩
  | cli k todo rest hn =>
      obtain ⟨out, s, hat, hphase, htodo⟩ := h.next hn
      obtain ⟨rfl, rfl⟩ : s = .saved ∧ todo = Stage.masked.todo out := by
        simpa using Stage.todo_cons htodo
      exact h.setTop { k with todo := Stage.masked.todo out } hn.1 (by rw [setCore_self]; rfl)
        (by rw [setCore_self]; rfl) rfl (fun _ _ => rfl)
        ⟨out, .masked, hat.goOn rfl rfl rfl rfl, by rw [setCore_self], hphase⟩
  | popf k todo rest hn =>
      obtain ⟨out, s, hat, hphase, htodo⟩ := h.next hn
      obtain ⟨rfl, rfl⟩ : s = .unlocked ∧ todo = Stage.finished.todo out := by
        simpa using Stage.todo_cons htodo
      exact h.setTop { k with todo := Stage.finished.todo out } hn.1 (by rw [setCore_self]; rfl)
        (by rw [setCore_self]; rfl) rfl (fun _ _ => rfl)
        ⟨out, .finished, hat.goOn rfl rfl rfl rfl, hphase.2⟩

section Ids

variable {apicGetCoreId : Core → BitVec 32} {base : Core → Nat}

/-- **The invariant of the machine.** -/
structure KprintfInv (apicGetCoreId : Core → BitVec 32) (base : Core → Nat)
    (S : KprintfSys Core) : Prop where
  lock : LockInv apicGetCoreId S.lock
  cores : ∀ c, CoreOk S (base c) c
  together : ∀ i, Together Printed.caller i S.terminal

/-- A step of core `c` that prints nothing is to be justified for core `c` alone. -/
theorem KprintfInv.act (hI : KprintfInv apicGetCoreId base S) (hterm : S'.terminal = S.terminal)
    (hlock : LockInv apicGetCoreId S'.lock)
    (hsame : ∀ c', c' ≠ c → S'.cores c' = S.cores c' ∧ LockSame S.lock S'.lock c')
    (hc : CoreOk S' (base c) c) : KprintfInv apicGetCoreId base S' where
  lock := hlock
  cores c' := by
    by_cases hcc : c' = c
    · exact hcc ▸ hc
    · obtain ⟨hcore, hsame⟩ := hsame c' hcc
      refine (hI.cores c').other hcore hsame (fun n => ?_) (fun _ n h => hterm.symm ▸ h)
      rw [KprintfSys.textOf, hterm]
      rfl
  together := hterm.symm ▸ hI.together

theorem goOn_other {c c' : Core} {k : Call} {todo : List Instr} {rest : List Activation}
    (hc : c' ≠ c) : (S.goOn c k todo rest).cores c' = S.cores c' := Function.update_of_ne hc _ _

theorem goOn_self {k : Call} {todo : List Instr} {rest : List Activation} :
    (S.goOn c k todo rest).cores c = (S.cores c).goOn k todo rest := setCore_self

theorem goOn_interrupts {k : Call} {todo : List Instr} {rest : List Activation} :
    ((S.goOn c k todo rest).cores c).interrupts = (S.cores c).interrupts := by
  rw [goOn_self]
  rfl

theorem lockSame_goto {c c' : Core} {p : LockPc} (hc : c' ≠ c) :
    LockSame S.lock (S.lock.goto c p) c' := ⟨Function.update_of_ne hc _ _, rfl, rfl⟩

/-- The terminal after the `n`-th call of core `c` printed `ch`. -/
theorem textOf_print_self {S' : KprintfSys Core} {c : Core} {n : Nat} {ch : UInt8}
    (hterm : S'.terminal = S.terminal ++ [⟨(c, n), ch⟩]) :
    S'.textOf c n = S.textOf c n ++ [ch] := by
  have hown : own Printed.caller (c, n) (S.terminal ++ [⟨(c, n), ch⟩])
      = own Printed.caller (c, n) S.terminal ++ [⟨(c, n), ch⟩] := own_concat_self rfl
  rw [KprintfSys.textOf, hterm, hown, List.map_append]
  rfl

theorem textOf_print_other {S' : KprintfSys Core} {c c' : Core} {n n' : Nat} {ch : UInt8}
    (hterm : S'.terminal = S.terminal ++ [⟨(c, n), ch⟩]) (hne : (c, n) ≠ (c', n')) :
    S'.textOf c' n' = S.textOf c' n' := by
  have hown : own Printed.caller (c', n') (S.terminal ++ [⟨(c, n), ch⟩])
      = own Printed.caller (c', n') S.terminal := own_concat_other hne
  rw [KprintfSys.textOf, hterm, hown]
  rfl

/-- A core prints only while it holds the lock, so no other core's call is printing. -/
theorem KprintfInv.print (hI : KprintfInv apicGetCoreId base S) {ch : UInt8} {k : Call}
    {todo : List Instr} {rest : List Activation}
    (hn : (S.cores c).Next (.putchar ch) k todo rest) :
    KprintfInv apicGetCoreId base
      { S.goOn c k todo rest with terminal := S.terminal ++ [⟨(c, k.number), ch⟩] } := by
  have h := hI.cores c
  obtain ⟨out, s, hat, hphase, htodo⟩ := h.next hn
  obtain ⟨left, rfl, rfl⟩ : ∃ left, s = .printing (ch :: left) ∧
      todo = (Stage.printing left).todo out := by
    simpa using Stage.todo_cons htodo
  obtain ⟨hi, haway, hlast⟩ := hphase
  have hholds : S.lock.Holds c := by
    rw [LockSys.Holds, haway.2]
    omega
  refine ⟨hI.lock, fun c' => ?_, together_concat hI.together hlast⟩
  by_cases hcc : c' = c
  · subst hcc
    refine h.setTop { k with todo := (Stage.printing left).todo out } hn.1
      (by simp only [goOn_self]; rfl) (by simp only [goOn_self]; rfl) rfl (fun n hne => ?_)
      ⟨out, .printing left, ⟨hat.steps, rfl, ?_, hat.entry⟩, goOn_interrupts.trans hi,
        haway, hlast.concat rfl⟩
    · exact textOf_print_other rfl fun he => hne (Prod.mk.inj he).2.symm
    · rw [textOf_print_self rfl, List.append_assoc]
      exact hat.text
  · refine (hI.cores c').other (goOn_other hcc) ⟨rfl, rfl, rfl⟩ (fun n => ?_) (fun hh => ?_)
    · exact textOf_print_other rfl fun he => hcc (Prod.mk.inj he).1.symm
    · exact absurd (balanced_of_holds hI.lock.word hholds hcc) (Nat.ne_of_gt hh)

/-- A step inside `reentrant_lock`: the core stays inside, or it has one acquisition more. -/
theorem CoreOk.lockWork {base : Nat} (h : CoreOk S base c) {k : Call} {todo : List Instr}
    {rest : List Activation} (hn : (S.cores c).Next .lockReturn k todo rest)
    (hpc : S.lock.pc c ≠ .idle) {L : LockSys Core} (hstep : LockStep apicGetCoreId S.lock c L) :
    CoreOk { S with lock := L } base c := by
  obtain ⟨out, s, hat, hphase, htodo⟩ := h.next hn
  obtain ⟨rfl, rfl⟩ : s = .locking ∧ todo = (Stage.printing out).todo out := by
    simpa using Stage.todo_cons htodo
  obtain ⟨hi, hwhere⟩ := hphase
  obtain ⟨hin, hheld⟩ := hwhere.resolve_right fun haway => hpc haway.1
  obtain ⟨hrel, hnext⟩ := lockCall_step hin hstep
  refine h.setTop k hn.1 hn.1 rfl rfl (fun _ _ => rfl) ⟨out, .locking, hat, hi, ?_⟩
  rcases hnext with ⟨hin', hacq⟩ | ⟨hidle, hacq⟩
  · refine .inl ⟨hin', ?_⟩
    show L.acquired c = L.released c + base
    omega
  · refine .inr ⟨hidle, ?_⟩
    show L.acquired c = L.released c + (base + 1)
    omega

/-- A step inside `reentrant_unlock`: the core stays inside, or it has one release more. It holds
    the lock there, so it cannot return early. -/
theorem CoreOk.unlockWork {base : Nat} (hid : ∀ c, (apicGetCoreId c).toNat < 2 ^ 16)
    (hW : WordOk apicGetCoreId S.lock) (h : CoreOk S base c) {k : Call} {todo : List Instr}
    {rest : List Activation} (hn : (S.cores c).Next .unlockReturn k todo rest)
    (hpc : S.lock.pc c ≠ .idle) {L : LockSys Core} (hstep : LockStep apicGetCoreId S.lock c L) :
    CoreOk { S with lock := L } base c := by
  obtain ⟨out, s, hat, hphase, htodo⟩ := h.next hn
  obtain ⟨rfl, rfl⟩ : s = .unlocking ∧ todo = Stage.unlocked.todo out := by
    simpa using Stage.todo_cons htodo
  obtain ⟨hi, hwhere⟩ := hphase
  obtain ⟨hin, hheld⟩ := hwhere.resolve_right fun haway => hpc haway.1
  have hholds : S.lock.Holds c := by
    rw [LockSys.Holds, hheld]
    omega
  obtain ⟨hacq, hnext⟩ := unlockCall_step hid hW hholds hin hstep
  refine h.setTop k hn.1 hn.1 rfl rfl (fun _ _ => rfl) ⟨out, .unlocking, hat, hi, ?_⟩
  rcases hnext with ⟨hin', hrel⟩ | ⟨hidle, hrel⟩
  · refine .inl ⟨hin', ?_⟩
    show L.acquired c = L.released c + (base + 1)
    omega
  · refine .inr ⟨hidle, ?_⟩
    show L.acquired c = L.released c + base
    omega

variable (hid : ∀ c, (apicGetCoreId c).toNat < 2 ^ 16) (hinj : Function.Injective apicGetCoreId)

include hid hinj

/-- **Every step of every core keeps the invariant.** -/
theorem kprintfInv_step (hI : KprintfInv apicGetCoreId base S)
    (hs : KprintfStep apicGetCoreId S c S') : KprintfInv apicGetCoreId base S' := by
  have h := hI.cores c
  cases hs with
  | own x hx =>
      refine hI.act rfl hI.lock (fun c' hc' => ⟨Function.update_of_ne hc' _ _, rfl, rfl, rfl⟩)
        (coreOk_own h (fun haway => ?_) hx)
      have hcount := recursionOf_eq hid hinj hI.lock.word c
      have hheld := haway.2
      omega
  | lockCall k todo rest hn =>
      obtain ⟨out, s, hat, hphase, htodo⟩ := h.next hn
      obtain ⟨rfl, rfl⟩ : s = .masked ∧ todo = Stage.locking.todo out := by
        simpa using Stage.todo_cons htodo
      obtain ⟨hi, hidle, hheld⟩ := hphase
      refine hI.act rfl (lockInv_step hid hinj hI.lock (.callLock hidle))
        (fun c' hc' => ⟨goOn_other hc', lockSame_goto hc'⟩) ?_
      refine h.advance hn hat rfl goOn_self rfl ⟨goOn_interrupts.trans hi, .inl ⟨?_, hheld⟩⟩
      simp only [LockSys.goto, Function.update_self]
      trivial
  | lockReturn k todo rest hn hpc =>
      obtain ⟨out, s, hat, hphase, htodo⟩ := h.next hn
      obtain ⟨rfl, rfl⟩ : s = .locking ∧ todo = (Stage.printing out).todo out := by
        simpa using Stage.todo_cons htodo
      obtain ⟨hi, hwhere⟩ := hphase
      have haway : S.Away (base c + 1) c :=
        hwhere.resolve_left fun hin => LockPc.not_idle_of_inLock hin.1 hpc
      -- the call has printed nothing yet
      have hnone : own Printed.caller (c, k.number) S.terminal = [] :=
        List.map_eq_nil_iff.mp (List.append_left_eq_self.mp hat.text)
      refine hI.act rfl hI.lock (fun c' hc' => ⟨goOn_other hc', rfl, rfl, rfl⟩) ?_
      exact h.advance hn hat rfl goOn_self rfl
        ⟨goOn_interrupts.trans hi, haway, atEnd_of_own_eq_nil hnone⟩
  | lockWork k todo rest L hn hpc hstep =>
      exact hI.act rfl (lockInv_step hid hinj hI.lock hstep)
        (fun c' hc' => ⟨rfl, lockStep_other hstep hc'⟩) (h.lockWork hn hpc hstep)
  | unlockCall k todo rest hn =>
      obtain ⟨out, s, hat, hphase, htodo⟩ := h.next hn
      obtain ⟨rfl, rfl⟩ : s = .printing [] ∧ todo = Stage.unlocking.todo out := by
        simpa using Stage.todo_cons htodo
      obtain ⟨hi, ⟨hidle, hheld⟩, _⟩ := hphase
      refine hI.act rfl (lockInv_step hid hinj hI.lock (.callUnlock hidle))
        (fun c' hc' => ⟨goOn_other hc', lockSame_goto hc'⟩) ?_
      refine h.advance hn hat rfl goOn_self rfl ⟨goOn_interrupts.trans hi, .inl ⟨?_, hheld⟩⟩
      simp only [LockSys.goto, Function.update_self]
      trivial
  | unlockWork k todo rest L hn hpc hstep =>
      exact hI.act rfl (lockInv_step hid hinj hI.lock hstep)
        (fun c' hc' => ⟨rfl, lockStep_other hstep hc'⟩)
        (h.unlockWork hid hI.lock.word hn hpc hstep)
  | unlockReturn k todo rest hn hpc =>
      obtain ⟨out, s, hat, hphase, htodo⟩ := h.next hn
      obtain ⟨rfl, rfl⟩ : s = .unlocking ∧ todo = Stage.unlocked.todo out := by
        simpa using Stage.todo_cons htodo
      obtain ⟨hi, hwhere⟩ := hphase
      have haway : S.Away (base c) c :=
        hwhere.resolve_left fun hin => LockPc.not_idle_of_inUnlock hin.1 hpc
      refine hI.act rfl hI.lock (fun c' hc' => ⟨goOn_other hc', rfl, rfl, rfl⟩) ?_
      exact h.advance hn hat rfl goOn_self rfl ⟨goOn_interrupts.trans hi, haway⟩
  | putchar ch k todo rest hn => exact hI.print hn

omit hid hinj [DecidableEq Core] in
theorem mem_callsOf {k : Call} {stack : List Activation} (h : .call k ∈ stack) :
    k ∈ callsOf stack := List.mem_filterMap.mpr ⟨.call k, h, rfl⟩

omit hid hinj in
/-- Every call under way has printed all but the characters to come. -/
theorem CoreOk.callAt {base : Nat} (h : CoreOk S base c) {k : Call}
    (hk : k ∈ callsOf (S.cores c).stack) :
    ∃ out s, CallAt (S.textOf c k.number) base k out s := by
  have htop := h.top
  have hresting := h.resting
  rcases hstack : (S.cores c).stack with _ | ⟨_ | k', rest⟩
  · rw [hstack] at hk
    exact absurd hk List.not_mem_nil
  · rw [hstack] at hk hresting
    obtain ⟨out, s, hat, _⟩ := hresting k hk
    exact ⟨out, s, hat⟩
  · rw [hstack] at hk htop hresting
    rcases List.mem_cons.mp hk with rfl | hk
    · obtain ⟨out, s, hat, _⟩ := htop
      exact ⟨out, s, hat⟩
    · obtain ⟨out, s, hat, _⟩ := hresting k hk
      exact ⟨out, s, hat⟩

theorem kprintfInv_start (h : KprintfStart apicGetCoreId S) :
    KprintfInv apicGetCoreId (recursionOf apicGetCoreId S.lock.state) S where
  lock := h.lock
  cores c := by
    have haway : S.Away (recursionOf apicGetCoreId S.lock.state c) c :=
      ⟨h.outside c, recursionOf_eq hid hinj h.lock.word c⟩
    constructor
    · intro n _
      rw [KprintfSys.textOf, h.terminal]
      rfl
    all_goals rw [h.noCall c]
    · exact fun k hk => absurd hk List.not_mem_nil
    · exact List.nodup_nil
    · exact fun k hk => absurd hk List.not_mem_nil
    · exact haway
  together i := by
    rw [Together, h.terminal]
    exact List.infix_refl []

theorem kprintfInv_reachable (h : KprintfReachable apicGetCoreId S) :
    ∃ base, KprintfInv apicGetCoreId base S := by
  obtain ⟨S₀, hstart, hrun⟩ := h
  refine ⟨recursionOf apicGetCoreId S₀.lock.state, ?_⟩
  induction hrun with
  | refl => exact kprintfInv_start hid hinj hstart
  | tail _ hs ih =>
      obtain ⟨c, hs⟩ := hs
      exact kprintfInv_step hid hinj ih hs

end Ids

end Invariant

/-- **A call prints in one piece, and gives the lock back as it found it**: for any set of cores
    with distinct ids below 65536, in every state that any interleaving of calls, handlers and
    lock steps reaches, the characters of each call are one block of the terminal's characters;
    what a call under way has printed and has still to print is what the function prints; and
    where a call is at its return, its core holds the lock as often as at its entry. -/
theorem kprintf_atomic {Core : Type} [DecidableEq Core] {apicGetCoreId : Core → BitVec 32}
    (hid : ∀ c, (apicGetCoreId c).toNat < 2 ^ 16) (hinj : Function.Injective apicGetCoreId)
    {S : KprintfSys Core} (h : KprintfReachable apicGetCoreId S) :
    (∀ c n, Together Printed.caller (c, n) S.terminal) ∧
    (∀ c k, .call k ∈ (S.cores c).stack →
      S.textOf c k.number ++ charsOf k.todo = charsOf k.steps) ∧
    (∀ c k rest, (S.cores c).stack = .call k :: rest → k.todo = [] →
      recursionOf apicGetCoreId S.lock.state c = k.entry) := by
  obtain ⟨base, hI⟩ := kprintfInv_reachable hid hinj h
  refine ⟨fun c n => hI.together (c, n), fun c k hk => ?_, fun c k rest hstack hend => ?_⟩
  · obtain ⟨out, s, hat⟩ := (hI.cores c).callAt (mem_callsOf hk)
    rw [hat.todo, hat.steps, Stage.charsOf_todo, charsOf_bracket]
    exact hat.text
  · have htop := (hI.cores c).top
    rw [hstack] at htop
    obtain ⟨out, s, hat, haway⟩ := htop
    obtain rfl : s = .finished := Stage.eq_finished (hat.todo.symm.trans hend)
    have hcount := recursionOf_eq hid hinj hI.lock.word c
    have hheld := haway.2
    have hentry := hat.entry
    omega

/-- Two cores, ids 0 and 1, at boot. -/
def twoCores : KprintfSys (Fin 2) := ⟨.boot (Fin 2), fun _ => ⟨[], true, 0⟩, []⟩

/-- The first call of a core, of the format `ab`, with its flags saved or not. -/
def lettersCall (flags : Bool) (s : Stage) : Call :=
  ⟨0, bracket [0x61, 0x62], s.todo [0x61, 0x62], flags, 0⟩

/-- Both cores read the free lock. Core 0 takes it and prints; the compare-exchange of core 1 fails,
    it spins between the two letters, and takes the lock when core 0 has left it. -/
theorem kprintf_atomic_twoCores :
    ∃ S : KprintfSys (Fin 2), KprintfReachable (fun c => BitVec.ofNat 32 c.val) S ∧
      (∀ c n, Together Printed.caller (c, n) S.terminal) ∧
      ∀ c, (S.cores c).stack = [.call (lettersCall true .finished)] ∧
        S.textOf c 0 = [0x61, 0x62] ∧
        recursionOf (fun c : Fin 2 => BitVec.ofNat 32 c.val) S.lock.state c = 0 := by
  have hcall : PrintCall (bracket [0x61, 0x62]) :=
    .vkprintf ⟨fun _ => ⟨[0], ⟨0, by decide, rfl⟩, 0, 0⟩, fun _ => [], fun _ _ _ => []⟩ 0
      [0x61, 0x62] [] rfl
  have houtside : ∀ k rest, ([] : List Activation) ≠ .call k :: rest := by
    intro k rest h
    cases h
  have hboot : KprintfReachable (fun c : Fin 2 => BitVec.ofNat 32 c.val) twoCores :=
    ⟨twoCores, ⟨lockInv_boot _, fun _ => rfl, fun _ => rfl, rfl⟩, .refl⟩
  -- both come to the compare-exchange
  have hmasked₀ := ((hboot.step 0 (.own _ (.call _ hcall houtside))).step 0
    (.own _ (.pushf (lettersCall false .entry) _ [] ⟨rfl, rfl⟩))).step 0
    (.own _ (.cli (lettersCall true .saved) _ [] ⟨rfl, rfl⟩))
  have hread₀ := ((hmasked₀.step 0 (.lockCall (lettersCall true .masked) _ [] ⟨rfl, rfl⟩)).step 0
    (.lockWork (lettersCall true .locking) _ [] _ ⟨rfl, rfl⟩ (by decide) (.lockLoad rfl))).step 0
    (.lockWork (lettersCall true .locking) _ [] _ ⟨rfl, rfl⟩ (by decide) (.tryLoad true rfl))
  have hmasked₁ := ((hread₀.step 1 (.own _ (.call _ hcall houtside))).step 1
    (.own _ (.pushf (lettersCall false .entry) _ [] ⟨rfl, rfl⟩))).step 1
    (.own _ (.cli (lettersCall true .saved) _ [] ⟨rfl, rfl⟩))
  have hread₁ := ((hmasked₁.step 1 (.lockCall (lettersCall true .masked) _ [] ⟨rfl, rfl⟩)).step 1
    (.lockWork (lettersCall true .locking) _ [] _ ⟨rfl, rfl⟩ (by decide) (.lockLoad rfl))).step 1
    (.lockWork (lettersCall true .locking) _ [] _ ⟨rfl, rfl⟩ (by decide) (.tryLoad true rfl))
  -- core 0 is first, and prints its first letter
  have hlocked₀ := (hread₁.step 0
    (.lockWork (lettersCall true .locking) _ [] _ ⟨rfl, rfl⟩ (by decide)
      (.tryCasOk true 0 (lockWord 0 1) rfl rfl))).step 0
    (.lockReturn (lettersCall true .locking) _ [] ⟨rfl, rfl⟩ rfl)
  have hfirst₀ := hlocked₀.step 0
    (.putchar 0x61 (lettersCall true (.printing [0x61, 0x62])) _ [] ⟨rfl, rfl⟩)
  have hspin₁ := (hfirst₀.step 1
    (.lockWork (lettersCall true .locking) _ [] _ ⟨rfl, rfl⟩ (by decide)
      (.tryCasFail true 0 (lockWord 1 1) rfl))).step 1
    (.lockWork (lettersCall true .locking) _ [] _ ⟨rfl, rfl⟩ (by decide) (.lockSpin rfl))
  have hsecond₀ := hspin₁.step 0
    (.putchar 0x62 (lettersCall true (.printing [0x62])) _ [] ⟨rfl, rfl⟩)
  have hunlocked₀ := ((hsecond₀.step 0
    (.unlockCall (lettersCall true (.printing [])) _ [] ⟨rfl, rfl⟩)).step 0
    (.unlockWork (lettersCall true .unlocking) _ [] _ ⟨rfl, rfl⟩ (by decide)
      (.unlockLoad rfl))).step 0
    (.unlockWork (lettersCall true .unlocking) _ [] _ ⟨rfl, rfl⟩ (by decide)
      (.unlockCasOk (lockWord 0 1) 0 rfl rfl))
  have hfinished₀ := (hunlocked₀.step 0
    (.unlockReturn (lettersCall true .unlocking) _ [] ⟨rfl, rfl⟩ rfl)).step 0
    (.own _ (.popf (lettersCall true .unlocked) _ [] ⟨rfl, rfl⟩))
  -- then core 1
  have htaken₁ := ((hfinished₀.step 1
    (.lockWork (lettersCall true .locking) _ [] _ ⟨rfl, rfl⟩ (by decide) (.lockSpin rfl))).step 1
    (.lockWork (lettersCall true .locking) _ [] _ ⟨rfl, rfl⟩ (by decide) (.tryLoad true rfl))).step
    1 (.lockWork (lettersCall true .locking) _ [] _ ⟨rfl, rfl⟩ (by decide)
      (.tryCasOk true 0 (lockWord 1 1) rfl rfl))
  have hprinted₁ := ((htaken₁.step 1
    (.lockReturn (lettersCall true .locking) _ [] ⟨rfl, rfl⟩ rfl)).step 1
    (.putchar 0x61 (lettersCall true (.printing [0x61, 0x62])) _ [] ⟨rfl, rfl⟩)).step 1
    (.putchar 0x62 (lettersCall true (.printing [0x62])) _ [] ⟨rfl, rfl⟩)
  have hunlocked₁ := ((hprinted₁.step 1
    (.unlockCall (lettersCall true (.printing [])) _ [] ⟨rfl, rfl⟩)).step 1
    (.unlockWork (lettersCall true .unlocking) _ [] _ ⟨rfl, rfl⟩ (by decide)
      (.unlockLoad rfl))).step 1
    (.unlockWork (lettersCall true .unlocking) _ [] _ ⟨rfl, rfl⟩ (by decide)
      (.unlockCasOk (lockWord 1 1) 0 rfl rfl))
  have hfinished₁ := (hunlocked₁.step 1
    (.unlockReturn (lettersCall true .unlocking) _ [] ⟨rfl, rfl⟩ rfl)).step 1
    (.own _ (.popf (lettersCall true .unlocked) _ [] ⟨rfl, rfl⟩))
  obtain ⟨htogether, htext, hcount⟩ := kprintf_atomic (fun c : Fin 2 => by decide +revert)
    (by intro a b h; revert h; decide +revert) hfinished₁
  refine ⟨_, hfinished₁, htogether, fun c => ?_⟩
  match c with
  | 0 =>
      exact ⟨rfl, htext 0 (lettersCall true .finished) List.mem_cons_self,
        hcount 0 (lettersCall true .finished) [] rfl rfl⟩
  | 1 =>
      exact ⟨rfl, htext 1 (lettersCall true .finished) List.mem_cons_self,
        hcount 1 (lettersCall true .finished) [] rfl rfl⟩

end MapleKernel.Stdio
