/-
  File:      Cpu/WakeCore.lean
  Subject:   WAKING A CORE (`apic::wake_core`): two SIPIs, a short poll and twenty long polls
             over one asynchronous timer flag.

  The boot processor, the PIT and the application processor take turns in any order. The PIT
  raises its line only while it is armed, a single shot only once, and the boot processor takes
  the interrupt only while its interrupt flag is set. `set_pit_count` clears that flag:
  `pit::wait` sets it again before it halts, `short_timeout_async` leaves it to its caller, and
  `wake_core` never does. So the interrupt of the short poll stays pending, `finished` stays 0,
  and the poll ends only by the core that boots.

  * `wakeBsp` -- one statement of the boot processor; the timer command and the interrupt
    handler are those of `Timers/Pit.lean`;
  * `shortTimeoutAsync_inlined` -- its statements for a timeout are a call of
    `short_timeout_async`;
  * `raiseIrq` -- the timer's line goes up: handled at once, or pending until `sti`;
  * `handled` -- ghost data: who armed the interrupts handled since the second SIPI;
  * `NotEarly` -- a timeout is reported only after twenty such interrupts, success only after
    the core was seen booted and told to start;
  * `WakeInv` -- what every statement and every interrupt keep, by the position of the boot
    processor; `wakeCore_notEarly` -- so it holds in every run, and no run reports a timeout.

  IPI delivery succeeds, as do the asserts on the arguments of `send_sipi`.
-/
import MapleKernel.Timers.Pit

namespace MapleKernel.Cpu

open Runs Timers

/-! ## 1. The machine -/

/-- `apic::error`, as far as `wake_core` returns it. -/
inductive ApicError where
  | none | timeoutSendingIpi | badTime | bootCoreTimeout
  deriving DecidableEq, Repr

/-- The call that armed the timer. -/
inductive ArmedBy where
  | pitWait
  | shortPoll
  | longPoll (i : Nat)
  deriving DecidableEq, Repr

def ArmedBy.isLongPoll : ArmedBy → Bool
  | .longPoll _ => true
  | _ => false

/-- Channel 0 of the timer: nothing to come, one interrupt to come, or interrupts for ever. -/
inductive PitTimer where
  | idle
  | singleShot (armer : ArmedBy)
  | rateGenerator
  deriving DecidableEq, Repr

/-- `EFLAGS.IF` of the boot processor; while it is clear, a PIT interrupt is pending. -/
inductive InterruptFlag where
  | enabled
  | disabled (pending : Option ArmedBy)
  deriving DecidableEq, Repr

/-- `__cli`. -/
def InterruptFlag.cli : InterruptFlag → InterruptFlag
  | .enabled => .disabled none
  | .disabled pending => .disabled pending

/-- Where `pit::wait` returns to: `send_init` or `wake_core`. -/
inductive WaitReturn where
  | sendInit | wakeCore
  deriving DecidableEq, Repr

/-- The statements of `wake_core`, with `send_init`, `pit::wait` and `short_timeout_async`
    inlined. -/
inductive WakePc where
  | initAssert
  | waitStart (k : WaitReturn)
  | waitCycle (k : WaitReturn) (left : Nat)
  | waitClear (k : WaitReturn) (left : Option Nat)
  | waitSti (k : WaitReturn) (left : Option Nat)
  | waitHlt (k : WaitReturn) (left : Option Nat)
  | initDeassert
  | firstSipi
  | shortRegister
  | shortSend
  | shortBooted
  | shortFinished
  | secondSipi
  | longRegister (i : Nat)
  | longSend (i : Nat)
  | longBooted (i : Nat)
  | longFinished (i : Nat)
  | tellCore
  | returned (e : ApicError)
  | aborted
  deriving DecidableEq, Repr

structure WakeState where
  pit : PitState
  timer : PitTimer
  flag : InterruptFlag
  pc : WakePc
  coreHasBooted : Bool
  masterTellsCoreToStart : Bool
  seenBooted : Bool
  handled : List ArmedBy

/-- The call, over any PIT state, any timer, any interrupt flag and an application processor in
    any state. -/
def WakeState.call (pit : PitState) (timer : PitTimer) (flag : InterruptFlag)
    (booted told : Bool) : WakeState :=
  { pit, timer, flag, pc := .initAssert, coreHasBooted := booted, masterTellsCoreToStart := told,
    seenBooted := false, handled := [] }

def timeoutCount : Nat := 1000 / 50

/-- `pit::start_loop_wait`: `0x34` is the rate generator on channel 0. -/
def startLoopWait (freqDividerCount : Nat) (s : PitState) : PitState :=
  let count := if freqDividerCount = maxFreqDivider + 1 then 0 else freqDividerCount
  setPitCount (count % 2 ^ 16) { s with outb := s.outb ++ [(0x43, 0x34)] }

/-- The times `wake_core` waits for, and the address of its local flag. -/
structure WakeParams (Seconds : Type) where
  nonPositive : Seconds → Bool
  computePitWait : Seconds → PitWaitSplit
  tenMs : Seconds
  oneMs : Seconds
  fiftyMs : Seconds
  finished : Addr
  tenMs_positive : nonPositive tenMs = false

/-- The handler runs for an interrupt that `a` armed. -/
def handleIrq (s : WakeState) (a : ArmedBy) : WakeState :=
  { s with pit := (pitInterruptHandler s.pit).1, handled := s.handled ++ [a] }

/-- The timer's line goes up. A second edge merges with a pending one. -/
def raiseIrq (s : WakeState) (a : ArmedBy) : WakeState :=
  match s.flag with
  | .enabled => handleIrq s a
  | .disabled pending => { s with flag := .disabled (some (pending.getD a)) }

/-- `__sti`, and the pending interrupt with it. -/
def sti (s : WakeState) : WakeState :=
  match s.flag with
  | .enabled => s
  | .disabled none => { s with flag := .enabled }
  | .disabled (some a) => handleIrq { s with flag := .enabled } a

section Machine

variable {Seconds : Type} (W : WakeParams Seconds)

def WaitReturn.next : WaitReturn → WakePc
  | .sendInit => .initDeassert
  | .wakeCore => .firstSipi

/-- `short_timeout_async` up to its timer command, and what `wake_core` does with a return code
    other than 0. -/
def registerTimeout (s : WakeState) (t : Seconds) (newTimeout : Bool) (next : WakePc) :
    WakeState :=
  if W.nonPositive t then { s with pc := .returned .badTime }
  else if 0 < (W.computePitWait t).fullCycles then { s with pc := .returned .badTime }
  else if newTimeout then
    if s.pit.pitWriteIndex < pitMaxMsg then
      { s with
        pit := { s.pit with
          mem := Function.update s.pit.mem W.finished 0
          pitMsgAddress :=
            Function.update s.pit.pitMsgAddress s.pit.pitWriteIndex (some W.finished)
          pitMsgValue := Function.update s.pit.pitMsgValue s.pit.pitWriteIndex 1
          pitIsNewTimeout := true
          pitWriteIndex := (s.pit.pitWriteIndex + 1) % 2 ^ 8 }
        pc := next }
    else
      { s with
        pit := { s.pit with aborted := some "Overflowed, too many mesg, out of space\n" }
        pc := .aborted }
  else { s with pc := next }

/-- `send_wait_count_command` for a call that arms the timer once: `set_pit_count` clears the
    interrupt flag. -/
def sendTimeout (s : WakeState) (t : Seconds) (armer : ArmedBy) (next : WakePc) : WakeState :=
  { s with pit := sendWaitCountCommand (W.computePitWait t).reminderPitCount s.pit
           timer := .singleShot armer, flag := s.flag.cli, pc := next }

/-- With nothing between them the two are a call of `short_timeout_async` that returns 0. -/
theorem shortTimeoutAsync_inlined {s : WakeState} {t : Seconds} {newTimeout : Bool}
    {p : PitState}
    (hcall : shortTimeoutAsync W.nonPositive W.computePitWait t W.finished newTimeout s.pit
      = (0, p)) (halive : p.aborted = none) (armer : ArmedBy) (next next' : WakePc) :
    (sendTimeout W (registerTimeout W s t newTimeout next) t armer next').pit = p := by
  unfold shortTimeoutAsync at hcall
  split at hcall
  · exact absurd (congrArg Prod.fst hcall) Nat.one_ne_zero
  · next hpos =>
    dsimp only at hcall
    split at hcall
    · exact absurd (congrArg Prod.fst hcall) (Nat.succ_ne_zero 1)
    · next hcycles =>
      unfold sendTimeout registerTimeout
      rw [if_neg hpos, if_neg hcycles]
      split at hcall
      · next hnew =>
        rw [if_pos hnew]
        split at hcall
        · next hroom =>
          rw [if_pos hroom]
          exact congrArg Prod.snd hcall
        · have habort : p.aborted = some _ :=
            congrArg (fun r => r.2.aborted) hcall.symm
          rw [halive] at habort
          exact absurd habort (Option.some_ne_none _).symm
      · next hnew =>
        rw [if_neg hnew]
        exact congrArg Prod.snd hcall

/-- **One statement of the boot processor.** -/
def wakeBsp (s : WakeState) : WakeState :=
  match s.pc with
  | .initAssert => { s with pc := .waitStart .sendInit }
  | .waitStart k =>
      if W.nonPositive W.tenMs then { s with pc := k.next }
      else if 0 < (W.computePitWait W.tenMs).fullCycles then
        { s with pit := startLoopWait (maxFreqDivider + 1) s.pit, timer := .rateGenerator,
                 flag := s.flag.cli
                 pc := .waitCycle k (W.computePitWait W.tenMs).fullCycles }
      else { s with pc := .waitCycle k 0 }
  | .waitCycle k 0 => sendTimeout W s W.tenMs .pitWait (.waitClear k none)
  | .waitCycle k (left + 1) => { s with pc := .waitClear k (some left) }
  | .waitClear k left =>
      { s with pit := { s.pit with pitInterruptHandled := false }, pc := .waitSti k left }
  | .waitSti k left => { sti s with pc := .waitHlt k left }
  | .waitHlt k left =>
      -- `hlt` wakes by any interrupt; the loop halts again until the PIT's was handled
      if s.pit.pitInterruptHandled then
        match left with
        | some n => { s with pc := .waitCycle k n }
        | none => { s with pc := k.next }
      else s
  | .initDeassert => { s with pc := .waitStart .wakeCore }
  | .firstSipi =>
      { s with pit := { s.pit with mem := Function.update s.pit.mem W.finished 0 },
               pc := .shortRegister }
  | .shortRegister => registerTimeout W s W.oneMs true .shortSend
  | .shortSend => sendTimeout W s W.oneMs .shortPoll .shortBooted
  | .shortBooted =>
      if s.coreHasBooted then { s with seenBooted := true, pc := .tellCore }
      else { s with pc := .shortFinished }
  | .shortFinished =>
      if s.pit.mem W.finished ≠ 0 then { s with pc := .secondSipi }
      else { s with pc := .shortBooted }
  | .secondSipi => { s with handled := [], pc := .longRegister 0 }
  | .longRegister i =>
      if i < timeoutCount then registerTimeout W s W.fiftyMs false (.longSend i)
      else { s with pc := .returned .bootCoreTimeout }
  | .longSend i => sendTimeout W s W.fiftyMs (.longPoll i) (.longBooted i)
  | .longBooted i =>
      if s.coreHasBooted then { s with seenBooted := true, pc := .tellCore }
      else { s with pc := .longFinished i }
  | .longFinished i =>
      if s.pit.mem W.finished ≠ 0 then { s with pc := .longRegister (i + 1) }
      else { s with pc := .longBooted i }
  | .tellCore => { s with masterTellsCoreToStart := true, pc := .returned .none }
  | .returned _ => s
  | .aborted => s

/-- **The timer runs down**, when it is armed. -/
def wakeIrq (s : WakeState) : WakeState :=
  match s.timer with
  | .idle => s
  | .singleShot a => raiseIrq { s with timer := .idle } a
  | .rateGenerator => raiseIrq s .pitWait

inductive WakeEvent where
  | bsp
  | pitInterrupt
  | apBoots
  deriving DecidableEq, Repr

def wakeStep (s : WakeState) : WakeEvent → WakeState
  | .bsp => wakeBsp W s
  | .pitInterrupt => wakeIrq s
  | .apBoots => { s with coreHasBooted := true }

/-! ## 2. What the two results promise -/

structure NotEarly (s : WakeState) : Prop where
  timeout : s.pc = .returned .bootCoreTimeout →
    timeoutCount ≤ s.handled.countP ArmedBy.isLongPoll
  success : s.pc = .returned .none → s.seenBooted = true ∧ s.masterTellsCoreToStart = true

/-! ## 3. The invariant -/

/-- Nothing is to come from the timer, and nothing is pending. -/
def Quiet (s : WakeState) : Prop := s.flag = .enabled ∧ s.timer = .idle

/-- The one interrupt of the last wait: to come, or pending. -/
def OneToTake (s : WakeState) : Prop :=
  (∃ a, s.timer = .singleShot a ∧ s.flag = .disabled none) ∨
    (s.timer = .idle ∧ ∃ a, s.flag = .disabled (some a))

/-- The one interrupt of the last wait: to come and not seen yet, or taken. -/
def OneTaken (s : WakeState) : Prop :=
  (∃ a, s.timer = .singleShot a ∧ s.pit.pitInterruptHandled = false) ∨ s.timer = .idle

/-- Interrupts are off, and `finished` is clear. -/
def Deaf (s : WakeState) : Prop := s.flag ≠ .enabled ∧ s.pit.mem W.finished = 0

/-- **The invariant**, by the position of the boot processor: the first wait leaves the
    interrupt flag set, the second one leaves the timer idle, and the short poll is deaf. -/
def WakeInv (s : WakeState) : Prop :=
  match s.pc with
  | .waitHlt .sendInit _ | .initDeassert | .waitStart .wakeCore | .waitCycle .wakeCore 0
  | .waitHlt .wakeCore (some _) => s.flag = .enabled
  | .waitClear .wakeCore none => OneToTake s
  | .waitSti .wakeCore none => OneToTake s ∧ s.pit.pitInterruptHandled = false
  | .waitHlt .wakeCore none => s.flag = .enabled ∧ OneTaken s
  | .firstSipi | .shortRegister => Quiet s
  | .shortSend => Quiet s ∧ s.pit.mem W.finished = 0
  | .shortBooted | .shortFinished => Deaf W s
  | .tellCore => s.seenBooted = true
  | .returned .none => s.seenBooted = true ∧ s.masterTellsCoreToStart = true
  | .secondSipi | .longRegister _ | .longSend _ | .longBooted _ | .longFinished _
  | .returned .bootCoreTimeout => False
  | _ => True

variable {W}

theorem WakeInv.no_timeout {s : WakeState} (h : WakeInv W s) :
    s.pc ≠ .returned .bootCoreTimeout := by
  intro hpc
  unfold WakeInv at h
  rw [hpc] at h
  exact h

theorem WakeInv.notEarly {s : WakeState} (h : WakeInv W s) : NotEarly s where
  timeout hpc := absurd hpc h.no_timeout
  success hpc := by
    unfold WakeInv at h
    rw [hpc] at h
    exact h

/-- `sti` ends with the flag set and leaves the timer alone. -/
theorem sti_flag (s : WakeState) : (sti s).flag = .enabled := by
  unfold sti
  cases hflag : s.flag with
  | enabled => exact hflag
  | disabled pending => cases pending <;> rfl

theorem sti_timer (s : WakeState) : (sti s).timer = s.timer := by
  unfold sti
  cases s.flag with
  | enabled => rfl
  | disabled pending => cases pending <;> rfl

/-- The last wait's `sti`: its interrupt is taken here, or it is still to come. -/
theorem oneTaken_sti {s : WakeState} (h : OneToTake s)
    (hclear : s.pit.pitInterruptHandled = false) : OneTaken (sti s) := by
  rcases h with ⟨a, htimer, hflag⟩ | ⟨htimer, -⟩
  · refine .inl ⟨a, (sti_timer s).trans htimer, ?_⟩
    unfold sti
    rw [hflag]
    exact hclear
  · exact .inr ((sti_timer s).trans htimer)

theorem cli_ne_enabled (f : InterruptFlag) : f.cli ≠ .enabled := by
  cases f <;> exact InterruptFlag.noConfusion

/-- `short_timeout_async` leaves the call, or it goes on registered, with `finished` clear. -/
theorem registerTimeout_cases (s : WakeState) (t : Seconds) (next : WakePc) :
    (registerTimeout W s t true next).pc = .aborted ∨
    (registerTimeout W s t true next).pc = .returned .badTime ∨
    ((registerTimeout W s t true next).pc = next ∧
      (registerTimeout W s t true next).timer = s.timer ∧
      (registerTimeout W s t true next).flag = s.flag ∧
      (registerTimeout W s t true next).pit.mem W.finished = 0) := by
  unfold registerTimeout
  split
  · exact .inr (.inl rfl)
  · split
    · exact .inr (.inl rfl)
    · rw [if_pos rfl]
      split
      · exact .inr (.inr ⟨rfl, rfl, rfl, Function.update_self _ _ _⟩)
      · exact .inl rfl

/-- The second wait starts with the flag set, so its own interrupt is the only one to take. -/
theorem wakeInv_waitCycle (s : WakeState) (k : WaitReturn) (left : Nat)
    (hpc : s.pc = .waitCycle k left) (h : WakeInv W s) : WakeInv W (wakeBsp W s) := by
  unfold wakeBsp
  unfold WakeInv at h
  rw [hpc] at h ⊢
  cases left with
  | succ left => cases k <;> trivial
  | zero =>
      cases k with
      | sendInit => trivial
      | wakeCore =>
          have hflag : s.flag = .enabled := h
          have hcli : s.flag.cli = .disabled none := by rw [hflag]; rfl
          exact .inl ⟨.pitWait, rfl, hcli⟩

theorem wakeInv_waitHlt (s : WakeState) (k : WaitReturn) (left : Option Nat)
    (hpc : s.pc = .waitHlt k left) (h : WakeInv W s) : WakeInv W (wakeBsp W s) := by
  have hsame : WakeInv W s := h
  unfold wakeBsp
  unfold WakeInv at h
  rw [hpc] at h ⊢
  dsimp only
  split
  · next hhandled =>
    cases k with
    | sendInit =>
        cases left with
        | none => exact h
        | some n => trivial
    | wakeCore =>
        cases left with
        | none =>
            obtain ⟨hflag, ⟨a, -, hunseen⟩ | htimer⟩ := h
            · rw [hhandled] at hunseen
              exact Bool.noConfusion hunseen
            · exact ⟨hflag, htimer⟩
        | some n =>
            cases n with
            | zero => exact h
            | succ n => trivial
  · exact hsame

theorem wakeInv_bsp (s : WakeState) (h : WakeInv W s) : WakeInv W (wakeBsp W s) := by
  cases hpc : s.pc with
  | waitCycle k left => exact wakeInv_waitCycle s k left hpc h
  | waitHlt k left => exact wakeInv_waitHlt s k left hpc h
  | waitStart k =>
      unfold wakeBsp
      unfold WakeInv at h
      rw [hpc] at h ⊢
      dsimp only
      rw [if_neg (by rw [W.tenMs_positive]; exact Bool.false_ne_true)]
      split
      · next hcycles =>
        obtain ⟨n, hn⟩ : ∃ n, (W.computePitWait W.tenMs).fullCycles = n + 1 :=
          Nat.exists_eq_succ_of_ne_zero (Nat.ne_of_gt hcycles)
        rw [hn]
        cases k <;> trivial
      · cases k with
        | sendInit => trivial
        | wakeCore => exact h
  | waitClear k left =>
      unfold wakeBsp
      unfold WakeInv at h
      rw [hpc] at h ⊢
      cases k with
      | sendInit => trivial
      | wakeCore =>
          cases left with
          | none => exact ⟨h, rfl⟩
          | some n => trivial
  | waitSti k left =>
      unfold wakeBsp
      unfold WakeInv at h
      rw [hpc] at h ⊢
      cases k with
      | sendInit => exact sti_flag s
      | wakeCore =>
          cases left with
          | none => exact ⟨sti_flag s, oneTaken_sti h.1 h.2⟩
          | some n => exact sti_flag s
  | shortRegister =>
      unfold wakeBsp
      unfold WakeInv at h ⊢
      rw [hpc] at h ⊢
      dsimp only
      rcases registerTimeout_cases (W := W) s W.oneMs .shortSend with
        e | e | ⟨e, htimer, hflag, hfinished⟩
      · rw [e]
        trivial
      · rw [e]
        trivial
      · rw [e]
        exact ⟨⟨hflag.trans h.1, htimer.trans h.2⟩, hfinished⟩
  | shortSend =>
      unfold wakeBsp
      unfold WakeInv at h
      rw [hpc] at h ⊢
      exact ⟨cli_ne_enabled s.flag, h.2⟩
  | shortBooted =>
      unfold wakeBsp
      unfold WakeInv at h
      rw [hpc] at h ⊢
      dsimp only
      split
      · rfl
      · exact h
  | shortFinished =>
      unfold wakeBsp
      unfold WakeInv at h
      rw [hpc] at h ⊢
      dsimp only
      rw [if_neg (not_not_intro h.2)]
      exact h
  | secondSipi | longRegister i | longSend i | longBooted i | longFinished i =>
      unfold WakeInv at h
      rw [hpc] at h
      exact h.elim
  | initAssert =>
      unfold wakeBsp
      rw [hpc]
      trivial
  | initDeassert =>
      unfold wakeBsp
      unfold WakeInv at h
      rw [hpc] at h ⊢
      exact h
  | firstSipi =>
      unfold wakeBsp
      unfold WakeInv at h
      rw [hpc] at h ⊢
      exact h
  | tellCore =>
      unfold wakeBsp
      unfold WakeInv at h
      rw [hpc] at h ⊢
      exact ⟨h, rfl⟩
  | returned e | aborted =>
      unfold wakeBsp
      rw [hpc]
      exact h

/-- The timer's edge moves nobody's position. -/
theorem raiseIrq_pc (s : WakeState) (a : ArmedBy) : (raiseIrq s a).pc = s.pc := by
  unfold raiseIrq
  split <;> rfl

theorem raiseIrq_seen (s : WakeState) (a : ArmedBy) :
    (raiseIrq s a).seenBooted = s.seenBooted ∧
      (raiseIrq s a).masterTellsCoreToStart = s.masterTellsCoreToStart := by
  unfold raiseIrq
  split <;> exact ⟨rfl, rfl⟩

/-- With the flag set the edge is handled, and the flag stays set. -/
theorem raiseIrq_enabled {s : WakeState} (h : s.flag = .enabled) (a : ArmedBy) :
    raiseIrq s a = handleIrq s a := by
  unfold raiseIrq
  rw [h]

/-- With the flag clear it is only noted. -/
theorem raiseIrq_disabled {s : WakeState} {pending : Option ArmedBy}
    (h : s.flag = .disabled pending) (a : ArmedBy) :
    raiseIrq s a = { s with flag := .disabled (some (pending.getD a)) } := by
  unfold raiseIrq
  rw [h]

theorem wakeIrq_pc (s : WakeState) : (wakeIrq s).pc = s.pc := by
  unfold wakeIrq
  cases s.timer with
  | idle => rfl
  | singleShot a => exact raiseIrq_pc _ a
  | rateGenerator => exact raiseIrq_pc _ _

theorem wakeIrq_seen (s : WakeState) :
    (wakeIrq s).seenBooted = s.seenBooted ∧
      (wakeIrq s).masterTellsCoreToStart = s.masterTellsCoreToStart := by
  unfold wakeIrq
  cases s.timer with
  | idle => exact ⟨rfl, rfl⟩
  | singleShot a => exact raiseIrq_seen _ a
  | rateGenerator => exact raiseIrq_seen _ _

theorem wakeIrq_enabled {s : WakeState} (h : s.flag = .enabled) :
    (wakeIrq s).flag = .enabled := by
  unfold wakeIrq
  cases s.timer with
  | idle => exact h
  | singleShot a =>
      dsimp only
      rw [raiseIrq_enabled (s := { s with timer := .idle }) h]
      exact h
  | rateGenerator =>
      dsimp only
      rw [raiseIrq_enabled h]
      exact h

theorem Quiet.wakeIrq {s : WakeState} (h : Quiet s) : wakeIrq s = s := by
  unfold Cpu.wakeIrq
  rw [h.2]

/-- The last wait's interrupt becomes pending. -/
theorem OneToTake.wakeIrq {s : WakeState} (h : OneToTake s) :
    OneToTake (wakeIrq s) ∧
      (wakeIrq s).pit.pitInterruptHandled = s.pit.pitInterruptHandled := by
  unfold Cpu.wakeIrq
  rcases h with ⟨a, htimer, hflag⟩ | ⟨htimer, hpending⟩
  · rw [htimer]
    dsimp only
    rw [raiseIrq_disabled (s := { s with timer := .idle }) hflag]
    exact ⟨.inr ⟨rfl, a, rfl⟩, rfl⟩
  · rw [htimer]
    exact ⟨.inr ⟨htimer, hpending⟩, rfl⟩

theorem OneTaken.wakeIrq {s : WakeState} (hflag : s.flag = .enabled) (h : OneTaken s) :
    OneTaken (wakeIrq s) := by
  unfold Cpu.wakeIrq
  rcases h with ⟨a, htimer, -⟩ | htimer
  · rw [htimer]
    dsimp only
    rw [raiseIrq_enabled (s := { s with timer := .idle }) hflag]
    exact .inr rfl
  · rw [htimer]
    exact .inr htimer

/-- While interrupts are off no edge of the timer writes `finished`. -/
theorem Deaf.wakeIrq {s : WakeState} (h : Deaf W s) : Deaf W (wakeIrq s) := by
  obtain ⟨pending, hflag⟩ : ∃ pending, s.flag = .disabled pending := by
    cases hflag : s.flag with
    | enabled => exact absurd hflag h.1
    | disabled pending => exact ⟨pending, rfl⟩
  unfold Cpu.wakeIrq
  cases s.timer with
  | idle => exact h
  | singleShot a =>
      dsimp only
      rw [raiseIrq_disabled (s := { s with timer := .idle }) hflag]
      exact ⟨InterruptFlag.noConfusion, h.2⟩
  | rateGenerator =>
      dsimp only
      rw [raiseIrq_disabled hflag]
      exact ⟨InterruptFlag.noConfusion, h.2⟩

theorem wakeInv_irq (s : WakeState) (h : WakeInv W s) : WakeInv W (wakeIrq s) := by
  have hkeep : WakeInv W s := h
  obtain ⟨hseen, htold⟩ := wakeIrq_seen s
  unfold WakeInv at h ⊢
  rw [wakeIrq_pc]
  cases hpc : s.pc with
  | waitHlt k left =>
      rw [hpc] at h
      cases k with
      | sendInit => exact wakeIrq_enabled h
      | wakeCore =>
          cases left with
          | none => exact ⟨wakeIrq_enabled h.1, OneTaken.wakeIrq h.1 h.2⟩
          | some n => exact wakeIrq_enabled h
  | initDeassert =>
      rw [hpc] at h
      exact wakeIrq_enabled h
  | waitStart k =>
      rw [hpc] at h
      cases k with
      | sendInit => trivial
      | wakeCore => exact wakeIrq_enabled h
  | waitCycle k left =>
      rw [hpc] at h
      cases k with
      | sendInit => trivial
      | wakeCore =>
          cases left with
          | zero => exact wakeIrq_enabled h
          | succ left => trivial
  | waitClear k left =>
      rw [hpc] at h
      cases k with
      | sendInit => trivial
      | wakeCore =>
          cases left with
          | none => exact (OneToTake.wakeIrq h).1
          | some n => trivial
  | waitSti k left =>
      rw [hpc] at h
      cases k with
      | sendInit => trivial
      | wakeCore =>
          cases left with
          | none =>
              obtain ⟨htake, hclear⟩ := h
              exact ⟨htake.wakeIrq.1, htake.wakeIrq.2.trans hclear⟩
          | some n => trivial
  | firstSipi | shortRegister =>
      rw [hpc] at h
      rw [Quiet.wakeIrq h]
      exact h
  | shortSend =>
      rw [hpc] at h
      rw [Quiet.wakeIrq h.1]
      exact h
  | shortBooted | shortFinished =>
      rw [hpc] at h
      exact Deaf.wakeIrq h
  | secondSipi | longRegister i | longSend i | longBooted i | longFinished i =>
      rw [hpc] at h
      exact h.elim
  | tellCore =>
      rw [hpc] at h
      exact hseen.trans h
  | returned e =>
      rw [hpc] at h
      cases e with
      | none => exact ⟨hseen.trans h.1, htold.trans h.2⟩
      | bootCoreTimeout => exact h.elim
      | timeoutSendingIpi | badTime => trivial
  | initAssert | aborted => trivial

theorem wakeInv_step (s : WakeState) (e : WakeEvent) (h : WakeInv W s) :
    WakeInv W (wakeStep W s e) := by
  cases e with
  | bsp => exact wakeInv_bsp s h
  | pitInterrupt => exact wakeInv_irq s h
  | apBoots => exact h

variable (W)

/-- **No early timeout.** In every interleaving of the boot processor, the PIT and the
    application processor, from every state of the PIT, the timer and the interrupt flag, the
    results of `wake_core` mean what they say in every state reached; and `boot_core_timeout` is
    never among them. -/
theorem wakeCore_notEarly (pit : PitState) (timer : PitTimer) (flag : InterruptFlag)
    (booted told : Bool) (l : List WakeEvent) :
    Along (wakeStep W) (fun s => NotEarly s ∧ s.pc ≠ .returned .bootCoreTimeout)
      (WakeState.call pit timer flag booted told) l := by
  have hstart : WakeInv W (WakeState.call pit timer flag booted told) := trivial
  have halong := along_of_guarded (C := fun _ _ => True)
    (fun s e h _ => wakeInv_step s e h) hstart (guarded_of_forall (fun _ _ => trivial) _ l)
  exact halong.imp fun _ h => ⟨h.notEarly, h.no_timeout⟩

end Machine

/-- Milliseconds for the times, `max_single_wait` rounded to the microsecond. -/
def msParams : WakeParams Nat where
  nonPositive ms := ms == 0
  computePitWait ms := ⟨ms * 1000 / 54925, ms * 1000 % 54925 * 65536 / 1000000⟩
  tenMs := 10
  oneMs := 1
  fiftyMs := 50
  finished := 0
  tenMs_positive := rfl

/-- An INIT and its `pit::wait`, one single shot: IPI, entry, arm, clear, the edge, `sti`, on. -/
def initEvents : List WakeEvent := [.bsp, .bsp, .bsp, .bsp, .pitInterrupt, .bsp, .bsp]

/-- The first SIPI, the armed short poll, and the edge of its timer. -/
def shortPollEvents : List WakeEvent := [.bsp, .bsp, .bsp, .pitInterrupt]

/-- The core that boots ends the short poll; the interrupt of the poll stays pending. -/
example :
    let s := run (wakeStep msParams) (.call (.zero fun _ => 0) .idle .enabled false false)
      (initEvents ++ initEvents ++ shortPollEvents ++ [.bsp, .bsp, .apBoots, .bsp, .bsp])
    s.pc = .returned .none ∧ s.flag = .disabled (some .shortPoll) := by decide

end MapleKernel.Cpu
