/-
  File:      Timers/Pit.lean
  Subject:   THE PIT MESSAGE STACK: `short_timeout_async` pushes a flag address,
             `pit_interrupt_handler` pops one and writes it.

  The two functions share four globals: the stack pointer `pit_write_index`, the array
  `pit_msg_address` with its values, and ONE bit `pit_is_new_timeout` that stands for the whole
  stack. The handler pops only while the bit is set, never clears the popped slot, and reads the
  slot at the (possibly unmoved) index in every case.

  * `shortTimeoutAsync`, `pitInterruptHandler` -- the two functions, statement by statement;
  * `PitSys` -- the interleaving of registrations and interrupts, with the history of what was
    registered and written;
  * `pitInv_step` -- what EVERY interleaving keeps: the slots below the index are exactly the
    outstanding registrations, and the slot at the index is delivered already whenever the bit
    is clear;
  * `pit_exactlyOnce_iff` -- so delivery is exactly once on precisely the runs in which no
    interrupt finds the bit clear over a used slot.

  The float arithmetic of `compute_pit_wait` is a parameter. An interrupt may arrive between any
  two calls; what the `__cli` of `set_pit_count` does to a caller is in `Cpu/WakeCore.lean`.
-/
import MapleKernel.Lib.Run

namespace MapleKernel.Timers

open Runs

/-- Address of a `uint32_t` flag; the null pointer is `none` of `Option Addr`. -/
abbrev Addr := Nat

def pitMaxMsg : Nat := 32

def maxFreqDivider : Nat := 65535

/-- `pit_ih::mode`. -/
inductive PitIhMode where
  | wait | game
  deriving DecidableEq, Repr

structure PitWaitSplit where
  fullCycles : Nat
  reminderPitCount : Nat
  deriving DecidableEq, Repr

/-- The globals of the two functions, the memory the flags live in and the port writes.
    `aborted` holds the message of a failed `assert`, which halts the machine. -/
structure PitState where
  gPitMode : PitIhMode
  pitInterruptHandled : Bool
  pitIsNewTimeout : Bool
  pitWriteIndex : Nat
  pitMsgAddress : Nat → Option Addr
  pitMsgValue : Nat → Nat
  mem : Addr → Nat
  outb : List (Nat × Nat)
  aborted : Option String

/-- Zero-initialised globals over an arbitrary memory. -/
def PitState.zero (mem : Addr → Nat) : PitState where
  gPitMode := .wait
  pitInterruptHandled := false
  pitIsNewTimeout := false
  pitWriteIndex := 0
  pitMsgAddress := fun _ => none
  pitMsgValue := fun _ => 0
  mem := mem
  outb := []
  aborted := none

/-! ## 1. The two functions -/

/-- `set_pit_count`: low byte, then high byte, to the channel 0 data port. -/
def setPitCount (count : Nat) (s : PitState) : PitState :=
  { s with outb := s.outb ++ [(0x40, count &&& 0xFF), (0x40, (count &&& 0xFF00) >>> 8)] }

/-- `pit::send_wait_count_command`: `0x30` is binary, single shot, low then high byte,
    channel 0. -/
def sendWaitCountCommand (freqDividerCount : Nat) (s : PitState) : PitState :=
  let count := if freqDividerCount = maxFreqDivider + 1 then 0 else freqDividerCount
  setPitCount (count % 2 ^ 16) { s with outb := s.outb ++ [(0x43, 0x30)] }

section Functions

variable {Seconds : Type} (nonPositive : Seconds → Bool) (computePitWait : Seconds → PitWaitSplit)

/-- `pit::short_timeout_async`: the return code and the state after it. -/
def shortTimeoutAsync (seconds : Seconds) (finished : Addr) (newTimeout : Bool) (s : PitState) :
    Nat × PitState :=
  if nonPositive seconds then (1, s)
  else
    let sp := computePitWait seconds
    if 0 < sp.fullCycles then (2, s)
    else if newTimeout then
      if s.pitWriteIndex < pitMaxMsg then
        let s' := { s with
          mem := Function.update s.mem finished 0
          pitMsgAddress := Function.update s.pitMsgAddress s.pitWriteIndex (some finished)
          pitMsgValue := Function.update s.pitMsgValue s.pitWriteIndex 1
          pitIsNewTimeout := true
          pitWriteIndex := (s.pitWriteIndex + 1) % 2 ^ 8 }
        (0, sendWaitCountCommand sp.reminderPitCount s')
      else
        (0, { s with aborted := some "Overflowed, too many mesg, out of space\n" })
    else (0, sendWaitCountCommand sp.reminderPitCount s)

end Functions

/-- What one interrupt does to the outside, in order. -/
inductive PitEffect where
  | gameLoop
  | store (a : Addr) (v : Nat)
  | sendEoi
  deriving DecidableEq, Repr

/-- `pit_interrupt_handler`. -/
def pitInterruptHandler (s : PitState) : PitState × List PitEffect :=
  let game : List PitEffect := match s.gPitMode with
    | .wait => []
    | .game => [.gameLoop]
  let index := if s.pitWriteIndex ≠ 0 ∧ s.pitIsNewTimeout = true
    then s.pitWriteIndex - 1 else s.pitWriteIndex
  match s.pitMsgAddress index with
  | some a =>
      ({ s with
          pitWriteIndex := index
          mem := Function.update s.mem a (s.pitMsgValue index)
          pitIsNewTimeout := false
          pitInterruptHandled := true },
        game ++ [.store a (s.pitMsgValue index), .sendEoi])
  | none =>
      ({ s with pitWriteIndex := index, pitInterruptHandled := true }, game ++ [.sendEoi])

/-- The address an interrupt writes through, if any. -/
def writtenBy : List PitEffect → Option Addr
  | [] => none
  | .store a _ :: _ => some a
  | _ :: es => writtenBy es

/-- Where the handler finds an address at index `i`, it writes it and clears the bit. -/
theorem handler_some {s : PitState} {i : Nat} {a : Addr}
    (hi : i = if s.pitWriteIndex ≠ 0 ∧ s.pitIsNewTimeout = true
      then s.pitWriteIndex - 1 else s.pitWriteIndex)
    (ha : s.pitMsgAddress i = some a) :
    (pitInterruptHandler s).1 = { s with
        pitWriteIndex := i, mem := Function.update s.mem a (s.pitMsgValue i)
        pitIsNewTimeout := false, pitInterruptHandled := true } ∧
      writtenBy (pitInterruptHandler s).2 = some a := by
  subst hi
  unfold pitInterruptHandler
  simp only [ha, true_and]
  cases s.gPitMode <;> rfl

/-- Where the slot is still null, only `pit_interrupt_handled` changes. -/
theorem handler_none {s : PitState} {i : Nat}
    (hi : i = if s.pitWriteIndex ≠ 0 ∧ s.pitIsNewTimeout = true
      then s.pitWriteIndex - 1 else s.pitWriteIndex)
    (ha : s.pitMsgAddress i = none) :
    (pitInterruptHandler s).1 = { s with pitWriteIndex := i, pitInterruptHandled := true } ∧
      writtenBy (pitInterruptHandler s).2 = none := by
  subst hi
  unfold pitInterruptHandler
  simp only [ha, true_and]
  cases s.gPitMode <;> rfl

/-! ## 2. The interleaving, with its history -/

/-- One atomic step: a call `short_timeout_async(seconds, flag, true)` or a PIT interrupt. -/
inductive PitEvent (Seconds : Type) where
  | register (seconds : Seconds) (flag : Addr)
  | interrupt
  deriving DecidableEq, Repr

/-- What a step leaves in the history. -/
inductive PitObs where
  | registered (a : Addr)
  | irq (written : Option Addr)
  deriving DecidableEq, Repr

structure PitSys where
  pit : PitState
  history : List PitObs

def PitSys.boot (mem : Addr → Nat) : PitSys := ⟨.zero mem, []⟩

section Sys

variable {Seconds : Type} (nonPositive : Seconds → Bool) (computePitWait : Seconds → PitWaitSplit)

/-- One step. After a failed `assert` the machine is halted and nothing happens any more. -/
def PitSys.step (S : PitSys) : PitEvent Seconds → PitSys
  | .register t a =>
      if S.pit.aborted.isSome then S
      else
        let r := shortTimeoutAsync nonPositive computePitWait t a true S.pit
        if r.1 = 0 ∧ r.2.aborted = none then ⟨r.2, S.history ++ [.registered a]⟩
        else ⟨r.2, S.history⟩
  | .interrupt =>
      if S.pit.aborted.isSome then S
      else
        let r := pitInterruptHandler S.pit
        ⟨r.1, S.history ++ [.irq (writtenBy r.2)]⟩

/-- A time that is registered: positive, and of no full cycle. -/
def ValidTime (t : Seconds) : Prop :=
  nonPositive t = false ∧ (computePitWait t).fullCycles = 0

end Sys

/-- Flags registered in a history, in order. -/
def registeredFlags : List PitObs → List Addr
  | [] => []
  | .registered a :: h => a :: registeredFlags h
  | .irq _ :: h => registeredFlags h

/-- Flags written in a history, in order, once for each write. -/
def writtenFlags : List PitObs → List Addr
  | [] => []
  | .irq (some a) :: h => a :: writtenFlags h
  | _ :: h => writtenFlags h

/-- Registered and not written yet. -/
def outstanding (h : List PitObs) : List Addr :=
  (registeredFlags h).filter fun a => a ∉ writtenFlags h

@[simp] theorem registeredFlags_append (h h' : List PitObs) :
    registeredFlags (h ++ h') = registeredFlags h ++ registeredFlags h' := by
  induction h with
  | nil => rfl
  | cons o h ih => cases o <;> simp [registeredFlags, ih]

@[simp] theorem writtenFlags_append (h h' : List PitObs) :
    writtenFlags (h ++ h') = writtenFlags h ++ writtenFlags h' := by
  induction h with
  | nil => rfl
  | cons o h ih =>
      rcases o with a | (_ | a) <;> simp [writtenFlags, ih]

theorem mem_writtenFlags {h : List PitObs} {a : Addr} :
    a ∈ writtenFlags h ↔ PitObs.irq (some a) ∈ h := by
  induction h with
  | nil => simp [writtenFlags]
  | cons o h ih =>
      rcases o with b | (_ | b) <;> simp [writtenFlags, ih]

theorem mem_registeredFlags {h : List PitObs} {a : Addr} :
    a ∈ registeredFlags h ↔ PitObs.registered a ∈ h := by
  induction h with
  | nil => simp [registeredFlags]
  | cons o h ih => cases o <;> simp [registeredFlags, ih]

/-- A new flag is appended to the outstanding ones. -/
theorem outstanding_registered {h : List PitObs} {a : Addr} (ha : a ∉ writtenFlags h) :
    outstanding (h ++ [PitObs.registered a]) = outstanding h ++ [a] := by
  simp [outstanding, registeredFlags, writtenFlags, List.filter_append, ha]

/-- A write of an already written flag leaves the outstanding ones alone. -/
theorem outstanding_again {h : List PitObs} {a : Addr} (ha : a ∈ writtenFlags h) :
    outstanding (h ++ [PitObs.irq (some a)]) = outstanding h := by
  simp only [outstanding, registeredFlags_append, writtenFlags_append, registeredFlags,
    writtenFlags, List.append_nil]
  refine List.filter_congr fun b _ => ?_
  have : b ∈ writtenFlags h ++ [a] ↔ b ∈ writtenFlags h := by
    rw [List.mem_append, List.mem_singleton]
    exact ⟨fun h => h.elim id (fun e => e ▸ ha), Or.inl⟩
  simp only [this]

theorem outstanding_idle (h : List PitObs) :
    outstanding (h ++ [PitObs.irq none]) = outstanding h := by
  simp [outstanding, registeredFlags, writtenFlags]

/-- The first write of the newest outstanding flag takes it off. -/
theorem outstanding_deliver {h : List PitObs} {a : Addr} {l : List Addr}
    (hn : (registeredFlags h).Nodup) (ho : outstanding h = l ++ [a]) :
    outstanding (h ++ [PitObs.irq (some a)]) = l := by
  have hnd : (l ++ [a]).Nodup := ho ▸ hn.filter _
  have hal : a ∉ l := by
    intro hm
    exact (List.nodup_append.mp hnd).2.2 a hm a (List.mem_singleton_self a) rfl
  have hsplit : outstanding (h ++ [PitObs.irq (some a)])
      = (outstanding h).filter (fun b => b ≠ a) := by
    simp only [outstanding, registeredFlags_append, writtenFlags_append, registeredFlags,
      writtenFlags, List.append_nil, List.filter_filter]
    refine List.filter_congr fun b _ => ?_
    by_cases h1 : b = a <;> by_cases h2 : b ∈ writtenFlags h <;> simp [h1, h2]
  rw [hsplit, ho, List.filter_append]
  have h1 : l.filter (fun b => b ≠ a) = l :=
    List.filter_eq_self.mpr fun b hb => by
      simp only [ne_eq, decide_not, Bool.not_eq_true', decide_eq_false_iff_not]
      exact fun e => hal (e ▸ hb)
  rw [h1]
  simp

/-! ## 3. What every interleaving keeps -/

/-- **The invariant of the message stack.** The slots below the index are the outstanding
    registrations, oldest first; the bit is set exactly while the last event is a registration;
    and while it is clear the slot AT the index is null (nothing was ever registered) or holds a
    flag that is written already. -/
structure PitInv (S : PitSys) : Prop where
  alive : S.pit.aborted = none
  slots : (List.range S.pit.pitWriteIndex).map S.pit.pitMsgAddress
    = (outstanding S.history).map some
  bounded : S.pit.pitWriteIndex ≤ pitMaxMsg
  nodup : (registeredFlags S.history).Nodup
  wasRegistered : ∀ a ∈ writtenFlags S.history, a ∈ registeredFlags S.history
  newIff : S.pit.pitIsNewTimeout = true ↔ ∃ h a, S.history = h ++ [PitObs.registered a]
  newTop : S.pit.pitIsNewTimeout = true → S.pit.pitWriteIndex ≠ 0
  oldSlot : S.pit.pitIsNewTimeout = false →
    (registeredFlags S.history = [] ∧ S.pit.pitMsgAddress S.pit.pitWriteIndex = none) ∨
    ∃ a, S.pit.pitMsgAddress S.pit.pitWriteIndex = some a ∧ a ∈ writtenFlags S.history

theorem pitInv_boot (mem : Addr → Nat) : PitInv (PitSys.boot mem) where
  alive := rfl
  slots := rfl
  bounded := Nat.zero_le _
  nodup := List.nodup_nil
  wasRegistered _ h := absurd h List.not_mem_nil
  newIff := ⟨fun h => absurd h Bool.false_ne_true, fun ⟨h, a, e⟩ => by simp [PitSys.boot] at e⟩
  newTop h := by cases h
  oldSlot _ := .inl ⟨rfl, rfl⟩

theorem PitInv.index_eq {S : PitSys} (hI : PitInv S) :
    S.pit.pitWriteIndex = (outstanding S.history).length := by
  have h := congrArg List.length hI.slots
  simpa using h

/-- No slot below the index is touched by a write at the index or above. -/
theorem map_range_update {α : Type*} (f : Nat → α) {n k : Nat} (h : n ≤ k) (v : α) :
    (List.range n).map (Function.update f k v) = (List.range n).map f := by
  refine List.map_congr_left fun i hi => Function.update_of_ne ?_ _ _
  have := List.mem_range.mp hi
  omega

section Step

variable {Seconds : Type} (nonPositive : Seconds → Bool) (computePitWait : Seconds → PitWaitSplit)

/-- The runs the property speaks of: valid times, distinct flags, and fewer than `PIT_MAX_MSG`
    outstanding registrations when one more is made. -/
def Legal (S : PitSys) : PitEvent Seconds → Prop
  | .register t a => ValidTime nonPositive computePitWait t ∧ a ∉ registeredFlags S.history ∧
      (outstanding S.history).length < pitMaxMsg
  | .interrupt => True

variable {nonPositive computePitWait}

/-- What a legal registration does. -/
theorem step_register {S : PitSys} (hI : PitInv S) {t : Seconds} {a : Addr}
    (hL : Legal nonPositive computePitWait S (.register t a)) :
    let S' := S.step nonPositive computePitWait (.register t a)
    S'.history = S.history ++ [PitObs.registered a] ∧
    S'.pit.pitWriteIndex = S.pit.pitWriteIndex + 1 ∧
    S'.pit.pitMsgAddress
      = Function.update S.pit.pitMsgAddress S.pit.pitWriteIndex (some a) ∧
    S'.pit.pitIsNewTimeout = true ∧ S'.pit.aborted = none := by
  obtain ⟨⟨hpos, hfull⟩, _, hlen⟩ := hL
  have hlt : S.pit.pitWriteIndex < 32 := by rw [hI.index_eq]; exact hlen
  have hmod : (S.pit.pitWriteIndex + 1) % 256 = S.pit.pitWriteIndex + 1 :=
    Nat.mod_eq_of_lt (by omega)
  simp [PitSys.step, hI.alive, shortTimeoutAsync, hpos, hfull, pitMaxMsg, hlt,
    sendWaitCountCommand, setPitCount, hmod]

/-- The newest outstanding flag stands in the slot below `pit_write_index`. -/
theorem PitInv.newest_slot {S : PitSys} (hI : PitInv S) {k : Nat}
    (hk : S.pit.pitWriteIndex = k + 1) :
    ∃ l a, outstanding S.history = l ++ [a] ∧ l.length = k ∧
      S.pit.pitMsgAddress k = some a := by
  have hs := hI.slots
  rw [hk, List.range_succ, List.map_append] at hs
  obtain ⟨l, m, hlm, hl, hm⟩ := List.map_eq_append_iff.mp hs.symm
  obtain ⟨a, rfl⟩ : ∃ a, m = [a] := by
    have h1 : (m.map some).length = 1 := by rw [hm]; simp
    simpa [List.length_eq_one_iff] using h1
  have ha : S.pit.pitMsgAddress k = some a := by simpa using hm.symm
  have hlen : l.length = k := by simpa using congrArg List.length hl
  exact ⟨l, a, hlm, hlen, ha⟩

/-- **What an interrupt does, in the three situations the invariant leaves**: it delivers the
    newest outstanding flag (`fresh`), it finds nothing ever registered (`idle`), or it writes a
    flag that was delivered before (`stale`). -/
theorem step_interrupt (nonPositive : Seconds → Bool) (computePitWait : Seconds → PitWaitSplit)
    {S : PitSys} (hI : PitInv S) :
    let S' := S.step nonPositive computePitWait PitEvent.interrupt
    (S.pit.pitIsNewTimeout = true ∧ ∃ l a, outstanding S.history = l ++ [a] ∧
      S'.history = S.history ++ [PitObs.irq (some a)] ∧
      S'.pit.pitWriteIndex = l.length ∧ S.pit.pitWriteIndex = l.length + 1 ∧
      S'.pit.pitMsgAddress = S.pit.pitMsgAddress ∧ S.pit.pitMsgAddress l.length = some a ∧
      S'.pit.pitIsNewTimeout = false ∧ S'.pit.aborted = none) ∨
    (S.pit.pitIsNewTimeout = false ∧ registeredFlags S.history = [] ∧
      S.pit.pitMsgAddress S.pit.pitWriteIndex = none ∧
      S'.history = S.history ++ [PitObs.irq none] ∧
      S'.pit.pitWriteIndex = S.pit.pitWriteIndex ∧ S'.pit.pitMsgAddress = S.pit.pitMsgAddress ∧
      S'.pit.pitIsNewTimeout = false ∧ S'.pit.aborted = none) ∨
    (S.pit.pitIsNewTimeout = false ∧ ∃ a ∈ writtenFlags S.history,
      S.pit.pitMsgAddress S.pit.pitWriteIndex = some a ∧
      S'.history = S.history ++ [PitObs.irq (some a)] ∧
      S'.pit.pitWriteIndex = S.pit.pitWriteIndex ∧ S'.pit.pitMsgAddress = S.pit.pitMsgAddress ∧
      S'.pit.pitIsNewTimeout = false ∧ S'.pit.aborted = none) := by
  have halive : S.pit.aborted.isSome = false := by rw [hI.alive]; rfl
  simp only [PitSys.step, halive, Bool.false_eq_true, if_false]
  cases hnew : S.pit.pitIsNewTimeout with
  | true =>
      left
      have h0 := hI.newTop hnew
      obtain ⟨k, hk⟩ : ∃ k, S.pit.pitWriteIndex = k + 1 := ⟨S.pit.pitWriteIndex - 1, by omega⟩
      obtain ⟨l, a, hlm, hlen, ha⟩ := hI.newest_slot hk
      obtain ⟨e1, e2⟩ := handler_some (s := S.pit) (i := k) (by simp [hk, hnew]) ha
      rw [e1, e2]
      subst hlen
      exact ⟨rfl, l, a, hlm, rfl, rfl, hk, rfl, ha, rfl, hI.alive⟩
  | false =>
      right
      have hi : S.pit.pitWriteIndex = if S.pit.pitWriteIndex ≠ 0 ∧ S.pit.pitIsNewTimeout = true
          then S.pit.pitWriteIndex - 1 else S.pit.pitWriteIndex := by simp [hnew]
      rcases hI.oldSlot hnew with ⟨hr, hn⟩ | ⟨a, ha, hw⟩
      · obtain ⟨e1, e2⟩ := handler_none hi hn
        rw [e1, e2]
        exact .inl ⟨rfl, hr, hn, rfl, rfl, rfl, hnew, hI.alive⟩
      · obtain ⟨e1, e2⟩ := handler_some hi ha
        rw [e1, e2]
        exact .inr ⟨rfl, a, hw, ha, rfl, rfl, rfl, rfl, hI.alive⟩

/-- The part of the invariant that reads the history only, over one more interrupt. -/
theorem pitInv_irq {S S' : PitSys} (hI : PitInv S) {w : Option Addr}
    (hh : S'.history = S.history ++ [PitObs.irq w])
    (hw : ∀ a, w = some a → a ∈ registeredFlags S.history)
    (hab : S'.pit.aborted = none) (hold : S'.pit.pitIsNewTimeout = false)
    (hle : S'.pit.pitWriteIndex ≤ S.pit.pitWriteIndex)
    (hslots : (List.range S'.pit.pitWriteIndex).map S'.pit.pitMsgAddress
      = (outstanding S'.history).map some)
    (hslot : (registeredFlags S'.history = [] ∧
        S'.pit.pitMsgAddress S'.pit.pitWriteIndex = none) ∨
      ∃ a, S'.pit.pitMsgAddress S'.pit.pitWriteIndex = some a ∧ a ∈ writtenFlags S'.history) :
    PitInv S' := by
  have hreg : registeredFlags S'.history = registeredFlags S.history := by
    rw [hh]; simp [registeredFlags]
  refine ⟨hab, hslots, Nat.le_trans hle hI.bounded, hreg ▸ hI.nodup, ?_, ?_, ?_, fun _ => hslot⟩
  · intro b hb
    rw [hreg]
    rw [hh, writtenFlags_append] at hb
    rcases List.mem_append.mp hb with h | h
    · exact hI.wasRegistered b h
    · rcases w with _ | a
      · simp [writtenFlags] at h
      · have hba : b = a := by simpa [writtenFlags] using h
        exact hba ▸ hw a rfl
  · rw [hold, hh]
    refine ⟨fun h => absurd h Bool.false_ne_true, fun ⟨h, a, e⟩ => ?_⟩
    have := (List.append_inj' e rfl).2
    simp at this
  · intro h; rw [hold] at h; cases h

/-- **One step keeps the invariant**, whatever the interleaving. -/
theorem pitInv_step {S : PitSys} (hI : PitInv S) {e : PitEvent Seconds}
    (hL : Legal nonPositive computePitWait S e) :
    PitInv (S.step nonPositive computePitWait e) := by
  cases e with
  | register t a =>
      obtain ⟨hh, hw, ha, hnew, hab⟩ := step_register hI hL
      obtain ⟨_, hfresh, hlen⟩ := hL
      have hunwritten : a ∉ writtenFlags S.history := fun h => hfresh (hI.wasRegistered a h)
      refine ⟨hab, ?_, ?_, ?_, ?_, ⟨fun _ => ⟨_, _, hh⟩, fun _ => hnew⟩, ?_, ?_⟩
      · rw [hw, ha, hh, List.range_succ, List.map_append, map_range_update _ (Nat.le_refl _),
          hI.slots, outstanding_registered hunwritten, List.map_append]
        simp
      · rw [hw, hI.index_eq]; exact hlen
      · rw [hh, registeredFlags_append]
        refine List.nodup_append.mpr ⟨hI.nodup, by simp [registeredFlags], ?_⟩
        intro b hb c hc e
        have hca : c = a := by simpa [registeredFlags] using hc
        exact hfresh (hca ▸ e ▸ hb)
      · intro b hb
        rw [hh] at hb ⊢
        have hb' : b ∈ writtenFlags S.history := by simpa [writtenFlags] using hb
        rw [registeredFlags_append]
        exact List.mem_append_left _ (hI.wasRegistered b hb')
      · intro _; rw [hw]; omega
      · intro h; rw [hnew] at h; cases h
  | interrupt =>
      rcases step_interrupt nonPositive computePitWait hI with
        ⟨_, l, a, ho, hh, hw, hw0, ha, hla, hold, hab⟩ | ⟨_, hr, hn, hh, hw, ha, hold, hab⟩ |
        ⟨_, a, hwr, haw, hh, hw, ha, hold, hab⟩
      · have hs := hI.slots
        rw [hw0, List.range_succ, List.map_append, ho, List.map_append] at hs
        have hmem : a ∈ outstanding S.history := by rw [ho]; simp
        refine pitInv_irq hI hh ?_ hab hold (by omega) ?_ (.inr ⟨a, ?_, ?_⟩)
        · rintro b ⟨⟩; exact (List.mem_filter.mp hmem).1
        · rw [hw, ha, hh, outstanding_deliver hI.nodup ho]
          exact (List.append_inj' hs rfl).1
        · rw [ha, hw]; exact hla
        · rw [hh]; simp [writtenFlags]
      · refine pitInv_irq hI hh (fun _ h => by cases h) hab hold (by omega) ?_ (.inl ⟨?_, ?_⟩)
        · rw [hw, ha, hh, outstanding_idle]; exact hI.slots
        · rw [hh]; simp [registeredFlags, hr]
        · rw [ha, hw]; exact hn
      · refine pitInv_irq hI hh ?_ hab hold (by omega) ?_ (.inr ⟨a, ?_, ?_⟩)
        · rintro b ⟨⟩; exact hI.wasRegistered _ hwr
        · rw [hw, ha, hh, outstanding_again hwr]; exact hI.slots
        · rw [ha, hw]; exact haw
        · rw [hh, writtenFlags_append]; exact List.mem_append_left _ hwr

/-- The history only grows. -/
theorem step_history (nonPositive : Seconds → Bool) (computePitWait : Seconds → PitWaitSplit)
    (S : PitSys) (e : PitEvent Seconds) :
    ∃ h, (S.step nonPositive computePitWait e).history = S.history ++ h := by
  cases e with
  | register t a =>
      simp only [PitSys.step]
      split
      · exact ⟨[], (List.append_nil _).symm⟩
      · split
        · exact ⟨_, rfl⟩
        · exact ⟨[], (List.append_nil _).symm⟩
  | interrupt =>
      simp only [PitSys.step]
      split
      · exact ⟨[], (List.append_nil _).symm⟩
      · exact ⟨_, rfl⟩

theorem run_history (nonPositive : Seconds → Bool) (computePitWait : Seconds → PitWaitSplit)
    (S : PitSys) (es : List (PitEvent Seconds)) :
    ∃ h, (run (PitSys.step nonPositive computePitWait) S es).history = S.history ++ h := by
  induction es generalizing S with
  | nil => exact ⟨[], (List.append_nil _).symm⟩
  | cons e es ih =>
      obtain ⟨h₁, e₁⟩ := step_history nonPositive computePitWait S e
      obtain ⟨h₂, e₂⟩ := ih (S.step nonPositive computePitWait e)
      exact ⟨h₁ ++ h₂, by rw [run_cons, e₂, e₁, List.append_assoc]⟩

end Step

/-! ## 4. Exactly-once delivery -/

/-- **Exactly-once delivery, read off a history**: no flag is written twice, a flag is written
    only after it was registered and not after it was delivered, and once at least as many
    interrupts followed the last registration as flags were outstanding then, none is left. -/
structure ExactlyOnce (h : List PitObs) : Prop where
  once : (writtenFlags h).Nodup
  afterRegistration : ∀ pre post a, h = pre ++ PitObs.irq (some a) :: post →
    PitObs.registered a ∈ pre
  notDelivered : ∀ pre post a, h = pre ++ PitObs.irq (some a) :: post →
    PitObs.irq (some a) ∉ pre
  drained : ∀ pre post a, h = pre ++ PitObs.registered a :: post → registeredFlags post = [] →
    (outstanding (pre ++ [PitObs.registered a])).length ≤ post.length → outstanding h = []

/-- An interrupt meets the bit set, or a slot that was never used. -/
def Fresh {Seconds : Type} (S : PitSys) : PitEvent Seconds → Prop
  | .register _ _ => True
  | .interrupt => S.pit.pitIsNewTimeout = true ∨ S.pit.pitMsgAddress S.pit.pitWriteIndex = none

/-- Where a list with one more element splits: at the new element, or before it. -/
theorem snoc_split {α : Type*} {l pre post : List α} {x y : α}
    (h : l ++ [x] = pre ++ y :: post) :
    (post = [] ∧ l = pre ∧ x = y) ∨ ∃ post', post = post' ++ [x] ∧ l = pre ++ y :: post' := by
  rcases List.eq_nil_or_concat post with rfl | ⟨post', z, rfl⟩
  · have := List.append_inj' h rfl
    exact .inl ⟨rfl, this.1, by simpa using this.2⟩
  · have e : l ++ [x] = (pre ++ y :: post') ++ [z] := by simpa using h
    have := List.append_inj' e rfl
    have hz : x = z := by simpa using this.2
    exact .inr ⟨post', by rw [hz]; simp, this.1⟩

theorem exactlyOnce_nil : ExactlyOnce [] where
  once := List.nodup_nil
  afterRegistration pre post a h := by simp at h
  notDelivered pre post a h := by simp at h
  drained pre post a h := by simp at h

/-- A registration keeps exactly-once delivery: the new flag is outstanding. -/
theorem exactlyOnce_registered {h : List PitObs} {a : Addr} (hE : ExactlyOnce h)
    (ha : a ∉ writtenFlags h) : ExactlyOnce (h ++ [PitObs.registered a]) where
  once := by simpa [writtenFlags] using hE.once
  afterRegistration pre post b e := by
    rcases snoc_split e with ⟨_, _, h3⟩ | ⟨post', _, h2⟩
    · cases h3
    · exact hE.afterRegistration pre post' b h2
  notDelivered pre post b e := by
    rcases snoc_split e with ⟨_, _, h3⟩ | ⟨post', _, h2⟩
    · cases h3
    · exact hE.notDelivered pre post' b h2
  drained pre post b e hr hl := by
    rcases snoc_split e with ⟨h1, h2, h3⟩ | ⟨post', h1, _⟩
    · cases h3
      subst h1 h2
      rw [outstanding_registered ha] at hl
      simp at hl
    · rw [h1, registeredFlags_append] at hr
      simp [registeredFlags] at hr

/-- An interrupt before any registration keeps it. -/
theorem exactlyOnce_idle {h : List PitObs} (hE : ExactlyOnce h) (hr : registeredFlags h = []) :
    ExactlyOnce (h ++ [PitObs.irq none]) where
  once := by simpa [writtenFlags] using hE.once
  afterRegistration pre post b e := by
    rcases snoc_split e with ⟨_, _, h3⟩ | ⟨post', _, h2⟩
    · cases h3
    · exact hE.afterRegistration pre post' b h2
  notDelivered pre post b e := by
    rcases snoc_split e with ⟨_, _, h3⟩ | ⟨post', _, h2⟩
    · cases h3
    · exact hE.notDelivered pre post' b h2
  drained _ _ _ _ _ _ := by
    rw [outstanding_idle]
    simp [outstanding, hr]

/-- **The delivering interrupt keeps it**: right after a registration `a` the flag `a` is written
    for the first time, and only if it was the only one outstanding does one interrupt suffice. -/
theorem exactlyOnce_deliver {h l : List PitObs} {a : Addr} {o : List Addr} (hE : ExactlyOnce h)
    (hl : h = l ++ [PitObs.registered a]) (hn : (registeredFlags h).Nodup)
    (ho : outstanding h = o ++ [a]) : ExactlyOnce (h ++ [PitObs.irq (some a)]) where
  once := by
    have hmem : a ∈ outstanding h := by rw [ho]; simp
    have ha : a ∉ writtenFlags h := by simpa using (List.mem_filter.mp hmem).2
    rw [writtenFlags_append]
    refine List.nodup_append.mpr ⟨hE.once, by simp [writtenFlags], ?_⟩
    intro b hb c hc e
    have hca : c = a := by simpa [writtenFlags] using hc
    exact ha (hca ▸ e ▸ hb)
  afterRegistration pre post b e := by
    rcases snoc_split e with ⟨_, h2, h3⟩ | ⟨post', _, h2⟩
    · cases h3
      rw [← h2, hl]; simp
    · exact hE.afterRegistration pre post' b h2
  notDelivered pre post b e := by
    rcases snoc_split e with ⟨_, h2, h3⟩ | ⟨post', _, h2⟩
    · cases h3
      have hmem : a ∈ outstanding h := by rw [ho]; simp
      rw [← h2, ← mem_writtenFlags]
      simpa using (List.mem_filter.mp hmem).2
    · exact hE.notDelivered pre post' b h2
  drained pre post b e hr hlen := by
    rw [outstanding_deliver hn ho]
    rcases snoc_split e with ⟨_, _, h3⟩ | ⟨post', h1, h2⟩
    · cases h3
    · -- the last registration is `a` itself: nothing else follows it
      have hpost : post' = [] := by
        rcases List.eq_nil_or_concat post' with h | ⟨q, z, h⟩
        · exact h
        · exfalso
          subst h
          have e' : l ++ [PitObs.registered a] = (pre ++ PitObs.registered b :: q) ++ [z] := by
            rw [← hl, h2]; simp
          have hz : PitObs.registered a = z := by simpa using (List.append_inj' e' rfl).2
          rw [h1, ← hz] at hr
          simp [registeredFlags] at hr
      subst hpost
      rw [← h2, ho, h1] at hlen
      simpa using hlen

section Main

variable {Seconds : Type} {nonPositive : Seconds → Bool} {computePitWait : Seconds → PitWaitSplit}

theorem exactlyOnce_step {S : PitSys} (hI : PitInv S) (hE : ExactlyOnce S.history)
    {e : PitEvent Seconds} (hL : Legal nonPositive computePitWait S e) (hF : Fresh S e) :
    ExactlyOnce (S.step nonPositive computePitWait e).history := by
  cases e with
  | register t a =>
      obtain ⟨hh, _⟩ := step_register hI hL
      rw [hh]
      exact exactlyOnce_registered hE fun h => hL.2.1 (hI.wasRegistered a h)
  | interrupt =>
      rcases step_interrupt nonPositive computePitWait hI with
        ⟨hnew, l, a, ho, hh, _⟩ | ⟨_, hr, _, hh, _⟩ | ⟨hf, a, _, haw, _⟩
      · obtain ⟨pre, b, hb⟩ := hI.newIff.mp hnew
        -- the newest outstanding flag is the one just registered
        have hba : b = a := by
          have hbw : b ∉ writtenFlags pre := by
            intro h
            have hp := hE.afterRegistration
            obtain ⟨p, q, hpq⟩ := List.append_of_mem (mem_writtenFlags.mp h)
            have hmem := hp p (q ++ [PitObs.registered b]) b (by rw [hb, hpq]; simp)
            have hnd := hI.nodup
            rw [hb, registeredFlags_append] at hnd
            have hin : b ∈ registeredFlags pre := by
              rw [mem_registeredFlags, hpq]
              exact List.mem_append_left _ hmem
            exact (List.nodup_append.mp hnd).2.2 b hin b (by simp [registeredFlags]) rfl
          rw [hb, outstanding_registered hbw] at ho
          simpa using (List.append_inj' ho rfl).2
        subst hba
        rw [hh]
        exact exactlyOnce_deliver hE hb hI.nodup ho
      · rw [hh]
        exact exactlyOnce_idle hE hr
      · rcases hF with h | h
        · rw [hf] at h; cases h
        · rw [haw] at h; cases h

/-- **PIT timeouts are delivered exactly once precisely when no interrupt is stale.** Over every
    interleaving of registrations (valid times, distinct flags, at most `PIT_MAX_MSG`
    outstanding) and interrupts, from the zero-initialised globals. -/
theorem pit_exactlyOnce_iff (mem : Addr → Nat) (es : List (PitEvent Seconds))
    (hL : Guarded (PitSys.step nonPositive computePitWait) (Legal nonPositive computePitWait)
      (.boot mem) es) :
    ExactlyOnce (run (PitSys.step nonPositive computePitWait) (.boot mem) es).history ↔
      Guarded (PitSys.step nonPositive computePitWait) Fresh (.boot mem) es := by
  have key : ∀ (es : List (PitEvent Seconds)) (S : PitSys), PitInv S → ExactlyOnce S.history →
      Guarded (PitSys.step nonPositive computePitWait) (Legal nonPositive computePitWait) S es →
      (ExactlyOnce (run (PitSys.step nonPositive computePitWait) S es).history ↔
        Guarded (PitSys.step nonPositive computePitWait) Fresh S es) := by
    intro es
    induction es with
    | nil => exact fun S _ hE _ => ⟨fun _ => trivial, fun _ => hE⟩
    | cons e es ih =>
        intro S hI hE hL
        have hI' := pitInv_step hI hL.1
        refine ⟨fun hfin => ?_, fun hF =>
          (ih _ hI' (exactlyOnce_step hI hE hL.1 hF.1) hL.2).mpr hF.2⟩
        have hF : Fresh S e := by
          cases e with
          | register t a => trivial
          | interrupt =>
              rcases step_interrupt nonPositive computePitWait hI with
                ⟨hnew, _⟩ | ⟨_, _, hn, _⟩ | ⟨_, a, hw, _, hh, _⟩
              · exact .inl hnew
              · exact .inr hn
              · -- a stale interrupt writes a delivered flag, and the history keeps it
                exfalso
                obtain ⟨rest, hrest⟩ := run_history nonPositive computePitWait
                  (S.step nonPositive computePitWait .interrupt) es
                refine hfin.notDelivered S.history rest a ?_ (mem_writtenFlags.mp hw)
                rw [run_cons, hrest, hh]
                simp
        exact ⟨hF, (ih _ hI' (exactlyOnce_step hI hE hL.1 hF) hL.2).mp hfin⟩
  exact key es _ (pitInv_boot mem) exactlyOnce_nil hL

end Main

/-- Times in milliseconds, split as `compute_pit_wait` splits them below one full cycle. -/
def splitMillis (ms : Nat) : PitWaitSplit := ⟨ms * 1193182 / 65536000, ms * 65536 / 1000⟩

/-- One registration and one interrupt: the flag is delivered, once. -/
theorem pit_one_timeout_once :
    ExactlyOnce (run (PitSys.step (· == 0) splitMillis) (.boot fun _ => 0)
      [.register 1 0x1000, .interrupt]).history :=
  (pit_exactlyOnce_iff (fun _ => 0) [.register 1 0x1000, .interrupt]
    ⟨⟨⟨rfl, rfl⟩, by decide, by decide⟩, trivial, trivial⟩).mpr
    ⟨trivial, .inl rfl, trivial⟩

/-- **Two registrations, two interrupts**: the second interrupt finds the bit clear, does not
    move the index and writes the newer flag again; the older one is never written. -/
theorem pit_two_timeouts_not_once :
    Guarded (PitSys.step (· == 0) splitMillis) (Legal (· == 0) splitMillis) (.boot fun _ => 0)
      [.register 1 0x1000, .register 1 0x2000, .interrupt, .interrupt] ∧
    ¬ ExactlyOnce (run (PitSys.step (· == 0) splitMillis) (.boot fun _ => 0)
      [.register 1 0x1000, .register 1 0x2000, .interrupt, .interrupt]).history := by
  refine ⟨⟨⟨⟨rfl, rfl⟩, by decide, by decide⟩, ⟨⟨rfl, rfl⟩, by decide, by decide⟩, trivial,
    trivial, trivial⟩, fun hE => ?_⟩
  exact hE.notDelivered
    [.registered 0x1000, .registered 0x2000, .irq (some 0x2000)] [] 0x2000 rfl (by decide)

end MapleKernel.Timers
