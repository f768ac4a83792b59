/-
  File:      Kernel/MulticoreSetup.lean
  Subject:   BRINGING UP THE CORES (`multicore_setup`, `apic::wake_core`): which slots of the arrays
             that have one slot for each core are used.

  The index is the `apic_id` of a record of the MADT, any byte. The arrays have
  `MAX_CORE_COUNT` = 12 slots; the only check on the way, in `send_init`, is that the id fits into
  the four bits of the command register. The boot core is not woken, but its record is checked at
  the end like the others; before any array is used it loads FS and GS with selectors made of its
  id, and a table of descriptors that does not reach so far stops it there.

  * `setupStep` -- one statement of `multicore_setup` and of `wake_core`, from the source; what the
    helpers return and what the polls read is answered from outside (`Answer`);
  * `accesses` -- ghost data: the slots used so far;
  * `IdsFit` -- on which tables and boot cores no slot is missing;
  * `indexesInBounds_iff` -- exactly there every run stays inside the arrays.

  How long `wake_core` polls is the subject of Cpu/WakeCore.lean; here a poll may go on for ever.
  The table of descriptors is that of Cpu/MulticoreGdt.lean.
-/
import MapleKernel.Cpu.MulticoreGdt
import MapleKernel.Cpu.WakeCore
import MapleKernel.Firmware.Madt

namespace MapleKernel.Kernel

open Runs Cpu Firmware

/-! ## 1. The machine -/

/-- The arrays with `MAX_CORE_COUNT` slots. -/
inductive CoreArray where
  | coreIsActive | coreMains | coreHasBooted | masterTellsCoreToStart | enteredMain
  deriving DecidableEq, Repr

/-- What the world outside answers: a helper returns no error or one, or one of its asserts stops
the boot core; a flag is set or not. -/
inductive Answer where
  | yes | no | aborts
  deriving DecidableEq, Repr

/-- The statements; `g` is the new table of descriptors, `i` the index of the record, `n` that of
the long timeout. -/
inductive SetupPc where
  | readFirmware
  | initMulticoreGdt
  | loadGs (g : Gdt)
  | loadFs (g : Gdt)
  | setFastCoreId (g : Gdt)
  | initIoApic
  | wakeLoop (i : Nat)
  | sendInit (i : Nat)
  | setCoreMain (i : Nat)
  | firstSipi (i : Nat)
  | shortTimeout (i : Nat)
  | shortPoll (i : Nat)
  | shortFinished (i : Nat)
  | longSipi (i : Nat)
  | longTimeout (i n : Nat)
  | longPoll (i n : Nat)
  | longFinished (i n : Nat)
  | tellCore (i : Nat)
  | wakeReturned (i : Nat) (err : ApicError)
  | waitEnteredMain (i : Nat)
  | checkLoop (i : Nat)
  | done
  | aborted
  | faulted
  deriving DecidableEq

structure SetupState where
  pc : SetupPc
  coreIsActive : UInt8 → Bool
  accesses : List (CoreArray × UInt8)

/-- `parsed_madt.processor_local_apics`, as far as the ids go. -/
structure LocalApics where
  apicIds : List UInt8
  length_le : apicIds.length ≤ EntryType.max .processorLocalApic

namespace LocalApics

variable (M : LocalApics)

def runtimeCoreCount : Nat := M.apicIds.length

/-- `processor_local_apics[i]->apic_id`. -/
def apicId (i : Nat) : UInt8 := M.apicIds.getD i 0

end LocalApics

/-- The boot core: its id, where the linker puts `all_fs_and_gs`, the table of descriptors that it
was started with, and what is in its segment registers. -/
structure BootCore where
  id : UInt8
  allFsAndGs : UInt32
  old : OldGdt
  segments : SegmentRegisters

namespace SetupState

variable (s : SetupState)

def goto (pc : SetupPc) : SetupState := { s with pc }

def use (array : CoreArray) (coreId : UInt8) : SetupState :=
  { s with accesses := s.accesses ++ [(array, coreId)] }

/-- A helper was called. -/
def call (a : Answer) (none error : SetupPc) : SetupState :=
  match a with
  | .yes => s.goto none
  | .no => s.goto error
  | .aborts => s.goto .aborted

/-- A flag was read. -/
def read (a : Answer) (set unset : SetupPc) : SetupState :=
  if a = .yes then s.goto set else s.goto unset

/-- A segment register was loaded or used: the processor goes on, or raises #GP. -/
def protect (ok : Bool) (pc : SetupPc) : SetupState :=
  if ok then s.goto pc else s.goto .faulted

/-- The call. `core_is_active[0]` is true, the rest is not. -/
def start : SetupState := ⟨.readFirmware, fun coreId => coreId = 0, []⟩

end SetupState

/-- **One statement of the boot core.** -/
def setupStep (M : LocalApics) (B : BootCore) (s : SetupState) (a : Answer) : SetupState :=
  match s.pc with
  | .readFirmware => s.call a .initMulticoreGdt .aborted
  | .initMulticoreGdt =>
      match initMulticoreGdt B.allFsAndGs B.old with
      | .ok g => s.goto (.loadGs g)
      | .error _ => s.goto .aborted
  | .loadGs g =>
      -- the call for `fs` moves to GS
      s.protect (g.loads (setFsOrSegmentSelector B.id .fs B.segments).gs) (.loadFs g)
  | .loadFs g => s.protect (g.loads (bootSelectors B.id B.segments).fs) (.setFastCoreId g)
  | .setFastCoreId g => s.protect (g.takesCoreId (bootSelectors B.id B.segments).fs) .initIoApic
  | .initIoApic => s.call a (.wakeLoop 0) .aborted
  | .wakeLoop i =>
      if i < M.runtimeCoreCount then
        if M.apicId i = B.id then s.goto (.wakeLoop (i + 1)) else s.goto (.sendInit i)
      else s.goto (.checkLoop 0)
  | .sendInit i =>
      if M.apicId i ≤ 0b1111 then s.call a (.setCoreMain i) (.wakeReturned i .timeoutSendingIpi)
      else s.goto .aborted
  | .setCoreMain i => (s.use .coreMains (M.apicId i)).goto (.firstSipi i)
  | .firstSipi i => s.call a (.shortTimeout i) (.wakeReturned i .timeoutSendingIpi)
  | .shortTimeout i => s.call a (.shortPoll i) (.wakeReturned i .badTime)
  | .shortPoll i =>
      (s.use .coreHasBooted (M.apicId i)).read a (.tellCore i) (.shortFinished i)
  | .shortFinished i => s.read a (.longSipi i) (.shortPoll i)
  | .longSipi i => s.call a (.longTimeout i 0) (.wakeReturned i .timeoutSendingIpi)
  | .longTimeout i n =>
      if n < timeoutCount then s.call a (.longPoll i n) (.wakeReturned i .badTime)
      else s.goto (.wakeReturned i .bootCoreTimeout)
  | .longPoll i n =>
      (s.use .coreHasBooted (M.apicId i)).read a (.tellCore i) (.longFinished i n)
  | .longFinished i n => s.read a (.longTimeout i (n + 1)) (.longPoll i n)
  | .tellCore i =>
      (s.use .masterTellsCoreToStart (M.apicId i)).goto (.wakeReturned i .none)
  | .wakeReturned i err =>
      let active := decide (err = .none)
      let s := { s.use .coreIsActive (M.apicId i) with
        coreIsActive := Function.update s.coreIsActive (M.apicId i) active }
      if active then s.goto (.waitEnteredMain i) else s.goto (.wakeLoop (i + 1))
  | .waitEnteredMain i =>
      (s.use .enteredMain (M.apicId i)).read a (.wakeLoop (i + 1)) (.waitEnteredMain i)
  | .checkLoop i =>
      if i < M.runtimeCoreCount then
        -- the message and the assert read the slot
        let s := s.use .coreIsActive (M.apicId i)
        if s.coreIsActive (M.apicId i) then s.goto (.checkLoop (i + 1)) else s.goto .aborted
      else s.goto .done
  | .done => s
  | .aborted => s
  | .faulted => s

/-! ## 2. Which tables fit -/

/-- **Every slot used so far exists.** -/
def InBounds (s : SetupState) : Prop := ∀ x ∈ s.accesses, x.2.toNat < maxCoreCount

instance (s : SetupState) : Decidable (InBounds s) :=
  inferInstanceAs (Decidable (∀ x ∈ s.accesses, x.2.toNat < maxCoreCount))

section Fit

variable (M : LocalApics) (B : BootCore)

/-- The first `n` records pass the assert of `send_init`, or are the boot core's. -/
def PassBefore (n : Nat) : Prop := ∀ j < n, M.apicId j = B.id ∨ M.apicId j ≤ 0b1111

/-- **The ids fit.** If the boot core comes through the loads of its segment registers, a core
whose record comes before any that stops at the assert has a slot, unless it is the boot core. -/
def IdsFit : Prop :=
  BootTableFits B.old B.id → ∀ i < M.runtimeCoreCount, PassBefore M B (i + 1) →
    M.apicId i ≠ B.id → (M.apicId i).toNat < maxCoreCount

/-- The core of record `i` is being woken. -/
structure Waking (i : Nat) : Prop where
  table : BootTableFits B.old B.id
  lt : i < M.runtimeCoreCount
  ne : M.apicId i ≠ B.id
  pass : PassBefore M B (i + 1)

/-- The table stands, and the first loads went through. -/
structure Loading (g : Gdt) (gs fs : Bool) : Prop where
  made : initMulticoreGdt B.allFsAndGs B.old = .ok g
  gs : gs = true → g.loads (bootSelectors B.id B.segments).gs = true
  fs : fs = true → g.loads (bootSelectors B.id B.segments).fs = true

/-- What is known at a statement. -/
def SetupPc.Inv : SetupPc → Prop
  | .loadGs g => Loading B g false false
  | .loadFs g => Loading B g true false
  | .setFastCoreId g => Loading B g true true
  | .initIoApic => BootTableFits B.old B.id
  | .wakeLoop i => BootTableFits B.old B.id ∧ PassBefore M B i
  | .sendInit i =>
      BootTableFits B.old B.id ∧ i < M.runtimeCoreCount ∧ M.apicId i ≠ B.id ∧ PassBefore M B i
  | .setCoreMain i | .firstSipi i | .shortTimeout i | .shortPoll i | .shortFinished i
  | .longSipi i | .longTimeout i _ | .longPoll i _ | .longFinished i _ | .tellCore i
  | .wakeReturned i _ | .waitEnteredMain i => Waking M B i
  | .checkLoop _ => BootTableFits B.old B.id ∧ PassBefore M B M.runtimeCoreCount
  | .readFirmware | .initMulticoreGdt | .done | .aborted | .faulted => True

/-- **The invariant.** -/
structure SetupInv (s : SetupState) : Prop where
  inBounds : InBounds s
  pc : s.pc.Inv M B

end Fit

section Inv

variable {M : LocalApics} {B : BootCore} {s : SetupState} {pc pc' : SetupPc}

theorem PassBefore.succ {i : Nat} (h : PassBefore M B i)
    (hi : M.apicId i = B.id ∨ M.apicId i ≤ 0b1111) : PassBefore M B (i + 1) := by
  intro j hj
  rcases Nat.lt_succ_iff_lt_or_eq.mp hj with hlt | heq
  · exact h j hlt
  · rw [heq]
    exact hi

theorem PassBefore.mono {i j : Nat} (h : PassBefore M B i) (hle : j ≤ i) :
    PassBefore M B j :=
  fun k hk => h k (hk.trans_le hle)

theorem InBounds.use (h : InBounds s) (array : CoreArray) {coreId : UInt8}
    (hid : coreId.toNat < maxCoreCount) : InBounds (s.use array coreId) := by
  intro x hx
  rcases List.mem_append.mp hx with hold | hnew
  · exact h x hold
  · rw [List.mem_singleton.mp hnew]
    exact hid

theorem InBounds.call (h : InBounds s) (a : Answer) (hpc : pc.Inv M B)
    (hpc' : pc'.Inv M B) : SetupInv M B (s.call a pc pc') := by
  cases a with
  | yes => exact ⟨h, hpc⟩
  | no => exact ⟨h, hpc'⟩
  | aborts => exact ⟨h, trivial⟩

theorem InBounds.read (h : InBounds s) (a : Answer) (hpc : pc.Inv M B)
    (hpc' : pc'.Inv M B) : SetupInv M B (s.read a pc pc') := by
  rw [SetupState.read]
  split
  · exact ⟨h, hpc⟩
  · exact ⟨h, hpc'⟩

theorem InBounds.protect (h : InBounds s) {ok : Bool} (hpc : ok = true → pc.Inv M B) :
    SetupInv M B (s.protect ok pc) := by
  rw [SetupState.protect]
  split
  · next hok => exact ⟨h, hpc hok⟩
  · exact ⟨h, trivial⟩

/-- A boot core that comes through its loads has a slot. -/
theorem bootCore_slot (h : BootTableFits B.old B.id) : B.id.toNat < maxCoreCount := by
  obtain ⟨h24, hroom⟩ := h
  omega

/-- Every statement keeps the invariant. -/
theorem setupStep_inv (hfit : IdsFit M B) (h : SetupInv M B s) (a : Answer) :
    SetupInv M B (setupStep M B s a) := by
  have hb := h.inBounds
  have hpc := h.pc
  have hslot : ∀ {i}, Waking M B i → (M.apicId i).toNat < maxCoreCount :=
    fun hw => hfit hw.table _ hw.lt hw.pass hw.ne
  rw [setupStep]
  generalize s.pc = pc at hpc
  cases pc with
  | readFirmware => exact hb.call a trivial trivial
  | initMulticoreGdt =>
      dsimp only
      split
      · next g hg => exact ⟨hb, hg, nofun, nofun⟩
      · exact ⟨hb, trivial⟩
  | loadGs g => exact hb.protect fun hgs => ⟨hpc.made, fun _ => hgs, nofun⟩
  | loadFs g => exact hb.protect fun hfs => ⟨hpc.made, hpc.gs, fun _ => hfs⟩
  | setFastCoreId g =>
      exact hb.protect fun htakes =>
        (bootCoreLoads_iff hpc.made B.id B.segments).mp ⟨hpc.gs rfl, hpc.fs rfl, htakes⟩
  | initIoApic =>
      have hnone : PassBefore M B 0 := fun j hj => absurd hj (Nat.not_lt_zero j)
      exact hb.call a ⟨hpc, hnone⟩ trivial
  | wakeLoop i =>
      obtain ⟨htable, hpass⟩ := hpc
      dsimp only
      split
      · next hlt =>
          split
          · next hboot => exact ⟨hb, htable, hpass.succ (.inl hboot)⟩
          · next hne => exact ⟨hb, htable, hlt, hne, hpass⟩
      · next hge => exact ⟨hb, htable, hpass.mono (not_lt.mp hge)⟩
  | sendInit i =>
      obtain ⟨htable, hlt, hne, hpass⟩ := hpc
      dsimp only
      split
      · next hle =>
          have hw : Waking M B i := ⟨htable, hlt, hne, hpass.succ (.inr hle)⟩
          exact hb.call a hw hw
      · exact ⟨hb, trivial⟩
  | firstSipi i | shortTimeout i | longSipi i => exact hb.call a hpc hpc
  | longTimeout i n =>
      dsimp only
      split
      · exact hb.call a hpc hpc
      · exact ⟨hb, hpc⟩
  | shortFinished i | longFinished i n => exact hb.read a hpc hpc
  | setCoreMain i | tellCore i => exact ⟨hb.use _ (hslot hpc), hpc⟩
  | shortPoll i | longPoll i n => exact (hb.use _ (hslot hpc)).read a hpc hpc
  | wakeReturned i err =>
      have hpass : PassBefore M B (i + 1) := hpc.pass
      dsimp only
      split
      · exact ⟨hb.use _ (hslot hpc), hpc⟩
      · exact ⟨hb.use _ (hslot hpc), hpc.table, hpass⟩
  | waitEnteredMain i => exact (hb.use _ (hslot hpc)).read a ⟨hpc.table, hpc.pass⟩ hpc
  | checkLoop i =>
      obtain ⟨htable, hpass⟩ := hpc
      dsimp only
      split
      · next hlt =>
          have hid : (M.apicId i).toNat < maxCoreCount := by
            by_cases hboot : M.apicId i = B.id
            · rw [hboot]
              exact bootCore_slot htable
            · exact hfit htable i hlt (hpass.mono hlt) hboot
          split
          · exact ⟨hb.use _ hid, htable, hpass⟩
          · exact ⟨hb.use _ hid, trivial⟩
      · exact ⟨hb, trivial⟩
  | done | aborted | faulted => exact h

end Inv

/-! ## 3. Runs that come to a record -/

section Reach

variable {M : LocalApics} {B : BootCore} {s : SetupState} {i : Nat}

/-- The boot core comes to the loop when everything goes well before it. -/
theorem run_start (M : LocalApics) (htable : BootTableFits B.old B.id) :
    run (setupStep M B) .start (List.replicate 6 .yes)
      = { SetupState.start with pc := .wakeLoop 0 } := by
  have hspec := initMulticoreGdt_spec B.allFsAndGs B.old
  rw [if_pos (by have heven := htable.1; omega)] at hspec
  obtain ⟨g, hg, -⟩ := hspec
  obtain ⟨hgs, hfs, htakes⟩ := (bootCoreLoads_iff hg B.id B.segments).mpr htable
  have hgs' : g.loads (setFsOrSegmentSelector B.id .fs B.segments).gs = true := hgs
  simp [List.replicate, setupStep, SetupState.goto, SetupState.call, SetupState.protect,
    SetupState.start, hg, hgs', hfs, htakes]

/-- A core that can be addressed wakes up when everything goes well. -/
theorem run_wakes (hs : s.pc = .wakeLoop i) (hlt : i < M.runtimeCoreCount)
    (hne : M.apicId i ≠ B.id) (hle : M.apicId i ≤ 0b1111) :
    (run (setupStep M B) s (List.replicate 9 .yes)).pc = .wakeLoop (i + 1) := by
  simp [List.replicate, setupStep, SetupState.goto, SetupState.use, SetupState.call,
    SetupState.read, hs, hlt, hne, hle]

theorem exists_run_wakeLoop (htable : BootTableFits B.old B.id) (hi : i ≤ M.runtimeCoreCount)
    (hpass : PassBefore M B i) : ∃ l, (run (setupStep M B) .start l).pc = .wakeLoop i := by
  induction i with
  | zero => exact ⟨List.replicate 6 .yes, congrArg SetupState.pc (run_start M htable)⟩
  | succ i ih =>
      have hlt : i < M.runtimeCoreCount := hi
      obtain ⟨l, hpc⟩ := ih (Nat.le_of_lt hlt) (hpass.mono i.le_succ)
      by_cases hboot : M.apicId i = B.id
      · refine ⟨l ++ [Answer.yes], ?_⟩
        rw [run_append, run_cons, run_nil, setupStep, hpc]
        dsimp only
        rw [if_pos hlt, if_pos hboot]
        rfl
      · have hle := (hpass i i.lt_succ_self).resolve_left hboot
        refine ⟨l ++ List.replicate 9 Answer.yes, ?_⟩
        rw [run_append]
        exact run_wakes hpc hlt hboot hle

theorem idsFit_of_inBounds (h : ∀ l, InBounds (run (setupStep M B) .start l)) : IdsFit M B := by
  intro htable i hlt hpass hne
  obtain ⟨l, hpc⟩ := exists_run_wakeLoop htable (Nat.le_of_lt hlt) (hpass.mono i.le_succ)
  have hle := (hpass i i.lt_succ_self).resolve_left hne
  -- `core_mains[core_id] = core_main`
  refine h (l ++ List.replicate 3 Answer.yes) (.coreMains, M.apicId i) ?_
  rw [run_append]
  simp [setupStep, SetupState.goto, SetupState.use, SetupState.call, hpc, hlt, hne, hle]

end Reach

/-- **Every run stays inside the arrays exactly when the ids fit.** -/
theorem indexesInBounds_iff (M : LocalApics) (B : BootCore) :
    (∀ l, InBounds (run (setupStep M B) .start l)) ↔ IdsFit M B := by
  refine ⟨idsFit_of_inBounds, fun hfit l => ?_⟩
  have hstart : SetupInv M B .start := ⟨fun x hx => absurd hx List.not_mem_nil, trivial⟩
  exact (run_inv (P := SetupInv M B) (fun s a hs => setupStep_inv hfit hs a) hstart l).inBounds

/-- Two cores, the second with id 12; the first one boots, with a boot table of 4 entries. -/
def sparseApics : LocalApics := ⟨[0, 12], by decide⟩
def bootCore0 : BootCore := ⟨0, 0x8000, bootGdt, ⟨0, 0⟩⟩

theorem not_inBounds_sparseApics :
    ¬ InBounds (run (setupStep sparseApics bootCore0) .start (List.replicate 10 .yes)) := by
  have hsplit : List.replicate 10 Answer.yes = List.replicate 6 .yes ++ List.replicate 4 .yes := rfl
  rw [hsplit, run_append, run_start sparseApics (by decide)]
  decide +kernel

end MapleKernel.Kernel
