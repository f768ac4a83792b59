/-
  File:      Kernel/InterruptRoutes.lean
  Subject:   WHERE AN INTERRUPT ENDS AFTER THE BOOT (`kernel_helper.c`, `ps2_keyboard.c`,
             `kernel_cpp.cpp`): from the line of a device to the address of the routine.

  Three tables lie between a line and a routine: the redirection entries of the I/O APIC, which
  `multicore_setup` writes by the firmware's overrides, the masks and bases of the two controllers,
  and the descriptor table. Each is written from constants of its own.

  * `ioRoute`, `picRoute` -- the ways through the hardware;
  * `boot_routes` -- an interrupt of the timer or a port ends in the routine for the device that is
    there;
  * `keyboard_routes` -- after `setup_keyboard` that of the keyboard does so exactly if there was no
    error; else its line is open, its descriptor is not present, and the processor ends in the
    routine of the exception.
-/
import MapleKernel.Cpu.ApicIo
import MapleKernel.Drivers.KeyboardScanning
import MapleKernel.Kernel.BootTables
import MapleKernel.Kernel.IrqToGsi

namespace MapleKernel.Kernel

open Cpu Drivers Program LastWrite

/-! ## 1. The routes -/

/-- An interrupt through an open entry of the I/O APIC, with the vector of the entry. -/
def ioRoute (d : IoApic) (s : IdtState) (gsi : UInt8) : Option (List UInt8 × GateRead) :=
  let low := (d.entry gsi).redLow
  if low.mask = 0 ∧ low.deliveryMode = 0 ∧ low.destinationMode = 0 then
    some (takeInterrupt s.idt ⟨low.vector⟩)
  else none

/-- An interrupt through the two controllers: the request, and what the processor takes then. -/
def picRoute (p : Pics) (s : IdtState) (irq : UInt8) : Option (List UInt8 × GateRead) :=
  (p.request irq).acknowledge.1.map fun x => takeInterrupt s.idt x.2

/-- The interrupt ends in the routine of its vector. -/
def inRoutine (env : IdtEnv) (vector : UInt8) (isr : Isr) : List UInt8 × GateRead :=
  ([vector], .opens (kernelGate env.address isr))

/-- It ends in the routine of the exception that its gate raises. -/
def inException (env : IdtEnv) (vector fault : UInt8) : List UInt8 × GateRead :=
  ([vector, fault], .opens (kernelGate env.address (.interruptHandler fault)))

/-- **Every interrupt ends where it belongs**: descriptor table in memory `s`, chips `p`, I/O APIC
    `d'`, which was `d` before. -/
structure Routes (env : IdtEnv) (r : InitializeDeviceState) (isos : List InterruptSourceOverride)
    (s : IdtState) (p : Pics) (d d' : IoApic) : Prop where
  /-- A vector without a routine ends in that of #GP. -/
  gates : ∀ v, takeInterrupt s.idt v =
    if bootVectors env.debug v then inRoutine env v (bootIsr r v) else inException env v 13
  timer : ioRoute d' s (gsiOf isos 0).toUInt8 = some (inRoutine env 32 .pit)
  port1 : ioRoute d' s (gsiOf isos 1).toUInt8 = some (inRoutine env 33 (portIsr r 1))
  port2 : ioRoute d' s (gsiOf isos 12).toUInt8 = some (inRoutine env 44 (portIsr r 2))
  /-- The three go to the core with the id 0. -/
  core : ∀ irq ∈ [0, 1, 12],
    (d'.entry (gsiOf isos irq).toUInt8).redHigh.destination.setWidth 4 = bspApicId
  others : ∀ gsi, (∀ irq ∈ [0, 1, 12], (gsiOf isos irq).toUInt8 ≠ gsi) → d'.entry gsi = d.entry gsi
  controllers : ∀ irq < 16, picRoute p s irq =
    if irq ∈ bootLines r ∧ irq ≠ 2 then some (inRoutine env (32 + irq) (bootIsr r (32 + irq)))
    else none

theorem routineOf_ne_none (port : UInt8) (k : DeviceSuperType) : routineOf port k ≠ .none := by
  cases k with
  | keyboard => exact keyboardInterruptHandlers_ne_none port
  | mouse => exact mouseInterruptHandlers_ne_none port
  | unknown => nofun

theorem bootIsr_ne_none (r : InitializeDeviceState) (v : UInt8) : bootIsr r v ≠ .none := by
  have hport : ∀ port, portIsr r port ≠ .none := by
    intro port
    unfold portIsr
    split
    · exact routineOf_ne_none port _
    · nofun
  unfold bootIsr
  split
  · nofun
  split
  · exact hport 1
  split
  · exact hport 2
  split
  · nofun
  split
  · nofun
  · exact isrStubTable_ne_none v

section Routes

variable {e : Ps2Env} {w w' : World} {r : InitializeDeviceState} {io₁ : Ps2Io} {env : IdtEnv}
  {isos : List InterruptSourceOverride} {junk : UInt8 → UInt8} {t : GsiState} {debug : Bool}

/-- The three entries of the I/O APIC. -/
theorem ioApic_entries (hmaps : MapsIrqs isos t)
    (hdistinct : [gsiOf isos 0, gsiOf isos 1, gsiOf isos 12].Nodup) (padding : BitVec 4)
    (d : IoApic) :
    ∃ d', initIoApic padding t.irqToGsi debug d = (.ok (), d') ∧
      d'.entry (gsiOf isos 0).toUInt8 = initEntry padding 32 ∧
      d'.entry (gsiOf isos 1).toUInt8 = initEntry padding 33 ∧
      d'.entry (gsiOf isos 12).toUInt8 = initEntry padding 44 ∧
      ∀ gsi, (∀ irq ∈ [0, 1, 12], (gsiOf isos irq).toUInt8 ≠ gsi) → d'.entry gsi = d.entry gsi := by
  obtain ⟨d', hrun, hleaves⟩ := initIoApic_leaves debug d padding t.irqToGsi
  have hentry := hleaves.entry
  rw [hmaps.slot (show (0 : UInt8) < numberOfApicIoIrq by decide),
    hmaps.slot (show (1 : UInt8) < numberOfApicIoIrq by decide),
    hmaps.slot (show (12 : UInt8) < numberOfApicIoIrq by decide)] at hentry
  simp only [List.nodup_cons, List.mem_cons, List.not_mem_nil, or_false, not_or] at hdistinct
  have h01 := hmaps.byte_ne (by decide) (by decide) hdistinct.1.1
  have h012 := hmaps.byte_ne (by decide) (by decide) hdistinct.1.2
  have h112 := hmaps.byte_ne (by decide) (by decide) hdistinct.2.1
  have hthree : ∀ gsi, d'.entry gsi =
      if gsi = (gsiOf isos 12).toUInt8 then initEntry padding 44
      else if gsi = (gsiOf isos 1).toUInt8 then initEntry padding 33
      else if gsi = (gsiOf isos 0).toUInt8 then initEntry padding 32
      else d.entry gsi := by
    intro gsi
    rw [hentry]
    simp only [memAfter, List.foldl_cons, List.foldl_nil, Function.update_apply]
  refine ⟨d', hrun, ?_, ?_, ?_, fun gsi hgsi => ?_⟩
  · rw [hthree, if_neg h012, if_neg h01, if_pos rfl]
  · rw [hthree, if_neg h112, if_pos rfl]
  · rw [hthree, if_pos rfl]
  · rw [hthree, if_neg fun h => hgsi 12 (by decide) h.symm,
      if_neg fun h => hgsi 1 (by decide) h.symm, if_neg fun h => hgsi 0 (by decide) h.symm]

/-- What an open entry leads to. -/
theorem ioRoute_of_entry {d : IoApic} {s : IdtState} {gsi : UInt8} {padding : BitVec 4}
    {v : BitVec 8} (h : d.entry gsi = initEntry padding v) :
    ioRoute d s gsi = some (takeInterrupt s.idt ⟨v⟩) := by
  rw [ioRoute, h]
  exact if_pos ⟨rfl, rfl, rfl⟩

/-- The entry is for the core with the id 0, whatever the bits above the field are. -/
theorem destination_initEntry (padding : BitVec 4) (v : BitVec 8) :
    (initEntry padding v).redHigh.destination.setWidth 4 = bspApicId :=
  BitVec.setWidth_append_eq_right

/-- **The lines of the chips**: an open one is next as soon as its request comes in. -/
theorem picRoute_eq {p : Pics} {s : IdtState} {mask : UInt8 → Bool} {irq : UInt8}
    (hmask : ∀ irq < 16, mask irq = !decide (irq ∈ bootLines r))
    (hrep : Represents (p, []) ⟨32, 40, mask, fun _ => false, [], []⟩) (hirq : irq < 16) :
    picRoute p s irq =
      if irq ∈ bootLines r ∧ irq ≠ 2 then some (takeInterrupt s.idt (32 + irq)) else none := by
  have hopen : (Lines.enabled ⟨32, 40, mask, fun _ => false, [], []⟩ irq = true) ↔
      irq ∈ bootLines r ∧ irq ≠ 2 := by
    simp only [Lines.enabled, hmask irq hirq, hmask 2 (by decide), Bool.and_eq_true,
      decide_eq_true hirq, true_and, Bool.not_not, decide_eq_true_eq, Bool.or_eq_true]
    constructor
    · rintro ⟨⟨hne, hmem⟩, -⟩
      exact ⟨hmem, hne⟩
    · rintro ⟨hmem, hne⟩
      refine ⟨⟨hne, hmem⟩, ?_⟩
      rcases mem_bootLines_cases hmem with rfl | ⟨-, htwo⟩
      · exact Or.inl (by decide)
      · exact Or.inr htwo
  have hvector : Lines.vector ⟨32, 40, mask, fun _ => false, [], []⟩ irq = 32 + irq := by
    rw [Lines.vector]
    split
    · rfl
    · show (40 : UInt8) + (irq - 8) = 32 + irq
      grind
  have hnext := (hrep.request irq).acknowledge_eq
  rw [next_request (fun _ => rfl) rfl, vector_request] at hnext
  have htaken : (p.request irq).acknowledge.1 =
      if irq ∈ bootLines r ∧ irq ≠ 2 then some (irq, 32 + irq) else none := by
    by_cases h : irq ∈ bootLines r ∧ irq ≠ 2
    · rw [if_pos (hopen.mpr h)] at hnext
      rw [if_pos h, ← hvector]
      exact congrArg Prod.fst hnext
    · rw [if_neg fun hen => h (hopen.mp hen)] at hnext
      rw [if_neg h]
      exact congrArg Prod.fst hnext
  rw [picRoute, htaken]
  split
  · rfl
  · rfl

/-- **Where an interrupt ends after the boot.** For every behaviour of the PS/2 controller from
    which `setup_interrupts_and_ps2` returns, an empty descriptor table before it, every state of the
    chips with nothing in service and every state of the I/O APIC, if the table of `multicore_setup`
    is right and gives the three interrupts different numbers: the words in memory are those of the
    table, the mask registers those of the masks, and the timer, both ports and the lines of the
    controllers lead to the routine for the device that was found. -/
theorem boot_routes (hsetup : setupPs2Controller e w.io = (.ok r, io₁))
    (hret : setupInterruptsAndPs2 e w = (.ok (), w')) (hempty : ∀ v, w.idt v = ⟨.none, false⟩)
    (hdebug : env.debug = e.debug) {s : IdtState} (hs : Encodes env.address s w.idt w.vectors)
    {p : Pics} (hmaster : p.master.isr = 0) (hslave : p.slave.isr = 0)
    (htable : BuildIrqToGsi isos junk (some t) ∧ MapsIrqs isos t)
    (hdistinct : [gsiOf isos 0, gsiOf isos 1, gsiOf isos 12].Nodup) (padding : BitVec 4)
    (d : IoApic) :
    ∃ s' d', bootTable r env s = (.ok (), s') ∧
      initIoApic padding t.irqToGsi debug d = (.ok (), d') ∧
      (∀ v, s'.idt v = encode env.address (w'.idt v)) ∧
      (∀ irq < 16, PackedBits.test (bootPics r p).imrs irq.toNat = w'.irqMask irq) ∧
      Routes env r isos s' (bootPics r p) d d' := by
  have hr : r.Consistent := ((wp_of_ok hsetup).mp (setupPs2Controller_consistent e w.io)).1
  obtain ⟨hidt, -, -, hirqMask⟩ := (wp_of_ok hret).mp (wp_boot hsetup)
  rw [bootIdt_eq hr] at hidt
  obtain ⟨s', w₂, hrun, hholds, hidt₂, -⟩ := bootTable_ok hdebug hs hr
  have hwords : ∀ v, s'.idt v = encode env.address
      (if bootVectors e.debug v then ⟨bootIsr r v, true⟩ else w.idt v) := by
    intro v
    rw [hholds.encodes.entries, hidt₂]
  obtain ⟨mask, hmask, hrep⟩ := represents_bootPics r hmaster hslave
  obtain ⟨d', hio, h0, h1, h12, hothers⟩ := ioApic_entries htable.2 hdistinct padding d
  have hread : ∀ v, bootVectors env.debug v = true →
      readGate (s'.idt v) = .opens (kernelGate env.address (bootIsr r v)) := by
    intro v hv
    rw [hdebug] at hv
    rw [hwords, readGate_encode, if_pos hv, if_neg (bootIsr_ne_none r v), if_pos rfl]
  have hset : ∀ v ∈ [13, 32, 33, 44], bootVectors env.debug v = true := by
    intro v hv
    simp only [List.mem_cons, List.not_mem_nil, or_false] at hv
    rcases hv with rfl | rfl | rfl | rfl <;> cases env.debug <;> rfl
  have hgates : ∀ v, takeInterrupt s'.idt v =
      if bootVectors env.debug v then inRoutine env v (bootIsr r v) else inException env v 13 := by
    intro v
    by_cases hv : bootVectors env.debug v = true
    · rw [if_pos hv]
      exact takeInterrupt_of_opens (hread v hv)
    · rw [if_neg hv]
      refine takeInterrupt_of_raises ?_ (hread 13 (hset 13 (by decide)))
      rw [hdebug] at hv
      rw [hwords, readGate_encode, if_neg hv, hempty, if_pos rfl]
  refine ⟨s', d', hrun, hio, fun v => ?_, fun irq hirq => ?_, hgates, ?_, ?_, ?_, fun irq hirq => ?_,
    hothers, fun irq hirq => ?_⟩
  · rw [hwords, hidt]
  · rw [hrep.mask irq hirq, hirqMask irq hirq]
    exact hmask irq hirq
  · rw [ioRoute_of_entry h0, show (⟨32⟩ : UInt8) = 32 from rfl, hgates,
      if_pos (hset 32 (by decide))]
    rfl
  · rw [ioRoute_of_entry h1, show (⟨33⟩ : UInt8) = 33 from rfl, hgates,
      if_pos (hset 33 (by decide))]
    rfl
  · rw [ioRoute_of_entry h12, show (⟨44⟩ : UInt8) = 44 from rfl, hgates,
      if_pos (hset 44 (by decide))]
    rfl
  · simp only [List.mem_cons, List.not_mem_nil, or_false] at hirq
    rcases hirq with rfl | rfl | rfl
    · rw [h0, destination_initEntry]
    · rw [h1, destination_initEntry]
    · rw [h12, destination_initEntry]
  · rw [picRoute_eq hmask hrep hirq]
    by_cases h : irq ∈ bootLines r ∧ irq ≠ 2
    · have hvector : bootVectors env.debug (32 + irq) = true := by
        rcases mem_bootLines_cases h.1 with rfl | ⟨rfl | rfl, -⟩
        · exact hset 33 (by decide)
        · exact absurd rfl h.2
        · exact hset 44 (by decide)
      rw [if_pos h, if_pos h, hgates, if_pos hvector]
    · rw [if_neg h, if_neg h]

/-- The zeroed array of words, and the empty table. -/
theorem encodes_start (address : Isr → UInt32) :
    Encodes address ⟨fun _ => 0, 0, fun _ => false⟩ World.start.idt World.start.vectors := by
  refine ⟨fun v => ?_, rfl⟩
  show 0 = encode address ⟨.none, false⟩
  rw [encode, if_pos rfl]
  decide

/-- Keyboard on port one, mouse on port two, and the timer on input 2 of the I/O APIC. -/
theorem boot_routes_qemu :
    ∃ s' d', bootTable ⟨.none, some .none, some .mf2Keyboard1, some .standardMouse⟩
        ⟨false, fun isr => if isr = .pit then 0x101234 else 0x105678⟩
        ⟨fun _ => 0, 0, fun _ => false⟩ = (.ok (), s') ∧
      initIoApic 0 (memAfter (fun _ => 0xAA) (allWrites [⟨0, 0, 2⟩])) false ⟨0, fun _ => 0⟩ =
        (.ok (), d') ∧
      (∀ v, s'.idt v = encode (fun isr => if isr = .pit then 0x101234 else 0x105678)
        ((setupInterruptsAndPs2 (bootEnv keyboardReplies mouseReplies 0xFA) .start).2.idt v)) ∧
      (∀ irq < 16, PackedBits.test (bootPics
          ⟨.none, some .none, some .mf2Keyboard1, some .standardMouse⟩ halfInitialised).imrs
            irq.toNat =
        (setupInterruptsAndPs2 (bootEnv keyboardReplies mouseReplies 0xFA) .start).2.irqMask irq) ∧
      Routes ⟨false, fun isr => if isr = .pit then 0x101234 else 0x105678⟩
        ⟨.none, some .none, some .mf2Keyboard1, some .standardMouse⟩ [⟨0, 0, 2⟩] s'
        (bootPics ⟨.none, some .none, some .mf2Keyboard1, some .standardMouse⟩ halfInitialised)
        ⟨0, fun _ => 0⟩ d' := by
  have hsetup : (setupPs2Controller (bootEnv keyboardReplies mouseReplies 0xFA)
      World.start.io).1 = .ok ⟨.none, some .none, some .mf2Keyboard1, some .standardMouse⟩ := by
    decide +kernel
  have hret : (setupInterruptsAndPs2 (bootEnv keyboardReplies mouseReplies 0xFA) .start).1 =
      .ok () := by decide +kernel
  exact boot_routes (run_eq_of_fst hsetup) (run_eq_of_fst hret) (fun _ => rfl) rfl
    (encodes_start _) rfl rfl ⟨(buildIrqToGsi_iff (by decide) (by decide) _).mpr rfl,
      mapsIrqs_allWrites (by decide) (by decide +kernel)⟩ (by decide) 0 _

end Routes

/-! ## 2. The keyboard's setup -/

/-- What the commands to the keyboard leave as it is. -/
structure Quiet (w w' : World) : Prop where
  idt : w'.idt = w.idt
  vectors : w'.vectors = w.vectors
  irqMask : w'.irqMask = w.irqMask
  activePort : w'.kps.activePort = w.kps.activePort
  activeInterruptVector : w'.kps.activeInterruptVector = w.kps.activeInterruptVector

instance : IsPreorder World Quiet where
  refl _ := ⟨rfl, rfl, rfl, rfl, rfl⟩
  trans _ _ _ h h' := ⟨h'.idt.trans h.idt, h'.vectors.trans h.vectors, h'.irqMask.trans h.irqMask,
    h'.activePort.trans h.activePort,
    h'.activeInterruptVector.trans h.activeInterruptVector⟩

section Keyboard

abbrev Quieting {α : Type} (p : Kernel α) : Prop := Keeps Quiet (fun _ => True) p

variable {e : Ps2Env} {w w' : World} {err : KeyboardError}

theorem quieting_controller {α : Type} {C : UInt8 × UInt8 → Prop} {p : Controller α}
    (h : Total C p) : Quieting (controller p) := by
  intro e w
  rw [controller, wp_on]
  exact wp_mono (h e w.io) (fun _ _ _ => ⟨trivial, rfl, rfl, rfl, rfl, rfl⟩) fun _ _ h => h

theorem quieting_sendDataLoop {data : UInt8} (n : Nat) : Quieting (sendDataLoop data n) := by
  have hsend : Quieting (sendCommandOrDataToPs2Keyboard data) := by
    refine keeps_bind keeps_get fun w _ => ?_
    exact quieting_controller (C := fun _ => True) (total_sendCommandOrDataToPs2Port trivial)
  induction n with
  | zero => exact keeps_pure trivial
  | succ n ih =>
      refine keeps_check hsend (fun _ _ => trivial) fun _ => ?_
      refine keeps_check (quieting_controller (C := fun _ => True) total_waitTillReadyForResponse)
        (fun _ _ => trivial) fun _ => ?_
      refine keeps_bind (quieting_controller (C := fun _ => True) total_ps2RecieveRawResponse)
        fun _ _ => ?_
      refine keeps_ite (fun _ => ih) fun _ => ?_
      exact keeps_ite (fun _ => keeps_pure trivial) fun _ => keeps_pure trivial

theorem quieting_sendCommandToPs2Keyboard {command : KeyboardCommandByte} :
    Quieting (sendCommandToPs2Keyboard command) :=
  keeps_ite (fun _ => keeps_pure trivial) fun _ => quieting_sendDataLoop _

theorem quieting_sendCommandAndData {command : KeyboardCommandByte} {data : UInt8} :
    Quieting (sendCommandAndData command data) := by
  refine keeps_check quieting_sendCommandToPs2Keyboard (fun _ _ => trivial) fun _ => ?_
  exact keeps_bind (quieting_sendDataLoop _) fun _ _ => keeps_pure trivial

theorem quieting_setScanCodeSet : Quieting (setScanCodeSet 1) := by
  have hvalid : ¬ ((1 : UInt8) = 0 ∨ (3 : UInt8) < 1) := by decide
  rw [setScanCodeSet, if_neg hvalid]
  refine keeps_check quieting_sendCommandAndData (fun _ _ => trivial) fun _ => ?_
  exact keeps_bind (keeps_modify fun _ => ⟨rfl, rfl, rfl, rfl, rfl⟩) fun _ _ => keeps_pure trivial

theorem quieting_setupKeyboardExtra : Quieting setupKeyboardExtra := by
  have hkeys : Quieting setupKeys := fun e w =>
    (wp_of_ok (setupKeys_eq e w)).mpr ⟨trivial, rfl, rfl, rfl, rfl, rfl⟩
  refine keeps_bind hkeys fun _ _ => ?_
  refine keeps_bind (keeps_modify fun _ => ⟨rfl, rfl, rfl, rfl, rfl⟩) fun _ _ => ?_
  refine keeps_bind quieting_sendCommandAndData fun _ _ => ?_
  exact keeps_modify fun _ => ⟨rfl, rfl, rfl, rfl, rfl⟩

/-- The commands between the two switches. -/
theorem quieting_setupCommands : Quieting setupCommands := by
  refine keeps_check quieting_setScanCodeSet (fun _ _ => trivial) fun _ => ?_
  exact keeps_bind quieting_setupKeyboardExtra fun _ _ => keeps_pure trivial

/-- A table with the flag of an entry set. -/
def flagged (present : Bool) (v : UInt8) (idt : UInt8 → IdtEntry) : UInt8 → IdtEntry :=
  Function.update idt v { idt v with present }

theorem flagged_twice (a b : Bool) (v : UInt8) (idt : UInt8 → IdtEntry) :
    flagged b v (flagged a v idt) = flagged b v idt := by
  rw [flagged, flagged, flagged, Function.update_self, Function.update_idem]

/-- Table and masks with the keyboard off or on. -/
structure KeyboardSwitched (present : Bool) (w w' : World) : Prop where
  idt : w'.idt = flagged present w.kps.activeInterruptVector w.idt
  irqMask : w'.irqMask = Function.update w.irqMask w.kps.activePort (!present)

theorem quieting_scanning : Quieting enableScanning ∧ Quieting disableScanning :=
  ⟨keeps_bind quieting_sendCommandToPs2Keyboard fun _ _ => keeps_pure trivial,
    keeps_bind quieting_sendCommandToPs2Keyboard fun _ _ => keeps_pure trivial⟩

theorem KeyboardSwitched.quiet {present : Bool} {w₁ w₂ : World}
    (h : KeyboardSwitched present w w₁) (hq : Quiet w₁ w₂) : KeyboardSwitched present w w₂ :=
  ⟨hq.idt.trans h.idt, hq.irqMask.trans h.irqMask⟩

/-- The keyboard is switched off. -/
theorem wp_disableKeyboard :
    wp disableKeyboard e w (fun _ w₁ => KeyboardSwitched false w w₁ ∧
      w₁.kps.activePort = w.kps.activePort ∧
      w₁.kps.activeInterruptVector = w.kps.activeInterruptVector) fun _ _ => False := by
  simp only [disableKeyboard, wp_bind, wp_get, Drivers.irqSetMask, Drivers.disableIdtEntry,
    wp_modify]
  refine wp_mono (quieting_scanning.2 _ _) (fun _ w₁ h₁ => ?_) fun _ _ h => h
  have hoff : KeyboardSwitched false w
      { w with
        irqMask := Function.update w.irqMask w.kps.activePort true
        idt := flagged false w.kps.activeInterruptVector w.idt } := ⟨rfl, rfl⟩
  exact ⟨hoff.quiet h₁.2, h₁.2.activePort, h₁.2.activeInterruptVector⟩

/-- And on again, where it was off. -/
theorem wp_enableKeyboard_tables {w₁ : World} (h : KeyboardSwitched false w w₁)
    (hport : w₁.kps.activePort = w.kps.activePort)
    (hvector : w₁.kps.activeInterruptVector = w.kps.activeInterruptVector) :
    wp enableKeyboard e w₁ (fun _ w₂ => KeyboardSwitched true w w₂) fun _ _ => True := by
  simp only [enableKeyboard, wp_bind, wp_get]
  refine wp_mono (quieting_scanning.1 e w₁) (fun _ w₂ h₂ => ?_) fun _ _ h => h.elim
  have hoff := h.quiet h₂.2
  simp only [Drivers.enableIdtEntry, wp_bind, wp_get, wp_assert, wp_modify,
    Drivers.irqClearMask]
  split
  · constructor
    · show flagged true w₂.kps.activeInterruptVector w₂.idt = _
      rw [h₂.2.activeInterruptVector, hvector, hoff.idt, flagged_twice]
    · show Function.update w₂.irqMask w₂.kps.activePort false = _
      rw [h₂.2.activePort, hport, hoff.irqMask, Function.update_idem]
      rfl
  · trivial

/-- **What `setup_keyboard` leaves**: the keyboard is on if it returns no error, and else off. -/
theorem wp_setupKeyboard_tables :
    wp setupKeyboard e w (fun err w' => w.kps.initialized = true ∧
      KeyboardSwitched (decide (err = .none)) w w') fun _ _ => True := by
  rw [setupKeyboard_eq]
  by_cases hinit : w.kps.initialized = true
  · simp only [wp_bind, wp_get, wp_assert, hinit, ↓reduceIte]
    refine wp_mono wp_disableKeyboard (fun _ w₁ h₁ => ?_) fun _ _ h => h.elim
    obtain ⟨hoff, hport, hvector⟩ := h₁
    refine wp_mono (quieting_setupCommands e w₁) (fun err w₂ h₂ => ?_) fun _ _ h => h.elim
    by_cases herr : err = .none
    · rw [if_neg (not_not.mpr herr)]
      simp only [wp_bind]
      refine wp_mono (wp_enableKeyboard_tables (hoff.quiet h₂.2) ?_ ?_) (fun _ w₃ h₃ => ?_)
        fun _ _ h => h
      · rw [h₂.2.activePort, hport]
      · rw [h₂.2.activeInterruptVector, hvector]
      · exact ⟨trivial, h₃⟩
    · rw [if_pos herr]
      simp only [wp_pure, decide_eq_false herr]
      exact ⟨trivial, hoff.quiet h₂.2⟩
  · simp only [wp_bind, wp_get, wp_assert, hinit]
    trivial

/-- The calls of `setup_keyboard` to `idt.c`, for the vector in use. -/
def keyboardTable (vector : UInt8) (err : KeyboardError) : IdtProg Unit := do
  Cpu.disableIdtEntry vector
  if err = .none then Cpu.enableIdtEntry vector else pure ()

/-- The word of the keyboard: it is there again if there was no error. -/
theorem keyboardTable_ok (e : Ps2Env) {env : IdtEnv} {s : IdtState} {w₂ : World} {v : UInt8}
    (h : Holds env.address s w₂) (hv : w₂.vectors v = true) (err : KeyboardError) :
    ∃ s', keyboardTable v err env s = (.ok (), s') ∧ ∀ u, s'.idt u = encode env.address
      (flagged (decide (err = .none)) v w₂.idt u) := by
  have hdisable : Follows env e (Cpu.disableIdtEntry v) (Drivers.disableIdtEntry v) :=
    follows_disableIdtEntry
  have hoff : wp (Cpu.disableIdtEntry v) env s (fun _ s₁ => Holds env.address s₁
      { w₂ with idt := flagged false v w₂.idt }) fun _ _ => False := hdisable s w₂ h
  obtain ⟨_, s₁, hs₁, hholds₁⟩ := exists_ok_of_wp hoff
  by_cases herr : err = .none
  · -- the check of `enable_idt_entry` passes, on the words as in the table
    have hfollows : Follows env e (Cpu.enableIdtEntry v) (Drivers.enableIdtEntry v) :=
      follows_enableIdtEntry
    have hon : wp (Cpu.enableIdtEntry v) env s₁ (fun _ s₂ => Holds env.address s₂
        { w₂ with idt := flagged true v (flagged false v w₂.idt) }) fun _ _ => False := by
      have hrun := hfollows s₁ _ hholds₁
      simp only [Drivers.enableIdtEntry, wp_bind, wp_get, wp_assert, hv, if_true, wp_modify] at hrun
      exact hrun
    obtain ⟨_, s₂, hs₂, hholds₂⟩ := exists_ok_of_wp hon
    refine ⟨s₂, ?_, fun u => ?_⟩
    · rw [keyboardTable, if_pos herr]
      exact (bind_of_ok hs₁).trans hs₂
    · rw [hholds₂.encodes.entries, decide_eq_true herr, flagged_twice]
  · refine ⟨s₁, ?_, fun u => ?_⟩
    · rw [keyboardTable, if_neg herr]
      exact bind_of_ok hs₁
    · rw [hholds₁.encodes.entries, decide_eq_false herr]

/-- Where the interrupt of a flagged entry ends: without the flag the processor goes on to the gate
    of the exception, which is another one. -/
theorem takeInterrupt_flagged {env : IdtEnv} {s : IdtState} {idt : UInt8 → IdtEntry} {v : UInt8}
    {isr : Isr} {present : Bool}
    (hwords : ∀ u, s.idt u = encode env.address (flagged present v idt u))
    (hv : idt v = ⟨isr, true⟩) (hisr : isr ≠ .none) (hother : 11 ≠ v)
    (hfault : idt 11 = ⟨.interruptHandler 11, true⟩) :
    takeInterrupt s.idt v = if present then inRoutine env v isr else inException env v 11 := by
  have hread : readGate (s.idt v) =
      if present then .opens (kernelGate env.address isr) else .raises 11 := by
    rw [hwords, flagged, Function.update_self, readGate_encode, hv, if_neg hisr]
  cases present with
  | true => exact takeInterrupt_of_opens hread
  | false =>
      refine takeInterrupt_of_raises hread ?_
      rw [hwords, flagged, Function.update_of_ne hother, hfault, readGate_encode]
      rfl

/-- The line of a port. -/
def irqOfPort (port : UInt8) : UInt8 := if port = 1 then ps2Port1Irq else ps2Port2Irq

/-- A keyboard is on port 1 or 2, and its routine is that of its port. -/
theorem keyboardPort_cases {r : InitializeDeviceState} (hr : r.Consistent) {p : UInt8}
    (h : keyboardPort r = some p) :
    (p = 1 ∨ p = 2) ∧ bootIsr r (interruptVectorOfPort p) = keyboardInterruptHandlers p := by
  obtain ⟨errd, internal, type₁, type₂⟩ := r
  cases errd with
  | none =>
      obtain ⟨t₁, t₂, h₁, h₂, hk₁, hk₂, hne⟩ := hr
      have hports := keyboardAndMousePort_eq_portOf h₁ hk₁ hk₂ hne
      have hp : InitializeDeviceState.portOf ⟨.none, internal, type₁, type₂⟩ .keyboard = p :=
        Option.some.inj h
      simp only at h₁ h₂
      subst h₁ h₂
      rcases keyboardAndMousePort_cases hk₁ hk₂ hne with ⟨hs₁, hs₂, hpq⟩ | ⟨hs₁, hs₂, hpq⟩
      · obtain rfl : 1 = p := (Prod.mk.inj (hports.symm.trans hpq)).1.symm.trans hp
        have hisr : bootIsr ⟨.none, internal, some t₁, some t₂⟩ (interruptVectorOfPort 1) =
            routineOf 1 (getDeviceSuperType t₁) := rfl
        rw [hisr, hs₁]
        exact ⟨Or.inl rfl, rfl⟩
      · obtain rfl : 2 = p := (Prod.mk.inj (hports.symm.trans hpq)).1.symm.trans hp
        have hisr : bootIsr ⟨.none, internal, some t₁, some t₂⟩ (interruptVectorOfPort 2) =
            routineOf 2 (getDeviceSuperType t₂) := rfl
        rw [hisr, hs₂]
        exact ⟨Or.inr rfl, rfl⟩
  | noSecondPort =>
      obtain ⟨t₁, h₁, -⟩ := hr
      simp only at h₁
      subst h₁
      rw [keyboardPort] at h
      simp only [Option.map_some, Option.some.injEq] at h
      split at h
      · next hs =>
          obtain rfl := Option.some.inj h
          have hisr : bootIsr ⟨.noSecondPort, internal, some t₁, type₂⟩ (interruptVectorOfPort 1) =
              routineOf 1 (getDeviceSuperType t₁) := rfl
          rw [hisr, hs]
          exact ⟨Or.inl rfl, rfl⟩
      · cases h
  | _ => cases h

/-- **The keyboard's interrupt after `setup_keyboard`.** For every behaviour of the controller from
    which both return, if the keyboard driver was not initialised before and the table of
    `multicore_setup` is right and gives the three interrupts different numbers, there is one
    keyboard, and its line at the I/O APIC is open. If `setup_keyboard` returned no error, the
    interrupt ends in the routine of its port; if it returned one, the descriptor is not present, and
    the interrupt ends in the routine of the exception for that. -/
theorem keyboard_routes {r : InitializeDeviceState} {io₁ : Ps2Io} {w₁ : World} {env : IdtEnv}
    {isos : List InterruptSourceOverride} {junk : UInt8 → UInt8} {t : GsiState} {debug : Bool}
    (hsetup : setupPs2Controller e w.io = (.ok r, io₁))
    (hret : setupInterruptsAndPs2 e w = (.ok (), w₁))
    (hkeyboard : setupKeyboard e w₁ = (.ok err, w'))
    (hinit : w.kps.initialized = false) (hdebug : env.debug = e.debug) {s : IdtState}
    (hs : Encodes env.address s w.idt w.vectors)
    (htable : BuildIrqToGsi isos junk (some t) ∧ MapsIrqs isos t)
    (hdistinct : [gsiOf isos 0, gsiOf isos 1, gsiOf isos 12].Nodup) (padding : BitVec 4)
    (d : IoApic) :
    ∃ p s₁ s₂ d', keyboardPort r = some p ∧ bootTable r env s = (.ok (), s₁) ∧
      keyboardTable (interruptVectorOfPort p) err env s₁ = (.ok (), s₂) ∧
      initIoApic padding t.irqToGsi debug d = (.ok (), d') ∧
      (∀ v, s₂.idt v = encode env.address (w'.idt v)) ∧
      (∀ v ≠ interruptVectorOfPort p, s₂.idt v = s₁.idt v) ∧
      (d'.entry (gsiOf isos (irqOfPort p)).toUInt8).redLow.mask = 0 ∧
      ioRoute d' s₂ (gsiOf isos (irqOfPort p)).toUInt8 = some
        (if err = .none then inRoutine env (interruptVectorOfPort p) (keyboardInterruptHandlers p)
        else inException env (interruptVectorOfPort p) 11) := by
  have hr : r.Consistent := ((wp_of_ok hsetup).mp (setupPs2Controller_consistent e w.io)).1
  obtain ⟨hidt, hvectors, hselected, -⟩ := (wp_of_ok hret).mp (wp_boot hsetup)
  obtain ⟨hstarted, hswitched⟩ := (wp_of_ok hkeyboard).mp wp_setupKeyboard_tables
  -- the check of `setup_keyboard` passed, so a keyboard was selected
  obtain ⟨p, hp⟩ : ∃ p, keyboardPort r = some p := by
    cases hnone : keyboardPort r with
    | some p => exact ⟨p, rfl⟩
    | none =>
        rw [hnone] at hselected
        have hnot : w₁.kps.initialized = w.kps.initialized := hselected
        rw [hstarted, hinit] at hnot
        cases hnot
  rw [hp] at hselected
  obtain ⟨hport, hroutine⟩ := keyboardPort_cases hr hp
  obtain ⟨s₁, w₂, hrun, hholds, hidt₂, hvectors₂⟩ := bootTable_ok hdebug hs hr
  have hvector : idtInitLoops e.debug (interruptVectorOfPort p) = true := by
    rcases hport with rfl | rfl
    · cases e.debug <;> rfl
    · cases e.debug <;> rfl
  obtain ⟨s₂, hrun₂, hwords₂⟩ := keyboardTable_ok e hholds (hvectors₂ _ hvector) err
  obtain ⟨d', hio, -, h1, h12, -⟩ := ioApic_entries htable.2 hdistinct padding d
  have hentry : d'.entry (gsiOf isos (irqOfPort p)).toUInt8 =
      initEntry padding (interruptVectorOfPort p).toBitVec := by
    rcases hport with rfl | rfl
    · exact h1
    · exact h12
  have hflagged : w'.idt = flagged (decide (err = .none)) (interruptVectorOfPort p) w₂.idt := by
    rw [hswitched.idt, hselected.2.2, hidt, bootIdt_eq hr, hidt₂]
  refine ⟨p, s₁, s₂, d', hp, hrun, hrun₂, hio, fun v => ?_, fun v hv => ?_, ?_, ?_⟩
  · rw [hwords₂, hflagged]
  · rw [hwords₂, hholds.encodes.entries, flagged, Function.update_of_ne hv]
  · rw [hentry]
    rfl
  · have hset : bootVectors e.debug (interruptVectorOfPort p) = true := by
      rw [bootVectors, hvector, Bool.true_or]
    have hword : w₂.idt (interruptVectorOfPort p) = ⟨keyboardInterruptHandlers p, true⟩ := by
      rw [hidt₂, ← hroutine]
      exact if_pos hset
    have hother : 11 ≠ interruptVectorOfPort p := by
      rcases hport with rfl | rfl
      · decide
      · decide
    have hset₁₁ : bootVectors e.debug 11 = true := by
      cases e.debug
      · rfl
      · rfl
    have hword₁₁ : w₂.idt 11 = ⟨.interruptHandler 11, true⟩ := by
      rw [hidt₂]
      exact if_pos hset₁₁
    have htaken := takeInterrupt_flagged hwords₂ hword (keyboardInterruptHandlers_ne_none p)
      hother hword₁₁
    simp only [decide_eq_true_eq] at htaken
    rw [ioRoute_of_entry hentry]
    exact congrArg some htaken

/-- The words of a boot whose routines are all at one address. -/
def oneAddress : IdtEnv := ⟨false, fun _ => 0x105678⟩

/-- A keyboard that answers the command for its scan codes with a byte of its own. -/
theorem keyboard_routes_error :
    ∃ p s₁ s₂ d', keyboardPort ⟨.none, some .none, some .mf2Keyboard1, some .standardMouse⟩ =
        some p ∧
      bootTable ⟨.none, some .none, some .mf2Keyboard1, some .standardMouse⟩ oneAddress
        ⟨fun _ => 0, 0, fun _ => false⟩ = (.ok (), s₁) ∧
      keyboardTable (interruptVectorOfPort p) .nonAckResponse oneAddress s₁ = (.ok (), s₂) ∧
      initIoApic 0 (memAfter (fun _ => 0xAA) (allWrites [⟨0, 0, 2⟩])) false ⟨0, fun _ => 0⟩ =
        (.ok (), d') ∧
      (∀ v, s₂.idt v = encode oneAddress.address
        ((setupKeyboard (bootEnv keyboardReplies mouseReplies 0xFA) (setupInterruptsAndPs2
          (bootEnv keyboardReplies mouseReplies 0xFA) .start).2).2.idt v)) ∧
      (∀ v ≠ interruptVectorOfPort p, s₂.idt v = s₁.idt v) ∧
      (d'.entry (gsiOf [⟨0, 0, 2⟩] (irqOfPort p)).toUInt8).redLow.mask = 0 ∧
      ioRoute d' s₂ (gsiOf [⟨0, 0, 2⟩] (irqOfPort p)).toUInt8 = some
        (if KeyboardError.nonAckResponse = .none then
          inRoutine oneAddress (interruptVectorOfPort p) (keyboardInterruptHandlers p)
        else inException oneAddress (interruptVectorOfPort p) 11) := by
  have hsetup : (setupPs2Controller (bootEnv keyboardReplies mouseReplies 0xFA)
      World.start.io).1 = .ok ⟨.none, some .none, some .mf2Keyboard1, some .standardMouse⟩ := by
    decide +kernel
  have hret : (setupInterruptsAndPs2 (bootEnv keyboardReplies mouseReplies 0xFA) .start).1 =
      .ok () := by decide +kernel
  have hkeyboard : (setupKeyboard (bootEnv keyboardReplies mouseReplies 0xFA)
      (setupInterruptsAndPs2 (bootEnv keyboardReplies mouseReplies 0xFA) .start).2).1 =
      .ok .nonAckResponse := by decide +kernel
  exact keyboard_routes (run_eq_of_fst hsetup) (run_eq_of_fst hret) (run_eq_of_fst hkeyboard) rfl
    rfl (encodes_start _) ⟨(buildIrqToGsi_iff (by decide) (by decide) _).mpr rfl,
      mapsIrqs_allWrites (by decide) (by decide +kernel)⟩ (by decide) 0 _

end Keyboard

end MapleKernel.Kernel
