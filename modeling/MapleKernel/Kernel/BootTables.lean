/-
  File:      Kernel/BootTables.lean
  Subject:   WHAT THE BOOT LEAVES IN THE TABLES OF THE INTERRUPTS (`kernel_helper.c`, `ps2.c`): the
             descriptor table and the masks, by the devices that were found.

  `setup_interrupts_and_ps2` fills the descriptor table with stubs, remaps the two controllers and
  closes their lines; the ways of `handle_ps2_setup` set the routines of the ports and open lines;
  the lines are opened once more by the status it returns, and the timer's routine comes last.

  * `deviceAt`, `portIsr`, `bootIsr`, `bootLines` -- what the tables should say;
  * `bootTable`, `bootPics` -- the calls of the boot, on the words and on the chips;
  * `wp_handleDeviceStates_tables`, `wp_boot` -- table and masks after the ways, and after the boot;
  * `bootIdt_eq` -- the table is the one it should be;
  * `bootTable_ok`, `represents_bootPics` -- and so are the words in memory and the chips.
-/
import MapleKernel.Cpu.Idt
import MapleKernel.Cpu.Pic

namespace MapleKernel.Kernel

open Cpu Drivers Program

/-! ## 1. The devices and their routines -/

/-- The device that the setup found at port 1 or 2. -/
def deviceAt (r : InitializeDeviceState) (port : UInt8) : Option DeviceSuperType :=
  match r.ps2StateErr with
  | .none | .twoKeyboard | .twoMouse =>
      (if port = 1 then r.portOneDeviceType else r.portTwoDeviceType).map getDeviceSuperType
  | .noSecondPort => if port = 1 then r.portOneDeviceType.map getDeviceSuperType else none
  | _ => none

/-- The routine of a device at a port. -/
def routineOf (port : UInt8) : DeviceSuperType → Isr
  | .keyboard => keyboardInterruptHandlers port
  | .mouse => mouseInterruptHandlers port
  | .unknown => .badInterruptHandler

/-- The routine of the vector of a port: that of its device, or the stub of `idt_init`. -/
def portIsr (r : InitializeDeviceState) (port : UInt8) : Isr :=
  match deviceAt r port with
  | some s => routineOf port s
  | none => .isrStub (interruptVectorOfPort port)

/-- The vectors that the boot sets. -/
def bootVectors (debug : Bool) (v : UInt8) : Bool := idtInitLoops debug v || v ∈ [56, 57, 58]

/-- The routine of each vector. -/
def bootIsr (r : InitializeDeviceState) (v : UInt8) : Isr :=
  if v = 32 then .pit
  else if v = 33 then portIsr r 1
  else if v = 44 then portIsr r 2
  else if v = 58 then .apicWait
  else if v ∈ [5, 8, 11, 13, 56, 57] then .interruptHandler v
  else isrStubTable v

/-- The port of the only keyboard, where there is one. -/
def keyboardPort (r : InitializeDeviceState) : Option UInt8 :=
  match r.ps2StateErr with
  | .none => some (r.portOf .keyboard)
  | .noSecondPort =>
      if r.portOneDeviceType.map getDeviceSuperType = some .keyboard then some 1 else none
  | _ => none

/-- The lines that are open at the controllers. -/
def bootLines (r : InitializeDeviceState) : List UInt8 :=
  (if (deviceAt r 1).isSome then [ps2Port1Irq] else []) ++
    (if (deviceAt r 2).isSome then [ps2Port2BridgeIrq, ps2Port2Irq] else [])

/-! ## 2. The calls of the boot -/

/-- The argument of `idt_init_ps2`. -/
def fieldsOf (r : InitializeDeviceState) : IdtInitPs2Fields :=
  match r.ps2StateErr with
  | .none => .oneKeyboardOneMouse (r.portOf .keyboard) (r.portOf .mouse)
  | .twoKeyboard => .twoKeyboard
  | .twoMouse => .twoMouse
  | .noSecondPort =>
      match r.portOneDeviceType.map getDeviceSuperType with
      | some .keyboard => .oneKeyboard
      | some .mouse => .oneMouse
      | _ => .noPs2Device
  | _ => .noPs2Device

/-- The calls to `idt.c`, `idt_ps2.c` and `idt_pit.c`. -/
def bootTable (r : InitializeDeviceState) : IdtProg Unit := do
  Cpu.idtInit
  Cpu.idtInitPs2 (fieldsOf r)
  Cpu.idtInitPit

/-- `PIC_1_OFFSET` and `PIC_2_OFFSET`. -/
def pic1Offset : Int := 32
def pic2Offset : Int := 40

/-- The calls to `pic.c`: those of `setup_interrupts_and_ps2` before the devices are known, those of
    `handle_ps2_setup` where it finds one, and the lines that are opened again after it. -/
def bootPics (r : InitializeDeviceState) (s : Pics) : Pics :=
  let s := Cpu.initializeIrqs (Cpu.picRemap pic1Offset pic2Offset s)
  let s :=
    match r.ps2StateErr with
    | .none | .twoKeyboard | .twoMouse | .noSecondPort =>
        (bootLines r).foldl (fun s irq => Cpu.irqClearMask irq s)
          (Cpu.initializeIrqs (Cpu.picRemap pic1Offset pic2Offset s))
    | _ => s
  (bootLines r).foldl (fun s irq => Cpu.irqClearMask irq s) s

/-! ## 3. The table and the masks -/

section Boot

variable {e : Ps2Env} {w w' : World} {r : InitializeDeviceState} {io₁ : Ps2Io}

/-- `quick_enable_mouse` touches neither. -/
theorem wp_quickEnableMouse_tables {E : Ps2Halt → World → Prop} (hE : ∀ h w', E h w') :
    wp quickEnableMouse e w (fun _ w' => w'.idt = w.idt ∧ w'.vectors = w.vectors) E := by
  have hsend : Total (fun _ => True) (sendCommandToSecondPs2Port enableReporting) :=
    total_sendCommandToSecondPs2Port trivial
  have hwait : Total (fun _ => True) waitTillReadyForResponse := total_waitTillReadyForResponse
  simp only [quickEnableMouse, controller, wp_bind, wp_on]
  refine wp_mono (hsend e w.io) (fun _ io₁ _ => ?_) fun _ _ h => h.elim
  refine wp_mono (hwait e io₁) (fun err io₂ _ => ?_) fun _ _ h => h.elim
  by_cases herr : err = .none
  · rw [if_neg (not_not.mpr herr)]
    exact ⟨rfl, rfl⟩
  · rw [if_pos herr]
    exact hE _ _

/-- The status that `handle_ps2_setup` returns. -/
def statusOf (r : InitializeDeviceState) : HandlePs2SetupStatus :=
  match r.ps2StateErr with
  | .none => .oneKeyboardOneMouse
  | .twoKeyboard => .twoKeyboard
  | .twoMouse => .twoMouse
  | .noSecondPort => .onePortOnly
  | _ => .noPort

/-- The table after `idt_init_ps2`. -/
def idtAfter (args : IdtInitPs2Fields) (idt : UInt8 → IdtEntry) : UInt8 → IdtEntry :=
  match args with
  | .oneKeyboardOneMouse p q =>
      Function.update (Function.update idt (interruptVectorOfPort p)
        ⟨keyboardInterruptHandlers p, true⟩) (interruptVectorOfPort q)
        ⟨mouseInterruptHandlers q, true⟩
  | .twoKeyboard =>
      Function.update (Function.update idt ps2Port1InteruptVector ⟨.keyboardPort1, true⟩)
        ps2Port2InteruptVector ⟨.keyboardPort2, true⟩
  | .twoMouse =>
      Function.update (Function.update idt ps2Port1InteruptVector ⟨.mousePort1, true⟩)
        ps2Port2InteruptVector ⟨.mousePort2, true⟩
  | .oneKeyboard => Function.update idt ps2Port1InteruptVector ⟨.keyboardPort1, true⟩
  | .oneMouse => Function.update idt ps2Port1InteruptVector ⟨.mousePort1, true⟩
  | .noPs2Device => idt

/-- The keyboard driver's port after `handle_ps2_setup`: that of the only keyboard, else nothing is
    initialised that was not before. -/
def Selected (port : Option UInt8) (before after : KeyboardPortingState) : Prop :=
  match port with
  | some p => after.initialized = true ∧ after.activePort = p ∧
      after.activeInterruptVector = interruptVectorOfPort p
  | none => after.initialized = before.initialized

/-- Lines are opened one after the other. -/
def opened (lines : List UInt8) (mask : UInt8 → Bool) : UInt8 → Bool :=
  lines.foldl (fun m irq => Function.update m irq false) mask

theorem opened_apply (lines : List UInt8) (mask : UInt8 → Bool) (irq : UInt8) :
    opened lines mask irq = if irq ∈ lines then false else mask irq := by
  induction lines generalizing mask with
  | nil => rfl
  | cons line lines ih =>
      rw [opened, List.foldl_cons, ← opened, ih, Function.update_apply]
      by_cases hline : irq = line
      · simp [hline]
      · simp [hline]

/-- The sixteen lines masked. -/
def closed (irq : UInt8) : Bool := irq < 16 || false

/-- The ports of a keyboard and a mouse are those of `portOf`. -/
theorem ports_of_consistent {t₁ t₂ : DeviceType} (h₁ : r.portOneDeviceType = some t₁)
    (hk₁ : (getDeviceSuperType t₁).Known) (hk₂ : (getDeviceSuperType t₂).Known)
    (hne : getDeviceSuperType t₁ ≠ getDeviceSuperType t₂) :
    (r.portOf .keyboard, r.portOf .mouse) = (1, 2) ∨
      (r.portOf .keyboard, r.portOf .mouse) = (2, 1) := by
  rw [← keyboardAndMousePort_eq_portOf h₁ hk₁ hk₂ hne]
  rcases keyboardAndMousePort_cases hk₁ hk₂ hne with ⟨-, -, h⟩ | ⟨-, -, h⟩
  · exact Or.inl h
  · exact Or.inr h

/-- What follows `quick_enable_mouse`. -/
def connectDevices (p q : UInt8) : Kernel HandlePs2SetupStatus := do
  setSingleKeyboardPort p
  setSingleMousePort q
  Drivers.idtInitPs2 (.oneKeyboardOneMouse p q)
  enableBothPorts
  return .oneKeyboardOneMouse

/-- With a keyboard and a mouse, the way of `handle_ps2_setup` is that of its last calls. -/
theorem wp_oneKeyboardOneMouse {t₁ t₂ : DeviceType} (h₁ : r.portOneDeviceType = some t₁)
    (h₂ : r.portTwoDeviceType = some t₂) (hk₁ : (getDeviceSuperType t₁).Known)
    (hk₂ : (getDeviceSuperType t₂).Known) (hne : getDeviceSuperType t₁ ≠ getDeviceSuperType t₂)
    {Q : HandlePs2SetupStatus → World → Prop} {E : Ps2Halt → World → Prop}
    (hQ : wp quickEnableMouse e w
      (fun _ w₁ => wp (connectDevices (r.portOf .keyboard) (r.portOf .mouse)) e w₁ Q E) E) :
    wp (handlePs2SetupOneKeyboardOneMouse r) e w Q E := by
  have hu : ∀ {s : DeviceSuperType}, s.Known → s ≠ .unknown := by
    intro s hs
    rcases hs with rfl | rfl
    · decide
    · decide
  have hports := keyboardAndMousePort_eq_portOf h₁ hk₁ hk₂ hne
  simp only [handlePs2SetupOneKeyboardOneMouse, h₁, h₂, Option.getD_some, wp_bind, wp_ask,
    wp_assert, hu hk₁, hu hk₂, false_and, ↓reduceIte, hne, ne_eq, not_false_eq_true, decide_true,
    hports]
  refine wp_mono hQ (fun _ w₁ hw₁ => ?_) fun _ _ h => h
  simpa only [connectDevices, wp_bind] using hw₁

/-- **What the ways of `handle_ps2_setup` do to table and masks.** -/
theorem wp_handleDeviceStates_tables (hr : r.Consistent) :
    wp (handleDeviceStates r) e w
      (fun st w' => st = statusOf r ∧ w'.idt = idtAfter (fieldsOf r) w.idt ∧
        (∀ v, w.vectors v = true → w'.vectors v = true) ∧ Selected (keyboardPort r) w.kps w'.kps ∧
        w'.irqMask = if statusOf r = .noPort then w.irqMask
          else opened (bootLines r) closed)
      (fun _ _ => True) := by
  obtain ⟨err, internal, type₁, type₂⟩ := r
  cases err with
  | none =>
      obtain ⟨t₁, t₂, h₁, h₂, hk₁, hk₂, hne⟩ := hr
      have hlines : bootLines ⟨.none, internal, type₁, type₂⟩ = [1, 2, 12] := by
        simp only at h₁ h₂
        subst h₁ h₂
        rfl
      refine wp_oneKeyboardOneMouse h₁ h₂ hk₁ hk₂ hne ?_
      refine wp_mono (wp_quickEnableMouse_tables fun _ _ => trivial) (fun _ w₁ hw₁ => ?_)
        fun _ _ h => h
      rw [hlines, fieldsOf, keyboardPort, ← hw₁.1, ← hw₁.2]
      rcases ports_of_consistent h₁ hk₁ hk₂ hne with h | h
      · obtain ⟨hp, hq⟩ := Prod.mk.inj h
        rw [hp, hq]
        exact ⟨rfl, rfl, fun _ hv => setVector_keeps (setVector_keeps hv), ⟨rfl, rfl, rfl⟩, rfl⟩
      · obtain ⟨hp, hq⟩ := Prod.mk.inj h
        rw [hp, hq]
        exact ⟨rfl, rfl, fun _ hv => setVector_keeps (setVector_keeps hv), ⟨rfl, rfl, rfl⟩, rfl⟩
  | noSecondPort =>
      obtain ⟨t₁, h₁, hk₁⟩ := hr
      simp only at h₁
      subst h₁
      have hlines : bootLines ⟨.noSecondPort, internal, some t₁, type₂⟩ = [1] := rfl
      rw [hlines, fieldsOf]
      rcases hk₁ with hk₁ | hk₁
      · have hport : keyboardPort ⟨.noSecondPort, internal, some t₁, type₂⟩ = some 1 := by
          simp [keyboardPort, hk₁]
        rw [hport]
        simp only [handleDeviceStates, handlePs2SetupOnePortOnly, Option.getD_some, wp_bind,
          wp_ask, hk₁, Option.map_some]
        exact ⟨rfl, rfl, fun _ hv => hv, ⟨rfl, rfl, rfl⟩, rfl⟩
      · have hport : keyboardPort ⟨.noSecondPort, internal, some t₁, type₂⟩ = none := by
          simp [keyboardPort, hk₁]
        rw [hport]
        simp only [handleDeviceStates, handlePs2SetupOnePortOnly, Option.getD_some, wp_bind,
          wp_ask, hk₁, Option.map_some]
        exact ⟨rfl, rfl, fun _ hv => hv, rfl, rfl⟩
  | twoKeyboard =>
      obtain ⟨t₁, t₂, h₁, h₂, -, -⟩ := hr
      simp only at h₁ h₂
      subst h₁ h₂
      exact ⟨rfl, rfl, fun _ hv => setVector_keeps (setVector_keeps hv), rfl, rfl⟩
  | twoMouse =>
      obtain ⟨t₁, t₂, h₁, h₂, -, -⟩ := hr
      simp only at h₁ h₂
      subst h₁ h₂
      exact ⟨rfl, rfl, fun _ hv => setVector_keeps (setVector_keeps hv), rfl, rfl⟩
  | _ => exact ⟨rfl, rfl, fun _ hv => hv, rfl, rfl⟩

/-- The table after `idt_init`. -/
def initTable (debug : Bool) (idt : UInt8 → IdtEntry) : UInt8 → IdtEntry := fun v =>
  if v = 58 then ⟨.apicWait, true⟩
  else if v ∈ [5, 8, 11, 13, 56, 57] then ⟨.interruptHandler v, true⟩
  else if idtInitLoops debug v then ⟨isrStubTable v, true⟩
  else idt v

theorem idtInit_tables (e : Ps2Env) (w : World) :
    ∃ w₀, Drivers.idtInit e w = (.ok (), w₀) ∧ w₀.io = w.io ∧ w₀.kps = w.kps ∧
      w₀.idt = initTable e.debug w.idt ∧
      ∀ v, idtInitLoops e.debug v = true → w₀.vectors v = true := by
  refine ⟨_, rfl, rfl, rfl, ?_, fun v hv => ?_⟩
  rotate_left
  · have hbase : (idtInitLoops e.debug v || w.vectors v) = true := by rw [hv, Bool.true_or]
    exact setVector_keeps (setVector_keeps (setVector_keeps (setVector_keeps (setVector_keeps
      (setVector_keeps (setVector_keeps hbase))))))
  funext v
  simp only [initTable, Function.update_apply, List.mem_cons, List.not_mem_nil, or_false]
  by_cases h58 : v = 58
  · rw [if_pos h58, if_pos h58]
  by_cases h57 : v = 57
  · subst h57
    rfl
  by_cases h56 : v = 56
  · subst h56
    rfl
  by_cases h13 : v = 13
  · subst h13
    rfl
  by_cases h11 : v = 11
  · subst h11
    rfl
  by_cases h8 : v = 8
  · subst h8
    rfl
  by_cases h5 : v = 5
  · subst h5
    rfl
  simp only [h58, h57, h56, h13, h11, h8, h5, or_self, if_false]

theorem bootLines_eq (hr : r.Consistent) :
    bootLines r = match statusOf r with
      | .oneKeyboardOneMouse | .twoKeyboard | .twoMouse =>
          [ps2Port1Irq, ps2Port2BridgeIrq, ps2Port2Irq]
      | .onePortOnly => [ps2Port1Irq]
      | _ => [] := by
  obtain ⟨err, internal, type₁, type₂⟩ := r
  cases err with
  | none =>
      obtain ⟨t₁, t₂, h₁, h₂, -⟩ := hr
      simp only at h₁ h₂
      subst h₁ h₂
      rfl
  | twoKeyboard =>
      obtain ⟨t₁, t₂, h₁, h₂, -⟩ := hr
      simp only at h₁ h₂
      subst h₁ h₂
      rfl
  | twoMouse =>
      obtain ⟨t₁, t₂, h₁, h₂, -⟩ := hr
      simp only at h₁ h₂
      subst h₁ h₂
      rfl
  | noSecondPort =>
      obtain ⟨t₁, h₁, -⟩ := hr
      simp only at h₁
      subst h₁
      rfl
  | _ => rfl

/-- Lines that are opened twice. -/
theorem opened_twice (lines : List UInt8) {irq : UInt8} (hirq : irq < 16) :
    opened lines (opened lines closed) irq = !decide (irq ∈ lines) := by
  rw [opened_apply, opened_apply, closed]
  by_cases hmem : irq ∈ lines
  · simp [hmem]
  · simp [hmem, hirq]

/-- **Table and masks after `setup_interrupts_and_ps2`**, whatever the controller answered. -/
theorem wp_boot (hsetup : setupPs2Controller e w.io = (.ok r, io₁)) :
    wp setupInterruptsAndPs2 e w
      (fun _ w' => w'.idt = Function.update (idtAfter (fieldsOf r) (initTable e.debug w.idt))
          pitInteruptVector ⟨.pit, true⟩ ∧
        (∀ v, idtInitLoops e.debug v = true → w'.vectors v = true) ∧
        Selected (keyboardPort r) w.kps w'.kps ∧
        ∀ irq < 16, w'.irqMask irq = !decide (irq ∈ bootLines r))
      (fun _ _ => True) := by
  have hr : r.Consistent := ((wp_of_ok hsetup).mp (setupPs2Controller_consistent e w.io)).1
  obtain ⟨w₀, hinit, hio, hkps, hidt, hvectors⟩ := idtInit_tables e w
  rw [← hio] at hsetup
  simp only [setupInterruptsAndPs2, wp_bind, handlePs2Setup]
  rw [wp_of_ok hinit]
  simp only [Drivers.picRemap, Drivers.initializeIrqs, wp_modify, controller, wp_on]
  rw [wp_of_ok hsetup]
  refine wp_mono (wp_handleDeviceStates_tables hr) (fun st w₁ h₁ => ?_) fun _ _ _ => trivial
  obtain ⟨rfl, hidt₁, hgrow, hselected, hmask₁⟩ := h₁
  rw [hidt] at hidt₁
  rw [hkps] at hselected
  have hmarked : ∀ v, idtInitLoops e.debug v = true → w₁.vectors v = true := fun v hv =>
    hgrow v (hvectors v hv)
  have hlines := bootLines_eq hr
  rw [← hidt₁]
  have hsame : ∀ lines, bootLines r = lines → w₁.irqMask = opened (bootLines r) closed →
      ∀ irq < 16, opened lines w₁.irqMask irq = !decide (irq ∈ bootLines r) := by
    intro lines hl hm irq hirq
    rw [hm, hl, opened_twice lines hirq]
  cases hst : statusOf r with
  | oneKeyboardOneMouse =>
      rw [hst] at hlines hmask₁
      exact ⟨rfl, hmarked, hselected, hsame _ hlines hmask₁⟩
  | twoKeyboard =>
      rw [hst] at hlines hmask₁
      exact ⟨rfl, hmarked, hselected, hsame _ hlines hmask₁⟩
  | twoMouse =>
      rw [hst] at hlines hmask₁
      exact ⟨rfl, hmarked, hselected, hsame _ hlines hmask₁⟩
  | onePortOnly =>
      rw [hst] at hlines hmask₁
      exact ⟨rfl, hmarked, hselected, hsame _ hlines hmask₁⟩
  | noPort =>
      rw [hst] at hlines hmask₁
      refine ⟨rfl, hmarked, hselected, fun irq hirq => ?_⟩
      rw [hlines]
      show w₁.irqMask irq = _
      rw [hmask₁]
      simp [hirq]
  | unrecognizedDevice1 =>
      have hnot : statusOf r ≠ .unrecognizedDevice1 := by
        unfold statusOf
        split <;> simp
      exact absurd hst hnot
  | unrecognizedDevice2 =>
      have hnot : statusOf r ≠ .unrecognizedDevice2 := by
        unfold statusOf
        split <;> simp
      exact absurd hst hnot

/-- `idt_init_ps2` passes its checks. -/
theorem wp_idtInitPs2 (hr : r.Consistent) :
    wp (Drivers.idtInitPs2 (fieldsOf r)) e w
      (fun _ w' => w'.idt = idtAfter (fieldsOf r) w.idt ∧
        ∀ v, w.vectors v = true → w'.vectors v = true) (fun _ _ => False) := by
  obtain ⟨err, internal, type₁, type₂⟩ := r
  cases err with
  | none =>
      obtain ⟨t₁, t₂, h₁, h₂, hk₁, hk₂, hne⟩ := hr
      rw [fieldsOf]
      rcases ports_of_consistent h₁ hk₁ hk₂ hne with h | h
      · obtain ⟨hp, hq⟩ := Prod.mk.inj h
        rw [hp, hq]
        exact ⟨rfl, fun _ hv => setVector_keeps (setVector_keeps hv)⟩
      · obtain ⟨hp, hq⟩ := Prod.mk.inj h
        rw [hp, hq]
        exact ⟨rfl, fun _ hv => setVector_keeps (setVector_keeps hv)⟩
  | noSecondPort =>
      obtain ⟨t₁, h₁, hk₁⟩ := hr
      simp only at h₁
      subst h₁
      rw [fieldsOf]
      rcases hk₁ with hk₁ | hk₁
      · simp only [Option.map_some, hk₁]
        exact ⟨rfl, fun _ hv => hv⟩
      · simp only [Option.map_some, hk₁]
        exact ⟨rfl, fun _ hv => hv⟩
  | twoKeyboard => exact ⟨rfl, fun _ hv => setVector_keeps (setVector_keeps hv)⟩
  | twoMouse => exact ⟨rfl, fun _ hv => setVector_keeps (setVector_keeps hv)⟩
  | _ => exact ⟨rfl, fun _ hv => hv⟩

/-- The entries of both ports. -/
theorem update_ports (idt : UInt8 → IdtEntry) (x y : IdtEntry) (v : UInt8) :
    Function.update (Function.update idt ps2Port1InteruptVector x) ps2Port2InteruptVector y v =
      if v = 33 then x else if v = 44 then y else idt v := by
  have h₁ : ps2Port1InteruptVector = 33 := rfl
  have h₂ : ps2Port2InteruptVector = 44 := rfl
  rw [h₁, h₂, Function.update_apply, Function.update_apply]
  by_cases h : v = 33
  · have hne : v ≠ 44 := by
      rw [h]
      decide
    rw [if_neg hne, if_pos h, if_pos h]
  · rw [if_neg h, if_neg h]

/-- The entries of the ports of a result. -/
def portEntries (r : InitializeDeviceState) (idt : UInt8 → IdtEntry) : UInt8 → IdtEntry := fun v =>
  if v = 33 ∧ (deviceAt r 1).isSome then ⟨portIsr r 1, true⟩
  else if v = 44 ∧ (deviceAt r 2).isSome then ⟨portIsr r 2, true⟩
  else idt v

theorem portEntries_two {s₁ s₂ : DeviceSuperType} (h₁ : deviceAt r 1 = some s₁)
    (h₂ : deviceAt r 2 = some s₂) (idt : UInt8 → IdtEntry) :
    portEntries r idt = Function.update (Function.update idt ps2Port1InteruptVector
      ⟨routineOf 1 s₁, true⟩) ps2Port2InteruptVector ⟨routineOf 2 s₂, true⟩ := by
  funext v
  rw [update_ports]
  simp [portEntries, portIsr, h₁, h₂]

theorem portEntries_one {s₁ : DeviceSuperType} (h₁ : deviceAt r 1 = some s₁)
    (h₂ : deviceAt r 2 = none) (idt : UInt8 → IdtEntry) :
    portEntries r idt = Function.update idt ps2Port1InteruptVector ⟨routineOf 1 s₁, true⟩ := by
  have hvector : ps2Port1InteruptVector = 33 := rfl
  funext v
  rw [Function.update_apply, hvector]
  simp [portEntries, portIsr, h₁, h₂]

/-- **`idt_init_ps2` gives each port the routine of its device.** -/
theorem idtAfter_eq (hr : r.Consistent) (idt : UInt8 → IdtEntry) :
    idtAfter (fieldsOf r) idt = portEntries r idt := by
  obtain ⟨err, internal, type₁, type₂⟩ := r
  cases err with
  | none =>
      obtain ⟨t₁, t₂, h₁, h₂, hk₁, hk₂, hne⟩ := hr
      have hports := keyboardAndMousePort_eq_portOf h₁ hk₁ hk₂ hne
      simp only at h₁ h₂
      subst h₁ h₂
      have hd₁ : deviceAt ⟨.none, internal, some t₁, some t₂⟩ 1 = some (getDeviceSuperType t₁) :=
        rfl
      have hd₂ : deviceAt ⟨.none, internal, some t₁, some t₂⟩ 2 = some (getDeviceSuperType t₂) :=
        rfl
      rw [portEntries_two hd₁ hd₂, fieldsOf]
      rcases keyboardAndMousePort_cases hk₁ hk₂ hne with ⟨hs₁, hs₂, hpq⟩ | ⟨hs₁, hs₂, hpq⟩
      · obtain ⟨hp, hq⟩ := Prod.mk.inj (hports.symm.trans hpq)
        rw [hp, hq, hs₁, hs₂]
        rfl
      · obtain ⟨hp, hq⟩ := Prod.mk.inj (hports.symm.trans hpq)
        rw [hp, hq, hs₁, hs₂]
        exact Function.update_comm (by decide) _ _ _
  | twoKeyboard =>
      obtain ⟨t₁, t₂, h₁, h₂, hs₁, hs₂⟩ := hr
      simp only at h₁ h₂
      subst h₁ h₂
      have hd₁ : deviceAt ⟨.twoKeyboard, internal, some t₁, some t₂⟩ 1 =
          some (getDeviceSuperType t₁) := rfl
      have hd₂ : deviceAt ⟨.twoKeyboard, internal, some t₁, some t₂⟩ 2 =
          some (getDeviceSuperType t₂) := rfl
      rw [portEntries_two hd₁ hd₂, hs₁, hs₂]
      rfl
  | twoMouse =>
      obtain ⟨t₁, t₂, h₁, h₂, hs₁, hs₂⟩ := hr
      simp only at h₁ h₂
      subst h₁ h₂
      have hd₁ : deviceAt ⟨.twoMouse, internal, some t₁, some t₂⟩ 1 =
          some (getDeviceSuperType t₁) := rfl
      have hd₂ : deviceAt ⟨.twoMouse, internal, some t₁, some t₂⟩ 2 =
          some (getDeviceSuperType t₂) := rfl
      rw [portEntries_two hd₁ hd₂, hs₁, hs₂]
      rfl
  | noSecondPort =>
      obtain ⟨t₁, h₁, hk₁⟩ := hr
      simp only at h₁
      subst h₁
      have hd₁ : deviceAt ⟨.noSecondPort, internal, some t₁, type₂⟩ 1 =
          some (getDeviceSuperType t₁) := rfl
      have hd₂ : deviceAt ⟨.noSecondPort, internal, some t₁, type₂⟩ 2 = none := rfl
      rw [portEntries_one hd₁ hd₂, fieldsOf, Option.map_some]
      rcases hk₁ with hs₁ | hs₁
      · rw [hs₁]
        rfl
      · rw [hs₁]
        rfl
  | _ =>
      funext v
      simp [deviceAt, fieldsOf, idtAfter, portEntries]

/-- **The table after the boot.** -/
theorem bootIdt_eq (hr : r.Consistent) (debug : Bool) (idt : UInt8 → IdtEntry) :
    Function.update (idtAfter (fieldsOf r) (initTable debug idt)) pitInteruptVector ⟨.pit, true⟩ =
      fun v => if bootVectors debug v then ⟨bootIsr r v, true⟩ else idt v := by
  have hpit : pitInteruptVector = 32 := rfl
  funext v
  rw [idtAfter_eq hr, Function.update_apply, hpit]
  by_cases h32 : v = 32
  · subst h32
    cases debug <;> rfl
  rw [if_neg h32, portEntries]
  by_cases h33 : v = 33
  · subst h33
    have hset : bootVectors debug 33 = true := by cases debug <;> rfl
    have hisr : bootIsr r 33 = portIsr r 1 := rfl
    rw [hset, hisr, if_pos rfl]
    cases hd : deviceAt r 1 with
    | some s => simp
    | none =>
        simp only [portIsr, hd]
        cases debug <;> rfl
  by_cases h44 : v = 44
  · subst h44
    have hset : bootVectors debug 44 = true := by cases debug <;> rfl
    have hisr : bootIsr r 44 = portIsr r 2 := rfl
    rw [hset, hisr, if_pos rfl]
    cases hd : deviceAt r 2 with
    | some s => simp
    | none =>
        simp only [portIsr, hd]
        cases debug <;> rfl
  rw [if_neg fun h => h33 h.1, if_neg fun h => h44 h.1, initTable, bootIsr, if_neg h32, if_neg h33,
    if_neg h44]
  by_cases h58 : v = 58
  · subst h58
    cases debug <;> rfl
  rw [if_neg h58, if_neg h58]
  by_cases hset : v ∈ [5, 8, 11, 13, 56, 57]
  · have hvector : bootVectors debug v = true := by
      simp only [List.mem_cons, List.not_mem_nil, or_false] at hset
      rcases hset with rfl | rfl | rfl | rfl | rfl | rfl <;> cases debug <;> rfl
    rw [if_pos hset, if_pos hset, hvector, if_pos rfl]
  · have hvector : bootVectors debug v = idtInitLoops debug v := by
      simp only [List.mem_cons, List.not_mem_nil, or_false, not_or] at hset
      simp [bootVectors, h58, hset]
    rw [if_neg hset, if_neg hset, hvector]

/-- **The words after the boot** are those of the table after it. -/
theorem bootTable_ok {env : IdtEnv} {s : IdtState} (hdebug : env.debug = e.debug)
    (hs : Encodes env.address s w.idt w.vectors) (hr : r.Consistent) :
    ∃ s' w₂, bootTable r env s = (.ok (), s') ∧ Holds env.address s' w₂ ∧
      (w₂.idt = fun v => if bootVectors e.debug v then ⟨bootIsr r v, true⟩ else w.idt v) ∧
      ∀ v, idtInitLoops e.debug v = true → w₂.vectors v = true := by
  obtain ⟨w₀, hinit₀, -, -, hidt₀, hvectors₀⟩ := idtInit_tables e w
  obtain ⟨w₀', hinit, hrun₀⟩ := holds_idtInit (E := fun _ _ => False) hdebug hs
  obtain rfl : w₀' = w₀ := congrArg Prod.snd (hinit.symm.trans hinit₀)
  obtain ⟨_, s₀, hs₀, hholds₀⟩ := exists_ok_of_wp hrun₀
  obtain ⟨_, w₁, hps2, hidt₁, hvectors₁⟩ :=
    exists_ok_of_wp (wp_idtInitPs2 (e := e) (w := w₀') hr)
  have hps2' : Follows env e (Cpu.idtInitPs2 (fieldsOf r)) (Drivers.idtInitPs2 (fieldsOf r)) :=
    follows_idtInitPs2 (fieldsOf r)
  have hfollows := hps2' s₀ w₀' hholds₀
  rw [wp_of_ok hps2] at hfollows
  obtain ⟨_, s₁, hs₁, hholds₁⟩ := exists_ok_of_wp hfollows
  have hpit : wp Cpu.idtInitPit env s₁
      (fun _ s' => Holds env.address s' (withGate pitInteruptVector .pit w₁)) fun _ _ => False :=
    holds_setGate (by simp) hholds₁
  obtain ⟨_, s₂, hs₂, hholds₂⟩ := exists_ok_of_wp hpit
  refine ⟨s₂, _, (bind_of_ok hs₀).trans ((bind_of_ok hs₁).trans hs₂), hholds₂, ?_,
    fun v hv => hvectors₁ v (hvectors₀ v hv)⟩
  rw [← bootIdt_eq hr, ← hidt₀, ← hidt₁]
  rfl

end Boot

/-! ## 4. The chips -/

section Chips

variable {r : InitializeDeviceState} {t : Lines} {p : Pics}

/-- Lines opened one after the other. -/
theorem represents_opened {lines : List UInt8} (hlines : ∀ irq ∈ lines, irq < 16)
    {log : List (UInt8 × UInt8)} (h : Represents (p, log) t) :
    Represents (lines.foldl (fun s irq => Cpu.irqClearMask irq s) p, log)
      { t with mask := opened lines t.mask } := by
  induction lines generalizing p t with
  | nil => exact h
  | cons line lines ih =>
      have hline := h.clearMask (hlines line List.mem_cons_self)
      exact ih (fun irq hirq => hlines irq (List.mem_cons_of_mem line hirq)) hline

/-- Both chips remapped and all lines closed. -/
theorem represents_closed (hmaster : p.master.isr = 0) (hslave : p.slave.isr = 0) :
    Represents (Cpu.initializeIrqs (Cpu.picRemap pic1Offset pic2Offset p), [])
      { Lines.remapped pic1Offset pic2Offset with mask := closed } :=
  (represents_picRemap (t := .remapped pic1Offset pic2Offset) hmaster hslave rfl rfl pic1Offset
    pic2Offset).initializeIrqs

theorem mem_bootLines_cases {irq : UInt8} (h : irq ∈ bootLines r) :
    irq = 1 ∨ (irq = 2 ∨ irq = 12) ∧ 2 ∈ bootLines r := by
  rcases List.mem_append.mp h with h | h
  · split at h
    · exact Or.inl (List.mem_singleton.mp h)
    · exact absurd h List.not_mem_nil
  · split at h
    · next hd =>
        have hlines : irq = ps2Port2BridgeIrq ∨ irq = ps2Port2Irq := by simpa using h
        refine Or.inr ⟨hlines, List.mem_append_right _ ?_⟩
        rw [if_pos hd]
        exact List.mem_cons_self
    · exact absurd h List.not_mem_nil

theorem bootLines_lt (r : InitializeDeviceState) : ∀ irq ∈ bootLines r, irq < 16 := by
  intro irq hirq
  rcases mem_bootLines_cases hirq with rfl | ⟨rfl | rfl, -⟩
  · decide
  · decide
  · decide

/-- **The chips after the boot** have the lines of the devices open and no other, and no request. -/
theorem represents_bootPics (r : InitializeDeviceState) (hmaster : p.master.isr = 0)
    (hslave : p.slave.isr = 0) :
    ∃ mask : UInt8 → Bool, (∀ irq < 16, mask irq = !decide (irq ∈ bootLines r)) ∧
      Represents (bootPics r p, []) ⟨32, 40, mask, fun _ => false, [], []⟩ := by
  have hfirst := represents_closed hmaster hslave
  have hsecond := represents_closed (hfirst.idle rfl).1 (hfirst.idle rfl).2
  have hlines := bootLines_lt r
  have hbase : Lines.remapped pic1Offset pic2Offset =
      ⟨32, 40, fun _ => false, fun _ => false, [], []⟩ := rfl
  have hfound := represents_opened hlines (represents_opened hlines hsecond)
  have hnone := represents_opened hlines hfirst
  rw [hbase] at hfound hnone
  have hmask : ∀ irq < 16, opened (bootLines r) closed irq = !decide (irq ∈ bootLines r) := by
    intro irq hirq
    rw [opened_apply, closed]
    by_cases hmem : irq ∈ bootLines r
    · simp [hmem]
    · simp [hmem, hirq]
  rw [bootPics]
  split
  all_goals first
    | exact ⟨_, fun irq hirq => opened_twice _ hirq, hfound⟩
    | exact ⟨_, hmask, hnone⟩

end Chips

end MapleKernel.Kernel
