/-
  File:      Cpu/ApicIo.lean
  Subject:   THE I/O APIC (`apic_io.cpp`): registers behind a select register and a window, and the
             redirection table as an array of entries.

  An entry is two registers of 32 bits. `write_redirection` writes the high one first, both reads
  take the low one first; each access selects its register before.

  * `IoApic` -- the device: what is read through the window is the last write to the selected
    register;
  * `RedirectionEntryLow`, ... -- the bit-field structures of the union `io_window`;
  * `writeRedirection`, `readRedirection`, `initIoApic`, ... -- the driver, from the source;
  * `IoApic.entry` -- the array: `entry_writeRedirection` is the one update, and `run_entry` says
    that a sequence of calls leaves the last writes (`memAfter`);
  * `redirection_array` -- the sequence returns, and what it leaves to be read.
-/
import MapleKernel.Lib.BitStruct
import MapleKernel.Lib.LastWrite
import MapleKernel.Lib.Program

namespace MapleKernel.Cpu

open BitStructs LastWrite Program

/-! ## 1. The registers -/

/-- `enum class RegisterOffsets`; the table has computed offsets. -/
def RegisterOffsets.id : UInt32 := 0x00

def RegisterOffsets.version : UInt32 := 0x01

def RegisterOffsets.arbitration : UInt32 := 0x02

def RegisterOffsets.relocationTableBase : UInt32 := 0x10

/-- `struct id`; `padding` are the bits above its last field. -/
structure IoApicId where
  reserved : BitVec 24
  apicId : BitVec 4
  padding : BitVec 4
  deriving DecidableEq, Repr

/-- `struct version`. -/
structure IoApicVersion where
  version : BitVec 8
  reserved : BitVec 8
  maxRedirectionEntry : BitVec 8
  padding : BitVec 8
  deriving DecidableEq, Repr

/-- `struct arbitartion`. -/
structure IoApicArbitration where
  reserved : BitVec 24
  arbitrationId : BitVec 4
  padding : BitVec 4
  deriving DecidableEq, Repr

/-- The default of a member is the enumerator 0. -/
structure RedirectionEntryLow where
  vector : BitVec 8
  deliveryMode : BitVec 3 := 0
  destinationMode : BitVec 1 := 0
  deliveryStatus : BitVec 1 := 0
  pinPolarity : BitVec 1 := 0
  remoteInterruptRequest : BitVec 1 := 0
  triggerMode : BitVec 1 := 0
  mask : BitVec 1 := 0
  reserved : BitVec 15 := 0
  deriving DecidableEq, Repr

/-- `destination` is a union of one byte. -/
structure RedirectionEntryHigh where
  reserved : BitVec 24 := 0
  destination : BitVec 8
  deriving DecidableEq, Repr

structure FullRedirectionEntry where
  redLow : RedirectionEntryLow
  redHigh : RedirectionEntryHigh
  deriving DecidableEq, Repr

def IoApicId.layout : Layout 32 IoApicId where
  widths := [24, 4, 4]
  width_eq := rfl
  members :=
    { toFun := fun r => (r.reserved, r.apicId, r.padding, ())
      invFun := fun f => ⟨f.1, f.2.1, f.2.2.1⟩
      left_inv := fun _ => rfl
      right_inv := fun _ => rfl }

def IoApicVersion.layout : Layout 32 IoApicVersion where
  widths := [8, 8, 8, 8]
  width_eq := rfl
  members :=
    { toFun := fun r => (r.version, r.reserved, r.maxRedirectionEntry, r.padding, ())
      invFun := fun f => ⟨f.1, f.2.1, f.2.2.1, f.2.2.2.1⟩
      left_inv := fun _ => rfl
      right_inv := fun _ => rfl }

def IoApicArbitration.layout : Layout 32 IoApicArbitration where
  widths := [24, 4, 4]
  width_eq := rfl
  members :=
    { toFun := fun r => (r.reserved, r.arbitrationId, r.padding, ())
      invFun := fun f => ⟨f.1, f.2.1, f.2.2.1⟩
      left_inv := fun _ => rfl
      right_inv := fun _ => rfl }

def RedirectionEntryLow.layout : Layout 32 RedirectionEntryLow where
  widths := [8, 3, 1, 1, 1, 1, 1, 1, 15]
  width_eq := rfl
  members :=
    { toFun := fun r => (r.vector, r.deliveryMode, r.destinationMode, r.deliveryStatus,
        r.pinPolarity, r.remoteInterruptRequest, r.triggerMode, r.mask, r.reserved, ())
      invFun := fun f => ⟨f.1, f.2.1, f.2.2.1, f.2.2.2.1, f.2.2.2.2.1, f.2.2.2.2.2.1,
        f.2.2.2.2.2.2.1, f.2.2.2.2.2.2.2.1, f.2.2.2.2.2.2.2.2.1⟩
      left_inv := fun _ => rfl
      right_inv := fun _ => rfl }

/-- The vector is the low byte, and bit 16 masks the interrupt. -/
example : RedirectionEntryLow.layout.raw { vector := 0x21, mask := 1 } = 0x10021#32 := by decide

def RedirectionEntryHigh.layout : Layout 32 RedirectionEntryHigh where
  widths := [24, 8]
  width_eq := rfl
  members :=
    { toFun := fun r => (r.reserved, r.destination, ())
      invFun := fun f => ⟨f.1, f.2.1⟩
      left_inv := fun _ => rfl
      right_inv := fun _ => rfl }

/-- `union io_window`: one word, seen as any of the structures. -/
abbrev IoWindow := BitVec 32

/-- The device. -/
structure IoApic where
  registerSelect : UInt32
  registers : UInt32 → IoWindow

/-- The `assert` of `set_apic_id_of_owner`. -/
inductive IoApicHalt where
  | apicIdTooBig
  deriving DecidableEq, Repr

/-- The build flag `DEBUG` is the environment. -/
abbrev IoApicProg := Prog Bool IoApic IoApicHalt

def registerSelectWrite (offset : UInt32) : IoApicProg Unit :=
  Prog.modify fun d => { d with registerSelect := offset }

def ioWindowRead : IoApicProg IoWindow := do
  let d ← Prog.get
  return d.registers d.registerSelect

def ioWindowWrite (v : IoWindow) : IoApicProg Unit :=
  Prog.modify fun d => { d with registers := Function.update d.registers d.registerSelect v }

/-! ## 2. The driver -/

def getApicIdOfOwner : IoApicProg (BitVec 4) := do
  registerSelectWrite RegisterOffsets.id
  let win ← ioWindowRead
  return (IoApicId.layout.ofRaw win).apicId

/-- `padding` stands in the bits that the structure has no field for. -/
def setApicIdOfOwner (padding : BitVec 4) (apicIdOfOwner : UInt8) : IoApicProg Unit := do
  let debug ← Prog.ask
  Prog.assert (!debug || apicIdOfOwner < 0b1111) .apicIdTooBig
  registerSelectWrite RegisterOffsets.id
  ioWindowWrite (IoApicId.layout.raw ⟨0, apicIdOfOwner.toBitVec.setWidth 4, padding⟩)

def getVersionAndMaxRed : IoApicProg IoApicVersion := do
  registerSelectWrite RegisterOffsets.version
  let win ← ioWindowRead
  return IoApicVersion.layout.ofRaw win

def getArbitration : IoApicProg (BitVec 4) := do
  registerSelectWrite RegisterOffsets.arbitration
  let win ← ioWindowRead
  return (IoApicArbitration.layout.ofRaw win).arbitrationId

structure HighAndLow where
  low : UInt32
  high : UInt32

def getOffsets (redIdx : UInt8) : HighAndLow :=
  let offsetRawLow := RegisterOffsets.relocationTableBase + redIdx.toUInt32 * 2
  { low := offsetRawLow, high := offsetRawLow + 1 }

def writeRedirection (irq : UInt8) (redLow : RedirectionEntryLow) (redHigh : RedirectionEntryHigh) :
    IoApicProg Unit := do
  let hl := getOffsets irq
  registerSelectWrite hl.high
  ioWindowWrite (RedirectionEntryHigh.layout.raw redHigh)
  registerSelectWrite hl.low
  ioWindowWrite (RedirectionEntryLow.layout.raw redLow)

/-- The result are the values of the two reference parameters. -/
def readRedirectionWs (irq : UInt8) : IoApicProg (RedirectionEntryLow × RedirectionEntryHigh) := do
  let hl := getOffsets irq
  registerSelectWrite hl.low
  let lowU ← ioWindowRead
  registerSelectWrite hl.high
  let highU ← ioWindowRead
  return (RedirectionEntryLow.layout.ofRaw lowU, RedirectionEntryHigh.layout.ofRaw highU)

def readRedirection (irq : UInt8) : IoApicProg FullRedirectionEntry := do
  let hl := getOffsets irq
  registerSelectWrite hl.low
  let lowU ← ioWindowRead
  registerSelectWrite hl.high
  let highU ← ioWindowRead
  return ⟨RedirectionEntryLow.layout.ofRaw lowU, RedirectionEntryHigh.layout.ofRaw highU⟩

/-- The entry that `init_io_apic` builds for a vector, enabled and for the core with the id 0. -/
def initEntry (padding : BitVec 4) (vector : BitVec 8) : FullRedirectionEntry where
  redLow := { vector, mask := 0 }
  redHigh := { destination := padding ++ 0#4 }

/-- `BSP_APIC_ID`. -/
def bspApicId : BitVec 4 := 0

def initIoApic (padding : BitVec 4) (irqToGsi : UInt8 → UInt8) : IoApicProg Unit := do
  let curOwner ← getApicIdOfOwner
  if curOwner ≠ bspApicId then setApicIdOfOwner padding 0
  let _ ← getVersionAndMaxRed
  let pit := initEntry padding 32
  writeRedirection (irqToGsi 0) pit.redLow pit.redHigh
  let keyboard := initEntry padding 33
  writeRedirection (irqToGsi 1) keyboard.redLow keyboard.redHigh
  let mouse := initEntry padding 44
  writeRedirection (irqToGsi 12) mouse.redLow mouse.redHigh

/-! ## 3. The array -/

/-- **The entry of an interrupt**: what stands in its two registers. -/
def IoApic.entry (d : IoApic) (irq : UInt8) : FullRedirectionEntry :=
  ⟨RedirectionEntryLow.layout.ofRaw (d.registers (getOffsets irq).low),
    RedirectionEntryHigh.layout.ofRaw (d.registers (getOffsets irq).high)⟩

section Device

variable (debug : Bool) (d : IoApic)

theorem toNat_low (irq : UInt8) : (getOffsets irq).low.toNat = 16 + 2 * irq.toNat := by
  have hirq := irq.toNat_lt
  have hbase : RegisterOffsets.relocationTableBase.toNat = 16 := rfl
  have htwo : (2 : UInt32).toNat = 2 := rfl
  show (RegisterOffsets.relocationTableBase + irq.toUInt32 * 2).toNat = _
  rw [UInt32.toNat_add, UInt32.toNat_mul, UInt8.toNat_toUInt32, hbase, htwo]
  omega

theorem toNat_high (irq : UInt8) : (getOffsets irq).high.toNat = 17 + 2 * irq.toNat := by
  have hirq := irq.toNat_lt
  have hone : (1 : UInt32).toNat = 1 := rfl
  show ((getOffsets irq).low + 1).toNat = _
  rw [UInt32.toNat_add, toNat_low, hone]
  omega

theorem low_ne_high (irq irq' : UInt8) : (getOffsets irq).low ≠ (getOffsets irq').high := by
  intro h
  have hnat := congrArg UInt32.toNat h
  rw [toNat_low, toNat_high] at hnat
  omega

theorem low_inj {irq irq' : UInt8} (h : (getOffsets irq).low = (getOffsets irq').low) :
    irq = irq' := by
  have hnat := congrArg UInt32.toNat h
  rw [toNat_low, toNat_low] at hnat
  exact UInt8.toNat_inj.mp (by omega)

theorem high_inj {irq irq' : UInt8} (h : (getOffsets irq).high = (getOffsets irq').high) :
    irq = irq' := by
  have hnat := congrArg UInt32.toNat h
  rw [toNat_high, toNat_high] at hnat
  exact UInt8.toNat_inj.mp (by omega)

/-- The other registers are below the table. -/
theorem offsets_ne_of_lt {r : UInt32} (hr : r < RegisterOffsets.relocationTableBase)
    (irq : UInt8) : (getOffsets irq).low ≠ r ∧ (getOffsets irq).high ≠ r := by
  have hlt : r.toNat < 16 := UInt32.lt_iff_toNat_lt.mp hr
  constructor
  · rintro rfl
    rw [toNat_low] at hlt
    omega
  · rintro rfl
    rw [toNat_high] at hlt
    omega

theorem entry_congr {d d' : IoApic} {irq : UInt8}
    (hlow : d'.registers (getOffsets irq).low = d.registers (getOffsets irq).low)
    (hhigh : d'.registers (getOffsets irq).high = d.registers (getOffsets irq).high) :
    d'.entry irq = d.entry irq := by
  rw [IoApic.entry, hlow, hhigh]
  rfl

/-- Both reads return the entry. -/
theorem readRedirection_eq (irq : UInt8) :
    readRedirection irq debug d =
      (.ok (d.entry irq), { d with registerSelect := (getOffsets irq).high }) := rfl

theorem readRedirectionWs_eq (irq : UInt8) :
    readRedirectionWs irq debug d =
      (.ok ((d.entry irq).redLow, (d.entry irq).redHigh),
        { d with registerSelect := (getOffsets irq).high }) := rfl

/-- The device after `write_redirection`. -/
def IoApic.afterWrite (irq : UInt8) (e : FullRedirectionEntry) : IoApic where
  registerSelect := (getOffsets irq).low
  registers :=
    Function.update
      (Function.update d.registers (getOffsets irq).high
        (RedirectionEntryHigh.layout.raw e.redHigh))
      (getOffsets irq).low (RedirectionEntryLow.layout.raw e.redLow)

theorem writeRedirection_eq (irq : UInt8) (e : FullRedirectionEntry) :
    writeRedirection irq e.redLow e.redHigh debug d = (.ok (), d.afterWrite irq e) := rfl

/-- **A write changes its entry and no other.** -/
theorem entry_afterWrite (irq : UInt8) (e : FullRedirectionEntry) :
    (d.afterWrite irq e).entry = Function.update d.entry irq e := by
  funext irq'
  by_cases h : irq' = irq
  · subst h
    have hlow : (d.afterWrite irq' e).registers (getOffsets irq').low =
        RedirectionEntryLow.layout.raw e.redLow := Function.update_self _ _ _
    have hhigh : (d.afterWrite irq' e).registers (getOffsets irq').high =
        RedirectionEntryHigh.layout.raw e.redHigh := by
      refine (Function.update_of_ne ?_ _ _).trans (Function.update_self _ _ _)
      exact (low_ne_high irq' irq').symm
    rw [Function.update_self, IoApic.entry, hlow, hhigh]
    rw [Layout.ofRaw_raw, Layout.ofRaw_raw]
  · have hlow : (d.afterWrite irq e).registers (getOffsets irq').low =
        d.registers (getOffsets irq').low := by
      refine (Function.update_of_ne ?_ _ _).trans (Function.update_of_ne ?_ _ _)
      · exact fun heq => h (low_inj heq)
      · exact low_ne_high irq' irq
    have hhigh : (d.afterWrite irq e).registers (getOffsets irq').high =
        d.registers (getOffsets irq').high := by
      refine (Function.update_of_ne ?_ _ _).trans (Function.update_of_ne ?_ _ _)
      · exact (low_ne_high irq irq').symm
      · exact fun heq => h (high_inj heq)
    rw [Function.update_of_ne h]
    exact entry_congr hlow hhigh

/-- The registers below the table stay as they are. -/
theorem registers_afterWrite {r : UInt32} (hr : r < RegisterOffsets.relocationTableBase)
    (irq : UInt8) (e : FullRedirectionEntry) :
    (d.afterWrite irq e).registers r = d.registers r := by
  obtain ⟨hlow, hhigh⟩ := offsets_ne_of_lt hr irq
  exact (Function.update_of_ne hlow.symm _ _).trans (Function.update_of_ne hhigh.symm _ _)

/-- The device after `set_apic_id_of_owner`. -/
def IoApic.afterOwner (padding : BitVec 4) (apicId : UInt8) : IoApic where
  registerSelect := RegisterOffsets.id
  registers := Function.update d.registers RegisterOffsets.id
    (IoApicId.layout.raw ⟨0, apicId.toBitVec.setWidth 4, padding⟩)

theorem setApicIdOfOwner_eq (padding : BitVec 4) (apicId : UInt8) :
    setApicIdOfOwner padding apicId debug d =
      if !debug || apicId < 0b1111 then (.ok (), d.afterOwner padding apicId)
      else (.error .apicIdTooBig, d) := by
  cases h : (!debug || decide (apicId < 0b1111)) <;>
    simp [setApicIdOfOwner, Prog.assert, Prog.ask, bind, h] <;> rfl

/-- The table stays as it is. -/
theorem entry_afterOwner (padding : BitVec 4) (apicId : UInt8) :
    (d.afterOwner padding apicId).entry = d.entry := by
  funext irq
  obtain ⟨hlow, hhigh⟩ := offsets_ne_of_lt (r := RegisterOffsets.id) (by decide) irq
  exact entry_congr (Function.update_of_ne hlow _ _) (Function.update_of_ne hhigh _ _)

end Device

/-! ## 4. Sequences of calls -/

inductive IoApicCall where
  | writeRedirection (irq : UInt8) (redLow : RedirectionEntryLow) (redHigh : RedirectionEntryHigh)
  | readRedirection (irq : UInt8)
  | readRedirectionWs (irq : UInt8)
  | setApicIdOfOwner (padding : BitVec 4) (apicIdOfOwner : UInt8)
  | getApicIdOfOwner
  | getVersionAndMaxRed
  | getArbitration
  deriving DecidableEq, Repr

namespace IoApicCall

def run : IoApicCall → IoApicProg Unit
  | .writeRedirection irq redLow redHigh => Cpu.writeRedirection irq redLow redHigh
  | .readRedirection irq => discard (Cpu.readRedirection irq)
  | .readRedirectionWs irq => discard (Cpu.readRedirectionWs irq)
  | .setApicIdOfOwner padding apicId => Cpu.setApicIdOfOwner padding apicId
  | .getApicIdOfOwner => discard Cpu.getApicIdOfOwner
  | .getVersionAndMaxRed => discard Cpu.getVersionAndMaxRed
  | .getArbitration => discard Cpu.getArbitration

/-- What a call stores in the array. -/
def writes : IoApicCall → List (UInt8 × FullRedirectionEntry)
  | .writeRedirection irq redLow redHigh => [(irq, ⟨redLow, redHigh⟩)]
  | _ => []

def SetsOwner : IoApicCall → Prop
  | .setApicIdOfOwner _ _ => True
  | _ => False

/-- The assert of the call, if it has one, holds. -/
def Accepted (debug : Bool) : IoApicCall → Prop
  | .setApicIdOfOwner _ apicId => (!debug || apicId < 0b1111) = true
  | _ => True

end IoApicCall

/-- The calls one after the other; a failed assert ends them. -/
def runCalls : List IoApicCall → IoApicProg Unit
  | [] => pure ()
  | c :: cs => do
      c.run
      runCalls cs

section Calls

variable {debug : Bool} {d d' : IoApic}

/-- What calls do: the entries are the last of the writes, and of the registers below the table only
the id of the owner is written. -/
structure Leaves (d : IoApic) (writes : List (UInt8 × FullRedirectionEntry)) (setsOwner : Prop)
    (d' : IoApic) : Prop where
  entry : d'.entry = memAfter d.entry writes
  registers : ∀ r < RegisterOffsets.relocationTableBase, (setsOwner → r ≠ RegisterOffsets.id) →
    d'.registers r = d.registers r

theorem Leaves.mono {ws : List (UInt8 × FullRedirectionEntry)} {p q : Prop}
    (h : Leaves d ws p d') (hpq : p → q) : Leaves d ws q d' :=
  ⟨h.entry, fun r hr hq => h.registers r hr fun hp => hq (hpq hp)⟩

theorem Leaves.trans {d₁ : IoApic} {ws ws' : List (UInt8 × FullRedirectionEntry)} {p : Prop}
    (h : Leaves d ws p d₁) (h' : Leaves d₁ ws' p d') : Leaves d (ws ++ ws') p d' := by
  refine ⟨?_, fun r hr hp => (h'.registers r hr hp).trans (h.registers r hr hp)⟩
  rw [h'.entry, h.entry, memAfter_append]

/-- Reads only select a register. -/
theorem leaves_select (sel : UInt32) {p : Prop} :
    Leaves d [] p { d with registerSelect := sel } := ⟨rfl, fun _ _ _ => rfl⟩

theorem leaves_writeRedirection (irq : UInt8) (e : FullRedirectionEntry) {p : Prop} :
    Leaves d [(irq, e)] p (d.afterWrite irq e) :=
  ⟨entry_afterWrite d irq e, fun _ hr _ => registers_afterWrite d hr irq e⟩

theorem leaves_setApicIdOfOwner (padding : BitVec 4) (apicId : UInt8) :
    Leaves d [] True (d.afterOwner padding apicId) :=
  ⟨entry_afterOwner d padding apicId, fun _ _ hr => Function.update_of_ne (hr trivial) _ _⟩

theorem IoApicCall.run_returns {c : IoApicCall} (h : c.Accepted debug) (d : IoApic) :
    ∃ d', c.run debug d = (.ok (), d') := by
  cases c with
  | setApicIdOfOwner padding apicId =>
      exact ⟨_, (setApicIdOfOwner_eq debug d padding apicId).trans (if_pos h)⟩
  | _ => exact ⟨_, rfl⟩

theorem runCalls_returns {calls : List IoApicCall} (h : ∀ c ∈ calls, c.Accepted debug)
    (d : IoApic) : ∃ d', runCalls calls debug d = (.ok (), d') := by
  induction calls generalizing d with
  | nil => exact ⟨d, rfl⟩
  | cons c calls ih =>
      obtain ⟨d₁, hc⟩ := IoApicCall.run_returns (h c List.mem_cons_self) d
      obtain ⟨d', hcalls⟩ := ih (fun c' hc' => h c' (List.mem_cons_of_mem c hc')) d₁
      exact ⟨d', (bind_of_ok hc).trans hcalls⟩

/-- One call. -/
theorem leaves_run {c : IoApicCall} (h : c.run debug d = (.ok (), d')) :
    Leaves d c.writes c.SetsOwner d' := by
  cases c with
  | writeRedirection irq redLow redHigh =>
      obtain rfl : d.afterWrite irq ⟨redLow, redHigh⟩ = d' :=
        congrArg Prod.snd ((writeRedirection_eq debug d irq ⟨redLow, redHigh⟩).symm.trans h)
      exact leaves_writeRedirection irq ⟨redLow, redHigh⟩
  | readRedirection irq =>
      obtain rfl : { d with registerSelect := (getOffsets irq).high } = d' := congrArg Prod.snd h
      exact leaves_select _
  | readRedirectionWs irq =>
      obtain rfl : { d with registerSelect := (getOffsets irq).high } = d' := congrArg Prod.snd h
      exact leaves_select _
  | setApicIdOfOwner padding apicId =>
      have hset : setApicIdOfOwner padding apicId debug d = (.ok (), d') := h
      rw [setApicIdOfOwner_eq] at hset
      split at hset
      · obtain rfl : d.afterOwner padding apicId = d' := congrArg Prod.snd hset
        exact leaves_setApicIdOfOwner padding apicId
      · cases hset
  | getApicIdOfOwner =>
      obtain rfl : { d with registerSelect := RegisterOffsets.id } = d' := congrArg Prod.snd h
      exact leaves_select _
  | getVersionAndMaxRed =>
      obtain rfl : { d with registerSelect := RegisterOffsets.version } = d' := congrArg Prod.snd h
      exact leaves_select _
  | getArbitration =>
      obtain rfl : { d with registerSelect := RegisterOffsets.arbitration } = d' :=
        congrArg Prod.snd h
      exact leaves_select _

/-- **A sequence of calls leaves the last writes in the array.** -/
theorem leaves_runCalls {calls : List IoApicCall} (h : runCalls calls debug d = (.ok (), d')) :
    Leaves d (calls.flatMap IoApicCall.writes) (∃ c ∈ calls, c.SetsOwner) d' := by
  induction calls generalizing d with
  | nil =>
      obtain rfl : d = d' := congrArg Prod.snd h
      exact ⟨rfl, fun _ _ _ => rfl⟩
  | cons c calls ih =>
      obtain ⟨_, d₁, hc, hcalls⟩ := ok_of_bind_ok h
      have hfirst : Leaves d c.writes (∃ c' ∈ c :: calls, c'.SetsOwner) d₁ :=
        (leaves_run hc).mono fun hset => ⟨c, List.mem_cons_self, hset⟩
      refine hfirst.trans ((ih hcalls).mono ?_)
      rintro ⟨c', hc', hset⟩
      exact ⟨c', List.mem_cons_of_mem c hc', hset⟩

/-- A call that writes the entry of `irq`. -/
def IoApicCall.WritesEntry (irq : UInt8) (c : IoApicCall) : Prop :=
  ∃ redLow redHigh, c = .writeRedirection irq redLow redHigh

theorem untouched_of_calls {irq : UInt8} {calls : List IoApicCall}
    (h : ∀ c ∈ calls, ¬ c.WritesEntry irq) : Untouched irq (calls.flatMap IoApicCall.writes) := by
  intro e he heq
  obtain ⟨c, hc, hw⟩ := List.mem_flatMap.mp he
  cases c with
  | writeRedirection irq' redLow redHigh =>
      obtain rfl := List.mem_singleton.mp hw
      exact h _ hc ⟨redLow, redHigh, by rw [← heq]⟩
  | _ => cases hw

/-- **The redirection table is an array of entries**: what is read after `calls`. -/
structure ActsAsArray (debug : Bool) (d : IoApic) (calls : List IoApicCall) (d' : IoApic) :
    Prop where
  last : ∀ pre irq redLow redHigh post,
    calls = pre ++ .writeRedirection irq redLow redHigh :: post →
    (∀ c ∈ post, ¬ c.WritesEntry irq) →
      (readRedirection irq debug d').1 = .ok ⟨redLow, redHigh⟩
  others : ∀ irq, (∀ c ∈ calls, ¬ c.WritesEntry irq) →
    (readRedirection irq debug d').1 = (readRedirection irq debug d).1
  sameReads : ∀ irq redLow redHigh, (readRedirectionWs irq debug d').1 = .ok (redLow, redHigh) ↔
    (readRedirection irq debug d').1 = .ok ⟨redLow, redHigh⟩
  owner : (∀ c ∈ calls, ¬ c.SetsOwner) →
    d'.registers RegisterOffsets.id = d.registers RegisterOffsets.id
  version : d'.registers RegisterOffsets.version = d.registers RegisterOffsets.version
  arbitration : d'.registers RegisterOffsets.arbitration = d.registers RegisterOffsets.arbitration

theorem actsAsArray_of_runCalls {calls : List IoApicCall}
    (h : runCalls calls debug d = (.ok (), d')) : ActsAsArray debug d calls d' := by
  have hleaves := leaves_runCalls h
  constructor
  · intro pre irq redLow redHigh post hsplit hpost
    have hwrites : calls.flatMap IoApicCall.writes = pre.flatMap IoApicCall.writes ++
        (irq, ⟨redLow, redHigh⟩) :: post.flatMap IoApicCall.writes := by
      rw [hsplit, List.flatMap_append, List.flatMap_cons]
      rfl
    rw [readRedirection_eq, hleaves.entry, hwrites,
      memAfter_of_last (untouched_of_calls hpost)]
  · intro irq hcalls
    rw [readRedirection_eq, readRedirection_eq, hleaves.entry,
      memAfter_of_untouched (untouched_of_calls hcalls)]
  · intro irq redLow redHigh
    rw [readRedirection_eq, readRedirectionWs_eq, Except.ok.injEq, Except.ok.injEq]
    constructor
    · intro heq
      obtain ⟨hlow, hhigh⟩ := Prod.mk.inj heq
      rw [← hlow, ← hhigh]
    · intro heq
      rw [heq]
  · intro hcalls
    refine hleaves.registers RegisterOffsets.id (by decide) fun howner => ?_
    obtain ⟨c, hc, hset⟩ := howner
    exact absurd hset (hcalls c hc)
  · exact hleaves.registers RegisterOffsets.version (by decide) fun _ => by decide
  · exact hleaves.registers RegisterOffsets.arbitration (by decide) fun _ => by decide

/-- **Any sequence of calls** whose asserts hold returns, and the table acts as an array. -/
theorem redirection_array {calls : List IoApicCall} (h : ∀ c ∈ calls, c.Accepted debug)
    (d : IoApic) :
    ∃ d', runCalls calls debug d = (.ok (), d') ∧ ActsAsArray debug d calls d' := by
  obtain ⟨d', hrun⟩ := runCalls_returns h d
  exact ⟨d', hrun, actsAsArray_of_runCalls hrun⟩

/-- Two entries and the owner are written, and one of them again. -/
theorem redirection_array_five :
    ∃ d', runCalls
        [.writeRedirection 2 { vector := 32 } { destination := 0 }, .setApicIdOfOwner 0 7,
          .writeRedirection 3 { vector := 33 } { destination := 1 }, .readRedirectionWs 2,
          .writeRedirection 2 { vector := 34, mask := 1 } { destination := 2 }]
        true ⟨0, fun _ => 0⟩ = (.ok (), d') ∧
      ActsAsArray true ⟨0, fun _ => 0⟩
        [.writeRedirection 2 { vector := 32 } { destination := 0 }, .setApicIdOfOwner 0 7,
          .writeRedirection 3 { vector := 33 } { destination := 1 }, .readRedirectionWs 2,
          .writeRedirection 2 { vector := 34, mask := 1 } { destination := 2 }] d' := by
  refine redirection_array (fun c hc => ?_) _
  simp only [List.mem_cons, List.not_mem_nil, or_false] at hc
  rcases hc with rfl | rfl | rfl | rfl | rfl <;> trivial

/-- **`init_io_apic`** returns, and writes the entries of timer, keyboard and mouse. -/
theorem initIoApic_leaves (debug : Bool) (d : IoApic) (padding : BitVec 4)
    (irqToGsi : UInt8 → UInt8) :
    ∃ d', initIoApic padding irqToGsi debug d = (.ok (), d') ∧
      Leaves d [(irqToGsi 0, initEntry padding 32), (irqToGsi 1, initEntry padding 33),
        (irqToGsi 12, initEntry padding 44)] True d' := by
  -- the owner is read, and set where it is another one
  have howner : ∃ d₁, Leaves d [] True d₁ ∧ initIoApic padding irqToGsi debug d =
      (.ok (), ((d₁.afterWrite (irqToGsi 0) (initEntry padding 32)).afterWrite (irqToGsi 1)
        (initEntry padding 33)).afterWrite (irqToGsi 12) (initEntry padding 44)) := by
    have hread : getApicIdOfOwner debug d =
        (.ok (IoApicId.layout.ofRaw (d.registers RegisterOffsets.id)).apicId,
          { d with registerSelect := RegisterOffsets.id }) := rfl
    by_cases h : (IoApicId.layout.ofRaw (d.registers RegisterOffsets.id)).apicId ≠ bspApicId
    · refine ⟨{ d.afterOwner padding 0 with registerSelect := RegisterOffsets.version },
        (leaves_setApicIdOfOwner padding 0).trans (leaves_select _), ?_⟩
      rw [initIoApic, bind_of_ok hread]
      dsimp only
      rw [if_pos h]
      cases debug <;> rfl
    · refine ⟨{ d with registerSelect := RegisterOffsets.version }, leaves_select _, ?_⟩
      rw [initIoApic, bind_of_ok hread]
      dsimp only
      rw [if_neg h]
      rfl
  obtain ⟨d₁, hd₁, hrun⟩ := howner
  refine ⟨_, hrun, ?_⟩
  exact ((hd₁.trans (leaves_writeRedirection _ _)).trans (leaves_writeRedirection _ _)).trans
    (leaves_writeRedirection _ _)

end Calls

end MapleKernel.Cpu
