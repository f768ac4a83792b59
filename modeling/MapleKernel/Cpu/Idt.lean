/-
  File:      Cpu/Idt.lean
  Subject:   THE INTERRUPT DESCRIPTOR TABLE IN MEMORY (`idt.c`, `idt_pit.c`): 256 words of 64 bits,
             and what the processor reads from one.

  The table of Drivers/Ps2.lean has a routine and a flag for each vector. Here an entry is the word
  in memory, with the address of the routine in two halves around the gate's attributes.

  * `Idt32Entry` -- the structure of bit fields;
  * `idtSetDescriptor`, `idtInit`, `enableIdtEntry`, ... -- the functions of `idt.c` on the words,
    with their checks;
  * `readGate`, `takeInterrupt` -- the processor's reading of a word, and the exceptions it raises
    where it finds no gate or one that is not present;
  * `Holds` -- the words are those of a table; `holds_idtInit`, `holds_setDescriptor`, ... say that
    each function does to the words what the one of the same name does to the table.
-/
import MapleKernel.Lib.BitStruct
import MapleKernel.Drivers.Ps2Keyboard

namespace MapleKernel.Cpu

open BitStructs Program
open Drivers (Isr isrStubTable isrStubTable_ne_none IdtEntry IdtInitPs2Fields World Ps2Env
  interruptVectorOfPort keyboardInterruptHandlers mouseInterruptHandlers ps2Port1InteruptVector
  ps2Port2InteruptVector)

/-! ## 1. The words -/

/-- `struct idt32_entry`; its selector is a structure of three fields. -/
structure Idt32Entry where
  isrOffsetLow : BitVec 16
  rpl : BitVec 2
  ti : BitVec 1
  index : BitVec 13
  reserved : BitVec 8
  gateType : BitVec 4
  bit44IsZero : BitVec 1
  dpl : BitVec 2
  present : BitVec 1
  isrOffsetHigh : BitVec 16
  deriving DecidableEq, Repr

def Idt32Entry.layout : Layout 64 Idt32Entry where
  widths := [16, 2, 1, 13, 8, 4, 1, 2, 1, 16]
  width_eq := rfl
  members :=
    { toFun := fun d => (d.isrOffsetLow, d.rpl, d.ti, d.index, d.reserved, d.gateType,
        d.bit44IsZero, d.dpl, d.present, d.isrOffsetHigh, ())
      invFun := fun f => ⟨f.1, f.2.1, f.2.2.1, f.2.2.2.1, f.2.2.2.2.1, f.2.2.2.2.2.1,
        f.2.2.2.2.2.2.1, f.2.2.2.2.2.2.2.1, f.2.2.2.2.2.2.2.2.1, f.2.2.2.2.2.2.2.2.2.1⟩
      left_inv := fun _ => rfl
      right_inv := fun _ => rfl }

/-- The values of `enum gate_type32_t`. -/
def gt32TaskGate : UInt32 := 0x5
def gt32Ig16 : UInt32 := 0x6
def gt32Tg16 : UInt32 := 0x7
def gt32Ig32 : UInt32 := 0xE
def gt32Tg32 : UInt32 := 0xF

def isValidGateType32 (gt : UInt32) : Bool :=
  gt ∈ [gt32TaskGate, gt32Ig16, gt32Tg16, gt32Ig32, gt32Tg32]

/-- The entry that `idt_set_descriptor` leaves: it assigns every field. -/
def Idt32Entry.assigned (isr gateType : UInt32) (dpl : UInt8) (present : Bool) : Idt32Entry where
  isrOffsetLow := (isr &&& 0xFFFF).toBitVec.setWidth 16
  isrOffsetHigh := (isr >>> 16).toBitVec.setWidth 16
  rpl := 0
  ti := 0
  index := 2
  dpl := dpl.toBitVec.setWidth 2
  present := BitVec.ofBool present
  gateType := gateType.toBitVec.setWidth 4
  reserved := 0
  bit44IsZero := 0

/-! ## 2. The functions -/

/-- The globals of `idt.c`. -/
structure IdtState where
  idt : UInt8 → BitVec 64
  limit : UInt16
  vectors : UInt8 → Bool

/-- The build flag `DEBUG`, and where the linker put the routines; that of `behindStubTable` is the
    word behind `isr_stub_table`. -/
structure IdtEnv where
  debug : Bool
  address : Isr → UInt32

inductive IdtHalt where
  | gateTypeIsNotValid | entryOutOfRange | entryNeverEnabled
  | mousePortOutOfRange | keyboardPortOutOfRange | oneDevicePerPort
  deriving DecidableEq, Repr

abbrev IdtProg := Prog IdtEnv IdtState IdtHalt

def idtSetDescriptor (vector : UInt8) (isr gateType : UInt32) (dpl : UInt8) (present : Bool) :
    IdtProg Unit := do
  Prog.assert (isValidGateType32 gateType) .gateTypeIsNotValid
  Prog.modify fun s =>
    { s with
      idt := Function.update s.idt vector
        (Idt32Entry.layout.raw (.assigned isr gateType dpl present)) }

/-- `vectors[vector] = true`. -/
def setVector (vector : UInt8) : IdtProg Unit :=
  Prog.modify fun s => { s with vectors := Function.update s.vectors vector true }

/-- A present interrupt gate of the kernel. -/
def setGate (vector : UInt8) (isr : Isr) : IdtProg Unit := do
  let e ← Prog.ask
  idtSetDescriptor vector (e.address isr) gt32Ig32 0 true

/-- The two statements that `idt_init` repeats. -/
def install (vector : UInt8) (isr : Isr) : IdtProg Unit := do
  setGate vector isr
  setVector vector

/-- `for (uint8_t vector = i; ...; vector++)`, `k` times. -/
def forVectors (body : UInt8 → IdtProg Unit) (i : UInt8) : Nat → IdtProg Unit
  | 0 => pure ()
  | k + 1 => do
      body i
      forVectors body (i + 1) k

def idtInit : IdtProg Unit := do
  let e ← Prog.ask
  Prog.modify fun s => { s with limit := 8 * 256 - 1 }
  forVectors (fun v => if e.debug ∧ v = 3 then pure () else install v (isrStubTable v)) 0 32
  forVectors (fun v => if v ≠ 34 then install v (isrStubTable v) else pure ()) 32 18
  install 5 (.interruptHandler 5)
  install 8 (.interruptHandler 8)
  install 11 (.interruptHandler 11)
  install 13 (.interruptHandler 13)
  install 56 (.interruptHandler 56)
  install 57 (.interruptHandler 57)
  setGate 58 .apicWait
  setVector 57

/-- `get_idt_entry`, up to the check of the index. -/
def getIdtEntry (entryIndex : UInt8) : IdtProg (BitVec 64) := do
  let s ← Prog.get
  Prog.assert (entryIndex ≤ (s.limit / 8).toUInt8) .entryOutOfRange
  return s.idt entryIndex

def setEntryPresent (entryIndex : UInt8) (present : Bool) : IdtProg Unit := do
  let entry ← getIdtEntry entryIndex
  Prog.modify fun s =>
    { s with
      idt := Function.update s.idt entryIndex (Idt32Entry.layout.raw
        { Idt32Entry.layout.ofRaw entry with present := BitVec.ofBool present }) }

def enableIdtEntry (entryIndex : UInt8) : IdtProg Unit := do
  let s ← Prog.get
  Prog.assert (s.vectors entryIndex) .entryNeverEnabled
  setEntryPresent entryIndex true

def disableIdtEntry (entryIndex : UInt8) : IdtProg Unit := setEntryPresent entryIndex false

/-- `idt_init_ps2`. -/
def idtInitPs2 (args : IdtInitPs2Fields) : IdtProg Unit :=
  match args with
  | .oneKeyboardOneMouse keyboardPort mousePort => do
      Prog.assert (mousePort = 1 ∨ mousePort = 2) .mousePortOutOfRange
      Prog.assert (keyboardPort = 1 ∨ keyboardPort = 2) .keyboardPortOutOfRange
      Prog.assert (keyboardPort ≠ mousePort) .oneDevicePerPort
      setGate (interruptVectorOfPort keyboardPort) (keyboardInterruptHandlers keyboardPort)
      setVector (interruptVectorOfPort keyboardPort)
      setGate (interruptVectorOfPort mousePort) (mouseInterruptHandlers mousePort)
      setVector (interruptVectorOfPort mousePort)
  | .twoKeyboard => do
      setGate ps2Port1InteruptVector .keyboardPort1
      setVector ps2Port1InteruptVector
      setGate ps2Port2InteruptVector .keyboardPort2
      setVector ps2Port2InteruptVector
  | .twoMouse => do
      setGate ps2Port1InteruptVector .mousePort1
      setGate ps2Port2InteruptVector .mousePort2
      setVector ps2Port1InteruptVector
      setVector ps2Port2InteruptVector
  | .oneKeyboard => setGate ps2Port1InteruptVector .keyboardPort1
  | .oneMouse => setGate ps2Port1InteruptVector .mousePort1
  | .noPs2Device => pure ()

def idtInitPit : IdtProg Unit := setGate Drivers.pitInteruptVector .pit

/-! ## 3. The processor's reading -/

/-- What an interrupt through a word does: the segment and the address of the routine, and whether
    interrupts are off in it. -/
structure Gate where
  selector : BitVec 16
  offset : BitVec 32
  interruptsOff : Bool
  deriving DecidableEq, Repr

/-- What the processor makes of a word: a gate of 32 bits that it goes through, a gate of another
    kind, or an exception. -/
inductive GateRead where
  | opens (g : Gate)
  | otherKind
  | raises (exception : UInt8)
  deriving DecidableEq, Repr

/-- The type of a gate is checked before its flag: without a gate the exception is #GP, and #NP for
    one that is not present. -/
def readGate (x : BitVec 64) : GateRead :=
  let d := Idt32Entry.layout.ofRaw x
  if d.bit44IsZero ≠ 0 ∨ d.gateType ∉ [0x5#4, 0x6#4, 0x7#4, 0xE#4, 0xF#4] then .raises 13
  else if d.present = 0 then .raises 11
  else if d.gateType = 0xE ∨ d.gateType = 0xF then
    .opens ⟨d.index ++ d.ti ++ d.rpl, d.isrOffsetHigh ++ d.isrOffsetLow, d.gateType = 0xE⟩
  else .otherKind

/-- The processor takes an interrupt: the vectors it tries, and what it makes of the last one. The
    exception of a gate goes through the gate of its own; a second exception becomes the double
    fault, and after a third one the processor shuts down. -/
def takeInterrupt (idt : UInt8 → BitVec 64) (vector : UInt8) : List UInt8 × GateRead :=
  match readGate (idt vector) with
  | .raises fault =>
      match readGate (idt fault) with
      | .raises _ => ([vector, fault, 8], readGate (idt 8))
      | g => ([vector, fault], g)
  | g => ([vector], g)

/-- The way into a routine: the kernel's code segment, with interrupts off. -/
def kernelGate (address : Isr → UInt32) (isr : Isr) : Gate := ⟨0x10, (address isr).toBitVec, true⟩

theorem takeInterrupt_of_opens {idt : UInt8 → BitVec 64} {vector : UInt8} {g : Gate}
    (h : readGate (idt vector) = .opens g) : takeInterrupt idt vector = ([vector], .opens g) := by
  rw [takeInterrupt, h]

theorem takeInterrupt_of_raises {idt : UInt8 → BitVec 64} {vector fault : UInt8} {g : Gate}
    (h : readGate (idt vector) = .raises fault) (hfault : readGate (idt fault) = .opens g) :
    takeInterrupt idt vector = ([vector, fault], .opens g) := by
  rw [takeInterrupt, h]
  dsimp only
  rw [hfault]

/-- The fields of a word that was never written. -/
def Idt32Entry.zero : Idt32Entry := ⟨0, 0, 0, 0, 0, 0, 0, 0, 0, 0⟩

/-- The word of an entry of the table; where no routine was set, only the flag can be. -/
def encode (address : Isr → UInt32) (e : IdtEntry) : BitVec 64 :=
  Idt32Entry.layout.raw
    { if e.isr = .none then Idt32Entry.zero else .assigned (address e.isr) gt32Ig32 0 true with
      present := BitVec.ofBool e.present }

/-- The two halves of an address. -/
theorem halves (a : UInt32) :
    (a >>> 16).toBitVec.setWidth 16 ++ (a &&& 0xFFFF).toBitVec.setWidth 16 = a.toBitVec := by
  have hlt := a.toNat_lt
  have hlow : (a &&& 0xFFFF).toBitVec.setWidth 16 = a.toBitVec.setWidth 16 := by
    refine BitVec.eq_of_toNat_eq ?_
    have hmask : a.toNat &&& 0xFFFF = a.toNat % 2 ^ 16 := Nat.and_two_pow_sub_one_eq_mod a.toNat 16
    show (a.toNat &&& 0xFFFF) % 2 ^ 16 = a.toNat % 2 ^ 16
    rw [hmask, Nat.mod_mod]
  have hhigh : (a >>> 16).toBitVec.setWidth 16 = a.toBitVec.extractLsb' 16 16 := by
    refine BitVec.eq_of_toNat_eq ?_
    rw [BitVec.extractLsb'_toNat, BitVec.toNat_setWidth]
    rfl
  rw [hlow, hhigh]
  exact extract_append_setWidth (m := 16) (n := 16) a.toBitVec

theorem readGate_assigned (isr : UInt32) (present : Bool) :
    readGate (Idt32Entry.layout.raw (.assigned isr gt32Ig32 0 present)) =
      if present then .opens ⟨0x10, isr.toBitVec, true⟩ else .raises 11 := by
  have htype : gt32Ig32.toBitVec.setWidth 4 = 0xE#4 := by decide
  have hselector : 2#13 ++ 0#1 ++ 0#2 = 0x10#16 := by decide
  have hgate : ¬ ((0#1 : BitVec 1) ≠ 0 ∨
      gt32Ig32.toBitVec.setWidth 4 ∉ [0x5#4, 0x6#4, 0x7#4, 0xE#4, 0xF#4]) := by decide
  rw [readGate, Layout.ofRaw_raw]
  refine (if_neg hgate).trans ?_
  cases present with
  | true =>
      have hread : (⟨2#13 ++ 0#1 ++ 0#2,
          (isr >>> 16).toBitVec.setWidth 16 ++ (isr &&& 0xFFFF).toBitVec.setWidth 16,
          gt32Ig32.toBitVec.setWidth 4 = 0xE#4⟩ : Gate) = ⟨0x10, isr.toBitVec, true⟩ := by
        rw [hselector, halves, htype]
        rfl
      have hpresent : ¬ (BitVec.ofBool true = 0) := by decide
      rw [if_pos rfl, ← hread]
      exact (if_neg hpresent).trans (if_pos (Or.inl htype))
  | false => exact if_pos rfl

/-- **What the processor makes of an entry**: it goes into the routine, if the entry is present. -/
theorem readGate_encode (address : Isr → UInt32) (e : IdtEntry) :
    readGate (encode address e) =
      if e.isr = .none then .raises 13
      else if e.present then .opens (kernelGate address e.isr)
      else .raises 11 := by
  rw [encode]
  by_cases hnone : e.isr = .none
  · have hno : (0#4 : BitVec 4) ∉ [0x5#4, 0x6#4, 0x7#4, 0xE#4, 0xF#4] := by decide
    rw [if_pos hnone, if_pos hnone, readGate, Layout.ofRaw_raw]
    exact if_pos (Or.inr hno)
  · have hassigned : { Idt32Entry.assigned (address e.isr) gt32Ig32 0 true with
        present := BitVec.ofBool e.present } =
          Idt32Entry.assigned (address e.isr) gt32Ig32 0 e.present := rfl
    rw [if_neg hnone, if_neg hnone, hassigned, readGate_assigned]
    rfl

/-! ## 4. The words of a table -/

/-- The words in memory are those of the table. -/
structure Encodes (address : Isr → UInt32) (s : IdtState) (idt : UInt8 → IdtEntry)
    (marked : UInt8 → Bool) : Prop where
  entries : ∀ v, s.idt v = encode address (idt v)
  vectors : s.vectors = marked

section Encodes

variable {e : IdtEnv} {s : IdtState} {idt : UInt8 → IdtEntry} {marked : UInt8 → Bool}
  {vector : UInt8} {isr : Isr} {E : IdtHalt → IdtState → Prop}

/-- One word is written, and one entry. -/
theorem Encodes.update (h : Encodes e.address s idt marked) {x : BitVec 64} {entry : IdtEntry}
    (hx : x = encode e.address entry) :
    Encodes e.address { s with idt := Function.update s.idt vector x }
      (Function.update idt vector entry) marked := by
  refine ⟨fun v => ?_, h.vectors⟩
  show Function.update s.idt vector x v = _
  rw [Function.update_apply, Function.update_apply]
  by_cases hvec : v = vector
  · rw [if_pos hvec, if_pos hvec, hx]
  · rw [if_neg hvec, if_neg hvec, h.entries]

theorem wp_setGate (hisr : isr ≠ .none) (h : Encodes e.address s idt marked) :
    wp (setGate vector isr) e s (fun _ s' => s'.limit = s.limit ∧
      Encodes e.address s' (Function.update idt vector ⟨isr, true⟩) marked) E := by
  have hvalid : isValidGateType32 gt32Ig32 = true := by decide
  simp only [setGate, idtSetDescriptor, wp_bind, wp_ask, wp_assert, hvalid, if_true, wp_modify]
  refine ⟨trivial, h.update ?_⟩
  rw [encode, if_neg hisr]
  rfl

theorem wp_setVector (h : Encodes e.address s idt marked) :
    wp (setVector vector) e s (fun _ s' => s'.limit = s.limit ∧
      Encodes e.address s' idt (Function.update marked vector true)) E := by
  refine ⟨rfl, h.entries, ?_⟩
  show Function.update s.vectors vector true = _
  rw [h.vectors]

theorem wp_install (hisr : isr ≠ .none) (h : Encodes e.address s idt marked) :
    wp (install vector isr) e s (fun _ s' => s'.limit = s.limit ∧
      Encodes e.address s' (Function.update idt vector ⟨isr, true⟩)
        (Function.update marked vector true)) E := by
  simp only [install, wp_bind]
  refine wp_mono (wp_setGate hisr h) (fun _ s₁ h₁ => ?_) fun _ _ hE => hE
  refine wp_mono (wp_setVector h₁.2) (fun _ s₂ h₂ => ?_) fun _ _ hE => hE
  exact ⟨h₂.1.trans h₁.1, h₂.2⟩

/-- A table after `k` rounds from `i`, where a round sets a chosen vector. -/
def overwritten {α : Type} (chosen : UInt8 → Bool) (i k : Nat) (f g : UInt8 → α) : UInt8 → α :=
  fun v => if i ≤ v.toNat ∧ v.toNat < i + k ∧ chosen v then f v else g v

theorem overwritten_zero {α : Type} (chosen : UInt8 → Bool) (i : Nat) (f g : UInt8 → α) :
    overwritten chosen i 0 f g = g := by
  funext v
  exact if_neg fun h => by omega

theorem overwritten_succ {α : Type} {chosen : UInt8 → Bool} {i k : Nat} (hik : i + (k + 1) ≤ 255)
    (f g : UInt8 → α) :
    overwritten chosen (i + 1) k f
        (if chosen (.ofNat i) then Function.update g (.ofNat i) (f (.ofNat i)) else g) =
      overwritten chosen i (k + 1) f g := by
  have hof : (UInt8.ofNat i).toNat = i := by
    rw [UInt8.toNat_ofNat']
    omega
  funext v
  rw [overwritten, overwritten]
  by_cases hv : v = .ofNat i
  · have hlater : ¬ (i + 1 ≤ v.toNat ∧ v.toNat < i + 1 + k ∧ chosen v = true) := by
      rw [hv, hof]
      omega
    rw [if_neg hlater, hv, hof]
    by_cases hc : chosen (.ofNat i) = true
    · rw [if_pos hc, Function.update_self, if_pos ⟨Nat.le_refl i, by omega, hc⟩]
    · rw [if_neg hc, if_neg fun h => hc h.2.2]
  · have hne : v.toNat ≠ i := fun hnat => hv (by rw [← hnat, UInt8.ofNat_toNat])
    have hiff : (i + 1 ≤ v.toNat ∧ v.toNat < i + 1 + k ∧ chosen v = true) ↔
        (i ≤ v.toNat ∧ v.toNat < i + (k + 1) ∧ chosen v = true) := by
      constructor
      · rintro ⟨hlo, hhi, hc⟩
        exact ⟨by omega, by omega, hc⟩
      · rintro ⟨hlo, hhi, hc⟩
        exact ⟨by omega, by omega, hc⟩
    have hold : (if chosen (.ofNat i) then Function.update g (.ofNat i) (f (.ofNat i)) else g) v =
        g v := by
      split
      · exact Function.update_of_ne hv _ _
      · rfl
    rw [hold]
    exact if_congr hiff rfl rfl

/-- A loop of `idt_init`. -/
theorem wp_forVectors {body : UInt8 → IdtProg Unit} {chosen : UInt8 → Bool}
    (hbody : ∀ v s, body v e s =
      if chosen v then install v (isrStubTable v) e s else (.ok (), s))
    {i k : Nat} (hik : i + k ≤ 255) (h : Encodes e.address s idt marked) :
    wp (forVectors body (.ofNat i) k) e s (fun _ s' => s'.limit = s.limit ∧
      Encodes e.address s' (overwritten chosen i k (fun v => ⟨isrStubTable v, true⟩) idt)
        (overwritten chosen i k (fun _ => true) marked)) E := by
  induction k generalizing i s idt marked with
  | zero =>
      rw [overwritten_zero, overwritten_zero]
      exact ⟨rfl, h⟩
  | succ k ih =>
      have hnext : UInt8.ofNat i + 1 = .ofNat (i + 1) := (UInt8.ofNat_add i 1).symm
      have hfirst : wp (body (.ofNat i)) e s (fun _ s' => s'.limit = s.limit ∧
          Encodes e.address s'
            (if chosen (.ofNat i) then Function.update idt (.ofNat i) ⟨isrStubTable (.ofNat i), true⟩
              else idt)
            (if chosen (.ofNat i) then Function.update marked (.ofNat i) true else marked)) E := by
        rw [wp, hbody]
        by_cases hc : chosen (.ofNat i) = true
        · rw [if_pos hc, if_pos hc, if_pos hc]
          exact wp_install (E := E) (isrStubTable_ne_none _) h
        · rw [if_neg hc, if_neg hc, if_neg hc]
          exact ⟨rfl, h⟩
      simp only [forVectors, wp_bind]
      refine wp_mono hfirst (fun _ s₁ h₁ => ?_) fun _ _ hE => hE
      rw [hnext]
      refine wp_mono (ih (by omega) h₁.2) (fun _ s₂ h₂ => ?_) fun _ _ hE => hE
      rw [overwritten_succ hik (fun v => IdtEntry.mk (isrStubTable v) true),
        overwritten_succ hik fun _ => true] at h₂
      exact ⟨h₂.1.trans h₁.1, h₂.2⟩

end Encodes

/-! ## 5. The functions on words and on the table -/

/-- Words and table after `idt_init`: every index passes the check of `get_idt_entry`. -/
structure Holds (address : Isr → UInt32) (s : IdtState) (w : World) : Prop where
  limit : s.limit = 2047
  encodes : Encodes address s w.idt w.vectors

section Functions

variable {e : IdtEnv} {pe : Ps2Env} {s : IdtState} {w : World} {vector : UInt8} {isr : Isr}
  {E : IdtHalt → IdtState → Prop}

/-- The world after `idt_set_descriptor` and after `vectors[vector] = true`. -/
def withGate (vector : UInt8) (isr : Isr) (w : World) : World :=
  { w with idt := Function.update w.idt vector ⟨isr, true⟩ }

def withMark (vector : UInt8) (w : World) : World :=
  { w with vectors := Function.update w.vectors vector true }

theorem holds_setGate (hisr : isr ≠ .none) (h : Holds e.address s w) :
    wp (setGate vector isr) e s (fun _ s' => Holds e.address s' (withGate vector isr w)) E :=
  wp_mono (wp_setGate hisr h.encodes) (fun _ _ h' => ⟨h'.1.trans h.limit, h'.2⟩) fun _ _ hE => hE

theorem holds_setVector (h : Holds e.address s w) :
    wp (setVector vector) e s (fun _ s' => Holds e.address s' (withMark vector w)) E :=
  wp_mono (wp_setVector h.encodes) (fun _ _ h' => ⟨h'.1.trans h.limit, h'.2⟩) fun _ _ hE => hE

theorem holds_install (hisr : isr ≠ .none) (h : Holds e.address s w) :
    wp (install vector isr) e s
      (fun _ s' => Holds e.address s' (withMark vector (withGate vector isr w))) E := by
  simp only [install, wp_bind]
  refine wp_mono (holds_setGate hisr h) (fun _ s₁ h₁ => ?_) fun _ _ hE => hE
  exact holds_setVector h₁

/-- The vectors of the two loops. -/
theorem loops_eq {α : Type} (debug : Bool) (f g : UInt8 → α) :
    overwritten (fun v => v ≠ 34) 32 18 f (overwritten (fun v => !(debug && v = 3)) 0 32 f g) =
      fun v => if Drivers.idtInitLoops debug v then f v else g v := by
  funext v
  have hlt : v < 50 ↔ v.toNat < 50 := UInt8.lt_iff_toNat_lt
  have h34 : v = 34 ↔ v.toNat = 34 := UInt8.toNat_inj.symm
  have h3 : v = 3 ↔ v.toNat = 3 := UInt8.toNat_inj.symm
  have hboth : (Drivers.idtInitLoops debug v = true) ↔
      (v.toNat < 50 ∧ v.toNat ≠ 34) ∧ ¬ (debug = true ∧ v.toNat = 3) := by
    cases debug <;> simp [Drivers.idtInitLoops, hlt, h34, h3]
  have hfirst : ((!(debug && v = 3)) = true) ↔ ¬ (debug = true ∧ v.toNat = 3) := by
    cases debug <;> simp [h3]
  have hsecond : (decide (v ≠ 34) = true) ↔ v.toNat ≠ 34 := by
    simp [h34]
  by_cases hlate : 32 ≤ v.toNat ∧ v.toNat < 50 ∧ v.toNat ≠ 34
  · have hloops : Drivers.idtInitLoops debug v = true :=
      hboth.mpr ⟨hlate.2, fun h => by omega⟩
    rw [overwritten, if_pos ⟨hlate.1, hlate.2.1, hsecond.mpr hlate.2.2⟩, if_pos hloops]
  · have hnot : ¬ (32 ≤ v.toNat ∧ v.toNat < 32 + 18 ∧ decide (v ≠ 34) = true) := by
      rw [hsecond]
      omega
    rw [overwritten, if_neg hnot, overwritten]
    by_cases hearly : v.toNat < 32 ∧ ¬ (debug = true ∧ v.toNat = 3)
    · have hloops : Drivers.idtInitLoops debug v = true :=
        hboth.mpr ⟨⟨by omega, by omega⟩, hearly.2⟩
      rw [if_pos ⟨Nat.zero_le _, by omega, hfirst.mpr hearly.2⟩, if_pos hloops]
    · have hloops : ¬ Drivers.idtInitLoops debug v = true := by
        rw [hboth]
        rintro ⟨hlt50, hnot3⟩
        exact hearly ⟨by omega, hnot3⟩
      have hskipped : ¬ (0 ≤ v.toNat ∧ v.toNat < 0 + 32 ∧ (!(debug && v = 3)) = true) := by
        rw [hfirst]
        rintro ⟨-, hlt32, hnot3⟩
        exact hearly ⟨by omega, hnot3⟩
      rw [if_neg hskipped, if_neg hloops]

/-- **`idt_init` on the words is `idt_init` on the table.** -/
theorem holds_idtInit (hdebug : e.debug = pe.debug) (h : Encodes e.address s w.idt w.vectors) :
    ∃ w', Drivers.idtInit pe w = (.ok (), w') ∧
      wp idtInit e s (fun _ s' => Holds e.address s' w') E := by
  obtain ⟨w₀, hw₀⟩ : ∃ w₀ : World, { w with
      idt := fun v => if Drivers.idtInitLoops pe.debug v then ⟨isrStubTable v, true⟩ else w.idt v
      vectors := fun v => Drivers.idtInitLoops pe.debug v || w.vectors v } = w₀ := ⟨_, rfl⟩
  have hinit : Drivers.idtInit pe w = (.ok (), withMark 57 (withGate 58 .apicWait
      (withMark 57 (withGate 57 (.interruptHandler 57) (withMark 56 (withGate 56
        (.interruptHandler 56) (withMark 13 (withGate 13 (.interruptHandler 13) (withMark 11
          (withGate 11 (.interruptHandler 11) (withMark 8 (withGate 8 (.interruptHandler 8)
            (withMark 5 (withGate 5 (.interruptHandler 5) w₀)))))))))))))) := by
    rw [← hw₀]
    rfl
  refine ⟨_, hinit, ?_⟩
  have hlimit : Encodes e.address { s with limit := 8 * 256 - 1 } w.idt w.vectors :=
    ⟨h.entries, h.vectors⟩
  have hbody₁ : ∀ v s, (if e.debug ∧ v = 3 then pure () else install v (isrStubTable v) :
      IdtProg Unit) e s =
        if !(e.debug && v = 3) then install v (isrStubTable v) e s else (.ok (), s) := by
    intro v s
    by_cases hskip : e.debug = true ∧ v = 3
    · rw [if_pos hskip]
      simp [hskip]
      rfl
    · rw [if_neg hskip]
      simp [hskip]
  have hbody₂ : ∀ v s, (if v ≠ 34 then install v (isrStubTable v) else pure () : IdtProg Unit) e s =
      if decide (v ≠ 34) then install v (isrStubTable v) e s else (.ok (), s) := by
    intro v s
    by_cases hskip : v ≠ 34
    · rw [if_pos hskip, decide_eq_true hskip, if_pos rfl]
    · rw [if_neg hskip, decide_eq_false hskip, if_neg (by decide)]
      rfl
  simp only [idtInit, wp_bind, wp_ask, wp_modify]
  refine wp_mono (wp_forVectors (i := 0) hbody₁ (by omega) hlimit) (fun _ s₁ h₁ => ?_)
    fun _ _ hE => hE
  refine wp_mono (wp_forVectors (i := 32) hbody₂ (by omega) h₁.2) (fun _ s₂ h₂ => ?_)
    fun _ _ hE => hE
  -- the loops are the first statement of the other `idt_init`
  have hloops : Holds e.address s₂ w₀ := by
    have hencodes := h₂.2
    rw [loops_eq, loops_eq, hdebug] at hencodes
    rw [← hw₀]
    refine ⟨h₂.1.trans h₁.1, hencodes.entries, ?_⟩
    rw [hencodes.vectors]
    funext v
    show (if Drivers.idtInitLoops pe.debug v then true else w.vectors v) =
      (Drivers.idtInitLoops pe.debug v || w.vectors v)
    cases Drivers.idtInitLoops pe.debug v <;> rfl
  refine wp_mono (holds_install (by simp) hloops) (fun _ _ h => ?_) fun _ _ hE => hE
  refine wp_mono (holds_install (by simp) h) (fun _ _ h => ?_) fun _ _ hE => hE
  refine wp_mono (holds_install (by simp) h) (fun _ _ h => ?_) fun _ _ hE => hE
  refine wp_mono (holds_install (by simp) h) (fun _ _ h => ?_) fun _ _ hE => hE
  refine wp_mono (holds_install (by simp) h) (fun _ _ h => ?_) fun _ _ hE => hE
  refine wp_mono (holds_install (by simp) h) (fun _ _ h => ?_) fun _ _ hE => hE
  refine wp_mono (holds_setGate (by simp) h) (fun _ _ h => ?_) fun _ _ hE => hE
  exact holds_setVector h

/-- **`p` does to the words what `q` does to the table**, and its checks fail where those of `q`
    do. -/
def Follows (e : IdtEnv) (pe : Ps2Env) (p : IdtProg Unit) (q : Drivers.Kernel Unit) : Prop :=
  ∀ s w, Holds e.address s w →
    wp q pe w (fun _ w' => wp p e s (fun _ s' => Holds e.address s' w') fun _ _ => False)
      (fun _ w' => wp p e s (fun _ _ => False) fun _ s' => Holds e.address s' w')

theorem follows_pure : Follows e pe (pure ()) (pure ()) := fun _ _ h => h

theorem follows_bind {p p' : IdtProg Unit} {q q' : Drivers.Kernel Unit} (h : Follows e pe p q)
    (h' : Follows e pe p' q') : Follows e pe (do p; p') (do q; q') := by
  intro s w hs
  rw [wp_bind]
  refine wp_mono (h s w hs) (fun _ w₁ h₁ => ?_) fun _ w₁ h₁ => ?_
  · obtain ⟨_, s₁, hp, hs₁⟩ := exists_ok_of_wp h₁
    refine wp_mono (h' s₁ w₁ hs₁) (fun _ w₂ h₂ => ?_) fun _ w₂ h₂ => ?_
    · rw [wp_bind, wp_of_ok hp]
      exact h₂
    · rw [wp_bind, wp_of_ok hp]
      exact h₂
  · rw [wp_bind]
    exact wp_mono h₁ (fun _ _ hf => hf.elim) fun _ _ hE => hE

theorem follows_assert (c : Bool) (h : IdtHalt) (h' : Drivers.Ps2Halt) :
    Follows e pe (Prog.assert c h) (Prog.assert c h') := by
  intro s w hs
  cases c
  · exact hs
  · exact hs

theorem follows_setGate (hisr : isr ≠ .none) :
    Follows e pe (setGate vector isr) (Drivers.idtSetDescriptor vector isr) :=
  fun _ _ h => holds_setGate (E := fun _ _ => False) hisr h

theorem follows_setVector : Follows e pe (setVector vector) (Drivers.setVector vector) :=
  fun _ _ h => holds_setVector (E := fun _ _ => False) h

/-- The flag of a word. -/
theorem holds_setPresent (h : Holds e.address s w) (present : Bool) :
    wp (setEntryPresent vector present) e s (fun _ s' => Holds e.address s'
      { w with idt := Function.update w.idt vector { w.idt vector with present } }) E := by
  have hmax : (2047 / 8 : UInt16).toUInt8 = 255 := by decide
  have hindex : vector ≤ (s.limit / 8).toUInt8 := by
    rw [h.limit, hmax, UInt8.le_iff_toNat_le]
    exact Nat.le_of_lt_succ vector.toNat_lt
  simp only [setEntryPresent, getIdtEntry, wp_bind, wp_get, wp_assert, hindex, decide_true, if_true,
    wp_pure, wp_modify]
  refine ⟨h.limit, h.encodes.update ?_⟩
  rw [h.encodes.entries, encode, Layout.ofRaw_raw, encode]

theorem follows_enableIdtEntry :
    Follows e pe (enableIdtEntry vector) (Drivers.enableIdtEntry vector) := by
  intro s w h
  have hmarked : s.vectors vector = w.vectors vector := congrFun h.encodes.vectors vector
  simp only [Drivers.enableIdtEntry, wp_bind, wp_get, wp_assert, enableIdtEntry, hmarked]
  cases w.vectors vector
  · exact h
  · exact holds_setPresent h true

theorem follows_disableIdtEntry :
    Follows e pe (disableIdtEntry vector) (Drivers.disableIdtEntry vector) :=
  fun _ _ h => holds_setPresent (E := fun _ _ => False) h false

theorem keyboardInterruptHandlers_ne_none (port : UInt8) :
    keyboardInterruptHandlers port ≠ .none := by
  unfold keyboardInterruptHandlers
  split
  · nofun
  · split
    · nofun
    · nofun

theorem mouseInterruptHandlers_ne_none (port : UInt8) : mouseInterruptHandlers port ≠ .none := by
  unfold mouseInterruptHandlers
  split
  · nofun
  · split
    · nofun
    · nofun

/-- **`idt_init_ps2`**, with its three checks. -/
theorem follows_idtInitPs2 (args : IdtInitPs2Fields) :
    Follows e pe (idtInitPs2 args) (Drivers.idtInitPs2 args) := by
  cases args with
  | oneKeyboardOneMouse keyboardPort mousePort =>
      refine follows_bind (follows_assert _ _ _) ?_
      refine follows_bind (follows_assert _ _ _) ?_
      refine follows_bind (follows_assert _ _ _) ?_
      refine follows_bind (follows_setGate (keyboardInterruptHandlers_ne_none _)) ?_
      refine follows_bind follows_setVector ?_
      refine follows_bind (follows_setGate (mouseInterruptHandlers_ne_none _)) ?_
      exact follows_setVector
  | twoKeyboard =>
      refine follows_bind (follows_setGate (by simp)) ?_
      refine follows_bind follows_setVector ?_
      exact follows_bind (follows_setGate (by simp)) follows_setVector
  | twoMouse =>
      refine follows_bind (follows_setGate (by simp)) ?_
      refine follows_bind (follows_setGate (by simp)) ?_
      exact follows_bind follows_setVector follows_setVector
  | oneKeyboard => exact follows_setGate (by simp)
  | oneMouse => exact follows_setGate (by simp)
  | noPs2Device => exact follows_pure

end Functions

end MapleKernel.Cpu
