/-
  File:      Cpu/Pic.lean
  Subject:   THE TWO INTERRUPT CONTROLLERS (`pic.c`): two chips of eight lines, the second one
             behind line 2 of the first.

  A chip takes four words after the first one that starts its initialisation; until then the data
  port is not its mask. Its request register holds the requests that came in and were not taken yet:
  what is masked or blocked waits there. Its in-service register holds the interrupts that were taken
  and not ended; it blocks every line of the same or a lower priority.

  * `Pic`, `Pics` -- the chips as their ports show them, the requests of the devices, and the
    acknowledge cycles of the processor;
  * `picRemap`, `irqSetMask`, `initializeIrqs`, ... -- the functions, as their port accesses;
  * `Lines` -- what they are for: masks by the line, two vector bases, the requests that wait, and
    the interrupts in service, the last one first;
  * `resolve_eq` -- the two chips find the line that `Lines` finds;
  * `pics_deliver` -- from any state of the chips with nothing in service, every sequence of calls,
    requests and acknowledges after a remap delivers what `Lines` delivers;
  * `withoutEoi_rising` -- as long as no interrupt is ended, each delivered one has a higher
    priority than the one before it: no line delivers twice.
-/
import MapleKernel.Lib.FirstFound
import MapleKernel.Lib.PackedBits
import MapleKernel.Lib.Run

namespace MapleKernel.Cpu

open FirstFound Loops Runs

/-! ## 1. The chips -/

/-- What the data port takes next. -/
inductive PicExpects where
  | mask | icw2 | icw3 | icw4
  deriving DecidableEq, Repr

/-- One chip; bit `k` of the registers `irr`, `imr` and `isr` is its line `k`. -/
structure Pic where
  expects : PicExpects
  icw1 : BitVec 8
  offset : UInt8
  icw3 : UInt8
  icw4 : UInt8
  irr : BitVec 8
  imr : BitVec 8
  isr : BitVec 8
  deriving DecidableEq, Repr

structure Pics where
  master : Pic
  slave : Pic
  deriving DecidableEq, Repr

def pic1Command : UInt16 := 0x20
def pic1Data : UInt16 := 0x21
def pic2Command : UInt16 := 0xA0
def pic2Data : UInt16 := 0xA1

/-- `PIC_EOI`. -/
def picEoi : UInt8 := 0x20

namespace Pic

/-- The line in service with the highest priority. -/
def inService (p : Pic) : Option Nat := (List.range 8).find? fun k => p.isr.getLsbD k

/-- The end of the interrupt with the highest priority. -/
def endOfInterrupt (p : Pic) : Pic :=
  match p.inService with
  | some k => { p with isr := p.isr &&& ~~~(1#8 <<< k) }
  | none => p

/-- A write to the command port: a word with bit 4 starts the initialisation, and the detection of
    edges with it; of the others only the unspecific end of interrupt is used. -/
def command (p : Pic) (v : UInt8) : Pic :=
  if v.toBitVec.getLsbD 4 then
    { p with
      expects := .icw2
      icw1 := v.toBitVec
      icw4 := if v.toBitVec.getLsbD 0 then p.icw4 else 0
      irr := 0
      imr := 0 }
  else if v = picEoi then p.endOfInterrupt
  else p

/-- What follows the third word: a fourth one, if the first one says so. -/
def afterIcw3 (p : Pic) : PicExpects := if p.icw1.getLsbD 0 then .icw4 else .mask

/-- A write to the data port. -/
def data (p : Pic) (v : UInt8) : Pic :=
  match p.expects with
  | .mask => { p with imr := v.toBitVec }
  | .icw2 =>
      { p with
        offset := v &&& 0xF8
        expects := if p.icw1.getLsbD 1 then p.afterIcw3 else .icw3 }
  | .icw3 => { p with icw3 := v, expects := p.afterIcw3 }
  | .icw4 => { p with icw4 := v, expects := .mask }

/-- A request comes in. -/
def latch (p : Pic) (line : Nat) : Pic := { p with irr := p.irr ||| (1#8 <<< line) }

/-- A request on a line is passed on: the chip is initialised, the line is not masked, and nothing
    of its priority or a higher one is in service. -/
def accepts (p : Pic) (line : Nat) : Bool :=
  p.expects = .mask && !p.imr.getLsbD line &&
    !(List.range (line + 1)).any fun k => p.isr.getLsbD k

/-- The line that the chip passes on, of those with a request: the one with the highest priority. -/
def resolve (p : Pic) (requests : BitVec 8) : Option Nat :=
  (List.range 8).find? fun k => requests.getLsbD k && p.accepts k

/-- The acknowledge cycle, in the mode where the program ends the interrupt. -/
def acknowledge (p : Pic) (line : Nat) : Pic :=
  { p with
    irr := p.irr &&& ~~~(1#8 <<< line)
    isr := p.isr ||| (1#8 <<< line) }

end Pic

namespace Pics

/-- Other ports belong to other devices. -/
def outb (port : UInt16) (v : UInt8) (s : Pics) : Pics :=
  if port = pic1Command then { s with master := s.master.command v }
  else if port = pic1Data then { s with master := s.master.data v }
  else if port = pic2Command then { s with slave := s.slave.command v }
  else if port = pic2Data then { s with slave := s.slave.data v }
  else s

/-- A read of a data port is the mask. -/
def inb (port : UInt16) (s : Pics) : UInt8 :=
  if port = pic1Data then ⟨s.master.imr⟩ else ⟨s.slave.imr⟩

/-- The second chip is wired to line 2, and both know it. -/
def cascaded (s : Pics) : Bool := s.master.icw3.toBitVec.getLsbD 2 && s.slave.icw3 = 2

/-- A device raises its line, and leaves it up until it is served. Line 2 is the second chip's. -/
def request (irq : UInt8) (s : Pics) : Pics :=
  if irq < 8 then
    if irq ≠ 2 then { s with master := s.master.latch irq.toNat } else s
  else if irq < 16 then { s with slave := s.slave.latch (irq.toNat - 8) }
  else s

/-- The line that the second chip passes on. -/
def slaveLine (s : Pics) : Option Nat := if s.cascaded then s.slave.resolve s.slave.irr else none

/-- The requests at the first chip; on line 2 it sees the output of the second one. -/
def masterRequests (s : Pics) : BitVec 8 :=
  if s.slaveLine.isSome then s.master.irr ||| (1#8 <<< 2) else s.master.irr

/-- The line that reaches the processor. -/
def resolve (s : Pics) : Option UInt8 :=
  (s.master.resolve s.masterRequests).bind fun k =>
    if k = 2 then s.slaveLine.map fun k => .ofNat (8 + k) else some (.ofNat k)

/-- The chips with an interrupt more in service. -/
def serve (s : Pics) (irq : UInt8) : Pics :=
  if irq < 8 then { s with master := s.master.acknowledge irq.toNat }
  else ⟨s.master.acknowledge 2, s.slave.acknowledge (irq.toNat - 8)⟩

/-- The vector that a line has. -/
def vector (s : Pics) (irq : UInt8) : UInt8 :=
  if irq < 8 then s.master.offset + irq else s.slave.offset + (irq - 8)

/-- The processor takes an interrupt, if there is one: the line and the vector. -/
def acknowledge (s : Pics) : Option (UInt8 × UInt8) × Pics :=
  match s.resolve with
  | some irq => (some (irq, s.vector irq), s.serve irq)
  | none => (none, s)

end Pics

/-! ## 2. The functions -/

def ioWait (s : Pics) : Pics := s.outb 0x80 0

def picRemap (offset1 offset2 : Int) (s : Pics) : Pics :=
  let s := ioWait (s.outb pic1Command (0x10 ||| 0x01))
  let s := ioWait (s.outb pic2Command (0x10 ||| 0x01))
  let s := ioWait (s.outb pic1Data (.ofInt offset1))
  let s := ioWait (s.outb pic2Data (.ofInt offset2))
  let s := ioWait (s.outb pic1Data ((1 : UInt8) <<< 2))
  let s := ioWait (s.outb pic2Data 2)
  let s := ioWait (s.outb pic1Data 0x01)
  let s := ioWait (s.outb pic2Data 0x01)
  let s := s.outb pic1Data 0
  s.outb pic2Data 0

def picSendEoi (irq : UInt8) (s : Pics) : Pics :=
  let s := if 8 ≤ irq then s.outb pic2Command picEoi else s
  s.outb pic1Command picEoi

/-- Port and bit of a line. The shift is defined for the lines of the chips. -/
def portAndBit (irqLine : UInt8) : UInt16 × UInt8 :=
  if irqLine < 8 then (pic1Data, ⟨(1#32 <<< irqLine.toNat).setWidth 8⟩)
  else (pic2Data, ⟨(1#32 <<< (irqLine - 8).toNat).setWidth 8⟩)

def irqSetMask (irqLine : UInt8) (s : Pics) : Pics :=
  let pb := portAndBit irqLine
  s.outb pb.1 (s.inb pb.1 ||| pb.2)

def irqClearMask (irqLine : UInt8) (s : Pics) : Pics :=
  let pb := portAndBit irqLine
  s.outb pb.1 (s.inb pb.1 &&& ~~~pb.2)

def disablePic (s : Pics) : Pics :=
  let s := irqSetMask 0 s
  let s := s.outb pic1Data 0xff
  ioWait (s.outb pic2Data 0xff)

def initializeIrqs (s : Pics) : Pics := forRange 16 (fun i => irqSetMask (.ofNat i)) s

/-! ## 3. What the chips are for -/

/-- The line of the first chip on which a request comes in; the lower ones have priority. -/
def masterLine (irq : UInt8) : Nat := if irq < 8 then irq.toNat else 2

/-- The lines of devices, the one with the highest priority first. -/
def priorities : List UInt8 := [0, 1, 8, 9, 10, 11, 12, 13, 14, 15, 3, 4, 5, 6, 7]

/-- The lines of both chips. `pending` are the requests that wait, and `delivered` those that reached
    the processor, with their vectors. -/
structure Lines where
  offset1 : UInt8
  offset2 : UInt8
  mask : UInt8 → Bool
  pending : UInt8 → Bool
  serving : List UInt8
  delivered : List (UInt8 × UInt8)

namespace Lines

def vector (t : Lines) (irq : UInt8) : UInt8 :=
  if irq < 8 then t.offset1 + irq else t.offset2 + (irq - 8)

/-- A line of the second chip needs line 2 as well. -/
def enabled (t : Lines) (irq : UInt8) : Bool :=
  irq < 16 && irq ≠ 2 && !t.mask irq && (irq < 8 || !t.mask 2)

/-- A request waits, and nothing holds it up. -/
def accepts (t : Lines) (irq : UInt8) : Bool :=
  t.pending irq && t.enabled irq && t.serving.all fun i => masterLine irq < masterLine i

def request (t : Lines) (irq : UInt8) : Lines :=
  if irq < 16 ∧ irq ≠ 2 then { t with pending := Function.update t.pending irq true } else t

/-- The line that is next. -/
def next (t : Lines) : Option UInt8 := priorities.find? t.accepts

def acknowledge (t : Lines) : Lines :=
  match t.next with
  | some irq =>
      { t with
        pending := Function.update t.pending irq false
        serving := irq :: t.serving
        delivered := t.delivered ++ [(irq, t.vector irq)] }
  | none => t

end Lines

/-- A request of a device, an acknowledge of the processor, or a call. -/
inductive PicEvent where
  | request (irq : UInt8)
  | acknowledge
  | remap (offset1 offset2 : Int)
  | sendEoi (irq : UInt8)
  | setMask (irqLine : UInt8)
  | clearMask (irqLine : UInt8)
  | initializeIrqs
  | disablePic
  deriving DecidableEq, Repr

/-- The chips, with the requests that reached the processor. -/
def Pics.step (c : Pics × List (UInt8 × UInt8)) : PicEvent → Pics × List (UInt8 × UInt8)
  | .request irq => (c.1.request irq, c.2)
  | .acknowledge => (c.1.acknowledge.2, c.2 ++ c.1.acknowledge.1.toList)
  | .remap offset1 offset2 => (picRemap offset1 offset2 c.1, c.2)
  | .sendEoi irq => (picSendEoi irq c.1, c.2)
  | .setMask irqLine => (irqSetMask irqLine c.1, c.2)
  | .clearMask irqLine => (irqClearMask irqLine c.1, c.2)
  | .initializeIrqs => (Cpu.initializeIrqs c.1, c.2)
  | .disablePic => (Cpu.disablePic c.1, c.2)

/-- The base of eight vectors: the low three bits are the line. -/
def vectorBase (offset : Int) : UInt8 := UInt8.ofInt offset &&& 0xF8

def Lines.step (t : Lines) : PicEvent → Lines
  | .request irq => t.request irq
  | .acknowledge => t.acknowledge
  | .remap offset1 offset2 =>
      { t with
        offset1 := vectorBase offset1
        offset2 := vectorBase offset2
        mask := fun _ => false
        pending := fun _ => false }
  | .sendEoi _ => { t with serving := t.serving.tail }
  | .setMask irqLine => { t with mask := Function.update t.mask irqLine true }
  | .clearMask irqLine => { t with mask := Function.update t.mask irqLine false }
  | .initializeIrqs | .disablePic => { t with mask := fun irq => irq < 16 || t.mask irq }

/-- The discipline of the callers: lines of the chips only, an interrupt is ended by its own line
    while it is the last one in service, and no remap while one is. -/
def Lines.Allowed (t : Lines) : PicEvent → Prop
  | .remap _ _ => t.serving = []
  | .sendEoi irq => t.serving.head? = some irq
  | .setMask irqLine | .clearMask irqLine => irqLine < 16
  | _ => True

instance (t : Lines) (e : PicEvent) : Decidable (t.Allowed e) := by
  unfold Lines.Allowed
  split <;> infer_instance

/-- After `PIC_remap`, no request and nothing in service. -/
def Lines.remapped (offset1 offset2 : Int) : Lines :=
  ⟨vectorBase offset1, vectorBase offset2, fun _ => false, fun _ => false, [], []⟩

/-! ## 4. The chips represent the lines -/

/-- Both mask registers. -/
def Pics.imrs (s : Pics) : PackedBits.Bytes := fun k => if k = 0 then s.master.imr else s.slave.imr

def Pics.withImrs (s : Pics) (b : PackedBits.Bytes) : Pics :=
  ⟨{ s.master with imr := b 0 }, { s.slave with imr := b 1 }⟩

/-- Both request registers. -/
def Pics.irrs (s : Pics) : PackedBits.Bytes := fun k => if k = 0 then s.master.irr else s.slave.irr

def Pics.withIrrs (s : Pics) (b : PackedBits.Bytes) : Pics :=
  ⟨{ s.master with irr := b 0 }, { s.slave with irr := b 1 }⟩

structure Represents (c : Pics × List (UInt8 × UInt8)) (t : Lines) : Prop where
  masterReady : c.1.master.expects = .mask
  slaveReady : c.1.slave.expects = .mask
  masterOffset : c.1.master.offset = t.offset1
  slaveOffset : c.1.slave.offset = t.offset2
  cascaded : c.1.cascaded = true
  mask : ∀ irq < 16, PackedBits.test c.1.imrs irq.toNat = t.mask irq
  pending : ∀ irq < 16, PackedBits.test c.1.irrs irq.toNat = t.pending irq
  /-- The second chip has no request of its own at the first one. -/
  noBridge : t.pending 2 = false
  masterIsr : ∀ k, c.1.master.isr.getLsbD k = true ↔ ∃ i ∈ t.serving, masterLine i = k
  slaveIsr : ∀ k, c.1.slave.isr.getLsbD k = true ↔ ∃ i ∈ t.serving, 8 ≤ i ∧ i.toNat - 8 = k
  lines : ∀ i ∈ t.serving, i < 16
  rising : t.serving.Pairwise fun i j => masterLine i < masterLine j
  delivered : c.2 = t.delivered

section Masks

variable {s : Pics} {irq : UInt8}

theorem lt_iff_toNat {a b : UInt8} : a < b ↔ a.toNat < b.toNat := UInt8.lt_iff_toNat_lt

/-- The bit of a line, in its byte. -/
theorem bit_eq {n : Nat} (hn : n < 8) : (1#32 <<< n).setWidth 8 = 1#8 <<< n := by
  interval_cases n <;> rfl

theorem toNat_sub_eight (h : ¬ irq < 8) : (irq - 8).toNat = irq.toNat - 8 := by
  have hle : (8 : UInt8) ≤ irq := UInt8.not_lt.mp h
  rw [UInt8.toNat_sub_of_le irq 8 hle]
  rfl

/-- A line in the bytes of both chips. -/
theorem test_master (b : PackedBits.Bytes) (h : irq < 8) :
    PackedBits.test b irq.toNat = (b 0).getLsbD irq.toNat := by
  have hlt : irq.toNat < 8 := lt_iff_toNat.mp h
  have hdiv : irq.toNat / 8 = 0 := by omega
  have hmod : irq.toNat % 8 = irq.toNat := by omega
  rw [PackedBits.test_eq_getLsbD, hdiv, hmod]

theorem test_slave (b : PackedBits.Bytes) (hge : ¬ irq < 8) (h : irq < 16) :
    PackedBits.test b irq.toNat = (b 1).getLsbD (irq.toNat - 8) := by
  have hlt : irq.toNat < 16 := lt_iff_toNat.mp h
  have hnot : ¬ irq.toNat < 8 := fun hn => hge (lt_iff_toNat.mpr hn)
  have hdiv : irq.toNat / 8 = 1 := by omega
  have hmod : irq.toNat % 8 = irq.toNat - 8 := by omega
  rw [PackedBits.test_eq_getLsbD, hdiv, hmod]

/-- The data port writes the mask once the chip is initialised. -/
theorem data_of_ready {p : Pic} (h : p.expects = .mask) (v : UInt8) :
    p.data v = { p with imr := v.toBitVec } := by
  cases p
  cases h
  rfl

theorem outb_pic1Data (h : s.master.expects = .mask) (v : UInt8) :
    s.outb pic1Data v = { s with master := { s.master with imr := v.toBitVec } } := by
  have hdata : s.outb pic1Data v = { s with master := s.master.data v } := rfl
  rw [hdata, data_of_ready h]

theorem outb_pic2Data (h : s.slave.expects = .mask) (v : UInt8) :
    s.outb pic2Data v = { s with slave := { s.slave with imr := v.toBitVec } } := by
  have hdata : s.outb pic2Data v = { s with slave := s.slave.data v } := rfl
  rw [hdata, data_of_ready h]

theorem irqSetMask_eq (h₁ : s.master.expects = .mask) (h₂ : s.slave.expects = .mask)
    (hirq : irq < 16) : irqSetMask irq s = s.withImrs (PackedBits.set irq.toNat s.imrs) := by
  have hlt : irq.toNat < 16 := lt_iff_toNat.mp hirq
  by_cases h : irq < 8
  · have hn : irq.toNat < 8 := lt_iff_toNat.mp h
    have hdiv : irq.toNat / 8 = 0 := by omega
    have hmod : irq.toNat % 8 = irq.toNat := by omega
    rw [irqSetMask, portAndBit, if_pos h, outb_pic1Data h₁, bit_eq hn]
    simp [Pics.withImrs, PackedBits.set, Pics.imrs, hdiv, hmod, Pics.inb]
  · have hge : ¬ irq.toNat < 8 := fun hn => h (lt_iff_toNat.mpr hn)
    have hdiv : irq.toNat / 8 = 1 := by omega
    have hmod : irq.toNat % 8 = irq.toNat - 8 := by omega
    rw [irqSetMask, portAndBit, if_neg h, outb_pic2Data h₂, toNat_sub_eight h, bit_eq (by omega)]
    simp [Pics.withImrs, PackedBits.set, Pics.imrs, hdiv, hmod, Pics.inb, pic2Data, pic1Data]

theorem irqClearMask_eq (h₁ : s.master.expects = .mask) (h₂ : s.slave.expects = .mask)
    (hirq : irq < 16) : irqClearMask irq s = s.withImrs (PackedBits.clear irq.toNat s.imrs) := by
  have hlt : irq.toNat < 16 := lt_iff_toNat.mp hirq
  by_cases h : irq < 8
  · have hn : irq.toNat < 8 := lt_iff_toNat.mp h
    have hdiv : irq.toNat / 8 = 0 := by omega
    have hmod : irq.toNat % 8 = irq.toNat := by omega
    rw [irqClearMask, portAndBit, if_pos h, outb_pic1Data h₁, bit_eq hn]
    simp [Pics.withImrs, PackedBits.clear, Pics.imrs, hdiv, hmod, Pics.inb]
  · have hge : ¬ irq.toNat < 8 := fun hn => h (lt_iff_toNat.mpr hn)
    have hdiv : irq.toNat / 8 = 1 := by omega
    have hmod : irq.toNat % 8 = irq.toNat - 8 := by omega
    rw [irqClearMask, portAndBit, if_neg h, outb_pic2Data h₂, toNat_sub_eight h,
      bit_eq (by omega)]
    simp [Pics.withImrs, PackedBits.clear, Pics.imrs, hdiv, hmod, Pics.inb, pic2Data, pic1Data]

end Masks

section Represents

variable {c : Pics × List (UInt8 × UInt8)} {t : Lines} {irq : UInt8}

/-- Writes to the mask registers change nothing but the masks. -/
theorem Represents.withImrs (h : Represents c t) {b : PackedBits.Bytes} {mask : UInt8 → Bool}
    (hmask : ∀ irq < 16, PackedBits.test b irq.toNat = mask irq) :
    Represents (c.1.withImrs b, c.2) { t with mask } where
  masterReady := h.masterReady
  slaveReady := h.slaveReady
  masterOffset := h.masterOffset
  slaveOffset := h.slaveOffset
  cascaded := h.cascaded
  mask := by
    intro irq hirq
    show PackedBits.test (c.1.withImrs b).imrs irq.toNat = mask irq
    rw [← hmask irq hirq]
    by_cases hlt : irq < 8
    · rw [test_master _ hlt, test_master _ hlt]
      rfl
    · rw [test_slave _ hlt hirq, test_slave _ hlt hirq]
      rfl
  pending := h.pending
  noBridge := h.noBridge
  masterIsr := h.masterIsr
  slaveIsr := h.slaveIsr
  lines := h.lines
  rising := h.rising
  delivered := h.delivered

/-- Nor do changes of the request registers change anything else. -/
theorem Represents.withIrrs (h : Represents c t) {b : PackedBits.Bytes} {pending : UInt8 → Bool}
    (hpending : ∀ irq < 16, PackedBits.test b irq.toNat = pending irq)
    (hbridge : pending 2 = false) :
    Represents (c.1.withIrrs b, c.2) { t with pending } where
  masterReady := h.masterReady
  slaveReady := h.slaveReady
  masterOffset := h.masterOffset
  slaveOffset := h.slaveOffset
  cascaded := h.cascaded
  mask := h.mask
  pending := by
    intro irq hirq
    show PackedBits.test (c.1.withIrrs b).irrs irq.toNat = pending irq
    rw [← hpending irq hirq]
    by_cases hlt : irq < 8
    · rw [test_master _ hlt, test_master _ hlt]
      rfl
    · rw [test_slave _ hlt hirq, test_slave _ hlt hirq]
      rfl
  noBridge := hbridge
  masterIsr := h.masterIsr
  slaveIsr := h.slaveIsr
  lines := h.lines
  rising := h.rising
  delivered := h.delivered

theorem Represents.setMask (h : Represents c t) (hirq : irq < 16) :
    Represents (irqSetMask irq c.1, c.2) (t.step (.setMask irq)) := by
  rw [irqSetMask_eq h.masterReady h.slaveReady hirq]
  refine h.withImrs fun j hj => ?_
  rw [PackedBits.test_set, h.mask j hj, Function.update_apply]
  by_cases hji : j = irq
  · simp [hji]
  · simp [hji, UInt8.toNat_inj]

theorem Represents.clearMask (h : Represents c t) (hirq : irq < 16) :
    Represents (irqClearMask irq c.1, c.2) (t.step (.clearMask irq)) := by
  rw [irqClearMask_eq h.masterReady h.slaveReady hirq]
  refine h.withImrs fun j hj => ?_
  rw [PackedBits.test_clear, h.mask j hj, Function.update_apply]
  by_cases hji : j = irq
  · simp [hji]
  · simp [hji, UInt8.toNat_inj]

/-- `initialize_irqs` masks the lines one after the other. -/
theorem Represents.initializeIrqs (h : Represents c t) :
    Represents (Cpu.initializeIrqs c.1, c.2) (t.step .initializeIrqs) := by
  have hloop := forRange_inv (f := fun i => irqSetMask (.ofNat i)) (s := c.1)
    (P := fun n s => Represents (s, c.2)
      { t with mask := fun irq => decide (irq.toNat < n) || t.mask irq }) 16 (by simpa using h) ?_
  · have hmask : (fun irq : UInt8 => decide (irq.toNat < 16) || t.mask irq) =
        fun irq => decide (irq < 16) || t.mask irq := by
      funext irq
      have hiff : irq.toNat < 16 ↔ irq < 16 := (lt_iff_toNat (b := 16)).symm
      rw [decide_eq_decide.mpr hiff]
    rw [hmask] at hloop
    exact hloop
  · intro n s hn hs
    have hof : (UInt8.ofNat n).toNat = n := by
      rw [UInt8.toNat_ofNat']
      omega
    have hlt : UInt8.ofNat n < 16 := by
      rw [lt_iff_toNat, hof]
      exact hn
    have hmask : (fun irq : UInt8 => decide (irq.toNat < n + 1) || t.mask irq) =
        Function.update (fun irq => decide (irq.toNat < n) || t.mask irq) (.ofNat n) true := by
      funext irq
      rw [Function.update_apply]
      by_cases heq : irq = UInt8.ofNat n
      · simp [heq, hof]
      · have hne : irq.toNat ≠ n := fun hnat => heq (by rw [← hnat, UInt8.ofNat_toNat])
        have hiff : irq.toNat < n + 1 ↔ irq.toNat < n := by omega
        simp [heq, hiff]
    rw [hmask]
    exact hs.setMask hlt

/-- `disable_pic` masks all of them at once. -/
theorem Represents.disablePic (h : Represents c t) :
    Represents (Cpu.disablePic c.1, c.2) (t.step .disablePic) := by
  have hfirst := h.setMask (show (0 : UInt8) < 16 by decide)
  have hready₁ := hfirst.masterReady
  have hready₂ := hfirst.slaveReady
  have heq : Cpu.disablePic c.1 = c.1.withImrs fun _ => 0xff#8 := by
    rw [Cpu.disablePic, outb_pic1Data hready₁, outb_pic2Data]
    · rw [irqSetMask_eq h.masterReady h.slaveReady (by decide)]
      rfl
    · exact hready₂
  rw [heq]
  refine h.withImrs fun j hj => ?_
  have hbit : PackedBits.test (fun _ => 0xff#8) j.toNat = true := by
    have hmod : j.toNat % 8 < 8 := Nat.mod_lt _ (by decide)
    rw [PackedBits.test_eq_getLsbD]
    interval_cases j.toNat % 8 <;> rfl
  rw [hbit]
  simp [hj]

/-- The four words of a chip, and its mask. -/
theorem data_sequence {p : Pic} (hexpects : p.expects = .icw2) (hicw1 : p.icw1 = 0x11)
    (offset wiring : UInt8) :
    ((((p.data offset).data wiring).data 0x01).data 0) =
      ⟨.mask, 0x11, offset &&& 0xF8, wiring, 1, p.irr, 0, p.isr⟩ := by
  simp [Pic.data, Pic.afterIcw3, hexpects, hicw1]

/-- **A remap initialises both chips whatever they were in the middle of.** -/
theorem picRemap_eq (offset1 offset2 : Int) (s : Pics) :
    picRemap offset1 offset2 s =
      ⟨⟨.mask, 0x11, vectorBase offset1, (1 : UInt8) <<< 2, 1, 0, 0, s.master.isr⟩,
        ⟨.mask, 0x11, vectorBase offset2, 2, 1, 0, 0, s.slave.isr⟩⟩ := by
  have hcommand : ∀ p : Pic, p.command (0x10 ||| 0x01) =
      { p with expects := .icw2, icw1 := 0x11, irr := 0, imr := 0 } := fun _ => rfl
  have hbytes : picRemap offset1 offset2 s =
      ⟨((((s.master.command (0x10 ||| 0x01)).data (.ofInt offset1)).data ((1 : UInt8) <<< 2)).data
          0x01).data 0,
        ((((s.slave.command (0x10 ||| 0x01)).data (.ofInt offset2)).data 2).data 0x01).data 0⟩ :=
    rfl
  rw [hbytes, hcommand, hcommand, data_sequence rfl rfl, data_sequence rfl rfl]
  rfl

theorem represents_picRemap {s : Pics} (hmaster : s.master.isr = 0) (hslave : s.slave.isr = 0)
    (hidle : t.serving = []) {log : List (UInt8 × UInt8)} (hlog : log = t.delivered)
    (offset1 offset2 : Int) :
    Represents (picRemap offset1 offset2 s, log) (t.step (.remap offset1 offset2)) where
  masterReady := by rw [picRemap_eq]
  slaveReady := by rw [picRemap_eq]
  masterOffset := by
    rw [picRemap_eq]
    rfl
  slaveOffset := by
    rw [picRemap_eq]
    rfl
  cascaded := by
    have hwired : (((1 : UInt8) <<< 2).toBitVec.getLsbD 2 && (2 : UInt8) = 2) = true := by decide
    rw [picRemap_eq]
    exact hwired
  mask := by
    intro irq _
    have hzero : (picRemap offset1 offset2 s).imrs = fun _ => 0#8 := by
      funext k
      rw [picRemap_eq, Pics.imrs]
      split
      · rfl
      · rfl
    show PackedBits.test (picRemap offset1 offset2 s).imrs irq.toNat = false
    rw [hzero, PackedBits.test_eq_getLsbD]
    exact BitVec.getLsbD_zero
  pending := by
    intro irq _
    have hzero : (picRemap offset1 offset2 s).irrs = fun _ => 0#8 := by
      funext k
      rw [picRemap_eq, Pics.irrs]
      split
      · rfl
      · rfl
    show PackedBits.test (picRemap offset1 offset2 s).irrs irq.toNat = false
    rw [hzero, PackedBits.test_eq_getLsbD]
    exact BitVec.getLsbD_zero
  noBridge := rfl
  masterIsr := by
    intro k
    have hnone : ¬ ∃ i ∈ t.serving, masterLine i = k := by simp [hidle]
    rw [picRemap_eq, hmaster]
    exact iff_of_false (by simp) hnone
  slaveIsr := by
    intro k
    have hnone : ¬ ∃ i ∈ t.serving, 8 ≤ i ∧ i.toNat - 8 = k := by simp [hidle]
    rw [picRemap_eq, hslave]
    exact iff_of_false (by simp) hnone
  lines := by
    intro i hi
    have hserving : i ∈ t.serving := hi
    rw [hidle] at hserving
    exact absurd hserving List.not_mem_nil
  rising := by
    show t.serving.Pairwise _
    rw [hidle]
    exact List.Pairwise.nil
  delivered := hlog

/-- Nothing in service: the registers are empty. -/
theorem Represents.idle (h : Represents c t) (hidle : t.serving = []) :
    c.1.master.isr = 0 ∧ c.1.slave.isr = 0 := by
  constructor
  · refine BitVec.eq_of_getLsbD_eq fun k _ => ?_
    rw [show BitVec.getLsbD 0 k = false from BitVec.getLsbD_zero, ← Bool.not_eq_true, h.masterIsr]
    simp [hidle]
  · refine BitVec.eq_of_getLsbD_eq fun k _ => ?_
    rw [show BitVec.getLsbD 0 k = false from BitVec.getLsbD_zero, ← Bool.not_eq_true, h.slaveIsr]
    simp [hidle]

end Represents

section Service

variable {c : Pics × List (UInt8 × UInt8)} {t : Lines} {irq : UInt8}

theorem getLsbD_bit {n : Nat} (hn : n < 8) (k : Nat) :
    (1#8 <<< n).getLsbD k = decide (k = n) := by
  rw [← BitVec.twoPow_eq, BitVec.getLsbD_twoPow]
  simp [hn, eq_comm]

theorem getLsbD_cleared {x : BitVec 8} {n : Nat} (hn : n < 8) (k : Nat) :
    (x &&& ~~~(1#8 <<< n)).getLsbD k = true ↔ x.getLsbD k = true ∧ k ≠ n := by
  rw [BitVec.getLsbD_and, BitVec.getLsbD_not, getLsbD_bit hn]
  constructor
  · intro h
    simp at h
    exact ⟨h.1, h.2.2⟩
  · rintro ⟨hbit, hne⟩
    have hk : k < 8 := BitVec.lt_of_getLsbD hbit
    simp [hbit, hne, hk]

theorem masterLine_lt (irq : UInt8) : masterLine irq < 8 := by
  unfold masterLine
  split
  · next h => exact lt_iff_toNat.mp h
  · decide

/-- An interrupt of the second chip comes in on line 2. -/
theorem masterLine_of_ge (h : ¬ irq < 8) : masterLine irq = 2 := if_neg h

/-- The mask of a line in its chip. -/
theorem Represents.masterImr (h : Represents c t) (hirq : irq < 8) :
    c.1.master.imr.getLsbD irq.toNat = t.mask irq := by
  have hmask := h.mask irq (UInt8.lt_trans hirq (by decide))
  rw [test_master _ hirq] at hmask
  exact hmask

theorem Represents.slaveImr (h : Represents c t) (hge : ¬ irq < 8) (hirq : irq < 16) :
    c.1.slave.imr.getLsbD (irq.toNat - 8) = t.mask irq := by
  have hmask := h.mask irq hirq
  rw [test_slave _ hge hirq] at hmask
  exact hmask

/-- The request of a line in its chip. -/
theorem Represents.masterIrr (h : Represents c t) (hirq : irq < 8) :
    c.1.master.irr.getLsbD irq.toNat = t.pending irq := by
  have hpending := h.pending irq (UInt8.lt_trans hirq (by decide))
  rw [test_master _ hirq] at hpending
  exact hpending

theorem Represents.slaveIrr (h : Represents c t) (hge : ¬ irq < 8) (hirq : irq < 16) :
    c.1.slave.irr.getLsbD (irq.toNat - 8) = t.pending irq := by
  have hpending := h.pending irq hirq
  rw [test_slave _ hge hirq] at hpending
  exact hpending

/-- A chip passes a request on when the line is open and nothing before it is in service. -/
theorem accepts_iff {p : Pic} (hready : p.expects = .mask) (n : Nat) :
    p.accepts n = true ↔ p.imr.getLsbD n = false ∧ ∀ k ≤ n, ¬ p.isr.getLsbD k = true := by
  simp [Pic.accepts, hready]

theorem Represents.master_accepts_iff (h : Represents c t) (n : Nat) :
    c.1.master.accepts n = true ↔
      c.1.master.imr.getLsbD n = false ∧ ∀ i ∈ t.serving, n < masterLine i := by
  rw [accepts_iff h.masterReady]
  refine and_congr_right fun _ => ?_
  constructor
  · intro hfree i hi
    by_contra hle
    exact hfree (masterLine i) (Nat.le_of_not_lt hle) ((h.masterIsr _).mpr ⟨i, hi, rfl⟩)
  · intro hlow k hk hbit
    obtain ⟨i, hi, hline⟩ := (h.masterIsr k).mp hbit
    have hlt := hlow i hi
    omega

/-- While line 2 is free, the second chip has nothing in service. -/
theorem Represents.slave_accepts_iff (h : Represents c t) (n : Nat)
    (hfree : ∀ i ∈ t.serving, 2 < masterLine i) :
    c.1.slave.accepts n = true ↔ c.1.slave.imr.getLsbD n = false := by
  rw [accepts_iff h.slaveReady]
  refine and_iff_left fun k _ hbit => ?_
  obtain ⟨i, hi, hge, -⟩ := (h.slaveIsr k).mp hbit
  have hline := hfree i hi
  rw [masterLine_of_ge (UInt8.not_lt.mpr hge)] at hline
  exact absurd hline (by decide)

/-- **The first chip finds its own lines** as the lines do. -/
theorem Represents.accepts_master (h : Represents c t) (hirq : irq < 8) (hne : irq ≠ 2) :
    (c.1.masterRequests.getLsbD irq.toNat && c.1.master.accepts irq.toNat) = t.accepts irq := by
  have hlt : irq < 16 := UInt8.lt_trans hirq (by decide)
  have hline : masterLine irq = irq.toNat := if_pos hirq
  have hbit : c.1.masterRequests.getLsbD irq.toNat = t.pending irq := by
    have htwo : irq.toNat ≠ 2 := fun heq => hne (UInt8.toNat_inj.mp heq)
    rw [← h.masterIrr hirq, Pics.masterRequests]
    split
    · rw [BitVec.getLsbD_or, getLsbD_bit (by decide), decide_eq_false htwo, Bool.or_false]
    · rfl
  rw [hbit, Bool.eq_iff_iff, Bool.and_eq_true, h.master_accepts_iff, h.masterImr hirq,
    Lines.accepts, Lines.enabled, hline]
  simp [hirq, hlt, hne, and_assoc]

/-- **The second chip finds its lines** as the lines do, if line 2 is free. -/
theorem Represents.accepts_slave (h : Represents c t) (hge : ¬ irq < 8) (hirq : irq < 16) :
    (c.1.master.accepts 2 && (c.1.slave.irr.getLsbD (irq.toNat - 8) &&
      c.1.slave.accepts (irq.toNat - 8))) = t.accepts irq := by
  have hline : masterLine irq = 2 := if_neg hge
  have hne : irq ≠ 2 := fun heq => hge (heq ▸ by decide)
  have htwo : c.1.master.imr.getLsbD 2 = t.mask 2 :=
    h.masterImr (show (2 : UInt8) < 8 by decide)
  rw [Bool.eq_iff_iff, Bool.and_eq_true, Bool.and_eq_true, h.master_accepts_iff, htwo,
    h.slaveIrr hge hirq, Lines.accepts, Lines.enabled, hline]
  by_cases hfree : ∀ i ∈ t.serving, 2 < masterLine i
  · rw [h.slave_accepts_iff _ hfree, h.slaveImr hge hirq]
    simp [hge, hirq, hne]
    tauto
  · simp [hge, hirq, hne, hfree]

/-- The lines of the second chip. -/
theorem slave_lines : (List.range 8).map (fun k => UInt8.ofNat (8 + k)) =
    [8, 9, 10, 11, 12, 13, 14, 15] := rfl

theorem slave_line {k : Nat} (hk : k < 8) : ¬ UInt8.ofNat (8 + k) < 8 ∧ UInt8.ofNat (8 + k) < 16 ∧
    (UInt8.ofNat (8 + k)).toNat - 8 = k := by
  have hnat : (UInt8.ofNat (8 + k)).toNat = 8 + k := UInt8.toNat_ofNat_of_lt' (by
    rw [UInt8.size]
    omega)
  refine ⟨?_, ?_, by omega⟩
  · rw [lt_iff_toNat, hnat]
    exact Nat.not_lt.mpr (Nat.le_add_right 8 k)
  · rw [lt_iff_toNat, hnat]
    exact Nat.add_lt_add_left hk 8

/-- What the second chip finds is the first of its lines, while line 2 is free. -/
theorem Represents.slaveLine_eq (h : Represents c t) (hfree : c.1.master.accepts 2 = true) :
    (c.1.slaveLine.map fun k => UInt8.ofNat (8 + k)) =
      [8, 9, 10, 11, 12, 13, 14, 15].find? t.accepts := by
  have hsame : (List.range 8).find? (fun k => c.1.slave.irr.getLsbD k && c.1.slave.accepts k) =
      (List.range 8).find? (t.accepts ∘ fun k => UInt8.ofNat (8 + k)) := by
    refine List.find?_congr fun k hk => ?_
    obtain ⟨hge, hlt, hnat⟩ := slave_line (List.mem_range.mp hk)
    have haccepts := h.accepts_slave hge hlt
    rw [hfree, Bool.true_and, hnat] at haccepts
    exact haccepts
  rw [Pics.slaveLine, if_pos h.cascaded, Pic.resolve, hsame, ← slave_lines, List.find?_map]

/-- While it is not, none of them is next. -/
theorem Represents.not_accepts_slave (h : Represents c t) (hblocked : c.1.master.accepts 2 = false) :
    [8, 9, 10, 11, 12, 13, 14, 15].find? t.accepts = none := by
  refine List.find?_eq_none.mpr fun irq hirq => ?_
  rw [← slave_lines] at hirq
  obtain ⟨k, hk, rfl⟩ := List.mem_map.mp hirq
  obtain ⟨hge, hlt, -⟩ := slave_line (List.mem_range.mp hk)
  have haccepts := h.accepts_slave hge hlt
  rw [hblocked, Bool.false_and] at haccepts
  rw [← haccepts]
  exact Bool.false_ne_true

/-- Line 2 has a request exactly when the second chip passes one on. -/
theorem Represents.bridge_eq (h : Represents c t) :
    c.1.masterRequests.getLsbD 2 = c.1.slaveLine.isSome := by
  have hnone : c.1.master.irr.getLsbD 2 = false :=
    (h.masterIrr (show (2 : UInt8) < 8 by decide)).trans h.noBridge
  rw [Pics.masterRequests]
  split
  · next hsome =>
      rw [BitVec.getLsbD_or, getLsbD_bit (by decide), hsome]
      simp
  · next hsome =>
      rw [hnone]
      simpa using hsome

/-- **The chips find the line that is next.** -/
theorem Represents.resolve_eq (h : Represents c t) : c.1.resolve = t.next := by
  have hown : ∀ k ∈ ([0, 1, 3, 4, 5, 6, 7] : List Nat), k ≠ 2 ∧
      (c.1.masterRequests.getLsbD k && c.1.master.accepts k) = t.accepts (.ofNat k) := by
    intro k hk
    have hsmall : ∀ k ∈ ([0, 1, 3, 4, 5, 6, 7] : List Nat), k ≠ 2 ∧ UInt8.ofNat k < 8 ∧
        UInt8.ofNat k ≠ 2 ∧ (UInt8.ofNat k).toNat = k := by decide
    obtain ⟨hne, hlt, hnot, hnat⟩ := hsmall k hk
    have haccepts := h.accepts_master hlt hnot
    rw [hnat] at haccepts
    exact ⟨hne, haccepts⟩
  -- the line 2 of the master leads to the lines of the slave
  show (([0, 1] ++ 2 :: [3, 4, 5, 6, 7] : List Nat).find? fun k =>
      c.1.masterRequests.getLsbD k && c.1.master.accepts k).bind (fun k =>
      if k = 2 then c.1.slaveLine.map fun k => UInt8.ofNat (8 + k) else some (UInt8.ofNat k)) =
    (([0, 1] : List Nat).map UInt8.ofNat ++ ([8, 9, 10, 11, 12, 13, 14, 15] ++
      ([3, 4, 5, 6, 7] : List Nat).map UInt8.ofNat)).find? t.accepts
  refine find?_cascade (fun k hk => hown k (List.mem_append_left [3, 4, 5, 6, 7] hk))
    (fun k hk => hown k (List.mem_append_right [0, 1] hk)) ?_ ?_
  · cases hfree : c.1.master.accepts 2 with
    | true => rw [← h.slaveLine_eq hfree, h.bridge_eq, Option.isSome_map, Bool.and_true]
    | false => rw [h.not_accepts_slave hfree, Bool.and_false, Option.isSome_none]
  · intro hM
    exact h.slaveLine_eq (Bool.and_eq_true _ _ ▸ hM).2

/-- The chips with other interrupts in service. -/
def Pics.withIsrs (s : Pics) (m n : BitVec 8) : Pics :=
  ⟨{ s.master with isr := m }, { s.slave with isr := n }⟩

/-- **Only the registers in service change**: they show the lines `l`. -/
theorem Represents.withIsrs (h : Represents c t) {m n : BitVec 8} {l : List UInt8}
    (hm : ∀ k, m.getLsbD k = true ↔ ∃ i ∈ l, masterLine i = k)
    (hn : ∀ k, n.getLsbD k = true ↔ ∃ i ∈ l, 8 ≤ i ∧ i.toNat - 8 = k)
    (hlines : ∀ i ∈ l, i < 16) (hrising : l.Pairwise fun i j => masterLine i < masterLine j)
    (d : List (UInt8 × UInt8)) :
    Represents (c.1.withIsrs m n, c.2 ++ d)
      { t with serving := l, delivered := t.delivered ++ d } where
  masterReady := h.masterReady
  slaveReady := h.slaveReady
  masterOffset := h.masterOffset
  slaveOffset := h.slaveOffset
  cascaded := h.cascaded
  mask := h.mask
  pending := h.pending
  noBridge := h.noBridge
  masterIsr := hm
  slaveIsr := hn
  lines := hlines
  rising := hrising
  delivered := congrArg (· ++ d) h.delivered

/-- The request registers without the line that was taken. -/
def Pics.taken (s : Pics) (irq : UInt8) : PackedBits.Bytes := fun k =>
  if k = 0 then s.master.irr &&& ~~~(1#8 <<< masterLine irq)
  else if irq < 8 then s.slave.irr
  else s.slave.irr &&& ~~~(1#8 <<< (irq.toNat - 8))

theorem serve_eq (s : Pics) (irq : UInt8) :
    s.serve irq = (s.withIrrs (s.taken irq)).withIsrs (s.master.isr ||| 1#8 <<< masterLine irq)
      (if irq < 8 then s.slave.isr else s.slave.isr ||| 1#8 <<< (irq.toNat - 8)) := by
  rw [Pics.serve, Pics.withIsrs, Pics.withIrrs, Pics.taken, Pics.taken, masterLine]
  by_cases hlt : irq < 8
  · simp only [if_pos hlt]
    rfl
  · simp only [if_neg hlt]
    rfl

/-- Every other request still waits. -/
theorem Represents.taken (h : Represents c t) (hirq : irq < 16) {j : UInt8} (hj : j < 16) :
    PackedBits.test (c.1.taken irq) j.toNat = Function.update t.pending irq false j := by
  rw [Function.update_apply]
  by_cases hj8 : j < 8
  · have hbyte : c.1.taken irq 0 = c.1.master.irr &&& ~~~(1#8 <<< masterLine irq) := rfl
    rw [test_master _ hj8, hbyte, Bool.eq_iff_iff, getLsbD_cleared (masterLine_lt irq),
      h.masterIrr hj8]
    by_cases hlt : irq < 8
    · have hline : masterLine irq = irq.toNat := if_pos hlt
      rw [hline]
      by_cases hji : j = irq
      · simp [hji]
      · simp [hji, UInt8.toNat_inj]
    · have hji : j ≠ irq := fun heq => hlt (heq ▸ hj8)
      rw [masterLine_of_ge hlt, if_neg hji]
      refine and_iff_left_of_imp fun hpending htwo => ?_
      obtain rfl : j = 2 := UInt8.toNat_inj.mp htwo
      rw [h.noBridge] at hpending
      cases hpending
  · have hge : 8 ≤ j.toNat := UInt8.le_iff_toNat_le.mp (UInt8.not_lt.mp hj8)
    rw [test_slave _ hj8 hj]
    by_cases hlt : irq < 8
    · have hbyte : c.1.taken irq 1 = c.1.slave.irr := if_pos hlt
      have hji : j ≠ irq := fun heq => hj8 (heq ▸ hlt)
      rw [hbyte, h.slaveIrr hj8 hj, if_neg hji]
    · have hbyte : c.1.taken irq 1 = c.1.slave.irr &&& ~~~(1#8 <<< (irq.toNat - 8)) := if_neg hlt
      have hnat : irq.toNat < 16 := lt_iff_toNat.mp hirq
      have hge' : 8 ≤ irq.toNat := UInt8.le_iff_toNat_le.mp (UInt8.not_lt.mp hlt)
      rw [hbyte, Bool.eq_iff_iff, getLsbD_cleared (by omega), h.slaveIrr hj8 hj]
      by_cases hji : j = irq
      · simp [hji]
      · have hne : j.toNat - 8 ≠ irq.toNat - 8 := by
          intro heq
          exact hji (UInt8.toNat_inj.mp (by omega))
        simp [hji, hne]

/-- What is accepted: a line of a device, above everything in service. -/
theorem accepts_spec (hacc : t.accepts irq = true) :
    irq < 16 ∧ irq ≠ 2 ∧ ∀ i ∈ t.serving, masterLine irq < masterLine i := by
  simp only [Lines.accepts, Lines.enabled, Bool.and_eq_true, decide_eq_true_eq,
    List.all_eq_true] at hacc
  exact ⟨hacc.1.2.1.1.1, hacc.1.2.1.1.2, hacc.2⟩

theorem mem_priorities (hirq : irq < 16) (hne : irq ≠ 2) : irq ∈ priorities := by
  have hall : ∀ n < 16, UInt8.ofNat n ≠ 2 → UInt8.ofNat n ∈ priorities := by decide
  have hmem := hall irq.toNat (lt_iff_toNat.mp hirq)
  rw [UInt8.ofNat_toNat] at hmem
  exact hmem hne

/-- The only request is next, if nothing holds it up. -/
theorem next_of_only (honly : ∀ i, t.pending i = true → i = irq) :
    t.next = if t.accepts irq then some irq else none := by
  cases hnext : t.next with
  | some i =>
      have hacc : t.accepts i = true := List.find?_some hnext
      have hpending : t.pending i = true := by
        rw [Lines.accepts, Bool.and_assoc, Bool.and_eq_true] at hacc
        exact hacc.1
      obtain rfl := honly i hpending
      rw [if_pos hacc]
  | none =>
      rw [if_neg fun hacc => ?_]
      obtain ⟨hirq, hne, -⟩ := accepts_spec hacc
      exact List.find?_eq_none.mp hnext irq (mem_priorities hirq hne) hacc

/-- A request at idle chips is next, if its line is open. -/
theorem next_request (hidle : ∀ i, t.pending i = false) (hserving : t.serving = []) :
    (t.request irq).next = if t.enabled irq then some irq else none := by
  rw [Lines.request]
  by_cases hdevice : irq < 16 ∧ irq ≠ 2
  · have haccepts : Lines.accepts { t with pending := Function.update t.pending irq true } irq =
        t.enabled irq := by
      have henabled : Lines.enabled { t with pending := Function.update t.pending irq true } irq =
          t.enabled irq := rfl
      rw [Lines.accepts, henabled]
      dsimp only
      rw [Function.update_self, hserving, List.all_nil, Bool.true_and, Bool.and_true]
    rw [if_pos hdevice, next_of_only fun i hi => ?_, haccepts]
    by_contra hne
    have hother : Function.update t.pending irq true i = false :=
      (Function.update_of_ne hne _ _).trans (hidle i)
    cases hother.symm.trans hi
  · have hclosed : ¬ t.enabled irq = true := by
      intro h
      simp only [Lines.enabled, Bool.and_eq_true, decide_eq_true_eq] at h
      exact hdevice h.1.1
    have hnot : ¬ t.accepts irq = true := by
      rw [Lines.accepts, hidle]
      nofun
    rw [if_neg hdevice, if_neg hclosed, next_of_only fun i hi => ?_, if_neg hnot]
    cases (hidle i).symm.trans hi

theorem vector_request (t : Lines) (irq : UInt8) : (t.request irq).vector = t.vector := by
  rw [Lines.request]
  split
  · rfl
  · rfl

/-- **An interrupt is taken**: it is in service, and its request is gone. -/
theorem Represents.serve (h : Represents c t) (hacc : t.accepts irq = true) :
    Represents (c.1.serve irq, c.2 ++ [(irq, t.vector irq)])
      { t with
        pending := Function.update t.pending irq false
        serving := irq :: t.serving
        delivered := t.delivered ++ [(irq, t.vector irq)] } := by
  obtain ⟨hirq, hne, hrising⟩ := accepts_spec hacc
  have hbridge : Function.update t.pending irq false 2 = false := by
    rw [Function.update_of_ne hne.symm]
    exact h.noBridge
  rw [serve_eq]
  refine (h.withIrrs (fun j hj => h.taken hirq hj) hbridge).withIsrs (fun k => ?_) (fun k => ?_)
    (fun i hi => ?_) (List.pairwise_cons.mpr ⟨hrising, h.rising⟩) _
  · -- the first chip has the line of the interrupt
    rw [BitVec.getLsbD_or, getLsbD_bit (masterLine_lt irq), Bool.or_eq_true, h.masterIsr]
    simp [or_comm, eq_comm]
  · -- the second one only if it is one of its own
    by_cases hlt : irq < 8
    · have hnot : ¬ 8 ≤ irq := UInt8.not_le.mpr hlt
      rw [if_pos hlt, h.slaveIsr]
      simp [hnot]
    · have hge : 8 ≤ irq := UInt8.not_lt.mp hlt
      have hnat : irq.toNat < 16 := lt_iff_toNat.mp hirq
      rw [if_neg hlt, BitVec.getLsbD_or, getLsbD_bit (by omega), Bool.or_eq_true, h.slaveIsr]
      simp [hge, or_comm, eq_comm]
  · rcases List.mem_cons.mp hi with rfl | hi
    · exact hirq
    · exact h.lines i hi

theorem Represents.vector_eq (h : Represents c t) (irq : UInt8) :
    c.1.vector irq = t.vector irq := by
  rw [Pics.vector, Lines.vector, h.masterOffset, h.slaveOffset]

/-- **The processor takes what is next**, with the vector of its line. -/
theorem Represents.acknowledge_eq (h : Represents c t) :
    c.1.acknowledge = match t.next with
      | some irq => (some (irq, t.vector irq), c.1.serve irq)
      | none => (none, c.1) := by
  rw [Pics.acknowledge, h.resolve_eq]
  cases t.next with
  | none => rfl
  | some irq =>
      dsimp only
      rw [h.vector_eq]

theorem Represents.acknowledge (h : Represents c t) :
    Represents (Pics.step c .acknowledge) t.acknowledge := by
  rw [Pics.step, h.acknowledge_eq, Lines.acknowledge]
  cases hnext : t.next with
  | none =>
      rw [Option.toList_none, List.append_nil]
      exact h
  | some irq => exact h.serve (List.find?_some hnext)

/-- A request in the register of its chip. -/
theorem request_eq (s : Pics) (hirq : irq < 16) (hne : irq ≠ 2) :
    s.request irq = s.withIrrs (PackedBits.set irq.toNat s.irrs) := by
  have hlt : irq.toNat < 16 := lt_iff_toNat.mp hirq
  by_cases h : irq < 8
  · have hn : irq.toNat < 8 := lt_iff_toNat.mp h
    have hdiv : irq.toNat / 8 = 0 := by omega
    have hmod : irq.toNat % 8 = irq.toNat := by omega
    rw [Pics.request, if_pos h, if_pos hne]
    simp [Pics.withIrrs, PackedBits.set, Pics.irrs, hdiv, hmod, Pic.latch]
  · have hge : ¬ irq.toNat < 8 := fun hn => h (lt_iff_toNat.mpr hn)
    have hdiv : irq.toNat / 8 = 1 := by omega
    have hmod : irq.toNat % 8 = irq.toNat - 8 := by omega
    rw [Pics.request, if_neg h, if_pos hirq]
    simp [Pics.withIrrs, PackedBits.set, Pics.irrs, hdiv, hmod, Pic.latch]

/-- **A request waits** in its chip. -/
theorem Represents.request (h : Represents c t) (irq : UInt8) :
    Represents (Pics.step c (.request irq)) (t.request irq) := by
  rw [Pics.step, Lines.request]
  by_cases hdevice : irq < 16 ∧ irq ≠ 2
  · obtain ⟨hirq, hne⟩ := hdevice
    rw [if_pos ⟨hirq, hne⟩, request_eq c.1 hirq hne]
    refine h.withIrrs (fun j hj => ?_) ?_
    · rw [PackedBits.test_set, h.pending j hj, Function.update_apply]
      by_cases hji : j = irq
      · simp [hji]
      · simp [hji, UInt8.toNat_inj]
    · rw [Function.update_of_ne hne.symm]
      exact h.noBridge
  · have hnone : c.1.request irq = c.1 := by
      rw [Pics.request]
      by_cases hlt : irq < 8
      · rw [if_pos hlt, if_neg fun hne => hdevice ⟨UInt8.lt_trans hlt (by decide), hne⟩]
      · have hne : irq ≠ 2 := fun heq => hlt (heq ▸ by decide)
        rw [if_neg hlt, if_neg fun hirq => hdevice ⟨hirq, hne⟩]
    rw [if_neg hdevice, hnone]
    exact h

/-- The end of an interrupt clears the lowest bit in service. -/
theorem endOfInterrupt_eq {p : Pic} {n : Nat} (hn : n < 8) (hbit : p.isr.getLsbD n = true)
    (hlow : ∀ k < n, ¬ p.isr.getLsbD k = true) :
    p.endOfInterrupt = { p with isr := p.isr &&& ~~~(1#8 <<< n) } := by
  have hfirst : p.inService = some n := by
    rw [Pic.inService, List.find?_range_eq_some]
    refine ⟨hbit, List.mem_range.mpr hn, fun k hk => ?_⟩
    simpa using hlow k hk
  rw [Pic.endOfInterrupt, hfirst]

/-- In the first chip, the line of the last interrupt is the lowest in service. -/
theorem Represents.command_master {rest : List UInt8} (h : Represents c t)
    (hserving : t.serving = irq :: rest) :
    c.1.master.command picEoi =
      { c.1.master with isr := c.1.master.isr &&& ~~~(1#8 <<< masterLine irq) } := by
  have hsorted := h.rising
  rw [hserving, List.pairwise_cons] at hsorted
  have hcommand : c.1.master.command picEoi = c.1.master.endOfInterrupt := rfl
  rw [hcommand]
  refine endOfInterrupt_eq (masterLine_lt irq) ?_ fun k hk hbit => ?_
  · exact (h.masterIsr _).mpr ⟨irq, by rw [hserving]; exact List.mem_cons_self, rfl⟩
  · obtain ⟨i, hi, rfl⟩ := (h.masterIsr k).mp hbit
    rw [hserving] at hi
    rcases List.mem_cons.mp hi with rfl | hi
    · exact absurd hk (Nat.lt_irrefl _)
    · exact absurd hk (Nat.not_lt.mpr (Nat.le_of_lt (hsorted.1 i hi)))

/-- Under an interrupt of the second chip, there is no other of it in service. -/
theorem Represents.only_of_ge {rest : List UInt8} (h : Represents c t)
    (hserving : t.serving = irq :: rest) (hge : ¬ irq < 8) {i : UInt8} (hi : i ∈ rest) :
    ¬ 8 ≤ i := by
  intro hi8
  have hsorted := h.rising
  rw [hserving, List.pairwise_cons] at hsorted
  have hlt := hsorted.1 i hi
  rw [masterLine_of_ge hge, masterLine_of_ge (UInt8.not_lt.mpr hi8)] at hlt
  exact Nat.lt_irrefl _ hlt

theorem Represents.command_slave {rest : List UInt8} (h : Represents c t)
    (hserving : t.serving = irq :: rest) (hge : ¬ irq < 8) :
    c.1.slave.command picEoi =
      { c.1.slave with isr := c.1.slave.isr &&& ~~~(1#8 <<< (irq.toNat - 8)) } := by
  have hmem : irq ∈ t.serving := by
    rw [hserving]
    exact List.mem_cons_self
  have hnat : irq.toNat < 16 := lt_iff_toNat.mp (h.lines irq hmem)
  have hcommand : c.1.slave.command picEoi = c.1.slave.endOfInterrupt := rfl
  rw [hcommand]
  refine endOfInterrupt_eq (by omega) ?_ fun k hk hbit => ?_
  · exact (h.slaveIsr _).mpr ⟨irq, hmem, UInt8.not_lt.mp hge, rfl⟩
  · obtain ⟨i, hi, hi8, rfl⟩ := (h.slaveIsr k).mp hbit
    rw [hserving] at hi
    rcases List.mem_cons.mp hi with rfl | hi
    · exact absurd hk (Nat.lt_irrefl _)
    · exact h.only_of_ge hserving hge hi hi8

/-- Both chips get the command for a line of the second one. -/
theorem Represents.picSendEoi_eq {rest : List UInt8} (h : Represents c t)
    (hserving : t.serving = irq :: rest) :
    picSendEoi irq c.1 = c.1.withIsrs (c.1.master.isr &&& ~~~(1#8 <<< masterLine irq))
      (if irq < 8 then c.1.slave.isr else c.1.slave.isr &&& ~~~(1#8 <<< (irq.toNat - 8))) := by
  have hboth : picSendEoi irq c.1 =
      ⟨c.1.master.command picEoi, if irq < 8 then c.1.slave else c.1.slave.command picEoi⟩ := by
    rw [picSendEoi]
    by_cases hlt : irq < 8
    · rw [if_pos hlt, if_neg (UInt8.not_le.mpr hlt)]
      rfl
    · rw [if_neg hlt, if_pos (UInt8.not_lt.mp hlt)]
      rfl
  rw [hboth, h.command_master hserving, Pics.withIsrs]
  by_cases hlt : irq < 8
  · rw [if_pos hlt, if_pos hlt]
  · rw [if_neg hlt, if_neg hlt, h.command_slave hserving hlt]

/-- **The end of the last interrupt in service**: its bit goes in both chips. -/
theorem Represents.sendEoi (h : Represents c t) (htop : t.serving.head? = some irq) :
    Represents (picSendEoi irq c.1, c.2) (t.step (.sendEoi irq)) := by
  obtain ⟨rest, hserving⟩ : ∃ rest, t.serving = irq :: rest := by
    cases hs : t.serving with
    | nil =>
        rw [hs] at htop
        cases htop
    | cons top rest =>
        rw [hs] at htop
        obtain rfl := Option.some.inj htop
        exact ⟨rest, rfl⟩
  have hirq : irq < 16 := h.lines irq (by rw [hserving]; exact List.mem_cons_self)
  have hsorted := h.rising
  rw [hserving, List.pairwise_cons] at hsorted
  obtain ⟨htop_lt, hrest⟩ := hsorted
  have htail : t.step (.sendEoi irq) =
      { t with serving := rest, delivered := t.delivered ++ [] } := by
    rw [Lines.step, hserving, List.append_nil]
    rfl
  rw [h.picSendEoi_eq hserving, htail, ← List.append_nil c.2]
  refine h.withIsrs (fun k => ?_) (fun k => ?_)
    (fun i hi => h.lines i (by rw [hserving]; exact List.mem_cons_of_mem irq hi)) hrest _
  · rw [getLsbD_cleared (masterLine_lt irq), h.masterIsr, hserving]
    constructor
    · rintro ⟨⟨i, hi, rfl⟩, hne⟩
      rcases List.mem_cons.mp hi with rfl | hi
      · exact absurd rfl hne
      · exact ⟨i, hi, rfl⟩
    · rintro ⟨i, hi, rfl⟩
      exact ⟨⟨i, List.mem_cons_of_mem irq hi, rfl⟩, (Nat.ne_of_lt (htop_lt i hi)).symm⟩
  · by_cases hlt : irq < 8
    · rw [if_pos hlt, h.slaveIsr, hserving]
      simp [UInt8.not_le.mpr hlt]
    · have hnat : irq.toNat < 16 := lt_iff_toNat.mp hirq
      rw [if_neg hlt, getLsbD_cleared (by omega), h.slaveIsr, hserving]
      constructor
      · rintro ⟨⟨i, hi, hi8, rfl⟩, hne⟩
        rcases List.mem_cons.mp hi with rfl | hi
        · exact absurd rfl hne
        · exact ⟨i, hi, hi8, rfl⟩
      · rintro ⟨i, hi, hi8, rfl⟩
        exact absurd hi8 (h.only_of_ge hserving hlt hi)

/-- **One event.** -/
theorem Represents.step (h : Represents c t) (e : PicEvent) (he : t.Allowed e) :
    Represents (Pics.step c e) (t.step e) := by
  cases e with
  | request irq => exact h.request irq
  | acknowledge => exact h.acknowledge
  | remap offset1 offset2 =>
      obtain ⟨hmaster, hslave⟩ := h.idle he
      exact represents_picRemap hmaster hslave he h.delivered offset1 offset2
  | sendEoi irq => exact h.sendEoi he
  | setMask irqLine => exact h.setMask he
  | clearMask irqLine => exact h.clearMask he
  | initializeIrqs => exact h.initializeIrqs
  | disablePic => exact h.disablePic

end Service

/-! ## 5. Runs -/

section Runs

variable {s : Pics} {offset1 offset2 : Int} {events : List PicEvent}

theorem represents_run (hmaster : s.master.isr = 0) (hslave : s.slave.isr = 0)
    (h : Guarded Lines.step Lines.Allowed (.remapped offset1 offset2) events) :
    Represents (run Pics.step (picRemap offset1 offset2 s, []) events)
      (run Lines.step (.remapped offset1 offset2) events) := by
  have hstart : Represents (picRemap offset1 offset2 s, []) (.remapped offset1 offset2) :=
    represents_picRemap (t := .remapped offset1 offset2) hmaster hslave rfl rfl offset1 offset2
  exact run_sim (fun _ _ e h he => h.step e he) hstart h

/-- **The chips deliver what the lines deliver**: from any state with nothing in service, after a
    remap, for every disciplined sequence of calls, requests and acknowledges; and a mask register
    shows the last call that set it. -/
theorem pics_deliver (hmaster : s.master.isr = 0) (hslave : s.slave.isr = 0)
    (h : Guarded Lines.step Lines.Allowed (.remapped offset1 offset2) events) :
    (run Pics.step (picRemap offset1 offset2 s, []) events).2 =
        (run Lines.step (.remapped offset1 offset2) events).delivered ∧
      ∀ irq < 16, PackedBits.test (run Pics.step (picRemap offset1 offset2 s, []) events).1.imrs
        irq.toNat = (run Lines.step (.remapped offset1 offset2) events).mask irq :=
  ⟨(represents_run hmaster hslave h).delivered, (represents_run hmaster hslave h).mask⟩

/-- The chips after the first words of an earlier initialisation: the data ports expect the next. -/
def halfInitialised : Pics :=
  ⟨⟨.icw3, 0x11, 0x08, 0, 0, 0x81, 0xFF, 0⟩, ⟨.icw2, 0x11, 0x70, 0, 0, 0, 0xFF, 0⟩⟩

/-- The mouse's request waits for its mask, the keyboard interrupts the mouse's handler, and the next
    request of the mouse waits for both handlers. -/
def nestedEvents : List PicEvent :=
  [.initializeIrqs, .request 12, .clearMask 1, .clearMask 2, .clearMask 12, .acknowledge,
    .request 1, .acknowledge, .request 12, .acknowledge, .sendEoi 1, .sendEoi 12, .acknowledge]

theorem pics_deliver_nested :
    (run Pics.step (picRemap 32 40 halfInitialised, []) nestedEvents).2 =
        (run Lines.step (.remapped 32 40) nestedEvents).delivered ∧
      ∀ irq < 16, PackedBits.test
        (run Pics.step (picRemap 32 40 halfInitialised, []) nestedEvents).1.imrs irq.toNat =
          (run Lines.step (.remapped 32 40) nestedEvents).mask irq :=
  pics_deliver rfl rfl (by decide +kernel)

/-- An event that takes an interrupt out of service. -/
def PicEvent.Ends : PicEvent → Prop
  | .sendEoi _ | .remap _ _ => True
  | _ => False

/-- While nothing is ended, what was delivered is what is in service. -/
theorem delivered_eq_serving {t : Lines} (hno : ∀ e ∈ events, ¬ e.Ends)
    (hstart : t.delivered = (t.serving.map fun i => (i, t.vector i)).reverse) :
    (run Lines.step t events).delivered =
        ((run Lines.step t events).serving.map fun i => (i, t.vector i)).reverse ∧
      (run Lines.step t events).vector = t.vector := by
  induction events generalizing t with
  | nil => exact ⟨hstart, rfl⟩
  | cons e events ih =>
      have hrest : ∀ e' ∈ events, ¬ e'.Ends := fun e' he' => hno e' (List.mem_cons_of_mem e he')
      have hstep : (t.step e).delivered =
          ((t.step e).serving.map fun i => (i, t.vector i)).reverse ∧
          (t.step e).vector = t.vector := by
        cases e with
        | request irq =>
            rw [Lines.step, Lines.request]
            split
            · exact ⟨hstart, rfl⟩
            · exact ⟨hstart, rfl⟩
        | acknowledge =>
            rw [Lines.step, Lines.acknowledge]
            split
            · refine ⟨?_, rfl⟩
              rw [List.map_cons, List.reverse_cons, ← hstart]
            · exact ⟨hstart, rfl⟩
        | remap offset1 offset2 => exact absurd trivial (hno _ List.mem_cons_self)
        | sendEoi irq => exact absurd trivial (hno _ List.mem_cons_self)
        | _ => exact ⟨hstart, rfl⟩
      obtain ⟨hdelivered, hvector⟩ := hstep
      rw [← hvector] at hdelivered
      obtain ⟨hlast, hsame⟩ := ih hrest hdelivered
      rw [run_cons, ← hvector]
      exact ⟨hlast, hsame⟩

/-- **Without an end of interrupt the delivered requests rise in priority**: no line delivers twice,
    and there are eight at most, each with the vector of its line. -/
theorem withoutEoi_rising (hmaster : s.master.isr = 0) (hslave : s.slave.isr = 0)
    (h : Guarded Lines.step Lines.Allowed (.remapped offset1 offset2) events)
    (hno : ∀ e ∈ events, ¬ e.Ends) :
    ((run Pics.step (picRemap offset1 offset2 s, []) events).2.Pairwise
        fun a b => masterLine b.1 < masterLine a.1) ∧
      (run Pics.step (picRemap offset1 offset2 s, []) events).2.length ≤ 8 ∧
      ∀ x ∈ (run Pics.step (picRemap offset1 offset2 s, []) events).2,
        x.1 < 16 ∧ x.2 = (Lines.remapped offset1 offset2).vector x.1 := by
  have hrep := represents_run hmaster hslave h
  obtain ⟨hserving, -⟩ := delivered_eq_serving (t := .remapped offset1 offset2) hno rfl
  rw [hrep.delivered, hserving]
  refine ⟨?_, ?_, ?_⟩
  · rw [List.pairwise_reverse, List.pairwise_map]
    exact hrep.rising
  · -- the lines of the first chip are different, and there are eight of them
    rw [List.length_reverse, List.length_map]
    have hnodup : ((run Lines.step (.remapped offset1 offset2) events).serving.map
        masterLine).Nodup :=
      List.pairwise_map.mpr (hrep.rising.imp Nat.ne_of_lt)
    have hsub : (run Lines.step (.remapped offset1 offset2) events).serving.map masterLine ⊆
        List.range 8 := by
      intro k hk
      obtain ⟨i, -, rfl⟩ := List.mem_map.mp hk
      exact List.mem_range.mpr (masterLine_lt i)
    have hle := (List.subperm_of_subset hnodup hsub).length_le
    rwa [List.length_map, List.length_range] at hle
  · intro x hx
    obtain ⟨i, hi, rfl⟩ := List.mem_map.mp (List.mem_reverse.mp hx)
    exact ⟨hrep.lines i hi, rfl⟩

/-- The lines of the keyboard and the mouse are open, as at boot, and both raise theirs twice. -/
def twiceEvents : List PicEvent :=
  [.initializeIrqs, .clearMask 1, .clearMask 2, .clearMask 12, .request 12, .acknowledge,
    .request 12, .acknowledge, .request 1, .acknowledge, .request 1, .acknowledge]

theorem withoutEoi_rising_boot :
    ((run Pics.step (picRemap 32 40 halfInitialised, []) twiceEvents).2.Pairwise
        fun a b => masterLine b.1 < masterLine a.1) ∧
      (run Pics.step (picRemap 32 40 halfInitialised, []) twiceEvents).2.length ≤ 8 ∧
      ∀ x ∈ (run Pics.step (picRemap 32 40 halfInitialised, []) twiceEvents).2,
        x.1 < 16 ∧ x.2 = (Lines.remapped 32 40).vector x.1 :=
  withoutEoi_rising rfl rfl (by decide +kernel) (by simp [twiceEvents, PicEvent.Ends])

/-- The mouse is served once, and the keyboard once. -/
example : (run Pics.step (picRemap 32 40 halfInitialised, []) twiceEvents).2 =
    [(12, 44), (1, 33)] := by decide +kernel

end Runs

end MapleKernel.Cpu
