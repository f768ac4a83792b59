/-
  File:      Firmware/MadtLayout.lean
  Subject:   THE FIELDS OF MADT RECORDS: the structures of `madt.hpp`, as the compiler lays them
             out, over records whose layout ACPI fixes.

  `parse_madt` reads a record through a structure of its type. The structures of types 0 and 1 are
  packed, the others are not; those of types 5 and 9 have no header, and begin with two bytes
  `reserved`.

  * `structOf`, `placeOf` -- the structures from the source, and where the i386 ABI puts a member;
  * `printedFields`, `readField` -- what `parse_madt` reads of a record;
  * `acpiFields` -- where ACPI puts the fields;
  * `readsAcpiFields_iff` -- the fields read are those of ACPI, and inside the record, for every
    content of a record of type 0, 1, 2 or 9, and for none of type 4.
-/
import MapleKernel.Lib.StructLayout
import MapleKernel.Firmware.Madt

namespace MapleKernel.Firmware

open StructLayout

/-! ## 1. The structures -/

/-- The members of the record structures. -/
inductive MadtMember where
  | header | reserved | flags
  | acpiProcessorId | apicId
  | ioApicId | ioApicAddress | globalSystemInterruptBase
  | busSource | irqSource | globalSystemInterrupt
  | nmiSource
  | lint
  | localApicAddress64b
  | processorLocalX2apicId | acpiId
  deriving DecidableEq, Repr

/-- `struct entry_header`: type and length. -/
def entryHeader : Struct Bool := ⟨true, [(false, uint8), (true, uint8)]⟩

/-- `struct entry_0_flags`: bit fields of one `uint32_t`. -/
def entry0Flags : Struct Unit := ⟨false, [((), uint32)]⟩

/-- `struct io_apic_iso_flags`: bit fields of one `uint16_t`. -/
def ioApicIsoFlags : Struct Unit := ⟨false, [((), uint16)]⟩

namespace EntryType

/-- `struct entry_processor_local_apic` to `struct entry_processor_local_x2apic`. -/
def structOf : EntryType → Struct MadtMember
  | .processorLocalApic =>
      ⟨true, [(.header, entryHeader.asMember), (.acpiProcessorId, uint8), (.apicId, uint8),
        (.flags, entry0Flags.asMember)]⟩
  | .ioApic =>
      ⟨true, [(.header, entryHeader.asMember), (.ioApicId, uint8), (.reserved, uint8),
        (.ioApicAddress, uint32), (.globalSystemInterruptBase, uint32)]⟩
  | .ioApicInterruptSourceOverride =>
      ⟨false, [(.header, entryHeader.asMember), (.busSource, uint8), (.irqSource, uint8),
        (.globalSystemInterrupt, uint32), (.flags, ioApicIsoFlags.asMember)]⟩
  | .ioApicNonMaskableInterruptSource =>
      ⟨false, [(.header, entryHeader.asMember), (.nmiSource, uint8), (.reserved, uint8),
        (.flags, uint16), (.globalSystemInterrupt, uint32)]⟩
  | .localApicNonMaskableInterrupt =>
      ⟨false, [(.header, entryHeader.asMember), (.acpiProcessorId, uint8), (.flags, uint16),
        (.lint, uint8)]⟩ -- `bool` is a byte
  | .localApicAddressOverride =>
      ⟨false, [(.reserved, uint16), (.localApicAddress64b, uint64)]⟩
  | .processorLocalX2apic =>
      ⟨false, [(.reserved, uint16), (.processorLocalX2apicId, uint32),
        (.flags, entry0Flags.asMember), (.acpiId, uint32)]⟩

/-- A field that `parse_madt` prints: a member, or a bit of it. -/
structure PrintedField where
  member : MadtMember
  bit : Option Nat
  deriving DecidableEq, Repr

def PrintedField.value (f : PrintedField) (word : Nat) : Nat :=
  match f.bit with
  | none => word
  | some i => word / 2 ^ i % 2

/-- The fields that `parse_madt` prints, in its order; `can_enable` and `online_capable` are the low
bits of `flags`. -/
def printedFields : EntryType → List PrintedField
  | .processorLocalApic =>
      [⟨.acpiProcessorId, none⟩, ⟨.apicId, none⟩, ⟨.flags, some 0⟩, ⟨.flags, some 1⟩,
        ⟨.flags, none⟩]
  | .ioApic => [⟨.ioApicId, none⟩, ⟨.ioApicAddress, none⟩, ⟨.globalSystemInterruptBase, none⟩]
  | .ioApicInterruptSourceOverride =>
      [⟨.busSource, none⟩, ⟨.irqSource, none⟩, ⟨.globalSystemInterrupt, none⟩, ⟨.flags, none⟩]
  | .ioApicNonMaskableInterruptSource =>
      [⟨.nmiSource, none⟩, ⟨.reserved, none⟩, ⟨.flags, none⟩, ⟨.globalSystemInterrupt, none⟩]
  | .localApicNonMaskableInterrupt => [⟨.acpiProcessorId, none⟩, ⟨.flags, none⟩, ⟨.lint, none⟩]
  | .localApicAddressOverride => [⟨.reserved, none⟩, ⟨.localApicAddress64b, none⟩]
  | .processorLocalX2apic =>
      [⟨.processorLocalX2apicId, none⟩, ⟨.flags, some 0⟩, ⟨.flags, some 1⟩, ⟨.acpiId, none⟩]

/-- Offset and size of a member of the structure. -/
def placeOf (t : EntryType) (m : MadtMember) : Nat × Nat := (t.structOf.place m).getD (0, 0)

/-- The structure has every member that is printed. -/
theorem place_of_printed {t : EntryType} {f : PrintedField} (hf : f ∈ t.printedFields) :
    t.structOf.place f.member = some (t.placeOf f.member) := by
  have hall : ∀ t : EntryType, ∀ f ∈ t.printedFields,
      t.structOf.place f.member = some (t.placeOf f.member) := by
    intro t
    cases t <;> decide
  exact hall t f hf

/-- Offsets and sizes of the fields that `parse_madt` reads are those of the layout. -/
theorem mem_fields_iff (t : EntryType) (p : Nat × Nat) :
    p ∈ t.fields ↔ ∃ f ∈ t.printedFields, t.placeOf f.member = p := by
  have hmap : ∀ t : EntryType,
      t.fields = (t.printedFields.map fun f => t.placeOf f.member).dedup := by
    intro t
    cases t <;> decide
  rw [hmap, List.mem_dedup, List.mem_map]

/-- No field is read behind the end of the structure. -/
theorem field_le_extent {t : EntryType} {p : Nat × Nat} (hp : p ∈ t.fields) :
    p.1 + p.2 ≤ t.structOf.extent := by
  obtain ⟨f, hf, rfl⟩ := (t.mem_fields_iff p).mp hp
  exact Struct.place_end_le (place_of_printed hf)

end EntryType

/-! ## 2. Words of several bytes -/

/-- An integer of `n` bytes at `a`, as the processor loads it. -/
def Memory.load (mem : Memory) (a : UInt32) (n : Nat) : Nat :=
  match n with
  | 1 => (mem a).toNat
  | 2 => (mem.read16 a).toNat
  | 4 => (mem.read32 a).toNat
  | 8 => (mem.read32 a).toNat + 2 ^ 32 * (mem.read32 (a + 4)).toNat
  | _ => 0

/-- The little-endian value of the `n` bytes at `a`. -/
def Memory.littleEndian (mem : Memory) (a : UInt32) (n : Nat) : Nat :=
  Nat.ofDigits 256 ((List.range n).map fun i => (mem (a + .ofNat i)).toNat)

section Words

variable (mem : Memory) (a : UInt32)

/-- A low and a high part, put together. -/
theorem or_shiftLeft_eq_add {low high k : Nat} (hlow : low < 2 ^ k) :
    low ||| high <<< k = low + 2 ^ k * high := by
  rw [Nat.or_comm, ← Nat.shiftLeft_add_eq_or_of_lt hlow, Nat.shiftLeft_eq, Nat.mul_comm,
    Nat.add_comm]

theorem toNat_read16 : (mem.read16 a).toNat = (mem a).toNat + 2 ^ 8 * (mem (a + 1)).toNat := by
  have hhigh := (mem (a + 1)).toNat_lt
  have hshift : ((mem (a + 1)).toUInt16 <<< 8).toNat = (mem (a + 1)).toNat <<< 8 := by
    rw [UInt16.toNat_shiftLeft, UInt8.toNat_toUInt16]
    refine Nat.mod_eq_of_lt ?_
    show (mem (a + 1)).toNat <<< 8 < 2 ^ 16
    rw [Nat.shiftLeft_eq]
    omega
  rw [Memory.read16, UInt16.toNat_or, UInt8.toNat_toUInt16, hshift]
  exact or_shiftLeft_eq_add (mem a).toNat_lt

theorem toNat_read32 :
    (mem.read32 a).toNat = (mem.read16 a).toNat + 2 ^ 16 * (mem.read16 (a + 2)).toNat := by
  have hhigh := (mem.read16 (a + 2)).toNat_lt
  have hshift : ((mem.read16 (a + 2)).toUInt32 <<< 16).toNat =
      (mem.read16 (a + 2)).toNat <<< 16 := by
    rw [UInt32.toNat_shiftLeft, UInt16.toNat_toUInt32]
    refine Nat.mod_eq_of_lt ?_
    show (mem.read16 (a + 2)).toNat <<< 16 < 2 ^ 32
    rw [Nat.shiftLeft_eq]
    omega
  rw [Memory.read32, UInt32.toNat_or, UInt16.toNat_toUInt32, hshift]
  exact or_shiftLeft_eq_add (mem.read16 a).toNat_lt

/-- The bytes of a number in two pieces. -/
theorem littleEndian_add (m n : Nat) :
    mem.littleEndian a (m + n) =
      mem.littleEndian a m + 256 ^ m * mem.littleEndian (a + .ofNat m) n := by
  have hsecond : ((List.range n).map fun i => (mem (a + .ofNat (m + i))).toNat) =
      (List.range n).map fun i => (mem (a + .ofNat m + .ofNat i)).toNat := by
    refine List.map_congr_left fun i _ => ?_
    rw [UInt32.ofNat_add, UInt32.add_assoc]
  rw [Memory.littleEndian, List.range_add, List.map_append, List.map_map, Nat.ofDigits_append,
    List.length_map, List.length_range]
  exact congrArg (fun l => mem.littleEndian a m + 256 ^ m * Nat.ofDigits 256 l) hsecond

theorem littleEndian_one : mem.littleEndian a 1 = (mem a).toNat := by
  have haddr : a + .ofNat 0 = a := UInt32.add_zero a
  rw [Memory.littleEndian, List.range_one, List.map_singleton, haddr, Nat.ofDigits_singleton]

theorem littleEndian_two : mem.littleEndian a 2 = (mem.read16 a).toNat := by
  rw [littleEndian_add mem a 1 1, littleEndian_one, littleEndian_one, toNat_read16]
  rfl

theorem littleEndian_four : mem.littleEndian a 4 = (mem.read32 a).toNat := by
  rw [littleEndian_add mem a 2 2, littleEndian_two, littleEndian_two, toNat_read32]
  rfl

/-- **A load returns the little-endian value** of its bytes. -/
theorem load_eq_littleEndian {n : Nat} (hn : n ∈ [1, 2, 4, 8]) :
    mem.load a n = mem.littleEndian a n := by
  simp only [List.mem_cons, List.not_mem_nil, or_false] at hn
  rcases hn with rfl | rfl | rfl | rfl
  · exact (littleEndian_one mem a).symm
  · exact (littleEndian_two mem a).symm
  · exact (littleEndian_four mem a).symm
  · rw [littleEndian_add mem a 4 4, littleEndian_four, littleEndian_four]
    rfl

end Words

/-! ## 3. Records -/

/-- The value of a printed field in the record at `a`. -/
def readField (mem : Memory) (a : UInt32) (t : EntryType) (f : EntryType.PrintedField) : Nat :=
  let p := t.placeOf f.member
  f.value (mem.load (a + .ofNat p.1) p.2)

/-- Where ACPI puts a field: its first byte and the number of its bytes, for the record types whose
layout is fixed here. -/
def acpiFields : EntryType → List (MadtMember × Nat × Nat)
  | .processorLocalApic => [(.acpiProcessorId, 2, 1), (.apicId, 3, 1), (.flags, 4, 4)]
  | .ioApic => [(.ioApicId, 2, 1), (.ioApicAddress, 4, 4), (.globalSystemInterruptBase, 8, 4)]
  | .ioApicInterruptSourceOverride =>
      [(.busSource, 2, 1), (.irqSource, 3, 1), (.globalSystemInterrupt, 4, 4), (.flags, 8, 2)]
  | .localApicNonMaskableInterrupt => [(.acpiProcessorId, 2, 1), (.flags, 3, 2), (.lint, 5, 1)]
  | .processorLocalX2apic =>
      [(.processorLocalX2apicId, 4, 4), (.flags, 8, 4), (.acpiId, 12, 4)]
  | .ioApicNonMaskableInterruptSource | .localApicAddressOverride => []

/-- The length of these records. -/
def acpiLength : EntryType → UInt8
  | .processorLocalApic => 8
  | .ioApic => 12
  | .ioApicInterruptSourceOverride => 10
  | .localApicNonMaskableInterrupt => 6
  | .processorLocalX2apic => 16
  | .ioApicNonMaskableInterruptSource | .localApicAddressOverride => 0

/-- The record types with a layout in `acpiFields`. -/
def acpiTypes : List EntryType :=
  [.processorLocalApic, .ioApic, .ioApicInterruptSourceOverride, .localApicNonMaskableInterrupt,
    .processorLocalX2apic]

/-- A record of type `t` stands at `a`, with any content. -/
structure RecordAt (mem : Memory) (a : UInt32) (t : EntryType) : Prop where
  known : t ∈ acpiTypes
  type : mem a = t.value
  length : mem (a + 1) = acpiLength t

/-- **What `parse_madt` reads of a record are the fields of ACPI**, and no byte behind it. -/
structure ReadsAcpiFields (mem : Memory) (a : UInt32) (t : EntryType) : Prop where
  values : ∀ f ∈ t.printedFields, ∃ p, (acpiFields t).lookup f.member = some p ∧
    readField mem a t f = f.value (mem.littleEndian (a + .ofNat p.1) p.2)
  inside : ∀ p ∈ fieldsOf (mem a), p.1 + p.2 ≤ (mem (a + 1)).toNat

section Records

variable {mem : Memory} {a : UInt32} {t : EntryType}

/-- But for type 4 the compiler places the members that are printed where ACPI puts the fields. -/
theorem placeOf_eq_acpi (ht : t ∈ acpiTypes) (hne : t ≠ .localApicNonMaskableInterrupt)
    {f : EntryType.PrintedField} (hf : f ∈ t.printedFields) :
    (acpiFields t).lookup f.member = some (t.placeOf f.member) ∧
      (t.placeOf f.member).2 ∈ [1, 2, 4, 8] := by
  have hall : ∀ t ∈ acpiTypes, t ≠ .localApicNonMaskableInterrupt → ∀ f ∈ t.printedFields,
      (acpiFields t).lookup f.member = some (t.placeOf f.member) ∧
        (t.placeOf f.member).2 ∈ [1, 2, 4, 8] := by
    decide
  exact hall t ht hne f hf

theorem fieldsOf_value (t : EntryType) : fieldsOf t.value = headerFields ++ t.fields := by
  rw [fieldsOf, EntryType.ofByte_value]
  rfl

/-- No byte behind the record is read, but for type 4: there `LINT` is read behind its end. -/
theorem RecordAt.inside_iff (h : RecordAt mem a t) :
    (∀ p ∈ fieldsOf (mem a), p.1 + p.2 ≤ (mem (a + 1)).toNat) ↔
      t ≠ .localApicNonMaskableInterrupt := by
  have hextent : ∀ t ∈ acpiTypes, t ≠ .localApicNonMaskableInterrupt →
      2 ≤ t.structOf.extent ∧ t.structOf.extent ≤ (acpiLength t).toNat := by
    decide
  rw [h.type, h.length, fieldsOf_value]
  constructor
  · rintro hall rfl
    exact absurd (hall (6, 1) (by decide)) (by decide)
  · intro hne p hp
    obtain ⟨htwo, hlength⟩ := hextent t h.known hne
    rcases List.mem_append.mp hp with hheader | hfield
    · have hend : ∀ p ∈ headerFields, p.1 + p.2 ≤ 2 := by decide
      exact ((hend p hheader).trans htwo).trans hlength
    · exact (EntryType.field_le_extent hfield).trans hlength

/-- A record of type 4 is read behind its fields: `flags` from the second byte of `flags` and the
byte of `LINT`, and `LINT` from the byte behind the record. -/
theorem readField_localApicNmi (mem : Memory) (a : UInt32) :
    readField mem a .localApicNonMaskableInterrupt ⟨.flags, none⟩ = mem.littleEndian (a + 4) 2 ∧
      readField mem a .localApicNonMaskableInterrupt ⟨.lint, none⟩ =
        mem.littleEndian (a + 6) 1 := by
  have hflags : EntryType.localApicNonMaskableInterrupt.placeOf .flags = (4, 2) := by decide
  have hlint : EntryType.localApicNonMaskableInterrupt.placeOf .lint = (6, 1) := by decide
  rw [readField, readField, hflags, hlint, ← load_eq_littleEndian mem _ (by decide),
    ← load_eq_littleEndian mem _ (by decide)]
  exact ⟨rfl, rfl⟩

/-- **The fields read of a record are those of ACPI** exactly when it is not of type 4. -/
theorem readsAcpiFields_iff (h : RecordAt mem a t) :
    ReadsAcpiFields mem a t ↔ t ≠ .localApicNonMaskableInterrupt := by
  constructor
  · intro hreads
    exact h.inside_iff.mp hreads.inside
  · intro hne
    refine ⟨fun f hf => ?_, h.inside_iff.mpr hne⟩
    obtain ⟨hplace, hsize⟩ := placeOf_eq_acpi h.known hne hf
    refine ⟨t.placeOf f.member, hplace, ?_⟩
    exact congrArg f.value (load_eq_littleEndian mem _ hsize)

end Records

/-- A record of type 9. -/
theorem readsAcpiFields_iff_x2apic :
    ReadsAcpiFields (bytesAt 0 [9, 16, 0, 0, 0x21, 0x43, 0, 0, 1, 0, 0, 0, 7, 0, 0, 0]) 0
      .processorLocalX2apic :=
  (readsAcpiFields_iff ⟨by decide, by decide, by decide⟩).mpr (by decide)

/-- The record that sets `LINT` 1 of all processors: `flags` 0 is read as 256, and `LINT` as 0. -/
theorem readsAcpiFields_allProcessors :
    RecordAt (bytesAt 0 [4, 6, 0xFF, 0, 0, 1]) 0 .localApicNonMaskableInterrupt ∧
      (bytesAt 0 [4, 6, 0xFF, 0, 0, 1]).littleEndian 3 2 = 0 ∧
      readField (bytesAt 0 [4, 6, 0xFF, 0, 0, 1]) 0 .localApicNonMaskableInterrupt
        ⟨.flags, none⟩ = 256 ∧
      (bytesAt 0 [4, 6, 0xFF, 0, 0, 1]).littleEndian 5 1 = 1 ∧
      readField (bytesAt 0 [4, 6, 0xFF, 0, 0, 1]) 0 .localApicNonMaskableInterrupt
        ⟨.lint, none⟩ = 0 ∧
      ¬ ReadsAcpiFields (bytesAt 0 [4, 6, 0xFF, 0, 0, 1]) 0 .localApicNonMaskableInterrupt := by
  obtain ⟨hflags, hlint⟩ :=
    readField_localApicNmi (bytesAt 0 [4, 6, 0xFF, 0, 0, 1]) 0
  refine ⟨⟨by decide, by decide, by decide⟩, by decide, hflags.trans (by decide), by decide,
    hlint.trans (by decide), ?_⟩
  intro h
  exact absurd (h.inside (6, 1) (by decide)) (by decide)

end MapleKernel.Firmware
