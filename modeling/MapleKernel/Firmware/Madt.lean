/-
  File:      Firmware/Madt.lean
  Subject:   THE MADT (`madt.cpp`, `madt.hpp`): a fixed part and a list of records, each with its
             type and its length, that two loops walk over.

  `get_count` counts the records of the seven known types; `parse_madt` prints their fields and
  stores their addresses in seven arrays. Both trust the table: the number of records of a type is
  not held against the size of its array, and a record is read as its type says, whatever length
  it states and wherever the table ends.

  * `parseMadtBody`, `getCountBody` -- one round of each loop, from the source; `reads` and `stores`
    are ghost data;
  * `Tiles` -- a table as the list of its records;
  * `parseMadt_complete` -- on a tiled table whose records fit into the arrays both loops return the
    records of each type, in order;
  * `madt_circle_iff` -- on any table, unless it ends at the last addresses, a loop that does not
    end is at a record of length 0;
  * `staysInside_iff` -- on any table, `parse_madt` stays inside its arrays and the table exactly
    when the records of each type fit into its array and each record has room for its fields.
-/
import MapleKernel.Lib.Iterate
import MapleKernel.Firmware.Memory

namespace MapleKernel.Firmware

open Iteration

/-! ## 1. Record types -/

/-- `enum class EntryType`. -/
inductive EntryType where
  | processorLocalApic | ioApic | ioApicInterruptSourceOverride
  | ioApicNonMaskableInterruptSource | localApicNonMaskableInterrupt
  | localApicAddressOverride | processorLocalX2apic
  deriving DecidableEq, Repr

namespace EntryType

def value : EntryType → UInt8
  | .processorLocalApic => 0
  | .ioApic => 1
  | .ioApicInterruptSourceOverride => 2
  | .ioApicNonMaskableInterruptSource => 3
  | .localApicNonMaskableInterrupt => 4
  | .localApicAddressOverride => 5
  | .processorLocalX2apic => 9

/-- The case of the `switch` for a type byte; `none` is the default. -/
def ofByte (b : UInt8) : Option EntryType :=
  match b.toNat with
  | 0 => some .processorLocalApic
  | 1 => some .ioApic
  | 2 => some .ioApicInterruptSourceOverride
  | 3 => some .ioApicNonMaskableInterruptSource
  | 4 => some .localApicNonMaskableInterrupt
  | 5 => some .localApicAddressOverride
  | 9 => some .processorLocalX2apic
  | _ => none

/-- The `MAX_...` constants: slots of the arrays of `MADTParseResult`. -/
def max : EntryType → Nat
  | .processorLocalApic => 16
  | .ioApic => 8
  | .ioApicInterruptSourceOverride => 32
  | .ioApicNonMaskableInterruptSource => 16
  | .localApicNonMaskableInterrupt => 16
  | .localApicAddressOverride => 2
  | .processorLocalX2apic => 16

/-- Offset and size of the fields that `parse_madt` reads of a record. Only the first two structures
are packed; the last two have no header of their own, and 64-bit fields are aligned to 4 bytes. -/
def fields : EntryType → List (Nat × Nat)
  | .processorLocalApic => [(2, 1), (3, 1), (4, 4)]
  | .ioApic => [(2, 1), (4, 4), (8, 4)]
  | .ioApicInterruptSourceOverride => [(2, 1), (3, 1), (4, 4), (8, 2)]
  | .ioApicNonMaskableInterruptSource => [(2, 1), (3, 1), (4, 2), (8, 4)]
  | .localApicNonMaskableInterrupt => [(2, 1), (4, 2), (6, 1)]
  | .localApicAddressOverride => [(0, 2), (4, 8)]
  | .processorLocalX2apic => [(4, 4), (8, 4), (12, 4)]

/-- The bytes of a record up to its last field. -/
def extent : EntryType → Nat
  | .processorLocalApic => 8
  | .ioApic => 12
  | .ioApicInterruptSourceOverride => 10
  | .ioApicNonMaskableInterruptSource => 12
  | .localApicNonMaskableInterrupt => 7
  | .localApicAddressOverride => 12
  | .processorLocalX2apic => 16

@[simp] theorem ofByte_value (t : EntryType) : ofByte t.value = some t := by cases t <;> rfl

end EntryType

/-- Type and length of a record. -/
def headerFields : List (Nat × Nat) := [(0, 1), (1, 1)]

/-- What is read of a record with the given type byte. -/
def fieldsOf (type : UInt8) : List (Nat × Nat) :=
  headerFields ++ ((EntryType.ofByte type).map EntryType.fields).getD []

/-- The bytes up to the last of them. -/
def extentOf (type : UInt8) : Nat := ((EntryType.ofByte type).map EntryType.extent).getD 2

theorem fieldsOf_le_iff (type : UInt8) (o n : Nat) :
    (∀ f ∈ fieldsOf type, o + f.1 + f.2 ≤ n) ↔ o + extentOf type ≤ n := by
  rw [fieldsOf, extentOf]
  cases EntryType.ofByte type with
  | none =>
      simp [headerFields]
      omega
  | some t =>
      cases t <;> simp [headerFields, EntryType.fields, EntryType.extent] <;> omega

/-! ## 2. The loops -/

/-- `MADTEntryCount`, by type. -/
abbrev MadtEntryCount := EntryType → UInt32

def MadtEntryCount.zero : MadtEntryCount := fun _ => 0

def MadtEntryCount.increment (c : MadtEntryCount) (t : EntryType) : MadtEntryCount :=
  fun t' => if t' = t then c t' + 1 else c t'

@[simp] theorem increment_self (c : MadtEntryCount) (t : EntryType) :
    c.increment t t = c t + 1 := if_pos rfl

@[simp] theorem increment_of_ne (c : MadtEntryCount) {t t' : EntryType} (h : t' ≠ t) :
    c.increment t t' = c t' := if_neg h

/-- `header.Length`. -/
def madtLength (mem : Memory) (madt : UInt32) : UInt32 := mem.read32 (madt + 4)

/-- The size of the fixed part. -/
def madtFixed : UInt32 := 44

/-- `&madt->entries[0]`. -/
def madtEntries (madt : UInt32) : UInt32 := madt + madtFixed

def madtEnd (mem : Memory) (madt : UInt32) : UInt32 := madt + madtLength mem madt

structure CountState where
  ptr : UInt32
  count : MadtEntryCount

def getCountBody (mem : Memory) (madt : UInt32) (s : CountState) : CountState ⊕ MadtEntryCount :=
  if s.ptr < madtEnd mem madt then
    let type := mem s.ptr
    let recordLength := mem (s.ptr + 1)
    .inl
      { ptr := s.ptr + recordLength.toUInt32
        count := match EntryType.ofByte type with
          | some t => s.count.increment t
          | none => s.count }
  else .inr s.count

/-- `get_count` returns `r`. -/
def GetCount (mem : Memory) (madt : UInt32) (r : MadtEntryCount) : Prop :=
  Returns (getCountBody mem madt) ⟨madtEntries madt, .zero⟩ r

/-- `MADTParseResult`; a slot of an array is `none` until a pointer is stored in it. -/
structure MadtParseResult where
  entryCounts : MadtEntryCount
  slots : EntryType → Nat → Option UInt32

/-- The locals of `parse_madt`. Ghost data: `reads` are the record and the offset and size of each
field that was read, `stores` the array and the index of each store. -/
structure ParseState where
  ptr : UInt32
  entryWriteIdx : MadtEntryCount
  slots : EntryType → Nat → Option UInt32
  reads : List (UInt32 × Nat × Nat)
  stores : List (EntryType × Nat)

def ParseState.start (madt : UInt32) : ParseState :=
  ⟨madtEntries madt, .zero, fun _ _ => none, [], []⟩

/-- `ret.array[entry_write_idx.type] = entry; entry_write_idx.type++`. -/
def ParseState.store (s : ParseState) (t : EntryType) : ParseState :=
  let idx := (s.entryWriteIdx t).toNat
  { s with
    slots := fun t' k => if t' = t ∧ k = idx then some s.ptr else s.slots t' k
    entryWriteIdx := s.entryWriteIdx.increment t
    stores := s.stores ++ [(t, idx)] }

def parseMadtBody (mem : Memory) (madt : UInt32) (s : ParseState) : ParseState ⊕ MadtParseResult :=
  if s.ptr < madtEnd mem madt then
    let type := mem s.ptr
    let recordLength := mem (s.ptr + 1)
    let s := { s with reads := s.reads ++ (fieldsOf type).map fun f => (s.ptr, f) }
    let s := match EntryType.ofByte type with
      | some t => s.store t
      | none => s
    .inl { s with ptr := s.ptr + recordLength.toUInt32 }
  else .inr ⟨s.entryWriteIdx, s.slots⟩

/-- `parse_madt` returns `r`. -/
def ParseMadt (mem : Memory) (madt : UInt32) (r : MadtParseResult) : Prop :=
  Returns (parseMadtBody mem madt) (.start madt) r

/-! ## 3. Tables as lists of records -/

/-- The header of a record. -/
structure EntryRecord where
  type : UInt8
  length : UInt8
  deriving DecidableEq, Repr

/-- The records stand one behind the other from address `a` on. -/
def RecordsAt (mem : Memory) : Nat → List EntryRecord → Prop
  | _, [] => True
  | a, r :: rs =>
      mem (.ofNat a) = r.type ∧ mem (.ofNat (a + 1)) = r.length ∧ 2 ≤ r.length.toNat ∧
        RecordsAt mem (a + r.length.toNat) rs

def sizeOfRecords (rs : List EntryRecord) : Nat := (rs.map fun r => r.length.toNat).sum

@[simp] theorem sizeOfRecords_cons (r : EntryRecord) (rs : List EntryRecord) :
    sizeOfRecords (r :: rs) = r.length.toNat + sizeOfRecords rs := List.sum_cons

/-- **The table is tiled by its records**, from the fixed part to `header.Length`. -/
structure Tiles (mem : Memory) (madt : UInt32) (rs : List EntryRecord) : Prop where
  noWrap : madt.toNat + (madtLength mem madt).toNat < 2 ^ 32
  records : RecordsAt mem (madt.toNat + madtFixed.toNat) rs
  size : madtFixed.toNat + sizeOfRecords rs = (madtLength mem madt).toNat

/-- The addresses of the records of a type, in the order of the table. -/
def recordsOf (t : EntryType) : Nat → List EntryRecord → List UInt32
  | _, [] => []
  | a, r :: rs =>
      if EntryType.ofByte r.type = some t then .ofNat a :: recordsOf t (a + r.length.toNat) rs
      else recordsOf t (a + r.length.toNat) rs

section Records

variable {mem : Memory} {madt : UInt32} {a : Nat} {r : EntryRecord} {rs : List EntryRecord}

theorem madtEntries_eq (madt : UInt32) :
    madtEntries madt = .ofNat (madt.toNat + madtFixed.toNat) := by
  rw [UInt32.ofNat_add, UInt32.ofNat_toNat, UInt32.ofNat_toNat]
  rfl

theorem Tiles.end_eq (h : Tiles mem madt rs) :
    madt.toNat + madtFixed.toNat + sizeOfRecords rs = (madtEnd mem madt).toNat := by
  rw [Nat.add_assoc, h.size, madtEnd, UInt32.toNat_add, Nat.mod_eq_of_lt h.noWrap]

/-- What both loops see of a record: it begins before the end, and the next one behind it. -/
theorem RecordsAt.round (h : RecordsAt mem a (r :: rs))
    (hend : a + sizeOfRecords (r :: rs) = (madtEnd mem madt).toNat) :
    (UInt32.ofNat a < madtEnd mem madt) ∧ mem (.ofNat a) = r.type ∧
      UInt32.ofNat a + (mem (.ofNat a + 1)).toUInt32 = .ofNat (a + r.length.toNat) ∧
      RecordsAt mem (a + r.length.toNat) rs ∧
      a + r.length.toNat + sizeOfRecords rs = (madtEnd mem madt).toNat := by
  obtain ⟨htype, hlength, htwo, hrest⟩ := h
  have hlt := (madtEnd mem madt).toNat_lt
  rw [sizeOfRecords_cons] at hend
  have hone : UInt32.ofNat a + 1 = .ofNat (a + 1) := (UInt32.ofNat_add a 1).symm
  refine ⟨?_, htype, ?_, hrest, by omega⟩
  · rw [UInt32.lt_iff_toNat_lt, toNat_ofNat_of_lt (by omega)]
    omega
  · have hbyte : r.length.toUInt32 = .ofNat r.length.toNat :=
      UInt32.toNat.inj (by rw [toNat_ofNat_of_lt (by omega), UInt8.toNat_toUInt32])
    rw [hone, hlength, UInt32.ofNat_add, hbyte]

theorem not_lt_end (hend : a + sizeOfRecords [] = (madtEnd mem madt).toNat) :
    ¬ UInt32.ofNat a < madtEnd mem madt := by
  have ha : a = (madtEnd mem madt).toNat := hend
  rw [ha, UInt32.ofNat_toNat]
  exact UInt32.lt_irrefl _

/-- A round of `get_count` counts the record that it is at. -/
theorem getCount_round (h : RecordsAt mem a (r :: rs))
    (hend : a + sizeOfRecords (r :: rs) = (madtEnd mem madt).toNat) (c : MadtEntryCount) :
    getCountBody mem madt ⟨.ofNat a, c⟩ =
      .inl ⟨.ofNat (a + r.length.toNat), match EntryType.ofByte r.type with
        | some t => c.increment t
        | none => c⟩ := by
  obtain ⟨hlt, htype, hnext, -, -⟩ := h.round hend
  rw [getCountBody, if_pos hlt]
  dsimp only
  rw [htype, hnext]

/-- `get_count` adds the records of each type. -/
theorem getCount_records (h : RecordsAt mem a rs)
    (hend : a + sizeOfRecords rs = (madtEnd mem madt).toNat) (c : MadtEntryCount) :
    Returns (getCountBody mem madt) ⟨.ofNat a, c⟩
      fun t => c t + .ofNat (recordsOf t a rs).length := by
  induction rs generalizing a c with
  | nil =>
      have hbody : getCountBody mem madt ⟨.ofNat a, c⟩ = .inr c := if_neg (not_lt_end hend)
      have hzero : (fun t => c t + UInt32.ofNat (recordsOf t a []).length) = c := by
        funext t
        exact UInt32.add_zero _
      rw [hzero]
      exact returns_of_inr hbody
  | cons r rs ih =>
      obtain ⟨-, -, -, hrest, hend'⟩ := h.round hend
      rw [returns_of_inl (getCount_round h hend c)]
      cases hr : EntryType.ofByte r.type with
      | none => simpa only [recordsOf, hr, reduceCtorEq, if_false] using ih hrest hend' c
      | some t' =>
          convert ih hrest hend' (c.increment t') using 1
          funext t
          rw [recordsOf, hr]
          by_cases ht : t = t'
          · rw [ht, if_pos rfl, List.length_cons, UInt32.ofNat_add, increment_self,
              UInt32.add_assoc, UInt32.add_comm (.ofNat _)]
            rfl
          · rw [if_neg fun h => ht (Option.some.inj h).symm, increment_of_ne c ht]

/-- The arrays hold the addresses found so far. -/
def ParseState.Holds (s : ParseState) (found : EntryType → List UInt32) : Prop :=
  ∀ t, s.entryWriteIdx t = .ofNat (found t).length ∧ ∀ k, s.slots t k = (found t)[k]?

/-- A store appends to its array. -/
theorem ParseState.Holds.store {s : ParseState} {found : EntryType → List UInt32}
    (h : s.Holds found) {t : EntryType} (hlen : (found t).length < 2 ^ 32) :
    (s.store t).Holds fun t' => if t' = t then found t' ++ [s.ptr] else found t' := by
  intro t'
  obtain ⟨hidx, hslots⟩ := h t'
  by_cases ht : t' = t
  · subst ht
    have hk : (s.entryWriteIdx t').toNat = (found t').length := by
      rw [hidx, toNat_ofNat_of_lt hlen]
    simp only [ParseState.store, MadtEntryCount.increment, if_true, true_and, hk]
    have hnext : s.entryWriteIdx t' + 1 = .ofNat (found t' ++ [s.ptr]).length := by
      rw [hidx, List.length_append, List.length_singleton, UInt32.ofNat_add]
      rfl
    refine ⟨hnext, fun k => ?_⟩
    by_cases hlt : k < (found t').length
    · rw [if_neg (by omega), hslots, List.getElem?_append_left hlt]
    · rw [List.getElem?_append_right (not_lt.mp hlt)]
      by_cases heq : k = (found t').length
      · rw [if_pos heq, heq, Nat.sub_self]
        rfl
      · rw [if_neg heq, hslots, List.getElem?_eq_none (not_lt.mp hlt),
          List.getElem?_eq_none (by rw [List.length_singleton]; omega)]
  · simp only [ParseState.store, MadtEntryCount.increment, ht, false_and, if_false]
    exact ⟨hidx, hslots⟩

theorem max_lt (t : EntryType) : t.max < 2 ^ 32 := by cases t <;> decide

/-- The addresses found so far, with the record at `a`. -/
def withRecord (found : EntryType → List UInt32) (r : EntryRecord) (a : Nat) :
    EntryType → List UInt32 :=
  fun t => if EntryType.ofByte r.type = some t then found t ++ [.ofNat a] else found t

theorem withRecord_append (found : EntryType → List UInt32) (r : EntryRecord) (a : Nat)
    (rs : List EntryRecord) (t : EntryType) :
    withRecord found r a t ++ recordsOf t (a + r.length.toNat) rs =
      found t ++ recordsOf t a (r :: rs) := by
  rw [withRecord, recordsOf]
  split
  · rw [List.append_assoc]
    rfl
  · rfl

/-- A round of `parse_madt` stores the record that it is at. -/
theorem parseMadt_round (h : RecordsAt mem a (r :: rs))
    (hend : a + sizeOfRecords (r :: rs) = (madtEnd mem madt).toNat) {s : ParseState}
    (hptr : s.ptr = .ofNat a) {found : EntryType → List UInt32} (hs : s.Holds found)
    (hlen : ∀ t, (found t).length < 2 ^ 32) :
    ∃ s', parseMadtBody mem madt s = .inl s' ∧ s'.ptr = .ofNat (a + r.length.toNat) ∧
      s'.Holds (withRecord found r a) := by
  obtain ⟨hlt, htype, hnext, -, -⟩ := h.round hend
  refine ⟨_, by rw [parseMadtBody, hptr, if_pos hlt], ?_⟩
  cases hr : EntryType.ofByte r.type with
  | none =>
      have hfound : withRecord found r a = found := by
        funext t
        exact if_neg (by rw [hr]; exact nofun)
      simp only [htype, hr, hfound]
      exact ⟨hnext, hs⟩
  | some t' =>
      -- the record goes to the end of its array
      have hfound : withRecord found r a =
          fun t => if t = t' then found t ++ [UInt32.ofNat a] else found t := by
        funext t
        simp only [withRecord, hr, Option.some.injEq, eq_comm]
      simp only [htype, hr, hfound]
      exact ⟨hnext, ParseState.Holds.store (s := ⟨.ofNat a, s.entryWriteIdx, s.slots,
        s.reads ++ (fieldsOf r.type).map fun f => (UInt32.ofNat a, f), s.stores⟩) hs (hlen t')⟩

/-- `parse_madt` stores the records of each type behind those that it found before. -/
theorem parseMadt_records (h : RecordsAt mem a rs)
    (hend : a + sizeOfRecords rs = (madtEnd mem madt).toNat) {s : ParseState}
    (hptr : s.ptr = .ofNat a) {found : EntryType → List UInt32} (hs : s.Holds found)
    (hmax : ∀ t, (found t ++ recordsOf t a rs).length ≤ t.max) :
    ∃ r, Returns (parseMadtBody mem madt) s r ∧
      ∀ t, r.entryCounts t = .ofNat (found t ++ recordsOf t a rs).length ∧
        ∀ k, r.slots t k = (found t ++ recordsOf t a rs)[k]? := by
  induction rs generalizing a s found with
  | nil =>
      have hbody : parseMadtBody mem madt s = .inr ⟨s.entryWriteIdx, s.slots⟩ := by
        rw [parseMadtBody, hptr, if_neg (not_lt_end hend)]
      refine ⟨_, returns_of_inr hbody, fun t => ?_⟩
      rw [recordsOf, List.append_nil]
      exact hs t
  | cons r rs ih =>
      obtain ⟨-, -, -, hrest, hend'⟩ := h.round hend
      have hlen : ∀ t, (found t).length < 2 ^ 32 := by
        intro t
        have hle := hmax t
        rw [List.length_append] at hle
        exact (Nat.le_of_add_right_le hle).trans_lt (max_lt t)
      obtain ⟨s', hbody, hptr', hs'⟩ := parseMadt_round h hend hptr hs hlen
      simp only [← withRecord_append] at hmax ⊢
      simp only [returns_of_inl hbody]
      exact ih hrest hend' hptr' hs' hmax

end Records

/-- The result is the records of each type, in order. -/
structure MadtParseResult.HoldsRecords (r : MadtParseResult) (madt : UInt32)
    (rs : List EntryRecord) : Prop where
  count : ∀ t, (r.entryCounts t).toNat = (recordsOf t (madt.toNat + madtFixed.toNat) rs).length
  slots : ∀ t k, r.slots t k = (recordsOf t (madt.toNat + madtFixed.toNat) rs)[k]?

/-- The records of each type fit into its array. -/
def RecordsFit (madt : UInt32) (rs : List EntryRecord) : Prop :=
  ∀ t, (recordsOf t (madt.toNat + madtFixed.toNat) rs).length ≤ t.max

theorem Tiles.parsed {mem : Memory} {madt : UInt32} {rs : List EntryRecord} (h : Tiles mem madt rs)
    (hmax : RecordsFit madt rs) : ∃ r, ParseMadt mem madt r ∧ r.HoldsRecords madt rs := by
  have hstart : (ParseState.start madt).Holds fun _ => [] := fun t => ⟨rfl, fun k => rfl⟩
  obtain ⟨r, hr, hfound⟩ := parseMadt_records h.records h.end_eq (madtEntries_eq madt) hstart hmax
  refine ⟨r, hr, fun t => ?_, fun t => (hfound t).2⟩
  rw [(hfound t).1]
  exact toNat_ofNat_of_lt ((hmax t).trans_lt (max_lt t))

/-- **Both loops find the records of a tiled table.** -/
theorem parseMadt_complete {mem : Memory} {madt : UInt32} {rs : List EntryRecord}
    (h : Tiles mem madt rs)
    (hmax : ∀ t, (recordsOf t (madt.toNat + madtFixed.toNat) rs).length ≤ t.max) :
    ∃ r, ParseMadt mem madt r ∧ GetCount mem madt r.entryCounts ∧
      ∀ t, (r.entryCounts t).toNat = (recordsOf t (madt.toNat + madtFixed.toNat) rs).length ∧
        ∀ k, r.slots t k = (recordsOf t (madt.toNat + madtFixed.toNat) rs)[k]? := by
  obtain ⟨r, hr, hholds⟩ := h.parsed hmax
  have hcount := getCount_records h.records h.end_eq .zero
  have heq : r.entryCounts = fun t => MadtEntryCount.zero t +
      .ofNat (recordsOf t (madt.toNat + madtFixed.toNat) rs).length := by
    funext t
    rw [MadtEntryCount.zero, UInt32.zero_add, ← hholds.count t, UInt32.ofNat_toNat]
  refine ⟨r, hr, ?_, fun t => ⟨hholds.count t, hholds.slots t⟩⟩
  rw [GetCount, heq, madtEntries_eq]
  exact hcount

/-- A table at `0x1000`: its length, and the records behind the fixed part. -/
def madtBytes (length : UInt8) (records : List UInt8) : Memory :=
  bytesAt 0x1000 ([0, 0, 0, 0, length] ++ List.replicate 39 0 ++ records)

/-- A processor, a record of an unknown type, an I/O APIC and a second processor. -/
def smallMadt : Memory :=
  madtBytes 76 ([0, 8, 0, 0, 1, 0, 0, 0] ++ [7, 4, 0, 0] ++ [1, 12, 0, 0, 0, 0, 0, 0, 0, 0, 0, 0] ++
    [0, 8, 1, 1, 1, 0, 0, 0])

theorem parseMadt_complete_smallMadt :
    ∃ r, ParseMadt smallMadt 0x1000 r ∧ GetCount smallMadt 0x1000 r.entryCounts ∧
      ∀ t, (r.entryCounts t).toNat =
          (recordsOf t ((0x1000 : UInt32).toNat + madtFixed.toNat)
            [⟨0, 8⟩, ⟨7, 4⟩, ⟨1, 12⟩, ⟨0, 8⟩]).length ∧
        ∀ k, r.slots t k =
          (recordsOf t ((0x1000 : UInt32).toNat + madtFixed.toNat)
            [⟨0, 8⟩, ⟨7, 4⟩, ⟨1, 12⟩, ⟨0, 8⟩])[k]? := by
  have htwo : 2 ≤ (8 : UInt8).toNat ∧ 2 ≤ (4 : UInt8).toNat ∧ 2 ≤ (12 : UInt8).toNat := by decide
  refine parseMadt_complete ⟨by decide +kernel, ⟨by decide +kernel, by decide +kernel, htwo.1,
    by decide +kernel, by decide +kernel, htwo.2.1, by decide +kernel, by decide +kernel, htwo.2.2,
    by decide +kernel, by decide +kernel, htwo.1, trivial⟩, by decide +kernel⟩ fun t => ?_
  cases t <;> decide +kernel

/-! ## 4. Any table -/

/-- The way of both loops through the table. -/
def madtWalk (mem : Memory) (madt : UInt32) : Walk UInt32 where
  advance p := p + (mem (p + 1)).toUInt32
  stop p := ¬ p < madtEnd mem madt
  wanted _ := false
  limit := 0

section Any

variable {mem : Memory} {madt : UInt32}

theorem getCount_follows :
    Follows (getCountBody mem madt) (madtWalk mem madt) CountState.ptr fun _ => 0 where
  inl s s' _ hbody := by
    rw [getCountBody] at hbody
    split at hbody
    · next hlt =>
        cases hbody
        exact ⟨not_not.mpr hlt, by simp [madtWalk], rfl, by simp [madtWalk], fun _ => rfl⟩
    · cases hbody
  inr s r _ hbody := by
    rw [getCountBody] at hbody
    split at hbody
    · cases hbody
    · next hge => exact .inl hge

theorem parseMadt_follows :
    Follows (parseMadtBody mem madt) (madtWalk mem madt) ParseState.ptr fun _ => 0 where
  inl s s' _ hbody := by
    rw [parseMadtBody] at hbody
    split at hbody
    · next hlt =>
        have hs := Sum.inl.inj hbody
        refine ⟨not_not.mpr hlt, by simp [madtWalk], ?_, by simp [madtWalk], fun _ => rfl⟩
        rw [← hs]
        dsimp only
        split <;> rfl
    · cases hbody
  inr s r _ hbody := by
    rw [parseMadtBody] at hbody
    split at hbody
    · cases hbody
    · next hge => exact .inl hge

/-- The `n`-th record. -/
def madtRecord (mem : Memory) (madt : UInt32) (n : Nat) : UInt32 :=
  (madtWalk mem madt).place (madtEntries madt) n

/-- The first `n` records begin before the end, and are read. -/
def Reached (mem : Memory) (madt : UInt32) (n : Nat) : Prop :=
  ∀ m < n, madtRecord mem madt m < madtEnd mem madt

instance (n : Nat) : Decidable (Reached mem madt n) :=
  inferInstanceAs (Decidable (∀ m < n, madtRecord mem madt m < madtEnd mem madt))

/-- How many of the first `n` records are of a type. -/
def countOf (mem : Memory) (madt : UInt32) (t : EntryType) (n : Nat) : Nat :=
  Nat.count (fun m => EntryType.ofByte (mem (madtRecord mem madt m)) = some t) n

/-- **Nothing outside the arrays is stored, nothing behind the table is read.** -/
structure ParseState.Inside (mem : Memory) (madt : UInt32) (s : ParseState) : Prop where
  stores : ∀ x ∈ s.stores, x.2 < x.1.max
  reads : ∀ x ∈ s.reads, (x.1 - madt).toNat + x.2.1 + x.2.2 ≤ (madtLength mem madt).toNat

/-- So it is after every round of `parse_madt`. -/
def StaysInside (mem : Memory) (madt : UInt32) : Prop :=
  ∀ n s, after (parseMadtBody mem madt) n (.start madt) = some s → s.Inside mem madt

/-- **The table fits**: into the arrays, and its records into it. -/
structure Fits (mem : Memory) (madt : UInt32) : Prop where
  arrays : ∀ n, Reached mem madt n → ∀ t, countOf mem madt t n ≤ t.max
  records : ∀ n, Reached mem madt (n + 1) →
    (madtRecord mem madt n - madt).toNat + extentOf (mem (madtRecord mem madt n))
      ≤ (madtLength mem madt).toNat

theorem countOf_succ (t : EntryType) (n : Nat) :
    countOf mem madt t (n + 1) = countOf mem madt t n +
      if EntryType.ofByte (mem (madtRecord mem madt n)) = some t then 1 else 0 :=
  Nat.count_succ _ n

/-- What the first `n` rounds store. -/
def storesUpTo (mem : Memory) (madt : UInt32) (n : Nat) : List (EntryType × Nat) :=
  (List.range n).filterMap fun m => (EntryType.ofByte (mem (madtRecord mem madt m))).map fun t =>
    (t, (UInt32.ofNat (countOf mem madt t m)).toNat)

/-- What the first `n` rounds read. -/
def readsUpTo (mem : Memory) (madt : UInt32) (n : Nat) : List (UInt32 × Nat × Nat) :=
  (List.range n).flatMap fun m => (fieldsOf (mem (madtRecord mem madt m))).map fun f =>
    (madtRecord mem madt m, f)

theorem storesUpTo_succ_of_none {n : Nat}
    (h : EntryType.ofByte (mem (madtRecord mem madt n)) = none) :
    storesUpTo mem madt (n + 1) = storesUpTo mem madt n := by
  rw [storesUpTo, List.range_succ, List.filterMap_append, List.filterMap_cons_none (by rw [h]; rfl)]
  exact List.append_nil _

theorem storesUpTo_succ_of_some {n : Nat} {t : EntryType}
    (h : EntryType.ofByte (mem (madtRecord mem madt n)) = some t) :
    storesUpTo mem madt (n + 1) =
      storesUpTo mem madt n ++ [(t, (UInt32.ofNat (countOf mem madt t n)).toNat)] := by
  rw [storesUpTo, List.range_succ, List.filterMap_append, List.filterMap_cons_some (by rw [h]; rfl)]
  rfl

/-- **The state after `n` rounds.** -/
structure ParsedUpTo (mem : Memory) (madt : UInt32) (n : Nat) (s : ParseState) : Prop where
  ptr : s.ptr = madtRecord mem madt n
  idx : ∀ t, s.entryWriteIdx t = .ofNat (countOf mem madt t n)
  stores : s.stores = storesUpTo mem madt n
  reads : s.reads = readsUpTo mem madt n

theorem parsedUpTo_start : ParsedUpTo mem madt 0 (.start madt) :=
  ⟨rfl, fun _ => rfl, rfl, rfl⟩

theorem ParsedUpTo.round {n : Nat} {s s' : ParseState} (h : ParsedUpTo mem madt n s)
    (hbody : parseMadtBody mem madt s = .inl s') : ParsedUpTo mem madt (n + 1) s' := by
  have hptr := (parseMadt_follows.inl s s' le_rfl hbody).2.2.1
  rw [parseMadtBody] at hbody
  split at hbody
  · have hs := Sum.inl.inj hbody
    rw [h.ptr] at hs hptr
    have hreads : readsUpTo mem madt (n + 1) = readsUpTo mem madt n ++
        (fieldsOf (mem (madtRecord mem madt n))).map fun f => (madtRecord mem madt n, f) := by
      rw [readsUpTo, List.range_succ, List.flatMap_append, List.flatMap_singleton]
      rfl
    have hnext : s'.ptr = madtRecord mem madt (n + 1) := hptr.trans (Walk.place_succ n).symm
    cases ht : EntryType.ofByte (mem (madtRecord mem madt n)) with
    | none =>
        rw [ht] at hs
        subst hs
        refine ⟨hnext, fun t => ?_, ?_, by rw [hreads, ← h.reads]⟩
        · rw [countOf_succ, ht, if_neg (by simp)]
          exact h.idx t
        · rw [storesUpTo_succ_of_none ht]
          exact h.stores
    | some t' =>
        rw [ht] at hs
        subst hs
        refine ⟨hnext, fun t => ?_, ?_, by rw [hreads, ← h.reads]; rfl⟩
        · rw [countOf_succ, ht]
          by_cases htt : t = t'
          · rw [htt, if_pos rfl, UInt32.ofNat_add, ← h.idx t']
            exact increment_self _ t'
          · rw [if_neg fun heq => htt (Option.some.inj heq).symm, Nat.add_zero, ← h.idx t]
            exact increment_of_ne _ htt
        · rw [storesUpTo_succ_of_some ht, ← h.stores, ← h.idx t']
          rfl
  · cases hbody

theorem parsedUpTo_of_after {n : Nat} {s : ParseState}
    (h : after (parseMadtBody mem madt) n (.start madt) = some s) : ParsedUpTo mem madt n s := by
  have hn := after_inv (I := ParsedUpTo mem madt) (fun _ _ _ hs hbody => hs.round hbody)
    parsedUpTo_start h
  rwa [Nat.zero_add] at hn

theorem Reached.mono {n m : Nat} (h : Reached mem madt n) (hle : m ≤ n) : Reached mem madt m :=
  fun k hk => h k (hk.trans_le hle)

theorem endsAt_iff (n : Nat) : (madtWalk mem madt).EndsAt (madtEntries madt) n ↔
    ¬ madtRecord mem madt n < madtEnd mem madt := by
  simp [Walk.EndsAt, madtWalk, madtRecord]

/-- `parse_madt` comes to its `n`-th round exactly when the records before are reached. -/
theorem reached_iff_after (n : Nat) :
    Reached mem madt n ↔ ∃ s, after (parseMadtBody mem madt) n (.start madt) = some s := by
  constructor
  · intro h
    exact parseMadt_follows.exists_after rfl fun m hm hend => (endsAt_iff m).mp hend (h m hm)
  · intro h m hm
    obtain ⟨s, hs⟩ := h
    obtain ⟨-, -, -, hbefore⟩ := parseMadt_follows.after_eq rfl hs
    exact not_not.mp fun hge => hbefore m hm ((endsAt_iff m).mpr hge)

/-- **Below the last 255 addresses a table is walked to its end unless a record has length 0.** -/
theorem madt_circle_iff (hend : (madtEnd mem madt).toNat + 255 ≤ 2 ^ 32) :
    (madtWalk mem madt).Circle (madtEntries madt) ↔
      ∃ n, Reached mem madt (n + 1) ∧ mem (madtRecord mem madt n + 1) = 0 := by
  have hnext : ∀ n, (madtWalk mem madt).place (madtEntries madt) (n + 1) =
      madtRecord mem madt n + (mem (madtRecord mem madt n + 1)).toUInt32 :=
    fun n => Walk.place_succ n
  have hgrows : ∀ n, madtRecord mem madt n < madtEnd mem madt →
      (madtRecord mem madt (n + 1)).toNat =
        (madtRecord mem madt n).toNat + (mem (madtRecord mem madt n + 1)).toNat := by
    intro n hlt
    have hbyte := (mem (madtRecord mem madt n + 1)).toNat_lt
    rw [UInt32.lt_iff_toNat_lt] at hlt
    rw [madtRecord, hnext, UInt32.toNat_add, UInt8.toNat_toUInt32]
    omega
  rw [Walk.circle_iff_of_rank UInt32.toNat]
  · refine exists_congr fun n => ⟨fun hc => ⟨fun m hm => not_not.mp (hc.noStop m hm), ?_⟩, ?_⟩
    · have hlen := hgrows n (not_not.mp (hc.noStop n n.lt_succ_self))
      have hback : (madtRecord mem madt n).toNat = (madtRecord mem madt (n + 1)).toNat :=
        congrArg UInt32.toNat hc.back
      exact UInt8.toNat.inj (by rw [UInt8.toNat_zero]; omega)
    · intro h
      obtain ⟨hreached, hzero⟩ := h
      refine ⟨n.lt_succ_self, ?_, fun m hm => not_not.mpr (hreached m hm), by simp [madtWalk], ?_⟩
      · rw [hnext, hzero]
        exact (UInt32.add_zero _).symm
      · simp [Walk.hits, madtWalk]
  · intro n hstop
    by_cases hzero : mem (madtRecord mem madt n + 1) = 0
    · rw [hnext, hzero]
      exact .inl (UInt32.add_zero _)
    · have hpos : (mem (madtRecord mem madt n + 1)).toNat ≠ 0 :=
        fun h => hzero (UInt8.toNat.inj h)
      have hlen := hgrows n (not_not.mp (hstop n le_rfl))
      rw [madtRecord, madtRecord] at hlen
      exact .inr (by rw [hlen]; exact Nat.lt_add_of_pos_right (Nat.pos_of_ne_zero hpos))

theorem StaysInside.fits (h : StaysInside mem madt) : Fits mem madt := by
  refine ⟨fun n => ?_, fun n hn => ?_⟩
  · induction n with
    | zero => exact fun _ t => Nat.zero_le _
    | succ n ih =>
        intro hn t
        have hle := ih (hn.mono n.le_succ) t
        by_cases ht : EntryType.ofByte (mem (madtRecord mem madt n)) = some t
        · obtain ⟨s, hs⟩ := (reached_iff_after (n + 1)).mp hn
          have hlt := (h (n + 1) s hs).stores (t, (UInt32.ofNat (countOf mem madt t n)).toNat) (by
            rw [(parsedUpTo_of_after hs).stores, storesUpTo_succ_of_some ht]
            exact List.mem_append_right _ (List.mem_singleton_self _))
          rw [toNat_ofNat_of_lt (hle.trans_lt (max_lt t))] at hlt
          rw [countOf_succ, if_pos ht]
          exact hlt
        · rwa [countOf_succ, if_neg ht]
  · obtain ⟨s, hs⟩ := (reached_iff_after (n + 1)).mp hn
    refine (fieldsOf_le_iff _ _ _).mp fun f hf => ?_
    refine (h (n + 1) s hs).reads (madtRecord mem madt n, f) ?_
    rw [(parsedUpTo_of_after hs).reads]
    exact List.mem_flatMap.mpr
      ⟨n, List.mem_range.mpr n.lt_succ_self, List.mem_map.mpr ⟨f, hf, rfl⟩⟩

theorem Fits.staysInside (h : Fits mem madt) : StaysInside mem madt := by
  intro n s hs
  have hn := (reached_iff_after n).mpr ⟨s, hs⟩
  refine ⟨fun x hx => ?_, fun x hx => ?_⟩
  · rw [(parsedUpTo_of_after hs).stores, storesUpTo] at hx
    obtain ⟨m, hm, hx⟩ := List.mem_filterMap.mp hx
    obtain ⟨t, ht, rfl⟩ := Option.map_eq_some_iff.mp hx
    have hle := h.arrays (m + 1) (hn.mono (List.mem_range.mp hm)) t
    rw [countOf_succ, if_pos ht] at hle
    rw [toNat_ofNat_of_lt (by have := max_lt t; omega)]
    exact hle
  · rw [(parsedUpTo_of_after hs).reads, readsUpTo] at hx
    obtain ⟨m, hm, hx⟩ := List.mem_flatMap.mp hx
    obtain ⟨f, hf, rfl⟩ := List.mem_map.mp hx
    exact (fieldsOf_le_iff _ _ _).mpr (h.records m (hn.mono (List.mem_range.mp hm))) f hf

end Any

/-- **`parse_madt` stays inside its arrays and the table exactly when the table fits.** -/
theorem staysInside_iff (mem : Memory) (madt : UInt32) :
    StaysInside mem madt ↔ Fits mem madt :=
  ⟨StaysInside.fits, Fits.staysInside⟩

/-- A table that ends with the header of a processor's record. -/
def truncatedMadt : Memory := madtBytes 46 [0, 2]

/-- A table with three address overrides, whole records. -/
def overrideMadt : Memory :=
  madtBytes 80 (List.replicate 3 [5, 12, 0, 0, 0, 0, 0, 0, 0, 0, 0, 0]).flatten

/-- The length covers the fixed part, and every record says that it has a header. -/
structure LongEnough (mem : Memory) (madt : UInt32) : Prop where
  fixed : madtFixed ≤ madtLength mem madt
  records : ∀ n, Reached mem madt (n + 1) → 2 ≤ (mem (madtRecord mem madt n + 1)).toNat

/-- Only the records before the one that is not reached need to be looked at. -/
theorem longEnough_of_end {mem : Memory} {madt : UInt32} {k : Nat}
    (hend : ¬ madtRecord mem madt k < madtEnd mem madt) (hfixed : madtFixed ≤ madtLength mem madt)
    (h : ∀ n < k, 2 ≤ (mem (madtRecord mem madt n + 1)).toNat) : LongEnough mem madt := by
  refine ⟨hfixed, fun n hn => ?_⟩
  by_cases hnk : n < k
  · exact h n hnk
  · exact absurd (hn k (by omega)) hend

/-- The first table is read behind its end; of the second a record is stored behind its array. -/
theorem not_staysInside_smallTables :
    (LongEnough truncatedMadt 0x1000 ∧ ¬ StaysInside truncatedMadt 0x1000) ∧
      LongEnough overrideMadt 0x1000 ∧ ¬ StaysInside overrideMadt 0x1000 := by
  refine ⟨⟨longEnough_of_end (k := 1) (by decide +kernel) (by decide +kernel) (by decide +kernel),
    fun h => ?_⟩,
    longEnough_of_end (k := 3) (by decide +kernel) (by decide +kernel) (by decide +kernel),
    fun h => ?_⟩
  · have hread := h.fits.records 0
    revert hread
    decide +kernel
  · have hstore := h.fits.arrays 3 (by decide +kernel) .localApicAddressOverride
    revert hstore
    decide +kernel

end MapleKernel.Firmware
