/-
  File:      Cpu/MulticoreGdt.lean
  Subject:   THE DESCRIPTOR TABLE OF ALL CORES (`multicore_gdt.cpp`, `multicore_bootstrap32.asm`):
             the boot table is copied, two segments a core are appended, and each core loads FS
             and GS with selectors it computes itself.

  The boot core computes them in `set_fs_or_segment_selector`, the others in `core_bootstrap32`;
  the table is built by a third piece of code, and all three know its layout.

  * `Gdt.Holds` -- a table holds a list of entries, and `addGdtEntry_spec` appends to it;
  * `initMulticoreGdt_spec` -- the table built from a boot table of `m` entries, which is
    completed exactly for `m` from 1 to 4;
  * `not_selectorsAgree` -- the two paths agree for no core: the boot core loads FS and GS the
    wrong way round, and no access of 4 bytes fits the segment of FS;
  * `selectors_of_four` -- what is right with a boot table of 4 entries;
  * `bootCoreLoads_iff` -- for which boot tables and ids the boot core comes through its two loads
    and the store of `set_fast_core_id`.
-/
import MapleKernel.Lib.Loop
import MapleKernel.Cpu.IpiLock
import MapleKernel.Cpu.SegmentDescriptor

namespace MapleKernel.Cpu

open Loops

/-! ## 1. The table -/

/-- The null, code and data segments of the boot table, then FS and GS of each core. -/
def newGdtEntryCount : Nat := 4 + maxCoreCount * 2

/-- `abort_msg` with its text. -/
inductive GdtAbort where
  | notBigEnough
  | full
  deriving DecidableEq, Repr

def GdtAbort.msg : GdtAbort → String
  | .notBigEnough => "New gdt isn't big enough to have the old gdt entry values\n"
  | .full => "GDT is full! Cannot add more entries.\n"

/-- `new_gdt`, and the limit in the register that points to it. -/
structure Gdt where
  newGdt : Vector GdtEntry newGdtEntryCount
  limit : UInt16
  deriving DecidableEq

/-- The table the register points to at boot; what stands behind its limit is not copied. -/
structure OldGdt where
  entry : Nat → GdtEntry
  limit : UInt16

def entryCount (limit : UInt16) : Nat := (limit.toNat + 1) / 8

/-- An entry in `.bss`. -/
def GdtEntry.zero : GdtEntry := ⟨0, 0, 0, 0, 0, 0, 0, 0, 0, 0, 0, 0, 0⟩

def initNewGdt (old : OldGdt) : Except GdtAbort Gdt :=
  let entriesToCopy := entryCount old.limit
  if newGdtEntryCount < entriesToCopy then .error .notBigEnough
  else .ok
    { newGdt := .ofFn fun i => if i < entriesToCopy then old.entry i else .zero
      limit := UInt16.ofNat (entriesToCopy * 8) - 1 }

def addGdtEntry (entry : GdtEntry) (g : Gdt) : Except GdtAbort Gdt :=
  let currentEntries := entryCount g.limit
  if h : currentEntries < newGdtEntryCount then
    .ok { newGdt := g.newGdt.set currentEntries entry h, limit := g.limit + 8 }
  else .error .full

/-- `set_segment_descriptor_base`. -/
def GdtEntry.setBase (e : GdtEntry) (base : UInt32) : GdtEntry :=
  { e with
    baseLow := base.toNat % 2 ^ 16
    baseMiddle := base.toNat / 2 ^ 16 % 2 ^ 8
    baseHigh := base.toNat / 2 ^ 24 }

/-- `set_segment_descriptor_limit`: bits above 19 are lost. -/
def GdtEntry.setLimit (e : GdtEntry) (limit : UInt32) : GdtEntry :=
  { e with
    limitLow := limit.toNat % 2 ^ 16
    limitHigh := limit.toNat / 2 ^ 16 % 2 ^ 4 }

/-- The entry that `add_fs_or_gs` builds: a writable data segment of `size` bytes. -/
def fsOrGsEntry (baseAddress size : UInt32) : GdtEntry :=
  let entry : GdtEntry :=
    { GdtEntry.zero with avl := 0, db := 1, dpl := 0, g := 0, l := 0, p := 1, s := 1, type := 0b0011 }
  (entry.setBase baseAddress).setLimit (size - 1)

def addFsOrGs (baseAddress size : UInt32) (g : Gdt) : Except GdtAbort Gdt :=
  addGdtEntry (fsOrGsEntry baseAddress size) g

/-- `FS_CONTENT` has one byte, `GS_CONTENT` one `uint32_t`. -/
def sizeofFsContent : UInt32 := 1
def sizeofGsContent : UInt32 := 4

/-- `&all_fs_and_gs[i].fs`; `FS_GS` takes 8 bytes, with three of padding behind `fs`. -/
def fsAddress (allFsAndGs : UInt32) (i : Nat) : UInt32 := allFsAndGs + 8 * .ofNat i

/-- `&all_fs_and_gs[i].gs`. -/
def gsAddress (allFsAndGs : UInt32) (i : Nat) : UInt32 := allFsAndGs + 8 * .ofNat i + 4

def addMulticoreGdtEntry (allFsAndGs : UInt32) (g : Gdt) : Except GdtAbort Gdt :=
  forRange maxCoreCount
    (fun i r => r.bind fun g => (addFsOrGs (fsAddress allFsAndGs i) sizeofFsContent g).bind
      (addFsOrGs (gsAddress allFsAndGs i) sizeofGsContent))
    (.ok g)

def initMulticoreGdt (allFsAndGs : UInt32) (old : OldGdt) : Except GdtAbort Gdt :=
  (initNewGdt old).bind (addMulticoreGdtEntry allFsAndGs)

/-! ## 2. The selectors -/

inductive FsOrGs where
  | fs | gs
  deriving DecidableEq, Repr

/-- FS and GS of a core. -/
structure SegmentRegisters where
  fs : UInt16
  gs : UInt16
  deriving DecidableEq, Repr

/-- A `segment_selector_t`: two bits of privilege, one for the table, 13 for the index. -/
def segmentSelector (rpl ti index : UInt16) : UInt16 :=
  (rpl &&& (3 : UInt16)) ||| ((ti &&& (1 : UInt16)) <<< 2) ||| (index <<< 3)

/-- The case for `fs` moves to GS, the case for `gs` to FS. -/
def setFsOrSegmentSelector (coreId : UInt8) (selector : FsOrGs) (r : SegmentRegisters) :
    SegmentRegisters :=
  match selector with
  | .fs => { r with gs := segmentSelector 0 0 (4 + coreId.toUInt16 * 2 + 0) }
  | .gs => { r with fs := segmentSelector 0 0 (4 + coreId.toUInt16 * 2 + 1) }

/-- What `kernel_main` does on the boot core. -/
def bootSelectors (coreId : UInt8) (r : SegmentRegisters) : SegmentRegisters :=
  setFsOrSegmentSelector coreId .gs (setFsOrSegmentSelector coreId .fs r)

/-- `core_bootstrap32`, from the local APIC id in EAX. -/
def coreBootstrap32 (eax : UInt32) : SegmentRegisters :=
  let ebx := (eax <<< 1) + 4
  let ecx := ebx + 1
  { fs := (ebx <<< 3).toUInt16, gs := (ecx <<< 3).toUInt16 }

/-- The descriptor that the processor finds for a selector; none outside the limit. -/
def Gdt.descriptor (g : Gdt) (selector : UInt16) : Option GdtEntry :=
  let index := selector.toNat / 8
  if 8 * index + 7 ≤ g.limit.toNat then g.newGdt[index]? else none

/-- The last offset of a segment that is expanded upwards, by its granularity. -/
def GdtEntry.lastOffset (e : GdtEntry) : Nat :=
  if e.g = 0 then e.limit else e.limit * 2 ^ 12 + 0xFFF

/-- The bytes `offset ..< offset + size` are inside the segment. -/
def GdtEntry.Fits (e : GdtEntry) (offset size : Nat) : Prop := offset + size ≤ e.lastOffset + 1

instance (e : GdtEntry) (offset size : Nat) : Decidable (e.Fits offset size) :=
  inferInstanceAs (Decidable (_ ≤ _))

/-- A present segment of data, or of code that can be read. -/
def GdtEntry.loadable (e : GdtEntry) : Bool :=
  e.p = 1 && e.s = 1 && (e.type / 8 % 2 = 0 || e.type / 2 % 2 = 1)

/-- FS or GS takes the selector. -/
def Gdt.loads (g : Gdt) (selector : UInt16) : Bool :=
  (g.descriptor selector).any GdtEntry.loadable

/-- The store of `set_fast_core_id`: 4 bytes at offset 0 of FS. -/
def Gdt.takesCoreId (g : Gdt) (selector : UInt16) : Bool :=
  (g.descriptor selector).any fun e => e.Fits 0 4

/-! ## 3. What the table holds -/

/-- The table holds the list `es`, and ends behind it. -/
structure Gdt.Holds (g : Gdt) (es : List GdtEntry) : Prop where
  limit : g.limit.toNat + 1 = 8 * es.length
  entry : ∀ i < es.length, g.newGdt[i]? = es[i]?

variable {g g' : Gdt} {es : List GdtEntry} {old : OldGdt} {base : UInt32}

theorem Gdt.Holds.entryCount_eq (h : g.Holds es) : entryCount g.limit = es.length := by
  rw [entryCount, h.limit, Nat.mul_div_cancel_left _ (by decide)]

theorem Gdt.Holds.descriptor_eq (h : g.Holds es) (selector : UInt16) :
    g.descriptor selector = es[selector.toNat / 8]? := by
  have hlimit := h.limit
  rw [Gdt.descriptor]
  by_cases hlt : selector.toNat / 8 < es.length
  · rw [if_pos (by omega), h.entry _ hlt]
  · rw [if_neg (by omega), List.getElem?_eq_none (not_lt.mp hlt)]

/-- **An entry is appended while there is room.** -/
theorem addGdtEntry_spec (h : g.Holds es) (e : GdtEntry) :
    if es.length < newGdtEntryCount then ∃ g', addGdtEntry e g = .ok g' ∧ g'.Holds (es ++ [e])
    else addGdtEntry e g = .error .full := by
  have hcount := h.entryCount_eq
  have hlimit := h.limit
  split
  · next hroom =>
      have hroom' : entryCount g.limit < newGdtEntryCount := by rwa [hcount]
      refine ⟨_, dif_pos hroom', ?_, fun i hi => ?_⟩
      · have h28 : newGdtEntryCount = 28 := rfl
        have h8 : (8 : UInt16).toNat = 8 := rfl
        rw [UInt16.toNat_add, List.length_append, List.length_singleton, h8]
        omega
      · rw [List.length_append, List.length_singleton] at hi
        dsimp only
        rw [Vector.getElem?_set, hcount]
        by_cases hlast : i < es.length
        · rw [if_neg (by omega), h.entry i hlast, List.getElem?_append_left hlast]
        · obtain rfl : i = es.length := by omega
          rw [if_pos rfl, List.getElem?_concat_length]
  · next hfull => exact dif_neg (by rwa [hcount])

/-- The entries of core `i`. -/
def coreEntries (base : UInt32) (i : Nat) : List GdtEntry :=
  [fsOrGsEntry (fsAddress base i) sizeofFsContent, fsOrGsEntry (gsAddress base i) sizeofGsContent]

/-- The entries of the first `n` cores. -/
def coresEntries (base : UInt32) (n : Nat) : List GdtEntry := (List.range n).flatMap (coreEntries base)

theorem coresEntries_succ (base : UInt32) (n : Nat) :
    coresEntries base (n + 1) = coresEntries base n ++ coreEntries base n := by
  rw [coresEntries, List.range_succ, List.flatMap_append, List.flatMap_singleton]
  rfl

@[simp] theorem length_coresEntries (base : UInt32) (n : Nat) :
    (coresEntries base n).length = 2 * n := by
  induction n with
  | zero => rfl
  | succ n ih => rw [coresEntries_succ, List.length_append, ih]; rfl

theorem getElem?_coresEntries (base : UInt32) {n i : Nat} (hi : i < n) :
    (coresEntries base n)[2 * i]? = some (fsOrGsEntry (fsAddress base i) sizeofFsContent) ∧
      (coresEntries base n)[2 * i + 1]? = some (fsOrGsEntry (gsAddress base i) sizeofGsContent) := by
  induction n with
  | zero => omega
  | succ n ih =>
      have hlen := length_coresEntries base n
      rw [coresEntries_succ]
      by_cases hlast : i < n
      · rw [List.getElem?_append_left (by omega), List.getElem?_append_left (by omega)]
        exact ih hlast
      · obtain rfl : i = n := by omega
        rw [List.getElem?_append_right (by omega), List.getElem?_append_right (by omega), hlen,
          Nat.sub_self, Nat.add_sub_cancel_left]
        exact ⟨rfl, rfl⟩

/-- Two entries a core, and an abort in the middle of a core or between two. -/
theorem addCore_spec (base : UInt32) (h : g.Holds es) (i : Nat) :
    if es.length + 2 ≤ newGdtEntryCount then
      ∃ g', ((addFsOrGs (fsAddress base i) sizeofFsContent g).bind
        (addFsOrGs (gsAddress base i) sizeofGsContent)) = .ok g' ∧ g'.Holds (es ++ coreEntries base i)
    else ((addFsOrGs (fsAddress base i) sizeofFsContent g).bind
        (addFsOrGs (gsAddress base i) sizeofGsContent)) = .error .full := by
  have hfs := addGdtEntry_spec h (fsOrGsEntry (fsAddress base i) sizeofFsContent)
  by_cases hroom : es.length < newGdtEntryCount
  · rw [if_pos hroom] at hfs
    obtain ⟨g₁, hadd, hg₁⟩ := hfs
    have hgs := addGdtEntry_spec hg₁ (fsOrGsEntry (gsAddress base i) sizeofGsContent)
    rw [List.length_append, List.length_singleton, List.append_assoc] at hgs
    rw [addFsOrGs, hadd]
    exact hgs
  · rw [if_neg hroom] at hfs
    rw [if_neg (by omega), addFsOrGs, hfs]
    rfl

/-- **The loop over the cores.** -/
theorem addMulticoreGdtEntry_spec (base : UInt32) (h : g.Holds es) :
    if es.length ≤ 4 then
      ∃ g', addMulticoreGdtEntry base g = .ok g' ∧ g'.Holds (es ++ coresEntries base maxCoreCount)
    else addMulticoreGdtEntry base g = .error .full := by
  -- the table after `i` cores, or the abort that the first core without room has raised
  have hloop := forRange_inv
    (P := fun i (r : Except GdtAbort Gdt) =>
      if es.length + 2 * i ≤ newGdtEntryCount ∨ i = 0 then
        ∃ g', r = .ok g' ∧ g'.Holds (es ++ coresEntries base i)
      else r = .error .full)
    (f := fun i r => r.bind fun g => (addFsOrGs (fsAddress base i) sizeofFsContent g).bind
      (addFsOrGs (gsAddress base i) sizeofGsContent)) (s := .ok g) maxCoreCount
    (by
      rw [if_pos (.inr rfl)]
      exact ⟨g, rfl, by simpa [coresEntries] using h⟩)
    (by
      intro i r hi hP
      by_cases hroom : es.length + 2 * i ≤ newGdtEntryCount ∨ i = 0
      · rw [if_pos hroom] at hP
        obtain ⟨g', rfl, hg'⟩ := hP
        have hcore := addCore_spec base hg' i
        rw [List.length_append, length_coresEntries, List.append_assoc, ← coresEntries_succ] at hcore
        have hnext : (es.length + 2 * (i + 1) ≤ newGdtEntryCount ∨ i + 1 = 0)
            = (es.length + 2 * i + 2 ≤ newGdtEntryCount) := propext (by omega)
        simp only [hnext]
        exact hcore
      · rw [if_neg hroom] at hP
        rw [if_neg (by omega), hP]
        rfl)
  have h28 : newGdtEntryCount = 28 := rfl
  have h12 : maxCoreCount = 12 := rfl
  by_cases h4 : es.length ≤ 4
  · rw [if_pos (by omega)] at hloop
    rw [if_pos h4]
    exact hloop
  · rw [if_neg (by omega)] at hloop
    rw [if_neg h4]
    exact hloop

/-- What is copied from the boot table. -/
def OldGdt.entries (old : OldGdt) : List GdtEntry :=
  (List.range (entryCount old.limit)).map old.entry

@[simp] theorem OldGdt.length_entries (old : OldGdt) :
    old.entries.length = entryCount old.limit := by
  rw [OldGdt.entries, List.length_map, List.length_range]

theorem initNewGdt_holds (h0 : 0 < entryCount old.limit)
    (h28 : entryCount old.limit ≤ newGdtEntryCount) :
    ∃ g, initNewGdt old = .ok g ∧ g.Holds old.entries := by
  have hcount : newGdtEntryCount = 28 := rfl
  refine ⟨_, if_neg (not_lt.mpr h28), ?_, fun i hi => ?_⟩
  · have h1 : (1 : UInt16).toNat = 1 := rfl
    dsimp only
    rw [UInt16.toNat_sub, UInt16.toNat_ofNat', OldGdt.length_entries, h1]
    omega
  · rw [OldGdt.length_entries] at hi
    dsimp only
    rw [Vector.getElem?_eq_getElem (by omega), Vector.getElem_ofFn, if_pos hi, OldGdt.entries,
      List.getElem?_map, List.getElem?_range hi]
    rfl

/-- The empty boot table leaves the limit 0xFFFF, and the first entry finds the table full. -/
theorem initMulticoreGdt_empty (h0 : entryCount old.limit = 0) :
    initMulticoreGdt base old = .error .full := by
  have hinit : ∃ g, initNewGdt old = .ok g ∧ g.limit = 0xFFFF := by
    refine ⟨_, if_neg (by rw [h0]; decide), ?_⟩
    dsimp only
    rw [h0]
    rfl
  obtain ⟨g, hg, hlimit⟩ := hinit
  have hfull : ∀ e, addGdtEntry e g = .error .full := by
    intro e
    refine dif_neg ?_
    rw [hlimit]
    decide
  have hloop := forRange_inv
    (P := fun i (r : Except GdtAbort Gdt) => (i = 0 ∧ r = .ok g) ∨ r = .error .full)
    (f := fun i r => r.bind fun g => (addFsOrGs (fsAddress base i) sizeofFsContent g).bind
      (addFsOrGs (gsAddress base i) sizeofGsContent)) (s := .ok g) maxCoreCount (.inl ⟨rfl, rfl⟩)
    (by
      intro i r hi hP
      right
      rcases hP with ⟨-, rfl⟩ | rfl
      · show (addFsOrGs _ _ g).bind _ = _
        rw [addFsOrGs, hfull]
        rfl
      · rfl)
  rw [initMulticoreGdt, hg]
  exact hloop.resolve_left fun h => absurd h.1 (by decide)

/-- **The table that is built**: only a boot table of 1 to 4 entries leaves room for all cores. -/
theorem initMulticoreGdt_spec (base : UInt32) (old : OldGdt) :
    if 1 ≤ entryCount old.limit ∧ entryCount old.limit ≤ 4 then
      ∃ g, initMulticoreGdt base old = .ok g ∧
        g.Holds (old.entries ++ coresEntries base maxCoreCount)
    else ∃ a, initMulticoreGdt base old = .error a := by
  by_cases h0 : entryCount old.limit = 0
  · rw [if_neg (by omega)]
    exact ⟨_, initMulticoreGdt_empty h0⟩
  by_cases h28 : entryCount old.limit ≤ newGdtEntryCount
  · obtain ⟨g, hg, hold⟩ := initNewGdt_holds (by omega) h28
    have hadd := addMulticoreGdtEntry_spec base hold
    rw [OldGdt.length_entries] at hadd
    rw [initMulticoreGdt, hg]
    by_cases h4 : entryCount old.limit ≤ 4
    · rw [if_pos h4] at hadd
      rw [if_pos ⟨by omega, h4⟩]
      exact hadd
    · rw [if_neg h4] at hadd
      rw [if_neg fun h => h4 h.2]
      exact ⟨_, hadd⟩
  · have hcount : newGdtEntryCount = 28 := rfl
    have hinit : initNewGdt old = .error .notBigEnough := if_pos (not_le.mp h28)
    rw [if_neg (by omega), initMulticoreGdt, hinit]
    exact ⟨_, rfl⟩

theorem holds_of_initMulticoreGdt (h : initMulticoreGdt base old = .ok g) :
    1 ≤ entryCount old.limit ∧ entryCount old.limit ≤ 4 ∧
      g.Holds (old.entries ++ coresEntries base maxCoreCount) := by
  have hspec := initMulticoreGdt_spec base old
  split at hspec
  · next hm =>
      obtain ⟨g', hg', hholds⟩ := hspec
      rw [h] at hg'
      cases hg'
      exact ⟨hm.1, hm.2, hholds⟩
  · obtain ⟨a, ha⟩ := hspec
    rw [h] at ha
    cases ha

/-! ## 4. The two boot paths -/

/-- The three pieces of code agree about one core. -/
structure SelectorsAgree (g : Gdt) (base : UInt32) (coreId : UInt8) : Prop where
  sameFs : ∀ r, (bootSelectors coreId r).fs = (coreBootstrap32 coreId.toUInt32).fs
  sameGs : ∀ r, (bootSelectors coreId r).gs = (coreBootstrap32 coreId.toUInt32).gs
  fs : ∃ e, g.descriptor (coreBootstrap32 coreId.toUInt32).fs = some e ∧
    e.base = (fsAddress base coreId.toNat).toNat ∧ e.Fits 0 4
  gs : ∃ e, g.descriptor (coreBootstrap32 coreId.toUInt32).gs = some e ∧
    e.base = (gsAddress base coreId.toNat).toNat

theorem coreBootstrap32_toNat (coreId : UInt8) :
    (coreBootstrap32 coreId.toUInt32).fs.toNat = 8 * (4 + 2 * coreId.toNat) ∧
      (coreBootstrap32 coreId.toUInt32).gs.toNat = 8 * (4 + 2 * coreId.toNat + 1) := by
  have hid := coreId.toNat_lt
  constructor <;>
    simp only [coreBootstrap32, UInt32.toNat_toUInt16, UInt32.toNat_shiftLeft, UInt32.toNat_add,
      UInt8.toNat_toUInt32, UInt32.reduceToNat, Nat.shiftLeft_eq, Nat.reduceMod, Nat.reducePow] <;>
    omega

theorem segmentSelector_toNat {index : UInt16} (h : index.toNat < 2 ^ 13) :
    (segmentSelector 0 0 index).toNat = 8 * index.toNat := by
  have hsel : segmentSelector 0 0 index = index <<< 3 := by
    simp only [segmentSelector, UInt16.zero_and, UInt16.zero_shiftLeft, UInt16.zero_or]
  rw [hsel, UInt16.toNat_shiftLeft, Nat.shiftLeft_eq]
  simp only [UInt16.reduceToNat, Nat.reduceMod, Nat.reducePow]
  omega

/-- The boot core has the two selectors the wrong way round. -/
theorem bootSelectors_eq (coreId : UInt8) (r : SegmentRegisters) :
    (bootSelectors coreId r).fs = (coreBootstrap32 coreId.toUInt32).gs ∧
      (bootSelectors coreId r).gs = (coreBootstrap32 coreId.toUInt32).fs := by
  have hid := coreId.toNat_lt
  obtain ⟨hfs, hgs⟩ := coreBootstrap32_toNat coreId
  have hindex : ∀ k : UInt16, k.toNat ≤ 1 →
      (4 + coreId.toUInt16 * 2 + k).toNat = 4 + 2 * coreId.toNat + k.toNat := by
    intro k hk
    simp only [UInt16.toNat_add, UInt16.toNat_mul, UInt8.toNat_toUInt16, UInt16.reduceToNat]
    omega
  have h1 : (1 : UInt16).toNat = 1 := rfl
  have h0 : (0 : UInt16).toNat = 0 := rfl
  constructor
  · refine UInt16.toNat.inj ?_
    rw [hgs]
    show (segmentSelector 0 0 (4 + coreId.toUInt16 * 2 + 1)).toNat = _
    rw [segmentSelector_toNat, hindex _ (by decide), h1]
    rw [hindex _ (by decide), h1]
    omega
  · refine UInt16.toNat.inj ?_
    rw [hfs]
    show (segmentSelector 0 0 (4 + coreId.toUInt16 * 2 + 0)).toNat = _
    rw [segmentSelector_toNat, hindex _ (by decide), h0]
    · rfl
    · rw [hindex _ (by decide), h0]
      omega

theorem fsOrGsEntry_base (a size : UInt32) : (fsOrGsEntry a size).base = a.toNat := by
  have ha := a.toNat_lt
  show (a.toNat / 2 ^ 24) <<< 24 ||| (a.toNat / 2 ^ 16 % 2 ^ 8) <<< 16 ||| a.toNat % 2 ^ 16 = a.toNat
  have hlow : a.toNat % 2 ^ 16 < 2 ^ 16 := Nat.mod_lt _ (by decide)
  have hrest : (a.toNat / 2 ^ 16 % 2 ^ 8) <<< 16 + a.toNat % 2 ^ 16 < 2 ^ 24 := by
    rw [Nat.shiftLeft_eq]
    omega
  rw [Nat.or_assoc, ← Nat.shiftLeft_add_eq_or_of_lt hlow, ← Nat.shiftLeft_add_eq_or_of_lt hrest,
    Nat.shiftLeft_eq, Nat.shiftLeft_eq]
  omega

theorem fsEntry_fits (a : UInt32) (size : Nat) :
    (fsOrGsEntry a sizeofFsContent).Fits 0 size ↔ size ≤ 1 := by
  have hlast : (fsOrGsEntry a sizeofFsContent).lastOffset = 0 := by
    simp [GdtEntry.lastOffset, GdtEntry.limit, fsOrGsEntry, GdtEntry.setLimit, GdtEntry.setBase,
      sizeofFsContent, GdtEntry.zero]
  rw [GdtEntry.Fits, hlast]
  omega

/-- The selectors of `core_bootstrap32` find the segments of the core if the boot table had 4
entries. -/
theorem selectors_of_four (h : initMulticoreGdt base old = .ok g) (h4 : entryCount old.limit = 4)
    {coreId : UInt8} (hid : coreId.toNat < maxCoreCount) :
    g.descriptor (coreBootstrap32 coreId.toUInt32).fs
        = some (fsOrGsEntry (fsAddress base coreId.toNat) sizeofFsContent) ∧
      g.descriptor (coreBootstrap32 coreId.toUInt32).gs
        = some (fsOrGsEntry (gsAddress base coreId.toNat) sizeofGsContent) := by
  obtain ⟨-, -, hholds⟩ := holds_of_initMulticoreGdt h
  obtain ⟨hfs, hgs⟩ := coreBootstrap32_toNat coreId
  have hlen : old.entries.length = 4 := by rw [OldGdt.length_entries, h4]
  obtain ⟨hefs, hegs⟩ := getElem?_coresEntries base hid
  rw [hholds.descriptor_eq, hholds.descriptor_eq, hfs, hgs, Nat.mul_div_cancel_left _ (by decide),
    Nat.mul_div_cancel_left _ (by decide), List.getElem?_append_right (by omega),
    List.getElem?_append_right (by omega), hlen, Nat.add_assoc, Nat.add_sub_cancel_left,
    Nat.add_sub_cancel_left]
  exact ⟨hefs, hegs⟩

theorem mem_coresEntries {e : GdtEntry} {n : Nat} (h : e ∈ coresEntries base n) :
    ∃ j, e = fsOrGsEntry (fsAddress base j) sizeofFsContent ∨
      e = fsOrGsEntry (gsAddress base j) sizeofGsContent := by
  obtain ⟨j, -, hj⟩ := List.mem_flatMap.mp h
  exact ⟨j, by simpa [coreEntries] using hj⟩

theorem gsAddress_ne_fsAddress (base : UInt32) (i j : Nat) : gsAddress base j ≠ fsAddress base i := by
  intro h
  have hnat := congrArg UInt32.toNat h
  simp only [gsAddress, fsAddress, UInt32.toNat_add, UInt32.toNat_mul, UInt32.toNat_ofNat',
    UInt32.reduceToNat] at hnat
  omega

/-- Wherever the FS of a core points in the table, the segment is not that of the core, or it is
too small for its id. -/
theorem not_fits_fs (h : initMulticoreGdt base old = .ok g) {coreId : UInt8} {e : GdtEntry}
    (he : g.descriptor (coreBootstrap32 coreId.toUInt32).fs = some e)
    (hbase : e.base = (fsAddress base coreId.toNat).toNat) : ¬ e.Fits 0 4 := by
  obtain ⟨-, hm, hholds⟩ := holds_of_initMulticoreGdt h
  have hlen : old.entries.length ≤ 4 := by rwa [OldGdt.length_entries]
  rw [hholds.descriptor_eq, (coreBootstrap32_toNat coreId).1,
    Nat.mul_div_cancel_left _ (by decide), List.getElem?_append_right (by omega)] at he
  obtain ⟨j, rfl | rfl⟩ := mem_coresEntries (List.mem_of_getElem? he)
  · rw [fsEntry_fits]
    decide
  · rw [fsOrGsEntry_base] at hbase
    exact absurd (UInt32.toNat.inj hbase) (gsAddress_ne_fsAddress base _ _)

theorem bootSelectors_fs_ne (coreId : UInt8) (r : SegmentRegisters) :
    (bootSelectors coreId r).fs ≠ (coreBootstrap32 coreId.toUInt32).fs := by
  intro hsame
  rw [(bootSelectors_eq coreId r).1] at hsame
  have hnat := congrArg UInt16.toNat hsame
  rw [(coreBootstrap32_toNat coreId).1, (coreBootstrap32_toNat coreId).2] at hnat
  omega

/-- **The boot paths agree for no core**, whatever boot table was copied: the boot core has FS and
GS exchanged, and a segment of FS that is the core's has no room for 4 bytes. -/
theorem not_selectorsAgree (h : initMulticoreGdt base old = .ok g) (coreId : UInt8) :
    ¬ SelectorsAgree g base coreId ∧
      (∀ r, (bootSelectors coreId r).fs ≠ (coreBootstrap32 coreId.toUInt32).fs) ∧
      ¬ ∃ e, g.descriptor (coreBootstrap32 coreId.toUInt32).fs = some e ∧
        e.base = (fsAddress base coreId.toNat).toNat ∧ e.Fits 0 4 := by
  refine ⟨fun hagree => bootSelectors_fs_ne coreId ⟨0, 0⟩ (hagree.sameFs _),
    bootSelectors_fs_ne coreId, ?_⟩
  intro h
  obtain ⟨e, he, hbase, hfits⟩ := h
  exact not_fits_fs h he hbase hfits

/-! ## 5. The boot core's loads -/

/-- The table reaches to the two entries that the boot core loads, and the one of FS is of the
kind with 4 bytes. -/
def BootTableFits (old : OldGdt) (coreId : UInt8) : Prop :=
  (entryCount old.limit = 2 ∨ entryCount old.limit = 4) ∧
    2 * coreId.toNat + 5 < entryCount old.limit + 2 * maxCoreCount

instance (old : OldGdt) (coreId : UInt8) : Decidable (BootTableFits old coreId) :=
  inferInstanceAs (Decidable (_ ∧ _))

theorem fsOrGsEntry_loadable (a size : UInt32) : (fsOrGsEntry a size).loadable = true := by
  simp [GdtEntry.loadable, fsOrGsEntry, GdtEntry.setLimit, GdtEntry.setBase]

theorem gsEntry_fits (a : UInt32) : (fsOrGsEntry a sizeofGsContent).Fits 0 4 := by
  have hlast : (fsOrGsEntry a sizeofGsContent).lastOffset = 3 := by
    simp [GdtEntry.lastOffset, GdtEntry.limit, fsOrGsEntry, GdtEntry.setLimit, GdtEntry.setBase,
      sizeofGsContent, GdtEntry.zero]
  rw [GdtEntry.Fits, hlast]

/-- The boot core's selectors are behind what was copied. -/
theorem bootDescriptors (hholds : g.Holds (old.entries ++ coresEntries base maxCoreCount))
    (h4 : entryCount old.limit ≤ 4) (coreId : UInt8) (r : SegmentRegisters) :
    g.descriptor (bootSelectors coreId r).gs
        = (coresEntries base maxCoreCount)[2 * coreId.toNat + 4 - entryCount old.limit]? ∧
      g.descriptor (bootSelectors coreId r).fs
        = (coresEntries base maxCoreCount)[2 * coreId.toNat + 5 - entryCount old.limit]? := by
  obtain ⟨hfs, hgs⟩ := coreBootstrap32_toNat coreId
  obtain ⟨hbootFs, hbootGs⟩ := bootSelectors_eq coreId r
  have hlen := old.length_entries
  rw [hholds.descriptor_eq, hholds.descriptor_eq, hbootFs, hbootGs, hfs, hgs,
    Nat.mul_div_cancel_left _ (by decide), Nat.mul_div_cancel_left _ (by decide),
    List.getElem?_append_right (by omega), List.getElem?_append_right (by omega), hlen]
  exact ⟨congrArg _ (by omega), congrArg _ (by omega)⟩

/-- **The boot core comes through** its two loads and the store through FS exactly when the boot
table had 2 or 4 entries and the new one reaches to its id. -/
theorem bootCoreLoads_iff (h : initMulticoreGdt base old = .ok g) (coreId : UInt8)
    (r : SegmentRegisters) :
    (g.loads (bootSelectors coreId r).gs = true ∧ g.loads (bootSelectors coreId r).fs = true ∧
      g.takesCoreId (bootSelectors coreId r).fs = true) ↔ BootTableFits old coreId := by
  obtain ⟨h1, h4, hholds⟩ := holds_of_initMulticoreGdt h
  obtain ⟨hgs, hfs⟩ := bootDescriptors hholds h4 coreId r
  have hlen := length_coresEntries base maxCoreCount
  have h12 : maxCoreCount = 12 := rfl
  rw [Gdt.loads, Gdt.loads, Gdt.takesCoreId, hgs, hfs]
  constructor
  · intro hloads
    obtain ⟨-, -, htakes⟩ := hloads
    obtain ⟨e, he, hfits⟩ := (Option.any_eq_true _ _).mp htakes
    obtain ⟨hlt, -⟩ := List.getElem?_eq_some_iff.mp he
    -- an even entry is that of an FS, with one byte
    have hodd : (2 * coreId.toNat + 5 - entryCount old.limit) % 2 = 1 := by
      by_contra heven
      obtain ⟨j, hj⟩ : ∃ j, 2 * coreId.toNat + 5 - entryCount old.limit = 2 * j :=
        ⟨_, (Nat.mul_div_cancel' (by omega)).symm⟩
      rw [hj, (getElem?_coresEntries base (by omega)).1] at he
      rw [← Option.some.inj he] at hfits
      exact absurd ((fsEntry_fits _ 4).mp (of_decide_eq_true hfits)) (by decide)
    exact ⟨by omega, by omega⟩
  · intro hfit
    obtain ⟨heven, hroom⟩ := hfit
    obtain ⟨j, hj⟩ : ∃ j, 2 * coreId.toNat + 4 - entryCount old.limit = 2 * j :=
      ⟨coreId.toNat + 2 - entryCount old.limit / 2, by omega⟩
    have hj12 : j < maxCoreCount := by omega
    obtain ⟨hfsEntry, hgsEntry⟩ := getElem?_coresEntries base hj12
    have hnext : 2 * coreId.toNat + 5 - entryCount old.limit = 2 * j + 1 := by omega
    rw [hj, hnext, hfsEntry, hgsEntry]
    exact ⟨fsOrGsEntry_loadable _ _, fsOrGsEntry_loadable _ _, decide_eq_true (gsEntry_fits _)⟩

/-- A boot table of 4 entries: the null segment, then three alike. -/
def bootGdt : OldGdt where
  entry i := if i = 0 then .zero else fsOrGsEntry 0 0
  limit := 31

theorem initMulticoreGdt_bootGdt : ∃ g, initMulticoreGdt 0x8000 bootGdt = .ok g := by
  obtain ⟨g, hg, -⟩ := initMulticoreGdt_spec 0x8000 bootGdt
  exact ⟨g, hg⟩

theorem not_selectorsAgree_bootGdt : ∃ g, initMulticoreGdt 0x8000 bootGdt = .ok g ∧
    ∀ e, g.descriptor (coreBootstrap32 3).fs = some e → ¬ (e.base = 0x8018 ∧ e.Fits 0 4) := by
  obtain ⟨g, hg⟩ := initMulticoreGdt_bootGdt
  exact ⟨g, hg, fun e he hfits => (not_selectorsAgree hg 3).2.2 ⟨e, he, hfits.1, hfits.2⟩⟩

/-- Core 0 of that table: the boot core has 0x28 in FS, `core_bootstrap32` loads 0x20. -/
theorem selectors_disagree_bootGdt : ∃ g, initMulticoreGdt 0x8000 bootGdt = .ok g ∧
    ¬ SelectorsAgree g 0x8000 0 ∧ (bootSelectors 0 ⟨0, 0⟩).fs = 0x28 ∧
    (coreBootstrap32 0).fs = 0x20 := by
  obtain ⟨g, hg⟩ := initMulticoreGdt_bootGdt
  exact ⟨g, hg, fun hagree => bootSelectors_fs_ne 0 ⟨0, 0⟩ (hagree.sameFs _), by decide, by decide⟩

end MapleKernel.Cpu
