/-
  File:      Firmware/Acpi.lean
  Subject:   FROM THE RSDP TO THE MADT (`acpi.cpp`, and its use in `kernel_cpp.cpp`).

  The RSDP holds the address of the RSDT, and the RSDT is a header and the addresses of the other
  tables. A search takes the first of them whose signature has the wanted four bytes; the caller
  gives what it returns to `parse_madt`, also where that is `NULL`. An entry may be 0, which is then
  a table at that address: the check of `strncmp` for `NULL` in the debug build is left out.

  * `findTable`, `findMADT` -- from the source; the entries read are ghost data;
  * `listedTables`, `FirstListed` -- the tables of an RSDT, and the first of a name;
  * `findTable_searched` -- what a search returns and reads, on any memory;
  * `multicoreSetup_madt` -- what the kernel parses: the records of the first MADT, and when the
    search stays inside the RSDT.
-/
import MapleKernel.Firmware.Madt
import MapleKernel.Stdlib.StringCompare

namespace MapleKernel.Firmware

open Stdlib

/-! ## 1. The tables -/

/-- A string for a comparison with a `Signature`: four bytes, and the NUL behind them. -/
structure TableName where
  name : CStrings.CString
  length_eq : name.bytes.length = 4

/-- `"FACP"`. -/
def TableName.facp : TableName := ⟨⟨[0x46, 0x41, 0x43, 0x50], by decide⟩, rfl⟩

/-- `"APIC"`. -/
def TableName.apic : TableName := ⟨⟨[0x41, 0x50, 0x49, 0x43], by decide⟩, rfl⟩

/-- `h->Signature`, an array of four bytes at the start of the header. -/
def signature (mem : Memory) (h : UInt32) : List UInt8 :=
  [mem h, mem (h + 1), mem (h + 2), mem (h + 3)]

/-- `rsdp->RsdtAddress`; the structure is packed. -/
def rsdtAddress (mem : Memory) (rsdp : UInt32) : UInt32 := mem.read32 (rsdp + 16)

/-- `rsdt->header.Length`. -/
def rsdtLength (mem : Memory) (rsdt : UInt32) : UInt32 := mem.read32 (rsdt + 4)

/-- `sizeof(rsdt->header)`. -/
def sizeofHeader : UInt32 := 36

/-- `entries`; the subtraction is unsigned. -/
def rsdtEntries (mem : Memory) (rsdt : UInt32) : UInt32 := (rsdtLength mem rsdt - sizeofHeader) / 4

/-- `rsdt->Entries[i]`. -/
def rsdtEntry (mem : Memory) (rsdt : UInt32) (i : Nat) : UInt32 :=
  mem.read32 (rsdt + sizeofHeader + 4 * .ofNat i)

/-! ## 2. The search -/

/-- What a search returns; `0` is `NULL`. Ghost data: `reads` are the entries that were read. -/
structure TableSearch where
  table : UInt32
  reads : List Nat
  deriving DecidableEq, Repr

/-- The loop, from the entry `i` on, with `left` entries to go. -/
def findTableLoop (mem : Memory) (rsdt : UInt32) (sig : TableName) :
    Nat → Nat → List Nat → Except ReadFault TableSearch
  | 0, _, reads => .ok ⟨0, reads⟩
  | left + 1, i, reads => do
      let h := rsdtEntry mem rsdt i
      let order ← strncmp (signature mem h) sig.name.block 4
      if order = 0 then .ok ⟨h, reads ++ [i]⟩
      else findTableLoop mem rsdt sig left (i + 1) (reads ++ [i])

def findTable (mem : Memory) (rsdt : UInt32) (sig : TableName) : Except ReadFault TableSearch :=
  findTableLoop mem rsdt sig (rsdtEntries mem rsdt).toNat 0 []

def findMADT (mem : Memory) (rsdt : UInt32) : Except ReadFault TableSearch :=
  findTable mem rsdt .apic

/-- `multicore_setup` up to `parse_madt`, which returns `r`. The result of the search is not
compared with `NULL`. -/
def MulticoreSetupMadt (mem : Memory) (rsdp : UInt32) (r : MadtParseResult) : Prop :=
  ∃ s, findMADT mem (rsdtAddress mem rsdp) = .ok s ∧ ParseMadt mem s.table r

/-! ## 3. The tables of an RSDT -/

/-- The table at `h` has this name. -/
def HasName (mem : Memory) (sig : TableName) (h : UInt32) : Prop :=
  signature mem h = sig.name.bytes

instance (mem : Memory) (sig : TableName) : DecidablePred (HasName mem sig) := fun h =>
  inferInstanceAs (Decidable (signature mem h = sig.name.bytes))

/-- The tables whose addresses stand inside the RSDT, in order. -/
def listedTables (mem : Memory) (rsdt : UInt32) : List UInt32 :=
  (List.range (((rsdtLength mem rsdt).toNat - sizeofHeader.toNat) / 4)).map (rsdtEntry mem rsdt)

/-- `h` is the first table with this name. -/
def FirstListed (mem : Memory) (rsdt : UInt32) (sig : TableName) (h : UInt32) : Prop :=
  HasName mem sig h ∧ ∃ before behind, listedTables mem rsdt = before ++ h :: behind ∧
    ∀ h' ∈ before, ¬ HasName mem sig h'

/-- The entry `i` lies before the end of the RSDT. -/
def EntryInside (mem : Memory) (rsdt : UInt32) (i : Nat) : Prop :=
  sizeofHeader.toNat + 4 * i + 4 ≤ (rsdtLength mem rsdt).toNat

/-- Every entry that the search reads lies before the end of the RSDT. -/
def SearchInside (mem : Memory) (rsdt : UInt32) (sig : TableName) : Prop :=
  ∃ s, findTable mem rsdt sig = .ok s ∧ ∀ i ∈ s.reads, EntryInside mem rsdt i

/-- The header fits into the RSDT. -/
def HeaderFits (mem : Memory) (rsdt : UInt32) : Prop :=
  sizeofHeader.toNat ≤ (rsdtLength mem rsdt).toNat

section Search

variable {mem : Memory} {rsdt : UInt32} {sig : TableName}

theorem strncmp_signature (mem : Memory) (sig : TableName) (h : UInt32) :
    ∃ r, strncmp (signature mem h) sig.name.block 4 = .ok r ∧ (r = 0 ↔ HasName mem sig h) := by
  have hlen : (signature mem h).length = sig.name.bytes.length := sig.length_eq.symm
  obtain ⟨r, hr, hzero⟩ := strncmpLoop_of_length [0] hlen sig.name.nul_not_mem
  rw [sig.length_eq] at hr
  exact ⟨r, hr, hzero⟩

/-- A round that finds nothing goes on, and one that finds the name returns its table. -/
theorem findTableLoop_succ (left i : Nat) (reads : List Nat) :
    findTableLoop mem rsdt sig (left + 1) i reads =
      if HasName mem sig (rsdtEntry mem rsdt i) then .ok ⟨rsdtEntry mem rsdt i, reads ++ [i]⟩
      else findTableLoop mem rsdt sig left (i + 1) (reads ++ [i]) := by
  obtain ⟨r, hr, hzero⟩ := strncmp_signature mem sig (rsdtEntry mem rsdt i)
  rw [findTableLoop, hr]
  exact if_congr hzero rfl rfl

/-- What a loop from entry `i` on returns and reads. -/
structure Searched (mem : Memory) (rsdt : UInt32) (sig : TableName) (left i : Nat)
    (reads : List Nat) (s : TableSearch) : Prop where
  table : s.table =
    (((List.range' i left).map (rsdtEntry mem rsdt)).find? fun h => HasName mem sig h).getD 0
  below : ∀ j ∈ s.reads, j ∈ reads ∨ j < i + left
  kept : ∀ j ∈ reads, j ∈ s.reads
  first : 0 < left → i ∈ s.reads

theorem findTableLoop_searched (left i : Nat) (reads : List Nat) :
    ∃ s, findTableLoop mem rsdt sig left i reads = .ok s ∧
      Searched mem rsdt sig left i reads s := by
  induction left generalizing i reads with
  | zero =>
      exact ⟨_, rfl, rfl, fun _ hj => Or.inl hj, fun _ hj => hj, fun h => absurd h (by decide)⟩
  | succ left ih =>
      rw [findTableLoop_succ]
      have hself : i ∈ reads ++ [i] := List.mem_append_right reads List.mem_cons_self
      have hnew : ∀ j ∈ reads ++ [i], j ∈ reads ∨ j < i + (left + 1) := by
        intro j hj
        refine (List.mem_append.mp hj).imp_right fun h => ?_
        rw [List.mem_singleton.mp h]
        exact Nat.lt_add_of_pos_right left.succ_pos
      have hrange : (List.range' i (left + 1)).map (rsdtEntry mem rsdt) =
          rsdtEntry mem rsdt i :: (List.range' (i + 1) left).map (rsdtEntry mem rsdt) := rfl
      by_cases hname : HasName mem sig (rsdtEntry mem rsdt i)
      · rw [if_pos hname]
        refine ⟨_, rfl, ?_, hnew, fun j hj => List.mem_append_left [i] hj, fun _ => hself⟩
        rw [hrange, List.find?_cons_of_pos]
        · rfl
        · exact decide_eq_true hname
      · rw [if_neg hname]
        obtain ⟨s, hs, h⟩ := ih (i + 1) (reads ++ [i])
        refine ⟨s, hs, ?_, fun j hj => ?_, fun j hj => ?_, fun _ => h.kept i hself⟩
        · rw [h.table, hrange, List.find?_cons_of_neg]
          exact fun h => hname (of_decide_eq_true h)
        · rcases h.below j hj with hj | hj
          · exact hnew j hj
          · exact Or.inr (by omega)
        · exact h.kept j (List.mem_append_left [i] hj)

theorem findTable_searched (mem : Memory) (rsdt : UInt32) (sig : TableName) :
    ∃ s, findTable mem rsdt sig = .ok s ∧
      Searched mem rsdt sig (rsdtEntries mem rsdt).toNat 0 [] s :=
  findTableLoop_searched _ 0 []

/-! ## 4. Inside the RSDT -/

theorem rsdtEntries_eq (h : HeaderFits mem rsdt) :
    (rsdtEntries mem rsdt).toNat = ((rsdtLength mem rsdt).toNat - sizeofHeader.toNat) / 4 := by
  rw [rsdtEntries, UInt32.toNat_div, UInt32.toNat_sub_of_le _ _ (UInt32.le_iff_toNat_le.mpr h)]
  rfl

/-- The difference wraps, and a quarter of it is large. -/
theorem rsdtEntries_pos (h : ¬ HeaderFits mem rsdt) : 0 < (rsdtEntries mem rsdt).toNat := by
  have hheader : sizeofHeader.toNat = 36 := rfl
  have hlt : (rsdtLength mem rsdt).toNat < 36 := Nat.lt_of_not_le h
  have hfour : (4 : UInt32).toNat = 4 := rfl
  rw [rsdtEntries, UInt32.toNat_div, UInt32.toNat_sub, hheader, hfour]
  omega

/-- **A search stays inside the RSDT** exactly when the stated length covers the header. -/
theorem searchInside_iff : SearchInside mem rsdt sig ↔ HeaderFits mem rsdt := by
  obtain ⟨s, hs, hsearch⟩ := findTable_searched mem rsdt sig
  constructor
  · rintro ⟨s', hs', hinside⟩
    obtain rfl := Except.ok.inj (hs.symm.trans hs')
    by_contra hfits
    have hzero : EntryInside mem rsdt 0 := hinside 0 (hsearch.first (rsdtEntries_pos hfits))
    exact hfits ((Nat.le_add_right _ _).trans hzero)
  · intro hfits
    refine ⟨s, hs, fun i hi => ?_⟩
    have hlt : i < 0 + (rsdtEntries mem rsdt).toNat :=
      (hsearch.below i hi).resolve_left List.not_mem_nil
    have hlen : sizeofHeader.toNat ≤ (rsdtLength mem rsdt).toNat := hfits
    rw [rsdtEntries_eq hfits] at hlt
    unfold EntryInside
    omega

/-- There a search returns the first listed table of the name, or `NULL`. -/
theorem findTable_listed (sig : TableName) (hfits : HeaderFits mem rsdt) :
    ∃ s, findTable mem rsdt sig = .ok s ∧
      s.table = ((listedTables mem rsdt).find? fun h => HasName mem sig h).getD 0 := by
  obtain ⟨s, hs, hsearch⟩ := findTable_searched mem rsdt sig
  refine ⟨s, hs, ?_⟩
  rw [hsearch.table, rsdtEntries_eq hfits, ← List.range_eq_range', listedTables]

theorem FirstListed.find {h : UInt32} (hfirst : FirstListed mem rsdt sig h) :
    ((listedTables mem rsdt).find? fun h => HasName mem sig h) = some h := by
  obtain ⟨hname, before, behind, hlist, hbefore⟩ := hfirst
  refine List.find?_eq_some_iff_append.mpr ⟨decide_eq_true hname, before, behind, hlist, ?_⟩
  intro h' hmem
  rw [decide_eq_false (hbefore h' hmem)]
  rfl

theorem find_of_not_listed (hnone : ∀ h ∈ listedTables mem rsdt, ¬ HasName mem sig h) :
    ((listedTables mem rsdt).find? fun h => HasName mem sig h) = none :=
  List.find?_eq_none.mpr fun h hmem hname => hnone h hmem (of_decide_eq_true hname)

end Search

/-! ## 5. What the kernel parses -/

section Parse

variable {mem : Memory} {rsdp madt : UInt32}

/-- What `parse_madt` is given is what the search returned. -/
theorem multicoreSetupMadt_iff {s : TableSearch}
    (hs : findMADT mem (rsdtAddress mem rsdp) = .ok s) (r : MadtParseResult) :
    MulticoreSetupMadt mem rsdp r ↔ ParseMadt mem s.table r := by
  constructor
  · rintro ⟨s', hs', hparse⟩
    obtain rfl := Except.ok.inj (hs.symm.trans hs')
    exact hparse
  · exact fun hparse => ⟨s, hs, hparse⟩

theorem multicoreSetupMadt_of_first (hfits : HeaderFits mem (rsdtAddress mem rsdp))
    (hfirst : FirstListed mem (rsdtAddress mem rsdp) .apic madt) (r : MadtParseResult) :
    MulticoreSetupMadt mem rsdp r ↔ ParseMadt mem madt r := by
  obtain ⟨s, hs, htable⟩ := findTable_listed .apic hfits
  rw [hfirst.find, Option.getD_some] at htable
  rw [multicoreSetupMadt_iff hs, htable]

theorem multicoreSetupMadt_of_none (hfits : HeaderFits mem (rsdtAddress mem rsdp))
    (hnone : ∀ h ∈ listedTables mem (rsdtAddress mem rsdp), ¬ HasName mem .apic h)
    (r : MadtParseResult) : MulticoreSetupMadt mem rsdp r ↔ ParseMadt mem 0 r := by
  obtain ⟨s, hs, htable⟩ := findTable_listed .apic hfits
  rw [find_of_not_listed hnone, Option.getD_none] at htable
  rw [multicoreSetupMadt_iff hs, htable]

end Parse

/-- **The kernel parses the first MADT that the RSDT lists**, and gets its records if they tile it
and fit. Without one it parses what stands at address 0. The search stays inside the RSDT exactly
when the stated length covers the header. -/
theorem multicoreSetup_madt (mem : Memory) (rsdp : UInt32) :
    (SearchInside mem (rsdtAddress mem rsdp) .apic ↔ HeaderFits mem (rsdtAddress mem rsdp)) ∧
    (HeaderFits mem (rsdtAddress mem rsdp) →
      (∀ madt, FirstListed mem (rsdtAddress mem rsdp) .apic madt →
        (∀ r, MulticoreSetupMadt mem rsdp r ↔ ParseMadt mem madt r) ∧
        ∀ rs, Tiles mem madt rs → RecordsFit madt rs →
          ∃ r, (∀ r', MulticoreSetupMadt mem rsdp r' ↔ r' = r) ∧ r.HoldsRecords madt rs) ∧
      ((∀ h ∈ listedTables mem (rsdtAddress mem rsdp), ¬ HasName mem .apic h) →
        ∀ r, MulticoreSetupMadt mem rsdp r ↔ ParseMadt mem 0 r)) := by
  refine ⟨searchInside_iff, fun hfits => ⟨fun madt hfirst => ?_, multicoreSetupMadt_of_none hfits⟩⟩
  have hparse := multicoreSetupMadt_of_first hfits hfirst
  refine ⟨hparse, fun rs htiles hmax => ?_⟩
  obtain ⟨r, hr, hholds⟩ := htiles.parsed hmax
  refine ⟨r, fun r' => ?_, hholds⟩
  rw [hparse]
  constructor
  · exact fun hr' => Iteration.Returns.unique hr' hr
  · rintro rfl
    exact hr

/-- An RSDP, an RSDT that lists two tables, and behind it these: the signature of the first, and a
MADT of one processor. -/
def smallFirmware : Memory :=
  bytesAt 0x1000 (List.replicate 16 0 ++ [0x14, 0x10, 0, 0] ++
    [0, 0, 0, 0, 44] ++ List.replicate 31 0 ++ [0x40, 0x10, 0, 0] ++ [0x44, 0x10, 0, 0] ++
    TableName.facp.name.bytes ++
    TableName.apic.name.bytes ++ [52] ++ List.replicate 39 0 ++ [0, 8, 0, 0, 1, 0, 0, 0])

theorem multicoreSetup_madt_smallFirmware :
    ∃ r, (∀ r', MulticoreSetupMadt smallFirmware 0x1000 r' ↔ r' = r) ∧
      r.HoldsRecords 0x1044 [⟨0, 8⟩] := by
  have hfirst : FirstListed smallFirmware (rsdtAddress smallFirmware 0x1000) .apic 0x1044 :=
    ⟨by decide +kernel, [0x1040], [], by decide +kernel,
      List.forall_mem_singleton.mpr (by decide +kernel)⟩
  have htiles : Tiles smallFirmware 0x1044 [⟨0, 8⟩] :=
    ⟨by decide +kernel, ⟨by decide +kernel, by decide +kernel, by decide, trivial⟩,
      by decide +kernel⟩
  have hfits : HeaderFits smallFirmware (rsdtAddress smallFirmware 0x1000) := by
    unfold HeaderFits
    decide +kernel
  refine (((multicoreSetup_madt smallFirmware 0x1000).2 hfits).1 0x1044 hfirst).2 _ htiles ?_
  intro t
  cases t <;> decide +kernel

end MapleKernel.Firmware
