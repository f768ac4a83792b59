/-
  File:      Kernel/Symbols.lean
  Subject:   LOOKUPS IN THE SYMBOL TABLE OF THE KERNEL (`symbols.c`).

  The linker puts the symbols of the kernel between `__ksymtab_start` and `__ksymtab_end`.
  `init_elf_symbols` counts them. Each lookup means to do that itself on its first use, but it asks
  whether the pointer to the table is `NULL`, and that pointer is never: what is missing before is
  the count.

  * `findSymbolAddress`, `findSymbolName`, `findNearestSymbol` -- from the source;
  * `NearestAnswer`, `AddressAnswer`, `NameAnswer` -- what they should answer, over the table alone;
  * `lookups_answer` -- that is what they answer once `init_elf_symbols` has run;
  * `sameAnswer_iff` -- before, a lookup answers the same exactly when the table has nothing for it.
-/
import MapleKernel.Lib.CString
import MapleKernel.Lib.FirstFound
import MapleKernel.Lib.FirstGreatest
import MapleKernel.Lib.Loop
import MapleKernel.Lib.Program
import MapleKernel.Lib.Run

namespace MapleKernel.Kernel

open CStrings FirstFound GreatestKeys Loops Program Runs

/-! ## 1. The table -/

/-- `Elf32_Sym`. -/
structure Elf32Sym where
  name : UInt32
  value : UInt32
  size : UInt32
  info : UInt8
  other : UInt8
  shndx : UInt16
  deriving DecidableEq, Repr

/-- What the linker provides. No object has the null address, and none is larger than the address
space. -/
structure LinkedSymbols where
  ksymtabStart : UInt32
  start_ne_null : ksymtabStart ≠ 0
  /-- The bytes from `__ksymtab_start` to `__ksymtab_end`. -/
  ksymtab : List UInt8
  size_lt : ksymtab.length < 2 ^ 32
  /-- What lies in memory from `__kstrtab_start` on. -/
  kstrtab : Nat → UInt8

namespace LinkedSymbols

variable (L : LinkedSymbols)

/-- `__ksymtab_end - __ksymtab_start`, a `ptrdiff_t`. -/
def ksymtabSize : Int := Int.bmod L.ksymtab.length (2 ^ 32)

def byte (k : Nat) : UInt8 := L.ksymtab.getD k 0

def half (k : Nat) : UInt16 := (L.byte k).toUInt16 ||| (L.byte (k + 1)).toUInt16 <<< 8

def word (k : Nat) : UInt32 := (L.half k).toUInt32 ||| (L.half (k + 2)).toUInt32 <<< 16

/-- `elf_symtab[i]`. -/
def sym (i : Nat) : Elf32Sym where
  name := L.word (16 * i)
  value := L.word (16 * i + 4)
  size := L.word (16 * i + 8)
  info := L.byte (16 * i + 12)
  other := L.byte (16 * i + 13)
  shndx := L.half (16 * i + 14)

/-- How many symbols there are. -/
def count : Nat := L.ksymtab.length / 16

end LinkedSymbols

/-! ## 2. The functions -/

inductive SymbolsHalt where
  | aborted
  deriving DecidableEq, Repr

structure KprintfCall where
  format : String
  args : List Int
  deriving DecidableEq, Repr

/-- The static variables, and what was printed. `elf_strtab` is not assigned anywhere. -/
structure SymbolState where
  elfSymtab : UInt32
  elfSymcount : Nat
  printed : List KprintfCall
  deriving DecidableEq, Repr

def SymbolState.boot (L : LinkedSymbols) : SymbolState := ⟨L.ksymtabStart, 0, []⟩

abbrev SymbolProg := Prog LinkedSymbols SymbolState SymbolsHalt

/-- `NULL`, or `elf_strtab` plus an index. -/
abbrev StrtabPtr := Option UInt32

def kprintf (format : String) (args : List Int) : SymbolProg Unit :=
  Prog.modify fun s => { s with printed := s.printed ++ [⟨format, args⟩] }

/-- The division is one of `size_t`, the remainder one of `int`. -/
def initElfSymbols : SymbolProg Unit := do
  let L ← Prog.ask
  Prog.modify fun s => { s with elfSymcount := (L.ksymtabSize % 2 ^ 32 / 16).toNat }
  if L.ksymtabSize.tmod 16 ≠ 0 then
    kprintf "ERROR: Symbol table size not multiple of 16!\n" []
    kprintf "Size mod 16 = %d\n" [L.ksymtabSize.tmod 16]
    Prog.halt .aborted
  else
    let s ← Prog.get
    kprintf "ELF symbols: %d entries\n" [s.elfSymcount]

/-- `if (!elf_symtab) init_elf_symbols();`. -/
def initOnFirstUse : SymbolProg Unit := do
  let s ← Prog.get
  if s.elfSymtab = 0 then initElfSymbols else pure ()

/-- The comparison in `find_symbol_address`, with `symname` at an index of the string table: the
loop cannot pass the NUL of `name`. -/
def matchesName (strtab : Nat → UInt8) : Nat → List UInt8 → Bool
  | symname, [] => strtab symname = 0
  | symname, c :: n =>
      if strtab symname ≠ 0 ∧ strtab symname = c then matchesName strtab (symname + 1) n
      else strtab symname = c

/-- The loop of `find_symbol_address`. -/
def addressLoop (L : LinkedSymbols) (name : CString) (symcount : Nat) : Option UInt32 :=
  (List.range symcount).findSome? fun i =>
    if matchesName L.kstrtab (L.sym i).name.toNat name.bytes then some (L.sym i).value else none

def findSymbolAddress (name : CString) : SymbolProg UInt32 := do
  initOnFirstUse
  let L ← Prog.ask
  let s ← Prog.get
  return (addressLoop L name s.elfSymcount).getD 0

/-- The loop of `find_symbol_name`. -/
def nameLoop (L : LinkedSymbols) (address : UInt32) (symcount : Nat) : StrtabPtr :=
  (List.range symcount).findSome? fun i =>
    if (L.sym i).value = address then some (L.sym i).name else none

def findSymbolName (address : UInt32) : SymbolProg StrtabPtr := do
  initOnFirstUse
  let L ← Prog.ask
  let s ← Prog.get
  return nameLoop L address s.elfSymcount

/-- One turn of the loop of `find_nearest_symbol`, on `best_name` and `best_addr`. -/
def nearestStep (L : LinkedSymbols) (address : UInt32) (i : Nat) (best : StrtabPtr × UInt32) :
    StrtabPtr × UInt32 :=
  let symAddr := (L.sym i).value
  if symAddr ≠ 0 ∧ symAddr ≤ address then
    if symAddr > best.2 then (some (L.sym i).name, symAddr) else best
  else best

/-- What `find_nearest_symbol` returns, and what it leaves behind `offset` if that is not `NULL`. -/
def nearestLoop (L : LinkedSymbols) (address : UInt32) (offset : Option UInt32) (symcount : Nat) :
    StrtabPtr × Option UInt32 :=
  let best := forRange symcount (nearestStep L address) (none, 0)
  if best.1 ≠ none ∧ offset ≠ none then (best.1, some (address - best.2)) else (best.1, offset)

/-- `offset` is what the pointer of that name points at, if it is not `NULL`. -/
def findNearestSymbol (address : UInt32) (offset : Option UInt32) :
    SymbolProg (StrtabPtr × Option UInt32) := do
  initOnFirstUse
  let L ← Prog.ask
  let s ← Prog.get
  return nearestLoop L address offset s.elfSymcount

/-! ## 3. The loops -/

namespace LinkedSymbols

variable (L : LinkedSymbols)

/-- Symbol `i` has the name. -/
def Named (name : CString) (i : Nat) : Prop := HoldsString L.kstrtab (L.sym i).name.toNat name

/-- Symbol `i` has an address, and not one above `address`. -/
def AtOrBelow (address : UInt32) (i : Nat) : Prop :=
  (L.sym i).value ≠ 0 ∧ (L.sym i).value ≤ address

/-- Symbol `i` is the first of those at or below `address` with the greatest value. -/
abbrev Nearest (address : UInt32) (i : Nat) : Prop :=
  FirstGreatest (L.AtOrBelow address) (fun j => (L.sym j).value.toNat) L.count i

/-- What `find_nearest_symbol` should answer. -/
def NearestAnswer (address : UInt32) (offset : Option UInt32)
    (r : StrtabPtr × Option UInt32) : Prop :=
  (∃ i, L.Nearest address i ∧
      r = (some (L.sym i).name, offset.map fun _ => address - (L.sym i).value)) ∨
    (∀ i, i < L.count → ¬ L.AtOrBelow address i) ∧ r = (none, offset)

/-- What `find_symbol_address` should answer: 0 where there is no such symbol. -/
def AddressAnswer (name : CString) (r : UInt32) : Prop :=
  (∃ i, IsFirst (L.Named name) L.count i ∧ r = (L.sym i).value) ∨
    (∀ i, i < L.count → ¬ L.Named name i) ∧ r = 0

/-- What `find_symbol_name` should answer. -/
def NameAnswer (address : UInt32) (r : StrtabPtr) : Prop :=
  (∃ i, IsFirst (fun j => (L.sym j).value = address) L.count i ∧ r = some (L.sym i).name) ∨
    (∀ i, i < L.count → (L.sym i).value ≠ address) ∧ r = none

end LinkedSymbols

section Loops

variable {L : LinkedSymbols} {address : UInt32} {n : Nat}

theorem matchesName_iff {strtab : Nat → UInt8} {p : Nat} {name : CString} :
    matchesName strtab p name.bytes = true ↔ HoldsString strtab p name := by
  induction name generalizing p with
  | nil => exact decide_eq_true_iff.trans holdsString_nil_iff.symm
  | cons c hc name ih =>
      rw [holdsString_cons_iff]
      show matchesName strtab p (c :: name.bytes) = true ↔ _
      rw [matchesName]
      by_cases hp : strtab p = c
      · rw [if_pos ⟨hp.trans_ne hc, hp⟩, ih]
        exact (and_iff_right hp).symm
      · rw [if_neg (fun h => hp h.2), decide_eq_true_iff]
        exact iff_of_false hp fun h => hp h.1

instance (name : CString) (i : Nat) : Decidable (L.Named name i) :=
  decidable_of_iff _ matchesName_iff

theorem addressLoop_eq (name : CString) (n : Nat) :
    addressLoop L name n = (List.range n).findSome? fun i =>
      if L.Named name i then some (L.sym i).value else none := by
  rw [addressLoop]
  congr 1
  funext i
  exact if_congr matchesName_iff rfl rfl

theorem addressLoop_answer (name : CString) :
    L.AddressAnswer name ((addressLoop L name L.count).getD 0) := by
  rw [addressLoop_eq]
  cases hfound : (List.range L.count).findSome? fun i =>
      if L.Named name i then some (L.sym i).value else none with
  | none => exact Or.inr ⟨findSome_test_none.mp hfound, rfl⟩
  | some v => exact Or.inl (findSome_test.mp hfound)

theorem nameLoop_answer (address : UInt32) : L.NameAnswer address (nameLoop L address L.count) := by
  cases hfound : nameLoop L address L.count with
  | none => exact Or.inr ⟨findSome_test_none.mp hfound, rfl⟩
  | some v =>
      obtain ⟨i, hfirst, rfl⟩ := findSome_test.mp hfound
      exact Or.inl ⟨i, hfirst, rfl⟩

/-- What `best_name` and `best_addr` are after `n` turns. -/
def BestSoFar (L : LinkedSymbols) (address : UInt32) (n : Nat) (best : StrtabPtr × UInt32) : Prop :=
  (∃ i, FirstGreatest (L.AtOrBelow address) (fun j => (L.sym j).value.toNat) n i ∧
      best = (some (L.sym i).name, (L.sym i).value)) ∨
    (∀ i, i < n → ¬ L.AtOrBelow address i) ∧ best = (none, 0)

/-- One turn: the entry is the first, a better one, or not better. -/
theorem bestSoFar_step {best : StrtabPtr × UInt32} (h : BestSoFar L address n best) :
    BestSoFar L address (n + 1) (nearestStep L address n best) := by
  rw [nearestStep]
  by_cases hn : (L.sym n).value ≠ 0 ∧ (L.sym n).value ≤ address
  · rw [if_pos hn]
    rcases h with ⟨i, hi, rfl⟩ | ⟨hnone, rfl⟩
    · by_cases hless : (L.sym i).value < (L.sym n).value
      · rw [if_pos hless]
        exact Or.inl ⟨n, hi.replace hn (UInt32.lt_iff_toNat_lt.mp hless), rfl⟩
      · rw [if_neg hless]
        refine Or.inl ⟨i, hi.keep fun _ => ?_, rfl⟩
        exact Nat.le_of_not_lt fun hlt => hless (UInt32.lt_iff_toNat_lt.mpr hlt)
    · have hpos : (L.sym n).value > 0 := UInt32.pos_iff_ne_zero.mpr hn.1
      rw [if_pos hpos]
      exact Or.inl ⟨n, .start hnone hn, rfl⟩
  · rw [if_neg hn]
    rcases h with ⟨i, hi, rfl⟩ | ⟨hnone, rfl⟩
    · exact Or.inl ⟨i, hi.keep fun h => absurd h hn, rfl⟩
    · refine Or.inr ⟨fun i hi => ?_, rfl⟩
      rcases Nat.lt_succ_iff_lt_or_eq.mp hi with hlt | rfl
      · exact hnone i hlt
      · exact hn

theorem bestSoFar_forRange (L : LinkedSymbols) (address : UInt32) (n : Nat) :
    BestSoFar L address n (forRange n (nearestStep L address) (none, 0)) :=
  forRange_inv n (Or.inr ⟨fun i hi => absurd hi (Nat.not_lt_zero i), rfl⟩)
    fun _ _ _ h => bestSoFar_step h

theorem nearestLoop_answer (address : UInt32) (offset : Option UInt32) :
    L.NearestAnswer address offset (nearestLoop L address offset L.count) := by
  have hbest := bestSoFar_forRange L address L.count
  rw [nearestLoop]
  rcases hbest with ⟨i, hi, hbest⟩ | ⟨hnone, hbest⟩
  · refine Or.inl ⟨i, hi, ?_⟩
    cases offset with
    | none => simp [hbest]
    | some o => simp [hbest]
  · refine Or.inr ⟨hnone, ?_⟩
    simp [hbest]

end Loops

/-! ## 4. One call -/

section Calls

variable {L : LinkedSymbols} {s s' t : SymbolState}

theorem ksymtabSize_count : (L.ksymtabSize % 2 ^ 32 / 16).toNat = L.count := by
  have hlen := L.size_lt
  have hmod : L.ksymtabSize % 2 ^ 32 = (L.ksymtab.length : Int) % 2 ^ 32 :=
    Int.bmod_emod
  rw [hmod, LinkedSymbols.count]
  omega

theorem ksymtabSize_tmod : L.ksymtabSize.tmod 16 = 0 ↔ L.ksymtab.length % 16 = 0 := by
  have hsplit := Int.bmod_add_bdiv (L.ksymtab.length : Int) (2 ^ 32)
  have hsize : L.ksymtabSize = Int.bmod L.ksymtab.length (2 ^ 32) := rfl
  rw [← hsize] at hsplit
  rw [← Int.dvd_iff_tmod_eq_zero]
  omega

/-- The only message of a run that goes well. -/
def countMessage (L : LinkedSymbols) : KprintfCall := ⟨"ELF symbols: %d entries\n", [L.count]⟩

theorem initElfSymbols_of_mod (h16 : L.ksymtab.length % 16 = 0) (s : SymbolState) :
    initElfSymbols L s = (.ok (), { s with
      elfSymcount := L.count, printed := s.printed ++ [countMessage L] }) := by
  have htmod := ksymtabSize_tmod.mpr h16
  rw [initElfSymbols, ask_bind, modify_bind, if_neg (not_not.mpr htmod), get_bind,
    ksymtabSize_count]
  rfl

theorem initElfSymbols_abort (h16 : ¬ L.ksymtab.length % 16 = 0) (s : SymbolState) :
    (initElfSymbols L s).1 = .error .aborted := by
  have htmod := mt ksymtabSize_tmod.mp h16
  rw [initElfSymbols, ask_bind, modify_bind, if_pos htmod]
  rfl

theorem initOnFirstUse_eq (L : LinkedSymbols) (s : SymbolState) :
    initOnFirstUse L s = if s.elfSymtab = 0 then initElfSymbols L s else (.ok (), s) := by
  simp only [initOnFirstUse, bind, Prog.get]
  split <;> rfl

/-- Once the table is counted, the guard of a lookup changes nothing in that. -/
theorem initOnFirstUse_of_init (hinit : initElfSymbols L s = (.ok (), s')) :
    ∃ t, initOnFirstUse L s' = (.ok (), t) ∧ t.elfSymcount = L.count := by
  have h16 : L.ksymtab.length % 16 = 0 := by
    by_contra h16
    have habort := initElfSymbols_abort h16 s
    rw [hinit] at habort
    cases habort
  rw [initElfSymbols_of_mod h16] at hinit
  obtain rfl := (Prod.mk.inj hinit).2
  rw [initOnFirstUse_eq]
  split
  · exact ⟨_, initElfSymbols_of_mod h16 _, rfl⟩
  · exact ⟨_, rfl, rfl⟩

theorem findSymbolAddress_of (h : initOnFirstUse L s = (.ok (), t)) (name : CString) :
    findSymbolAddress name L s = (.ok ((addressLoop L name t.elfSymcount).getD 0), t) :=
  bind_of_ok h

theorem findSymbolName_of (h : initOnFirstUse L s = (.ok (), t)) (address : UInt32) :
    findSymbolName address L s = (.ok (nameLoop L address t.elfSymcount), t) :=
  bind_of_ok h

theorem findNearestSymbol_of (h : initOnFirstUse L s = (.ok (), t)) (address : UInt32)
    (offset : Option UInt32) :
    findNearestSymbol address offset L s =
      (.ok (nearestLoop L address offset t.elfSymcount), t) :=
  bind_of_ok h

/-- **After `init_elf_symbols` each lookup answers from the whole table.** A symbol that has an
    address is its own nearest symbol, or has that address with it. -/
theorem lookups_answer (hinit : initElfSymbols L s = (.ok (), s')) :
    (∀ address offset, ∃ r, (findNearestSymbol address offset L s').1 = .ok r ∧
      L.NearestAnswer address offset r ∧
      (r.1 = none ↔ ∀ i, i < L.count → ¬ L.AtOrBelow address i)) ∧
    (∀ name, ∃ v, (findSymbolAddress name L s').1 = .ok v ∧ L.AddressAnswer name v) ∧
    (∀ address, ∃ r, (findSymbolName address L s').1 = .ok r ∧ L.NameAnswer address r) ∧
    ∀ i, i < L.count → (L.sym i).value ≠ 0 → ∀ offset, ∃ name,
      (findNearestSymbol (L.sym i).value (some offset) L s').1 = .ok (some name, some 0) := by
  obtain ⟨t, hguard, hcount⟩ := initOnFirstUse_of_init hinit
  refine ⟨fun address offset => ?_, fun name => ?_, fun address => ?_, fun i hi hvalue offset => ?_⟩
  · rw [findNearestSymbol_of hguard, hcount]
    have hanswer := nearestLoop_answer (L := L) address offset
    refine ⟨_, rfl, hanswer, ?_⟩
    rcases hanswer with ⟨i, hi, hr⟩ | ⟨hnone, hr⟩
    · rw [hr]
      exact iff_of_false (Option.some_ne_none _) fun hnone => hnone i hi.lt hi.eligible
    · rw [hr]
      exact iff_of_true rfl hnone
  · rw [findSymbolAddress_of hguard, hcount]
    exact ⟨_, rfl, addressLoop_answer name⟩
  · rw [findSymbolName_of hguard, hcount]
    exact ⟨_, rfl, nameLoop_answer address⟩
  · rw [findNearestSymbol_of hguard, hcount]
    have hself : L.AtOrBelow (L.sym i).value i := ⟨hvalue, UInt32.le_refl _⟩
    rcases nearestLoop_answer (L := L) (L.sym i).value (some offset) with ⟨j, hj, hr⟩ | ⟨hnone, -⟩
    · have hle : (L.sym j).value ≤ (L.sym i).value := hj.eligible.2
      have hge : (L.sym i).value ≤ (L.sym j).value :=
        UInt32.le_iff_toNat_le.mpr (hj.greatest i hi hself)
      refine ⟨(L.sym j).name, ?_⟩
      rw [hr, UInt32.le_antisymm hle hge]
      simp
    · exact absurd hself (hnone i hi)

/-- A table as the linker makes it: the first symbol is the empty one, the second `kernel_main`. -/
def kernelMainSymbols : LinkedSymbols where
  ksymtabStart := 0x200000
  start_ne_null := by decide
  ksymtab := List.replicate 16 0 ++ [1, 0, 0, 0, 0x10, 0, 0x20, 0, 0, 0, 0, 0, 0x12, 0, 1, 0]
  size_lt := by decide
  kstrtab := fun k =>
    ([0, 0x6B, 0x65, 0x72, 0x6E, 0x65, 0x6C, 0x5F, 0x6D, 0x61, 0x69, 0x6E, 0] : List UInt8).getD k 0

/-- `kernel_main`. -/
def kernelMain : CString where
  bytes := [0x6B, 0x65, 0x72, 0x6E, 0x65, 0x6C, 0x5F, 0x6D, 0x61, 0x69, 0x6E]
  nul_not_mem := by decide

/-- The state in which `init_elf_symbols` leaves it. -/
def kernelMainState : SymbolState :=
  (initElfSymbols kernelMainSymbols (.boot kernelMainSymbols)).2

theorem lookups_answer_kernelMain :
    (∀ address offset, ∃ r,
      (findNearestSymbol address offset kernelMainSymbols kernelMainState).1 = .ok r ∧
      kernelMainSymbols.NearestAnswer address offset r ∧
      (r.1 = none ↔ ∀ i, i < kernelMainSymbols.count → ¬ kernelMainSymbols.AtOrBelow address i)) ∧
    (∀ name, ∃ v, (findSymbolAddress name kernelMainSymbols kernelMainState).1 = .ok v ∧
      kernelMainSymbols.AddressAnswer name v) ∧
    (∀ address, ∃ r, (findSymbolName address kernelMainSymbols kernelMainState).1 = .ok r ∧
      kernelMainSymbols.NameAnswer address r) ∧
    ∀ i, i < kernelMainSymbols.count → (kernelMainSymbols.sym i).value ≠ 0 → ∀ offset, ∃ name,
      (findNearestSymbol (kernelMainSymbols.sym i).value (some offset) kernelMainSymbols
        kernelMainState).1 = .ok (some name, some 0) :=
  lookups_answer (run_eq_of_fst (congrArg Prod.fst (initElfSymbols_of_mod (by decide) _)))

/-- The empty name is that of the first symbol, and its address is 0. -/
theorem findSymbolAddress_empty : ¬ ∀ (L : LinkedSymbols) (s s' : SymbolState),
    initElfSymbols L s = (.ok (), s') → ∀ (name : CString) (v : UInt32),
      (findSymbolAddress name L s').1 = .ok v →
        (v = 0 ↔ ∀ i, i < L.count → ¬ L.Named name i) := by
  intro hall
  have hinit := @initElfSymbols_of_mod kernelMainSymbols (by decide) (.boot kernelMainSymbols)
  have hiff := hall kernelMainSymbols _ _ hinit CString.nil 0 (by decide)
  exact hiff.mp rfl 0 (by decide) (holdsString_nil_iff.mpr (by decide))

end Calls

/-! ## 5. Calls in any order -/

inductive Lookup where
  | findAddress (name : CString)
  | findName (address : UInt32)
  | findNearest (address : UInt32) (offset : Option UInt32)
  deriving DecidableEq

inductive LookupResult where
  | address (v : UInt32)
  | name (r : StrtabPtr)
  | nearest (r : StrtabPtr × Option UInt32)
  deriving DecidableEq, Repr

def Lookup.run : Lookup → SymbolProg LookupResult
  | .findAddress name => do return .address (← findSymbolAddress name)
  | .findName address => do return .name (← findSymbolName address)
  | .findNearest address offset => do return .nearest (← findNearestSymbol address offset)

inductive SymbolCall where
  | init
  | lookup (q : Lookup)
  deriving DecidableEq

def SymbolCall.run : SymbolCall → SymbolProg Unit
  | .init => initElfSymbols
  | .lookup q => do let _ ← q.run

def runCalls : List SymbolCall → SymbolProg Unit
  | [] => pure ()
  | c :: cs => do
      c.run
      runCalls cs

/-- What a lookup returns after the given calls since boot. -/
def answerAfter (L : LinkedSymbols) (calls : List SymbolCall) (q : Lookup) :
    Except SymbolsHalt LookupResult :=
  ((do runCalls calls; q.run : SymbolProg LookupResult) L (.boot L)).1

/-- What a lookup finds among the first symbols. -/
def Lookup.among (L : LinkedSymbols) (symcount : Nat) : Lookup → LookupResult
  | .findAddress name => .address ((addressLoop L name symcount).getD 0)
  | .findName address => .name (nameLoop L address symcount)
  | .findNearest address offset => .nearest (nearestLoop L address offset symcount)

/-- The table has nothing for a lookup: for a name, its first symbol has no address, if there is
one. -/
def LinkedSymbols.NothingFor (L : LinkedSymbols) : Lookup → Prop
  | .findAddress name => ∀ i, IsFirst (L.Named name) L.count i → (L.sym i).value = 0
  | .findName address => ∀ i, i < L.count → (L.sym i).value ≠ address
  | .findNearest address _ => ∀ i, i < L.count → ¬ L.AtOrBelow address i

section Calls

variable {L : LinkedSymbols} {s : SymbolState}

/-- Behind a pointer that is not `NULL` a lookup counts nothing. -/
theorem lookup_run (hs : s.elfSymtab ≠ 0) (q : Lookup) :
    q.run L s = (.ok (q.among L s.elfSymcount), s) := by
  have hguard : initOnFirstUse L s = (.ok (), s) := by rw [initOnFirstUse_eq, if_neg hs]
  cases q with
  | findAddress name => exact bind_of_ok (findSymbolAddress_of hguard name)
  | findName address => exact bind_of_ok (findSymbolName_of hguard address)
  | findNearest address offset => exact bind_of_ok (findNearestSymbol_of hguard address offset)

/-- **One call**: it returns, and only `init_elf_symbols` changes the count. -/
theorem call_run (h16 : L.ksymtab.length % 16 = 0) (hs : s.elfSymtab ≠ 0) (c : SymbolCall) :
    ∃ t, c.run L s = (.ok (), t) ∧ t.elfSymtab = s.elfSymtab ∧
      t.elfSymcount = if c = .init then L.count else s.elfSymcount := by
  cases c with
  | init => exact ⟨_, initElfSymbols_of_mod h16 s, rfl, (if_pos rfl).symm⟩
  | lookup q => exact ⟨s, bind_of_ok (lookup_run hs q), rfl, (if_neg (fun h => nomatch h)).symm⟩

/-- **A run**: the table is counted exactly if `init_elf_symbols` is among the calls. -/
theorem runCalls_run (h16 : L.ksymtab.length % 16 = 0) (hs : s.elfSymtab ≠ 0)
    (calls : List SymbolCall) : ∃ t, runCalls calls L s = (.ok (), t) ∧
      t.elfSymtab = s.elfSymtab ∧
      t.elfSymcount = if .init ∈ calls then L.count else s.elfSymcount := by
  induction calls generalizing s with
  | nil => exact ⟨s, rfl, rfl, (if_neg List.not_mem_nil).symm⟩
  | cons c cs ih =>
      obtain ⟨s₁, hcall, htab, hcount⟩ := call_run h16 hs c
      obtain ⟨t, hrest, htab', hcount'⟩ := ih (s := s₁) (htab ▸ hs)
      refine ⟨t, (bind_of_ok hcall).trans hrest, htab'.trans htab, ?_⟩
      rw [hcount', hcount]
      by_cases hc : c = .init
      · simp [hc]
      · simp [hc, Ne.symm hc]

theorem answerAfter_eq (h16 : L.ksymtab.length % 16 = 0) (calls : List SymbolCall) (q : Lookup) :
    answerAfter L calls q = .ok (q.among L (if .init ∈ calls then L.count else 0)) := by
  obtain ⟨t, hrun, htab, hcount⟩ :=
    runCalls_run (s := .boot L) h16 L.start_ne_null calls
  have hlookup := lookup_run (L := L) (s := t) (htab ▸ L.start_ne_null) q
  rw [answerAfter, bind_of_ok hrun, hlookup, hcount]
  rfl

/-- A table that is not counted has no symbols; that makes no difference exactly where it has
nothing. -/
theorem among_zero_iff (q : Lookup) : q.among L 0 = q.among L L.count ↔ L.NothingFor q := by
  cases q with
  | findAddress name =>
      have hzero : (addressLoop L name 0).getD 0 = 0 := rfl
      rw [Lookup.among, Lookup.among, LookupResult.address.injEq, hzero]
      rcases addressLoop_answer (L := L) name with ⟨i, hi, hr⟩ | ⟨hnone, hr⟩
      · rw [hr]
        constructor
        · intro h j hj
          rw [← hi.unique hj]
          exact h.symm
        · exact fun h => (h i hi).symm
      · rw [hr]
        exact iff_of_true rfl fun i hi => absurd hi.holds (hnone i hi.lt)
  | findName address =>
      have hzero : nameLoop L address 0 = none := rfl
      rw [Lookup.among, Lookup.among, LookupResult.name.injEq, hzero]
      rcases nameLoop_answer (L := L) address with ⟨i, hi, hr⟩ | ⟨hnone, hr⟩
      · rw [hr]
        exact iff_of_false (Option.some_ne_none _).symm fun h => h i hi.lt hi.holds
      · rw [hr]
        exact iff_of_true rfl hnone
  | findNearest address offset =>
      have hzero : nearestLoop L address offset 0 = (none, offset) := by simp [nearestLoop]
      rw [Lookup.among, Lookup.among, LookupResult.nearest.injEq, hzero]
      rcases nearestLoop_answer (L := L) address offset with ⟨i, hi, hr⟩ | ⟨hnone, hr⟩
      · rw [hr]
        refine iff_of_false (fun h => ?_) fun h => h i hi.lt hi.eligible
        exact Option.some_ne_none _ (congrArg Prod.fst h).symm
      · rw [hr]
        exact iff_of_true rfl hnone

/-- **A lookup does not depend on an earlier `init_elf_symbols` exactly when another one was called
    anyway, or the table has nothing for it.** -/
theorem sameAnswer_iff (h16 : L.ksymtab.length % 16 = 0) (calls : List SymbolCall) (q : Lookup) :
    answerAfter L calls q = answerAfter L (.init :: calls) q ↔
      .init ∈ calls ∨ L.NothingFor q := by
  rw [answerAfter_eq h16, answerAfter_eq h16, if_pos List.mem_cons_self, Except.ok.injEq]
  by_cases hmem : .init ∈ calls
  · rw [if_pos hmem]
    exact iff_of_true rfl (Or.inl hmem)
  · rw [if_neg hmem, among_zero_iff]
    exact (or_iff_right hmem).symm

theorem sameAnswer_kernelMain :
    answerAfter kernelMainSymbols [] (.findAddress kernelMain) =
        answerAfter kernelMainSymbols [.init] (.findAddress kernelMain) ↔
      .init ∈ ([] : List SymbolCall) ∨ kernelMainSymbols.NothingFor (.findAddress kernelMain) :=
  sameAnswer_iff (by decide) [] (.findAddress kernelMain)

/-- Before `init_elf_symbols` has run, `kernel_main` has no address. -/
theorem kernelMain_before_init : ¬ ∀ (L : LinkedSymbols) (calls : List SymbolCall) (q : Lookup),
    L.ksymtab.length % 16 = 0 → answerAfter L calls q = answerAfter L (.init :: calls) q := by
  intro hall
  have hsame := hall kernelMainSymbols [] (.findAddress kernelMain) (by decide)
  exact absurd hsame (by decide)

end Calls

end MapleKernel.Kernel
