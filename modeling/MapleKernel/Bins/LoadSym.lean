/-
  File:      Bins/LoadSym.lean
  Subject:   THE SYMBOL FILE (`write_symbols_to_binary.py`, `load_sym.c`): addresses as raw words
             between marks of two letters, and names behind them.

  The writer sorts by address and writes `"6\n7\n"`, the addresses, `"8\n"` and the names, each with
  a NUL. `parse_mem` looks for the marks byte by byte, so an address that contains the bytes of a
  mark is taken for one. The search for `"6\n"` does not stop at the header either: it moves `data`
  and goes on with the next `i`, which leads it up to three bytes behind the file.

  * `writeSymbolsBinary`, `ParseMem` -- writer and reader, from the source;
  * `RoundTrips` -- the reader finds the sorted list;
  * `FileFits` -- no mark where the reader may take it for one, and a size that its counter reaches;
  * `roundTrips_iff` -- exactly there the round trip holds, whatever stands behind the first four
    bytes that follow the file.
-/
import MapleKernel.Lib.Iterate

namespace MapleKernel.Bins

open Iteration

/-! ## 1. The writer -/

/-- An address, and the encoded bytes of a name. -/
structure SymbolEntry where
  address : UInt32
  name : List UInt8
  deriving DecidableEq, Repr

/-- `struct.pack("<I", address)`. -/
def packAddress (address : UInt32) : List UInt8 :=
  [.ofNat address.toNat, .ofNat (address.toNat / 2 ^ 8), .ofNat (address.toNat / 2 ^ 16),
    .ofNat (address.toNat / 2 ^ 24)]

/-- `symbols.sort(key=lambda x: x[0])`, which is stable. -/
def sortSymbols (symbols : List SymbolEntry) : List SymbolEntry :=
  symbols.mergeSort fun x y => x.address ≤ y.address

/-- `"6\n7\n"`. -/
def fileHeader : List UInt8 := [0x36, 0x0A, 0x37, 0x0A]

/-- `"8\n"`. -/
def fileSeparator : List UInt8 := [0x38, 0x0A]

def addressBytes (symbols : List SymbolEntry) : List UInt8 :=
  symbols.flatMap fun e => packAddress e.address

def nameBytes (symbols : List SymbolEntry) : List UInt8 :=
  symbols.flatMap fun e => e.name ++ [0]

/-- The file, if there is one. -/
def writeSymbolsBinary (symbols : List SymbolEntry) : Option (List UInt8) :=
  if symbols = [] then none
  else
    let symbols := sortSymbols symbols
    some (fileHeader ++ (addressBytes symbols ++ (fileSeparator ++ nameBytes symbols)))

/-! ## 2. The reader -/

/-- The memory from the loaded file on. -/
abbrev Bytes := Nat → UInt8

/-- The file, and what follows it. -/
def loadFile (file : List UInt8) (after : Nat → UInt8) : Bytes :=
  fun a => file[a]?.getD (after (a - file.length))

/-- `data[i] == c && data[i + 1] == '\n'`. -/
def IsMark (m : Bytes) (c : UInt8) (a : Nat) : Prop := m a = c ∧ m (a + 1) = 0x0A

instance (m : Bytes) (c : UInt8) (a : Nat) : Decidable (IsMark m c a) := instDecidableAnd

section Reader

variable (m : Bytes)

/-- A round of the first loop: it moves `data`, and goes on. -/
def startRound (i data : Nat) : Nat ⊕ Nat :=
  .inl (if IsMark m 0x36 (data + i) then data + i + 4 else data)

/-- A round of the second loop, which ends at the first mark. -/
def separatorRound (data i : Nat) (_ : Unit) : Unit ⊕ Option Nat :=
  if IsMark m 0x38 (data + i) then .inr (some (data + i)) else .inl ()

/-- `while (*name_ptr) name_ptr++; name_ptr++;` -/
def skipName (namePtr : Nat) : Nat ⊕ Nat :=
  if m namePtr ≠ 0 then .inl (namePtr + 1) else .inr (namePtr + 1)

/-- The pointers that the last loop stores for `count` symbols. -/
def NamePtrs : Nat → Nat → List Nat → Prop
  | 0, _, ptrs => ptrs = []
  | count + 1, namePtr, ptrs =>
      ∃ next rest, Returns (skipName m) namePtr next ∧ NamePtrs count next rest ∧
        ptrs = namePtr :: rest

/-- `*(uint32_t *)`, little-endian. -/
def readAddress (a : Nat) : UInt32 :=
  .ofNat ((m a).toNat + (m (a + 1)).toNat * 2 ^ 8 + (m (a + 2)).toNat * 2 ^ 16 +
    (m (a + 3)).toNat * 2 ^ 24)

/-- `Symbol`; the name is a pointer. -/
structure Symbol where
  address : UInt32
  name : Nat
  deriving DecidableEq, Repr

/-- `parse_mem` returns `r`; `*count` is the length of the list. A `file_size` of 0 is left out:
`file_size - 1` would wrap. -/
def ParseMem (fileSize : Nat) (r : Option (List Symbol)) : Prop :=
  ∃ data separator,
    Returns (countedBody (fileSize - 1) (startRound m) id) (0, 0) data ∧
    Returns (countedBody (fileSize - 1) (separatorRound m data) fun _ => none) (0, ()) separator ∧
    match separator with
    | none => r = none
    | some separator =>
        let addrSectionSize : UInt32 := .ofNat (separator - data)
        let count := (addrSectionSize / 4).toNat
        ∃ ptrs, NamePtrs m count (separator + 2) ptrs ∧
          r = some (List.zipWith Symbol.mk
            ((List.range count).map fun i => readAddress m (data + 4 * i)) ptrs)

/-- The bytes stand at `a`. -/
def Holds (a : Nat) (bytes : List UInt8) : Prop := ∀ j b, bytes[j]? = some b → m (a + j) = b

/-- A C string. -/
structure CString (a : Nat) (name : List UInt8) : Prop where
  holds : Holds m a (name ++ [0])
  noNul : 0 ∉ name

/-- What a symbol of the reader says of an entry. -/
structure Symbol.Is (s : Symbol) (e : SymbolEntry) : Prop where
  address : s.address = e.address
  name : CString m s.name e.name

end Reader

/-! ## 3. Bytes in memory -/

section Bytes

variable {m : Bytes} {a : Nat} {x y : List UInt8} {b : UInt8}

theorem holds_cons : Holds m a (b :: x) ↔ m a = b ∧ Holds m (a + 1) x := by
  constructor
  · intro h
    refine ⟨h 0 b rfl, fun j c hj => ?_⟩
    rw [Nat.add_assoc, Nat.add_comm 1]
    exact h (j + 1) c hj
  · intro h j c hj
    obtain ⟨hb, hx⟩ := h
    cases j with
    | zero =>
        rw [← Option.some.inj hj]
        exact hb
    | succ j =>
        have hc := hx j c hj
        rwa [Nat.add_assoc, Nat.add_comm 1] at hc

theorem holds_nil : Holds m a [] := fun _ _ h => by cases h

theorem holds_append : Holds m a (x ++ y) ↔ Holds m a x ∧ Holds m (a + x.length) y := by
  induction x generalizing a with
  | nil => exact ⟨fun h => ⟨holds_nil, h⟩, fun h => h.2⟩
  | cons b x ih =>
      rw [List.cons_append, holds_cons, holds_cons, ih, and_assoc, List.length_cons,
        Nat.add_assoc a 1, Nat.add_comm 1]

theorem holds_loadFile (file : List UInt8) (after : Nat → UInt8) :
    Holds (loadFile file after) 0 file := by
  intro j b hj
  rw [Nat.zero_add, loadFile, hj]
  rfl

theorem loadFile_of_ge {file : List UInt8} {after : Nat → UInt8} (h : file.length ≤ a) :
    loadFile file after a = after (a - file.length) := by
  rw [loadFile, List.getElem?_eq_none h]
  rfl

theorem readAddress_of_holds {address : UInt32} (h : Holds m a (packAddress address)) :
    readAddress m a = address := by
  simp only [packAddress, holds_cons] at h
  obtain ⟨h0, h1, h2, h3, -⟩ := h
  have hlt := address.toNat_lt
  rw [readAddress, h0, h1, h2, h3]
  simp only [UInt8.toNat_ofNat']
  refine UInt32.toNat.inj ?_
  rw [UInt32.toNat_ofNat']
  omega

@[simp] theorem length_packAddress (address : UInt32) : (packAddress address).length = 4 := rfl

theorem addressBytes_cons (e : SymbolEntry) (es : List SymbolEntry) :
    addressBytes (e :: es) = packAddress e.address ++ addressBytes es := List.flatMap_cons

theorem nameBytes_cons (e : SymbolEntry) (es : List SymbolEntry) :
    nameBytes (e :: es) = (e.name ++ [0]) ++ nameBytes es := List.flatMap_cons

theorem length_addressBytes (es : List SymbolEntry) :
    (addressBytes es).length = 4 * es.length := by
  induction es with
  | nil => rfl
  | cons e es ih =>
      rw [addressBytes_cons, List.length_append, ih, length_packAddress, List.length_cons]
      omega

/-- The address loop reads the addresses. -/
theorem readAddresses_of_holds {es : List SymbolEntry} (h : Holds m a (addressBytes es)) :
    ((List.range es.length).map fun i => readAddress m (a + 4 * i)) =
      es.map SymbolEntry.address := by
  induction es generalizing a with
  | nil => rfl
  | cons e es ih =>
      rw [addressBytes_cons, holds_append] at h
      have hrest := ih h.2
      rw [length_packAddress] at hrest
      rw [List.length_cons, List.range_succ_eq_map, List.map_cons, List.map_map, List.map_cons,
        ← hrest, Nat.mul_zero, Nat.add_zero, readAddress_of_holds h.1]
      refine congrArg (e.address :: ·) (List.map_congr_left fun i _ => ?_)
      show readAddress m (a + 4 * (i + 1)) = readAddress m (a + 4 + 4 * i)
      rw [Nat.mul_succ, Nat.add_assoc a 4, Nat.add_comm 4]

end Bytes

/-! ## 4. Names -/

section Names

variable {m : Bytes} {a : Nat} {name : List UInt8} {es : List SymbolEntry} {ptrs : List Nat}

theorem skipName_returns (h : CString m a name) :
    Returns (skipName m) a (a + name.length + 1) := by
  obtain ⟨hholds, hnul⟩ := h
  induction name generalizing a with
  | nil =>
      refine returns_of_inr ?_
      rw [skipName, (holds_cons.mp hholds).1]
      rfl
  | cons b name ih =>
      rw [List.cons_append, holds_cons] at hholds
      rw [List.mem_cons, not_or] at hnul
      have hbody : skipName m a = .inl (a + 1) := by
        rw [skipName, hholds.1, if_pos (Ne.symm hnul.1)]
      rw [returns_of_inl hbody, List.length_cons, ← Nat.add_assoc, Nat.add_right_comm a]
      exact ih hholds.2 hnul.2

/-- The name loop finds names that stand one behind the other. -/
theorem namePtrs_of_holds (h : Holds m a (nameBytes es)) (hnul : ∀ e ∈ es, 0 ∉ e.name) :
    ∃ ptrs, NamePtrs m es.length a ptrs ∧
      List.Forall₂ (fun p (e : SymbolEntry) => CString m p e.name) ptrs es := by
  induction es generalizing a with
  | nil => exact ⟨[], rfl, .nil⟩
  | cons e es ih =>
      rw [nameBytes_cons, holds_append, List.length_append, List.length_singleton,
        ← Nat.add_assoc] at h
      have hname : CString m a e.name := ⟨h.1, hnul e List.mem_cons_self⟩
      obtain ⟨ptrs, hptrs, hall⟩ := ih h.2 fun e he => hnul e (List.mem_cons_of_mem _ he)
      exact ⟨a :: ptrs, ⟨_, ptrs, skipName_returns hname, hptrs, rfl⟩, .cons hname hall⟩

/-- And where it finds the names, they stand one behind the other. -/
theorem holds_of_namePtrs {count : Nat} (h : NamePtrs m count a ptrs)
    (hall : List.Forall₂ (fun p (e : SymbolEntry) => CString m p e.name) ptrs es) :
    Holds m a (nameBytes es) := by
  induction hall generalizing a count with
  | nil => exact holds_nil
  | @cons p e ptrs es hname hall ih =>
      cases count with
      | zero => cases h
      | succ count =>
          obtain ⟨next, rest, hnext, hrest, heq⟩ := h
          obtain ⟨rfl, rfl⟩ := List.cons.inj heq
          rw [hnext.unique (skipName_returns hname)] at hrest
          rw [nameBytes_cons, holds_append, List.length_append, List.length_singleton,
            ← Nat.add_assoc]
          exact ⟨hname.holds, ih hrest⟩

theorem NamePtrs.length_eq {count : Nat} (h : NamePtrs m count a ptrs) : ptrs.length = count := by
  induction count generalizing a ptrs with
  | zero => exact congrArg List.length h
  | succ count ih =>
      obtain ⟨next, rest, -, hrest, rfl⟩ := h
      rw [List.length_cons, ih hrest]

theorem forall₂_zipWith
    (hall : List.Forall₂ (fun p (e : SymbolEntry) => CString m p e.name) ptrs es) :
    List.Forall₂ (Symbol.Is m)
      (List.zipWith Symbol.mk (es.map SymbolEntry.address) ptrs) es := by
  induction hall with
  | nil => exact .nil
  | cons hname hall ih => exact .cons ⟨rfl, hname⟩ ih

/-- The names of the symbols found, as pointers. -/
theorem forall₂_of_zipWith {addresses : List UInt32} (hlen : addresses.length = ptrs.length)
    (hall : List.Forall₂ (Symbol.Is m) (List.zipWith Symbol.mk addresses ptrs) es) :
    List.Forall₂ (fun p (e : SymbolEntry) => CString m p e.name) ptrs es := by
  induction ptrs generalizing addresses es with
  | nil =>
      rw [List.zipWith_nil_right] at hall
      cases hall
      exact .nil
  | cons p ptrs ih =>
      cases addresses with
      | nil => cases hlen
      | cons address addresses =>
          rw [List.zipWith_cons_cons] at hall
          cases hall with
          | cons hs hall => exact .cons hs.name (ih (Nat.succ.inj hlen) hall)

end Names

/-! ## 5. The two searches -/

section Searches

variable (m : Bytes)

/-- The first search leaves `data` alone, or a mark moves it. -/
theorem counted_startRound (k i data : Nat) :
    (counted (startRound m) id k i data = data ∧ ∀ j < k, ¬ IsMark m 0x36 (data + i + j)) ∨
      (data + i + 4 ≤ counted (startRound m) id k i data ∧
        ∃ j < k, IsMark m 0x36 (data + i + j)) := by
  induction k generalizing i data with
  | zero => exact .inl ⟨rfl, fun j hj => absurd hj (Nat.not_lt_zero j)⟩
  | succ k ih =>
      have hnext : ∀ j, data + i + (j + 1) = data + (i + 1) + j := fun j => by omega
      rw [counted, startRound]
      by_cases hmark : IsMark m 0x36 (data + i)
      · right
        simp only [if_pos hmark]
        refine ⟨?_, 0, Nat.succ_pos k, hmark⟩
        rcases ih (i + 1) (data + i + 4) with ⟨heq, -⟩ | ⟨hle, -⟩
        · rw [heq]
        · exact Nat.le_trans (by omega) hle
      · simp only [if_neg hmark]
        rcases ih (i + 1) data with ⟨heq, hno⟩ | ⟨hle, j, hj, hat⟩
        · refine .inl ⟨heq, fun j hj => ?_⟩
          cases j with
          | zero => exact hmark
          | succ j =>
              rw [hnext]
              exact hno j (Nat.lt_of_succ_lt_succ hj)
        · refine .inr ⟨by omega, j + 1, Nat.succ_lt_succ hj, ?_⟩
          rw [hnext]
          exact hat

/-- The second search finds the first mark. -/
theorem counted_separatorRound (data k i : Nat) :
    (∃ j < k, IsMark m 0x38 (data + i + j) ∧ (∀ j' < j, ¬ IsMark m 0x38 (data + i + j')) ∧
        counted (separatorRound m data) (fun _ => none) k i () = some (data + i + j)) ∨
      ((∀ j < k, ¬ IsMark m 0x38 (data + i + j)) ∧
        counted (separatorRound m data) (fun _ => none) k i () = none) := by
  induction k generalizing i with
  | zero => exact .inr ⟨fun j hj => absurd hj (Nat.not_lt_zero j), rfl⟩
  | succ k ih =>
      have hnext : ∀ j, data + i + (j + 1) = data + (i + 1) + j := fun j => by omega
      rw [counted, separatorRound]
      by_cases hmark : IsMark m 0x38 (data + i)
      · simp only [if_pos hmark]
        exact .inl ⟨0, Nat.succ_pos k, hmark, fun j hj => absurd hj (Nat.not_lt_zero j), rfl⟩
      · simp only [if_neg hmark]
        -- what holds of the rounds behind holds of all, as this one has no mark
        have hall : ∀ n, (∀ j < n, ¬ IsMark m 0x38 (data + (i + 1) + j)) →
            ∀ j < n + 1, ¬ IsMark m 0x38 (data + i + j) := by
          intro n hno j hj
          cases j with
          | zero => exact hmark
          | succ j =>
              rw [hnext]
              exact hno j (Nat.lt_of_succ_lt_succ hj)
        rcases ih (i + 1) with ⟨j, hj, hat, hbefore, heq⟩ | ⟨hno, heq⟩
        · refine .inl ⟨j + 1, Nat.succ_lt_succ hj, ?_, hall j hbefore, ?_⟩
          · rwa [hnext]
          · rwa [hnext]
        · exact .inr ⟨hall k hno, heq⟩

end Searches

/-! ## 6. The round trip -/

/-- A list for the writer: not empty, and no name has a NUL in it. -/
structure SymbolList where
  symbols : List SymbolEntry
  ne_nil : symbols ≠ []
  noNul : ∀ e ∈ symbols, 0 ∉ e.name

/-- **The reader finds the sorted list** in the file, whatever `after` it. -/
def RoundTrips (L : SymbolList) (after : Nat → UInt8) : Prop :=
  ∃ file symbols, writeSymbolsBinary L.symbols = some file ∧
    ParseMem (loadFile file after) file.length (some symbols) ∧
    List.Forall₂ (Symbol.Is (loadFile file after)) symbols (sortSymbols L.symbols)

namespace SymbolList

variable (L : SymbolList)

def sorted : List SymbolEntry := sortSymbols L.symbols

def file : List UInt8 :=
  fileHeader ++ (addressBytes L.sorted ++ (fileSeparator ++ nameBytes L.sorted))

/-- How many. -/
def count : Nat := L.symbols.length

theorem write_eq : writeSymbolsBinary L.symbols = some L.file := if_neg L.ne_nil

theorem length_sorted : L.sorted.length = L.count := List.length_mergeSort _

theorem count_pos : 0 < L.count := List.length_pos_of_ne_nil L.ne_nil

theorem length_file : L.file.length = 4 + 4 * L.count + 2 + (nameBytes L.sorted).length := by
  rw [file, List.length_append, List.length_append, List.length_append, length_addressBytes,
    length_sorted, fileHeader, fileSeparator]
  simp only [List.length_cons, List.length_nil]
  omega

/-- The last byte of a file is the NUL of the last name. -/
theorem nameBytes_last : ∃ bytes, nameBytes L.sorted = bytes ++ [0] := by
  have hne : L.sorted ≠ [] := by
    rw [← List.length_pos_iff, length_sorted]
    exact L.count_pos
  obtain ⟨es, e, he⟩ := List.eq_nil_or_concat'  L.sorted |>.resolve_left hne
  refine ⟨nameBytes es ++ e.name, ?_⟩
  rw [he, nameBytes, List.flatMap_append, List.flatMap_singleton, ← List.append_assoc, nameBytes]

end SymbolList

/-- **The file fits the reader**: its counter reaches the end, no second `"6\n"` begins from the
second byte of the addresses to the third byte behind the file, no `"8\n"` in the addresses. -/
structure FileFits (L : SymbolList) (after : Nat → UInt8) : Prop where
  size : L.file.length ≤ 2 ^ 32
  start : ∀ a, 5 ≤ a → a ≤ L.file.length + 2 → ¬ IsMark (loadFile L.file after) 0x36 a
  addresses : ∀ a, 4 ≤ a → a < 4 + 4 * L.count → ¬ IsMark (loadFile L.file after) 0x38 a

section RoundTrip

variable {L : SymbolList} {after : Nat → UInt8}

theorem file_holds (L : SymbolList) (after : Nat → UInt8) :
    Holds (loadFile L.file after) 0 fileHeader ∧
      Holds (loadFile L.file after) 4 (addressBytes L.sorted) ∧
      Holds (loadFile L.file after) (4 + 4 * L.count) fileSeparator ∧
      Holds (loadFile L.file after) (4 + 4 * L.count + 2) (nameBytes L.sorted) := by
  have h := holds_loadFile L.file after
  rw [SymbolList.file, holds_append, holds_append, holds_append, ← SymbolList.file,
    length_addressBytes, L.length_sorted] at h
  obtain ⟨h₁, h₂, h₃, h₄⟩ := h
  have hfour : 0 + fileHeader.length = 4 := rfl
  rw [hfour] at h₂ h₃ h₄
  exact ⟨h₁, h₂, h₃, h₄⟩

theorem isMark_header (L : SymbolList) (after : Nat → UInt8) :
    IsMark (loadFile L.file after) 0x36 0 := by
  have h := (file_holds L after).1
  rw [fileHeader, holds_cons, holds_cons] at h
  exact ⟨h.1, h.2.1⟩

theorem isMark_separator (L : SymbolList) (after : Nat → UInt8) :
    IsMark (loadFile L.file after) 0x38 (4 + 4 * L.count) := by
  have h := (file_holds L after).2.2.1
  rw [fileSeparator, holds_cons, holds_cons] at h
  exact ⟨h.1, h.2.1⟩

/-- What the first search does with the file. -/
theorem startSearch (after : Nat → UInt8) (hsize : L.file.length ≤ 2 ^ 32) :
    ∃ data, Returns (countedBody (L.file.length - 1) (startRound (loadFile L.file after)) id)
        (0, 0) data ∧
      ((data = 4 ∧
          ∀ a, 5 ≤ a → a ≤ L.file.length + 2 → ¬ IsMark (loadFile L.file after) 0x36 a) ∨
        (9 ≤ data ∧ ∃ a, 5 ≤ a ∧ a ≤ L.file.length + 2 ∧
          IsMark (loadFile L.file after) 0x36 a)) := by
  have hlen := L.length_file
  -- the mark of the header is found in round 0, and the rest of the rounds sees `data = 4`
  obtain ⟨k, hk⟩ : ∃ k, L.file.length = k + 2 := ⟨L.file.length - 2, by omega⟩
  have hfirst : counted (startRound (loadFile L.file after)) id (k + 1) 0 0 =
      counted (startRound (loadFile L.file after)) id k 1 4 := by
    rw [counted, startRound]
    simp only [Nat.add_zero, if_pos (isMark_header L after)]
  have hround : L.file.length - 1 = k + 1 := by omega
  refine ⟨_, returns_counted (by omega) (Nat.zero_add _) 0, ?_⟩
  rw [hround, hfirst]
  rcases counted_startRound (loadFile L.file after) k 1 4 with ⟨heq, hno⟩ | ⟨hle, j, hj, hat⟩
  · refine .inl ⟨heq, fun a ha hae => ?_⟩
    obtain ⟨j, rfl⟩ := Nat.exists_eq_add_of_le ha
    exact hno j (by omega)
  · exact .inr ⟨hle, 5 + j, by omega, by omega, hat⟩

/-- What the second search does, wherever it begins. -/
theorem separatorSearch (m : Bytes) {fileSize : Nat} (hsize : fileSize ≤ 2 ^ 32) (data : Nat) :
    ∃ separator, Returns (countedBody (fileSize - 1) (separatorRound m data) fun _ => none)
        (0, ()) separator ∧
      ((∃ j < fileSize - 1, IsMark m 0x38 (data + j) ∧ (∀ j' < j, ¬ IsMark m 0x38 (data + j')) ∧
          separator = some (data + j)) ∨
        ((∀ j < fileSize - 1, ¬ IsMark m 0x38 (data + j)) ∧ separator = none)) :=
  ⟨_, returns_counted (by omega) (Nat.zero_add _) (), counted_separatorRound m data _ 0⟩

/-- The count of a section that begins with the mark's distance `j`. -/
theorem toNat_count {j : Nat} (h : j < 2 ^ 32) : (UInt32.ofNat j / 4).toNat = j / 4 := by
  rw [UInt32.toNat_div, UInt32.toNat_ofNat_of_lt' h]
  rfl

theorem FileFits.roundTrips (h : FileFits L after) : RoundTrips L after := by
  have hlen := L.length_file
  have hsize := h.size
  obtain ⟨data, hdata, ⟨rfl, -⟩ | ⟨-, a, ha, hae, hat⟩⟩ := startSearch after hsize
  · obtain ⟨separator, hsep, ⟨j, hj, hat, hbefore, rfl⟩ | ⟨hno, -⟩⟩ :=
      separatorSearch (loadFile L.file after) hsize 4
    · -- the first mark is the one behind the addresses
      have hge : ¬ j < 4 * L.count := fun hlt => h.addresses (4 + j) (by omega) (by omega) hat
      have hle : ¬ 4 * L.count < j := fun hlt => hbefore _ hlt (isMark_separator L after)
      obtain rfl : j = 4 * L.count := by omega
      have hcount : (UInt32.ofNat (4 + 4 * L.count - 4) / 4).toNat = L.sorted.length := by
        rw [Nat.add_sub_cancel_left, toNat_count (by omega), L.length_sorted,
          Nat.mul_div_cancel_left _ (by decide)]
      obtain ⟨-, haddresses, -, hnames⟩ := file_holds L after
      obtain ⟨ptrs, hptrs, hall⟩ := namePtrs_of_holds hnames fun e he =>
        L.noNul e (List.mem_mergeSort.mp he)
      refine ⟨L.file, _, L.write_eq, ⟨4, _, hdata, hsep, ptrs, ?_, rfl⟩, ?_⟩
      · rw [hcount]
        exact hptrs
      · rw [hcount, readAddresses_of_holds haddresses]
        exact forall₂_zipWith hall
    · exact absurd (isMark_separator L after) (hno (4 * L.count) (by omega))
  · exact absurd hat (h.start a ha hae)

/-- Only the first four bytes behind the file matter to the marks. -/
theorem FileFits.congr {after' : Nat → UInt8} (hafter : ∀ j < 4, after' j = after j)
    (h : FileFits L after') : FileFits L after := by
  have hlen := L.length_file
  have hbyte : ∀ a, a < L.file.length + 4 →
      loadFile L.file after' a = loadFile L.file after a := by
    intro a ha
    by_cases hlt : a < L.file.length
    · rw [loadFile, loadFile, List.getElem?_eq_getElem hlt]
      rfl
    · rw [loadFile_of_ge (not_lt.mp hlt), loadFile_of_ge (not_lt.mp hlt)]
      exact hafter _ (by omega)
  have hmark : ∀ c a, a ≤ L.file.length + 2 →
      (IsMark (loadFile L.file after') c a ↔ IsMark (loadFile L.file after) c a) := by
    intro c a ha
    rw [IsMark, IsMark, hbyte a (by omega), hbyte (a + 1) (by omega)]
  refine ⟨h.size, fun a ha hae => ?_, fun a ha hae => ?_⟩
  · rw [← hmark 0x36 a hae]
    exact h.start a ha hae
  · rw [← hmark 0x38 a (by omega)]
    exact h.addresses a ha hae

/-- Letters behind the four bytes: no mark begins there, and no name ends there. -/
def thenLetters (after : Nat → UInt8) (j : Nat) : UInt8 := if j < 4 then after j else 0x41

/-- A parse that gives the list has found as many addresses, and all names behind its separator. -/
theorem RoundTrips.found (h : RoundTrips L after) :
    L.file.length ≤ 2 ^ 32 ∧ ∃ data j,
      Returns (countedBody (L.file.length - 1) (startRound (loadFile L.file after)) id) (0, 0)
        data ∧
      IsMark (loadFile L.file after) 0x38 (data + j) ∧
      (∀ j' < j, ¬ IsMark (loadFile L.file after) 0x38 (data + j')) ∧ j / 4 = L.count ∧
      Holds (loadFile L.file after) (data + j + 2) (nameBytes L.sorted) := by
  obtain ⟨file, symbols, hfile, ⟨data, separator, hdata, hsep, hparse⟩, hall⟩ := h
  obtain rfl : L.file = file := Option.some.inj (L.write_eq.symm.trans hfile)
  have hsize : L.file.length ≤ 2 ^ 32 := by
    by_contra hlarge
    exact not_terminates_counted (by omega) (fun i s => ⟨_, rfl⟩) _ ⟨data, hdata⟩
  obtain ⟨separator', hsep', hcases⟩ := separatorSearch (loadFile L.file after) hsize data
  obtain rfl := hsep.unique hsep'
  rcases hcases with ⟨j, hj, hat, hbefore, rfl⟩ | ⟨-, rfl⟩
  · obtain ⟨ptrs, hptrs, heq⟩ := hparse
    rw [Nat.add_sub_cancel_left, toNat_count (by omega)] at hptrs heq
    rw [Option.some.inj heq] at hall
    have hnames := forall₂_of_zipWith
      (by rw [List.length_map, List.length_range, hptrs.length_eq]) hall
    have hcount : j / 4 = L.count := by
      rw [← hptrs.length_eq, hnames.length_eq, ← L.length_sorted]
      rfl
    exact ⟨hsize, data, j, hdata, hat, hbefore, hcount, holds_of_namePtrs hptrs hnames⟩
  · cases hparse

theorem RoundTrips.fileFits (h : RoundTrips L (thenLetters after)) : FileFits L after := by
  have hlen := L.length_file
  have hpos := L.count_pos
  obtain ⟨hsize, data, j, hdata, hat, hbefore, hcount, hnames⟩ := h.found
  obtain ⟨data', hdata', hcases⟩ := startSearch (thenLetters after) hsize
  obtain rfl := hdata.unique hdata'
  have hthen : ∀ j < 4, thenLetters after j = after j := fun j hj => if_pos hj
  rcases hcases with ⟨rfl, hno⟩ | ⟨hmoved, -⟩
  · refine FileFits.congr hthen ⟨hsize, hno, fun a ha hae => ?_⟩
    obtain ⟨i, rfl⟩ := Nat.exists_eq_add_of_le ha
    exact hbefore i (by omega)
  · exfalso
    by_cases hin : data ≤ 4 + 4 * L.count
    · -- the mark behind the addresses is too near
      obtain ⟨i, hi⟩ := Nat.exists_eq_add_of_le hin
      have hsep := isMark_separator L (thenLetters after)
      rw [hi] at hsep
      exact hbefore i (by omega) hsep
    · -- the NUL of the last name stands before the letters, so the mark is too near as well
      obtain ⟨bytes, hbytes⟩ := L.nameBytes_last
      rw [hbytes, List.length_append, List.length_singleton] at hlen
      have hlast := hnames bytes.length 0 (by rw [hbytes, List.getElem?_concat_length])
      have hlt : data + j + 2 + bytes.length < L.file.length + 4 := by
        by_contra hge
        rw [loadFile_of_ge (by omega), thenLetters, if_neg (by omega)] at hlast
        exact absurd hlast (by decide)
      omega

end RoundTrip

/-- **The round trip holds, whatever follows the first four bytes behind the file, exactly when the
file fits.** -/
theorem roundTrips_iff (L : SymbolList) (after : Nat → UInt8) :
    (∀ after', (∀ j < 4, after' j = after j) → RoundTrips L after') ↔ FileFits L after := by
  constructor
  · intro h
    exact (h (thenLetters after) fun j hj => if_pos hj).fileFits
  · intro h after' hafter
    exact (h.congr fun j hj => (hafter j hj).symm).roundTrips

/-- One symbol, whose address has the bytes of `"8\n"`. -/
def markedAddress : SymbolList where
  symbols := [⟨0x00100A38, [0x61]⟩]
  ne_nil := List.cons_ne_nil _ _
  noNul := by decide

theorem not_roundTrips_markedAddress : ¬ RoundTrips markedAddress (thenLetters fun _ => 0) := by
  intro h
  have hmark := h.fileFits.addresses 4 le_rfl (by decide)
  have hsorted : markedAddress.sorted = markedAddress.symbols := List.mergeSort_singleton _
  rw [SymbolList.file, hsorted] at hmark
  exact hmark (by decide +kernel)

end MapleKernel.Bins
