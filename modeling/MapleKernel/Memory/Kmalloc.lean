/-
  File:      Memory/Kmalloc.lean
  Subject:   PAGING AND THE KERNEL HEAP of `virtual_memory.c`.

  `Vm` holds the page bitmap, the page directory, the page tables (a table is found by the
  address in a directory entry) and the words that headers are written to, by physical address.
  A load or store goes through the page walk; one that the walk does not map is a page fault and
  sets `fault`. The directory and the tables are kept apart from the words: no header of a run
  is written over them.

  * `BlockLaw` -- what one call of `kmalloc` or `kfree` owes its caller.
  * `kmalloc_init_success`: from the state after `init_page_bitmap` and `init_paging` every
    `kmalloc` that gets pages gets unmapped ones, `phys_to_virt` says NULL, and the caller gets
    the address 4 with the header at address 0.
  * `kmalloc_law_iff`: so a run keeps the law exactly when no `kmalloc` in it gets pages.
-/
import MapleKernel.Lib.Run
import MapleKernel.Lib.WordField
import MapleKernel.Memory.PageBitmap

namespace MapleKernel.Memory

open Loops PackedBits WordField Runs

/-! ## 1. Paging -/

abbrev Word := BitVec 32

def pagePresent : Word := 0x1#32
def pageRw : Word := 0x2#32

structure Vm where
  bitmap : Bitmap
  pageDirectory : Nat → Word
  pageTables : Nat → Nat → Word
  words : Word → Word
  fault : Bool

/-- An entry without its flags. -/
def entryFrame (e : Word) : Word := e &&& 0xFFFFF000#32

def isPresent (e : Word) : Bool := e &&& pagePresent != 0#32

/-- `init_paging`, with `first_page_table` at address `pt`. -/
def initPaging (pt : Word) (vm : Vm) : Vm :=
  let vm := forRange 1024 (fun i vm => { vm with
    pageTables := put vm.pageTables pt.toNat i
      (BitVec.ofNat 32 (i * pageSize) ||| pagePresent ||| pageRw) }) vm
  { vm with pageDirectory := Function.update vm.pageDirectory 0 (pt ||| pagePresent ||| pageRw) }

/-- The page walk: the body of `virt_to_phys`, with `none` for its two early returns. -/
def pageWalk (vm : Vm) (virtAddr : Word) : Option Word :=
  let pdEntry := vm.pageDirectory ((virtAddr >>> 22) &&& 0x3FF#32).toNat
  if isPresent pdEntry then
    let ptEntry :=
      vm.pageTables (entryFrame pdEntry).toNat ((virtAddr >>> 12) &&& 0x3FF#32).toNat
    if isPresent ptEntry then some (entryFrame ptEntry + (virtAddr &&& 0xFFF#32)) else none
  else none

def virtToPhys (vm : Vm) (virtAddr : Word) : Word := (pageWalk vm virtAddr).getD 0#32

/-- `phys_to_virt`: the first mapping found, or NULL. -/
def physToVirt (vm : Vm) (physAddr : Word) : Word :=
  ((List.range 1024).findSome? fun pdIndex =>
    let pdEntry := vm.pageDirectory pdIndex
    if isPresent pdEntry then
      (List.range 1024).findSome? fun ptIndex =>
        let ptEntry := vm.pageTables (entryFrame pdEntry).toNat ptIndex
        if isPresent ptEntry ∧ entryFrame ptEntry = entryFrame physAddr then
          some ((BitVec.ofNat 32 pdIndex <<< 22) ||| (BitVec.ofNat 32 ptIndex <<< 12) |||
            (physAddr &&& 0xFFF#32))
        else none
    else none).getD 0#32

/-! ## 2. The heap -/

def storeWord (virtAddr value : Word) (vm : Vm) : Vm :=
  match pageWalk vm virtAddr with
  | some phys => { vm with words := Function.update vm.words phys value }
  | none => { vm with fault := true }

def pagesNeeded (size : Nat) : Nat := (size + pageSize - 1) % 2 ^ 32 / pageSize

/-- `kmalloc`: the pointer, and the state after the call. -/
def kmalloc (size : Nat) (vm : Vm) : Word × Vm :=
  if size = 0 then (0#32, vm)
  else
    let r := allocNPages (pagesNeeded size) vm.bitmap
    let vm := { vm with bitmap := r.2 }
    if r.1 = 0 then (0#32, vm)
    else
      let virtAddr := physToVirt vm (BitVec.ofNat 32 r.1)
      (virtAddr + 4#32, storeWord virtAddr (BitVec.ofNat 32 (pagesNeeded size)) vm)

/-- `kfree`. The header is read through the page walk like any word. -/
def kfree (ptr : Word) (vm : Vm) : Vm :=
  if ptr = 0#32 then vm
  else
    match pageWalk vm (ptr - 4#32) with
    | some phys => { vm with
        bitmap := freeNPages (virtToPhys vm (ptr - 4#32)).toNat (vm.words phys).toNat vm.bitmap }
    | none => { vm with fault := true }

/-! ## 3. Runs and the law -/

/-- A block handed out by `kmalloc`, with the pages whose bit that call set. -/
structure Block where
  ptr : Word
  size : Nat
  reserved : Set Nat

/-- The addresses of a block and its header. -/
def blockBytes (ptr : Word) (size : Nat) : Set Word :=
  {a | ∃ k, k < size + 4 ∧ a = ptr - 4#32 + BitVec.ofNat 32 k}

structure HeapState where
  vm : Vm
  live : List Block

inductive HeapOp where
  | kmalloc (size : Nat)
  | kfree (i : Nat)

/-- The pages whose bit is set in `bm'` and was not in `bm`. -/
def reservedPages (bm bm' : Bitmap) : Set Nat := presentPages bm' \ presentPages bm

/-- `kmalloc` of a size, or `kfree` of the `i`-th live block. -/
def HeapOp.step (s : HeapState) : HeapOp → HeapState
  | .kmalloc size =>
      let r := Memory.kmalloc size s.vm
      { vm := r.2
        live := if r.1 = 0#32 then s.live
          else ⟨r.1, size, reservedPages s.vm.bitmap r.2.bitmap⟩ :: s.live }
  | .kfree i =>
      match s.live[i]? with
      | some b => { vm := Memory.kfree b.ptr s.vm, live := s.live.eraseIdx i }
      | none => s

/-- A size is a `uint32_t`; only live blocks are freed. -/
def HeapOp.Legal (s : HeapState) : HeapOp → Prop
  | .kmalloc size => size < 2 ^ 32
  | .kfree i => i < s.live.length

/-- What a call owes its caller. -/
def BlockLaw (s : HeapState) : HeapOp → Prop
  | .kmalloc size =>
      let r := kmalloc size s.vm
      (r.1 = 0#32 ∧ r.2.bitmap = s.vm.bitmap) ∨
      (r.1 ≠ 0#32 ∧
        (∀ a ∈ blockBytes r.1 size, ∃ phys, pageWalk r.2 a = some phys ∧
          pageIndex phys.toNat ∈ reservedPages s.vm.bitmap r.2.bitmap) ∧
        ∀ b ∈ s.live, Disjoint (blockBytes r.1 size) (blockBytes b.ptr b.size))
  | .kfree i => ∀ b, s.live[i]? = some b →
      presentPages (kfree b.ptr s.vm).bitmap = presentPages s.vm.bitmap \ b.reserved

/-- The state after `init_page_bitmap` and `init_paging`: the directory is zero before (`.bss`),
    the bitmap, the words and the memory other tables could lie in are whatever they are. -/
def heapInit (pt : Word) (bm : Bitmap) (tables : Nat → Nat → Word) (words : Word → Word) :
    HeapState where
  vm := initPaging pt
    { bitmap := initPageBitmap bm, pageDirectory := fun _ => 0#32, pageTables := tables
      words := words, fault := false }
  live := []

/-! ## 4. The page tables after `init_paging` -/

theorem entryFrame_toNat (e : Word) : (entryFrame e).toNat = e.toNat / 2 ^ 12 * 2 ^ 12 :=
  toNat_and_high e 12

theorem isPresent_iff (e : Word) : isPresent e = true ↔ e.toNat % 2 = 1 := by
  have h : e &&& pagePresent = 0#32 ↔ e.toNat / 2 ^ 0 % 2 = 0 :=
    and_bit_eq_zero_iff e 0 (by decide)
  rw [isPresent, bne_iff_ne, ne_eq, h]
  omega

/-- The flags of a present, writable page are two bits the address leaves free. -/
theorem flags_toNat {x : Word} (h : x.toNat % 2 ^ 12 = 0) :
    (x ||| pagePresent ||| pageRw).toNat = x.toNat + 3 := by
  obtain ⟨n, hn⟩ : ∃ n, x.toNat = 2 ^ 12 * n := Nat.dvd_of_mod_eq_zero h
  have hflags : x ||| pagePresent ||| pageRw = x ||| 3#32 := by
    rw [BitVec.or_assoc]; rfl
  rw [hflags, BitVec.toNat_or, hn]
  exact (Nat.two_pow_add_eq_or_of_lt (by decide) n).symm

theorem isPresent_flags {x : Word} (h : x.toNat % 2 ^ 12 = 0) :
    isPresent (x ||| pagePresent ||| pageRw) = true := by
  rw [isPresent_iff, flags_toNat h]
  omega

theorem entryFrame_flags {x : Word} (h : x.toNat % 2 ^ 12 = 0) :
    entryFrame (x ||| pagePresent ||| pageRw) = x := by
  apply BitVec.eq_of_toNat_eq
  rw [entryFrame_toNat, flags_toNat h]
  omega

/-- The address of page `i`, as a word. -/
theorem page_word_toNat {i : Nat} (h : i < numPages) :
    (BitVec.ofNat 32 (i * pageSize)).toNat = i * pageSize := by
  rw [BitVec.toNat_ofNat, page_address_lt h]

theorem page_word_aligned {i : Nat} (h : i < numPages) :
    (BitVec.ofNat 32 (i * pageSize)).toNat % 2 ^ 12 = 0 := by
  rw [page_word_toNat h]
  unfold pageSize
  omega

/-- `vm` has the tables of `init_paging` and nothing else mapped. -/
structure FirstMapped (pt : Word) (vm : Vm) : Prop where
  directory_zero : vm.pageDirectory 0 = (pt ||| pagePresent ||| pageRw)
  directory_other : ∀ i, i ≠ 0 → vm.pageDirectory i = 0#32
  table : ∀ i, i < 1024 → vm.pageTables pt.toNat i
    = (BitVec.ofNat 32 (i * pageSize) ||| pagePresent ||| pageRw)

theorem initPaging_eq (pt : Word) (vm : Vm) :
    initPaging pt vm = { vm with
      pageDirectory := Function.update vm.pageDirectory 0 (pt ||| pagePresent ||| pageRw)
      pageTables := fun y x => if y = pt.toNat ∧ x < 1024
        then (BitVec.ofNat 32 (x * pageSize) ||| pagePresent ||| pageRw)
        else vm.pageTables y x } := by
  have fill := forRange_fillRow (w := 1024) (y := pt.toNat)
    (fun g : Nat → Nat → Word => { vm with pageTables := g })
    (fun _ x => (BitVec.ofNat 32 (x * pageSize) ||| pagePresent ||| pageRw))
    (fun y x (vm : Vm) => { vm with
      pageTables := put vm.pageTables y x
        (BitVec.ofNat 32 (x * pageSize) ||| pagePresent ||| pageRw) })
    (fun _ _ _ => rfl) vm.pageTables
  simp only [initPaging]
  rw [fill]

theorem heapInit_firstMapped (pt : Word) (bm : Bitmap) (tables : Nat → Nat → Word)
    (words : Word → Word) : FirstMapped pt (heapInit pt bm tables words).vm := by
  rw [heapInit, initPaging_eq]
  refine ⟨?_, fun i hi => ?_, fun i hi => ?_⟩
  · simp only [Function.update_self]
  · simp only [Function.update_of_ne hi]
  · exact if_pos ⟨rfl, hi⟩

section Mapped

variable {pt : Word} (hpt : pt.toNat % 2 ^ 12 = 0) {vm : Vm} (h : FirstMapped pt vm)

include hpt h

/-- Address 0 is mapped to physical page 0. -/
theorem FirstMapped.pageWalk_zero : pageWalk vm 0#32 = some 0#32 := by
  have hindex : ((0#32 >>> 22) &&& 0x3FF#32).toNat = 0 := by decide
  have hindex' : ((0#32 >>> 12) &&& 0x3FF#32).toNat = 0 := by decide
  have hz : (BitVec.ofNat 32 (0 * pageSize)).toNat % 2 ^ 12 = 0 := by decide
  simp only [pageWalk, hindex, hindex', h.directory_zero, isPresent_flags hpt,
    entryFrame_flags hpt, h.table 0 (by decide), isPresent_flags hz, entryFrame_flags hz, if_true]
  decide

/-- A page outside the first 4 MB is not mapped: `phys_to_virt` returns NULL. -/
theorem FirstMapped.physToVirt_unmapped {i : Nat} (hi : i < numPages) (hfirst : firstPages ≤ i) :
    physToVirt vm (BitVec.ofNat 32 (i * pageSize)) = 0#32 := by
  have hnone : isPresent 0#32 = false := by decide
  have hframe : entryFrame (BitVec.ofNat 32 (i * pageSize)) = BitVec.ofNat 32 (i * pageSize) := by
    apply BitVec.eq_of_toNat_eq
    rw [entryFrame_toNat, page_word_toNat hi]
    unfold pageSize
    omega
  rw [physToVirt, List.findSome?_eq_none_iff.mpr, Option.getD_none]
  intro pdIndex _
  by_cases h0 : pdIndex = 0
  · subst h0
    simp only [h.directory_zero, isPresent_flags hpt, entryFrame_flags hpt, if_true]
    rw [List.findSome?_eq_none_iff]
    intro ptIndex hmem
    have hlt : ptIndex < 1024 := List.mem_range.mp hmem
    have hpage : ptIndex < numPages := Nat.lt_trans hlt (by decide)
    have hne : BitVec.ofNat 32 (ptIndex * pageSize) ≠ BitVec.ofNat 32 (i * pageSize) := by
      intro heq
      have := congrArg BitVec.toNat heq
      rw [page_word_toNat hpage, page_word_toNat hi] at this
      unfold pageSize firstPages at *
      omega
    rw [h.table ptIndex hlt, entryFrame_flags (page_word_aligned hpage), hframe]
    exact if_neg fun hand => hne hand.2
  · simp only [h.directory_other pdIndex h0, hnone]
    rfl

end Mapped

/-! ## 5. `kmalloc` from the initial state -/

/-- A size that `kmalloc` gets no pages for on a fresh heap: it asks for none, or for more than
    the 4 GiB less the first 4 MB. -/
def Unservable (size : Nat) : Prop := size = 0 ∨ 0xFFC00000 < size

theorem pagesNeeded_of_servable {size : Nat} (h : ¬ Unservable size) :
    0 < pagesNeeded size ∧ firstPages + pagesNeeded size ≤ numPages := by
  unfold Unservable at h
  unfold pagesNeeded pageSize firstPages numPages
  omega

theorem pagesNeeded_of_unservable {size : Nat} (hs : size < 2 ^ 32) (h : Unservable size) :
    pagesNeeded size = 0 ∨ numPages < firstPages + pagesNeeded size := by
  unfold Unservable at h
  unfold pagesNeeded pageSize firstPages numPages
  omega

section Init

variable (pt : Word) (bm : Bitmap) (tables : Nat → Nat → Word) (words : Word → Word)

theorem heapInit_bitmap : (heapInit pt bm tables words).vm.bitmap = initPageBitmap bm := by
  rw [heapInit, initPaging_eq]

theorem initPageBitmap_freeRun {n s : Nat} (hs : firstPages ≤ s) (hn : s + n ≤ numPages) :
    FreeRun (isPagePresent (initPageBitmap bm)) n s := by
  intro j hj
  rw [initPageBitmap_present bm (by omega)]
  exact decide_eq_false (by omega)

theorem allocNPages_init_none {n : Nat} (h : n = 0 ∨ numPages < firstPages + n) :
    allocNPages n (initPageBitmap bm) = (0, initPageBitmap bm) := by
  rcases allocNPages_cases n (initPageBitmap bm) with ⟨e, -⟩ | ⟨start, bm', -, hn, hend, hfree, -⟩
  · exact e
  · have hle := (PageInv.initial bm).firstPages_le hn hfree
    omega

theorem allocNPages_init_some {n : Nat} (hn : 0 < n) (h : firstPages + n ≤ numPages) :
    ∃ start bm', allocNPages n (initPageBitmap bm) = (start * pageSize, bm') ∧
      firstPages ≤ start ∧ start < numPages := by
  rcases allocNPages_cases n (initPageBitmap bm) with
    ⟨-, hno⟩ | ⟨start, bm', e, -, hend, hfree, -⟩
  · exact absurd (initPageBitmap_freeRun bm (Nat.le_refl _) h) (hno firstPages hn h)
  · exact ⟨start, bm', e, (PageInv.initial bm).firstPages_le hn hfree, by omega⟩

/-- An unservable size is refused and leaves the state alone. -/
theorem kmalloc_init_refused {size : Nat} (hs : size < 2 ^ 32) (h : Unservable size) :
    kmalloc size (heapInit pt bm tables words).vm = (0#32, (heapInit pt bm tables words).vm) := by
  by_cases h0 : size = 0
  · rw [kmalloc, if_pos h0]
  · have hnone := allocNPages_init_none bm (pagesNeeded_of_unservable hs h)
    rw [← heapInit_bitmap pt bm tables words] at hnone
    simp only [kmalloc, h0, if_false, hnone, if_true]

/-- **A served `kmalloc` returns 4**: the pages are never mapped, and NULL is not checked. -/
theorem kmalloc_init_success (hpt : pt.toNat % 2 ^ 12 = 0) {size : Nat} (h : ¬ Unservable size) :
    (kmalloc size (heapInit pt bm tables words).vm).1 = 4#32 ∧
      pageWalk (kmalloc size (heapInit pt bm tables words).vm).2 0#32 = some 0#32 := by
  obtain ⟨hpos, hfit⟩ := pagesNeeded_of_servable h
  obtain ⟨start, bm', e, hfirst, hlt⟩ := allocNPages_init_some bm hpos hfit
  have h0 : size ≠ 0 := fun h0 => h (Or.inl h0)
  have haddr : start * pageSize ≠ 0 := by
    unfold firstPages at hfirst
    unfold pageSize
    omega
  have hmapped := heapInit_firstMapped pt bm tables words
  rw [← heapInit_bitmap pt bm tables words] at e
  generalize (heapInit pt bm tables words).vm = vm at e hmapped ⊢
  have hmapped' : FirstMapped pt { vm with bitmap := bm' } :=
    ⟨hmapped.directory_zero, hmapped.directory_other, hmapped.table⟩
  have hwalk := hmapped'.pageWalk_zero hpt
  simp only [kmalloc, h0, if_false, e, haddr, hmapped'.physToVirt_unmapped hpt hlt hfirst,
    storeWord, hwalk]
  exact ⟨rfl, hwalk⟩

/-- On the initial state the law holds of a `kmalloc` exactly when it gets no pages. -/
theorem blockLaw_init_iff (hpt : pt.toNat % 2 ^ 12 = 0) {size : Nat} (hs : size < 2 ^ 32) :
    BlockLaw (heapInit pt bm tables words) (.kmalloc size) ↔ Unservable size := by
  constructor
  · intro hlaw
    by_contra hserv
    obtain ⟨hptr, hwalk⟩ := kmalloc_init_success pt bm tables words hpt hserv
    rcases hlaw with ⟨hnull, -⟩ | ⟨-, hbytes, -⟩
    · rw [hptr] at hnull
      exact absurd hnull (by decide)
    · -- the header lies in page 0, which was in use before the call
      have hheader : (0#32 : Word)
          ∈ blockBytes (kmalloc size (heapInit pt bm tables words).vm).1 size := by
        rw [hptr]
        exact ⟨0, by omega, by decide⟩
      obtain ⟨phys, hphys, hres⟩ := hbytes 0#32 hheader
      obtain rfl := Option.some.inj (hwalk.symm.trans hphys)
      refine hres.2 ?_
      rw [heapInit_bitmap, presentPages_init]
      show pageIndex 0 < firstPages
      decide
  · intro h
    have hrefused := kmalloc_init_refused pt bm tables words hs h
    refine Or.inl ?_
    rw [hrefused]
    exact ⟨rfl, rfl⟩

/-- **A run keeps the law exactly when every size in it is unservable.** -/
theorem kmalloc_law_iff (hpt : pt.toNat % 2 ^ 12 = 0) (ops : List HeapOp)
    (hlegal : Guarded HeapOp.step HeapOp.Legal (heapInit pt bm tables words) ops) :
    Guarded HeapOp.step BlockLaw (heapInit pt bm tables words) ops
      ↔ ∀ size, .kmalloc size ∈ ops → Unservable size := by
  -- As long as the law holds nothing is ever allocated, and the state is the initial one.
  induction ops with
  | nil => exact iff_of_true trivial fun _ h => absurd h List.not_mem_nil
  | cons op ops ih =>
      cases op with
      | kfree i => exact absurd hlegal.1 (Nat.not_lt_zero i)
      | kmalloc size =>
          have hs : size < 2 ^ 32 := hlegal.1
          have hlaw := blockLaw_init_iff pt bm tables words hpt hs
          by_cases hun : Unservable size
          · have hsame : HeapOp.step (heapInit pt bm tables words) (.kmalloc size)
                = heapInit pt bm tables words := by
              simp only [HeapOp.step, kmalloc_init_refused pt bm tables words hs hun, if_true]
            have hlegal' := hlegal.2
            rw [hsame] at hlegal'
            have hrest := ih hlegal'
            rw [Guarded, hsame, hrest, hlaw]
            simp [hun]
          · refine iff_of_false (fun h => hun (hlaw.mp h.1)) fun h => ?_
            exact hun (h size List.mem_cons_self)

end Init

theorem kmalloc_law_refused_sizes :
    Guarded HeapOp.step BlockLaw
      (heapInit 0x105000#32 (fun _ => 0#8) (fun _ _ => 0#32) fun _ => 0#32)
      [.kmalloc 0, .kmalloc 0xFFFFF001] := by
  have hzero : 0 < 2 ^ 32 := by decide
  have hlarge : 0xFFFFF001 < 2 ^ 32 := by decide
  refine (kmalloc_law_iff 0x105000#32 _ _ _ (by decide) [.kmalloc 0, .kmalloc 0xFFFFF001]
    ⟨hzero, hlarge, trivial⟩).mpr ?_
  intro size hsize
  simp only [List.mem_cons, HeapOp.kmalloc.injEq, List.not_mem_nil, or_false] at hsize
  rcases hsize with rfl | rfl
  · exact Or.inl rfl
  · exact Or.inr (by decide)

/-- One byte is enough: the block lies at address 4, with its header in page 0. -/
theorem kmalloc_one_breaks_law :
    Guarded HeapOp.step HeapOp.Legal
        (heapInit 0x105000#32 (fun _ => 0#8) (fun _ _ => 0#32) fun _ => 0#32) [.kmalloc 1] ∧
      ¬ Guarded HeapOp.step BlockLaw
        (heapInit 0x105000#32 (fun _ => 0#8) (fun _ _ => 0#32) fun _ => 0#32) [.kmalloc 1] := by
  have hone : 1 < 2 ^ 32 := by decide
  refine ⟨⟨hone, trivial⟩, fun h => ?_⟩
  have hun : Unservable 1 := (blockLaw_init_iff 0x105000#32 _ _ _ (by decide) hone).mp h.1
  rcases hun with h0 | hlt
  · exact absurd h0 (by decide)
  · exact absurd hlt (by decide)

end MapleKernel.Memory
