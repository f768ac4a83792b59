/-
  File:      Memory/PageBitmap.lean
  Subject:   THE PHYSICAL PAGE ALLOCATOR of `virtual_memory.c`.

  One bit for each of the 2 ^ 20 pages of the 4 GiB space. `uint32_t` products and sums are taken
  modulo `2 ^ 32`. Beside the bitmap the state of a run (`PageState`) keeps the ranges handed out
  and not yet given back; the functions do not read it.

  * `allocNPages_cases` -- what `alloc_n_pages` can do: reserve the lowest free run of `n` pages,
    or nothing, and nothing only when there is no such run. `allocNPages_firstFit` is the same read
    from the bitmap to the result.
  * `PageInv` -- the bits set are the first 1024 pages and, disjointly, the outstanding ranges;
    every call keeps it (`PageStep.inv`).
  * `pageBitmap_ownership`: the ownership law in every reachable state.
-/
import MapleKernel.Lib.PackedBits
import MapleKernel.Lib.Blocks

namespace MapleKernel.Memory

open Loops PackedBits Blocks

/-! ## 1. The functions -/

def pageSize : Nat := 0x1000
def numPages : Nat := 2 ^ 20
def bitmapSize : Nat := numPages / 8

/-- The pages of the first 4 MB, taken by `init_page_bitmap`. -/
def firstPages : Nat := 1024

abbrev Bitmap := Bytes

def pageIndex (addr : Nat) : Nat := addr / pageSize

def setPagePresent (idx : Nat) (bm : Bitmap) : Bitmap := set idx bm

def clearPagePresent (idx : Nat) (bm : Bitmap) : Bitmap := clear idx bm

def isPagePresent (bm : Bitmap) (idx : Nat) : Bool := test bm idx

def initPageBitmap (bm : Bitmap) : Bitmap :=
  let bm := forRange bitmapSize (fun i bm => Function.update bm i 0#8) bm
  forRange firstPages setPagePresent bm

/-- `alloc_page`: the address, and the bitmap after the call. -/
def allocPage (bm : Bitmap) : Nat × Bitmap :=
  match scanOne (isPagePresent bm) numPages 0 with
  | some i => (i * pageSize % 2 ^ 32, setPagePresent i bm)
  | none => (0, bm)

def freePage (physAddr : Nat) (bm : Bitmap) : Bitmap := clearPagePresent (pageIndex physAddr) bm

/-- `alloc_n_pages`. -/
def allocNPages (n : Nat) (bm : Bitmap) : Nat × Bitmap :=
  if n = 0 ∨ n > numPages then (0, bm)
  else
    match scan (isPagePresent bm) n numPages 0 0 0 with
    | some start =>
        (start * pageSize % 2 ^ 32,
          forRange n (fun j => setPagePresent ((start + j) % 2 ^ 32)) bm)
    | none => (0, bm)

def freeNPages (physAddr n : Nat) (bm : Bitmap) : Bitmap :=
  forRange n (fun i => clearPagePresent ((pageIndex physAddr + i) % 2 ^ 32)) bm

/-! ## 2. What each function does to the set of pages in use -/

/-- The pages whose bit is set. -/
def presentPages (bm : Bitmap) : Set Nat := {i | i < numPages ∧ isPagePresent bm i = true}

theorem pageIndex_mul (start : Nat) : pageIndex (start * pageSize) = start :=
  Nat.mul_div_cancel start (by decide)

theorem page_address_lt {start : Nat} (h : start < numPages) :
    start * pageSize % 2 ^ 32 = start * pageSize := by
  refine Nat.mod_eq_of_lt ?_
  unfold numPages at h
  unfold pageSize
  omega

theorem initPageBitmap_present (bm : Bitmap) {i : Nat} (hi : i < numPages) :
    isPagePresent (initPageBitmap bm) i = decide (i < firstPages) := by
  have hzero : ∀ k, k < bitmapSize →
      forRange bitmapSize (fun i bm => Function.update bm i 0#8) bm k = 0#8 := by
    refine forRange_inv (P := fun m (b : Bitmap) => ∀ k, k < m → b k = 0#8) bitmapSize
      (fun k hk => absurd hk (Nat.not_lt_zero k)) ?_
    intro m b _ hb k hk
    by_cases hkm : k = m
    · subst hkm; exact Function.update_self ..
    · rw [Function.update_of_ne hkm]
      exact hb k (by omega)
  have hbyte : i / 8 < bitmapSize := by
    unfold bitmapSize numPages at *; omega
  have hclear : test (forRange bitmapSize (fun i bm => Function.update bm i 0#8) bm) i = false := by
    rw [test_eq_getLsbD, hzero _ hbyte, BitVec.getLsbD_zero]
  have hset := test_setRange (forRange bitmapSize (fun i bm => Function.update bm i 0#8) bm) 0
    firstPages i
  simp only [Nat.zero_add, Nat.zero_le, true_and, hclear, Bool.or_false] at hset
  exact hset

theorem presentPages_init (bm : Bitmap) :
    presentPages (initPageBitmap bm) = Set.Iio firstPages := by
  ext i
  constructor
  · intro h
    obtain ⟨hi, hp⟩ := h
    rw [initPageBitmap_present bm hi] at hp
    exact of_decide_eq_true hp
  · intro hi
    have hlt : i < numPages := Nat.lt_trans hi (by decide)
    exact ⟨hlt, by rw [initPageBitmap_present bm hlt]; exact decide_eq_true hi⟩

/-- **What `alloc_n_pages` can do.** -/
theorem allocNPages_cases (n : Nat) (bm : Bitmap) :
    (allocNPages n bm = (0, bm) ∧
      ∀ s, 0 < n → s + n ≤ numPages → ¬ FreeRun (isPagePresent bm) n s) ∨
    (∃ start bm', allocNPages n bm = (start * pageSize, bm') ∧
      0 < n ∧ start + n ≤ numPages ∧ FreeRun (isPagePresent bm) n start ∧
      (∀ s, s < start → ¬ FreeRun (isPagePresent bm) n s) ∧
      ∀ i, isPagePresent bm' i = (decide (start ≤ i ∧ i < start + n) || isPagePresent bm i)) := by
  by_cases hn : n = 0 ∨ n > numPages
  · refine Or.inl ⟨by rw [allocNPages, if_pos hn], fun s h0 hs => ?_⟩
    omega
  · have hpos : 0 < n := by omega
    have hinv := ScanInv.initial (isPagePresent bm) 0 hpos
    cases hscan : scan (isPagePresent bm) n numPages 0 0 0 with
    | none =>
        refine Or.inl ⟨by rw [allocNPages, if_neg hn, hscan], fun s _ hs => ?_⟩
        exact scan_none hinv hscan s (by omega)
    | some start =>
        obtain ⟨hend, hfree, hlow⟩ := scan_some hinv hscan
        rw [Nat.zero_add] at hend
        have hset : forRange n (fun j => setPagePresent ((start + j) % 2 ^ 32)) bm
            = forRange n (fun j => set (start + j)) bm := by
          refine forRange_congr (fun j hj => ?_) bm
          have hmod : (start + j) % 2 ^ 32 = start + j := by
            unfold numPages at hend; omega
          rw [hmod]; rfl
        refine Or.inr ⟨start, _, ?_, hpos, hend, hfree, hlow, test_setRange bm start n⟩
        rw [allocNPages, if_neg hn, hscan, ← hset]
        simp only [page_address_lt (Nat.lt_of_lt_of_le (Nat.lt_add_of_pos_right hpos) hend)]

/-- **`alloc_page` is `alloc_n_pages(1)`.** -/
theorem allocPage_eq (bm : Bitmap) : allocPage bm = allocNPages 1 bm := by
  have hone : ¬ (1 = 0 ∨ 1 > numPages) := by decide
  rw [allocPage, allocNPages, if_neg hone, scanOne_eq_scan (isPagePresent bm) numPages 0 0]
  cases hscan : scan (isPagePresent bm) 1 numPages 0 0 0 with
  | none => rfl
  | some i =>
      have hend := (scan_some (ScanInv.initial _ _ (by decide)) hscan).1
      have hmod : i % 2 ^ 32 = i := by unfold numPages at hend; omega
      simp only [forRange_succ, forRange_zero, Nat.add_zero, hmod]

/-! ### First fit -/

/-- The lowest `n` free pages in a row are those from `start` on. -/
structure LowestFreeRun (bm : Bitmap) (n start : Nat) : Prop where
  inside : start + n ≤ numPages
  free : FreeRun (isPagePresent bm) n start
  lowest : ∀ s, s < start → ¬ FreeRun (isPagePresent bm) n s

/-- Exactly the bits of the pages `start`, ..., `start + n - 1` went from 0 to 1. -/
structure Reserved (bm bm' : Bitmap) (start n : Nat) : Prop where
  taken : ∀ i, start ≤ i → i < start + n →
    isPagePresent bm i = false ∧ isPagePresent bm' i = true
  kept : ∀ i, ¬ (start ≤ i ∧ i < start + n) → isPagePresent bm' i = isPagePresent bm i

/-- **`alloc_n_pages` is first-fit and complete.** With page 0 taken, address 0 means failure. -/
theorem allocNPages_firstFit (bm : Bitmap) (hzero : isPagePresent bm 0 = true) {n : Nat}
    (hn : 1 ≤ n) :
    ((∃ s, s + n ≤ numPages ∧ FreeRun (isPagePresent bm) n s) →
      ∃ start, LowestFreeRun bm n start ∧ (allocNPages n bm).1 = start * pageSize ∧
        start * pageSize ≠ 0 ∧ Reserved bm (allocNPages n bm).2 start n) ∧
    ((¬ ∃ s, s + n ≤ numPages ∧ FreeRun (isPagePresent bm) n s) → allocNPages n bm = (0, bm)) ∧
    (n > numPages → allocNPages n bm = (0, bm)) ∧
    allocPage bm = allocNPages 1 bm := by
  refine ⟨fun hrun => ?_, fun hnone => ?_, fun hbig => ?_, allocPage_eq bm⟩
  · obtain ⟨s, hs, hsfree⟩ := hrun
    rcases allocNPages_cases n bm with ⟨-, hno⟩ | ⟨start, bm', e, -, hend, hfree, hlow, hbits⟩
    · exact absurd hsfree (hno s hn hs)
    · have hpos : start ≠ 0 := by
        intro h0
        have hf := hfree 0 hn
        rw [h0, hzero] at hf
        cases hf
      rw [e]
      refine ⟨start, ⟨hend, hfree, hlow⟩, rfl, Nat.mul_ne_zero hpos (by decide), ?_, ?_⟩
      · intro i hlo hhi
        have hf := hfree (i - start) (by omega)
        rw [Nat.add_sub_cancel' hlo] at hf
        refine ⟨hf, ?_⟩
        rw [hbits, decide_eq_true ⟨hlo, hhi⟩, Bool.true_or]
      · intro i hi
        rw [hbits, decide_eq_false hi, Bool.false_or]
  · rcases allocNPages_cases n bm with ⟨e, -⟩ | ⟨start, bm', -, -, hend, hfree, -, -⟩
    · exact e
    · exact absurd ⟨start, hend, hfree⟩ hnone
  · rw [allocNPages, if_pos (Or.inr hbig)]

/-- Pages 0, 1 and 3 are taken: three pages fit from page 4 on, and not at page 2. -/
theorem allocNPages_firstFit_fragmented :
    (allocNPages 3 fun k => if k = 0 then 0x0B#8 else 0#8).1 = 4 * pageSize := by
  have h := (allocNPages_firstFit (fun k => if k = 0 then 0x0B#8 else 0#8) (by decide)
    (n := 3) (by decide)).1
  have hfour : FreeRun (isPagePresent fun k => if k = 0 then 0x0B#8 else 0#8) 3 4 := by
    intro j hj
    interval_cases j <;> decide
  obtain ⟨start, hlow, hret, -, -⟩ := h ⟨4, by decide, hfour⟩
  have hle : start ≤ 4 := Nat.le_of_not_lt fun hlt => hlow.lowest 4 hlt hfour
  have hfree0 := hlow.free 0 (by decide)
  have hfree1 := hlow.free 1 (by decide)
  have hstart : start = 4 := by
    interval_cases start
    · exact absurd hfree0 (by decide)
    · exact absurd hfree0 (by decide)
    · exact absurd hfree1 (by decide)
    · exact absurd hfree0 (by decide)
    · rfl
  rw [hret, hstart]

theorem freeNPages_present {start n : Nat} (h : start + n ≤ numPages) (bm : Bitmap) (i : Nat) :
    isPagePresent (freeNPages (start * pageSize) n bm) i
      = (!decide (start ≤ i ∧ i < start + n) && isPagePresent bm i) := by
  have hclear : freeNPages (start * pageSize) n bm
      = forRange n (fun j => clear (start + j)) bm := by
    rw [freeNPages, pageIndex_mul]
    refine forRange_congr (fun j hj => ?_) bm
    have hmod : (start + j) % 2 ^ 32 = start + j := by
      unfold numPages at h; omega
    rw [hmod]; rfl
  rw [hclear]
  exact test_clearRange bm start n i

theorem freePage_eq {start : Nat} (h : start < numPages) (bm : Bitmap) :
    freePage (start * pageSize) bm = freeNPages (start * pageSize) 1 bm := by
  have hmod : (start + 0) % 2 ^ 32 = start := by unfold numPages at h; omega
  rw [freePage, freeNPages, pageIndex_mul, forRange_succ, forRange_zero, hmod]

-- The bitmap after boot is known by its bits: unfolding it would run a loop of 2 ^ 17 steps.
attribute [irreducible] initPageBitmap

/-! ## 3. Runs -/

/-- A range of pages handed out by one call. -/
structure PageRange where
  start : Nat
  len : Nat

def PageRange.pages (r : PageRange) : Set Nat := Set.Ico r.start (r.start + r.len)

structure PageState where
  bitmap : Bitmap
  outstanding : List PageRange

/-- The state after an allocation call for `n` pages with result `r`. -/
def PageState.record (s : PageState) (n : Nat) (r : Nat × Bitmap) : PageState where
  bitmap := r.2
  outstanding := if r.1 = 0 then s.outstanding else ⟨pageIndex r.1, n⟩ :: s.outstanding

/-- One call: any allocation, or giving back an outstanding range at its own address and length. -/
inductive PageStep : PageState → PageState → Prop where
  | allocPage (s : PageState) : PageStep s (s.record 1 (allocPage s.bitmap))
  | allocNPages (s : PageState) (n : Nat) : PageStep s (s.record n (allocNPages n s.bitmap))
  | freePage (bm : Bitmap) (l₁ l₂ : List PageRange) (start : Nat) :
      PageStep ⟨bm, l₁ ++ ⟨start, 1⟩ :: l₂⟩ ⟨freePage (start * pageSize) bm, l₁ ++ l₂⟩
  | freeNPages (bm : Bitmap) (l₁ l₂ : List PageRange) (r : PageRange) :
      PageStep ⟨bm, l₁ ++ r :: l₂⟩ ⟨freeNPages (r.start * pageSize) r.len bm, l₁ ++ l₂⟩

def PageState.init (bm : Bitmap) : PageState := ⟨initPageBitmap bm, []⟩

structure PageInv (s : PageState) : Prop where
  inside : ∀ r ∈ s.outstanding, r.start + r.len ≤ numPages
  parts : Partitions (Set.Iio firstPages) (presentPages s.bitmap)
    (s.outstanding.map PageRange.pages)

theorem PageInv.initial (bm : Bitmap) : PageInv (.init bm) where
  inside := fun _ h => absurd h List.not_mem_nil
  parts := by
    simp only [PageState.init, presentPages_init, List.map_nil]
    exact Partitions.initial _

theorem PageInv.first_present {s : PageState} (h : PageInv s) {i : Nat} (hi : i < firstPages) :
    isPagePresent s.bitmap i = true :=
  ((h.parts.used_eq i).mpr (Or.inl hi)).2

/-- A free run does not start in the first 4 MB; in particular its address is not 0. -/
theorem PageInv.firstPages_le {s : PageState} (h : PageInv s) {n start : Nat} (hn : 0 < n)
    (hfree : FreeRun (isPagePresent s.bitmap) n start) : firstPages ≤ start := by
  by_contra hlt
  have hp := h.first_present (Nat.lt_of_not_le hlt)
  have hf := hfree 0 hn
  rw [Nat.add_zero, hp] at hf
  cases hf

theorem PageInv.address_ne_zero {s : PageState} (h : PageInv s) {n start : Nat} (hn : 0 < n)
    (hfree : FreeRun (isPagePresent s.bitmap) n start) : start * pageSize ≠ 0 := by
  have hle := h.firstPages_le hn hfree
  unfold firstPages at hle
  unfold pageSize
  omega

theorem PageInv.allocNPages {s : PageState} (h : PageInv s) (n : Nat) :
    PageInv (s.record n (allocNPages n s.bitmap)) := by
  rcases allocNPages_cases n s.bitmap with ⟨e, -⟩ | ⟨start, bm', e, hn, hend, hfree, -, hbits⟩
  · rw [e]
    exact h
  · have hne := h.address_ne_zero hn hfree
    have hlist : (s.record n (start * pageSize, bm')).outstanding
        = ⟨start, n⟩ :: s.outstanding := by
      simp only [PageState.record, hne, if_false, pageIndex_mul]
    have hused : presentPages bm' = presentPages s.bitmap ∪ Set.Ico start (start + n) := by
      ext i
      simp only [presentPages, Set.mem_ofPred_eq, Set.mem_union, Set.mem_Ico, hbits,
        Bool.or_eq_true, decide_eq_true_eq]
      constructor
      · intro h
        obtain ⟨hi, hr | hp⟩ := h
        · exact Or.inr hr
        · exact Or.inl ⟨hi, hp⟩
      · intro h
        rcases h with ⟨hi, hp⟩ | hr
        · exact ⟨hi, Or.inr hp⟩
        · exact ⟨by omega, Or.inl hr⟩
    have hdisj : Disjoint (presentPages s.bitmap) (Set.Ico start (start + n)) := by
      refine Set.disjoint_left.mpr fun i hi hr => ?_
      have hf := hfree (i - start) (by have := hr.2; have := hr.1; omega)
      have eq : start + (i - start) = i := Nat.add_sub_cancel' hr.1
      rw [eq, hi.2] at hf
      cases hf
    rw [e]
    refine ⟨fun r hr => ?_, ?_⟩
    · rw [hlist] at hr
      rcases List.mem_cons.mp hr with rfl | hr
      · exact hend
      · exact h.inside r hr
    · rw [hlist]
      show Partitions _ (presentPages bm') (Set.Ico start (start + n) :: _)
      rw [hused]
      exact h.parts.alloc hdisj

theorem PageInv.freeNPages {bm : Bitmap} {l₁ l₂ : List PageRange} {r : PageRange}
    (h : PageInv ⟨bm, l₁ ++ r :: l₂⟩) :
    PageInv ⟨freeNPages (r.start * pageSize) r.len bm, l₁ ++ l₂⟩ := by
  have hr : r.start + r.len ≤ numPages :=
    h.inside r (List.mem_append_right l₁ List.mem_cons_self)
  have hused : presentPages (Memory.freeNPages (r.start * pageSize) r.len bm)
      = presentPages bm \ r.pages := by
    ext i
    simp only [presentPages, Set.mem_ofPred_eq, Set.mem_sdiff, PageRange.pages, Set.mem_Ico,
      freeNPages_present hr, Bool.and_eq_true, Bool.not_eq_true', decide_eq_false_iff_not]
    tauto
  refine ⟨fun r' hr' => h.inside r' ?_, ?_⟩
  · rcases List.mem_append.mp hr' with hr' | hr'
    · exact List.mem_append_left _ hr'
    · exact List.mem_append_right _ (List.mem_cons_of_mem _ hr')
  · have hparts := h.parts
    simp only [List.map_append, List.map_cons] at hparts
    show Partitions _ (presentPages (Memory.freeNPages (r.start * pageSize) r.len bm))
      ((l₁ ++ l₂).map PageRange.pages)
    rw [hused, List.map_append]
    exact hparts.free

theorem PageStep.inv {s s' : PageState} (hstep : PageStep s s') (h : PageInv s) : PageInv s' := by
  cases hstep with
  | allocPage => rw [allocPage_eq]; exact h.allocNPages 1
  | allocNPages _ n => exact h.allocNPages n
  | freePage bm l₁ l₂ start =>
      have hlt : start + 1 ≤ numPages :=
        h.inside ⟨start, 1⟩ (List.mem_append_right l₁ List.mem_cons_self)
      rw [freePage_eq hlt]
      exact h.freeNPages (r := ⟨start, 1⟩)
  | freeNPages bm l₁ l₂ r => exact h.freeNPages

theorem PageInv.reachable {bm : Bitmap} {s : PageState}
    (h : Relation.ReflTransGen PageStep (.init bm) s) : PageInv s := by
  induction h with
  | refl => exact PageInv.initial bm
  | tail _ hstep ih => exact hstep.inv ih

/-- A call returns 0 exactly when the bitmap is as it was. -/
theorem PageInv.allocNPages_eq_zero_iff {s : PageState} (h : PageInv s) (n : Nat) :
    (Memory.allocNPages n s.bitmap).1 = 0 ↔ (Memory.allocNPages n s.bitmap).2 = s.bitmap := by
  rcases allocNPages_cases n s.bitmap with ⟨e, -⟩ | ⟨start, bm', e, hn, hend, hfree, -, hbits⟩
  · rw [e]
    exact iff_of_true rfl rfl
  · rw [e]
    refine iff_of_false (h.address_ne_zero hn hfree) fun (heq : bm' = s.bitmap) => ?_
    have hb := hbits start
    have hf := hfree 0 hn
    rw [Nat.add_zero] at hf
    rw [heq, hf] at hb
    simp [hn] at hb

/-- The ownership law of the page allocator. -/
structure OwnershipLaw (s : PageState) : Prop where
  /-- The outstanding ranges are pairwise disjoint, ... -/
  disjoint : s.outstanding.Pairwise fun r r' => Disjoint r.pages r'.pages
  /-- ... lie inside the 4 GiB space ... -/
  inside : ∀ r ∈ s.outstanding, r.pages ⊆ Set.Iio numPages
  /-- ... and outside the first 4 MB; ... -/
  above : ∀ r ∈ s.outstanding, Disjoint (Set.Iio firstPages) r.pages
  /-- ... a bit is set exactly for the first 1024 pages and those of the outstanding ranges; ... -/
  bits : ∀ i, i < numPages →
    (isPagePresent s.bitmap i = true ↔ i < firstPages ∨ ∃ r ∈ s.outstanding, i ∈ r.pages)
  /-- ... and an allocation call returns 0 exactly when it reserves nothing. -/
  allocPage_zero : (allocPage s.bitmap).1 = 0 ↔ (allocPage s.bitmap).2 = s.bitmap
  allocNPages_zero : ∀ n,
    ((allocNPages n s.bitmap).1 = 0 ↔ (allocNPages n s.bitmap).2 = s.bitmap)

/-- **Ownership in every reachable state**, whatever the bitmap held before `init_page_bitmap`. -/
theorem pageBitmap_ownership (bm : Bitmap) (s : PageState)
    (h : Relation.ReflTransGen PageStep (.init bm) s) : OwnershipLaw s := by
  have hinv := PageInv.reachable h
  refine ⟨List.pairwise_map.mp hinv.parts.disjoint, ?_, ?_, ?_, ?_, hinv.allocNPages_eq_zero_iff⟩
  · intro r hr i hi
    exact Nat.lt_of_lt_of_le hi.2 (hinv.inside r hr)
  · exact fun r hr => hinv.parts.off_base _ (List.mem_map_of_mem hr)
  · intro i hi
    have hused := hinv.parts.used_eq i
    simp only [presentPages, Set.mem_ofPred_eq, hi, true_and, Set.mem_Iio, List.mem_map,
      exists_exists_and_eq_and] at hused
    exact hused
  · rw [allocPage_eq]
    exact hinv.allocNPages_eq_zero_iff 1

theorem pageBitmap_ownership_after_alloc :
    OwnershipLaw ((PageState.init fun _ => 0#8).record 3
      (allocNPages 3 (PageState.init fun _ => 0#8).bitmap)) :=
  pageBitmap_ownership (fun _ => 0#8) _ (Relation.ReflTransGen.single (.allocNPages _ 3))

end MapleKernel.Memory
