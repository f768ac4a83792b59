/-
  File:      Memory/PageWalk.lean
  Subject:   `virt_to_phys` AND `phys_to_virt` ARE INVERSE TO EACH OTHER, for every page directory.

  A virtual address is a directory index, a table index and an offset (`virtAddress_toNat`,
  `eq_virtAddress`). `Maps` says that the entries at two indices are present and lead to a frame:
  `pageWalk_iff` reads the walk as `Maps`, `physToVirt_cases` the reverse search as the first pair
  of indices in `Maps`, which is the least virtual address.

  * `translation_law` -- the law of the two functions, whatever the entries and their flags are,
    with any number of virtual pages on one frame.
-/
import MapleKernel.Lib.FirstFound
import MapleKernel.Memory.Kmalloc

namespace MapleKernel.Memory

open WordField FirstFound

/-! ## 1. The three parts of a virtual address -/

def pdIndexOf (virtAddr : Word) : Nat := ((virtAddr >>> 22) &&& 0x3FF#32).toNat

def ptIndexOf (virtAddr : Word) : Nat := ((virtAddr >>> 12) &&& 0x3FF#32).toNat

def offsetOf (addr : Word) : Word := addr &&& 0xFFF#32

/-- The address `phys_to_virt` puts together. -/
def virtAddress (pdIndex ptIndex : Nat) (offset : Word) : Word :=
  (BitVec.ofNat 32 pdIndex <<< 22) ||| (BitVec.ofNat 32 ptIndex <<< 12) ||| offset

theorem offsetOf_toNat (a : Word) : (offsetOf a).toNat = a.toNat % 2 ^ 12 :=
  toNat_and_low a 12 (by decide)

theorem pdIndexOf_eq (v : Word) : pdIndexOf v = v.toNat / 2 ^ 22 := by
  have h := toNat_and_low (v >>> 22) 10 (by decide)
  rw [BitVec.toNat_ushiftRight, Nat.shiftRight_eq_div_pow] at h
  have hlt := v.isLt
  exact h.trans (by omega)

theorem ptIndexOf_eq (v : Word) : ptIndexOf v = v.toNat / 2 ^ 12 % 2 ^ 10 := by
  have h := toNat_and_low (v >>> 12) 10 (by decide)
  rw [BitVec.toNat_ushiftRight, Nat.shiftRight_eq_div_pow] at h
  exact h

/-- The three parts do not overlap. -/
theorem virtAddress_toNat {i j : Nat} (hi : i < 1024) (hj : j < 1024) {offset : Word}
    (ho : offset.toNat < 2 ^ 12) :
    (virtAddress i j offset).toNat = i * 2 ^ 22 + j * 2 ^ 12 + offset.toNat := by
  have hlow : (BitVec.ofNat 32 j <<< 12).toNat = j * 2 ^ 12 := by
    rw [BitVec.toNat_shiftLeft, BitVec.toNat_ofNat, Nat.shiftLeft_eq]
    omega
  have hhigh : (BitVec.ofNat 32 i <<< 22).toNat = 2 ^ 22 * i := by
    rw [BitVec.toNat_shiftLeft, BitVec.toNat_ofNat, Nat.shiftLeft_eq]
    omega
  have htop : (BitVec.ofNat 32 i <<< 22 ||| BitVec.ofNat 32 j <<< 12).toNat
      = 2 ^ 12 * (2 ^ 10 * i + j) := by
    rw [BitVec.toNat_or, hhigh, hlow, ← Nat.two_pow_add_eq_or_of_lt (by omega) i]
    omega
  rw [virtAddress, BitVec.toNat_or, htop, ← Nat.two_pow_add_eq_or_of_lt ho]
  omega

theorem eq_virtAddress (v : Word) : v = virtAddress (pdIndexOf v) (ptIndexOf v) (offsetOf v) := by
  have hlt := v.isLt
  have hi : pdIndexOf v < 1024 := by rw [pdIndexOf_eq]; omega
  have hj : ptIndexOf v < 1024 := by rw [ptIndexOf_eq]; omega
  have ho : (offsetOf v).toNat < 2 ^ 12 := by rw [offsetOf_toNat]; omega
  apply BitVec.eq_of_toNat_eq
  rw [virtAddress_toNat hi hj ho, pdIndexOf_eq, ptIndexOf_eq, offsetOf_toNat]
  omega

/-- A physical address is its frame and its offset. -/
theorem frame_add_offset (e v : Word) :
    entryFrame (entryFrame e + offsetOf v) = entryFrame e ∧
      offsetOf (entryFrame e + offsetOf v) = offsetOf v := by
  have he := e.isLt
  have hsum : (entryFrame e + offsetOf v).toNat = e.toNat / 2 ^ 12 * 2 ^ 12 + v.toNat % 2 ^ 12 := by
    rw [BitVec.toNat_add, entryFrame_toNat, offsetOf_toNat]
    exact Nat.mod_eq_of_lt (by omega)
  constructor
  · apply BitVec.eq_of_toNat_eq
    rw [entryFrame_toNat, hsum, entryFrame_toNat]
    omega
  · apply BitVec.eq_of_toNat_eq
    rw [offsetOf_toNat, hsum, offsetOf_toNat]
    omega

theorem eq_frame_add_offset (p : Word) : entryFrame p + offsetOf p = p := by
  have hp := p.isLt
  apply BitVec.eq_of_toNat_eq
  rw [BitVec.toNat_add, entryFrame_toNat, offsetOf_toNat]
  omega

/-! ## 2. The walk and the search, as one relation -/

/-- The entries at the two indices are present and lead to `frame`. -/
def Maps (vm : Vm) (pdIndex ptIndex : Nat) (frame : Word) : Prop :=
  isPresent (vm.pageDirectory pdIndex) = true ∧
    isPresent (vm.pageTables (entryFrame (vm.pageDirectory pdIndex)).toNat ptIndex) = true ∧
    entryFrame (vm.pageTables (entryFrame (vm.pageDirectory pdIndex)).toNat ptIndex) = frame

instance (vm : Vm) (i j : Nat) (frame : Word) : Decidable (Maps vm i j frame) :=
  inferInstanceAs (Decidable (_ ∧ _))

/-- **The walk follows `Maps`** and keeps the offset. -/
theorem pageWalk_iff {vm : Vm} {v p : Word} :
    pageWalk vm v = some p ↔
      Maps vm (pdIndexOf v) (ptIndexOf v) (entryFrame p) ∧ offsetOf v = offsetOf p := by
  obtain ⟨e, he⟩ : ∃ e, e = vm.pageTables
      (entryFrame (vm.pageDirectory (pdIndexOf v))).toNat (ptIndexOf v) := ⟨_, rfl⟩
  have hwalk : pageWalk vm v = if isPresent (vm.pageDirectory (pdIndexOf v)) then
      if isPresent e then some (entryFrame e + offsetOf v) else none else none := he ▸ rfl
  rw [hwalk, Maps, ← he]
  constructor
  · intro h
    split at h
    · split at h
      · rename_i hd ht
        obtain rfl := Option.some.inj h
        obtain ⟨hframe, hoffset⟩ := frame_add_offset e v
        exact ⟨⟨hd, ht, hframe.symm⟩, hoffset.symm⟩
      · cases h
    · cases h
  · intro h
    obtain ⟨⟨hd, ht, hframe⟩, hoffset⟩ := h
    rw [if_pos hd, if_pos ht, hframe, hoffset, eq_frame_add_offset]

theorem pageWalk_virtAddress {vm : Vm} {i j : Nat} (hi : i < 1024) (hj : j < 1024) {p : Word}
    (h : Maps vm i j (entryFrame p)) :
    pageWalk vm (virtAddress i j (offsetOf p)) = some p := by
  have ho : (offsetOf p).toNat < 2 ^ 12 := by rw [offsetOf_toNat]; omega
  have hv := virtAddress_toNat hi hj ho
  have hpd : pdIndexOf (virtAddress i j (offsetOf p)) = i := by rw [pdIndexOf_eq, hv]; omega
  have hpt : ptIndexOf (virtAddress i j (offsetOf p)) = j := by rw [ptIndexOf_eq, hv]; omega
  refine pageWalk_iff.mpr ⟨by rw [hpd, hpt]; exact h, ?_⟩
  apply BitVec.eq_of_toNat_eq
  rw [offsetOf_toNat, hv]
  omega

/-- What the search of `phys_to_virt` finds at two indices. -/
def mappingAt (vm : Vm) (physAddr : Word) (pdIndex ptIndex : Nat) : Option Word :=
  if Maps vm pdIndex ptIndex (entryFrame physAddr) then
    some (virtAddress pdIndex ptIndex (offsetOf physAddr)) else none

theorem physToVirt_eq (vm : Vm) (p : Word) :
    physToVirt vm p = ((List.range 1024).findSome? fun i =>
      (List.range 1024).findSome? (mappingAt vm p i)).getD 0#32 := by
  refine congrArg (fun f => ((List.range 1024).findSome? f).getD 0#32) (funext fun i => ?_)
  by_cases hd : isPresent (vm.pageDirectory i) = true
  · rw [if_pos hd]
    refine congrArg (fun f => (List.range 1024).findSome? f) (funext fun j => ?_)
    simp only [mappingAt, Maps, hd, true_and]
    rfl
  · rw [if_neg hd, eq_comm, List.findSome?_eq_none_iff]
    intro j _
    exact if_neg fun h => hd h.1

/-- **What `phys_to_virt` returns**: the first mapping in the order of the indices, or NULL. -/
theorem physToVirt_cases (vm : Vm) (p : Word) :
    (∃ i j, i < 1024 ∧ j < 1024 ∧ Maps vm i j (entryFrame p) ∧
      physToVirt vm p = virtAddress i j (offsetOf p) ∧
      ∀ i' j', j' < 1024 → i' < i ∨ i' = i ∧ j' < j → ¬ Maps vm i' j' (entryFrame p)) ∨
    (physToVirt vm p = 0#32 ∧ ∀ i j, i < 1024 → j < 1024 → ¬ Maps vm i j (entryFrame p)) := by
  have hmaps : ∀ {i j : Nat}, mappingAt vm p i j = none → ¬ Maps vm i j (entryFrame p) := by
    intro i j h hm
    rw [mappingAt, if_pos hm] at h
    cases h
  rw [physToVirt_eq]
  cases hfind : (List.range 1024).findSome? fun i =>
      (List.range 1024).findSome? (mappingAt vm p i) with
  | some v =>
      obtain ⟨i, j, hi, hj, hfirst⟩ := findSome_grid.mp hfind
      have hhit := hfirst.hit
      unfold mappingAt at hhit
      split at hhit
      · rename_i hm
        exact Or.inl ⟨i, j, hi, hj, hm, (Option.some.inj hhit).symm,
          fun i' j' hj' hlt => hmaps (hfirst.before i' j' hj' hlt)⟩
      · cases hhit
  | none =>
      exact Or.inr ⟨rfl, fun i j hi hj => hmaps (findSome_grid_none.mp hfind i j hi hj)⟩

/-! ## 3. The law -/

/-- Some present directory and table entry maps the page of `physAddr`. -/
def PageMapped (vm : Vm) (physAddr : Word) : Prop :=
  ∃ i j, i < 1024 ∧ j < 1024 ∧ Maps vm i j (entryFrame physAddr)

/-- The virtual addresses with the offset of `physAddr` whose walk reaches its page. -/
def aliasesOf (vm : Vm) (physAddr : Word) : Set Word :=
  {v | offsetOf v = offsetOf physAddr ∧
    ∃ q, pageWalk vm v = some q ∧ entryFrame q = entryFrame physAddr}

theorem mem_aliasesOf {vm : Vm} {v p : Word} : v ∈ aliasesOf vm p ↔ pageWalk vm v = some p := by
  constructor
  · intro h
    obtain ⟨ho, q, hwalk, hframe⟩ := h
    obtain ⟨hmaps, -⟩ := pageWalk_iff.mp hwalk
    exact pageWalk_iff.mpr ⟨hframe ▸ hmaps, ho⟩
  · intro h
    exact ⟨(pageWalk_iff.mp h).2, p, h, rfl⟩

theorem pageMapped_of_walk {vm : Vm} {v p : Word} (h : pageWalk vm v = some p) :
    PageMapped vm p := by
  have hlt := v.isLt
  refine ⟨pdIndexOf v, ptIndexOf v, ?_, ?_, (pageWalk_iff.mp h).1⟩
  · rw [pdIndexOf_eq]; omega
  · rw [ptIndexOf_eq]; omega

/-- The indices compare as the addresses do. -/
theorem physToVirt_least {vm : Vm} {p : Word} (h : PageMapped vm p) :
    IsLeast (aliasesOf vm p) (physToVirt vm p) := by
  rcases physToVirt_cases vm p with ⟨i, j, hi, hj, hm, heq, hbefore⟩ | ⟨-, hnone⟩
  · rw [heq]
    refine ⟨mem_aliasesOf.mpr (pageWalk_virtAddress hi hj hm), fun v hv => ?_⟩
    obtain ⟨hmaps, ho⟩ := pageWalk_iff.mp (mem_aliasesOf.mp hv)
    have hlt := v.isLt
    have hoff : (offsetOf p).toNat < 2 ^ 12 := by rw [offsetOf_toNat]; omega
    have hv12 : v.toNat % 2 ^ 12 = (offsetOf p).toNat := by rw [← ho, offsetOf_toNat]
    have hpt : ptIndexOf v < 1024 := by rw [ptIndexOf_eq]; omega
    have hge : ¬ (pdIndexOf v < i ∨ pdIndexOf v = i ∧ ptIndexOf v < j) := fun hbad =>
      hbefore _ _ hpt hbad hmaps
    rw [pdIndexOf_eq, ptIndexOf_eq] at hge
    rw [BitVec.le_def, virtAddress_toNat hi hj hoff]
    omega
  · obtain ⟨i, j, hi, hj, hm⟩ := h
    exact absurd hm (hnone i j hi hj)

theorem virtToPhys_of_walk {vm : Vm} {v p : Word} (h : pageWalk vm v = some p) :
    virtToPhys vm v = p := by
  rw [virtToPhys, h, Option.getD_some]

theorem virtToPhys_physToVirt {vm : Vm} {p : Word} (h : PageMapped vm p) :
    virtToPhys vm (physToVirt vm p) = p :=
  virtToPhys_of_walk (mem_aliasesOf.mp (physToVirt_least h).1)

/-- The law of the two translations over the tables of `vm`. -/
structure TranslationLaw (vm : Vm) : Prop where
  /-- A mapped page is found at its least virtual address, and that address leads back; ... -/
  mapped : ∀ p, PageMapped vm p →
    IsLeast (aliasesOf vm p) (physToVirt vm p) ∧ virtToPhys vm (physToVirt vm p) = p
  /-- ... a page that is not mapped is answered with NULL; ... -/
  unmapped : ∀ p, ¬ PageMapped vm p → physToVirt vm p = 0#32
  /-- ... and from a mapped virtual address there and back leads no higher. -/
  back : ∀ v q, pageWalk vm v ≠ none → virtToPhys vm v = q →
    physToVirt vm q ≤ v ∧ virtToPhys vm (physToVirt vm q) = q

/-- **The two translations are consistent**, for every content of the directory and the tables. -/
theorem translation_law (vm : Vm) : TranslationLaw vm where
  mapped _ hp := ⟨physToVirt_least hp, virtToPhys_physToVirt hp⟩
  unmapped p hp := by
    rcases physToVirt_cases vm p with ⟨i, j, hi, hj, hm, -, -⟩ | ⟨hnull, -⟩
    · exact absurd ⟨i, j, hi, hj, hm⟩ hp
    · exact hnull
  back v q hv hq := by
    obtain ⟨p, hp⟩ := Option.ne_none_iff_exists'.mp hv
    have hpq : p = q := (virtToPhys_of_walk hp).symm.trans hq
    subst hpq
    have hmapped := pageMapped_of_walk hp
    exact ⟨(physToVirt_least hmapped).2 (mem_aliasesOf.mpr hp), virtToPhys_physToVirt hmapped⟩

end MapleKernel.Memory
