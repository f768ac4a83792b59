/-
  File:      Firmware/Multiboot.lean
  Subject:   THE MULTIBOOT2 BLOCK (`multiboot.cpp`, `multiboot.hpp`): a size and a list of padded
             tags that `find_module`, `find_rsdp` and `find_framebuffer` search.

  The three walkers go from tag to tag by the size that each states, rounded up to eight bytes,
  until they find what they look for, the end tag (type 0, size 8) or an address behind the block.
  Nothing makes them advance: a size of 0 rounds to 0, and so does a size of `2^32 - 7`.

  * `tagBody` -- one round of the loop that they share, and what each does with a tag
    (`findModuleVisit`, `findRsdpVisit`, `findFramebufferVisit`), from the source;
  * `WellFormedBlock` -- a block as the list of its tags before the end tag;
  * `findTags_correct` -- on such a block each walker answers for that list;
  * `tag_circle_iff` -- where no tag reaches around the end of the address space, a circle on the
    way through the tags is a tag of size 0;
  * `walkersTerminate_iff` -- on any bytes, these walkers and those of the MADT terminate exactly
    when their way runs in no circle.
-/
import MapleKernel.Lib.WordField
import MapleKernel.Firmware.Madt

namespace MapleKernel.Firmware

open Iteration

/-! ## 1. Tags -/

/-- `enum class tag_type`: the types that are looked for. -/
inductive TagType where
  | endTag | moduleTag | framebuffer | acpiOld | acpiNew
  deriving DecidableEq, Repr

def TagType.value : TagType → UInt32
  | .endTag => 0
  | .moduleTag => 3
  | .framebuffer => 8
  | .acpiOld => 14
  | .acpiNew => 15

section Layout

variable (mem : Memory) (mbi t : UInt32)

def tagType : UInt32 := mem.read32 t

def tagSize : UInt32 := mem.read32 (t + 4)

def tagNext : UInt32 := if t = 0 then 0 else t + ((tagSize mem t + 7) &&& ~~~7)

def tagFirst : UInt32 := if mbi = 0 then 0 else mbi + 4 + 4

def totalSize : UInt32 := mem.read32 mbi

/-- `end_addr`. -/
def endAddr : UInt32 := mbi + totalSize mem mbi

/-- The test for the end tag. -/
def IsEndTag : Prop := tagType mem t = TagType.endTag.value ∧ tagSize mem t = 8

instance : Decidable (IsEndTag mem t) := instDecidableAnd

end Layout

/-! ## 2. The walkers -/

/-- The loop of the three walkers. `visit` looks at a tag: it returns, or the loop goes on. -/
def tagBody {σ ρ : Type} (mem : Memory) (mbi : UInt32) (visit : UInt32 → σ → σ ⊕ ρ) (last : ρ)
    (s : UInt32 × σ) : (UInt32 × σ) ⊕ ρ :=
  if s.1 < endAddr mem mbi then
    if IsEndTag mem s.1 then .inr last
    else
      match visit s.1 s.2 with
      | .inr r => .inr r
      | .inl c => .inl (tagNext mem s.1, c)
  else .inr last

/-- The two checks before the loop; `.error` is an abort with its message. -/
def AfterChecks {ρ : Type} (mem : Memory) (mbi : UInt32) (small : String)
    (loop : Except String ρ → Prop) (r : Except String ρ) : Prop :=
  if mbi = 0 then r = .error "null mbi\n"
  else if totalSize mem mbi < 8 + 8 then r = .error small
  else loop r

structure Module where
  modStart : UInt32
  modEnd : UInt32
  deriving DecidableEq, Repr

/-- `module_and_len`; `cmd_len` and `mod` are not set when nothing was found. -/
structure ModuleAndLen where
  none : Bool
  cmdLen : Option UInt32
  mod : Option Module
  deriving DecidableEq, Repr

def noModule : ModuleAndLen := ⟨true, .none, .none⟩

/-- The local is `find_count`. -/
def findModuleVisit (mem : Memory) (moduleIndex : UInt8) (current : UInt32) (findCount : UInt8) :
    UInt8 ⊕ Except String ModuleAndLen :=
  if tagType mem current = TagType.moduleTag.value then
    let mod : Module := ⟨mem.read32 (current + 8), mem.read32 (current + 8 + 4)⟩
    let cmdlineLen := tagSize mem current - 8 - 4 - 4
    if findCount = moduleIndex then .inr (.ok ⟨false, some cmdlineLen, some mod⟩)
    else .inl (findCount + 1)
  else .inl findCount

/-- `find_module` returns `r`. -/
def FindModule (mem : Memory) (mbi : UInt32) (moduleIndex : UInt8)
    (r : Except String ModuleAndLen) : Prop :=
  AfterChecks mem mbi "too small mbi\n"
    (Returns (tagBody mem mbi (findModuleVisit mem moduleIndex) (.ok noModule))
      (tagFirst mbi, 0)) r

def checkRsdpSignature (mem : Memory) (rsdp : UInt32) : Bool :=
  mem rsdp = 0x52 && mem (rsdp + 1) = 0x53 && mem (rsdp + 2) = 0x44 && mem (rsdp + 3) = 0x20 &&
    mem (rsdp + 4) = 0x50 && mem (rsdp + 5) = 0x54 && mem (rsdp + 6) = 0x52 &&
    mem (rsdp + 7) = 0x20

/-- `length`: by the revision. -/
def rsdpLength (mem : Memory) (rsdp : UInt32) : Nat := if mem (rsdp + 15) = 0 then 20 else 36

def checkRsdpChecksum (mem : Memory) (rsdp : UInt32) : Bool :=
  let sum := (List.range (rsdpLength mem rsdp)).foldl
    (fun sum i => sum + mem (rsdp + .ofNat i)) (0 : UInt8)
  sum &&& 0xFF = 0

inductive RsdpType where
  | nullV0 | oldV1 | newV2
  deriving DecidableEq, Repr

/-- `rsdp_tagged_t`. -/
structure RsdpTagged where
  newOrOld : RsdpType
  rsdp : UInt32
  deriving DecidableEq, Repr

def findRsdpVisit (mem : Memory) (current : UInt32) (_ : Unit) : Unit ⊕ Except String RsdpTagged :=
  if tagType mem current = TagType.acpiNew.value then
    let rsdp := current + 8
    if checkRsdpSignature mem rsdp && checkRsdpChecksum mem rsdp then .inr (.ok ⟨.newV2, rsdp⟩)
    else .inl ()
  else if tagType mem current = TagType.acpiOld.value then
    let rsdp := current + 8
    if checkRsdpSignature mem rsdp && checkRsdpChecksum mem rsdp then .inr (.ok ⟨.oldV1, rsdp⟩)
    else .inl ()
  else .inl ()

/-- `find_rsdp` returns `r`, or aborts. -/
def FindRsdp (mem : Memory) (mbi : UInt32) (r : Except String RsdpTagged) : Prop :=
  AfterChecks mem mbi "too small\n"
    (Returns (tagBody mem mbi (findRsdpVisit mem) (.error "Nothing found!\n")) (tagFirst mbi, ())) r

/-- `framebuffer_info_t`. -/
structure FramebufferInfo where
  tagType : UInt32
  size : UInt32
  baseAddrLow : UInt32
  baseAddrHigh : UInt32
  pitch : UInt32
  width : UInt32
  height : UInt32
  bitPerPixel : UInt8
  type : UInt8
  reserved : UInt8
  deriving DecidableEq, Repr

/-- `*ret_ptr`. -/
def framebufferAt (mem : Memory) (t : UInt32) : FramebufferInfo :=
  ⟨mem.read32 t, mem.read32 (t + 4), mem.read32 (t + 8), mem.read32 (t + 12), mem.read32 (t + 16),
    mem.read32 (t + 20), mem.read32 (t + 24), mem (t + 28), mem (t + 29), mem (t + 30)⟩

def findFramebufferVisit (mem : Memory) (current : UInt32) (_ : Unit) :
    Unit ⊕ Except String FramebufferInfo :=
  if tagType mem current = TagType.framebuffer.value then .inr (.ok (framebufferAt mem current))
  else .inl ()

/-- `find_framebuffer` returns `r`, or aborts. -/
def FindFramebuffer (mem : Memory) (mbi : UInt32) (r : Except String FramebufferInfo) : Prop :=
  AfterChecks mem mbi "too small\n"
    (Returns (tagBody mem mbi (findFramebufferVisit mem) (.error "Nothing found!\n"))
      (tagFirst mbi, ())) r

/-! ## 3. Blocks as lists of tags -/

/-- The bytes of a tag, with its padding. -/
def paddedSize (mem : Memory) (t : UInt32) : Nat := ((tagSize mem t).toNat + 7) / 8 * 8

/-- The tags stand one behind the other from address `a` on, then the end tag, before `fin`. -/
def TagsAt (mem : Memory) (fin : Nat) : Nat → List UInt32 → Prop
  | a, [] => IsEndTag mem (.ofNat a) ∧ a + 8 ≤ fin
  | a, t :: ts =>
      t = .ofNat a ∧ ¬ IsEndTag mem t ∧ 8 ≤ (tagSize mem t).toNat ∧
        TagsAt mem fin (a + paddedSize mem t) ts

/-- **A well-formed block**, with the tags before its end tag. -/
structure WellFormedBlock (mem : Memory) (mbi : UInt32) (tags : List UInt32) : Prop where
  notNull : mbi ≠ 0
  size : 16 ≤ (totalSize mem mbi).toNat
  noWrap : mbi.toNat + (totalSize mem mbi).toNat < 2 ^ 32
  tags : TagsAt mem (mbi.toNat + (totalSize mem mbi).toNat) (mbi.toNat + 8) tags

/-- What a walker returns that visits these tags. -/
def search {σ ρ : Type} (visit : UInt32 → σ → σ ⊕ ρ) (last : ρ) : List UInt32 → σ → ρ
  | [], _ => last
  | t :: ts, c =>
      match visit t c with
      | .inr r => r
      | .inl c' => search visit last ts c'

section Blocks

variable {mem : Memory} {mbi : UInt32} {fin a : Nat} {t : UInt32} {ts : List UInt32}

theorem TagsAt.le (h : TagsAt mem fin a ts) : a + 8 ≤ fin := by
  induction ts generalizing a with
  | nil => exact h.2
  | cons t ts ih =>
      have hle := ih h.2.2.2
      omega

/-- The mask of `tag_next` rounds up. -/
theorem toNat_padding (h : (tagSize mem t).toNat + 7 < 2 ^ 32) :
    ((tagSize mem t + 7) &&& ~~~7).toNat = paddedSize mem t := by
  have hsum : (tagSize mem t + 7).toBitVec.toNat = (tagSize mem t).toNat + 7 := by
    rw [UInt32.toNat_toBitVec, UInt32.toNat_add]
    exact Nat.mod_eq_of_lt h
  have hhigh := WordField.toNat_and_high (tagSize mem t + 7).toBitVec 3
  rw [hsum] at hhigh
  exact hhigh

/-- The tag behind a tag of the list. -/
theorem TagsAt.next (h : TagsAt mem fin a (t :: ts)) (ha : 0 < a) (hfin : fin < 2 ^ 32) :
    tagNext mem t = .ofNat (a + paddedSize mem t) := by
  obtain ⟨rfl, -, -, hrest⟩ := h
  have hle := hrest.le
  have hsize : (tagSize mem (.ofNat a)).toNat + 7 < 2 ^ 32 := by
    rw [paddedSize] at hle
    omega
  have hne : UInt32.ofNat a ≠ 0 := by
    intro h0
    have hval := congrArg UInt32.toNat h0
    rw [toNat_ofNat_of_lt (by omega), UInt32.toNat_zero] at hval
    omega
  rw [tagNext, if_neg hne, UInt32.ofNat_add, ← toNat_padding hsize, UInt32.ofNat_toNat]

theorem TagsAt.lt_end (h : TagsAt mem fin a ts) (hfin : fin < 2 ^ 32)
    (hend : (endAddr mem mbi).toNat = fin) : UInt32.ofNat a < endAddr mem mbi := by
  have hle := h.le
  rw [UInt32.lt_iff_toNat_lt, toNat_ofNat_of_lt (by omega), hend]
  omega

/-- **The loop visits the tags of the list, in order, and no others.** -/
theorem tagBody_returns {σ ρ : Type} {visit : UInt32 → σ → σ ⊕ ρ} {last : ρ}
    (h : TagsAt mem fin a ts) (ha : 0 < a) (hfin : fin < 2 ^ 32)
    (hend : (endAddr mem mbi).toNat = fin) (c : σ) :
    Returns (tagBody mem mbi visit last) (.ofNat a, c) (search visit last ts c) := by
  induction ts generalizing a c with
  | nil =>
      refine returns_of_inr ?_
      rw [tagBody, if_pos (h.lt_end hfin hend), if_pos h.1]
      rfl
  | cons t ts ih =>
      have hlt := h.lt_end hfin hend
      have hnext := h.next ha hfin
      obtain ⟨rfl, hnot, -, hrest⟩ := h
      rw [search]
      cases hv : visit (.ofNat a) c with
      | inr r =>
          refine returns_of_inr ?_
          rw [tagBody, if_pos hlt, if_neg hnot, hv]
      | inl c' =>
          have hbody : tagBody mem mbi visit last (.ofNat a, c) =
              .inl (.ofNat (a + paddedSize mem (.ofNat a)), c') := by
            rw [tagBody, if_pos hlt, if_neg hnot, hv, ← hnext]
          rw [returns_of_inl hbody]
          exact ih hrest (Nat.add_pos_left ha _) c'

theorem WellFormedBlock.returns {tags : List UInt32} (h : WellFormedBlock mem mbi tags)
    {σ ρ : Type} {visit : UInt32 → σ → σ ⊕ ρ} {last : ρ} (c : σ) :
    Returns (tagBody mem mbi visit last) (tagFirst mbi, c) (search visit last tags c) := by
  have hend : (endAddr mem mbi).toNat = mbi.toNat + (totalSize mem mbi).toNat := by
    rw [endAddr, UInt32.toNat_add, Nat.mod_eq_of_lt h.noWrap]
  have hfirst : tagFirst mbi = .ofNat (mbi.toNat + 8) := by
    rw [tagFirst, if_neg h.notNull, UInt32.ofNat_add, UInt32.ofNat_toNat, UInt32.add_assoc]
    rfl
  rw [hfirst]
  exact tagBody_returns h.tags (by omega) h.noWrap hend c

/-- On a well-formed block both checks pass, and the loop's answer is the only one. -/
theorem WellFormedBlock.afterChecks_iff {tags : List UInt32} (h : WellFormedBlock mem mbi tags)
    {σ ρ : Type} {visit : UInt32 → σ → σ ⊕ Except String ρ} {last : Except String ρ} {c : σ}
    {small : String} (r : Except String ρ) :
    AfterChecks mem mbi small (Returns (tagBody mem mbi visit last) (tagFirst mbi, c)) r ↔
      r = search visit last tags c := by
  have hsize : ¬ totalSize mem mbi < 8 + 8 := by
    have hle := h.size
    rw [UInt32.lt_iff_toNat_lt, not_lt]
    exact hle
  rw [AfterChecks, if_neg h.notNull, if_neg hsize]
  constructor
  · exact fun hr => hr.unique (h.returns c)
  · intro hr
    rw [hr]
    exact h.returns c

end Blocks

/-! ## 4. What the walkers look for -/

section Answers

variable (mem : Memory) (tags : List UInt32)

def isModule (t : UInt32) : Bool := tagType mem t = TagType.moduleTag.value

/-- The answer for a module tag. -/
def moduleAt (t : UInt32) : ModuleAndLen :=
  ⟨false, some (tagSize mem t - 16), some ⟨mem.read32 (t + 8), mem.read32 (t + 12)⟩⟩

/-- The module tag with index `k` among the module tags. -/
def moduleAnswer (k : UInt8) : ModuleAndLen :=
  match (tags.filter (isModule mem))[k.toNat]? with
  | some t => moduleAt mem t
  | none => noModule

/-- **A valid root pointer**: `"RSD PTR "`, and its bytes add up to zero. -/
def ValidRsdp (rsdp : UInt32) : Prop :=
  ((List.range 8).map fun i => mem (rsdp + .ofNat i)) =
      [0x52, 0x53, 0x44, 0x20, 0x50, 0x54, 0x52, 0x20] ∧
    (∑ i ∈ Finset.range (rsdpLength mem rsdp), (mem (rsdp + .ofNat i)).toNat) % 256 = 0

instance (rsdp : UInt32) : Decidable (ValidRsdp mem rsdp) := instDecidableAnd

def isRsdp (t : UInt32) : Bool :=
  (tagType mem t = TagType.acpiOld.value ∨ tagType mem t = TagType.acpiNew.value) ∧
    ValidRsdp mem (t + 8)

/-- The answer for an ACPI tag, labelled by its type. -/
def rsdpAt (t : UInt32) : RsdpTagged :=
  ⟨if tagType mem t = TagType.acpiNew.value then .newV2 else .oldV1, t + 8⟩

def isFramebuffer (t : UInt32) : Bool := tagType mem t = TagType.framebuffer.value

/-- The first of the tags that `p` accepts, or the abort after the loop. -/
def firstTag {ρ : Type} (p : UInt32 → Bool) (f : UInt32 → ρ) : Except String ρ :=
  match tags.find? p with
  | some t => .ok (f t)
  | none => .error "Nothing found!\n"

end Answers

section Answers

variable {mem : Memory}

/-- The byte sum of `check_rsdp_checksum`. -/
theorem toNat_foldl_sum (f : Nat → UInt8) (n : Nat) :
    ((List.range n).foldl (fun sum i => sum + f i) (0 : UInt8)).toNat =
      (∑ i ∈ Finset.range n, (f i).toNat) % 256 := by
  induction n with
  | zero => rfl
  | succ n ih =>
      rw [List.range_succ, List.foldl_append, Finset.sum_range_succ, Nat.add_mod, ← ih,
        List.foldl_cons, List.foldl_nil, UInt8.toNat_add, Nat.add_mod_mod]

theorem checkRsdp_iff (rsdp : UInt32) :
    (checkRsdpSignature mem rsdp && checkRsdpChecksum mem rsdp) = true ↔ ValidRsdp mem rsdp := by
  have hsum : checkRsdpChecksum mem rsdp = true ↔
      (∑ i ∈ Finset.range (rsdpLength mem rsdp), (mem (rsdp + .ofNat i)).toNat) % 256 = 0 := by
    rw [checkRsdpChecksum, decide_eq_true_iff, ← toNat_foldl_sum, ← UInt8.toNat_inj]
    have hmask : ∀ x : UInt8, x &&& 0xFF = x := by decide +kernel
    rw [hmask]
    rfl
  rw [Bool.and_eq_true, hsum, ValidRsdp]
  refine and_congr_left fun _ => ?_
  simp [checkRsdpSignature, List.range_succ, and_assoc]

/-- `find_count` never passes the index, and so never wraps. -/
theorem search_findModule (tags : List UInt32) {k c : UInt8} (hc : c.toNat ≤ k.toNat) :
    search (findModuleVisit mem k) (.ok noModule) tags c =
      .ok (match (tags.filter (isModule mem))[k.toNat - c.toNat]? with
        | some t => moduleAt mem t
        | none => noModule) := by
  induction tags generalizing c with
  | nil => rfl
  | cons t ts ih =>
      rw [search, findModuleVisit]
      by_cases ht : tagType mem t = TagType.moduleTag.value
      · have hyes : isModule mem t = true := decide_eq_true ht
        rw [if_pos ht, List.filter_cons_of_pos hyes]
        by_cases hck : c = k
        · have hlen : tagSize mem t - 8 - 4 - 4 = tagSize mem t - 16 := by
            grind
          have hmod : t + 8 + 4 = t + 12 := by
            rw [UInt32.add_assoc]
            rfl
          rw [if_pos hck, hck, Nat.sub_self, List.getElem?_cons_zero]
          simp only [moduleAt, hlen, hmod]
        · have hlt : c.toNat < k.toNat := Nat.lt_of_le_of_ne hc fun h => hck (UInt8.toNat.inj h)
          have hsucc : (c + 1).toNat = c.toNat + 1 := by
            have hk := k.toNat_lt
            rw [UInt8.toNat_add, UInt8.toNat_one]
            omega
          have hidx : k.toNat - c.toNat = k.toNat - (c + 1).toNat + 1 := by omega
          rw [if_neg hck, hidx, List.getElem?_cons_succ]
          exact ih (by omega)
      · rw [if_neg ht, List.filter_cons_of_neg (by simpa [isModule] using ht)]
        exact ih hc

/-- `find_module` on a well-formed block. -/
theorem WellFormedBlock.findModule_iff {mbi : UInt32} {tags : List UInt32}
    (h : WellFormedBlock mem mbi tags) (k : UInt8) (r : Except String ModuleAndLen) :
    FindModule mem mbi k r ↔ r = .ok (moduleAnswer mem tags k) := by
  rw [FindModule, h.afterChecks_iff, search_findModule tags (Nat.zero_le _), moduleAnswer,
    UInt8.toNat_zero, Nat.sub_zero]

theorem moduleAnswer_none_iff (tags : List UInt32) (k : UInt8) :
    (moduleAnswer mem tags k).none = true ↔ (tags.filter (isModule mem)).length ≤ k.toNat := by
  rw [moduleAnswer, ← List.getElem?_eq_none_iff]
  cases (tags.filter (isModule mem))[k.toNat]? with
  | none => simp [noModule]
  | some t => simp [moduleAt]

/-- A walker without locals returns for the first tag that it accepts. -/
theorem search_firstTag {ρ : Type} {visit : UInt32 → Unit → Unit ⊕ Except String ρ}
    {p : UInt32 → Bool} {f : UInt32 → ρ}
    (hvisit : ∀ t, visit t () = if p t then .inr (.ok (f t)) else .inl ()) (tags : List UInt32) :
    search visit (.error "Nothing found!\n") tags () = firstTag tags p f := by
  induction tags with
  | nil => rfl
  | cons t ts ih =>
      rw [search, hvisit, firstTag]
      cases hp : p t with
      | true => rw [List.find?_cons_of_pos hp, if_pos rfl]
      | false =>
          rw [List.find?_cons_of_neg (by rw [hp]; exact Bool.false_ne_true),
            if_neg Bool.false_ne_true]
          exact ih

theorem firstTag_error_iff {ρ : Type} (tags : List UInt32) (p : UInt32 → Bool) (f : UInt32 → ρ) :
    (∃ e, firstTag tags p f = .error e) ↔ ∀ t ∈ tags, p t = false := by
  have hnone : (∀ t ∈ tags, p t = false) ↔ tags.find? p = none := by
    simp only [List.find?_eq_none, Bool.not_eq_true]
  rw [hnone, firstTag]
  cases tags.find? p with
  | none => simp
  | some t => simp

theorem findRsdpVisit_eq (t : UInt32) :
    findRsdpVisit mem t () = if isRsdp mem t then .inr (.ok (rsdpAt mem t)) else .inl () := by
  have hcheck : (checkRsdpSignature mem (t + 8) && checkRsdpChecksum mem (t + 8)) =
      decide (ValidRsdp mem (t + 8)) := by
    rw [Bool.eq_iff_iff, checkRsdp_iff, decide_eq_true_iff]
  by_cases hnew : tagType mem t = TagType.acpiNew.value
  · simp [findRsdpVisit, isRsdp, rsdpAt, hcheck, hnew]
  · by_cases hold : tagType mem t = TagType.acpiOld.value
    · have hne : TagType.acpiOld.value ≠ TagType.acpiNew.value := by decide
      simp [findRsdpVisit, isRsdp, rsdpAt, hcheck, hold, hne]
    · simp [findRsdpVisit, isRsdp, hnew, hold]

theorem findFramebufferVisit_eq (t : UInt32) :
    findFramebufferVisit mem t () =
      if isFramebuffer mem t then .inr (.ok (framebufferAt mem t)) else .inl () := by
  simp [findFramebufferVisit, isFramebuffer]

end Answers

/-- **On a well-formed block each walker answers for the tags before the end tag.** -/
theorem findTags_correct {mem : Memory} {mbi : UInt32} {tags : List UInt32}
    (h : WellFormedBlock mem mbi tags) :
    (∀ k r, FindModule mem mbi k r ↔ r = .ok (moduleAnswer mem tags k)) ∧
      (∀ k, (moduleAnswer mem tags k).none = true ↔
        (tags.filter (isModule mem)).length ≤ k.toNat) ∧
      (∀ r, FindRsdp mem mbi r ↔ r = firstTag tags (isRsdp mem) (rsdpAt mem)) ∧
      ((∃ e, FindRsdp mem mbi (.error e)) ↔ ∀ t ∈ tags, isRsdp mem t = false) ∧
      (∀ r, FindFramebuffer mem mbi r ↔
        r = firstTag tags (isFramebuffer mem) (framebufferAt mem)) ∧
      ((∃ e, FindFramebuffer mem mbi (.error e)) ↔ ∀ t ∈ tags, isFramebuffer mem t = false) := by
  have hrsdp : ∀ r, FindRsdp mem mbi r ↔ r = firstTag tags (isRsdp mem) (rsdpAt mem) := by
    intro r
    rw [FindRsdp, h.afterChecks_iff, search_firstTag findRsdpVisit_eq]
  have hframebuffer : ∀ r, FindFramebuffer mem mbi r ↔
      r = firstTag tags (isFramebuffer mem) (framebufferAt mem) := by
    intro r
    rw [FindFramebuffer, h.afterChecks_iff, search_firstTag findFramebufferVisit_eq]
  refine ⟨h.findModule_iff, moduleAnswer_none_iff tags, hrsdp, ?_, hframebuffer, ?_⟩
  · rw [← firstTag_error_iff tags (isRsdp mem) (rsdpAt mem)]
    exact exists_congr fun e => (hrsdp _).trans eq_comm
  · rw [← firstTag_error_iff tags (isFramebuffer mem) (framebufferAt mem)]
    exact exists_congr fun e => (hframebuffer _).trans eq_comm

/-- A block at `0x1000`: a module, a root pointer with revision 2, a framebuffer, the end tag. -/
def smallBlock : Memory :=
  bytesAt 0x1000 ([112, 0, 0, 0, 0, 0, 0, 0] ++
    [3, 0, 0, 0, 16, 0, 0, 0, 0, 0, 32, 0, 0, 0, 48, 0] ++
    [15, 0, 0, 0, 44, 0, 0, 0] ++ [0x52, 0x53, 0x44, 0x20, 0x50, 0x54, 0x52, 0x20, 223] ++
    [0, 0, 0, 0, 0, 0, 2] ++ List.replicate 24 0 ++
    [8, 0, 0, 0, 31, 0, 0, 0] ++ List.replicate 24 0 ++
    [0, 0, 0, 0, 8, 0, 0, 0])

theorem smallBlock_wellFormed : WellFormedBlock smallBlock 0x1000 [0x1008, 0x1018, 0x1048] where
  notNull := by decide
  size := by decide +kernel
  noWrap := by decide +kernel
  tags := ⟨by decide +kernel, by decide +kernel, by decide +kernel,
    by decide +kernel, by decide +kernel, by decide +kernel,
    by decide +kernel, by decide +kernel, by decide +kernel,
    by decide +kernel, by decide +kernel⟩

theorem findTags_correct_smallBlock :
    (∀ k r, FindModule smallBlock 0x1000 k r ↔
        r = .ok (moduleAnswer smallBlock [0x1008, 0x1018, 0x1048] k)) ∧
      (∀ k, (moduleAnswer smallBlock [0x1008, 0x1018, 0x1048] k).none = true ↔
        (List.filter (isModule smallBlock) [0x1008, 0x1018, 0x1048]).length ≤ k.toNat) ∧
      (∀ r, FindRsdp smallBlock 0x1000 r ↔
        r = firstTag [0x1008, 0x1018, 0x1048] (isRsdp smallBlock) (rsdpAt smallBlock)) ∧
      ((∃ e, FindRsdp smallBlock 0x1000 (.error e)) ↔
        ∀ t ∈ [0x1008, 0x1018, 0x1048], isRsdp smallBlock t = false) ∧
      (∀ r, FindFramebuffer smallBlock 0x1000 r ↔
        r = firstTag [0x1008, 0x1018, 0x1048] (isFramebuffer smallBlock)
          (framebufferAt smallBlock)) ∧
      ((∃ e, FindFramebuffer smallBlock 0x1000 (.error e)) ↔
        ∀ t ∈ [0x1008, 0x1018, 0x1048], isFramebuffer smallBlock t = false) :=
  findTags_correct smallBlock_wellFormed

/-! ## 5. Any bytes -/

/-- The way of a walker through the tags: it returns at the wanted tag with index `limit`. -/
def tagWalk (mem : Memory) (mbi : UInt32) (wanted : UInt32 → Bool) (limit : Nat) : Walk UInt32 where
  advance := tagNext mem
  stop t := ¬ t < endAddr mem mbi ∨ IsEndTag mem t
  wanted := wanted
  limit := limit

/-- The block passes the two checks before the loop. -/
structure PassesChecks (mem : Memory) (mbi : UInt32) : Prop where
  notNull : mbi ≠ 0
  size : ¬ totalSize mem mbi < 8 + 8

section AnyBytes

variable {mem : Memory} {mbi : UInt32}

/-- The `n`-th tag, whatever is looked for. -/
def tagAt (mem : Memory) (mbi : UInt32) (n : Nat) : UInt32 := (tagNext mem)^[n] (tagFirst mbi)

/-- No tag up to the `n`-th ends the walk. -/
def TagReached (mem : Memory) (mbi : UInt32) (n : Nat) : Prop :=
  ∀ m ≤ n, tagAt mem mbi m < endAddr mem mbi ∧ ¬ IsEndTag mem (tagAt mem mbi m)

/-- No tag met reaches around the end of the address space. -/
structure BelowTop (mem : Memory) (mbi : UInt32) : Prop where
  first : tagFirst mbi ≠ 0
  tags : ∀ n, TagReached mem mbi n →
    (tagAt mem mbi n).toNat + (tagSize mem (tagAt mem mbi n)).toNat + 7 < 2 ^ 32

section Wrap

variable (htop : BelowTop mem mbi)

include htop

theorem toNat_tagAt_succ {n : Nat} (hr : TagReached mem mbi n) (hne : tagAt mem mbi n ≠ 0) :
    (tagAt mem mbi (n + 1)).toNat =
      (tagAt mem mbi n).toNat + paddedSize mem (tagAt mem mbi n) := by
  have hlt := htop.tags n hr
  rw [tagAt, Function.iterate_succ_apply', ← tagAt, tagNext, if_neg hne, UInt32.toNat_add,
    toNat_padding (by omega), paddedSize]
  omega

theorem tagAt_ne_zero {n : Nat} (hr : TagReached mem mbi n) : tagAt mem mbi n ≠ 0 := by
  induction n with
  | zero => exact htop.first
  | succ n ih =>
      have hr' : TagReached mem mbi n := fun m hm => hr m (Nat.le_succ_of_le hm)
      have hne := ih hr'
      intro h0
      have hnext := toNat_tagAt_succ htop hr' hne
      rw [h0, UInt32.toNat_zero] at hnext
      exact hne (UInt32.toNat.inj (by rw [UInt32.toNat_zero]; omega))

/-- **Where no tag met reaches around the end of the address space, a walker goes round only at a
tag of size 0**, which is not the one that it returns. -/
theorem tag_circle_iff (wanted : UInt32 → Bool) (limit : Nat) :
    (tagWalk mem mbi wanted limit).Circle (tagFirst mbi) ↔
      ∃ n, TagReached mem mbi n ∧ ¬ wanted (tagAt mem mbi n) ∧
        (tagWalk mem mbi wanted limit).hits (tagFirst mbi) n ≤ limit ∧
        tagSize mem (tagAt mem mbi n) = 0 := by
  have hreached : ∀ n, (∀ m ≤ n, ¬ (tagWalk mem mbi wanted limit).stop
      ((tagWalk mem mbi wanted limit).place (tagFirst mbi) m)) ↔ TagReached mem mbi n := by
    intro n
    refine forall₂_congr fun m _ => ?_
    exact not_or.trans (and_congr_left fun _ => not_not)
  have hgrows := fun n (hr : TagReached mem mbi n) =>
    toNat_tagAt_succ htop hr (tagAt_ne_zero htop hr)
  rw [Walk.circle_iff_of_rank UInt32.toNat]
  · refine exists_congr fun n => ⟨fun hc => ?_, fun h => ?_⟩
    · have hr := (hreached n).mp fun m hm => hc.noStop m (Nat.lt_succ_of_le hm)
      have hback : (tagAt mem mbi n).toNat = (tagAt mem mbi (n + 1)).toNat :=
        congrArg UInt32.toNat hc.back
      rw [hgrows n hr, paddedSize] at hback
      exact ⟨hr, hc.noneWanted n le_rfl n.lt_succ_self, hc.hits_le,
        UInt32.toNat.inj (by rw [UInt32.toNat_zero]; omega)⟩
    · obtain ⟨hr, hwanted, hhits, hzero⟩ := h
      have hback : tagAt mem mbi n = tagAt mem mbi (n + 1) := by
        refine UInt32.toNat.inj ?_
        rw [hgrows n hr, paddedSize, hzero]
        rfl
      refine ⟨n.lt_succ_self, hback, fun m hm => ?_, fun m hm hm' => ?_, hhits⟩
      · exact (hreached n).mpr hr m (Nat.le_of_lt_succ hm)
      · rw [Nat.le_antisymm (Nat.le_of_lt_succ hm') hm]
        exact hwanted
  · intro n hstop
    have hnext := hgrows n ((hreached n).mp hstop)
    by_cases hzero : paddedSize mem (tagAt mem mbi n) = 0
    · exact .inl (UInt32.toNat.inj (by rw [hzero] at hnext; exact hnext))
    · exact .inr (hnext ▸ Nat.lt_add_of_pos_right (Nat.pos_of_ne_zero hzero))

end Wrap

/-- A walker follows its walk, if `visit` does what the walk says with a tag. -/
theorem tagBody_follows {σ ρ : Type} {visit : UInt32 → σ → σ ⊕ ρ} {last : ρ}
    {wanted : UInt32 → Bool} {limit : Nat} (count : σ → Nat)
    (hinl : ∀ t c c', count c ≤ limit → visit t c = .inl c' → ¬ (wanted t ∧ count c = limit) ∧
      (wanted t → count c' = count c + 1) ∧ (¬ wanted t → count c' = count c))
    (hinr : ∀ t c r, count c ≤ limit → visit t c = .inr r → wanted t ∧ count c = limit) :
    Follows (tagBody mem mbi visit last) (tagWalk mem mbi wanted limit) Prod.fst
      fun s => count s.2 where
  inl s s' hle hbody := by
    rw [tagBody] at hbody
    split at hbody
    · next hlt =>
        split at hbody
        · cases hbody
        · next hnot =>
            split at hbody
            · cases hbody
            · next c' hv =>
                cases hbody
                obtain ⟨hfound, hyes, hno⟩ := hinl s.1 s.2 c' hle hv
                exact ⟨not_or.mpr ⟨not_not.mpr hlt, hnot⟩, hfound, rfl, hyes, hno⟩
    · cases hbody
  inr s r hle hbody := by
    rw [tagBody] at hbody
    split at hbody
    · split at hbody
      · next hend => exact .inl (.inr hend)
      · split at hbody
        · next r' hv => exact .inr (hinr s.1 s.2 r' hle hv)
        · cases hbody
    · next hge => exact .inl (.inl hge)

theorem findModule_follows (k : UInt8) :
    Follows (tagBody mem mbi (findModuleVisit mem k) (.ok noModule))
      (tagWalk mem mbi (isModule mem) k.toNat) Prod.fst fun s => s.2.toNat := by
  refine tagBody_follows UInt8.toNat (fun t c c' hle hv => ?_) fun t c r hle hv => ?_
  · rw [findModuleVisit] at hv
    split at hv
    · next ht =>
        have hyes : isModule mem t = true := decide_eq_true ht
        dsimp only at hv
        split at hv
        · cases hv
        · next hck =>
            have hne : c.toNat ≠ k.toNat := fun h => hck (UInt8.toNat.inj h)
            have hk := k.toNat_lt
            cases hv
            refine ⟨fun h => hne h.2, fun _ => ?_, fun h => absurd hyes h⟩
            rw [UInt8.toNat_add, UInt8.toNat_one]
            omega
    · next ht =>
        have hno : ¬ isModule mem t = true := fun h => ht (of_decide_eq_true h)
        cases hv
        exact ⟨fun h => hno h.1, fun h => absurd h hno, fun _ => rfl⟩
  · rw [findModuleVisit] at hv
    split at hv
    · next ht =>
        dsimp only at hv
        split at hv
        · next hck => exact ⟨decide_eq_true ht, congrArg UInt8.toNat hck⟩
        · cases hv
    · cases hv

/-- A walker without locals follows the walk to the first tag that it accepts. -/
theorem firstTag_follows {ρ : Type} {visit : UInt32 → Unit → Unit ⊕ ρ} {last : ρ}
    {p : UInt32 → Bool} {f : UInt32 → ρ}
    (hvisit : ∀ t, visit t () = if p t then .inr (f t) else .inl ()) :
    Follows (tagBody mem mbi visit last) (tagWalk mem mbi p 0) Prod.fst fun _ => 0 := by
  refine tagBody_follows (fun _ => 0) (fun t c c' _ hv => ?_) fun t c r _ hv => ?_
  · rw [hvisit] at hv
    split at hv
    · cases hv
    · next hp => exact ⟨fun h => hp h.1, fun h => absurd h hp, fun _ => rfl⟩
  · rw [hvisit] at hv
    split at hv
    · next hp => exact ⟨hp, rfl⟩
    · cases hv

/-- A walker that fails a check aborts at once. -/
theorem afterChecks_terminates_iff {σ ρ : Type} {body : σ → σ ⊕ Except String ρ} {s : σ}
    {small : String} :
    (∃ r, AfterChecks mem mbi small (Returns body s) r) ↔
      (PassesChecks mem mbi → Terminates body s) := by
  by_cases hpass : PassesChecks mem mbi
  · have hloop : ∀ r, AfterChecks mem mbi small (Returns body s) r ↔ Returns body s r := by
      intro r
      rw [AfterChecks, if_neg hpass.notNull, if_neg hpass.size]
    simp only [hloop]
    exact ⟨fun h _ => h, fun h => h hpass⟩
  · refine iff_of_true ?_ fun h => absurd h hpass
    by_cases hnull : mbi = 0
    · exact ⟨_, by rw [AfterChecks, if_pos hnull]⟩
    · have hsmall : totalSize mem mbi < 8 + 8 := not_not.mp fun h => hpass ⟨hnull, h⟩
      exact ⟨_, by rw [AfterChecks, if_neg hnull, if_pos hsmall]⟩

end AnyBytes

/-- **The walkers terminate exactly when their way through the bytes runs in no circle.** Away from
the end of the address space, that is a record of length 0 or a tag of size 0. -/
theorem walkersTerminate_iff (mem : Memory) (madt mbi : UInt32) :
    ((∃ r, ParseMadt mem madt r) ↔ ¬ (madtWalk mem madt).Circle (madtEntries madt)) ∧
      ((∃ r, GetCount mem madt r) ↔ ¬ (madtWalk mem madt).Circle (madtEntries madt)) ∧
      (∀ k, (∃ r, FindModule mem mbi k r) ↔
        (PassesChecks mem mbi →
          ¬ (tagWalk mem mbi (isModule mem) k.toNat).Circle (tagFirst mbi))) ∧
      ((∃ r, FindRsdp mem mbi r) ↔
        (PassesChecks mem mbi → ¬ (tagWalk mem mbi (isRsdp mem) 0).Circle (tagFirst mbi))) ∧
      ((∃ r, FindFramebuffer mem mbi r) ↔
        (PassesChecks mem mbi →
          ¬ (tagWalk mem mbi (isFramebuffer mem) 0).Circle (tagFirst mbi))) ∧
      ((madtEnd mem madt).toNat + 255 ≤ 2 ^ 32 →
        ((madtWalk mem madt).Circle (madtEntries madt) ↔
          ∃ n, Reached mem madt (n + 1) ∧ mem (madtRecord mem madt n + 1) = 0)) ∧
      (BelowTop mem mbi → ∀ wanted limit,
        ((tagWalk mem mbi wanted limit).Circle (tagFirst mbi) ↔
          ∃ n, TagReached mem mbi n ∧ ¬ wanted (tagAt mem mbi n) ∧
            (tagWalk mem mbi wanted limit).hits (tagFirst mbi) n ≤ limit ∧
            tagSize mem (tagAt mem mbi n) = 0)) := by
  refine ⟨parseMadt_follows.terminates_iff_circle rfl, getCount_follows.terminates_iff_circle rfl,
    fun k => ?_, ?_, ?_, madt_circle_iff, tag_circle_iff⟩
  · exact afterChecks_terminates_iff.trans
      (forall_congr' fun _ => (findModule_follows k).terminates_iff_circle rfl)
  · exact afterChecks_terminates_iff.trans
      (forall_congr' fun _ => (firstTag_follows findRsdpVisit_eq).terminates_iff_circle rfl)
  · exact afterChecks_terminates_iff.trans
      (forall_congr' fun _ => (firstTag_follows findFramebufferVisit_eq).terminates_iff_circle rfl)

/-- A table whose only record has length 0. -/
def zeroLengthMadt : Memory := madtBytes 52 [0, 0, 0, 0, 0, 0, 0, 0]

/-- A block at `0x1000` whose first tag, a command line, has size 0. -/
def zeroSizeBlock : Memory :=
  bytesAt 0x1000 ([32, 0, 0, 0, 0, 0, 0, 0] ++ [1, 0, 0, 0, 0, 0, 0, 0] ++ List.replicate 16 0)

/-- On these two no walker returns. -/
theorem not_walkersTerminate_zeroLength :
    ((∀ r, ¬ ParseMadt zeroLengthMadt 0x1000 r) ∧ ∀ r, ¬ GetCount zeroLengthMadt 0x1000 r) ∧
      (0x1000 : UInt32).toNat + (totalSize zeroSizeBlock 0x1000).toNat < 2 ^ 32 ∧
      (∀ k r, ¬ FindModule zeroSizeBlock 0x1000 k r) ∧
      (∀ r, ¬ FindRsdp zeroSizeBlock 0x1000 r) ∧ ∀ r, ¬ FindFramebuffer zeroSizeBlock 0x1000 r := by
  have hmadt : (madtWalk zeroLengthMadt 0x1000).Circle (madtEntries 0x1000) :=
    Walk.circle_of_advance_eq (by decide +kernel)
      (not_not.mpr (show madtEntries 0x1000 < madtEnd zeroLengthMadt 0x1000 by decide +kernel))
      (Bool.false_ne_true)
  have hpass : PassesChecks zeroSizeBlock 0x1000 := ⟨by decide, by decide +kernel⟩
  have htag : ∀ wanted limit, wanted (tagFirst 0x1000) = false →
      (tagWalk zeroSizeBlock 0x1000 wanted limit).Circle (tagFirst 0x1000) := by
    intro wanted limit hw
    refine Walk.circle_of_advance_eq ?_ ?_ ?_
    · show tagNext zeroSizeBlock (tagFirst 0x1000) = tagFirst 0x1000
      decide +kernel
    · show ¬ (¬ tagFirst 0x1000 < endAddr zeroSizeBlock 0x1000 ∨
        IsEndTag zeroSizeBlock (tagFirst 0x1000))
      decide +kernel
    · show ¬ wanted (tagFirst 0x1000) = true
      rw [hw]
      exact Bool.false_ne_true
  refine ⟨⟨fun r hr => ?_, fun r hr => ?_⟩, by decide +kernel, fun k r hr => ?_, fun r hr => ?_,
    fun r hr => ?_⟩
  · exact (parseMadt_follows.terminates_iff_circle rfl).mp ⟨r, hr⟩ hmadt
  · exact (getCount_follows.terminates_iff_circle rfl).mp ⟨r, hr⟩ hmadt
  · exact ((findModule_follows k).terminates_iff_circle rfl).mp
      (afterChecks_terminates_iff.mp ⟨r, hr⟩ hpass) (htag _ _ (by decide +kernel))
  · exact ((firstTag_follows findRsdpVisit_eq).terminates_iff_circle rfl).mp
      (afterChecks_terminates_iff.mp ⟨r, hr⟩ hpass) (htag _ _ (by decide +kernel))
  · exact ((firstTag_follows findFramebufferVisit_eq).terminates_iff_circle rfl).mp
      (afterChecks_terminates_iff.mp ⟨r, hr⟩ hpass) (htag _ _ (by decide +kernel))

end MapleKernel.Firmware
