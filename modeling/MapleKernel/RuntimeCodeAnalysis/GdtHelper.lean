/-
  File:      RuntimeCodeAnalysis/GdtHelper.lean
  Subject:   THE DESCRIPTORS OF THE DEBUGGING HELPER (`gdt_helper.py`).

  `GDT_ENTRY` keeps the two words of a descriptor. The setter of the limit clears the bits of the
  limit in both words. The setter of the base keeps the lower half of the high word, where the
  middle byte of the base is, and clears the upper half, where the flags and the high part of the
  limit are: the mask is that of the low word.

  * `GdtEntry` -- the class, its getters and its setters;
  * `setLimit_high`, `setBase_high` -- what the setters make of the high word;
  * `SetterLaws` -- what is set is read back, the rest stays, and the order does not matter;
  * `setterLaws_iff` -- exactly if flags and high limit are clear, in the entry and in the new
    limit, and the new middle byte has the bits of the old one.
-/
import MapleKernel.Lib.WordField

namespace MapleKernel.RuntimeCodeAnalysis

open WordField

/-! ## 1. The class -/

/-- `GDT_ENTRY`: the words are `c_uint32`s, their values are integers. -/
structure GdtEntry where
  low : UInt32
  high : UInt32
  deriving DecidableEq, Repr

namespace GdtEntry

variable (e : GdtEntry)

def limitLow : Nat := e.low.toNat &&& 0xFFFF

def baseLow : Nat := (e.low.toNat >>> 16) &&& 0xFFFF

def baseMid : Nat := e.high.toNat &&& 0xFF

def access : Nat := (e.high.toNat >>> 8) &&& 0xFF

def limitHigh : Nat := (e.high.toNat >>> 16) &&& 0xF

def flags : Nat := (e.high.toNat >>> 20) &&& 0xF

def baseHigh : Nat := (e.high.toNat >>> 24) &&& 0xFF

def limit : Nat := e.limitHigh <<< 16 ||| e.limitLow

def base : Nat := e.baseHigh <<< 24 ||| e.baseMid <<< 16 ||| e.baseLow

/-- `entry.limit = value`. -/
def setLimit (value : Nat) : GdtEntry :=
  let value := value &&& 0xFFFFF
  let low := (e.low.toNat &&& 0xFFFF0000) ||| (value &&& 0xFFFF)
  let high := (e.high.toNat &&& 0xFFF0FFFF) ||| ((value >>> 16) <<< 16)
  ⟨.ofNat low, .ofNat high⟩

/-- `entry.base = value`. -/
def setBase (value : Nat) : GdtEntry :=
  let value := value &&& 0xFFFFFFFF
  let low := (e.low.toNat &&& 0x0000FFFF) ||| ((value &&& 0xFFFF) <<< 16)
  let high := (e.high.toNat &&& 0x0000FFFF) ||| (((value >>> 16) &&& 0xFF) <<< 0)
    ||| (((value >>> 24) &&& 0xFF) <<< 24)
  ⟨.ofNat low, .ofNat high⟩

/-! ## 2. The getters, as numbers -/

theorem limitLow_eq : e.limitLow = e.low.toNat % 2 ^ 16 := Nat.and_two_pow_sub_one_eq_mod _ 16

theorem baseLow_eq : e.baseLow = e.low.toNat / 2 ^ 16 % 2 ^ 16 := by
  rw [← Nat.shiftRight_eq_div_pow]
  exact Nat.and_two_pow_sub_one_eq_mod _ 16

theorem baseMid_eq : e.baseMid = e.high.toNat % 2 ^ 8 := Nat.and_two_pow_sub_one_eq_mod _ 8

theorem access_eq : e.access = e.high.toNat / 2 ^ 8 % 2 ^ 8 := by
  rw [← Nat.shiftRight_eq_div_pow]
  exact Nat.and_two_pow_sub_one_eq_mod _ 8

theorem limitHigh_eq : e.limitHigh = e.high.toNat / 2 ^ 16 % 2 ^ 4 := by
  rw [← Nat.shiftRight_eq_div_pow]
  exact Nat.and_two_pow_sub_one_eq_mod _ 4

theorem flags_eq : e.flags = e.high.toNat / 2 ^ 20 % 2 ^ 4 := by
  rw [← Nat.shiftRight_eq_div_pow]
  exact Nat.and_two_pow_sub_one_eq_mod _ 4

theorem baseHigh_eq : e.baseHigh = e.high.toNat / 2 ^ 24 % 2 ^ 8 := by
  rw [← Nat.shiftRight_eq_div_pow]
  exact Nat.and_two_pow_sub_one_eq_mod _ 8

theorem limit_eq : e.limit = e.limitHigh * 2 ^ 16 + e.limitLow := by
  have hlow : e.limitLow < 2 ^ 16 := by
    rw [limitLow_eq]
    exact Nat.mod_lt _ (by decide)
  rw [limit, ← Nat.shiftLeft_add_eq_or_of_lt hlow, Nat.shiftLeft_eq]

theorem base_eq : e.base = e.baseHigh * 2 ^ 24 + e.baseMid * 2 ^ 16 + e.baseLow := by
  have hlow : e.baseLow < 2 ^ 16 := by
    rw [baseLow_eq]
    exact Nat.mod_lt _ (by decide)
  have hmid : e.baseMid < 2 ^ 8 := by
    rw [baseMid_eq]
    exact Nat.mod_lt _ (by decide)
  have hlt : e.baseMid <<< 16 + e.baseLow < 2 ^ 24 := by
    rw [Nat.shiftLeft_eq]
    omega
  rw [base, Nat.or_assoc, ← Nat.shiftLeft_add_eq_or_of_lt hlow,
    ← Nat.shiftLeft_add_eq_or_of_lt hlt, Nat.shiftLeft_eq, Nat.shiftLeft_eq, Nat.add_assoc]

/-! ## 3. The setters, as numbers -/

section Setters

variable {v : Nat}

theorem setLimit_low (hv : v < 2 ^ 20) :
    (e.setLimit v).low.toNat = 2 ^ 16 * (e.low.toNat / 2 ^ 16) + v % 2 ^ 16 := by
  have hlow := e.low.toNat_lt
  have hvalue : v &&& 0xFFFFF = v :=
    (Nat.and_two_pow_sub_one_eq_mod v 20).trans (Nat.mod_eq_of_lt hv)
  have hpart : v &&& 0xFFFF = v % 2 ^ 16 := Nat.and_two_pow_sub_one_eq_mod v 16
  have hmask : e.low.toNat &&& 0xFFFF0000 = 2 ^ 16 * (e.low.toNat / 2 ^ 16) + e.low.toNat % 1 :=
    @and_hole 0 e.low.toNat 16 16 hlow
  rw [Nat.mod_one, Nat.add_zero] at hmask
  show (UInt32.ofNat _).toNat = _
  rw [UInt32.toNat_ofNat', hvalue, hpart, hmask,
    ← Nat.two_pow_add_eq_or_of_lt (Nat.mod_lt v (by decide))]
  omega

/-- The bits of the limit are replaced. -/
theorem setLimit_high (hv : v < 2 ^ 20) : (e.setLimit v).high.toNat =
    2 ^ 20 * (e.high.toNat / 2 ^ 20) + (2 ^ 16 * (v / 2 ^ 16) + e.high.toNat % 2 ^ 16) := by
  have hhigh := e.high.toNat_lt
  have hlower : e.high.toNat % 2 ^ 16 < 2 ^ 16 := Nat.mod_lt _ (by decide)
  have hvalue : v &&& 0xFFFFF = v :=
    (Nat.and_two_pow_sub_one_eq_mod v 20).trans (Nat.mod_eq_of_lt hv)
  have hpart : (v >>> 16) <<< 16 = 2 ^ 16 * (v / 2 ^ 16) := by
    rw [Nat.shiftRight_eq_div_pow, Nat.shiftLeft_eq, Nat.mul_comm]
  have hmask : e.high.toNat &&& 0xFFF0FFFF =
      2 ^ 20 * (e.high.toNat / 2 ^ 20) + e.high.toNat % 2 ^ 16 :=
    @and_hole 16 e.high.toNat 4 12 hhigh
  have hjoin : (2 ^ 20 * (e.high.toNat / 2 ^ 20) + e.high.toNat % 2 ^ 16)
      ||| (2 ^ 16 * (v / 2 ^ 16)) =
      2 ^ 20 * (e.high.toNat / 2 ^ 20) + (2 ^ 16 * (v / 2 ^ 16) + e.high.toNat % 2 ^ 16) := by
    have hlt : 2 ^ 16 * (v / 2 ^ 16) + e.high.toNat % 2 ^ 16 < 2 ^ 20 := by omega
    rw [Nat.two_pow_add_eq_or_of_lt (by omega : e.high.toNat % 2 ^ 16 < 2 ^ 20), Nat.or_assoc,
      Nat.or_comm (e.high.toNat % 2 ^ 16), ← Nat.two_pow_add_eq_or_of_lt hlower,
      ← Nat.two_pow_add_eq_or_of_lt hlt]
  show (UInt32.ofNat _).toNat = _
  rw [UInt32.toNat_ofNat', hvalue, hpart, hmask, hjoin]
  omega

theorem setBase_low (hv : v < 2 ^ 32) :
    (e.setBase v).low.toNat = 2 ^ 16 * (v % 2 ^ 16) + e.low.toNat % 2 ^ 16 := by
  have hvalue : v &&& 0xFFFFFFFF = v :=
    (Nat.and_two_pow_sub_one_eq_mod v 32).trans (Nat.mod_eq_of_lt hv)
  have hpart : (v &&& 0xFFFF) <<< 16 = 2 ^ 16 * (v % 2 ^ 16) := by
    rw [Nat.shiftLeft_eq, Nat.mul_comm]
    exact congrArg _ (Nat.and_two_pow_sub_one_eq_mod v 16)
  have hmask : e.low.toNat &&& 0x0000FFFF = e.low.toNat % 2 ^ 16 :=
    Nat.and_two_pow_sub_one_eq_mod _ 16
  show (UInt32.ofNat _).toNat = _
  rw [UInt32.toNat_ofNat', hvalue, hpart, hmask, Nat.or_comm,
    ← Nat.two_pow_add_eq_or_of_lt (Nat.mod_lt _ (by decide))]
  omega

/-- Flags and high limit are cleared, and the middle byte is joined with the old one. -/
theorem setBase_high (hv : v < 2 ^ 32) : (e.setBase v).high.toNat =
    2 ^ 24 * (v / 2 ^ 24) + (2 ^ 8 * e.access + (e.baseMid ||| v / 2 ^ 16 % 2 ^ 8)) := by
  have hvalue : v &&& 0xFFFFFFFF = v :=
    (Nat.and_two_pow_sub_one_eq_mod v 32).trans (Nat.mod_eq_of_lt hv)
  have hmid : ((v >>> 16) &&& 0xFF) <<< 0 = v / 2 ^ 16 % 2 ^ 8 := by
    rw [Nat.shiftLeft_zero, ← Nat.shiftRight_eq_div_pow]
    exact Nat.and_two_pow_sub_one_eq_mod _ 8
  have hhigh : ((v >>> 24) &&& 0xFF) <<< 24 = 2 ^ 24 * (v / 2 ^ 24) := by
    have hbyte : (v >>> 24) &&& 0xFF = v / 2 ^ 24 := by
      rw [Nat.shiftRight_eq_div_pow]
      exact (Nat.and_two_pow_sub_one_eq_mod _ 8).trans (Nat.mod_eq_of_lt (by omega))
    rw [hbyte, Nat.shiftLeft_eq, Nat.mul_comm]
  have hmask : e.high.toNat &&& 0x0000FFFF = 2 ^ 8 * e.access + e.baseMid := by
    have hlower : e.high.toNat &&& 0xFFFF = e.high.toNat % 2 ^ 16 :=
      Nat.and_two_pow_sub_one_eq_mod _ 16
    rw [hlower, access_eq, baseMid_eq]
    omega
  have hold : e.baseMid < 2 ^ 8 := by
    rw [baseMid_eq]
    exact Nat.mod_lt _ (by decide)
  have haccess : e.access < 2 ^ 8 := by
    rw [access_eq]
    exact Nat.mod_lt _ (by decide)
  have hnew : v / 2 ^ 16 % 2 ^ 8 < 2 ^ 8 := Nat.mod_lt _ (by decide)
  have hor : (e.baseMid ||| v / 2 ^ 16 % 2 ^ 8) < 2 ^ 8 := Nat.or_lt_two_pow hold hnew
  have hjoin : (2 ^ 8 * e.access + e.baseMid) ||| v / 2 ^ 16 % 2 ^ 8 =
      2 ^ 8 * e.access + (e.baseMid ||| v / 2 ^ 16 % 2 ^ 8) := by
    rw [Nat.two_pow_add_eq_or_of_lt hold, Nat.or_assoc, ← Nat.two_pow_add_eq_or_of_lt hor]
  have hlt : 2 ^ 8 * e.access + (e.baseMid ||| v / 2 ^ 16 % 2 ^ 8) < 2 ^ 24 := by omega
  show (UInt32.ofNat _).toNat = _
  rw [UInt32.toNat_ofNat', hvalue, hmid, hhigh, hmask, hjoin, Nat.or_comm,
    ← Nat.two_pow_add_eq_or_of_lt hlt]
  omega

/-! ## 4. What the getters see after a setter -/

/-- The byte that the setter of the base leaves in the middle of it. -/
def joinedMid (v : Nat) : Nat := e.baseMid ||| v / 2 ^ 16 % 2 ^ 8

theorem joinedMid_lt (v : Nat) : e.joinedMid v < 2 ^ 8 := by
  have hold : e.baseMid < 2 ^ 8 := by
    rw [baseMid_eq]
    exact Nat.mod_lt _ (by decide)
  exact Nat.or_lt_two_pow hold (Nat.mod_lt _ (by decide))

theorem access_lt : e.access < 2 ^ 8 := by
  rw [access_eq]
  exact Nat.mod_lt _ (by decide)

/-- After `entry.limit = v` the parts of the limit are those of `v`, the others are as before. -/
structure LimitSet (e e' : GdtEntry) (v : Nat) : Prop where
  limitLow : e'.limitLow = v % 2 ^ 16
  limitHigh : e'.limitHigh = v / 2 ^ 16
  baseLow : e'.baseLow = e.baseLow
  baseMid : e'.baseMid = e.baseMid
  baseHigh : e'.baseHigh = e.baseHigh
  access : e'.access = e.access
  flags : e'.flags = e.flags

theorem limitSet (hv : v < 2 ^ 20) : LimitSet e (e.setLimit v) v where
  limitLow := by rw [limitLow_eq, setLimit_low e hv]; omega
  limitHigh := by rw [limitHigh_eq, setLimit_high e hv]; omega
  baseLow := by rw [baseLow_eq, baseLow_eq, setLimit_low e hv]; omega
  baseMid := by rw [baseMid_eq, baseMid_eq, setLimit_high e hv]; omega
  baseHigh := by rw [baseHigh_eq, baseHigh_eq, setLimit_high e hv]; omega
  access := by rw [access_eq, access_eq, setLimit_high e hv]; omega
  flags := by rw [flags_eq, flags_eq, setLimit_high e hv]; omega

/-- After `entry.base = v` the upper half of the high word is 0 but for the base. -/
structure BaseSet (e e' : GdtEntry) (v : Nat) : Prop where
  limitLow : e'.limitLow = e.limitLow
  limitHigh : e'.limitHigh = 0
  baseLow : e'.baseLow = v % 2 ^ 16
  baseMid : e'.baseMid = e.joinedMid v
  baseHigh : e'.baseHigh = v / 2 ^ 24
  access : e'.access = e.access
  flags : e'.flags = 0

theorem baseSet (hv : v < 2 ^ 32) : BaseSet e (e.setBase v) v := by
  have hmid := e.joinedMid_lt v
  have haccess := e.access_lt
  have hhigh : (e.setBase v).high.toNat =
      2 ^ 24 * (v / 2 ^ 24) + (2 ^ 8 * e.access + e.joinedMid v) := setBase_high e hv
  constructor
  · rw [limitLow_eq, limitLow_eq, setBase_low e hv]
    omega
  · rw [limitHigh_eq, hhigh]
    omega
  · rw [baseLow_eq, setBase_low e hv]
    omega
  · rw [baseMid_eq, hhigh]
    omega
  · rw [baseHigh_eq, hhigh]
    omega
  · rw [access_eq, hhigh]
    omega
  · rw [flags_eq, hhigh]
    omega

/-! ## 5. The laws -/

/-- What is set is read back, the rest stays, and the order of the setters does not matter. -/
structure SetterLaws (e : GdtEntry) (b : BitVec 32) (l : BitVec 20) : Prop where
  base_base : (e.setBase b.toNat).base = b.toNat
  base_limit : (e.setBase b.toNat).limit = e.limit
  base_access : (e.setBase b.toNat).access = e.access
  base_flags : (e.setBase b.toNat).flags = e.flags
  limit_limit : (e.setLimit l.toNat).limit = l.toNat
  limit_base : (e.setLimit l.toNat).base = e.base
  limit_access : (e.setLimit l.toNat).access = e.access
  limit_flags : (e.setLimit l.toNat).flags = e.flags
  order : (e.setBase b.toNat).setLimit l.toNat = (e.setLimit l.toNat).setBase b.toNat

/-- The order does not matter exactly if the high part of the limit is 0. -/
theorem order_iff {b l : Nat} (hb : b < 2 ^ 32) (hl : l < 2 ^ 20) :
    (e.setBase b).setLimit l = (e.setLimit l).setBase b ↔ l < 2 ^ 16 := by
  have hmid := e.joinedMid_lt b
  have haccess := e.access_lt
  have hset := limitSet e hl
  have hfirst : (e.setBase b).high.toNat =
      2 ^ 24 * (b / 2 ^ 24) + (2 ^ 8 * e.access + e.joinedMid b) := setBase_high e hb
  have hlimitLast := setLimit_high (e.setBase b) hl
  have hbaseLast : ((e.setLimit l).setBase b).high.toNat =
      2 ^ 24 * (b / 2 ^ 24) + (2 ^ 8 * e.access + e.joinedMid b) := by
    rw [setBase_high _ hb, hset.access, hset.baseMid]
    rfl
  rw [hfirst] at hlimitLast
  constructor
  · intro h
    have hhigh := congrArg (fun x => x.high.toNat) h
    simp only [hlimitLast, hbaseLast] at hhigh
    omega
  · intro hsmall
    have hlow : ((e.setBase b).setLimit l).low = ((e.setLimit l).setBase b).low := by
      refine UInt32.toNat.inj ?_
      rw [setLimit_low _ hl, setBase_low _ hb, setBase_low _ hb, setLimit_low _ hl]
      omega
    have hhigh : ((e.setBase b).setLimit l).high = ((e.setLimit l).setBase b).high := by
      refine UInt32.toNat.inj ?_
      rw [hlimitLast, hbaseLast]
      omega
    exact congrArg₂ GdtEntry.mk hlow hhigh

/-- **The setters obey their laws exactly if flags and high limit of the entry are clear, the new
    middle byte of the base has all bits of the old one, and the new limit has no high part.** -/
theorem setterLaws_iff (e : GdtEntry) (b : BitVec 32) (l : BitVec 20) : SetterLaws e b l ↔
    e.flags = 0 ∧ e.limitHigh = 0 ∧
      (e.baseMid ||| b.toNat / 2 ^ 16 % 2 ^ 8) = b.toNat / 2 ^ 16 % 2 ^ 8 ∧ l.toNat < 2 ^ 16 := by
  have hb := b.isLt
  have hl := l.isLt
  have hbase := baseSet e hb
  have hlimit := limitSet e hl
  have hmid : (e.setBase b.toNat).base = b.toNat ↔
      (e.baseMid ||| b.toNat / 2 ^ 16 % 2 ^ 8) = b.toNat / 2 ^ 16 % 2 ^ 8 := by
    have hjoined : (e.baseMid ||| b.toNat / 2 ^ 16 % 2 ^ 8) = e.joinedMid b.toNat := rfl
    rw [base_eq, hbase.baseLow, hbase.baseMid, hbase.baseHigh, hjoined]
    omega
  have hhigh : (e.setBase b.toNat).limit = e.limit ↔ e.limitHigh = 0 := by
    rw [limit_eq, limit_eq, hbase.limitLow, hbase.limitHigh]
    omega
  constructor
  · intro h
    exact ⟨h.base_flags.symm.trans hbase.flags, hhigh.mp h.base_limit, hmid.mp h.base_base,
      (order_iff e hb hl).mp h.order⟩
  · rintro ⟨hflags, hlimitHigh, hbaseMid, hsmall⟩
    refine ⟨hmid.mpr hbaseMid, hhigh.mpr hlimitHigh, hbase.access, hbase.flags.trans hflags.symm,
      ?_, ?_, hlimit.access, hlimit.flags, (order_iff e hb hl).mpr hsmall⟩
    · rw [limit_eq, hlimit.limitLow, hlimit.limitHigh]
      omega
    · rw [base_eq, base_eq, hlimit.baseLow, hlimit.baseMid, hlimit.baseHigh]

/-- The flat code segment of the script loses its flags when its base is set to the 0 it has. -/
theorem not_setterLaws_code : ¬ ∀ (e : GdtEntry) (b : BitVec 32) (l : BitVec 20),
    SetterLaws e b l := by
  intro hall
  exact absurd (hall ⟨0xFFFF, 0xCF9A00⟩ 0 0).base_flags (by decide)

end Setters

end GdtEntry

end MapleKernel.RuntimeCodeAnalysis
