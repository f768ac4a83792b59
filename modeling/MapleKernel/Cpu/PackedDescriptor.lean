/-
  File:      Cpu/PackedDescriptor.lean
  Subject:   THE BASE AND THE LIMIT OF A PACKED DESCRIPTOR (`gdt.h`).

  `segment_descriptor_t` is 8 bytes of packed bit-fields. Its setters copy the bytes of the base, or
  of the limit, into a packed structure that splits them, and store the parts; of the limit they
  take three bytes, and four bits of the last.

  * `PackedDescriptor`, `BaseSplit`, `LimitSplit` -- the structures, each with its layout;
  * `setSegmentDescriptorBase`, `setSegmentDescriptorLimit` and the getters -- from the source;
  * `ofRaw_gdtEntry` -- the members are the bit-fields of the same bytes;
  * `packedDescriptor_codec` -- what is set is read back, modulo `2 ^ 20` for the limit, the other
    members stay, and the getters agree with `getBaseAddress` and `getSegmentLimit`.
-/
import MapleKernel.Lib.BitStruct
import MapleKernel.Cpu.SegmentDescriptor

namespace MapleKernel.Cpu

open BitPlaces BitStructs

/-! ## 1. The structures -/

/-- `segment_descriptor_t`. -/
structure PackedDescriptor where
  limitLow : BitVec 16
  baseLow : BitVec 16
  baseMiddle : BitVec 8
  type : BitVec 4
  s : BitVec 1
  dpl : BitVec 2
  p : BitVec 1
  limitHigh : BitVec 4
  avl : BitVec 1
  l : BitVec 1
  db : BitVec 1
  g : BitVec 1
  baseHigh : BitVec 8
  deriving DecidableEq, Repr

def PackedDescriptor.layout : Layout 64 PackedDescriptor where
  widths := [16, 16, 8, 4, 1, 2, 1, 4, 1, 1, 1, 1, 8]
  width_eq := rfl
  members :=
    { toFun := fun d => (d.limitLow, d.baseLow, d.baseMiddle, d.type, d.s, d.dpl, d.p, d.limitHigh,
        d.avl, d.l, d.db, d.g, d.baseHigh, ())
      invFun := fun ⟨limitLow, baseLow, baseMiddle, type, s, dpl, p, limitHigh, avl, l, db, g,
          baseHigh, _⟩ =>
        ⟨limitLow, baseLow, baseMiddle, type, s, dpl, p, limitHigh, avl, l, db, g, baseHigh⟩
      left_inv := fun _ => rfl
      right_inv := fun _ => rfl }

/-- The members that belong neither to the base nor to the limit. -/
structure DescriptorFlags where
  type : BitVec 4
  s : BitVec 1
  dpl : BitVec 2
  p : BitVec 1
  avl : BitVec 1
  l : BitVec 1
  db : BitVec 1
  g : BitVec 1
  deriving DecidableEq, Repr

def PackedDescriptor.flags (d : PackedDescriptor) : DescriptorFlags :=
  ⟨d.type, d.s, d.dpl, d.p, d.avl, d.l, d.db, d.g⟩

/-- `struct base_split`. -/
structure BaseSplit where
  low : BitVec 16
  mid : BitVec 8
  high : BitVec 8
  deriving DecidableEq, Repr

def BaseSplit.layout : Layout 32 BaseSplit where
  widths := [16, 8, 8]
  width_eq := rfl
  members :=
    { toFun := fun b => (b.low, b.mid, b.high, ())
      invFun := fun ⟨low, mid, high, _⟩ => ⟨low, mid, high⟩
      left_inv := fun _ => rfl
      right_inv := fun _ => rfl }

/-- `struct limit_split`: packed, so it takes three bytes. -/
structure LimitSplit where
  low : BitVec 16
  high : BitVec 4
  padding : BitVec 4
  deriving DecidableEq, Repr

def LimitSplit.layout : Layout 24 LimitSplit where
  widths := [16, 4, 4]
  width_eq := rfl
  members :=
    { toFun := fun l => (l.low, l.high, l.padding, ())
      invFun := fun ⟨low, high, padding, _⟩ => ⟨low, high, padding⟩
      left_inv := fun _ => rfl
      right_inv := fun _ => rfl }

/-! ## 2. The functions -/

/-- `BITCAST` of a 32-bit value: as many bytes of it as the structure has. -/
def bitcast {n : Nat} {α : Type} (L : Layout n α) (value : UInt32) : α :=
  L.ofRaw (value.toBitVec.setWidth n)

def getSegmentDescriptorBase (desc : PackedDescriptor) : UInt32 :=
  .ofBitVec (desc.baseHigh.setWidth 32 <<< 24 ||| desc.baseMiddle.setWidth 32 <<< 16
    ||| desc.baseLow.setWidth 32)

def setSegmentDescriptorBase (desc : PackedDescriptor) (base : UInt32) : PackedDescriptor :=
  let baseAddress := bitcast BaseSplit.layout base
  { desc with
    baseLow := baseAddress.low
    baseMiddle := baseAddress.mid
    baseHigh := baseAddress.high }

def setSegmentDescriptorLimit (desc : PackedDescriptor) (limit : UInt32) : PackedDescriptor :=
  let limitParts := bitcast LimitSplit.layout limit
  { desc with
    limitLow := limitParts.low
    limitHigh := limitParts.high }

def getSegmentDescriptorLimit (desc : PackedDescriptor) : UInt32 :=
  .ofBitVec (desc.limitHigh.setWidth 32 <<< 16 ||| desc.limitLow.setWidth 32)

/-- The same 8 bytes as two words. -/
def SegmentDescriptor.ofRaw (raw : BitVec 64) : SegmentDescriptor where
  lower := .ofBitVec (raw.setWidth 32)
  higher := .ofBitVec (raw.extractLsb' 32 32)

/-! ## 3. The parts -/

/-- The members as numbers. -/
def PackedDescriptor.toGdtEntry (d : PackedDescriptor) : GdtEntry where
  limitLow := d.limitLow.toNat
  baseLow := d.baseLow.toNat
  baseMiddle := d.baseMiddle.toNat
  type := d.type.toNat
  s := d.s.toNat
  dpl := d.dpl.toNat
  p := d.p.toNat
  limitHigh := d.limitHigh.toNat
  avl := d.avl.toNat
  l := d.l.toNat
  db := d.db.toNat
  g := d.g.toNat
  baseHigh := d.baseHigh.toNat

section Parts

/-- A member is shifted up without loss. -/
theorem toNat_setWidth_shiftLeft {w n : Nat} (x : BitVec w) (h : w + n ≤ 32) :
    (x.setWidth 32 <<< n).toNat = x.toNat <<< n := by
  have hx : x.toNat < 2 ^ 32 := x.isLt.trans_le (Nat.pow_le_pow_right (by decide) (by omega))
  have hlt : x.toNat <<< n < 2 ^ 32 := by
    calc x.toNat <<< n = x.toNat * 2 ^ n := Nat.shiftLeft_eq _ _
      _ < 2 ^ w * 2 ^ n := Nat.mul_lt_mul_of_pos_right x.isLt (Nat.two_pow_pos n)
      _ = 2 ^ (w + n) := (Nat.pow_add _ _ _).symm
      _ ≤ 2 ^ 32 := Nat.pow_le_pow_right (by decide) h
  rw [BitVec.toNat_shiftLeft, BitVec.toNat_setWidth, Nat.mod_eq_of_lt hx, Nat.mod_eq_of_lt hlt]

theorem toNat_setWidth_of_le {w : Nat} (x : BitVec w) (h : w ≤ 32) :
    (x.setWidth 32).toNat = x.toNat := by
  rw [BitVec.toNat_setWidth]
  exact Nat.mod_eq_of_lt (x.isLt.trans_le (Nat.pow_le_pow_right (by decide) h))

theorem toNat_getBase (d : PackedDescriptor) :
    (getSegmentDescriptorBase d).toNat = d.toGdtEntry.base := by
  show (d.baseHigh.setWidth 32 <<< 24 ||| d.baseMiddle.setWidth 32 <<< 16
    ||| d.baseLow.setWidth 32).toNat = _
  rw [BitVec.toNat_or, BitVec.toNat_or, toNat_setWidth_shiftLeft _ (by decide),
    toNat_setWidth_shiftLeft _ (by decide), toNat_setWidth_of_le _ (by decide)]
  rfl

theorem toNat_getLimit (d : PackedDescriptor) :
    (getSegmentDescriptorLimit d).toNat = d.toGdtEntry.limit := by
  show (d.limitHigh.setWidth 32 <<< 16 ||| d.limitLow.setWidth 32).toNat = _
  rw [BitVec.toNat_or, toNat_setWidth_shiftLeft _ (by decide), toNat_setWidth_of_le _ (by decide)]
  rfl

/-- The parts of a base stand next to each other. -/
theorem GdtEntry.base_eq_sum (e : GdtEntry) (hlow : e.baseLow < 2 ^ 16)
    (hmid : e.baseMiddle < 2 ^ 8) :
    e.base = e.baseHigh * 2 ^ 24 + e.baseMiddle * 2 ^ 16 + e.baseLow := by
  have hsum := Nat.shiftLeft_add_eq_or_of_lt hlow e.baseMiddle
  have hlt : e.baseMiddle <<< 16 + e.baseLow < 2 ^ 24 := by
    rw [Nat.shiftLeft_eq]
    omega
  rw [GdtEntry.base, Nat.or_assoc, ← hsum, ← Nat.shiftLeft_add_eq_or_of_lt hlt, Nat.shiftLeft_eq,
    Nat.shiftLeft_eq, Nat.add_assoc]

theorem GdtEntry.limit_eq_sum (e : GdtEntry) (hlow : e.limitLow < 2 ^ 16) :
    e.limit = e.limitHigh * 2 ^ 16 + e.limitLow := by
  rw [GdtEntry.limit, ← Nat.shiftLeft_add_eq_or_of_lt hlow, Nat.shiftLeft_eq]

/-- **The members are the bit-fields of the two words.** -/
theorem ofRaw_gdtEntry (raw : BitVec 64) :
    (PackedDescriptor.layout.ofRaw raw).toGdtEntry = (SegmentDescriptor.ofRaw raw).gdtEntry := by
  have hlower : (SegmentDescriptor.ofRaw raw).lower.toNat = raw.toNat % 2 ^ 32 :=
    BitVec.toNat_setWidth ..
  have hhigher : (SegmentDescriptor.ofRaw raw).higher.toNat = raw.toNat / 2 ^ 32 % 2 ^ 32 := by
    show (raw.extractLsb' 32 32).toNat = _
    rw [BitVec.extractLsb'_toNat, Nat.shiftRight_eq_div_pow]
  rw [Layout.ofRaw_eq]
  simp only [PackedDescriptor.layout, fieldsOfNat, PackedDescriptor.toGdtEntry,
    SegmentDescriptor.gdtEntry, bitField, hlower, hhigher, GdtEntry.mk.injEq,
    BitVec.toNat_ofNat]
  refine ⟨?_, ?_, ?_, ?_, ?_, ?_, ?_, ?_, ?_, ?_, ?_, ?_, ?_⟩ <;> omega

end Parts

/-! ## 4. The codec -/

section Codec

variable (desc : PackedDescriptor)

theorem getBase_setBase (base : UInt32) :
    getSegmentDescriptorBase (setSegmentDescriptorBase desc base) = base := by
  have hbase := base.toNat_lt
  refine UInt32.toNat.inj ?_
  rw [toNat_getBase, GdtEntry.base_eq_sum _ (BitVec.isLt _) (BitVec.isLt _)]
  simp only [setSegmentDescriptorBase, bitcast, Layout.ofRaw_eq, BaseSplit.layout, fieldsOfNat,
    PackedDescriptor.toGdtEntry, BitVec.toNat_ofNat, BitVec.toNat_setWidth, UInt32.toNat_toBitVec]
  omega

theorem getLimit_setLimit (limit : UInt32) :
    (getSegmentDescriptorLimit (setSegmentDescriptorLimit desc limit)).toNat
      = limit.toNat % 2 ^ 20 := by
  rw [toNat_getLimit, GdtEntry.limit_eq_sum _ (BitVec.isLt _)]
  simp only [setSegmentDescriptorLimit, bitcast, Layout.ofRaw_eq, LimitSplit.layout, fieldsOfNat,
    PackedDescriptor.toGdtEntry, BitVec.toNat_ofNat, BitVec.toNat_setWidth, UInt32.toNat_toBitVec]
  omega

/-- The two ways to read the base, and the limit, of the same 8 bytes. -/
theorem getBase_eq_getBaseAddress (raw : BitVec 64) :
    getSegmentDescriptorBase (PackedDescriptor.layout.ofRaw raw)
      = getBaseAddress (SegmentDescriptor.ofRaw raw) := by
  refine UInt32.toNat.inj ?_
  rw [toNat_getBase, ofRaw_gdtEntry]
  exact get_eq_get (reads_gdtEntry .baseAddress) reads_getBaseAddress rfl _ fun _ _ => rfl

theorem getLimit_eq_getSegmentLimit (raw : BitVec 64) :
    getSegmentDescriptorLimit (PackedDescriptor.layout.ofRaw raw)
      = getSegmentLimit (SegmentDescriptor.ofRaw raw) := by
  refine UInt32.toNat.inj ?_
  rw [toNat_getLimit, ofRaw_gdtEntry]
  exact get_eq_get (reads_gdtEntry .segmentLimit) reads_getSegmentLimit rfl _ fun _ _ => rfl

/-- **The codec of packed descriptors.** What is set is read back, the limit modulo `2 ^ 20`, and
    nothing else changes; on every 8 bytes the getters agree with `getBaseAddress` and
    `getSegmentLimit`. -/
theorem packedDescriptor_codec :
    (∀ (desc : PackedDescriptor) (base : UInt32),
      getSegmentDescriptorBase (setSegmentDescriptorBase desc base) = base ∧
      getSegmentDescriptorLimit (setSegmentDescriptorBase desc base)
        = getSegmentDescriptorLimit desc ∧
      (setSegmentDescriptorBase desc base).flags = desc.flags) ∧
    (∀ (desc : PackedDescriptor) (limit : UInt32),
      (getSegmentDescriptorLimit (setSegmentDescriptorLimit desc limit)).toNat
        = limit.toNat % 2 ^ 20 ∧
      getSegmentDescriptorBase (setSegmentDescriptorLimit desc limit)
        = getSegmentDescriptorBase desc ∧
      (setSegmentDescriptorLimit desc limit).flags = desc.flags) ∧
    ∀ raw : BitVec 64,
      getSegmentDescriptorBase (PackedDescriptor.layout.ofRaw raw)
        = getBaseAddress (SegmentDescriptor.ofRaw raw) ∧
      getSegmentDescriptorLimit (PackedDescriptor.layout.ofRaw raw)
        = getSegmentLimit (SegmentDescriptor.ofRaw raw) := by
  refine ⟨fun desc base => ?_, fun desc limit => ?_, fun raw => ?_⟩
  · exact ⟨getBase_setBase desc base, rfl, rfl⟩
  · exact ⟨getLimit_setLimit desc limit, rfl, rfl⟩
  · exact ⟨getBase_eq_getBaseAddress raw, getLimit_eq_getSegmentLimit raw⟩

end Codec

end MapleKernel.Cpu
