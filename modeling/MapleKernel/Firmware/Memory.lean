/-
  File:      Firmware/Memory.lean
  Subject:   THE MEMORY THAT THE FIRMWARE'S TABLES STAND IN: bytes at 32-bit addresses, which wrap.

  * `read16`, `read32` -- little-endian fields;
  * `bytesAt` -- the memory that holds given bytes, and zeros;
  * `toNat_ofNat_of_lt` -- the size of the address space as `2 ^ 32`, the spelling used here.
-/
import Mathlib

namespace MapleKernel.Firmware

/-- Any content of the address space. -/
abbrev Memory := UInt32 → UInt8

def Memory.read16 (mem : Memory) (a : UInt32) : UInt16 :=
  (mem a).toUInt16 ||| ((mem (a + 1)).toUInt16 <<< 8)

def Memory.read32 (mem : Memory) (a : UInt32) : UInt32 :=
  (mem.read16 a).toUInt32 ||| ((mem.read16 (a + 2)).toUInt32 <<< 16)

/-- The bytes from `base` on, and zeros. -/
def bytesAt (base : UInt32) (bytes : List UInt8) : Memory :=
  fun a => bytes[(a - base).toNat]?.getD 0

theorem toNat_ofNat_of_lt {n : Nat} (h : n < 2 ^ 32) : (UInt32.ofNat n).toNat = n :=
  UInt32.toNat_ofNat_of_lt' h

end MapleKernel.Firmware
