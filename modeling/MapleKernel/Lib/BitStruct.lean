/-
  File:      Lib/BitStruct.lean
  Subject:   C STRUCTURES OF BIT FIELDS, and the word that holds one.

  The fields stand one above the other, the first one at bit 0; bits that no field names are fields
  of their own here. A union of such a structure with an integer is the two directions of one
  bijection.

  * `Fields`, `pack`, `unpack` -- the fields of given widths and the word;
  * `unpack_pack`, `pack_unpack` -- nothing is lost either way; `unpack_eq_fieldsOfNat` -- the
    fields as quotients and remainders;
  * `getLsbD_pack_of_above` -- a change of the upper fields leaves the bits of the lowest one;
  * `Layout` -- a structure with named members and the size of its word: `ofRaw_raw`, `raw_ofRaw`.
-/
import Mathlib

namespace BitStructs

/-- The bits that fields of the given widths take up. -/
def width : List Nat → Nat
  | [] => 0
  | w :: ws => width ws + w

/-- Values of the fields, the lowest one first. -/
def Fields : List Nat → Type
  | [] => Unit
  | w :: ws => BitVec w × Fields ws

def pack : {ws : List Nat} → Fields ws → BitVec (width ws)
  | [], _ => 0#0
  | _ :: _, (v, vs) => pack vs ++ v

def unpack : (ws : List Nat) → BitVec (width ws) → Fields ws
  | [], _ => ()
  | w :: ws, x => (x.setWidth w, unpack ws (x.extractLsb' w (width ws)))

/-- The fields of the word with a given number. -/
def fieldsOfNat : (ws : List Nat) → Nat → Fields ws
  | [], _ => ()
  | w :: ws, n => (BitVec.ofNat w n, fieldsOfNat ws (n / 2 ^ w))

section Pack

variable {ws : List Nat} {w : Nat}

theorem unpack_pack (f : Fields ws) : unpack ws (pack f) = f := by
  induction ws with
  | nil => rfl
  | cons w ws ih =>
      obtain ⟨v, vs⟩ := f
      show ((pack vs ++ v).setWidth w, unpack ws ((pack vs ++ v).extractLsb' w (width ws))) =
        (v, vs)
      rw [BitVec.setWidth_append_eq_right, BitVec.extractLsb'_append_eq_left, ih]

/-- A word is its upper part behind its lower part. -/
theorem extract_append_setWidth {m n : Nat} (x : BitVec (m + n)) :
    x.extractLsb' n m ++ x.setWidth n = x := by
  refine BitVec.eq_of_getLsbD_eq fun i hi => ?_
  rw [BitVec.getLsbD_append, BitVec.getLsbD_setWidth, BitVec.getLsbD_extractLsb']
  by_cases hlow : i < n
  · simp [hlow]
  · have hhigh : i - n < m := by omega
    have hsum : n + (i - n) = i := by omega
    simp [hlow, hhigh, hsum]

theorem pack_unpack (x : BitVec (width ws)) : pack (unpack ws x) = x := by
  induction ws with
  | nil => exact (BitVec.eq_nil x).symm
  | cons w ws ih =>
      show pack (unpack ws (x.extractLsb' w (width ws))) ++ x.setWidth w = x
      rw [ih]
      exact extract_append_setWidth x

/-- The division drops the fields below. -/
theorem unpack_eq_fieldsOfNat (x : BitVec (width ws)) : unpack ws x = fieldsOfNat ws x.toNat := by
  induction ws with
  | nil => rfl
  | cons w ws ih =>
      have hdiv : (x.extractLsb' w (width ws)).toNat = x.toNat / 2 ^ w := by
        have hlt : x.toNat / 2 ^ w < 2 ^ width ws :=
          Nat.div_lt_of_lt_mul (by rw [← Nat.pow_add, Nat.add_comm]; exact x.isLt)
        rw [BitVec.extractLsb'_toNat, Nat.shiftRight_eq_div_pow, Nat.mod_eq_of_lt hlt]
      show (x.setWidth w, unpack ws (x.extractLsb' w (width ws))) =
        (BitVec.ofNat w x.toNat, fieldsOfNat ws (x.toNat / 2 ^ w))
      have hlow : x.setWidth w = BitVec.ofNat w x.toNat := by
        refine BitVec.eq_of_toNat_eq ?_
        rw [BitVec.toNat_setWidth, BitVec.toNat_ofNat]
      rw [ih, hdiv, hlow]

theorem getLsbD_pack_cons (v : BitVec w) (vs : Fields ws) (i : Nat) :
    (@pack (w :: ws) (v, vs)).getLsbD i =
      if i < w then v.getLsbD i else (pack vs).getLsbD (i - w) :=
  BitVec.getLsbD_append

/-- A bit is the same if it belongs to the lowest field, or is the same above it. -/
theorem getLsbD_pack_of_above (v : BitVec w) {vs vs' : Fields ws} {i : Nat}
    (h : w ≤ i → (pack vs).getLsbD (i - w) = (pack vs').getLsbD (i - w)) :
    (@pack (w :: ws) (v, vs)).getLsbD i = (@pack (w :: ws) (v, vs')).getLsbD i := by
  rw [getLsbD_pack_cons, getLsbD_pack_cons]
  split
  · rfl
  · exact h (by omega)

end Pack

/-- A structure in a word of `n` bits: its members are the fields, in the order of the
declaration. -/
structure Layout (n : Nat) (α : Type*) where
  widths : List Nat
  width_eq : width widths = n
  members : α ≃ Fields widths

namespace Layout

variable {n : Nat} {α : Type*} (L : Layout n α)

/-- The word that holds the structure. -/
def raw (x : α) : BitVec n := (pack (L.members x)).cast L.width_eq

/-- The structure in a word. -/
def ofRaw (x : BitVec n) : α := L.members.symm (unpack L.widths (x.cast L.width_eq.symm))

theorem ofRaw_raw (x : α) : L.ofRaw (L.raw x) = x := by
  rw [ofRaw, raw, BitVec.cast_cast, BitVec.cast_eq, unpack_pack, Equiv.symm_apply_apply]

theorem raw_ofRaw (x : BitVec n) : L.raw (L.ofRaw x) = x := by
  rw [ofRaw, raw, Equiv.apply_symm_apply, pack_unpack, BitVec.cast_cast, BitVec.cast_eq]

/-- The members, from the number of the word. -/
theorem ofRaw_eq (x : BitVec n) :
    L.ofRaw x = L.members.invFun (fieldsOfNat L.widths x.toNat) := by
  rw [ofRaw, unpack_eq_fieldsOfNat, BitVec.toNat_cast]
  rfl

end Layout

end BitStructs
