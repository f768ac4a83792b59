/-
  File:      Lib/StructLayout.lean
  Subject:   WHERE A C COMPILER PLACES THE MEMBERS OF A STRUCTURE.

  Members stand in the order of their declaration. Each begins at the next multiple of the alignment
  of its type; in a packed structure it begins where the one before it ends.

  * `placesFrom`, `Struct.places` -- the rule;
  * `placesFrom_end_le` -- no member ends behind the end of the last.
-/
import Mathlib

namespace StructLayout

/-- What the rule asks of a type. -/
structure MemberType where
  size : Nat
  align : Nat
  align_pos : 0 < align

def uint8 : MemberType := ⟨1, 1, by decide⟩

def uint16 : MemberType := ⟨2, 2, by decide⟩

def uint32 : MemberType := ⟨4, 4, by decide⟩

/-- The i386 ABI aligns 64-bit integers to 4 bytes. -/
def uint64 : MemberType := ⟨8, 4, by decide⟩

def MemberType.array (t : MemberType) (n : Nat) : MemberType := ⟨n * t.size, t.align, t.align_pos⟩

/-- The next multiple of `a` from `o` on. -/
def roundUp (o a : Nat) : Nat := (o + (a - 1)) / a * a

theorem le_roundUp {o a : Nat} (ha : 0 < a) : o ≤ roundUp o a := by
  have hdiv := Nat.div_add_mod (o + (a - 1)) a
  have hmod := Nat.mod_lt (o + (a - 1)) ha
  rw [Nat.mul_comm] at hdiv
  unfold roundUp
  omega

section Places

variable {ν : Type*}

/-- The alignment a member is placed at. -/
def placedAlign (packed : Bool) (t : MemberType) : Nat := if packed then 1 else t.align

/-- Name, offset and size of each member; the first may begin at `o`. -/
def placesFrom (packed : Bool) : Nat → List (ν × MemberType) → List (ν × Nat × Nat)
  | _, [] => []
  | o, (m, t) :: ms =>
      let start := roundUp o (placedAlign packed t)
      (m, start, t.size) :: placesFrom packed (start + t.size) ms

/-- Where the last of them ends. -/
def endFrom (packed : Bool) : Nat → List (ν × MemberType) → Nat
  | o, [] => o
  | o, (_, t) :: ms => endFrom packed (roundUp o (placedAlign packed t) + t.size) ms

variable {packed : Bool} {o : Nat} {ms : List (ν × MemberType)}

theorem placedAlign_pos (packed : Bool) (t : MemberType) : 0 < placedAlign packed t := by
  cases packed with
  | false => exact t.align_pos
  | true => exact Nat.one_pos

theorem le_endFrom (packed : Bool) (o : Nat) (ms : List (ν × MemberType)) :
    o ≤ endFrom packed o ms := by
  induction ms generalizing o with
  | nil => exact Nat.le_refl o
  | cons e ms ih =>
      have hstart := le_roundUp (o := o) (placedAlign_pos packed e.2)
      exact le_trans (by omega) (ih (roundUp o (placedAlign packed e.2) + e.2.size))

/-- **No member ends behind the end of the last.** -/
theorem placesFrom_end_le {p : ν × Nat × Nat} (hp : p ∈ placesFrom packed o ms) :
    p.2.1 + p.2.2 ≤ endFrom packed o ms := by
  induction ms generalizing o with
  | nil => exact absurd hp (List.not_mem_nil)
  | cons e ms ih =>
      rcases List.mem_cons.mp hp with rfl | hp
      · exact le_endFrom packed _ ms
      · exact ih hp

end Places

/-- A structure as it is declared. -/
structure Struct (ν : Type*) where
  packed : Bool
  members : List (ν × MemberType)

namespace Struct

variable {ν : Type*}

def places (s : Struct ν) : List (ν × Nat × Nat) := placesFrom s.packed 0 s.members

/-- Where the last member ends. -/
def extent (s : Struct ν) : Nat := endFrom s.packed 0 s.members

/-- Its alignment as a member of another structure. -/
def align (s : Struct ν) : Nat :=
  s.members.foldr (fun e a => Nat.max (placedAlign s.packed e.2) a) 1

theorem align_pos (s : Struct ν) : 0 < s.align := by
  unfold align
  induction s.members with
  | nil => exact Nat.one_pos
  | cons e ms ih => exact lt_of_lt_of_le ih (Nat.le_max_right _ _)

/-- A structure as a member of another one. -/
def asMember (s : Struct ν) : MemberType := ⟨roundUp s.extent s.align, s.align, s.align_pos⟩

/-- Offset and size of a member. -/
def place [DecidableEq ν] (s : Struct ν) (m : ν) : Option (Nat × Nat) := s.places.lookup m

theorem place_end_le [DecidableEq ν] {s : Struct ν} {m : ν} {p : Nat × Nat}
    (h : s.place m = some p) : p.1 + p.2 ≤ s.extent := by
  obtain ⟨l, r, hsplit, -⟩ := List.lookup_eq_some_iff.mp h
  have hmem : (m, p) ∈ s.places := by
    rw [hsplit]
    exact List.mem_append_right _ List.mem_cons_self
  exact placesFrom_end_le hmem

end Struct

end StructLayout
