/-
  File:      Lib/CString.lean
  Subject:   NUL-TERMINATED STRINGS.

  A C string is its bytes, none of them NUL; in memory a NUL stands behind them.

  * `CString`, `CString.block` -- the string, and the object of exactly its bytes and the NUL: a
    function that returns when it is given this object has not read past the NUL;
  * `HoldsString m p s` -- memory `m` holds the string `s` from `p` on;
  * `holdsString_nil_iff`, `holdsString_cons_iff` -- one byte after the other;
  * `readString` -- the bytes up to the NUL, in an array of a given size: `readString_ok`.
-/
import Mathlib

namespace CStrings

@[ext]
structure CString where
  bytes : List UInt8
  nul_not_mem : 0 ∉ bytes
  deriving DecidableEq

namespace CString

/-- The bytes and the NUL. -/
def block (s : CString) : List UInt8 := s.bytes ++ [0]

def nil : CString := ⟨[], List.not_mem_nil⟩

def cons (c : UInt8) (hc : c ≠ 0) (s : CString) : CString :=
  ⟨c :: s.bytes, fun h => (List.mem_cons.mp h).elim (hc ·.symm) s.nul_not_mem⟩

/-- The string of the first `n` bytes, if there are so many. -/
def take (n : Nat) (s : CString) : CString :=
  ⟨s.bytes.take n, fun h => s.nul_not_mem (List.mem_of_mem_take h)⟩

/-- A string is empty, or a byte in front of a string. -/
@[elab_as_elim, induction_eliminator, cases_eliminator]
theorem rec_cons {motive : CString → Prop} (nil : motive nil)
    (cons : ∀ c hc s, motive s → motive (cons c hc s)) (s : CString) : motive s := by
  obtain ⟨bytes, hbytes⟩ := s
  induction bytes with
  | nil => exact nil
  | cons c cs ih =>
      have hc : c ≠ 0 := fun e => hbytes (List.mem_cons.mpr (Or.inl e.symm))
      exact cons c hc ⟨cs, fun h => hbytes (List.mem_cons_of_mem c h)⟩ (ih _)

@[simp] theorem block_nil : nil.block = [0] := rfl

@[simp] theorem block_cons (c : UInt8) (hc : c ≠ 0) (s : CString) :
    (cons c hc s).block = c :: s.block := rfl

@[simp] theorem take_zero (s : CString) : take 0 s = nil := rfl

@[simp] theorem take_nil (n : Nat) : take n nil = nil := CString.ext List.take_nil

@[simp] theorem take_succ_cons (n : Nat) (c : UInt8) (hc : c ≠ 0) (s : CString) :
    take (n + 1) (cons c hc s) = cons c hc (take n s) := rfl

end CString

/-! ## Strings in memory -/

/-- From `p` on, the memory holds the bytes of `s` and a NUL. -/
def HoldsString (m : Nat → UInt8) (p : Nat) (s : CString) : Prop :=
  ∀ k c, s.block[k]? = some c → m (p + k) = c

variable {m : Nat → UInt8} {p : Nat} {s s' : CString}

theorem holdsString_nil_iff : HoldsString m p CString.nil ↔ m p = 0 := by
  constructor
  · exact fun h => h 0 0 rfl
  · intro h k c hk
    cases k with
    | zero => exact h.trans (Option.some.inj hk)
    | succ k => cases hk

theorem holdsString_cons_iff {c : UInt8} {hc : c ≠ 0} :
    HoldsString m p (CString.cons c hc s) ↔ m p = c ∧ HoldsString m (p + 1) s := by
  constructor
  · intro h
    refine ⟨h 0 c rfl, fun k d hk => ?_⟩
    have hnext := h (k + 1) d hk
    rwa [Nat.add_comm k 1, ← Nat.add_assoc] at hnext
  · rintro ⟨hp, hrest⟩ k d hk
    cases k with
    | zero => exact hp.trans (Option.some.inj hk)
    | succ k =>
        have hnext := hrest k d hk
        rwa [Nat.add_assoc, Nat.add_comm 1 k] at hnext

/-! ## Strings in an array -/

section Read

variable {ε : Type*} (e : ε) (size : Nat)

/-- The bytes from `p` on up to the first NUL; an array without one is left, which is the
    fault `e`. -/
def readString (m : Nat → UInt8) (p : Nat) : Except ε (List UInt8) :=
  if p < size then
    if m p = 0 then .ok [] else (m p :: ·) <$> readString m (p + 1)
  else .error e
termination_by size - p

variable {e size}

/-- A string whose NUL is in the array is read. -/
theorem readString_ok (h : HoldsString m p s) (hlt : p + s.bytes.length < size) :
    readString e size m p = .ok s.bytes := by
  induction s generalizing p with
  | nil =>
      rw [readString, if_pos (Nat.lt_of_le_of_lt (Nat.le_add_right p _) hlt),
        if_pos (holdsString_nil_iff.mp h)]
      rfl
  | cons c hc s ih =>
      obtain ⟨hp, hrest⟩ := holdsString_cons_iff.mp h
      have hlen : p + (s.bytes.length + 1) < size := hlt
      have hne : m p ≠ 0 := fun h0 => hc (hp.symm.trans h0)
      rw [readString, if_pos (by omega), if_neg hne, ih hrest (by omega), hp]
      rfl

end Read

end CStrings
