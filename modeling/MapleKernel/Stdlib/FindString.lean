/-
  File:      Stdlib/FindString.lean
  Subject:   `find_string_offset` (`stdlib.c`): the first place of a needle in a haystack.

  The lengths and indices are `int`s: a result outside their range is a fault, and so is a read
  outside the haystack or behind the NUL of the needle.

  * `findStringOffset` -- from the source;
  * `OccursAt` -- the needle stands in the haystack at an offset;
  * `matchLoop_eq`, `searchLoop_eq` -- the inner loop tests that, the outer one finds the least;
  * `findStringOffset_least` -- without a fault, for every haystack and every needle in range.
-/
import MapleKernel.Lib.Buffer
import MapleKernel.Lib.CString

namespace MapleKernel.Stdlib

open Buffers CStrings

/-! ## 1. The function -/

inductive SearchFault where
  | outOfBounds
  | intOverflow
  deriving DecidableEq, Repr

/-- A result of `int` arithmetic has to be in the range of `int`. -/
def checkInt (x : Int) : Except SearchFault Unit :=
  if -2 ^ 31 ≤ x ∧ x < 2 ^ 31 then .ok () else .error .intOverflow

/-- `bytes[k]`. -/
def readAt (bytes : List UInt8) (k : Int) : Except SearchFault UInt8 :=
  if 0 ≤ k ∧ k < bytes.length then .ok (bytes.getD k.toNat 0) else .error .outOfBounds

/-- The loop over the needle, from `p` to the end of its object; `none` is its early `return -1`. -/
def needleLoop : List UInt8 → Int → Except SearchFault (Option Int)
  | [], _ => .error .outOfBounds
  | c :: p, needleLen =>
      if c ≠ 0 then do
        checkInt (needleLen + 1)
        if needleLen + 1 > 4096 then return none
        needleLoop p (needleLen + 1)
      else return some needleLen

/-- The inner loop: `match` at its end. -/
def matchLoop (haystack needle : List UInt8) (needleLen i j : Int) : Except SearchFault Bool :=
  if j < needleLen then do
    checkInt (i + j)
    let h ← readAt haystack (i + j)
    let n ← readAt needle j
    if h ≠ n then return false
    checkInt (j + 1)
    matchLoop haystack needle needleLen i (j + 1)
  else return true
termination_by (needleLen - j).toNat

/-- The outer loop. -/
def searchLoop (haystack needle : List UInt8) (haystackLen needleLen i : Int) :
    Except SearchFault Int := do
  checkInt (haystackLen - needleLen)
  if i ≤ haystackLen - needleLen then
    if ← matchLoop haystack needle needleLen i 0 then return i
    checkInt (i + 1)
    searchLoop haystack needle haystackLen needleLen (i + 1)
  else return -1
termination_by (haystackLen - needleLen + 1 - i).toNat

/-- A pointer is `NULL`, or leads to the bytes from there to the end of the object. -/
def findStringOffset (haystack : Option (List UInt8)) (haystackLen : Int)
    (needle : Option (List UInt8)) : Except SearchFault Int :=
  match haystack, needle with
  | some haystack, some needle =>
      if haystackLen ≤ 0 then return -1
      else do
        match ← needleLoop needle 0 with
        | none => return -1
        | some needleLen =>
            if needleLen = 0 then return 0
            else searchLoop haystack needle haystackLen needleLen 0
  | _, _ => return -1

/-! ## 2. The loops -/

/-- The needle stands in the haystack at offset `i`. -/
def OccursAt (haystack : List UInt8) (needle : CString) (i : Nat) : Prop :=
  needle.bytes <+: haystack.drop i

instance (haystack : List UInt8) (needle : CString) (i : Nat) :
    Decidable (OccursAt haystack needle i) := inferInstanceAs (Decidable (_ <+: _))

/-- `r` is the least offset of the needle, or -1 if there is none. -/
def FindsLeast (haystack : List UInt8) (needle : CString) (r : Int) : Prop :=
  (∃ i : Nat, r = i ∧ IsLeast {k | OccursAt haystack needle k} i) ∨
    r = -1 ∧ ∀ k, ¬ OccursAt haystack needle k

theorem checkInt_of {x : Int} (hlo : -2 ^ 31 ≤ x) (hhi : x < 2 ^ 31) : checkInt x = .ok () :=
  if_pos ⟨hlo, hhi⟩

theorem readAt_of {bytes : List UInt8} {k : Nat} (hk : k < bytes.length) :
    readAt bytes k = .ok bytes[k] := by
  rw [readAt, if_pos ⟨by omega, by omega⟩, Int.toNat_natCast, List.getD_eq_getElem _ _ hk]

/-- The needle is counted up to its NUL. -/
theorem needleLoop_eq (needle : CString) {n : Nat} (h : n + needle.bytes.length ≤ 4096) :
    needleLoop needle.block n = .ok (some ((n + needle.bytes.length : Nat) : Int)) := by
  induction needle generalizing n with
  | nil => rfl
  | cons c hc s ih =>
      have hlen : (CString.cons c hc s).bytes.length = s.bytes.length + 1 := rfl
      rw [hlen] at h ⊢
      have hrest := @ih (n + 1) (by omega)
      have hsum : n + 1 + s.bytes.length = n + (s.bytes.length + 1) := by omega
      rw [hsum, Nat.cast_add, Nat.cast_one] at hrest
      rw [CString.block_cons, needleLoop, if_pos hc,
        bind_of_ok (checkInt_of (by omega) (by omega))]
      exact (if_neg (by omega)).trans hrest

section Search

variable {haystack : List UInt8} {needle : CString} {i j : Nat}

theorem occursAt_le (hne : 0 < needle.bytes.length) (h : OccursAt haystack needle i) :
    i + needle.bytes.length ≤ haystack.length := by
  have hle := h.length_le
  rw [List.length_drop] at hle
  omega

/-- **The inner loop**: from index `j` on it compares the rest of the needle. -/
theorem matchLoop_eq (hlen : haystack.length < 2 ^ 31)
    (hi : i + needle.bytes.length ≤ haystack.length) (hj : j ≤ needle.bytes.length) :
    matchLoop haystack needle.block needle.bytes.length i j =
      .ok (decide (needle.bytes.drop j <+: haystack.drop (i + j))) := by
  induction hleft : needle.bytes.length - j generalizing j with
  | zero =>
      obtain rfl : j = needle.bytes.length := by omega
      rw [matchLoop, if_neg (by omega), List.drop_length]
      exact congrArg Except.ok (decide_eq_true List.nil_prefix).symm
  | succ left ih =>
      have hblock : j < needle.block.length := by
        rw [CString.block, List.length_append]
        omega
      have hcell : needle.block[j] = needle.bytes[j] := List.getElem_append_left (by omega)
      have hread := @readAt_of haystack (i + j) (by omega)
      have hnext := @ih (j + 1) (by omega) (by omega)
      rw [Nat.cast_add] at hread
      rw [Nat.cast_add, Nat.cast_one] at hnext
      rw [matchLoop, if_pos (by omega), bind_of_ok (checkInt_of (by omega) (by omega)),
        bind_of_ok hread, bind_of_ok (readAt_of hblock), hcell,
        List.drop_eq_getElem_cons (by omega), List.drop_eq_getElem_cons (i := i + j) (by omega)]
      simp only [List.cons_prefix_cons]
      by_cases hsame : needle.bytes[j] = haystack[i + j]
      · refine (if_neg (not_not.mpr hsame.symm)).trans ?_
        rw [bind_of_ok (checkInt_of (by omega) (by omega)), hnext]
        simp only [hsame, true_and, Nat.add_assoc]
      · refine (if_pos (Ne.symm hsame)).trans ?_
        simp only [hsame, false_and, decide_false]
        rfl

/-- **The outer loop**: with no occurrence before `i` it finds the least one. -/
theorem searchLoop_eq (hlen : haystack.length < 2 ^ 31) (hne : 0 < needle.bytes.length)
    (hmax : needle.bytes.length ≤ 4096) (hbefore : ∀ k, k < i → ¬ OccursAt haystack needle k) :
    ∃ r, searchLoop haystack needle.block haystack.length needle.bytes.length i = .ok r ∧
      FindsLeast haystack needle r := by
  induction hleft : haystack.length + 1 - i using Nat.strong_induction_on generalizing i with
  | _ left ih =>
      rw [searchLoop, bind_of_ok (checkInt_of (by omega) (by omega))]
      by_cases hin : i + needle.bytes.length ≤ haystack.length
      · have hmatch := matchLoop_eq (j := 0) hlen hin (Nat.zero_le _)
        rw [Nat.cast_zero, List.drop_zero, Nat.add_zero] at hmatch
        rw [if_pos (by omega), bind_of_ok hmatch]
        by_cases hocc : OccursAt haystack needle i
        · refine ⟨i, if_pos (decide_eq_true hocc), Or.inl ⟨i, rfl, hocc, fun k hk => ?_⟩⟩
          exact Nat.le_of_not_lt fun hlt => hbefore k hlt hk
        · have hnext : ∀ k, k < i + 1 → ¬ OccursAt haystack needle k := by
            intro k hk
            rcases Nat.lt_succ_iff_lt_or_eq.mp hk with hlt | rfl
            · exact hbefore k hlt
            · exact hocc
          obtain ⟨r, hr, hfinds⟩ := ih (haystack.length + 1 - (i + 1)) (by omega) hnext rfl
          refine ⟨r, (if_neg (by rw [decide_eq_true_iff]; exact hocc)).trans ?_, hfinds⟩
          rw [Nat.cast_add, Nat.cast_one] at hr
          exact (bind_of_ok (checkInt_of (by omega) (by omega)) _).trans hr
      · refine ⟨-1, if_neg (by omega), Or.inr ⟨rfl, fun k hk => ?_⟩⟩
        have hfits := occursAt_le hne hk
        exact hbefore k (by omega) hk

end Search

theorem FindsLeast.eq_neg_one_iff {haystack : List UInt8} {needle : CString} {r : Int}
    (h : FindsLeast haystack needle r) : r = -1 ↔ ∀ k, ¬ OccursAt haystack needle k := by
  rcases h with ⟨i, rfl, hleast⟩ | ⟨rfl, hnone⟩
  · exact iff_of_false (by omega) fun hnone => hnone i hleast.1
  · exact iff_of_true rfl hnone

/-- **`find_string_offset` finds the least offset of the needle**, 0 for the empty one, and returns
    -1 exactly if the needle does not occur. No read is outside the haystack, and no `int`
    overflows: there is no fault. -/
theorem findStringOffset_least (haystack : List UInt8) (needle : CString)
    (hpos : 1 ≤ haystack.length) (hlen : haystack.length ≤ 2 ^ 31 - 1)
    (hmax : needle.bytes.length ≤ 4096) :
    ∃ r, findStringOffset (some haystack) haystack.length (some needle.block) = .ok r ∧
      FindsLeast haystack needle r ∧ (needle.bytes = [] → r = 0) ∧
      (r = -1 ↔ ∀ k, ¬ OccursAt haystack needle k) := by
  have hcount := needleLoop_eq needle (n := 0) (by omega)
  rw [Nat.cast_zero, Nat.zero_add] at hcount
  have hstart : findStringOffset (some haystack) haystack.length (some needle.block) =
      if (needle.bytes.length : Int) = 0 then .ok 0
      else searchLoop haystack needle.block haystack.length needle.bytes.length 0 := by
    rw [findStringOffset, if_neg (by omega), hcount]
    rfl
  rw [hstart]
  by_cases hempty : needle.bytes = []
  · have hfinds : FindsLeast haystack needle 0 := by
      refine Or.inl ⟨0, rfl, ?_, fun k _ => Nat.zero_le k⟩
      show needle.bytes <+: haystack.drop 0
      rw [hempty]
      exact List.nil_prefix
    exact ⟨0, if_pos (by rw [hempty]; rfl), hfinds, fun _ => rfl, hfinds.eq_neg_one_iff⟩
  · have hne : 0 < needle.bytes.length := List.length_pos_iff.mpr hempty
    have hshort : haystack.length < 2 ^ 31 := by omega
    obtain ⟨r, hr, hfinds⟩ :=
      searchLoop_eq (i := 0) hshort hne hmax fun k hk => absurd hk (Nat.not_lt_zero k)
    exact ⟨r, (if_neg (by omega)).trans hr, hfinds, fun h => absurd h hempty,
      hfinds.eq_neg_one_iff⟩

/-- `ab` in `aab`. -/
theorem findStringOffset_least_overlapping : ∃ r,
    findStringOffset (some [0x61, 0x61, 0x62]) 3 (some [0x61, 0x62, 0]) = .ok r ∧
      FindsLeast [0x61, 0x61, 0x62] ⟨[0x61, 0x62], by decide⟩ r ∧
      (([0x61, 0x62] : List UInt8) = [] → r = 0) ∧
      (r = -1 ↔ ∀ k, ¬ OccursAt [0x61, 0x61, 0x62] ⟨[0x61, 0x62], by decide⟩ k) :=
  findStringOffset_least [0x61, 0x61, 0x62] ⟨[0x61, 0x62], by decide⟩ (by decide) (by decide)
    (by decide)

end MapleKernel.Stdlib
