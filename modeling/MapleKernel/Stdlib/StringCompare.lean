/-
  File:      Stdlib/StringCompare.lean
  Subject:   `strcmp` AND `strncmp` (`string.c`).

  A pointer into a string is the list of the bytes from there to the end of the object. A read
  behind the end is a fault, so on the object of a string alone a result means that nothing was read
  behind its NUL. The functions compare `unsigned char`s. A string is not `NULL`: the check of the
  debug build is left out.

  * `strcmp`, `strncmp` -- from the source;
  * `Compares` -- the sign of a result is the lexicographic order of the bytes;
  * `strcmp_compares`, `strncmp_eq_strcmp` -- it is for `strcmp`, and `strncmp` is `strcmp` of the
    prefixes;
  * `stringCompare_order` -- both, what follows for the order, and what is read.
-/
import MapleKernel.Lib.CString

namespace MapleKernel.Stdlib

open CStrings

/-! ## 1. The functions -/

inductive ReadFault where
  | outOfBounds
  deriving DecidableEq, Repr

def strcmp : List UInt8 → List UInt8 → Except ReadFault Int
  | c :: us1, d :: us2 =>
      if c ≠ 0 ∧ c = d then strcmp us1 us2 else .ok ((c.toNat : Int) - d.toNat)
  | _, _ => .error .outOfBounds

/-- The loop of `strncmp`, on what is left of `len` and of the strings. -/
def strncmpLoop : Nat → List UInt8 → List UInt8 → Except ReadFault Int
  | 0, _, _ => .ok 0
  | left + 1, c :: us1, d :: us2 =>
      if c ≠ d then .ok ((c.toNat : Int) - d.toNat)
      else if c = 0 then .ok 0
      else strncmpLoop left us1 us2
  | _ + 1, _, _ => .error .outOfBounds

def strncmp (us1 us2 : List UInt8) (len : Nat) : Except ReadFault Int :=
  if len = 0 then .ok 0 else strncmpLoop len us1 us2

/-! ## 2. The order -/

/-- The sign of `r` is the lexicographic order of the bytes. -/
structure Compares (s t : CString) (r : Int) : Prop where
  lt_iff : r < 0 ↔ s.bytes < t.bytes
  eq_iff : r = 0 ↔ s = t
  gt_iff : 0 < r ↔ t.bytes < s.bytes

section Order

variable {s t : CString} {c d : UInt8} {hc : c ≠ 0} {hd : d ≠ 0}

theorem compares_cons_self {r : Int} (h : Compares s t r) :
    Compares (.cons c hc s) (.cons c hc t) r where
  lt_iff := by
    rw [h.lt_iff]
    exact (List.cons_lt_cons_self).symm
  eq_iff := by
    rw [h.eq_iff, CString.ext_iff, CString.ext_iff]
    exact (List.cons_inj_right c).symm
  gt_iff := by
    rw [h.gt_iff]
    exact (List.cons_lt_cons_self).symm

/-- The first bytes that differ decide. -/
theorem compares_cons_of_ne (hne : c ≠ d) :
    Compares (.cons c hc s) (.cons d hd t) ((c.toNat : Int) - d.toNat) where
  lt_iff := by
    have hlt : (c :: s.bytes < d :: t.bytes) ↔ c < d := by simp [List.cons_lt_cons_iff, hne]
    refine Iff.trans ?_ hlt.symm
    rw [UInt8.lt_iff_toNat_lt]
    omega
  eq_iff := by
    refine iff_of_false (fun h => hne (UInt8.toNat_inj.mp (by omega))) fun h => ?_
    exact hne (List.cons_eq_cons.mp (congrArg CString.bytes h)).1
  gt_iff := by
    have hlt : (d :: t.bytes < c :: s.bytes) ↔ d < c := by
      simp [List.cons_lt_cons_iff, hne.symm]
    refine Iff.trans ?_ hlt.symm
    rw [UInt8.lt_iff_toNat_lt]
    omega

theorem toNat_pos_of_ne_zero (hc : c ≠ 0) : 0 < c.toNat :=
  Nat.pos_of_ne_zero fun h => hc (UInt8.toNat_inj.mp h)

/-- The NUL is below every byte. -/
theorem compares_nil_cons (hc : c ≠ 0) (s : CString) :
    Compares .nil (.cons c hc s) (((0 : UInt8).toNat : Int) - c.toNat) where
  lt_iff := iff_of_true (by have := toNat_pos_of_ne_zero hc; simp; omega) (List.nil_lt_cons _ _)
  eq_iff := iff_of_false (by have := toNat_pos_of_ne_zero hc; simp; omega) fun h =>
    absurd (congrArg CString.bytes h) (List.cons_ne_nil _ _).symm
  gt_iff := iff_of_false (by simp) (List.not_lt_nil _)

theorem compares_nil_nil : Compares .nil .nil 0 where
  lt_iff := iff_of_false (Int.lt_irrefl 0) (List.not_lt_nil _)
  eq_iff := iff_of_true rfl rfl
  gt_iff := iff_of_false (Int.lt_irrefl 0) (List.not_lt_nil _)

theorem Compares.swap {r : Int} (h : Compares s t r) : Compares t s (-r) where
  lt_iff := by
    rw [← h.gt_iff]
    omega
  eq_iff := by
    rw [eq_comm (a := t), ← h.eq_iff]
    omega
  gt_iff := by
    rw [← h.lt_iff]
    omega

theorem Compares.le_iff {r : Int} (h : Compares s t r) : r ≤ 0 ↔ s.bytes ≤ t.bytes := by
  rw [← List.not_lt, ← h.gt_iff]
  omega

theorem Compares.unique_sign {r r' : Int} (h : Compares s t r) (h' : Compares s t r') :
    r.sign = r'.sign := by
  rcases Int.lt_trichotomy r 0 with hr | hr | hr
  · rw [Int.sign_eq_neg_one_of_neg hr,
      Int.sign_eq_neg_one_of_neg (h'.lt_iff.mpr (h.lt_iff.mp hr))]
  · rw [hr, h'.eq_iff.mpr (h.eq_iff.mp hr)]
  · rw [Int.sign_eq_one_of_pos hr, Int.sign_eq_one_of_pos (h'.gt_iff.mpr (h.gt_iff.mp hr))]

end Order

/-! ## 3. What the functions compute -/

section Results

variable {c d : UInt8} {us1 us2 : List UInt8}

theorem strcmp_of_eq (hc : c ≠ 0) : strcmp (c :: us1) (c :: us2) = strcmp us1 us2 :=
  if_pos ⟨hc, rfl⟩

/-- The loop ends where the bytes differ, and at the NUL of the first string. -/
theorem strcmp_of_end (h : c = 0 ∨ c ≠ d) :
    strcmp (c :: us1) (d :: us2) = .ok ((c.toNat : Int) - d.toNat) :=
  if_neg fun hgo => h.elim hgo.1 fun hne => hne hgo.2

theorem strncmpLoop_of_eq (hc : c ≠ 0) (left : Nat) :
    strncmpLoop (left + 1) (c :: us1) (c :: us2) = strncmpLoop left us1 us2 := by
  rw [strncmpLoop, if_neg (not_not.mpr rfl), if_neg hc]

theorem strncmpLoop_of_ne (hne : c ≠ d) (left : Nat) :
    strncmpLoop (left + 1) (c :: us1) (d :: us2) = .ok ((c.toNat : Int) - d.toNat) :=
  if_pos hne

/-- Against a string of as many bytes as it reads, the loop says whether they are its bytes. -/
theorem strncmpLoop_of_length (rest : List UInt8) (hlen : us1.length = us2.length)
    (hnul : 0 ∉ us2) :
    ∃ r, strncmpLoop us2.length us1 (us2 ++ rest) = .ok r ∧ (r = 0 ↔ us1 = us2) := by
  induction us2 generalizing us1 with
  | nil => exact ⟨0, rfl, iff_of_true rfl (List.length_eq_zero_iff.mp hlen)⟩
  | cons d us2 ih =>
      cases us1 with
      | nil => cases hlen
      | cons c us1 =>
          obtain ⟨hd, hrest⟩ := List.ne_and_not_mem_of_not_mem_cons hnul
          by_cases hne : c = d
          · subst hne
            obtain ⟨r, hr, hzero⟩ := ih (Nat.succ.inj hlen) hrest
            refine ⟨r, (strncmpLoop_of_eq (Ne.symm hd) us2.length).trans hr, hzero.trans ?_⟩
            rw [List.cons_inj_right]
          · refine ⟨_, strncmpLoop_of_ne hne us2.length, iff_of_false ?_ ?_⟩
            · rw [Int.sub_eq_zero, Int.natCast_inj, UInt8.toNat_inj]
              exact hne
            · exact fun h => hne (List.cons.inj h).1

variable (s t : CString) (rest rest' : List UInt8)

/-- **`strcmp` compares**, whatever lies behind the strings. -/
theorem strcmp_compares : ∃ r,
    (∀ rest rest', strcmp (s.block ++ rest) (t.block ++ rest') = .ok r) ∧ Compares s t r := by
  induction s generalizing t with
  | nil =>
      cases t with
      | nil => exact ⟨0, fun _ _ => strcmp_of_end (Or.inl rfl), compares_nil_nil⟩
      | cons d hd t => exact ⟨_, fun _ _ => strcmp_of_end (Or.inl rfl), compares_nil_cons hd t⟩
  | cons c hc s ih =>
      cases t with
      | nil =>
          refine ⟨(c.toNat : Int) - (0 : UInt8).toNat, fun _ _ => strcmp_of_end (Or.inr hc), ?_⟩
          rw [← Int.neg_sub]
          exact (compares_nil_cons hc s).swap
      | cons d hd t =>
          by_cases hne : c = d
          · subst hne
            obtain ⟨r, hr, hcompares⟩ := ih t
            refine ⟨r, fun rest rest' => ?_, compares_cons_self hcompares⟩
            exact (strcmp_of_eq hc).trans (hr rest rest')
          · exact ⟨_, fun _ _ => strcmp_of_end (Or.inr hne), compares_cons_of_ne hne⟩

/-- **`strncmp` is `strcmp` of the prefixes**, whatever lies behind the first `n` bytes. -/
theorem strncmp_eq_strcmp (n : Nat) :
    strncmp (s.block.take n ++ rest) (t.block.take n ++ rest') n
      = strcmp (s.take n).block (t.take n).block := by
  have hloop : strncmp (s.block.take n ++ rest) (t.block.take n ++ rest') n
      = strncmpLoop n (s.block.take n ++ rest) (t.block.take n ++ rest') := by
    cases n with
    | zero => rfl
    | succ n => exact if_neg n.succ_ne_zero
  rw [hloop]
  clear hloop
  induction n generalizing s t with
  | zero => rfl
  | succ n ih =>
      cases s with
      | nil =>
          cases t with
          | nil => rfl
          | cons d hd t =>
              exact (strncmpLoop_of_ne hd.symm n).trans (strcmp_of_end (Or.inl rfl)).symm
      | cons c hc s =>
          cases t with
          | nil => exact (strncmpLoop_of_ne hc n).trans (strcmp_of_end (Or.inr hc)).symm
          | cons d hd t =>
              by_cases hne : c = d
              · subst hne
                exact (strncmpLoop_of_eq hc n).trans ((ih s t).trans (strcmp_of_eq hc).symm)
              · exact (strncmpLoop_of_ne hne n).trans (strcmp_of_end (Or.inr hne)).symm

end Results

/-- **The order of strings.** The sign of `strcmp` is the lexicographic order of the unsigned bytes,
    so the result of the other order has the other sign, and the results are transitive. `strncmp`
    has the sign of `strcmp` on the prefixes. A result does not depend on what lies behind the NUL
    of a string, or behind its first `n` bytes, and there need not be anything. -/
theorem stringCompare_order :
    (∀ s t : CString, ∃ r,
      (∀ rest rest', strcmp (s.block ++ rest) (t.block ++ rest') = .ok r) ∧ Compares s t r) ∧
    (∀ s t : CString, ∃ r r', strcmp s.block t.block = .ok r ∧ strcmp t.block s.block = .ok r' ∧
      r'.sign = -r.sign) ∧
    (∀ s t u : CString, ∃ r r' r'', strcmp s.block t.block = .ok r ∧
      strcmp t.block u.block = .ok r' ∧ strcmp s.block u.block = .ok r'' ∧
      (r < 0 → r' < 0 → r'' < 0) ∧ (r ≤ 0 → r' ≤ 0 → r'' ≤ 0)) ∧
    ∀ (s t : CString) (n : Nat), ∃ r r',
      (∀ rest rest', strncmp (s.block.take n ++ rest) (t.block.take n ++ rest') n = .ok r) ∧
      strcmp (s.take n).block (t.take n).block = .ok r' ∧ r.sign = r'.sign := by
  have hblock : ∀ s t : CString, ∃ r, strcmp s.block t.block = .ok r ∧ Compares s t r := by
    intro s t
    obtain ⟨r, hr, hcompares⟩ := strcmp_compares s t
    have hnil := hr [] []
    rw [List.append_nil, List.append_nil] at hnil
    exact ⟨r, hnil, hcompares⟩
  refine ⟨strcmp_compares, fun s t => ?_, fun s t u => ?_, fun s t n => ?_⟩
  · obtain ⟨r, hr, hst⟩ := hblock s t
    obtain ⟨r', hr', hts⟩ := hblock t s
    refine ⟨r, r', hr, hr', ?_⟩
    rw [hts.unique_sign hst.swap, Int.sign_neg]
  · obtain ⟨r, hr, hst⟩ := hblock s t
    obtain ⟨r', hr', htu⟩ := hblock t u
    obtain ⟨r'', hr'', hsu⟩ := hblock s u
    refine ⟨r, r', r'', hr, hr', hr'', ?_, ?_⟩
    · rw [hst.lt_iff, htu.lt_iff, hsu.lt_iff]
      exact List.lt_trans
    · rw [hst.le_iff, htu.le_iff, hsu.le_iff]
      exact List.le_trans
  · obtain ⟨r, hr, -⟩ := hblock (s.take n) (t.take n)
    refine ⟨r, r, fun rest rest' => ?_, hr, rfl⟩
    rw [strncmp_eq_strcmp]
    exact hr

end MapleKernel.Stdlib
