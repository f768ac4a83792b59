/-
  File:      Lib/X86/Memory.lean
  Subject:   BYTES AND WORDS AT 32-BIT ADDRESSES, little-endian.

  * `load`, `store` -- the number in `n` bytes, and its bytes put there;
  * `load_store`, `store_of_outside` -- what a store leaves, at its place and elsewhere;
  * `Words` -- 32-bit words one behind the other; `Words.poke` is the store into one of them.
-/
import Mathlib

namespace X86

/-- The address space. -/
abbrev Memory := UInt32 → UInt8

/-! ## 1. One number -/

/-- The number in the `n` bytes from `a` on. -/
def load (m : Memory) : UInt32 → Nat → Nat
  | _, 0 => 0
  | a, n + 1 => (m a).toNat + 256 * load m (a + 1) n

/-- The low `n` bytes of `v` are put from `a` on. -/
def store (m : Memory) (a : UInt32) (n v : Nat) : Memory := fun x =>
  if (x - a).toNat < n then .ofNat (v / 256 ^ (x - a).toNat) else m x

section Number

variable {m m' : Memory} {a x : UInt32} {n v : Nat}

theorem ofNat_add_one (a : UInt32) (i : Nat) : a + 1 + .ofNat i = a + .ofNat (i + 1) := by
  rw [UInt32.ofNat_add, UInt32.add_assoc, UInt32.add_comm (.ofNat i)]
  rfl

theorem load_congr (h : ∀ i, i < n → m (a + .ofNat i) = m' (a + .ofNat i)) :
    load m a n = load m' a n := by
  induction n generalizing a with
  | zero => rfl
  | succ n ih =>
      have hhead := h 0 (Nat.succ_pos n)
      rw [show a + .ofNat 0 = a from UInt32.add_zero a] at hhead
      rw [load, load, hhead, ih]
      intro i hi
      rw [ofNat_add_one]
      exact h (i + 1) (Nat.succ_lt_succ hi)

theorem load_of_bytes (h : ∀ i, i < n → m (a + .ofNat i) = .ofNat (v / 256 ^ i)) :
    load m a n = v % 256 ^ n := by
  induction n generalizing a v with
  | zero => rw [Nat.pow_zero, Nat.mod_one]; rfl
  | succ n ih =>
      have hhead := h 0 (Nat.succ_pos n)
      rw [show a + .ofNat 0 = a from UInt32.add_zero a, Nat.pow_zero, Nat.div_one] at hhead
      have htail : load m (a + 1) n = v / 256 % 256 ^ n := by
        refine ih fun i hi => ?_
        rw [ofNat_add_one, h (i + 1) (Nat.succ_lt_succ hi), Nat.div_div_eq_div_mul,
          Nat.pow_succ, Nat.mul_comm (256 ^ i)]
      rw [load, hhead, htail, Nat.pow_succ, Nat.mul_comm (256 ^ n), Nat.mod_mul,
        UInt8.toNat_ofNat']

theorem load_lt : load m a n < 256 ^ n := by
  induction n generalizing a with
  | zero => exact Nat.one_pos
  | succ n ih =>
      have hbyte : (m a).toNat < 256 := (m a).toNat_lt
      have htail := @ih (a + 1)
      rw [load, Nat.pow_succ]
      omega

/-- The low bytes of a number. -/
theorem load_mod {k : Nat} (h : n ≤ k) : load m a k % 256 ^ n = load m a n := by
  induction n generalizing a k with
  | zero => exact Nat.mod_one _
  | succ n ih =>
      obtain ⟨k, rfl⟩ : ∃ j, k = j + 1 := ⟨k - 1, by omega⟩
      have hbyte : (m a).toNat < 256 := (m a).toNat_lt
      rw [load, load, Nat.pow_succ, Nat.mul_comm (256 ^ n), Nat.mod_mul,
        Nat.add_mul_mod_self_left, Nat.mod_eq_of_lt hbyte, Nat.add_mul_div_left _ _ (by decide),
        Nat.div_eq_of_lt hbyte, Nat.zero_add, ih (Nat.le_of_succ_le_succ h)]

theorem store_of_inside (h : (x - a).toNat < n) :
    store m a n v x = .ofNat (v / 256 ^ (x - a).toNat) := if_pos h

theorem store_of_outside (h : n ≤ (x - a).toNat) : store m a n v x = m x :=
  if_neg (Nat.not_lt.mpr h)

/-- **What was stored is loaded.** -/
theorem load_store (hn : n < 2 ^ 32) : load (store m a n v) a n = v % 256 ^ n := by
  refine load_of_bytes fun i hi => ?_
  have hoff : (a + .ofNat i - a).toNat = i := by
    rw [UInt32.add_comm, UInt32.add_sub_cancel]
    exact UInt32.toNat_ofNat_of_lt' (hi.trans hn)
  rw [store_of_inside (by rw [hoff]; exact hi), hoff]

/-- The bytes of a number that was loaded. -/
theorem load_byte {i : Nat} (hi : i < n) :
    UInt8.ofNat (load m a n / 256 ^ i) = m (a + .ofNat i) := by
  induction n generalizing a i with
  | zero => exact absurd hi (Nat.not_lt_zero i)
  | succ n ih =>
      have hbyte : (m a).toNat < 256 := (m a).toNat_lt
      rw [load]
      cases i with
      | zero =>
          rw [show a + .ofNat 0 = a from UInt32.add_zero a, Nat.pow_zero, Nat.div_one,
            UInt8.ofNat_add, UInt8.ofNat_mul, UInt8.ofNat_toNat]
          show m a + 0 * _ = m a
          rw [UInt8.zero_mul, UInt8.add_zero]
      | succ i =>
          have hrest : ((m a).toNat + 256 * load m (a + 1) n) / 256 ^ (i + 1) =
              load m (a + 1) n / 256 ^ i := by
            rw [Nat.pow_succ, Nat.mul_comm (256 ^ i), ← Nat.div_div_eq_div_mul,
              Nat.add_mul_div_left _ _ (by decide), Nat.div_eq_of_lt hbyte, Nat.zero_add]
          rw [hrest, ih (Nat.lt_of_succ_lt_succ hi), ofNat_add_one]

/-- **A number is copied** byte by byte. -/
theorem store_load {b : UInt32} {i : Nat} (hn : n < 2 ^ 32) (hi : i < n) :
    store m a n (load m' b n) (a + .ofNat i) = m' (b + .ofNat i) := by
  have hoff : (a + .ofNat i - a).toNat = i := by
    rw [UInt32.add_comm, UInt32.add_sub_cancel]
    exact UInt32.toNat_ofNat_of_lt' (hi.trans hn)
  rw [store_of_inside (by rw [hoff]; exact hi), hoff, load_byte hi]

end Number

/-! ## 2. Regions that do not wrap -/

section Region

variable {m m' : Memory} {a x : UInt32} {n v k w : Nat}

/-- The place of `x` behind `a`, where `a` is the begin of a region that does not wrap. -/
theorem toNat_sub_lt_iff (hend : a.toNat + n ≤ 2 ^ 32) :
    (x - a).toNat < n ↔ a.toNat ≤ x.toNat ∧ x.toNat < a.toNat + n := by
  have hx : x.toNat < 2 ^ 32 := x.toNat_lt
  have ha : a.toNat < 2 ^ 32 := a.toNat_lt
  rw [UInt32.toNat_sub]
  omega

theorem store_of_apart (hend : a.toNat + n ≤ 2 ^ 32)
    (h : x.toNat < a.toNat ∨ a.toNat + n ≤ x.toNat) : store m a n v x = m x := by
  refine store_of_outside (Nat.not_lt.mp fun hlt => ?_)
  have hin := (toNat_sub_lt_iff hend).mp hlt
  omega

/-- The number at `k`, where memory is the same from `k` on. -/
theorem load_congr_region (hend : k + n ≤ 2 ^ 32)
    (h : ∀ x : UInt32, k ≤ x.toNat → x.toNat < k + n → m x = m' x) :
    load m (.ofNat k) n = load m' (.ofNat k) n := by
  refine load_congr fun i hi => ?_
  have hx : (UInt32.ofNat k + .ofNat i).toNat = k + i := by
    rw [← UInt32.ofNat_add]
    exact UInt32.toNat_ofNat_of_lt' (by rw [UInt32.size]; omega)
  exact h _ (by omega) (by omega)

/-- **A store elsewhere is not seen.** -/
theorem load_store_apart (hend : a.toNat + n ≤ 2 ^ 32) (hk : k + w ≤ 2 ^ 32)
    (h : k + w ≤ a.toNat ∨ a.toNat + n ≤ k) :
    load (store m a n v) (.ofNat k) w = load m (.ofNat k) w := by
  refine load_congr_region hk fun x hlo hhi => ?_
  exact store_of_apart hend (by omega)

/-- The same with numbers for both places. -/
theorem load_store_place (hk : k + n < 2 ^ 32) {j : Nat} (hj : j + w ≤ 2 ^ 32)
    (h : j + w ≤ k ∨ k + n ≤ j) :
    load (store m (.ofNat k) n v) (.ofNat j) w = load m (.ofNat j) w := by
  have hnat : (UInt32.ofNat k).toNat = k := UInt32.toNat_ofNat_of_lt' (by rw [UInt32.size]; omega)
  exact load_store_apart (by rw [hnat]; omega) hj (by rw [hnat]; exact h)

theorem store_place_of_apart (hk : k + n < 2 ^ 32) (h : x.toNat < k ∨ k + n ≤ x.toNat) :
    store m (.ofNat k) n v x = m x := by
  have hnat : (UInt32.ofNat k).toNat = k := UInt32.toNat_ofNat_of_lt' (by rw [UInt32.size]; omega)
  exact store_of_apart (by rw [hnat]; omega) (by rw [hnat]; exact h)

end Region

/-! ## 3. Words one behind the other -/

/-- The words `ws` stand from address `k` on. -/
def Words (m : Memory) : Nat → List UInt32 → Prop
  | _, [] => True
  | k, w :: ws => load m (.ofNat k) 4 = w.toNat ∧ Words m (k + 4) ws

section Words

variable {m m' : Memory} {k : Nat} {w : UInt32} {ws us : List UInt32}

theorem words_append :
    Words m k (us ++ ws) ↔ Words m k us ∧ Words m (k + 4 * us.length) ws := by
  induction us generalizing k with
  | nil =>
      rw [List.nil_append, List.length_nil, Nat.mul_zero, Nat.add_zero]
      exact (iff_of_eq (true_and _)).symm
  | cons u us ih =>
      have hplace : k + 4 + 4 * us.length = k + 4 * (us.length + 1) := by omega
      rw [List.cons_append, Words, Words, ih, hplace, List.length_cons, and_assoc]

theorem Words.congr (h : Words m k ws) (hend : k + 4 * ws.length ≤ 2 ^ 32)
    (hmem : ∀ x : UInt32, k ≤ x.toNat → x.toNat < k + 4 * ws.length → m' x = m x) :
    Words m' k ws := by
  induction ws generalizing k with
  | nil => trivial
  | cons w ws ih =>
      rw [List.length_cons] at hend hmem
      refine ⟨?_, ih h.2 (by omega) fun x hlo hhi => hmem x (by omega) (by omega)⟩
      rw [← h.1]
      exact load_congr_region (by omega) fun x hlo hhi => hmem x hlo (by omega)

/-- A word in front of them. -/
theorem Words.push {a : UInt32} (h : Words m (a.toNat + 4) ws)
    (hend : a.toNat + 4 + 4 * ws.length ≤ 2 ^ 32) (w : UInt32) :
    Words (store m a 4 w.toNat) a.toNat (w :: ws) := by
  have hw : w.toNat < 256 ^ 4 := w.toNat_lt
  refine ⟨?_, h.congr (by omega) fun x hlo _ => store_of_apart (by omega) (.inr hlo)⟩
  rw [UInt32.ofNat_toNat, load_store (by decide), Nat.mod_eq_of_lt hw]

/-- A word among them. -/
theorem Words.poke {a : UInt32} (h : Words m k (us ++ w :: ws))
    (hend : k + 4 * (us ++ w :: ws).length ≤ 2 ^ 32) (ha : a.toNat = k + 4 * us.length)
    (u : UInt32) : Words (store m a 4 u.toNat) k (us ++ u :: ws) := by
  rw [List.length_append, List.length_cons] at hend
  rw [words_append] at h ⊢
  have hu : u.toNat < 256 ^ 4 := u.toNat_lt
  refine ⟨h.1.congr (by omega) fun x _ hhi => store_of_apart (by omega) (by omega), ?_, ?_⟩
  · rw [← ha, UInt32.ofNat_toNat, load_store (by decide), Nat.mod_eq_of_lt hu]
  · exact h.2.2.congr (by omega) fun x hlo _ => store_of_apart (by omega) (by omega)

end Words

end X86
