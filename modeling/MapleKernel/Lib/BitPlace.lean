/-
  File:      Lib/BitPlace.lean
  Subject:   FIELDS SPREAD OVER THE BITS OF A WORD.

  A place says where the bits of a field stand: bit `i` of the field is bit `pos i` of the word.
  Reading and writing functions are described bit by bit, whatever arithmetic they use:

  * `Place.Reads`, `Place.Writes` -- a function reads (writes) exactly the field at a place;
  * `Place.span`, `Place.append` -- adjacent bits, and a field in two pieces: `Reads.append`,
    `Writes.append` put together a function that works on the pieces;
  * `get_set` -- what was written is read back;
  * `get_set_of_shared` -- a write of another field is not seen, but for the bits they share;
  * `get_eq_get` -- two functions agree where the bits at their places do.
-/
import Mathlib

namespace BitPlaces

/-- Where the bits of a field stand in the word. -/
structure Place where
  width : Nat
  pos : Nat → Nat

/-- Adjacent bits. -/
def Place.span (start width : Nat) : Place := ⟨width, fun i => start + i⟩

/-- The low bits of the field stand at `P`, the others at `Q`. -/
def Place.append (P Q : Place) : Place :=
  ⟨P.width + Q.width, fun i => if i < P.width then P.pos i else Q.pos (i - P.width)⟩

variable {α : Type*} (bit : α → Nat → Bool)

/-- `get` returns the field at `P`, and nothing above its width. -/
def Place.Reads (P : Place) (get : α → Nat) : Prop :=
  ∀ x i, (get x).testBit i = (decide (i < P.width) && bit x (P.pos i))

/-- `set` stores a value that fits in the field at `P`, and leaves the other bits. -/
structure Place.Writes (P : Place) (set : α → Nat → α) : Prop where
  inside : ∀ x v i, v < 2 ^ P.width → i < P.width → bit (set x v) (P.pos i) = v.testBit i
  outside : ∀ x v j, v < 2 ^ P.width → (∀ i < P.width, P.pos i ≠ j) → bit (set x v) j = bit x j

/-- No bit of the word belongs to both fields. -/
def Place.Disjoint (P Q : Place) : Prop := ∀ i < P.width, ∀ j < Q.width, P.pos i ≠ Q.pos j

instance (P Q : Place) : Decidable (P.Disjoint Q) :=
  inferInstanceAs (Decidable (∀ i < P.width, ∀ j < Q.width, P.pos i ≠ Q.pos j))

variable {bit} {P Q : Place} {get get' : α → Nat} {set set' : α → Nat → α}

theorem Place.append_pos_left {i : Nat} (h : i < P.width) : (P.append Q).pos i = P.pos i := if_pos h

theorem Place.append_pos_right (i : Nat) : (P.append Q).pos (P.width + i) = Q.pos i := by
  show (if P.width + i < P.width then _ else Q.pos (P.width + i - P.width)) = Q.pos i
  rw [if_neg (by omega), Nat.add_sub_cancel_left]

theorem Place.Reads.congr (hget : P.Reads bit get) (heq : ∀ x, get' x = get x) :
    P.Reads bit get' := by
  intro x i
  rw [heq x, hget]

theorem Place.Reads.append (hget : P.Reads bit get) (hget' : Q.Reads bit get') :
    (P.append Q).Reads bit fun x => get' x <<< P.width ||| get x := by
  intro x i
  show (get' x <<< P.width ||| get x).testBit i
    = (decide (i < P.width + Q.width) && bit x ((P.append Q).pos i))
  rw [Nat.testBit_or, Nat.testBit_shiftLeft, hget, hget']
  by_cases hi : i < P.width
  · have hsum : i < P.width + Q.width := by omega
    simp [hi, hsum, Place.append_pos_left hi]
  · obtain ⟨k, rfl⟩ : ∃ k, i = P.width + k := ⟨i - P.width, by omega⟩
    simp [Place.append_pos_right]

theorem Place.Writes.congr (hset : P.Writes bit set)
    (heq : ∀ x v, v < 2 ^ P.width → set' x v = set x v) : P.Writes bit set' where
  inside x v i hv hi := by rw [heq x v hv, hset.inside x v i hv hi]
  outside x v j hv hj := by rw [heq x v hv, hset.outside x v j hv hj]

/-- The low bits first; the second write does not touch them. -/
theorem Place.Writes.append (hset : P.Writes bit set) (hset' : Q.Writes bit set')
    (hdis : Q.Disjoint P) :
    (P.append Q).Writes bit fun x v => set' (set x (v % 2 ^ P.width)) (v / 2 ^ P.width) := by
  have hlow : ∀ v, v % 2 ^ P.width < 2 ^ P.width := fun v => Nat.mod_lt _ (Nat.two_pow_pos _)
  have hhigh : ∀ {v}, v < 2 ^ (P.width + Q.width) → v / 2 ^ P.width < 2 ^ Q.width := fun hv =>
    Nat.div_lt_of_lt_mul (by rwa [← Nat.pow_add])
  constructor
  · intro x v i hv hi
    by_cases hP : i < P.width
    · rw [Place.append_pos_left hP,
        hset'.outside _ _ _ (hhigh hv) fun j hj => hdis j hj i hP, hset.inside _ _ _ (hlow v) hP,
        Nat.testBit_mod_two_pow]
      simp [hP]
    · obtain ⟨k, rfl⟩ : ∃ k, i = P.width + k := ⟨i - P.width, by omega⟩
      have hk : k < Q.width := Nat.lt_of_add_lt_add_left hi
      rw [Place.append_pos_right, hset'.inside _ _ _ (hhigh hv) hk, Nat.testBit_div_two_pow,
        Nat.add_comm]
  · intro x v j hv hout
    rw [hset'.outside _ _ _ (hhigh hv), hset.outside _ _ _ (hlow v)]
    · intro i hi
      have hsum : i < (P.append Q).width := Nat.lt_add_right _ hi
      have hne := hout i hsum
      rwa [Place.append_pos_left hi] at hne
    · intro i hi
      have hsum : P.width + i < (P.append Q).width := Nat.add_lt_add_left hi _
      have hne := hout (P.width + i) hsum
      rwa [Place.append_pos_right] at hne

theorem get_set (hget : P.Reads bit get) (hset : P.Writes bit set) (x : α) {v : Nat}
    (hv : v < 2 ^ P.width) : get (set x v) = v := by
  refine Nat.eq_of_testBit_eq fun i => ?_
  rw [hget]
  by_cases hi : i < P.width
  · rw [hset.inside x v i hv hi]
    simp [hi]
  · have hhigh : v.testBit i = false :=
      Nat.testBit_lt_two_pow (hv.trans_le (Nat.pow_le_pow_right (by decide) (not_lt.mp hi)))
    simp [hi, hhigh]

/-- A write of another field is not seen if it keeps the bits that the fields share. -/
theorem get_set_of_shared (hget : P.Reads bit get) (hset : Q.Writes bit set) (x : α) {v : Nat}
    (hv : v < 2 ^ Q.width)
    (hshared : ∀ i < P.width, (∃ k < Q.width, Q.pos k = P.pos i) →
      bit (set x v) (P.pos i) = bit x (P.pos i)) : get (set x v) = get x := by
  refine Nat.eq_of_testBit_eq fun i => ?_
  rw [hget, hget]
  by_cases hi : i < P.width
  · by_cases hin : ∃ k < Q.width, Q.pos k = P.pos i
    · rw [hshared i hi hin]
    · rw [hset.outside x v _ hv fun k hk heq => hin ⟨k, hk, heq⟩]
  · simp [hi]

/-- Two functions agree where the bits at their places do. -/
theorem get_eq_get (hget : P.Reads bit get) (hget' : Q.Reads bit get') (hwidth : P.width = Q.width)
    (x : α) (hbits : ∀ i < P.width, bit x (P.pos i) = bit x (Q.pos i)) : get x = get' x := by
  refine Nat.eq_of_testBit_eq fun i => ?_
  rw [hget, hget', ← hwidth]
  by_cases hi : i < P.width
  · rw [hbits i hi]
  · simp [hi]

end BitPlaces
