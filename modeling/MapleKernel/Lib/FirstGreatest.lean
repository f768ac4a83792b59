/-
  File:      Lib/FirstGreatest.lean
  Subject:   THE FIRST INDEX WITH THE GREATEST KEY, found by one pass over an index range.

  A C loop that keeps the best entry so far and replaces it only by a greater one ends at the first
  index, among the eligible ones, that has the greatest key.

  * `FirstGreatest p key n i` -- `i` is that index among those below `n`;
  * `.first`, `.replace`, `.keep` -- what one more index does to it, one rule for each branch of the
    loop body.
-/
import Mathlib

namespace GreatestKeys

variable {κ : Type*} [LinearOrder κ]

/-- `i` is the first of the eligible indices below `n` with the greatest key. -/
structure FirstGreatest (p : Nat → Prop) (key : Nat → κ) (n i : Nat) : Prop where
  lt : i < n
  eligible : p i
  greatest : ∀ j, j < n → p j → key j ≤ key i
  first : ∀ j, j < i → p j → key j < key i

section Rules

variable {p : Nat → Prop} {key : Nat → κ} {n i : Nat}

/-- The first eligible index at all. -/
theorem FirstGreatest.start (hnone : ∀ j, j < n → ¬ p j) (hn : p n) :
    FirstGreatest p key (n + 1) n where
  lt := Nat.lt_succ_self n
  eligible := hn
  greatest := by
    intro j hj hp
    rcases Nat.lt_succ_iff_lt_or_eq.mp hj with hlt | rfl
    · exact absurd hp (hnone j hlt)
    · exact le_refl _
  first := fun j hj hp => absurd hp (hnone j hj)

/-- A greater key replaces the one so far. -/
theorem FirstGreatest.replace (h : FirstGreatest p key n i) (hn : p n) (hless : key i < key n) :
    FirstGreatest p key (n + 1) n where
  lt := Nat.lt_succ_self n
  eligible := hn
  greatest := by
    intro j hj hp
    rcases Nat.lt_succ_iff_lt_or_eq.mp hj with hlt | rfl
    · exact (h.greatest j hlt hp).trans hless.le
    · exact le_refl _
  first := fun j hj hp => (h.greatest j hj hp).trans_lt hless

/-- An index that is not eligible, or not greater, changes nothing. -/
theorem FirstGreatest.keep (h : FirstGreatest p key n i) (hn : p n → key n ≤ key i) :
    FirstGreatest p key (n + 1) i where
  lt := Nat.lt_succ_of_lt h.lt
  eligible := h.eligible
  greatest := by
    intro j hj hp
    rcases Nat.lt_succ_iff_lt_or_eq.mp hj with hlt | rfl
    · exact h.greatest j hlt hp
    · exact hn hp
  first := h.first

end Rules

end GreatestKeys
