/-
  File:      Lib/Grouped.lean
  Subject:   GROUPS OF `k`, COUNTED FROM THE RIGHT, with a separator between them.

  * `IsGrouping k xs gs` -- `gs` are the groups of `xs`: all have `k` elements, except that the
    first may have fewer, but not none.
  * `grouped sep k xs` -- the text that writes the separator where the number of elements to come
    is a multiple of `k`; `grouped_eq_intercalate`: it is the groups with the separator between
    them, and `grouped_eq_flatMap`: it is what a loop over the positions writes.
  * `grouped_suffix`, `length_grouped`: how much of a text its last elements take.
-/
import Mathlib

namespace Grouping

variable {α : Type*}

structure IsGrouping (k : Nat) (xs : List α) (gs : List (List α)) : Prop where
  flatten : gs.flatten = xs
  first : ∀ g ∈ gs.head?, g ≠ [] ∧ g.length ≤ k
  rest : ∀ g ∈ gs.tail, g.length = k

/-- The elements, and `sep` where the number of those to come is a multiple of `k`. -/
def grouped (sep : α) (k : Nat) : List α → List α
  | [] => []
  | x :: xs =>
      if xs ≠ [] ∧ xs.length % k = 0 then x :: sep :: grouped sep k xs
      else x :: grouped sep k xs

/-! ## 1. The groups of a text -/

/-- The length of the text against that of its first group. -/
theorem IsGrouping.length_mod {k : Nat} {xs g : List α} {gs : List (List α)}
    (h : IsGrouping k xs (g :: gs)) : xs.length % k = g.length % k := by
  have hrest : gs.map List.length = gs.map fun _ => k := List.map_congr_left h.rest
  have hsum : xs.length = g.length + gs.length * k := by
    rw [← h.flatten, List.length_flatten, List.map_cons, List.sum_cons, hrest]
    simp
  rw [hsum, Nat.add_mul_mod_self_right]

/-- **The text is the groups with the separator between them.** -/
theorem grouped_eq_intercalate (sep : α) {k : Nat} (hk : 0 < k) (xs : List α) :
    ∃ gs, IsGrouping k xs gs ∧ grouped sep k xs = [sep].intercalate gs := by
  induction xs with
  | nil => exact ⟨[], ⟨rfl, by simp, by simp⟩, by simp [grouped]⟩
  | cons x xs ih =>
      obtain ⟨gs, hgs, htext⟩ := ih
      rcases gs with _ | ⟨g, gs⟩
      · have hnil : xs = [] := hgs.flatten.symm
        subst hnil
        exact ⟨[[x]], ⟨rfl, by simp; omega, by simp⟩, by simp [grouped]⟩
      obtain ⟨hg, hle⟩ := hgs.first g rfl
      have hne : xs ≠ [] := by
        rw [← hgs.flatten]
        simp [hg]
      have hmod := hgs.length_mod
      have hpos : 0 < g.length := List.length_pos_iff.mpr hg
      by_cases hfull : xs.length % k = 0
      · -- the first group is full, and `x` begins a new one
        have hlen : g.length = k := by
          rcases Nat.lt_or_eq_of_le hle with hlt | heq
          · rw [Nat.mod_eq_of_lt hlt] at hmod
            omega
          · exact heq
        refine ⟨[x] :: g :: gs, ⟨?_, ?_, ?_⟩, ?_⟩
        · rw [← hgs.flatten]
          rfl
        · simp
          omega
        · simpa [hlen] using hgs.rest
        · rw [grouped, if_pos ⟨hne, hfull⟩, htext, List.intercalate_cons_cons]
          rfl
      · -- `x` goes to the first group
        have hlt : g.length < k := by
          refine Nat.lt_of_le_of_ne hle fun heq => hfull ?_
          rw [hmod, heq, Nat.mod_self]
        refine ⟨(x :: g) :: gs, ⟨?_, ?_, ?_⟩, ?_⟩
        · rw [← hgs.flatten]
          rfl
        · simpa using hlt
        · exact hgs.rest
        · rw [grouped, if_neg fun h => hfull h.2, htext,
            List.intercalate_cons_cons_left]

/-- What the loop over the positions writes. -/
theorem grouped_eq_flatMap (sep : α) (k : Nat) (xs : List α) (d : α) :
    grouped sep k xs = (List.range xs.length).flatMap fun i =>
      if xs.length - 1 - i ≠ 0 ∧ (xs.length - 1 - i) % k = 0 then [xs.getD i d, sep]
      else [xs.getD i d] := by
  induction xs with
  | nil => rfl
  | cons x xs ih =>
      rw [List.length_cons, List.range_succ_eq_map, List.flatMap_cons, List.flatMap_map]
      have htail : (List.range xs.length).flatMap (fun i =>
          if xs.length + 1 - 1 - (i + 1) ≠ 0 ∧ (xs.length + 1 - 1 - (i + 1)) % k = 0
          then [(x :: xs).getD (i + 1) d, sep] else [(x :: xs).getD (i + 1) d])
          = grouped sep k xs := by
        rw [ih]
        refine List.flatMap_congr fun i _ => ?_
        have e : xs.length + 1 - 1 - (i + 1) = xs.length - 1 - i := by omega
        rw [e, List.getD_cons_succ]
      have hne : xs ≠ [] ↔ xs.length ≠ 0 := by simp
      rw [grouped, htail]
      simp only [hne, Nat.add_sub_cancel, Nat.sub_zero, List.getD_cons_zero]
      split
      · rfl
      · rfl

/-! ## 2. Parts of a text -/

theorem length_grouped (sep : α) (k : Nat) (xs : List α) :
    (grouped sep k xs).length = xs.length + (xs.length - 1) / k := by
  induction xs with
  | nil => simp [grouped]
  | cons x xs ih =>
      rw [grouped]
      by_cases hne : xs = []
      · subst hne
        simp [grouped]
      have hpos : 0 < xs.length := List.length_pos_iff.mpr hne
      have hdiv : xs.length / k = (xs.length - 1) / k + if xs.length % k = 0 then 1 else 0 := by
        have e : xs.length = xs.length - 1 + 1 := by omega
        have hsucc := @Nat.succ_div (xs.length - 1) k
        rw [← e] at hsucc
        rw [hsucc]
        simp only [Nat.dvd_iff_mod_eq_zero]
      split
      next h =>
        rw [if_pos h.2] at hdiv
        simp only [List.length_cons, ih, Nat.add_sub_cancel]
        omega
      next h =>
        rw [if_neg fun e => h ⟨hne, e⟩] at hdiv
        simp only [List.length_cons, ih, Nat.add_sub_cancel]
        omega

/-- The last elements of a text are grouped as they are alone. -/
theorem grouped_suffix (sep : α) (k : Nat) (xs ys : List α) :
    ∃ front, grouped sep k (xs ++ ys) = front ++ grouped sep k ys := by
  induction xs with
  | nil => exact ⟨[], rfl⟩
  | cons x xs ih =>
      obtain ⟨front, hfront⟩ := ih
      rw [List.cons_append, grouped, hfront]
      split
      · exact ⟨x :: sep :: front, rfl⟩
      · exact ⟨x :: front, rfl⟩

theorem drop_grouped (sep : α) (k : Nat) (xs ys : List α) {i : Nat}
    (hi : i + (ys.length + (ys.length - 1) / k)
      = (xs ++ ys).length + ((xs ++ ys).length - 1) / k) :
    (grouped sep k (xs ++ ys)).drop i = grouped sep k ys := by
  obtain ⟨front, hfront⟩ := grouped_suffix sep k xs ys
  have hlen := congrArg List.length hfront
  rw [List.length_append, length_grouped sep k, length_grouped sep k] at hlen
  have e : i = front.length := by omega
  rw [hfront, e, List.drop_left]

/-- Without the separators the text is what was grouped. -/
theorem filter_grouped [DecidableEq α] (sep : α) (k : Nat) {xs : List α} (h : sep ∉ xs) :
    (grouped sep k xs).filter (· ≠ sep) = xs := by
  induction xs with
  | nil => rfl
  | cons x xs ih =>
      obtain ⟨hx, hxs⟩ := not_or.mp (mt List.mem_cons.mpr h)
      rw [grouped]
      split
      · rw [List.filter_cons_of_pos (by simpa using Ne.symm hx),
          List.filter_cons_of_neg (by simp), ih hxs]
      · rw [List.filter_cons_of_pos (by simpa using Ne.symm hx), ih hxs]

theorem head?_grouped (sep : α) (k : Nat) (xs : List α) :
    (grouped sep k xs).head? = xs.head? := by
  cases xs with
  | nil => rfl
  | cons x xs =>
      rw [grouped]
      split
      · rfl
      · rfl

theorem getLast?_grouped (sep : α) (k : Nat) (xs : List α) :
    (grouped sep k xs).getLast? = xs.getLast? := by
  rcases List.eq_nil_or_concat xs with rfl | ⟨front, x, rfl⟩
  · rfl
  · obtain ⟨front', h⟩ := grouped_suffix sep k front [x]
    rw [List.concat_eq_append, h]
    simp [grouped]

end Grouping
