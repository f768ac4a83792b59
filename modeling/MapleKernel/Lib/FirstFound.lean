/-
  File:      Lib/FirstFound.lean
  Subject:   SEARCHES THAT STOP AT THE FIRST HIT, over an index and over a grid of indices.

  A C loop `for (i = 0; i < n; i++) if (...) return ...;` is `List.findSome?` over `List.range n`;
  two nested ones search a grid row by row. `findSome_range` and `findSome_grid` say which hit
  comes out: one with no hit before it. `findSome_test` is the case of a test and a value.

  `find?_cascade` is about a search that leads to another one at one of its places.
-/
import Mathlib

namespace FirstFound

variable {α : Type*}

/-- `v` is what `f` finds at `i`, and it finds nothing before. -/
structure FirstAt (f : Nat → Option α) (i : Nat) (v : α) : Prop where
  hit : f i = some v
  before : ∀ j, j < i → f j = none

theorem FirstAt.unique {f : Nat → Option α} {i i' : Nat} {v v' : α} (h : FirstAt f i v)
    (h' : FirstAt f i' v') : i = i' ∧ v = v' := by
  have hlt : ∀ {i i' : Nat} {v v' : α}, FirstAt f i v → FirstAt f i' v' → ¬ i < i' := by
    intro i i' v v' h h' hii
    have hnone := h'.before i hii
    rw [h.hit] at hnone
    cases hnone
  have heq : i = i' := Nat.le_antisymm (Nat.le_of_not_lt (hlt h' h)) (Nat.le_of_not_lt (hlt h h'))
  subst heq
  exact ⟨rfl, Option.some.inj (h.hit.symm.trans h'.hit)⟩

theorem findSome_range {n : Nat} {f : Nat → Option α} {v : α} :
    (List.range n).findSome? f = some v ↔ ∃ i, i < n ∧ FirstAt f i v := by
  induction n generalizing v with
  | zero =>
      refine iff_of_false (fun h => nomatch h) fun h => ?_
      obtain ⟨i, hi, -⟩ := h
      exact absurd hi (Nat.not_lt_zero i)
  | succ n ih =>
      rw [List.range_succ, List.findSome?_append]
      cases hn : (List.range n).findSome? f with
      | some w =>
          obtain ⟨i, hi, hfirst⟩ := ih.mp hn
          constructor
          · intro h
            obtain rfl := Option.some.inj h
            exact ⟨i, Nat.lt_succ_of_lt hi, hfirst⟩
          · intro h
            obtain ⟨i', -, hfirst'⟩ := h
            exact congrArg some (hfirst.unique hfirst').2
      | none =>
          have hnone : ∀ j, j < n → f j = none := fun j hj =>
            List.findSome?_eq_none_iff.mp hn j (List.mem_range.mpr hj)
          have hlast : Option.or none ([n].findSome? f) = f n := by
            rw [Option.none_or, List.findSome?_singleton]
          rw [hlast]
          constructor
          · intro h
            exact ⟨n, Nat.lt_succ_self n, h, hnone⟩
          · intro h
            obtain ⟨i, hi, hfirst⟩ := h
            rcases Nat.lt_succ_iff_lt_or_eq.mp hi with hlt | rfl
            · have hhit := hfirst.hit
              rw [hnone i hlt] at hhit
              cases hhit
            · exact hfirst.hit

/-! ## A test and a value -/

/-- `i` is the first index below `n` with the property `p`. -/
structure IsFirst (p : Nat → Prop) (n i : Nat) : Prop where
  lt : i < n
  holds : p i
  before : ∀ j, j < i → ¬ p j

theorem IsFirst.unique {p : Nat → Prop} {n i i' : Nat} (h : IsFirst p n i)
    (h' : IsFirst p n i') : i = i' := by
  refine Nat.le_antisymm (Nat.le_of_not_lt fun hlt => ?_) (Nat.le_of_not_lt fun hlt => ?_)
  · exact h.before i' hlt h'.holds
  · exact h'.before i hlt h.holds

section Test

variable {p : Nat → Prop} [DecidablePred p] {g : Nat → α} {n : Nat}

/-- `if (p(i)) return g(i);` returns at the first index with `p`. -/
theorem findSome_test {v : α} :
    (List.range n).findSome? (fun i => if p i then some (g i) else none) = some v ↔
      ∃ i, IsFirst p n i ∧ v = g i := by
  rw [findSome_range]
  constructor
  · rintro ⟨i, hi, hhit, hbefore⟩
    have hp : p i := by
      by_contra hp
      rw [if_neg hp] at hhit
      cases hhit
    rw [if_pos hp] at hhit
    refine ⟨i, ⟨hi, hp, fun j hj hpj => ?_⟩, (Option.some.inj hhit).symm⟩
    have hnone := hbefore j hj
    rw [if_pos hpj] at hnone
    cases hnone
  · rintro ⟨i, hfirst, rfl⟩
    exact ⟨i, hfirst.lt, if_pos hfirst.holds, fun j hj => if_neg (hfirst.before j hj)⟩

theorem findSome_test_none :
    (List.range n).findSome? (fun i => if p i then some (g i) else none) = none ↔
      ∀ i, i < n → ¬ p i := by
  simp only [List.findSome?_eq_none_iff, List.mem_range]
  refine forall₂_congr fun i _ => ?_
  split
  next hp => exact iff_of_false (Option.some_ne_none _) (not_not.mpr hp)
  next hp => exact iff_of_true rfl hp

end Test

/-! ## Grids -/

/-- `v` is what `f` finds at `(i, j)`, and it finds nothing in the rows of `n` places before, nor
    before it in its own row. -/
structure FirstAtGrid (f : Nat → Nat → Option α) (n i j : Nat) (v : α) : Prop where
  hit : f i j = some v
  before : ∀ i' j', j' < n → i' < i ∨ i' = i ∧ j' < j → f i' j' = none

/-- **Two nested searches find the first hit of the grid.** -/
theorem findSome_grid {m n : Nat} {f : Nat → Nat → Option α} {v : α} :
    (List.range m).findSome? (fun i => (List.range n).findSome? (f i)) = some v ↔
      ∃ i j, i < m ∧ j < n ∧ FirstAtGrid f n i j v := by
  rw [findSome_range]
  constructor
  · intro h
    obtain ⟨i, hi, hhit, hbefore⟩ := h
    obtain ⟨j, hj, hfirst⟩ := findSome_range.mp hhit
    refine ⟨i, j, hi, hj, hfirst.hit, fun i' j' hj' hlt => ?_⟩
    rcases hlt with hlt | ⟨rfl, hlt⟩
    · exact List.findSome?_eq_none_iff.mp (hbefore i' hlt) j' (List.mem_range.mpr hj')
    · exact hfirst.before j' hlt
  · intro h
    obtain ⟨i, j, hi, hj, hfirst⟩ := h
    refine ⟨i, hi, ?_, fun i' hi' => ?_⟩
    · exact findSome_range.mpr ⟨j, hj, hfirst.hit, fun j' hj' =>
        hfirst.before i j' (Nat.lt_trans hj' hj) (Or.inr ⟨rfl, hj'⟩)⟩
    · exact List.findSome?_eq_none_iff.mpr fun j' hj' =>
        hfirst.before i' j' (List.mem_range.mp hj') (Or.inl hi')

theorem findSome_grid_none {m n : Nat} {f : Nat → Nat → Option α} :
    (List.range m).findSome? (fun i => (List.range n).findSome? (f i)) = none ↔
      ∀ i j, i < m → j < n → f i j = none := by
  simp only [List.findSome?_eq_none_iff, List.mem_range]
  exact ⟨fun h i j hi hj => h i hi j hj, fun h i hi j hj => h i j hi hj⟩

/-! ## Cascades -/

/-- **A search that goes on at the place `a` with a search of `sub`** is one search, of the list in
    which `sub` stands for `a`. -/
theorem find?_cascade {β : Type*} [DecidableEq α] {M : α → Bool} {A : β → Bool} {f : α → β}
    {l₁ l₂ : List α} {a : α} {sub : List β} {found : Option β}
    (h₁ : ∀ k ∈ l₁, k ≠ a ∧ M k = A (f k)) (h₂ : ∀ k ∈ l₂, k ≠ a ∧ M k = A (f k))
    (ha : M a = (sub.find? A).isSome) (hfound : M a = true → found = sub.find? A) :
    (((l₁ ++ a :: l₂).find? M).bind fun k => if k = a then found else some (f k)) =
      (l₁.map f ++ (sub ++ l₂.map f)).find? A := by
  induction l₁ with
  | nil =>
      rw [List.nil_append, List.map_nil, List.nil_append, List.find?_append, List.find?_cons]
      cases hM : M a with
      | true =>
          rw [hM] at ha
          obtain ⟨x, hx⟩ := Option.isSome_iff_exists.mp ha.symm
          rw [Option.bind_some, if_pos rfl, hfound hM, hx, Option.some_or]
      | false =>
          rw [hM] at ha
          have hnone : sub.find? A = none := Option.isNone_iff_eq_none.mp (by simpa using ha.symm)
          have hsame : l₂.find? M = l₂.find? (A ∘ f) :=
            List.find?_congr fun k hk => (h₂ k hk).2
          rw [hnone, Option.none_or, List.find?_map, ← hsame]
          cases hl : l₂.find? M with
          | none => rfl
          | some k =>
              have hne : k ≠ a := (h₂ k (List.mem_of_find?_eq_some hl)).1
              exact if_neg hne
  | cons k l₁ ih =>
      obtain ⟨⟨hne, hk⟩, hrest⟩ := List.forall_mem_cons.mp h₁
      rw [List.cons_append, List.map_cons, List.cons_append, List.find?_cons, List.find?_cons, ← hk]
      cases M k with
      | true => exact if_neg hne
      | false => exact ih hrest

end FirstFound
