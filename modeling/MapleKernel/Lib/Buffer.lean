/-
  File:      Lib/Buffer.lean
  Subject:   BUFFERS WRITTEN CELL BY CELL, and reversed in place.

  A buffer is its content by offset. What a program has written is laid over what was there:

  * `overlay f pos cs` -- `f` with the cells `cs` from offset `pos` on; `overlay_update` is one
    more cell at the end;
  * `swapLoop` -- the loop that swaps the ends of a window and goes inwards: `swapLoop_apply`,
    its closed form;
  * `swapLoop_overlay` -- on a window of written cells it reverses them, and leaves what is
    behind;
  * `store`, `storeAll`, `swapStores` -- the same on an array of a given size, where a store outside
    it is a fault: they have the results above as long as they stay inside.
-/
import Mathlib

namespace Buffers

variable {α : Type*}

/-! ## Written cells -/

/-- `f` with the cells `cs` from offset `pos` on. -/
def overlay (f : Nat → α) (pos : Nat) (cs : List α) : Nat → α :=
  fun k => if pos ≤ k then cs[k - pos]?.getD (f k) else f k

section Overlay

variable {f : Nat → α} {pos k : Nat} {cs ds : List α}

@[simp] theorem overlay_nil : overlay f pos [] = f := by
  funext k
  simp [overlay]

theorem overlay_of_lt (h : k < pos) : overlay f pos cs k = f k := if_neg (by omega)

theorem overlay_of_ge (h : pos + cs.length ≤ k) : overlay f pos cs k = f k := by
  rw [overlay, if_pos (by omega), List.getElem?_eq_none (by omega)]
  rfl

theorem overlay_add {i : Nat} (h : i < cs.length) : overlay f pos cs (pos + i) = cs[i] := by
  rw [overlay, if_pos (Nat.le_add_right pos i), Nat.add_sub_cancel_left,
    List.getElem?_eq_getElem h]
  rfl

theorem overlay_zero {i : Nat} (h : i < cs.length) : overlay f 0 cs i = cs[i] := by
  have hadd : overlay f 0 cs (0 + i) = cs[i] := overlay_add h
  rwa [Nat.zero_add] at hadd

/-- One more cell at the end. -/
theorem overlay_update (f : Nat → α) (pos : Nat) (cs : List α) (c : α) :
    Function.update (overlay f pos cs) (pos + cs.length) c = overlay f pos (cs ++ [c]) := by
  funext k
  by_cases hk : k = pos + cs.length
  · have hlt : cs.length < (cs ++ [c]).length := by simp
    subst hk
    rw [Function.update_self, overlay_add hlt, List.getElem_concat_length rfl]
  · rw [Function.update_of_ne hk]
    by_cases hlt : k < pos + cs.length
    · simp only [overlay]
      by_cases hle : pos ≤ k
      · rw [if_pos hle, if_pos hle, List.getElem?_append_left (by omega)]
      · rw [if_neg hle, if_neg hle]
    · rw [overlay_of_ge (by omega), overlay_of_ge (by rw [List.length_append]; simp; omega)]

/-- A written cell is written again. -/
theorem overlay_set {i : Nat} (h : i < cs.length) (c : α) :
    Function.update (overlay f pos cs) (pos + i) c = overlay f pos (cs.set i c) := by
  have hlen := @List.length_set _ cs i c
  funext k
  by_cases hlo : k < pos
  · rw [Function.update_of_ne (by omega), overlay_of_lt hlo, overlay_of_lt hlo]
  · obtain ⟨j, rfl⟩ : ∃ j, k = pos + j := ⟨k - pos, by omega⟩
    by_cases hj : j < cs.length
    · by_cases hji : j = i
      · subst hji
        rw [Function.update_self, overlay_add (by omega), List.getElem_set_self]
      · rw [Function.update_of_ne (by omega), overlay_add hj, overlay_add (by omega),
          List.getElem_set_ne (Ne.symm hji)]
    · rw [Function.update_of_ne (by omega), overlay_of_ge (by omega), overlay_of_ge (by omega)]

/-- Cells in front of cells that are there. -/
theorem overlay_overlay (f : Nat → α) (pos : Nat) (cs ds : List α) :
    overlay (overlay f (pos + cs.length) ds) pos cs = overlay f pos (cs ++ ds) := by
  funext k
  by_cases hlo : k < pos
  · rw [overlay_of_lt hlo, overlay_of_lt (by omega), overlay_of_lt hlo]
  · obtain ⟨i, rfl⟩ : ∃ i, k = pos + i := ⟨k - pos, by omega⟩
    by_cases hi : i < cs.length
    · rw [overlay_add hi, overlay_add (by rw [List.length_append]; omega),
        List.getElem_append_left hi]
    · obtain ⟨j, rfl⟩ : ∃ j, i = cs.length + j := ⟨i - cs.length, by omega⟩
      rw [overlay_of_ge (by omega)]
      by_cases hj : j < ds.length
      · rw [← Nat.add_assoc, overlay_add hj, Nat.add_assoc,
          overlay_add (by rw [List.length_append]; omega), List.getElem_append_right (by omega)]
        simp
      · rw [overlay_of_ge (by omega), overlay_of_ge (by rw [List.length_append]; omega)]

end Overlay

/-! ## Reversal in place -/

/-- The cells `i` and `j` exchanged. -/
def swap (f : Nat → α) (i j : Nat) : Nat → α :=
  Function.update (Function.update f i (f j)) j (f i)

/-- `while (start < end) { swap them; start++; end--; }`. -/
def swapLoop (f : Nat → α) (start fin : Nat) : Nat → α :=
  if start < fin then swapLoop (swap f start fin) (start + 1) (fin - 1) else f
termination_by fin - start

section Swap

variable {f : Nat → α} {i j k : Nat}

theorem swap_left (f : Nat → α) (i j : Nat) : swap f i j i = f j := by
  by_cases h : i = j
  · subst h
    exact Function.update_self _ _ _
  · rw [swap, Function.update_of_ne h, Function.update_self]

theorem swap_right (f : Nat → α) (i j : Nat) : swap f i j j = f i := Function.update_self _ _ _

theorem swap_of_ne (hi : k ≠ i) (hj : k ≠ j) : swap f i j k = f k := by
  rw [swap, Function.update_of_ne hj, Function.update_of_ne hi]

/-- **The loop mirrors the window**, and leaves the cells outside it. -/
theorem swapLoop_apply (f : Nat → α) (i j k : Nat) :
    swapLoop f i j k = if i ≤ k ∧ k ≤ j then f (i + j - k) else f k := by
  induction f, i, j using swapLoop.induct with
  | case1 f i j hlt ih =>
      rw [swapLoop, if_pos hlt, ih]
      by_cases hk : i + 1 ≤ k ∧ k ≤ j - 1
      · have hmirror : i + 1 + (j - 1) - k = i + j - k := by omega
        rw [if_pos hk, if_pos (by omega), hmirror, swap_of_ne (by omega) (by omega)]
      · rw [if_neg hk]
        by_cases hi : k = i
        · have hmirror : i + j - k = j := by omega
          rw [if_pos (by omega), hmirror, hi, swap_left]
        · by_cases hj : k = j
          · have hmirror : i + j - k = i := by omega
            rw [if_pos (by omega), hmirror, hj, swap_right]
          · rw [swap_of_ne hi hj, if_neg (by omega)]
  | case2 f i j hge =>
      rw [swapLoop, if_neg hge]
      by_cases hk : i ≤ k ∧ k ≤ j
      · have hmirror : i + j - k = k := by omega
        rw [if_pos hk, hmirror]
      · rw [if_neg hk]

/-- **Written cells are reversed**, and what is behind them stays. -/
theorem swapLoop_overlay (f : Nat → α) {cs ds : List α} (h : cs ≠ []) :
    swapLoop (overlay f 0 (cs ++ ds)) 0 (cs.length - 1) = overlay f 0 (cs.reverse ++ ds) := by
  have hpos : 0 < cs.length := List.length_pos_iff.mpr h
  have hsplit : ∀ es : List α, es.length = cs.length →
      overlay f 0 (es ++ ds) = overlay (overlay f cs.length ds) 0 es := by
    intro es hes
    rw [← overlay_overlay, Nat.zero_add, hes]
  rw [hsplit cs rfl, hsplit cs.reverse (List.length_reverse)]
  funext k
  rw [swapLoop_apply]
  by_cases hk : k < cs.length
  · have hrev : k < cs.reverse.length := by
      rw [List.length_reverse]
      exact hk
    have hmirror : cs.length - 1 - k = 0 + (cs.length - 1) - k := by omega
    rw [if_pos (by omega), overlay_zero (by omega), overlay_zero hrev, List.getElem_reverse]
    congr 1
    exact hmirror.symm
  · have hout : ∀ es : List α, es.length = cs.length →
        overlay (overlay f cs.length ds) 0 es k = overlay f cs.length ds k :=
      fun es hes => overlay_of_ge (by omega)
    rw [if_neg (by omega), hout cs rfl, hout cs.reverse List.length_reverse]

end Swap

/-! ## Arrays of a given size -/

section Sized

variable {ε : Type*} (e : ε) (size : Nat)

/-- `f[i] = c` in an array of `size` cells; outside it is the fault `e`. -/
def store (i : Nat) (c : α) (f : Nat → α) : Except ε (Nat → α) :=
  if i < size then .ok (Function.update f i c) else .error e

/-- The cells one after the other, from `pos` on; the result begins with the place behind them. -/
def storeAll : List α → Nat → (Nat → α) → Except ε (Nat × (Nat → α))
  | [], pos, f => .ok (pos, f)
  | c :: cs, pos, f => store e size pos c f >>= storeAll cs (pos + 1)

/-- `swapLoop`, store by store. -/
def swapStores (f : Nat → α) (start fin : Nat) : Except ε (Nat → α) :=
  if start < fin then do
    let g ← store e size start (f fin) f
    let g ← store e size fin (f start) g
    swapStores g (start + 1) (fin - 1)
  else .ok f
termination_by fin - start

variable {e size} {i : Nat} {c : α} {f : Nat → α}

/-- A step that succeeds is passed. -/
theorem bind_of_ok {β γ : Type _} {x : Except ε β} {b : β} (h : x = .ok b) (g : β → Except ε γ) :
    x >>= g = g b := by
  rw [h]
  rfl

theorem bind_of_error {β γ : Type _} {x : Except ε β} (h : x = .error e) (g : β → Except ε γ) :
    x >>= g = .error e := by
  rw [h]
  rfl

theorem store_ok (h : i < size) : store e size i c f = .ok (Function.update f i c) := if_pos h

theorem store_error (h : size ≤ i) : store e size i c f = .error e := if_neg (Nat.not_lt.mpr h)

/-- Behind written cells, as long as they fit. -/
theorem storeAll_ok {cs ds : List α} {pos : Nat} (h : pos + cs.length + ds.length ≤ size) :
    storeAll e size ds (pos + cs.length) (overlay f pos cs)
      = .ok (pos + (cs ++ ds).length, overlay f pos (cs ++ ds)) := by
  induction ds generalizing cs with
  | nil => rw [List.append_nil]; rfl
  | cons d ds ih =>
      rw [List.length_cons] at h
      have hlen : pos + cs.length + 1 = pos + (cs ++ [d]).length := by
        rw [List.length_append, List.length_singleton]
        omega
      have hrest := @ih (cs ++ [d]) (by omega)
      rw [List.append_assoc, List.singleton_append] at hrest
      rw [storeAll, bind_of_ok (store_ok (by omega)), overlay_update, hlen]
      exact hrest

/-- The loop stays inside if the end of its window does. -/
theorem swapStores_ok {start fin : Nat} (h : fin < size) :
    swapStores e size f start fin = .ok (swapLoop f start fin) := by
  induction f, start, fin using swapLoop.induct with
  | case1 f start fin hlt ih =>
      rw [swapStores, if_pos hlt, bind_of_ok (store_ok (by omega)), bind_of_ok (store_ok h),
        swapLoop, if_pos hlt]
      exact ih (by omega)
  | case2 f start fin hge => rw [swapStores, if_neg hge, swapLoop, if_neg hge]

end Sized

end Buffers
