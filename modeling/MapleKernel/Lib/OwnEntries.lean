/-
  File:      Lib/OwnEntries.lean
  Subject:   A SHARED LOG AND WHOSE ENTRIES STAND TOGETHER IN IT.

  Every entry of a log has an owner. `Together` says that the entries of one owner form one block
  of the log, `AtEnd` that this block is at its end, so that the owner may go on. A log to which
  only owners at its end append (`together_concat`) keeps everybody's entries together.
-/
import Mathlib

namespace OwnEntries

variable {α ι : Type*} [DecidableEq ι] (owner : α → ι)

/-- The entries of `i`, in order. -/
def own (i : ι) (log : List α) : List α := log.filter fun e => owner e = i

/-- The entries of `i` are one block of the log. -/
def Together (i : ι) (log : List α) : Prop := own owner i log <:+: log

/-- The entries of `i` are the last ones of the log. -/
def AtEnd (i : ι) (log : List α) : Prop := own owner i log <:+ log

variable {owner} {i : ι} {log : List α} {e : α}

theorem own_concat_self (h : owner e = i) : own owner i (log ++ [e]) = own owner i log ++ [e] := by
  have he : [e].filter (fun e => owner e = i) = [e] := List.filter_cons_of_pos (by simpa using h)
  rw [own, List.filter_append, he]
  rfl

theorem own_concat_other (h : owner e ≠ i) : own owner i (log ++ [e]) = own owner i log := by
  have he : [e].filter (fun e => owner e = i) = [] := List.filter_cons_of_neg (by simpa using h)
  rw [own, List.filter_append, he, List.append_nil]
  rfl

theorem AtEnd.together (h : AtEnd owner i log) : Together owner i log := List.IsSuffix.isInfix h

/-- Who has no entry yet is at the end. -/
theorem atEnd_of_own_eq_nil (h : own owner i log = []) : AtEnd owner i log := by
  rw [AtEnd, h]
  exact List.nil_suffix

theorem AtEnd.concat (h : AtEnd owner i log) (he : owner e = i) : AtEnd owner i (log ++ [e]) := by
  obtain ⟨before, hb⟩ := h
  refine ⟨before, ?_⟩
  rw [own_concat_self he, ← List.append_assoc, hb]

/-- **An entry of an owner at the end leaves everybody's entries together.** -/
theorem together_concat (h : ∀ i, Together owner i log) (he : AtEnd owner (owner e) log) (i : ι) :
    Together owner i (log ++ [e]) := by
  by_cases hi : owner e = i
  · subst hi
    exact (he.concat rfl).together
  · rw [Together, own_concat_other hi]
    exact (h i).trans (List.prefix_append log [e]).isInfix

end OwnEntries
