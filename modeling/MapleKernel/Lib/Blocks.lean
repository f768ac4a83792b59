/-
  File:      Lib/Blocks.lean
  Subject:   OWNERSHIP: a set in use, split into a fixed base and pairwise disjoint live blocks.

  `Partitions base used live` is what an allocator keeps. A block taken from outside `used`
  (`Partitions.alloc`) and a live block given back (`Partitions.free`) keep it, whatever the
  places are.
-/
import Mathlib

namespace Blocks

variable {ι : Type*}

/-- `used` is the disjoint union of `base` and the live blocks. -/
structure Partitions (base used : Set ι) (live : List (Set ι)) : Prop where
  disjoint : live.Pairwise Disjoint
  off_base : ∀ b ∈ live, Disjoint base b
  used_eq : ∀ i, i ∈ used ↔ i ∈ base ∨ ∃ b ∈ live, i ∈ b

variable {base used : Set ι} {live : List (Set ι)}

theorem Partitions.initial (base : Set ι) : Partitions base base [] where
  disjoint := List.Pairwise.nil
  off_base := fun _ h => absurd h List.not_mem_nil
  used_eq := fun _ => by simp

theorem Partitions.alloc (h : Partitions base used live) {b : Set ι} (hb : Disjoint used b) :
    Partitions base (used ∪ b) (b :: live) where
  disjoint := by
    refine List.pairwise_cons.mpr ⟨fun c hc => ?_, h.disjoint⟩
    refine Set.disjoint_left.mpr fun i hib hic => ?_
    exact Set.disjoint_left.mp hb ((h.used_eq i).mpr (Or.inr ⟨c, hc, hic⟩)) hib
  off_base := by
    intro c hc
    rcases List.mem_cons.mp hc with rfl | hc
    · exact Set.disjoint_left.mpr fun i hi hic =>
        Set.disjoint_left.mp hb ((h.used_eq i).mpr (Or.inl hi)) hic
    · exact h.off_base c hc
  used_eq := by
    intro i
    rw [Set.mem_union, h.used_eq]
    simp only [List.mem_cons, exists_eq_or_imp]
    exact or_assoc.trans (or_congr Iff.rfl or_comm)

theorem Partitions.free {l₁ l₂ : List (Set ι)} {b : Set ι}
    (h : Partitions base used (l₁ ++ b :: l₂)) : Partitions base (used \ b) (l₁ ++ l₂) := by
  have hsub : (l₁ ++ l₂).Sublist (l₁ ++ b :: l₂) :=
    List.Sublist.append_left (List.sublist_cons_self b l₂) l₁
  have hother : ∀ c ∈ l₁ ++ l₂, Disjoint b c := by
    intro c hc
    have hp := h.disjoint
    rw [List.pairwise_append, List.pairwise_cons] at hp
    rcases List.mem_append.mp hc with hc | hc
    · exact (hp.2.2 c hc b List.mem_cons_self).symm
    · exact hp.2.1.1 c hc
  refine ⟨h.disjoint.sublist hsub, fun c hc => h.off_base c (hsub.subset hc), fun i => ?_⟩
  have hbase := h.off_base b (List.mem_append_right l₁ List.mem_cons_self)
  constructor
  · intro hdiff
    obtain ⟨hi, hib⟩ := hdiff
    rcases (h.used_eq i).mp hi with hi | ⟨c, hc, hic⟩
    · exact Or.inl hi
    · refine Or.inr ⟨c, ?_, hic⟩
      rcases List.mem_append.mp hc with hc | hc
      · exact List.mem_append_left _ hc
      · rcases List.mem_cons.mp hc with rfl | hc
        · exact absurd hic hib
        · exact List.mem_append_right _ hc
  · intro hi
    rcases hi with hi | ⟨c, hc, hic⟩
    · exact ⟨(h.used_eq i).mpr (Or.inl hi), fun hib => Set.disjoint_left.mp hbase hi hib⟩
    · exact ⟨(h.used_eq i).mpr (Or.inr ⟨c, hsub.subset hc, hic⟩),
        fun hib => Set.disjoint_left.mp (hother c hc) hib hic⟩

end Blocks
