/-
  File:      Lib/Iterate.lean
  Subject:   LOOPS THAT MAY RUN FOR EVER, and when a walk over finitely many places ends.

  The body of a loop takes a state to the next state or to a result. `iterate` runs it with fuel;
  a loop returns `r` if some fuel gives `r`.

  * `Returns`, `Terminates` -- the result does not depend on the fuel (`Returns.unique`);
    `returns_of_inl`, `returns_of_inr` are the two ways a body goes on;
  * `countedBody` -- a loop over a 32-bit counter with a bound that may be wider: `returns_counted`
    below `2^32`, `not_terminates_counted` above;
  * `after` -- the state after `n` rounds, and `after_inv`, the invariant rule for all of them;
  * `Walk` -- a loop that follows `advance` from place to place, ends where it may `stop`, and
    counts the places that are `wanted` until it has passed `limit` of them;
  * `Walk.ends_iff` -- over finitely many places it ends exactly when it runs in no circle that has
    no wanted place on it and is reached before the limit;
  * `Walk.circle_iff_of_rank` -- where each step goes up, the circles are the places that lead to
    themselves.
-/
import Mathlib

namespace Iteration

variable {σ ρ : Type*}

/-! ## Loops with fuel -/

def iterate (body : σ → σ ⊕ ρ) : Nat → σ → Option ρ
  | 0, _ => none
  | n + 1, s =>
      match body s with
      | .inl s' => iterate body n s'
      | .inr r => some r

/-- The loop returns `r`. -/
def Returns (body : σ → σ ⊕ ρ) (s : σ) (r : ρ) : Prop := ∃ n, iterate body n s = some r

def Terminates (body : σ → σ ⊕ ρ) (s : σ) : Prop := ∃ r, Returns body s r

section Returns

variable {body : σ → σ ⊕ ρ} {s s' : σ} {r r' : ρ}

theorem iterate_succ_of_some {n : Nat} (h : iterate body n s = some r) :
    iterate body (n + 1) s = some r := by
  induction n generalizing s with
  | zero => cases h
  | succ n ih =>
      rw [iterate] at h ⊢
      split at h
      · exact ih h
      · exact h

theorem iterate_of_le {n m : Nat} (hle : n ≤ m) (h : iterate body n s = some r) :
    iterate body m s = some r := by
  induction m, hle using Nat.le_induction with
  | base => exact h
  | succ m _ ih => exact iterate_succ_of_some ih

theorem Returns.unique (h : Returns body s r) (h' : Returns body s r') : r = r' := by
  obtain ⟨n, hn⟩ := h
  obtain ⟨m, hm⟩ := h'
  have hn' := iterate_of_le (Nat.le_max_left n m) hn
  rw [iterate_of_le (Nat.le_max_right n m) hm] at hn'
  exact (Option.some.inj hn').symm

theorem returns_of_inl (hbody : body s = .inl s') : Returns body s r ↔ Returns body s' r := by
  constructor
  · intro h
    obtain ⟨n, hn⟩ := h
    cases n with
    | zero => cases hn
    | succ n =>
        rw [iterate, hbody] at hn
        exact ⟨n, hn⟩
  · intro h
    obtain ⟨n, hn⟩ := h
    refine ⟨n + 1, ?_⟩
    rw [iterate, hbody]
    exact hn

theorem returns_of_inr (hbody : body s = .inr r) : Returns body s r := by
  refine ⟨1, ?_⟩
  rw [iterate, hbody]

end Returns

theorem not_terminates_of_inl {body : σ → σ ⊕ ρ} (h : ∀ s, ∃ s', body s = .inl s') (s : σ) :
    ¬ Terminates body s := by
  intro hterm
  obtain ⟨r, n, hn⟩ := hterm
  induction n generalizing s with
  | zero => cases hn
  | succ n ih =>
      obtain ⟨s', hs'⟩ := h s
      rw [iterate, hs'] at hn
      exact ih s' hn

/-! ## Loops with a 32-bit counter -/

/-- `for (uint32_t i = 0; i < N; i++)`, where the bound may be wider than the counter. -/
def countedBody (N : Nat) (f : Nat → σ → σ ⊕ ρ) (exit : σ → ρ) (s : UInt32 × σ) :
    (UInt32 × σ) ⊕ ρ :=
  if s.1.toNat < N then
    match f s.1.toNat s.2 with
    | .inl t => .inl (s.1 + 1, t)
    | .inr r => .inr r
  else .inr (exit s.2)

/-- What the last `k` rounds return, from round `i` on. -/
def counted (f : Nat → σ → σ ⊕ ρ) (exit : σ → ρ) : Nat → Nat → σ → ρ
  | 0, _, s => exit s
  | k + 1, i, s =>
      match f i s with
      | .inl t => counted f exit k (i + 1) t
      | .inr r => r

section Counted

variable {N : Nat} {f : Nat → σ → σ ⊕ ρ} {exit : σ → ρ}

/-- Up to `2^32` the counter does not wrap. -/
theorem returns_counted (hN : N < 2 ^ 32) {k i : Nat} (h : i + k = N) (s : σ) :
    Returns (countedBody N f exit) (.ofNat i, s) (counted f exit k i s) := by
  induction k generalizing i s with
  | zero =>
      refine returns_of_inr ?_
      rw [countedBody, UInt32.toNat_ofNat_of_lt' (by rw [UInt32.size]; omega), if_neg (by omega)]
      rfl
  | succ k ih =>
      have hi : (UInt32.ofNat i).toNat = i := UInt32.toNat_ofNat_of_lt' (by rw [UInt32.size]; omega)
      rw [counted]
      cases hf : f i s with
      | inr r =>
          refine returns_of_inr ?_
          rw [countedBody, hi, if_pos (by omega), hf]
      | inl t =>
          have hbody : countedBody N f exit (.ofNat i, s) = .inl (.ofNat (i + 1), t) := by
            rw [countedBody, hi, if_pos (by omega), hf, UInt32.ofNat_add]
            rfl
          rw [returns_of_inl hbody]
          exact ih (by omega) t

/-- From `2^32` on the counter never gets there. -/
theorem not_terminates_counted (hN : 2 ^ 32 ≤ N) (hf : ∀ i s, ∃ t, f i s = .inl t)
    (s : UInt32 × σ) : ¬ Terminates (countedBody N f exit) s := by
  refine not_terminates_of_inl (fun s => ?_) s
  obtain ⟨t, ht⟩ := hf s.1.toNat s.2
  have hlt : s.1.toNat < N := s.1.toNat_lt.trans_le hN
  exact ⟨(s.1 + 1, t), by rw [countedBody, if_pos hlt, ht]⟩

end Counted

/-! ## The states of a loop -/

/-- The state after `n` rounds, if the loop gets there. -/
def after (body : σ → σ ⊕ ρ) : Nat → σ → Option σ
  | 0, s => some s
  | n + 1, s =>
      match body s with
      | .inl s' => after body n s'
      | .inr _ => none

section After

variable {body : σ → σ ⊕ ρ} {s s' : σ}

theorem after_succ_of_inl (hbody : body s = .inl s') (n : Nat) :
    after body (n + 1) s = after body n s' := by
  rw [after, hbody]

theorem after_succ_of_inr {r : ρ} (hbody : body s = .inr r) (n : Nat) :
    after body (n + 1) s = none := by
  rw [after, hbody]

theorem after_succ {n : Nat} (h : after body n s = some s') :
    after body (n + 1) s = after body 1 s' := by
  induction n generalizing s with
  | zero =>
      obtain rfl := Option.some.inj h
      rfl
  | succ n ih =>
      rcases hbody : body s with s₁ | r
      · rw [after_succ_of_inl hbody] at h ⊢
        exact ih h
      · rw [after_succ_of_inr hbody] at h
        cases h

/-- **The invariant rule**: what every round keeps holds after every round. -/
theorem after_inv {I : Nat → σ → Prop}
    (hstep : ∀ n s s', I n s → body s = .inl s' → I (n + 1) s') {k : Nat} (h0 : I k s) {n : Nat}
    (h : after body n s = some s') : I (k + n) s' := by
  induction n generalizing s k with
  | zero =>
      obtain rfl := Option.some.inj h
      exact h0
  | succ n ih =>
      rcases hbody : body s with s₁ | r
      · rw [after_succ_of_inl hbody] at h
        have hn := ih (hstep k s s₁ h0 hbody) h
        rwa [Nat.add_assoc, Nat.add_comm 1] at hn
      · rw [after_succ_of_inr hbody] at h
        cases h

/-- A loop ends exactly when some round finds no state. -/
theorem terminates_iff : Terminates body s ↔ ∃ n, after body n s = none := by
  constructor
  · intro h
    obtain ⟨r, n, hn⟩ := h
    refine ⟨n, ?_⟩
    induction n generalizing s with
    | zero => cases hn
    | succ n ih =>
        rcases hbody : body s with s₁ | r'
        · rw [iterate, hbody] at hn
          rw [after_succ_of_inl hbody]
          exact ih hn
        · exact after_succ_of_inr hbody n
  · intro h
    obtain ⟨n, hn⟩ := h
    induction n generalizing s with
    | zero => cases hn
    | succ n ih =>
        rcases hbody : body s with s₁ | r
        · rw [after_succ_of_inl hbody] at hn
          obtain ⟨r, hr⟩ := ih hn
          exact ⟨r, (returns_of_inl hbody).mpr hr⟩
        · exact ⟨r, returns_of_inr hbody⟩

end After

/-! ## Walks -/

/-- A way through places `α`: where it goes next, where it may stop, and what it looks for. -/
structure Walk (α : Type*) where
  advance : α → α
  stop : α → Prop
  wanted : α → Bool
  limit : Nat

namespace Walk

variable {α : Type*} (W : Walk α) (a : α)

/-- The `n`-th place. -/
def place (n : Nat) : α := W.advance^[n] a

/-- How many of the first `n` places are wanted. -/
def hits (n : Nat) : Nat := Nat.count (fun m => W.wanted (W.place a m) = true) n

/-- The walk ends at its `n`-th place. -/
def EndsAt (n : Nat) : Prop :=
  W.stop (W.place a n) ∨ W.wanted (W.place a n) ∧ W.hits a n = W.limit

def Ends : Prop := ∃ n, W.EndsAt a n

/-- Place `j` is place `i` again, nowhere before `j` may the walk stop, nothing is wanted on the way
round, and not more than the limit on the way there. -/
structure CircleAt (i j : Nat) : Prop where
  lt : i < j
  back : W.place a i = W.place a j
  noStop : ∀ n < j, ¬ W.stop (W.place a n)
  noneWanted : ∀ n, i ≤ n → n < j → ¬ W.wanted (W.place a n)
  hits_le : W.hits a i ≤ W.limit

/-- **The walk runs in a circle.** -/
def Circle : Prop := ∃ i j, W.CircleAt a i j

variable {W a}

theorem place_succ (n : Nat) : W.place a (n + 1) = W.advance (W.place a n) :=
  Function.iterate_succ_apply' _ _ _

theorem hits_succ_of_wanted {n : Nat} (h : W.wanted (W.place a n)) :
    W.hits a (n + 1) = W.hits a n + 1 := by
  rw [hits, Nat.count_succ, if_pos h, hits]

theorem hits_succ_of_not {n : Nat} (h : ¬ W.wanted (W.place a n)) :
    W.hits a (n + 1) = W.hits a n := by
  rw [hits, Nat.count_succ, if_neg h, Nat.add_zero, hits]

theorem hits_mono {n m : Nat} (h : n ≤ m) : W.hits a n ≤ W.hits a m := Nat.count_monotone _ h

/-- Once on the circle the walk stays on it. -/
theorem CircleAt.mem {i j : Nat} (h : W.CircleAt a i j) {n : Nat} (hn : i ≤ n) :
    ∃ m, i ≤ m ∧ m < j ∧ W.place a n = W.place a m := by
  induction n, hn using Nat.le_induction with
  | base => exact ⟨i, le_rfl, h.lt, rfl⟩
  | succ n _ ih =>
      obtain ⟨m, him, hmj, heq⟩ := ih
      rw [place_succ, heq, ← place_succ]
      by_cases hlast : m + 1 = j
      · exact ⟨i, le_rfl, h.lt, by rw [hlast, h.back]⟩
      · exact ⟨m + 1, by omega, by omega, rfl⟩

theorem CircleAt.not_wanted {i j : Nat} (h : W.CircleAt a i j) {n : Nat} (hn : i ≤ n) :
    ¬ W.wanted (W.place a n) := by
  obtain ⟨m, him, hmj, heq⟩ := h.mem hn
  rw [heq]
  exact h.noneWanted m him hmj

theorem CircleAt.not_stop {i j : Nat} (h : W.CircleAt a i j) (n : Nat) :
    ¬ W.stop (W.place a n) := by
  by_cases hn : i ≤ n
  · obtain ⟨m, -, hmj, heq⟩ := h.mem hn
    rw [heq]
    exact h.noStop m hmj
  · exact h.noStop n (by have := h.lt; omega)

/-- A walk in a circle does not end. -/
theorem Circle.not_ends (h : W.Circle a) : ¬ W.Ends a := by
  obtain ⟨i, j, hc⟩ := h
  intro h
  obtain ⟨n, hstop | ⟨hwanted, hhits⟩⟩ := h
  · exact hc.not_stop n hstop
  · by_cases hn : i ≤ n
    · exact hc.not_wanted hn hwanted
    · -- the wanted place at the limit comes before the circle, which is then past the limit
      have hmono : W.hits a (n + 1) ≤ W.hits a i := hits_mono (by omega)
      have hle := hc.hits_le
      rw [hits_succ_of_wanted hwanted] at hmono
      omega

/-- A walk that never ends never passes its limit. -/
theorem hits_le_of_not_ends (h : ¬ W.Ends a) (n : Nat) : W.hits a n ≤ W.limit := by
  induction n with
  | zero => exact Nat.zero_le _
  | succ n ih =>
      by_cases hw : W.wanted (W.place a n)
      · have hne : W.hits a n ≠ W.limit := fun heq => h ⟨n, .inr ⟨hw, heq⟩⟩
        rw [hits_succ_of_wanted hw]
        omega
      · rwa [hits_succ_of_not hw]

theorem circleAt_of_eq (h : ¬ W.Ends a) {i j : Nat} (hlt : i < j)
    (hplace : W.place a i = W.place a j) (hhits : W.hits a i = W.hits a j) :
    W.CircleAt a i j where
  lt := hlt
  back := hplace
  noStop n _ hstop := h ⟨n, .inl hstop⟩
  noneWanted n hin hnj hw := by
    have h₁ : W.hits a i ≤ W.hits a n := hits_mono hin
    have h₂ : W.hits a (n + 1) ≤ W.hits a j := hits_mono hnj
    rw [hits_succ_of_wanted hw] at h₂
    omega
  hits_le := hits_le_of_not_ends h i

/-- **Over finitely many places a walk ends exactly when it does not run in a circle.** -/
theorem ends_iff [Finite α] : W.Ends a ↔ ¬ W.Circle a := by
  refine ⟨fun h hc => hc.not_ends h, fun h => ?_⟩
  by_contra hends
  -- two rounds see the same place with the same count
  let seen : Nat → α × Fin (W.limit + 1) := fun n =>
    (W.place a n, ⟨W.hits a n, Nat.lt_succ_of_le (hits_le_of_not_ends hends n)⟩)
  obtain ⟨i, j, hne, heq⟩ := Finite.exists_ne_map_eq_of_infinite seen
  have hplace : W.place a i = W.place a j := congrArg Prod.fst heq
  have hhits : W.hits a i = W.hits a j := congrArg (fun x => x.2.val) heq
  rcases Nat.lt_or_gt_of_ne hne with hlt | hlt
  · exact h ⟨i, j, circleAt_of_eq hends hlt hplace hhits⟩
  · exact h ⟨j, i, circleAt_of_eq hends hlt hplace.symm hhits.symm⟩

/-- A place that leads to itself is the smallest circle. -/
theorem circle_of_advance_eq (hadv : W.advance a = a) (hstop : ¬ W.stop a)
    (hwanted : ¬ W.wanted a) : W.Circle a := by
  refine ⟨0, 1, Nat.zero_lt_one, hadv.symm, fun n hn => ?_, fun n _ hn => ?_, ?_⟩
  · rw [Nat.lt_one_iff.mp hn]
    exact hstop
  · rw [Nat.lt_one_iff.mp hn]
    exact hwanted
  · rw [hits, Nat.count_zero]
    exact Nat.zero_le _

/-- Where a rank grows with every step to another place, there is no other circle. -/
theorem circle_iff_of_rank (rank : α → Nat)
    (hrank : ∀ n, (∀ m ≤ n, ¬ W.stop (W.place a m)) →
      W.place a (n + 1) = W.place a n ∨ rank (W.place a n) < rank (W.place a (n + 1))) :
    W.Circle a ↔ ∃ n, W.CircleAt a n (n + 1) := by
  refine ⟨fun hcircle => ?_, fun ⟨n, hn⟩ => ⟨n, n + 1, hn⟩⟩
  obtain ⟨i, j, hc⟩ := id hcircle
  by_contra hnone
  have hgrows : ∀ n, i ≤ n → rank (W.place a n) < rank (W.place a (n + 1)) := by
    intro n hin
    rcases hrank n (fun m _ => hc.not_stop m) with hstay | hlt
    · exact absurd ⟨n, circleAt_of_eq hcircle.not_ends n.lt_succ_self hstay.symm
        (hits_succ_of_not (hc.not_wanted hin)).symm⟩ hnone
    · exact hlt
  have hless : ∀ n, i + 1 ≤ n → rank (W.place a i) < rank (W.place a n) := by
    intro n hn
    induction n, hn using Nat.le_induction with
    | base => exact hgrows i le_rfl
    | succ n hn ih => exact ih.trans (hgrows n (by omega))
  have hlt := hless j hc.lt
  rw [hc.back] at hlt
  exact lt_irrefl _ hlt

end Walk

/-! ## Loops that walk -/

/-- The loop follows the walk: `at` is the place of a state, `count` what it has found. -/
structure Follows (body : σ → σ ⊕ ρ) {α : Type*} (W : Walk α) (pos : σ → α) (count : σ → Nat) :
    Prop where
  inl : ∀ s s', count s ≤ W.limit → body s = .inl s' →
    ¬ W.stop (pos s) ∧ ¬ (W.wanted (pos s) ∧ count s = W.limit) ∧ pos s' = W.advance (pos s) ∧
    (W.wanted (pos s) → count s' = count s + 1) ∧ (¬ W.wanted (pos s) → count s' = count s)
  inr : ∀ s r, count s ≤ W.limit → body s = .inr r →
    W.stop (pos s) ∨ W.wanted (pos s) ∧ count s = W.limit

section Follows

variable {body : σ → σ ⊕ ρ} {α : Type*} {W : Walk α} {pos : σ → α} {count : σ → Nat}

/-- After `n` rounds a loop is at the `n`-th place of the walk, and the walk did not end before. -/
theorem Follows.after_eq (h : Follows body W pos count) {s s' : σ} (h0 : count s = 0) {n : Nat}
    (hn : after body n s = some s') :
    pos s' = W.place (pos s) n ∧ count s' = W.hits (pos s) n ∧ count s' ≤ W.limit ∧
      ∀ m < n, ¬ W.EndsAt (pos s) m := by
  have hinv := after_inv
    (I := fun n s' => pos s' = W.place (pos s) n ∧ count s' = W.hits (pos s) n ∧
      count s' ≤ W.limit ∧ ∀ m < n, ¬ W.EndsAt (pos s) m) (k := 0)
    (by
      intro n s₁ s₂ h hbody
      obtain ⟨hpos, hcount, hle, hends⟩ := h
      obtain ⟨hstop, hfound, hadv, hyes, hno⟩ := h.inl s₁ s₂ hle hbody
      rw [hpos] at hstop hfound hadv hyes hno
      have hlast : ∀ m < n + 1, ¬ W.EndsAt (pos s) m := by
        intro m hm hm'
        by_cases hmn : m = n
        · rw [hmn, Walk.EndsAt, ← hcount] at hm'
          rcases hm' with hs | hw
          · exact hstop hs
          · exact hfound hw
        · exact hends m (by omega) hm'
      refine ⟨hadv.trans (Walk.place_succ n).symm, ?_, ?_, hlast⟩
      · by_cases hw : W.wanted (W.place (pos s) n)
        · rw [Walk.hits_succ_of_wanted hw, hyes hw, hcount]
        · rw [Walk.hits_succ_of_not hw, hno hw, hcount]
      · by_cases hw : W.wanted (W.place (pos s) n)
        · have hne : count s₁ ≠ W.limit := fun heq => hfound ⟨hw, heq⟩
          rw [hyes hw]
          omega
        · rwa [hno hw])
    ⟨rfl, by rw [h0, Walk.hits, Nat.count_zero], by omega,
      fun m hm => absurd hm (Nat.not_lt_zero m)⟩
    hn
  simpa using hinv

/-- While the walk does not end the loop goes on. -/
theorem Follows.exists_after (h : Follows body W pos count) {s : σ} (h0 : count s = 0) {n : Nat}
    (hends : ∀ m < n, ¬ W.EndsAt (pos s) m) : ∃ s', after body n s = some s' := by
  induction n with
  | zero => exact ⟨s, rfl⟩
  | succ n ih =>
      obtain ⟨s', hs'⟩ := ih fun m hm => hends m (Nat.lt_succ_of_lt hm)
      obtain ⟨hpos, hcount, hle, -⟩ := h.after_eq h0 hs'
      rcases hbody : body s' with s₁ | r
      · exact ⟨s₁, by rw [after_succ hs', after_succ_of_inl hbody, after]⟩
      · have hend := h.inr s' r hle hbody
        rw [hpos, hcount] at hend
        exact absurd hend (hends n (Nat.lt_succ_self n))

/-- **A loop that follows a walk terminates exactly when the walk ends.** -/
theorem Follows.terminates_iff (h : Follows body W pos count) {s : σ} (h0 : count s = 0) :
    Terminates body s ↔ W.Ends (pos s) := by
  rw [Iteration.terminates_iff]
  constructor
  · intro h
    obtain ⟨n, hn⟩ := h
    by_contra hends
    obtain ⟨s', hs'⟩ := h.exists_after h0 fun m _ hm => hends ⟨m, hm⟩
    rw [hn] at hs'
    cases hs'
  · intro h
    obtain ⟨n, hn⟩ := h
    refine ⟨n + 1, ?_⟩
    rcases hafter : after body (n + 1) s with _ | s'
    · rfl
    · obtain ⟨-, -, -, hbefore⟩ := h.after_eq h0 hafter
      exact absurd hn (hbefore n (Nat.lt_succ_self n))

/-- Over finitely many places the circle decides. -/
theorem Follows.terminates_iff_circle [Finite α] (h : Follows body W pos count) {s : σ}
    (h0 : count s = 0) : Terminates body s ↔ ¬ W.Circle (pos s) :=
  (h.terminates_iff h0).trans Walk.ends_iff

end Follows

end Iteration
