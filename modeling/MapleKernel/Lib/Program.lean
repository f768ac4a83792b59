/-
  File:      Lib/Program.lean
  Subject:   PROGRAMS THAT READ AN ENVIRONMENT, CHANGE A STATE AND MAY HALT.

  A program takes an environment `ρ` that stays fixed (what the outside will answer) and a state
  `σ`. It returns a value or halts, and leaves a state in both cases.

  * `wp p e s Q E` -- from `s`, `p` returns into `Q` or halts into `E`; the rules `wp_pure`,
    `wp_bind`, `wp_ite`, ... take a program apart from its last postcondition;
  * `wp_mono` -- a specification of `p` is used by what it implies;
  * `Keeps R P p` -- `p` never halts, its result is in `P` and the state moves along `R`: closed
    under the same program constructs, for every preorder `R`;
  * `Prog.on` -- a program on a part of the state, and `wp_on`: the rest stays as it is.
-/
import Mathlib

namespace Program

/-- A program with environment `ρ`, state `σ`, halts `ε` and result `α`. -/
def Prog (ρ σ ε α : Type*) := ρ → σ → Except ε α × σ

universe u

variable {ρ σ τ ε : Type*} {α β : Type u}

namespace Prog

instance : Monad (Prog ρ σ ε) where
  pure a := fun _ s => (.ok a, s)
  bind p f := fun e s =>
    match p e s with
    | (.ok a, s') => f a e s'
    | (.error h, s') => (.error h, s')

/-- Stop here. -/
def halt (h : ε) : Prog ρ σ ε α := fun _ s => (.error h, s)

/-- The environment. -/
def ask : Prog ρ σ ε ρ := fun e s => (.ok e, s)

/-- The state. -/
def get : Prog ρ σ ε σ := fun _ s => (.ok s, s)

/-- Change the state. -/
def modify (f : σ → σ) : Prog ρ σ ε Unit := fun _ s => (.ok (), f s)

/-- Halt unless `c`. -/
def assert (c : Bool) (h : ε) : Prog ρ σ ε Unit := if c then pure () else halt h

/-- A program on the part `view s` of the state, put back by `update`. -/
def on (view : σ → τ) (update : τ → σ → σ) (p : Prog ρ τ ε α) : Prog ρ σ ε α := fun e s =>
  ((p e (view s)).1, update (p e (view s)).2 s)

end Prog

/-- A run, read off its first component. -/
theorem run_eq_of_fst {p : Prog ρ σ ε α} {e : ρ} {s : σ} {a : α} (h : (p e s).1 = .ok a) :
    p e s = (.ok a, (p e s).2) := Prod.ext h rfl

/-- What follows a program that returns. -/
theorem bind_of_ok {p : Prog ρ σ ε β} {f : β → Prog ρ σ ε α} {e : ρ} {s s' : σ} {b : β}
    (h : p e s = (.ok b, s')) : (p >>= f) e s = f b e s' := by
  simp only [bind, h]

theorem ask_bind {ρ : Type u} (f : ρ → Prog ρ σ ε α) (e : ρ) (s : σ) :
    (Prog.ask >>= f) e s = f e e s := rfl

theorem get_bind {σ : Type u} (f : σ → Prog ρ σ ε α) (e : ρ) (s : σ) :
    (Prog.get >>= f) e s = f s e s := rfl

theorem modify_bind {α : Type} (g : σ → σ) (f : Unit → Prog ρ σ ε α) (e : ρ) (s : σ) :
    (Prog.modify g >>= f) e s = f () e (g s) := rfl

/-- An assert that holds does nothing. -/
theorem assert_of_pos {c : Prop} [Decidable c] (hc : c) {h : ε} {e : ρ} {s : σ} :
    (Prog.assert c h : Prog ρ σ ε Unit) e s = (.ok (), s) := by
  rw [decide_eq_true hc]
  rfl

theorem assert_of_neg {c : Prop} [Decidable c] (hc : ¬ c) {h : ε} {e : ρ} {s : σ} :
    (Prog.assert c h : Prog ρ σ ε Unit) e s = (.error h, s) := by
  rw [decide_eq_false hc]
  rfl

/-- A sequence returns when both of its parts do. -/
theorem ok_of_bind_ok {p : Prog ρ σ ε β} {f : β → Prog ρ σ ε α} {e : ρ} {s s' : σ} {a : α}
    (h : (p >>= f) e s = (.ok a, s')) : ∃ b t, p e s = (.ok b, t) ∧ f b e t = (.ok a, s') := by
  simp only [bind] at h
  rcases hp : p e s with ⟨_ | b, t⟩
  · rw [hp] at h
    cases h
  · rw [hp] at h
    exact ⟨b, t, rfl, h⟩

theorem bind_bind {γ : Type u} (p : Prog ρ σ ε β) (f : β → Prog ρ σ ε α) (g : α → Prog ρ σ ε γ) :
    ((p >>= f) >>= g) = (p >>= fun b => f b >>= g) := by
  funext e s
  simp only [bind]
  rcases p e s with ⟨_ | _, s'⟩ <;> rfl

/-- What follows an early exit follows both of its ends. -/
theorem bind_check {γ : Type u} (p : Prog ρ σ ε β) (c : β → Prop) [DecidablePred c] (x : β → α)
    (q : β → Prog ρ σ ε α) (g : α → Prog ρ σ ε γ) :
    ((do let b ← p; if c b then return x b else q b) >>= g) =
      (do let b ← p; if c b then g (x b) else q b >>= g) := by
  rw [bind_bind]
  congr 1
  funext b
  split <;> rfl

/-- **From `s`, `p` returns into `Q` or halts into `E`.** -/
def wp (p : Prog ρ σ ε α) (e : ρ) (s : σ) (Q : α → σ → Prop) (E : ε → σ → Prop) : Prop :=
  match p e s with
  | (.ok a, s') => Q a s'
  | (.error h, s') => E h s'

section Rules

variable {e : ρ} {s : σ} {Q : α → σ → Prop} {E : ε → σ → Prop}

@[simp] theorem wp_pure {a : α} : wp (pure a : Prog ρ σ ε α) e s Q E ↔ Q a s := Iff.rfl

@[simp] theorem wp_halt {h : ε} : wp (Prog.halt h : Prog ρ σ ε α) e s Q E ↔ E h s := Iff.rfl

@[simp] theorem wp_ask {Q : ρ → σ → Prop} : wp (Prog.ask : Prog ρ σ ε ρ) e s Q E ↔ Q e s := Iff.rfl

@[simp] theorem wp_get {Q : σ → σ → Prop} : wp (Prog.get : Prog ρ σ ε σ) e s Q E ↔ Q s s := Iff.rfl

@[simp] theorem wp_modify {f : σ → σ} {Q : Unit → σ → Prop} :
    wp (Prog.modify f : Prog ρ σ ε Unit) e s Q E ↔ Q () (f s) := Iff.rfl

@[simp] theorem wp_bind {p : Prog ρ σ ε β} {f : β → Prog ρ σ ε α} :
    wp (p >>= f) e s Q E ↔ wp p e s (fun b s' => wp (f b) e s' Q E) E := by
  simp only [wp, bind]
  rcases p e s with ⟨_ | _, s'⟩ <;> rfl

@[simp] theorem wp_ite {c : Prop} [Decidable c] {p q : Prog ρ σ ε α} :
    wp (if c then p else q) e s Q E ↔ if c then wp p e s Q E else wp q e s Q E := by
  split <;> rfl

@[simp] theorem wp_assert {c : Bool} {h : ε} {Q : Unit → σ → Prop} :
    wp (Prog.assert c h : Prog ρ σ ε Unit) e s Q E ↔ if c then Q () s else E h s := by
  cases c <;> rfl

@[simp] theorem wp_on {view : σ → τ} {update : τ → σ → σ} {p : Prog ρ τ ε α} :
    wp (p.on view update) e s Q E ↔
      wp p e (view s) (fun a t => Q a (update t s)) (fun h t => E h (update t s)) := by
  simp only [wp, Prog.on]
  rcases p e (view s) with ⟨_ | _, t⟩ <;> rfl

/-- A specification is used by what it implies. -/
theorem wp_mono {p : Prog ρ σ ε α} {Q' : α → σ → Prop} {E' : ε → σ → Prop}
    (h : wp p e s Q E) (hQ : ∀ a s', Q a s' → Q' a s') (hE : ∀ h s', E h s' → E' h s') :
    wp p e s Q' E' := by
  unfold wp at h ⊢
  split at h
  · exact hQ _ _ h
  · exact hE _ _ h

theorem wp_of_ok {p : Prog ρ σ ε α} {a : α} {s' : σ} (hp : p e s = (.ok a, s')) :
    wp p e s Q E ↔ Q a s' := by
  rw [wp, hp]

theorem wp_of_error {p : Prog ρ σ ε α} {h : ε} {s' : σ} (hp : p e s = (.error h, s')) :
    wp p e s Q E ↔ E h s' := by
  rw [wp, hp]

/-- A program that cannot halt returns. -/
theorem exists_ok_of_wp {p : Prog ρ σ ε α} (h : wp p e s Q fun _ _ => False) :
    ∃ a s', p e s = (.ok a, s') ∧ Q a s' := by
  unfold wp at h
  split at h
  · next a s' hp => exact ⟨a, s', hp, h⟩
  · exact h.elim

end Rules

/-! ## Programs that always return -/

section Keeps

variable (R : σ → σ → Prop)

/-- **`p` never halts, its result satisfies `P`, and the states before and after are related by
    `R`.** -/
def Keeps (P : α → Prop) (p : Prog ρ σ ε α) : Prop :=
  ∀ e s, wp p e s (fun a s' => P a ∧ R s s') fun _ _ => False

variable {R} {P : α → Prop} {P' : β → Prop}

theorem keeps_pure [IsPreorder σ R] {a : α} (h : P a) : Keeps R P (pure a : Prog ρ σ ε α) :=
  fun _ s => ⟨h, refl_of R s⟩

theorem keeps_ask [IsPreorder σ R] : Keeps R (fun _ => True) (Prog.ask : Prog ρ σ ε ρ) :=
  fun _ s => ⟨trivial, refl_of R s⟩

theorem keeps_bind [IsPreorder σ R] {p : Prog ρ σ ε β} {f : β → Prog ρ σ ε α}
    (hp : Keeps R P' p) (hf : ∀ b, P' b → Keeps R P (f b)) : Keeps R P (p >>= f) := by
  intro e s
  rw [wp_bind]
  refine wp_mono (hp e s) ?_ fun _ _ h => h
  intro b s₁ h
  obtain ⟨hb, hR₁⟩ := h
  refine wp_mono (hf b hb e s₁) ?_ fun _ _ h => h
  intro a s₂ h
  obtain ⟨ha, hR₂⟩ := h
  exact ⟨ha, trans_of R hR₁ hR₂⟩

theorem keeps_get [IsPreorder σ R] : Keeps R (fun _ => True) (Prog.get : Prog ρ σ ε σ) :=
  fun _ s => ⟨trivial, refl_of R s⟩

theorem keeps_modify {f : σ → σ} (h : ∀ s, R s (f s)) :
    Keeps R (fun _ => True) (Prog.modify f : Prog ρ σ ε Unit) :=
  fun _ s => ⟨trivial, h s⟩

theorem keeps_ite {c : Prop} [Decidable c] {p q : Prog ρ σ ε α} (hp : c → Keeps R P p)
    (hq : ¬ c → Keeps R P q) : Keeps R P (if c then p else q) := by
  split
  · next h => exact hp h
  · next h => exact hq h

/-- **The early exit**: where the result of `p` meets `c` the program ends with `x`, else it goes
    on. -/
theorem keeps_check [IsPreorder σ R] {p : Prog ρ σ ε β} {c : β → Prop} [DecidablePred c]
    {x : β → α} {q : β → Prog ρ σ ε α} (hp : Keeps R (fun _ => True) p)
    (hx : ∀ b, c b → P (x b)) (hq : ∀ b, Keeps R P (q b)) :
    Keeps R P (do let b ← p; if c b then return x b else q b) :=
  keeps_bind hp fun b _ => keeps_ite (fun h => keeps_pure (hx b h)) (fun _ => hq b)

theorem Keeps.exists_ok {p : Prog ρ σ ε α} (h : Keeps R P p) (e : ρ) (s : σ) :
    ∃ a s', p e s = (.ok a, s') ∧ P a ∧ R s s' := exists_ok_of_wp (h e s)

end Keeps

end Program
