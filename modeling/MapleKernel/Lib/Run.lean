/-
  File:      Lib/Run.lean
  Subject:   RUNS OF A MACHINE THAT TAKES ONE OPERATION AFTER ANOTHER.

  A machine is a total function `step : σ → ι → σ`; a run is a list of operations taken from a
  start state. Two readings of a run are used by everything that says "in every state":

  * `Along step P s l` -- `P` holds in `s` and after every operation of `l`;
  * `Guarded step C s l` -- every operation of `l` meets `C` in the state it is taken in.

  `run_inv` is the invariant rule, `along_of_guarded` the same under a guard, `along_iff_guarded`
  its exact form: where one step keeps `P` exactly when it meets `C`, a whole run keeps `P` exactly
  when all its steps meet `C`. `along_iff_guarded_of_inv` is the same through a stronger invariant.
  `run_sim` is the simulation rule for two machines with the same operations.
-/
import Mathlib

namespace Runs

variable {σ ι : Type*} (step : σ → ι → σ)

/-- The state after the operations `l`, taken from `s`. -/
def run (s : σ) (l : List ι) : σ := l.foldl step s

/-- `P` holds in the start state and after every operation. -/
def Along (P : σ → Prop) : σ → List ι → Prop
  | s, [] => P s
  | s, i :: l => P s ∧ Along P (step s i) l

/-- Every operation meets `C` in the state before it. -/
def Guarded (C : σ → ι → Prop) : σ → List ι → Prop
  | _, [] => True
  | s, i :: l => C s i ∧ Guarded C (step s i) l

instance decidableGuarded (C : σ → ι → Prop) [∀ s i, Decidable (C s i)] :
    ∀ s l, Decidable (Guarded step C s l)
  | _, [] => inferInstanceAs (Decidable True)
  | s, i :: l =>
      have := decidableGuarded C (step s i) l
      inferInstanceAs (Decidable (C s i ∧ Guarded step C (step s i) l))

@[simp] theorem run_nil (s : σ) : run step s [] = s := rfl

@[simp] theorem run_cons (s : σ) (i : ι) (l : List ι) :
    run step s (i :: l) = run step (step s i) l := rfl

theorem run_append (s : σ) (l l' : List ι) :
    run step s (l ++ l') = run step (run step s l) l' := by
  simp only [run, List.foldl_append]

variable {step}

theorem Along.start {P : σ → Prop} {s : σ} {l : List ι} (h : Along step P s l) : P s := by
  cases l with
  | nil => exact h
  | cons i l => exact h.1

theorem Along.final {P : σ → Prop} {s : σ} {l : List ι} (h : Along step P s l) :
    P (run step s l) := by
  induction l generalizing s with
  | nil => exact h
  | cons i l ih => exact ih h.2

theorem Along.imp {P Q : σ → Prop} {s : σ} {l : List ι} (h : Along step P s l)
    (hPQ : ∀ s, P s → Q s) : Along step Q s l := by
  induction l generalizing s with
  | nil => exact hPQ s h
  | cons i l ih => exact ⟨hPQ s h.1, ih h.2⟩

/-- **The invariant rule**: what every step keeps, every run keeps. -/
theorem run_inv {P : σ → Prop} (hstep : ∀ s i, P s → P (step s i)) {s : σ} (h0 : P s)
    (l : List ι) : P (run step s l) := by
  induction l generalizing s with
  | nil => exact h0
  | cons i l ih => exact ih (hstep s i h0)

/-- **The invariant rule under a guard**: what a guarded step keeps, a guarded run keeps. -/
theorem along_of_guarded {P : σ → Prop} {C : σ → ι → Prop}
    (hstep : ∀ s i, P s → C s i → P (step s i)) {s : σ} {l : List ι} (h0 : P s)
    (hC : Guarded step C s l) : Along step P s l := by
  induction l generalizing s with
  | nil => exact h0
  | cons i l ih => exact ⟨h0, ih (hstep s i h0 hC.1) hC.2⟩

theorem guarded_append {C : σ → ι → Prop} {s : σ} {l l' : List ι} :
    Guarded step C s (l ++ l') ↔ Guarded step C s l ∧ Guarded step C (run step s l) l' := by
  induction l generalizing s with
  | nil => exact (iff_of_eq (true_and _)).symm
  | cons i l ih => exact (and_congr_right fun _ => ih).trans and_assoc.symm

/-- Every operation meets `C` in the state that the operations before it led to. -/
theorem guarded_iff_forall {C : σ → ι → Prop} {s : σ} {l : List ι} :
    Guarded step C s l ↔ ∀ l₁ i l₂, l = l₁ ++ i :: l₂ → C (run step s l₁) i := by
  constructor
  · intro h l₁ i l₂ heq
    rw [heq, guarded_append] at h
    exact h.2.1
  · intro h
    induction l generalizing s with
    | nil => trivial
    | cons i l ih =>
        refine ⟨h [] i l rfl, ih fun l₁ j l₂ heq => ?_⟩
        exact h (i :: l₁) j l₂ (congrArg (i :: ·) heq)

theorem guarded_and {C D : σ → ι → Prop} {s : σ} {l : List ι} :
    Guarded step (fun s i => C s i ∧ D s i) s l ↔ Guarded step C s l ∧ Guarded step D s l := by
  induction l generalizing s with
  | nil => exact (iff_of_eq (true_and _)).symm
  | cons i l ih => exact (and_congr_right fun _ => ih).trans and_and_and_comm

theorem guarded_of_forall {C : σ → ι → Prop} (h : ∀ s i, C s i) (s : σ) (l : List ι) :
    Guarded step C s l := by
  induction l generalizing s with
  | nil => trivial
  | cons i l ih => exact ⟨h s i, ih (step s i)⟩

/-- **The exact rule through an invariant**: `I` gives `P`, a step that meets `C` keeps `I`, and
    from an `I` state only a step that meets `C` arrives at `P`. -/
theorem along_iff_guarded_of_inv {I P : σ → Prop} {C : σ → ι → Prop}
    (hP : ∀ s, I s → P s) (hI : ∀ s i, I s → C s i → I (step s i))
    (hC : ∀ s i, I s → P (step s i) → C s i) {s : σ} {l : List ι} (h0 : I s) :
    Along step P s l ↔ Guarded step C s l := by
  refine ⟨fun h => ?_, fun h => (along_of_guarded hI h0 h).imp hP⟩
  induction l generalizing s with
  | nil => trivial
  | cons i l ih =>
      have hCi : C s i := hC s i h0 h.2.start
      exact ⟨hCi, ih (hI s i h0 hCi) h.2⟩

/-- **The exact invariant rule**: if one step from a `P` state stays in `P` exactly when it meets
    `C`, a run from a `P` state stays in `P` exactly when every step meets `C`. -/
theorem along_iff_guarded {P : σ → Prop} {C : σ → ι → Prop}
    (hstep : ∀ s i, P s → (P (step s i) ↔ C s i)) {s : σ} {l : List ι} (h0 : P s) :
    Along step P s l ↔ Guarded step C s l :=
  along_iff_guarded_of_inv (fun _ hs => hs) (fun s i hs hC => (hstep s i hs).mpr hC)
    (fun s i hs hP => (hstep s i hs).mp hP) h0

/-- Two guards that agree in the states of an invariant agree on a run. -/
theorem guarded_iff_of_inv {I : σ → Prop} {A B : σ → ι → Prop}
    (hAB : ∀ s i, I s → (A s i ↔ B s i)) (hI : ∀ s i, I s → A s i → I (step s i))
    {s : σ} {l : List ι} (h0 : I s) : Guarded step A s l ↔ Guarded step B s l := by
  induction l generalizing s with
  | nil => exact Iff.rfl
  | cons i l ih =>
      constructor
      · intro h
        obtain ⟨hA, hrest⟩ := h
        exact ⟨(hAB s i h0).mp hA, (ih (hI s i h0 hA)).mp hrest⟩
      · intro h
        obtain ⟨hB, hrest⟩ := h
        have hA : A s i := (hAB s i h0).mpr hB
        exact ⟨hA, (ih (hI s i h0 hA)).mpr hrest⟩

/-- **Simulation under a guard**: two machines whose steps keep `R`, where the operation meets `C`
    in the second, stay in `R` on a run that meets `C` there. -/
theorem run_sim {τ : Type*} {step' : τ → ι → τ} {R : σ → τ → Prop} {C : τ → ι → Prop}
    (hstep : ∀ s t i, R s t → C t i → R (step s i) (step' t i)) {s : σ} {t : τ} {l : List ι}
    (h0 : R s t) (hC : Guarded step' C t l) : R (run step s l) (run step' t l) := by
  induction l generalizing s t with
  | nil => exact h0
  | cons i l ih => exact ih (hstep s t i h0 hC.1) hC.2

end Runs
