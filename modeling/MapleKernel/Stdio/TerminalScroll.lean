/-
  File:      Stdio/TerminalScroll.lean
  Subject:   SCROLLING THE TERMINAL by any number of rows, up and down.

  The amount is an `int`, the row it is added to a `size_t`: a sum below zero is a large number for
  `terminal_set_scroll`, which takes it for one behind the end; the test `row < 0` of the source is
  never true.

  * `scrollStep` -- a call of `terminal_scroll_down` or `terminal_scroll_up`;
  * `ScrollsRight` -- the scroll row becomes the clamped sum, and the screen shows the window there;
  * `scrollsRight_iff` -- one call does that exactly when the sum is not below zero; else the view
    goes to the bottom (`scrollRow_of_neg`);
  * `scroll_clamped_iff` -- so it is along every run.
-/
import MapleKernel.Lib.Run
import MapleKernel.Stdio.VgaTerminal

namespace MapleKernel.Stdio

open Runs

/-- A call, with its `int` amount. -/
inductive ScrollCall where
  | down (scrollAmount : Int)
  | up (scrollAmount : Int)
  deriving DecidableEq, Repr

def scrollStep (t : TerminalContext) : ScrollCall → TerminalContext
  | .down scrollAmount => terminalScrollDown scrollAmount t
  | .up scrollAmount => terminalScrollUp scrollAmount t

namespace ScrollCall

def amount : ScrollCall → Int
  | .down scrollAmount | .up scrollAmount => scrollAmount

/-- The row that the call asks for. -/
def total (t : TerminalContext) : ScrollCall → Int
  | .down scrollAmount => t.scrollRow + scrollAmount
  | .up scrollAmount => t.scrollRow - scrollAmount

end ScrollCall

/-- Amount and sum are in the range of `int`. -/
def FitsInt (t : TerminalContext) (c : ScrollCall) : Prop :=
  (-2 ^ 31 ≤ c.amount ∧ c.amount < 2 ^ 31) ∧ -2 ^ 31 ≤ c.total t ∧ c.total t < 2 ^ 31

/-- `row` moved into `[0, VGA_MEM_HEIGHT - VGA_HEIGHT]`. -/
def clampScroll (row : Int) : Int := max 0 (min row ((vgaMemHeight - vgaHeight : Nat) : Int))

/-- **The call scrolls to the clamped sum**, and the screen shows that window of the scrollback. -/
structure ScrollsRight (t : TerminalContext) (c : ScrollCall) : Prop where
  row : ((scrollStep t c).scrollRow : Int) = clampScroll (c.total t)
  view : ∀ y < vgaHeight, ∀ x < vgaWidth, (scrollStep t c).vgaBuffer y x
    = t.bigScrollableBuffer (y + (scrollStep t c).scrollRow) x

section Scroll

variable {t : TerminalContext} {c : ScrollCall}

theorem scrollStep_eq (t : TerminalContext) (c : ScrollCall) :
    scrollStep t c = terminalSetScroll (c.total t % 2 ^ 32).toNat t := by
  cases c <;> rfl

theorem scrollStep_scrollRow (t : TerminalContext) (c : ScrollCall) :
    (scrollStep t c).scrollRow = min (c.total t % 2 ^ 32).toNat 975 := by
  rw [scrollStep_eq, terminalSetScroll_eq]

theorem scrollStep_view (t : TerminalContext) (c : ScrollCall) {y x : Nat} (hy : y < vgaHeight)
    (hx : x < vgaWidth) : (scrollStep t c).vgaBuffer y x
      = t.bigScrollableBuffer (y + (scrollStep t c).scrollRow) x := by
  rw [scrollStep_eq, terminalSetScroll_eq]
  exact if_pos ⟨hy, hx⟩

/-- A sum below zero moves the view to the bottom. -/
theorem scrollRow_of_neg (hint : FitsInt t c) (hneg : c.total t < 0) :
    (scrollStep t c).scrollRow = 975 := by
  obtain ⟨-, hlow, -⟩ := hint
  rw [scrollStep_scrollRow]
  omega

/-- **One call is right exactly when the sum is not below zero.** -/
theorem scrollsRight_iff (hint : FitsInt t c) : ScrollsRight t c ↔ 0 ≤ c.total t := by
  constructor
  · intro h
    by_contra hneg
    have hrow := h.row
    rw [scrollRow_of_neg hint (by omega), clampScroll] at hrow
    omega
  · intro hpos
    obtain ⟨-, -, hhigh⟩ := hint
    refine ⟨?_, fun y hy x hx => scrollStep_view t c hy hx⟩
    rw [scrollStep_scrollRow, clampScroll, Int.emod_eq_of_lt hpos (by omega)]
    unfold vgaMemHeight vgaHeight
    omega

end Scroll

/-- **Along a run every call is right exactly when no sum is below zero.** -/
theorem scroll_clamped_iff {t : TerminalContext} {l : List ScrollCall}
    (hint : Guarded scrollStep FitsInt t l) :
    Guarded scrollStep ScrollsRight t l ↔ Guarded scrollStep (fun t c => 0 ≤ c.total t) t l := by
  have hboth : Guarded scrollStep (fun t c => FitsInt t c ∧ ScrollsRight t c) t l
      ↔ Guarded scrollStep (fun t c => FitsInt t c ∧ 0 ≤ c.total t) t l :=
    guarded_iff_of_inv (I := fun _ => True)
      (fun _ _ _ => and_congr_right fun hfits => scrollsRight_iff hfits) (fun _ _ _ _ => trivial)
      trivial
  rw [guarded_and, guarded_and] at hboth
  exact (and_congr_right_iff.mp hboth) hint

/-- The terminal at power on. -/
def bootTerminal : TerminalContext := .boot fun _ _ => 0

/-- Two rows down, one up. -/
theorem scroll_clamped_iff_downUp :
    Guarded scrollStep ScrollsRight bootTerminal [.down 2, .up 1]
      ↔ Guarded scrollStep (fun t c => 0 ≤ c.total t) bootTerminal [.down 2, .up 1] := by
  have hrow : (scrollStep bootTerminal (.down 2)).scrollRow = 2 := scrollStep_scrollRow _ _
  have hfirst : (ScrollCall.down 2).total bootTerminal = 2 := rfl
  have hsecond : (ScrollCall.up 1).total (scrollStep bootTerminal (.down 2)) = 1 := by
    rw [ScrollCall.total, hrow]
    rfl
  refine scroll_clamped_iff ⟨⟨by decide, ?_⟩, ⟨by decide, ?_⟩, trivial⟩
  · rw [hfirst]
    decide
  · rw [hsecond]
    decide

/-- One row up at the top of the scrollback shows its bottom. -/
theorem scroll_up_at_top :
    (scrollStep bootTerminal (.up 1)).scrollRow = 975 ∧
      ¬ ∀ (t : TerminalContext) (l : List ScrollCall), t.scrollRow ≤ 975 →
        Guarded scrollStep FitsInt t l → Guarded scrollStep ScrollsRight t l := by
  have hint : FitsInt bootTerminal (.up 1) := ⟨by decide, by decide⟩
  have hneg : (ScrollCall.up 1).total bootTerminal < 0 := by decide
  refine ⟨scrollRow_of_neg hint hneg, fun hall => ?_⟩
  have h := hall bootTerminal [.up 1] (Nat.zero_le _) ⟨hint, trivial⟩
  exact absurd ((scrollsRight_iff hint).mp h.1) (by decide)

end MapleKernel.Stdio
