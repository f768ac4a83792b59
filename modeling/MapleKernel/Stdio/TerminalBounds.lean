/-
  File:      Stdio/TerminalBounds.lean
  Subject:   CURSOR AND SCROLL BOUNDS of the terminal, over runs of its operations.

  * `InBounds` -- the write position is a cell of the scrollback, the scroll row leaves a full
    screen below it, and no access so far was outside a buffer.
  * `terminalPutchar_inBounds`, `terminalCtrlF_inBounds`, ...: the operations that always keep
    the bounds. `terminalArrowUp_inBounds_iff` and `terminalArrowDown_inBounds_iff`: the two
    that keep them from some states only.
  * `terminal_inBounds_iff`: a run keeps the bounds exactly when no arrow key is pressed at the
    edge of the scrollback that it moves towards.
-/
import MapleKernel.Lib.Run
import MapleKernel.Stdio.VgaTerminal

namespace MapleKernel.Stdio

open Loops Runs

/-! ## 1. The invariant -/

structure InBounds (t : TerminalContext) : Prop where
  row_lt : t.currentWriteRow < vgaMemHeight
  column_lt : t.currentWriteColumn < vgaWidth
  scroll_le : t.scrollRow ≤ vgaMemHeight - vgaHeight
  no_fault : t.fault = false

theorem InBounds.row_le {t : TerminalContext} (h : InBounds t) : t.currentWriteRow ≤ 999 :=
  Nat.le_of_lt_succ h.row_lt

theorem InBounds.scroll_le_max {t : TerminalContext} (h : InBounds t) : t.scrollRow ≤ 975 :=
  h.scroll_le

/-- Nothing but the four fields it names matters to `InBounds`. -/
theorem InBounds.congr {t t' : TerminalContext} (h : InBounds t)
    (hr : t'.currentWriteRow = t.currentWriteRow)
    (hc : t'.currentWriteColumn = t.currentWriteColumn) (hs : t'.scrollRow = t.scrollRow)
    (hf : t'.fault = t.fault) : InBounds t' where
  row_lt := hr ▸ h.row_lt
  column_lt := hc ▸ h.column_lt
  scroll_le := hs ▸ h.scroll_le
  no_fault := hf ▸ h.no_fault

theorem initializeTerminal_inBounds (vga : Nat → Nat → UInt16) :
    InBounds (initializeTerminal (.boot vga)) := by
  rw [initializeTerminal_eq]
  exact ⟨vgaMemHeight_pos, vgaWidth_pos, Nat.zero_le _, rfl⟩

theorem terminalSetScroll_inBounds {t : TerminalContext} (h : InBounds t) (row : Nat) :
    InBounds (terminalSetScroll row t) := by
  rw [terminalSetScroll_eq]
  exact ⟨h.row_lt, h.column_lt, Nat.min_le_right _ _, h.no_fault⟩

theorem terminalScrollDown_inBounds {t : TerminalContext} (h : InBounds t) (amount : Int) :
    InBounds (terminalScrollDown amount t) :=
  terminalSetScroll_inBounds h _

theorem sub32_of_le {a b : Nat} (hba : b ≤ a) (ha : a < 2 ^ 32) : sub32 a b = a - b := by
  unfold sub32; omega

/-! ## 2. One character

A plain character is stored, the column moves on, and the 80th column opens a new row. -/

/-- The state between the store of a character and the move of the column. -/
def storedChar (c : UInt8) (t : TerminalContext) : TerminalContext :=
  terminalPutentryat c t.color t.currentWriteColumn t.currentWriteRow (serialWriteChar c t)

theorem storedChar_eq {t : TerminalContext} (h : InBounds t) (c : UInt8) :
    storedChar c t = { t with
      com1 := t.com1 ++ [c]
      entries := t.entries ++ [⟨c, t.currentWriteColumn, t.currentWriteRow, t.scrollRow⟩]
      bigScrollableBuffer :=
        put t.bigScrollableBuffer t.currentWriteRow t.currentWriteColumn (vgaEntry c t.color)
      vgaBuffer := if sub32 t.currentWriteRow t.scrollRow ≥ vgaHeight then t.vgaBuffer
        else put t.vgaBuffer (sub32 t.currentWriteRow t.scrollRow) t.currentWriteColumn
          (put t.bigScrollableBuffer t.currentWriteRow t.currentWriteColumn (vgaEntry c t.color)
            (sub32 t.currentWriteRow t.scrollRow) t.currentWriteColumn) } := by
  rw [storedChar, terminalPutentryat_eq h.row_lt h.column_lt]
  rfl

theorem storedChar_inBounds {t : TerminalContext} (h : InBounds t) (c : UInt8) :
    InBounds (storedChar c t) := by
  rw [storedChar_eq h]
  exact h.congr rfl rfl rfl rfl

theorem terminalPutcharPlain_newline (t : TerminalContext) :
    terminalPutcharPlain 0x0A t
      = terminalIncreaseRow { t with com1 := t.com1 ++ [0x0A], currentWriteColumn := 0 } := by
  unfold terminalPutcharPlain
  rw [if_pos rfl]
  rfl

theorem advanceColumn_eq {t : TerminalContext} (h : t.currentWriteColumn < vgaWidth) :
    advanceColumn t =
      if t.currentWriteColumn + 1 = vgaWidth
      then terminalIncreaseRow { t with currentWriteColumn := 0 }
      else { t with currentWriteColumn := t.currentWriteColumn + 1 } := by
  have hmod : (t.currentWriteColumn + 1) % 2 ^ 32 = t.currentWriteColumn + 1 :=
    Nat.mod_eq_of_lt (Nat.lt_of_le_of_lt h (by decide))
  show (if (t.currentWriteColumn + 1) % 2 ^ 32 = vgaWidth
    then terminalIncreaseRow { t with currentWriteColumn := 0 }
    else { t with currentWriteColumn := (t.currentWriteColumn + 1) % 2 ^ 32 }) = _
  rw [hmod]

theorem terminalPutcharPlain_char {c : UInt8} (hc : c ≠ 0x0A) (t : TerminalContext) :
    terminalPutcharPlain c t = advanceColumn (storedChar c t) := by
  unfold terminalPutcharPlain
  rw [if_neg hc]
  rfl

/-- The new row is in bounds whatever the old column was: both callers have just set it to 0. -/
theorem terminalIncreaseRow_inBounds {t : TerminalContext} (h : InBounds t) :
    InBounds (terminalIncreaseRow t) := by
  rcases Nat.lt_or_ge t.currentWriteRow 999 with hr | hr
  · have hrow : t.currentWriteRow + 1 < vgaMemHeight := Nat.succ_lt_succ hr
    have hnext : InBounds { t with currentWriteRow := t.currentWriteRow + 1 } :=
      ⟨hrow, h.column_lt, h.scroll_le, h.no_fault⟩
    rw [terminalIncreaseRow_of_lt hr h.scroll_le_max]
    split
    · exact terminalSetScroll_inBounds hnext _
    · exact hnext
  · have hlast : t.currentWriteRow = 999 := Nat.le_antisymm h.row_le hr
    rw [terminalIncreaseRow_last hlast h.scroll_le_max]
    exact ⟨vgaMemHeight_pos, vgaWidth_pos, Nat.zero_le _, h.no_fault⟩

/-- A new row short of the end of the scrollback moves the row, and the view at most. -/
theorem terminalIncreaseRow_frame {t : TerminalContext} (hr : t.currentWriteRow < 999)
    (hs : t.scrollRow ≤ 975) :
    (terminalIncreaseRow t).currentWriteRow = t.currentWriteRow + 1 ∧
    (terminalIncreaseRow t).currentWriteColumn = t.currentWriteColumn ∧
    (terminalIncreaseRow t).bigScrollableBuffer = t.bigScrollableBuffer ∧
    (terminalIncreaseRow t).color = t.color ∧
    (terminalIncreaseRow t).com1 = t.com1 := by
  rw [terminalIncreaseRow_of_lt hr hs]
  split
  · rw [terminalSetScroll_eq]; exact ⟨rfl, rfl, rfl, rfl, rfl⟩
  · exact ⟨rfl, rfl, rfl, rfl, rfl⟩

theorem InBounds.column_zero {t : TerminalContext} (h : InBounds t) :
    InBounds { t with currentWriteColumn := 0 } :=
  ⟨h.row_lt, vgaWidth_pos, h.scroll_le, h.no_fault⟩

/-- The state in which a newline opens its row: sent, column 0. -/
theorem InBounds.newline {t : TerminalContext} (h : InBounds t) :
    InBounds { t with com1 := t.com1 ++ [0x0A], currentWriteColumn := 0 } :=
  h.column_zero.congr rfl rfl rfl rfl

theorem advanceColumn_inBounds {t : TerminalContext} (h : InBounds t) :
    InBounds (advanceColumn t) := by
  rw [advanceColumn_eq h.column_lt]
  split
  · exact terminalIncreaseRow_inBounds h.column_zero
  · rename_i hne
    have hlt : t.currentWriteColumn + 1 < vgaWidth := Nat.lt_of_le_of_ne h.column_lt hne
    exact ⟨h.row_lt, hlt, h.scroll_le, h.no_fault⟩

theorem terminalPutcharPlain_inBounds {t : TerminalContext} (h : InBounds t) (c : UInt8) :
    InBounds (terminalPutcharPlain c t) := by
  by_cases hc : c = 0x0A
  · subst hc
    rw [terminalPutcharPlain_newline]
    exact terminalIncreaseRow_inBounds h.newline
  · rw [terminalPutcharPlain_char hc]
    exact advanceColumn_inBounds (storedChar_inBounds h c)

/-- Short of the last column a stored character leaves row and scroll row alone. -/
theorem terminalPutcharPlain_within {t : TerminalContext} (h : InBounds t) {c : UInt8}
    (hc : c ≠ 0x0A) (hcol : t.currentWriteColumn + 1 < vgaWidth) :
    terminalPutcharPlain c t
      = { storedChar c t with currentWriteColumn := t.currentWriteColumn + 1 } := by
  have hst : (storedChar c t).currentWriteColumn = t.currentWriteColumn := by
    rw [storedChar_eq h]
  have hne : ¬ (t.currentWriteColumn + 1 = vgaWidth) := Nat.ne_of_lt hcol
  rw [terminalPutcharPlain_char hc, advanceColumn_eq (hst ▸ h.column_lt), hst, if_neg hne]

theorem spaceToAdd_eq {t : TerminalContext} (h : t.currentWriteColumn < vgaWidth) :
    spaceToAdd t = min 4 (vgaWidth - t.currentWriteColumn) := by
  have hdiff : sub32 vgaWidth t.currentWriteColumn % 2 ^ 8 = vgaWidth - t.currentWriteColumn := by
    rw [sub32_of_le (Nat.le_of_lt h) (by decide)]
    unfold vgaWidth; omega
  simp only [spaceToAdd, hdiff]
  split <;> omega

/-- **The rule for a tab**: its spaces are stored one after another on one row, under one scroll
    row; only the last of them can reach column 80. -/
theorem terminalPutchar_tab {P : Nat → TerminalContext → Prop} {t : TerminalContext}
    (h : InBounds t) (h0 : P 0 t)
    (hstep : ∀ i s, i < spaceToAdd t → InBounds s → s.currentWriteRow = t.currentWriteRow →
      s.scrollRow = t.scrollRow → s.currentWriteColumn = t.currentWriteColumn + i → P i s →
      P (i + 1) (terminalPutcharPlain 0x20 s)) :
    P (spaceToAdd t) (terminalPutchar 0x09 t) := by
  have hwidth := spaceToAdd_eq h.column_lt
  have hsp : (0x20 : UInt8) ≠ 0x0A := by decide
  have inv := forRange_inv (s := t) (f := fun _ => terminalPutcharPlain 0x20)
    (P := fun i s => P i s ∧ InBounds s ∧ (i < spaceToAdd t →
      s.currentWriteRow = t.currentWriteRow ∧ s.scrollRow = t.scrollRow ∧
      s.currentWriteColumn = t.currentWriteColumn + i))
    (spaceToAdd t) ⟨h0, h, fun _ => ⟨rfl, rfl, rfl⟩⟩ ?_
  · exact inv.1
  · intro i s hi h
    obtain ⟨hP, hs, hpos⟩ := h
    obtain ⟨hrow, hscroll, hcol⟩ := hpos hi
    refine ⟨hstep i s hi hs hrow hscroll hcol hP, terminalPutcharPlain_inBounds hs _, ?_⟩
    intro hi'
    have hlt : s.currentWriteColumn + 1 < vgaWidth := by omega
    rw [terminalPutcharPlain_within hs hsp hlt, storedChar_eq hs]
    exact ⟨hrow, hscroll, by simp only [hcol]; omega⟩

theorem terminalPutchar_plain {c : UInt8} (h0 : c ≠ 0) (ht : c ≠ 0x09) (t : TerminalContext) :
    terminalPutchar c t = terminalPutcharPlain c t := by
  rw [terminalPutchar, if_neg h0, if_neg ht]

/-- What every plain character keeps, `terminal_putchar` keeps. -/
theorem terminalPutchar_keeps {P : TerminalContext → Prop}
    (hplain : ∀ c t, P t → P (terminalPutcharPlain c t)) {t : TerminalContext} (h : P t)
    (c : UInt8) : P (terminalPutchar c t) := by
  unfold terminalPutchar
  split
  · exact h
  · split
    · exact forRange_inv (P := fun _ s => P s) _ h fun _ s _ hs => hplain 0x20 s hs
    · exact hplain c t h

theorem terminalPutchar_inBounds {t : TerminalContext} (h : InBounds t) (c : UInt8) :
    InBounds (terminalPutchar c t) :=
  terminalPutchar_keeps (P := InBounds) (fun c _ ht => terminalPutcharPlain_inBounds ht c) h c

/-! ## 3. The keys -/

theorem terminalCtrlF_inBounds {t : TerminalContext} (h : InBounds t) :
    InBounds (terminalCtrlF t) := by
  have hview : InBounds (if (t.scrollRow + vgaHeight) % 2 ^ 32 < vgaMemHeight
      then terminalScrollDown 1 t else t) := by
    split
    · exact terminalScrollDown_inBounds h _
    · exact h
  unfold terminalCtrlF
  generalize (if (t.scrollRow + vgaHeight) % 2 ^ 32 < vgaMemHeight
    then terminalScrollDown 1 t else t) = s at hview ⊢
  show InBounds (if s.currentWriteRow < s.scrollRow then _ else _)
  split
  · have hrow : s.scrollRow < vgaMemHeight := Nat.lt_of_le_of_lt hview.scroll_le (by decide)
    exact ⟨hrow, hview.column_lt, hview.scroll_le, hview.no_fault⟩
  · exact hview

theorem terminalCtrlR_inBounds {t : TerminalContext} (h : InBounds t) :
    InBounds (terminalCtrlR t) := by
  have hview : InBounds (if t.scrollRow > 0 then terminalScrollUp 1 t else t) := by
    split
    · exact terminalScrollDown_inBounds h _
    · exact h
  unfold terminalCtrlR
  generalize (if t.scrollRow > 0 then terminalScrollUp 1 t else t) = s at hview ⊢
  show InBounds (if s.currentWriteRow > (s.scrollRow + vgaHeight) % 2 ^ 32 then _ else _)
  split
  · rename_i hgt
    exact ⟨Nat.lt_trans hgt hview.row_lt, hview.column_lt, hview.scroll_le, hview.no_fault⟩
  · exact hview

/-- The row is decremented before it is compared: from row 0 it becomes `2 ^ 32 - 1`, which is
    not below the scroll row. -/
theorem terminalArrowUp_inBounds_iff {t : TerminalContext} (h : InBounds t) :
    InBounds (terminalArrowUp t) ↔ t.currentWriteRow ≠ 0 := by
  have hs := h.scroll_le_max
  have hr := h.row_le
  constructor
  · intro h' h0
    have hsub : sub32 t.currentWriteRow 1 = 2 ^ 32 - 1 := by rw [h0]; unfold sub32; rfl
    have hnot : ¬ (2 ^ 32 - 1 < t.scrollRow) := by omega
    have hrow := h'.row_lt
    simp only [terminalArrowUp, hsub, if_neg hnot] at hrow
    exact absurd hrow (by decide)
  · intro h0
    have hsub : sub32 t.currentWriteRow 1 = t.currentWriteRow - 1 :=
      sub32_of_le (Nat.one_le_iff_ne_zero.mpr h0) (by omega)
    simp only [terminalArrowUp, hsub]
    split
    · have hrow : t.scrollRow < vgaMemHeight := Nat.lt_of_le_of_lt h.scroll_le (by decide)
      have htop : InBounds { t with currentWriteRow := t.scrollRow } :=
        ⟨hrow, h.column_lt, h.scroll_le, h.no_fault⟩
      exact terminalScrollDown_inBounds htop _
    · exact ⟨Nat.lt_of_le_of_lt (Nat.sub_le _ _) h.row_lt, h.column_lt, h.scroll_le, h.no_fault⟩

/-- The clamp is against the view (`scroll_row + 25`), which is row 1000 once the view is at the
    bottom of the scrollback. -/
theorem terminalArrowDown_inBounds_iff {t : TerminalContext} (h : InBounds t) :
    InBounds (terminalArrowDown t) ↔ ¬ (t.currentWriteRow = 999 ∧ t.scrollRow = 975) := by
  have hs := h.scroll_le_max
  have hr := h.row_le
  have hinc : (t.currentWriteRow + 1) % 2 ^ 32 = t.currentWriteRow + 1 := by omega
  have hview : (t.scrollRow + vgaHeight) % 2 ^ 32 = t.scrollRow + 25 := by
    unfold vgaHeight; omega
  simp only [terminalArrowDown, hinc, hview]
  split
  · rename_i hgt
    have hlt : t.scrollRow + 25 < vgaMemHeight := by unfold vgaMemHeight; omega
    have hbottom : InBounds { t with currentWriteRow := t.scrollRow + 25 } :=
      ⟨hlt, h.column_lt, h.scroll_le, h.no_fault⟩
    exact iff_of_true (terminalScrollDown_inBounds hbottom _) (by omega)
  · constructor
    · intro h' h
      obtain ⟨hr9, -⟩ := h
      have hrow := h'.row_le
      simp only at hrow
      omega
    · intro hne
      have hlt : t.currentWriteRow + 1 < vgaMemHeight := by unfold vgaMemHeight; omega
      exact ⟨hlt, h.column_lt, h.scroll_le, h.no_fault⟩

/-! ## 4. Runs -/

/-- The operations of the terminal. -/
inductive TermOp where
  | putchar (c : UInt8)
  | arrowUp
  | arrowDown
  | ctrlF
  | ctrlR
  | setScroll (row : Nat)
  | scrollDown (amount : Int)
  | setcolor (color : UInt8)

def TermOp.step (t : TerminalContext) : TermOp → TerminalContext
  | .putchar c => terminalPutchar c t
  | .arrowUp => terminalArrowUp t
  | .arrowDown => terminalArrowDown t
  | .ctrlF => terminalCtrlF t
  | .ctrlR => terminalCtrlR t
  | .setScroll row => terminalSetScroll row t
  | .scrollDown amount => terminalScrollDown amount t
  | .setcolor color => terminalSetcolor color t

/-- The operation does not move the cursor over the edge of the scrollback. -/
def TermOp.OffEdge (t : TerminalContext) : TermOp → Prop
  | .arrowUp => t.currentWriteRow ≠ 0
  | .arrowDown => ¬ (t.currentWriteRow = 999 ∧ t.scrollRow = 975)
  | _ => True

theorem TermOp.step_inBounds_iff (t : TerminalContext) (op : TermOp) (h : InBounds t) :
    InBounds (TermOp.step t op) ↔ TermOp.OffEdge t op := by
  cases op with
  | putchar c => exact iff_of_true (terminalPutchar_inBounds h c) trivial
  | arrowUp => exact terminalArrowUp_inBounds_iff h
  | arrowDown => exact terminalArrowDown_inBounds_iff h
  | ctrlF => exact iff_of_true (terminalCtrlF_inBounds h) trivial
  | ctrlR => exact iff_of_true (terminalCtrlR_inBounds h) trivial
  | setScroll row => exact iff_of_true (terminalSetScroll_inBounds h row) trivial
  | scrollDown amount => exact iff_of_true (terminalScrollDown_inBounds h amount) trivial
  | setcolor color => exact iff_of_true (h.congr rfl rfl rfl rfl) trivial

/-- **Cursor and scroll row stay in bounds through a run exactly when no Up is pressed on row 0
    and no Down on row 999 with the view at the bottom.** -/
theorem terminal_inBounds_iff (vga : Nat → Nat → UInt16) (ops : List TermOp) :
    Along TermOp.step InBounds (initializeTerminal (.boot vga)) ops
      ↔ Guarded TermOp.step TermOp.OffEdge (initializeTerminal (.boot vga)) ops :=
  along_iff_guarded TermOp.step_inBounds_iff (initializeTerminal_inBounds vga)

/-- One Up right after boot is enough to leave the scrollback. -/
theorem arrowUp_at_boot_out_of_bounds :
    ¬ Along TermOp.step InBounds (initializeTerminal (.boot fun _ _ => 0)) [.arrowUp] := by
  intro hboth
  obtain ⟨h, h'⟩ := hboth
  have hrow := (terminalArrowUp_inBounds_iff h).mp h'
  rw [initializeTerminal_eq] at hrow
  exact hrow rfl

end MapleKernel.Stdio
