/-
  File:      Stdio/TerminalWindow.lean
  Subject:   WHAT THE SCREEN SHOWS: the window on the scrollback, and the line being written.

  * `Window` -- the visible buffer is the 25 rows of the scrollback from the scroll row on.
    A refresh (`terminal_set_scroll`) gives it in any state; `terminal_putentryat` and the wrap
    at row 1000 keep it only from some (`terminal_window_of_safe`).
  * `OnScreen` -- a stored character lands on a visible row. With output alone the scroll row
    trails the write row by 25 (`Trails`), one row too many: from the 26th line on every
    character is stored just below the screen (`terminal_onScreen_iff`).
-/
import MapleKernel.Stdio.TerminalBounds

namespace MapleKernel.Stdio

open Loops Runs

/-! ## 1. The window -/

/-- The screen shows the scrollback from the scroll row on. -/
def Window (t : TerminalContext) : Prop :=
  ∀ y x, y < vgaHeight → x < vgaWidth →
    t.vgaBuffer y x = t.bigScrollableBuffer (t.scrollRow + y) x

theorem window_column_iff (t : TerminalContext) (k : Nat) :
    Window { t with currentWriteColumn := k } ↔ Window t := Iff.rfl

/-- A refresh shows the window whatever was on the screen before. -/
theorem terminalSetScroll_window (row : Nat) (t : TerminalContext) :
    Window (terminalSetScroll row t) := by
  intro y x hy hx
  rw [terminalSetScroll_eq]
  simp only [shown, hy, hx, and_self, if_true]
  rw [Nat.add_comm]

/-- The row is above or below the 25 rows on screen. -/
def Hidden (t : TerminalContext) : Prop :=
  t.currentWriteRow < t.scrollRow ∨ t.scrollRow + vgaHeight ≤ t.currentWriteRow

/-- The unsigned test of `terminal_putentryat` is right: it tells hidden rows from visible ones. -/
theorem hidden_iff {t : TerminalContext} (h : InBounds t) :
    vgaHeight ≤ sub32 t.currentWriteRow t.scrollRow ↔ Hidden t := by
  have hr := h.row_le
  have hs := h.scroll_le_max
  unfold Hidden sub32 vgaHeight
  omega

theorem visible_sub {t : TerminalContext} (h : InBounds t) (hv : ¬ Hidden t) :
    sub32 t.currentWriteRow t.scrollRow = t.currentWriteRow - t.scrollRow := by
  have hr := h.row_le
  have hs := h.scroll_le_max
  unfold Hidden at hv
  exact sub32_of_le (by omega) (by omega)

/-- A character stored on a hidden row does not touch the window. -/
theorem storedChar_window_of_hidden {t : TerminalContext} (h : InBounds t) (hw : Window t)
    (hh : Hidden t) (c : UInt8) : Window (storedChar c t) := by
  intro y x hy hx
  have hne : ¬ (t.scrollRow + y = t.currentWriteRow ∧ x = t.currentWriteColumn) := by
    unfold Hidden at hh; omega
  rw [storedChar_eq h]
  simp only [ge_iff_le, (hidden_iff h).mpr hh, if_true]
  rw [put_of_ne hne]
  exact hw y x hy hx

/-- With the view at the top the entry read back is the one just stored. -/
theorem storedChar_window_of_top {t : TerminalContext} (h : InBounds t) (hw : Window t)
    (h0 : t.scrollRow = 0) (c : UInt8) : Window (storedChar c t) := by
  by_cases hh : Hidden t
  · exact storedChar_window_of_hidden h hw hh c
  · intro y x hy hx
    have hsub : sub32 t.currentWriteRow t.scrollRow = t.currentWriteRow := by
      rw [visible_sub h hh, h0, Nat.sub_zero]
    have hvis : ¬ (vgaHeight ≤ t.currentWriteRow) := by
      rw [← hsub, hidden_iff h]; exact hh
    rw [storedChar_eq h]
    simp only [ge_iff_le, hsub, hvis, if_false, put_self]
    rw [h0, Nat.zero_add]
    by_cases hyx : y = t.currentWriteRow ∧ x = t.currentWriteColumn
    · obtain ⟨rfl, rfl⟩ := hyx
      rw [put_self, put_self]
    · rw [put_of_ne hyx, put_of_ne hyx]
      have := hw y x hy hx
      rwa [h0, Nat.zero_add] at this

theorem terminalIncreaseRow_window {t : TerminalContext} (h : InBounds t) (hw : Window t)
    (hr : t.currentWriteRow ≠ 999) : Window (terminalIncreaseRow t) := by
  have hlt : t.currentWriteRow < 999 := Nat.lt_of_le_of_ne h.row_le hr
  rw [terminalIncreaseRow_of_lt hlt h.scroll_le_max]
  split
  · exact terminalSetScroll_window _ _
  · exact hw

theorem advanceColumn_window {t : TerminalContext} (h : InBounds t) (hw : Window t)
    (hr : t.currentWriteRow = 999 → t.currentWriteColumn + 1 < vgaWidth) :
    Window (advanceColumn t) := by
  rw [advanceColumn_eq h.column_lt]
  split
  · rename_i hlast
    exact terminalIncreaseRow_window h.column_zero hw
      fun h9 => Nat.ne_of_lt (hr h9) hlast
  · exact hw

/-- The columns a byte takes; a tab takes fewer near the right edge. -/
def charWidth (c : UInt8) : Nat := if c = 0x09 then 4 else 1

/-- `terminal_putchar c` neither stores on a visible row of a scrolled view nor leaves row 999. -/
def PutcharSafe (t : TerminalContext) (c : UInt8) : Prop :=
  c ≠ 0 →
    (c ≠ 0x0A → t.scrollRow = 0 ∨ Hidden t) ∧
    (t.currentWriteRow = 999 → c ≠ 0x0A ∧ t.currentWriteColumn + charWidth c < vgaWidth)

theorem terminalPutcharPlain_window {t : TerminalContext} (h : InBounds t) (hw : Window t)
    {c : UInt8} (hv : c ≠ 0x0A → t.scrollRow = 0 ∨ Hidden t)
    (hlast : t.currentWriteRow = 999 → c ≠ 0x0A ∧ t.currentWriteColumn + 1 < vgaWidth) :
    Window (terminalPutcharPlain c t) := by
  by_cases hc : c = 0x0A
  · subst hc
    rw [terminalPutcharPlain_newline]
    exact terminalIncreaseRow_window h.newline hw fun h9 => (hlast h9).1 rfl
  · have hst : Window (storedChar c t) := by
      rcases hv hc with h0 | hh
      · exact storedChar_window_of_top h hw h0 c
      · exact storedChar_window_of_hidden h hw hh c
    have hkeep : (storedChar c t).currentWriteRow = t.currentWriteRow ∧
        (storedChar c t).currentWriteColumn = t.currentWriteColumn := by
      rw [storedChar_eq h]; exact ⟨rfl, rfl⟩
    rw [terminalPutcharPlain_char hc]
    refine advanceColumn_window (storedChar_inBounds h c) hst ?_
    rw [hkeep.1, hkeep.2]
    exact fun h9 => (hlast h9).2

theorem terminalPutchar_window {t : TerminalContext} (h : InBounds t) (hw : Window t)
    {c : UInt8} (hsafe : PutcharSafe t c) : Window (terminalPutchar c t) := by
  by_cases h0 : c = 0
  · subst h0; exact hw
  obtain ⟨hv, hlast⟩ := hsafe h0
  by_cases ht : c = 0x09
  · subst ht
    refine terminalPutchar_tab (P := fun _ s => Window s) h hw ?_
    intro i s hi hs hrow hscroll hcol hws
    have hi4 : i < 4 := Nat.lt_of_lt_of_le hi (by rw [spaceToAdd_eq h.column_lt]; omega)
    refine terminalPutcharPlain_window hs hws (fun _ => ?_) (fun h9 => ⟨by decide, ?_⟩)
    · rw [Hidden, hrow, hscroll]
      exact hv (by decide)
    · have hwidth : t.currentWriteColumn + 4 < vgaWidth := (hlast (hrow ▸ h9)).2
      omega
  · have hwidth : charWidth c = 1 := if_neg ht
    rw [hwidth] at hlast
    rw [terminalPutchar_plain h0 ht]
    exact terminalPutcharPlain_window h hw hv hlast

/-! ## 2. Runs of output, scrolling and colour changes -/

inductive ScreenOp where
  | putchar (c : UInt8)
  | setScroll (row : Nat)
  | setcolor (color : UInt8)

def ScreenOp.step (t : TerminalContext) : ScreenOp → TerminalContext
  | .putchar c => terminalPutchar c t
  | .setScroll row => terminalSetScroll row t
  | .setcolor color => terminalSetcolor color t

def ScreenOp.Safe (t : TerminalContext) : ScreenOp → Prop
  | .putchar c => PutcharSafe t c
  | _ => True

theorem ScreenOp.step_window (t : TerminalContext) (op : ScreenOp)
    (h : InBounds t ∧ Window t) (hsafe : ScreenOp.Safe t op) :
    InBounds (ScreenOp.step t op) ∧ Window (ScreenOp.step t op) := by
  cases op with
  | putchar c => exact ⟨terminalPutchar_inBounds h.1 c, terminalPutchar_window h.1 h.2 hsafe⟩
  | setScroll row =>
      exact ⟨terminalSetScroll_inBounds h.1 row, terminalSetScroll_window row t⟩
  | setcolor color => exact ⟨h.1.congr rfl rfl rfl rfl, h.2⟩

/-- The start of the runs: an initialised terminal, refreshed once. -/
def screenStart (vga : Nat → Nat → UInt16) : TerminalContext :=
  terminalSetScroll 0 (initializeTerminal (.boot vga))

theorem screenStart_eq (vga : Nat → Nat → UInt16) :
    screenStart vga = { initializeTerminal (.boot vga) with
      scrollRow := 0
      vgaBuffer := shown (initializeTerminal (.boot vga)).bigScrollableBuffer 0
        (initializeTerminal (.boot vga)).vgaBuffer } := by
  rw [screenStart, terminalSetScroll_eq, Nat.zero_min]

theorem screenStart_inBounds (vga : Nat → Nat → UInt16) : InBounds (screenStart vga) :=
  terminalSetScroll_inBounds (initializeTerminal_inBounds vga) 0

/-- **The screen stays a window on the scrollback** through every run that never stores a
    character on a visible row while the view is scrolled, and never leaves row 999. -/
theorem terminal_window_of_safe (vga : Nat → Nat → UInt16) (ops : List ScreenOp)
    (hsafe : Guarded ScreenOp.step ScreenOp.Safe (screenStart vga) ops) :
    Along ScreenOp.step Window (screenStart vga) ops := by
  have hstart : InBounds (screenStart vga) ∧ Window (screenStart vga) :=
    ⟨screenStart_inBounds vga, terminalSetScroll_window _ _⟩
  exact (along_of_guarded ScreenOp.step_window hstart hsafe).imp fun _ h => h.2

theorem terminal_window_first_row :
    Along ScreenOp.step Window (screenStart fun _ _ => 0) [.putchar 0x41, .setScroll 3] := by
  refine terminal_window_of_safe _ _ ⟨fun _ => ⟨fun _ => Or.inl ?_, fun h9 => ?_⟩, trivial, trivial⟩
  · rw [screenStart_eq]
  · rw [screenStart_eq, initializeTerminal_eq] at h9
    exact absurd h9 (by decide)

/-- The defect of `terminal_putentryat`: on a visible row of a scrolled view the screen gets the
    entry `scroll_row` rows above the one just stored. -/
theorem storedChar_not_window {t : TerminalContext} (h : InBounds t) (hv : ¬ Hidden t)
    (hs : t.scrollRow ≠ 0) {c : UInt8}
    (hold : t.bigScrollableBuffer (t.currentWriteRow - t.scrollRow) t.currentWriteColumn
      ≠ vgaEntry c t.color) : ¬ Window (storedChar c t) := by
  intro hw
  have hle : t.scrollRow ≤ t.currentWriteRow ∧ t.currentWriteRow < t.scrollRow + 25 := by
    unfold Hidden vgaHeight at hv; omega
  have hvis : ¬ (vgaHeight ≤ t.currentWriteRow - t.scrollRow) := by unfold vgaHeight; omega
  have hcell := hw (t.currentWriteRow - t.scrollRow) t.currentWriteColumn
    (Nat.lt_of_not_le hvis) h.column_lt
  have hback : t.scrollRow + (t.currentWriteRow - t.scrollRow) = t.currentWriteRow := by omega
  have hne : ¬ (t.currentWriteRow - t.scrollRow = t.currentWriteRow
      ∧ t.currentWriteColumn = t.currentWriteColumn) := by omega
  rw [storedChar_eq h] at hcell
  simp only [ge_iff_le, visible_sub h hv, hvis, if_false, put_self, hback] at hcell
  rw [put_of_ne hne] at hcell
  exact hold hcell

theorem terminalPutchar_newline_eq {t : TerminalContext} (h : InBounds t)
    (hr : t.currentWriteRow < 999) (hview : sub32 (t.currentWriteRow + 1) t.scrollRow ≤ vgaHeight) :
    terminalPutchar 0x0A t = { t with
      com1 := t.com1 ++ [0x0A], currentWriteColumn := 0
      currentWriteRow := t.currentWriteRow + 1 } := by
  have hinc := terminalIncreaseRow_of_lt
    (t := { t with com1 := t.com1 ++ [0x0A], currentWriteColumn := 0 }) hr h.scroll_le_max
  rw [terminalPutchar_plain (by decide) (by decide), terminalPutcharPlain_newline, hinc,
    if_neg (Nat.not_lt.mpr hview)]

/-- Scrolled down by one row, a character on the second row is not shown. -/
theorem window_lost_of_scrolled {t : TerminalContext} (h : InBounds t)
    (hr : t.currentWriteRow = 0) {c : UInt8} (h0 : c ≠ 0) (ht : c ≠ 0x09) (hn : c ≠ 0x0A)
    (hold : t.bigScrollableBuffer 0 0 ≠ vgaEntry c t.color) :
    ¬ Window (terminalPutchar c (terminalPutchar 0x0A (terminalSetScroll 1 t))) := by
  have hin : InBounds (terminalSetScroll 1 t) := terminalSetScroll_inBounds h 1
  have hin' := terminalPutchar_inBounds hin 0x0A
  have hsub : sub32 1 1 = 0 := sub32_of_le (Nat.le_refl 1) (by decide)
  have hs : terminalSetScroll 1 t = { t with
      scrollRow := 1, vgaBuffer := shown t.bigScrollableBuffer 1 t.vgaBuffer } := by
    rw [terminalSetScroll_eq]; rfl
  rw [hs] at hin hin' ⊢
  have hline := terminalPutchar_newline_eq hin (by rw [hr]; decide)
    (by simp only [hr, Nat.zero_add, hsub]; exact Nat.zero_le _)
  rw [hline] at hin' ⊢
  rw [terminalPutchar_plain h0 ht, terminalPutcharPlain_within hin' hn (by simp only; decide),
    window_column_iff]
  refine storedChar_not_window hin' ?_ (by simp) ?_
  · simp [Hidden, hr, vgaHeight]
  · simpa [hr] using hold

theorem window_lost_on_second_row :
    ¬ Along ScreenOp.step Window (screenStart fun _ _ => 0)
      [.setScroll 1, .putchar 0x0A, .putchar 0x41] := by
  intro h
  have hw := h.final
  rw [run_cons, run_cons, run_cons, run_nil, ScreenOp.step, ScreenOp.step, ScreenOp.step] at hw
  refine window_lost_of_scrolled (screenStart_inBounds fun _ _ => 0) ?_ (by decide) (by decide)
    (by decide) ?_ hw
  · rw [screenStart_eq, initializeTerminal_eq]
  · rw [screenStart_eq, initializeTerminal_eq]
    decide

/-! ## 3. The line being written -/

/-- The stored character is on one of the 25 rows the screen shows. -/
def OnScreen (e : PutEntry) : Prop := e.scrollRow ≤ e.posY ∧ e.posY < e.scrollRow + vgaHeight

def AllOnScreen (t : TerminalContext) : Prop := ∀ e ∈ t.entries, OnScreen e

/-- With output alone the scroll row is 25 rows behind the write row, or 0. -/
structure Trails (t : TerminalContext) : Prop where
  inBounds : InBounds t
  scroll_eq : t.scrollRow = t.currentWriteRow - 25

theorem initializeTerminal_trails (vga : Nat → Nat → UInt16) :
    Trails (initializeTerminal (.boot vga)) :=
  ⟨initializeTerminal_inBounds vga, by rw [initializeTerminal_eq]; exact (Nat.zero_sub 25).symm⟩

/-- The test `> VGA_HEIGHT` keeps the distance at 25, where 24 would keep the row on screen. -/
theorem terminalIncreaseRow_trails {t : TerminalContext} (h : Trails t) :
    Trails (terminalIncreaseRow t) := by
  have hs := h.inBounds.scroll_le_max
  refine ⟨terminalIncreaseRow_inBounds h.inBounds, ?_⟩
  rcases Nat.lt_or_ge t.currentWriteRow 999 with hr | hr
  · have hsub : sub32 (t.currentWriteRow + 1) t.scrollRow = t.currentWriteRow + 1 - t.scrollRow :=
      sub32_of_le (by rw [h.scroll_eq]; omega) (by omega)
    have heq := h.scroll_eq
    rw [terminalIncreaseRow_of_lt hr hs, hsub]
    split
    · rename_i hgt
      unfold vgaHeight at hgt
      rw [terminalSetScroll_eq]
      simp only
      omega
    · rename_i hle
      unfold vgaHeight at hle
      simp only
      omega
  · rw [terminalIncreaseRow_last (Nat.le_antisymm h.inBounds.row_le hr) hs]
    exact (Nat.zero_sub 25).symm

theorem terminalIncreaseRow_entries {t : TerminalContext} (h : InBounds t) :
    (terminalIncreaseRow t).entries = t.entries := by
  rcases Nat.lt_or_ge t.currentWriteRow 999 with hr | hr
  · rw [terminalIncreaseRow_of_lt hr h.scroll_le_max]
    split
    · rw [terminalSetScroll_eq]
    · rfl
  · rw [terminalIncreaseRow_last (Nat.le_antisymm h.row_le hr) h.scroll_le_max]

theorem advanceColumn_trails {t : TerminalContext} (h : Trails t) : Trails (advanceColumn t) := by
  have hin := advanceColumn_inBounds h.inBounds
  rw [advanceColumn_eq h.inBounds.column_lt] at hin ⊢
  split
  · exact terminalIncreaseRow_trails ⟨h.inBounds.column_zero, h.scroll_eq⟩
  · rename_i hne
    rw [if_neg hne] at hin
    exact ⟨hin, h.scroll_eq⟩

theorem advanceColumn_entries {t : TerminalContext} (h : InBounds t) :
    (advanceColumn t).entries = t.entries := by
  rw [advanceColumn_eq h.column_lt]
  split
  · exact terminalIncreaseRow_entries h.column_zero
  · rfl

theorem storedChar_trails {t : TerminalContext} (h : Trails t) (c : UInt8) :
    Trails (storedChar c t) := by
  refine ⟨storedChar_inBounds h.inBounds c, ?_⟩
  rw [storedChar_eq h.inBounds]
  exact h.scroll_eq

/-- A character is stored on screen exactly on the first 25 rows of the scrollback. -/
theorem storedChar_allOnScreen_iff {t : TerminalContext} (h : Trails t) (c : UInt8) :
    AllOnScreen (storedChar c t) ↔ AllOnScreen t ∧ t.currentWriteRow < vgaHeight := by
  have hnew : OnScreen ⟨c, t.currentWriteColumn, t.currentWriteRow, t.scrollRow⟩
      ↔ t.currentWriteRow < vgaHeight := by
    have heq := h.scroll_eq
    show t.scrollRow ≤ t.currentWriteRow ∧ t.currentWriteRow < t.scrollRow + 25
      ↔ t.currentWriteRow < 25
    omega
  rw [← hnew, AllOnScreen, storedChar_eq h.inBounds]
  simp only [List.mem_append, List.mem_singleton, or_imp, forall_and, forall_eq, AllOnScreen]

theorem terminalPutcharPlain_trails {t : TerminalContext} (h : Trails t) (c : UInt8) :
    Trails (terminalPutcharPlain c t) := by
  by_cases hc : c = 0x0A
  · subst hc
    rw [terminalPutcharPlain_newline]
    exact terminalIncreaseRow_trails ⟨h.inBounds.newline, h.scroll_eq⟩
  · rw [terminalPutcharPlain_char hc]
    exact advanceColumn_trails (storedChar_trails h c)

theorem terminalPutcharPlain_allOnScreen_iff {t : TerminalContext} (h : Trails t) (c : UInt8) :
    AllOnScreen (terminalPutcharPlain c t)
      ↔ AllOnScreen t ∧ (c ≠ 0x0A → t.currentWriteRow < vgaHeight) := by
  by_cases hc : c = 0x0A
  · subst hc
    rw [terminalPutcharPlain_newline, AllOnScreen, terminalIncreaseRow_entries h.inBounds.newline]
    simp only [ne_eq, not_true_eq_false, false_implies, and_true, AllOnScreen]
  · rw [terminalPutcharPlain_char hc, AllOnScreen,
      advanceColumn_entries (storedChar_inBounds h.inBounds c)]
    simp only [ne_eq, hc, not_false_eq_true, true_implies]
    exact storedChar_allOnScreen_iff h c

/-- A byte that is stored as a cell (a tab as several) is met on one of the first 25 rows. -/
def StoredEarly (t : TerminalContext) (c : UInt8) : Prop :=
  c ≠ 0 → c ≠ 0x0A → t.currentWriteRow < vgaHeight

theorem terminalPutchar_trails {t : TerminalContext} (h : Trails t) (c : UInt8) :
    Trails (terminalPutchar c t) :=
  terminalPutchar_keeps (P := Trails) (fun c _ ht => terminalPutcharPlain_trails ht c) h c

theorem terminalPutchar_allOnScreen_iff {t : TerminalContext} (h : Trails t) (c : UInt8) :
    AllOnScreen (terminalPutchar c t) ↔ AllOnScreen t ∧ StoredEarly t c := by
  by_cases h0 : c = 0
  · subst h0
    exact ⟨fun ht => ⟨ht, fun hne => absurd rfl hne⟩, fun ht => ht.1⟩
  by_cases ht : c = 0x09
  · subst ht
    -- After `i` spaces: the entries are on screen iff they were, and (for `0 < i`) the row is early.
    have inv := terminalPutchar_tab (t := t) h.inBounds
      (P := fun i s => Trails s ∧
        (AllOnScreen s ↔ AllOnScreen t ∧ (0 < i → t.currentWriteRow < vgaHeight)))
      ⟨h, by simp⟩ ?_
    · have hpos : 0 < spaceToAdd t := by
        have := h.inBounds.column_lt
        rw [spaceToAdd_eq this]; omega
      rw [inv.2]
      simp [StoredEarly, hpos]
    · intro i s _ hs hrow _ _ hinv
      obtain ⟨htr, hiff⟩ := hinv
      refine ⟨terminalPutcharPlain_trails htr _, ?_⟩
      rw [terminalPutcharPlain_allOnScreen_iff htr, hiff, hrow]
      have hsp : (0x20 : UInt8) ≠ 0x0A := by decide
      simp only [ne_eq, hsp, not_false_eq_true, true_implies, Nat.succ_pos]
      tauto
  · rw [terminalPutchar_plain h0 ht, terminalPutcharPlain_allOnScreen_iff h]
    simp only [StoredEarly, ne_eq, h0, not_false_eq_true, true_implies]

/-- One `terminal_putchar` after another. -/
def putcharStep (t : TerminalContext) (c : UInt8) : TerminalContext := terminalPutchar c t

theorem putcharStep_trails {t : TerminalContext} (h : Trails t) (c : UInt8) :
    Trails (putcharStep t c) := terminalPutchar_trails h c

theorem run_trails {t : TerminalContext} (h : Trails t) (cs : List UInt8) :
    Trails (run putcharStep t cs) := by
  induction cs generalizing t with
  | nil => exact h
  | cons c cs ih => exact ih (putcharStep_trails h c)

theorem run_allOnScreen_iff {t : TerminalContext} (h : Trails t) (cs : List UInt8) :
    AllOnScreen (run putcharStep t cs) ↔ AllOnScreen t ∧ Guarded putcharStep StoredEarly t cs := by
  induction cs generalizing t with
  | nil => simp [Guarded]
  | cons c cs ih =>
      rw [run_cons, ih (putcharStep_trails h c), putcharStep,
        terminalPutchar_allOnScreen_iff h c, and_assoc]
      rfl

/-- **Freshly printed text is on screen exactly as long as it is on the first 25 rows of the
    scrollback**, for every string printed after `initialize_terminal`. -/
theorem terminal_onScreen_iff (vga : Nat → Nat → UInt16) (cs : List UInt8) :
    AllOnScreen (run putcharStep (initializeTerminal (.boot vga)) cs)
      ↔ Guarded putcharStep StoredEarly (initializeTerminal (.boot vga)) cs := by
  have hnone : AllOnScreen (initializeTerminal (.boot vga)) := by
    rw [initializeTerminal_eq]
    exact fun e he => absurd he List.not_mem_nil
  rw [run_allOnScreen_iff (initializeTerminal_trails vga)]
  exact and_iff_right hnone

theorem putcharStep_newline_row {t : TerminalContext} (h : InBounds t)
    (hr : t.currentWriteRow < 999) :
    (putcharStep t 0x0A).currentWriteRow = t.currentWriteRow + 1 := by
  have hframe := terminalIncreaseRow_frame
    (t := { t with com1 := t.com1 ++ [0x0A], currentWriteColumn := 0 }) hr h.scroll_le_max
  rw [putcharStep, terminalPutchar_plain (by decide) (by decide), terminalPutcharPlain_newline]
  exact hframe.1

theorem run_newlines {t : TerminalContext} (h : Trails t) (n : Nat)
    (hn : t.currentWriteRow + n ≤ 999) :
    (run putcharStep t (List.replicate n 0x0A)).currentWriteRow = t.currentWriteRow + n := by
  induction n generalizing t with
  | zero => rfl
  | succ n ih =>
      have hstep := putcharStep_newline_row h.inBounds (by omega)
      rw [List.replicate_succ, run_cons, ih (putcharStep_trails h 0x0A) (by omega), hstep]
      omega

/-- The character after 25 newlines is stored on row 25 while the screen shows rows 0 to 24. -/
theorem line_26_below_screen :
    ¬ AllOnScreen (run putcharStep (initializeTerminal (.boot fun _ _ => 0))
      (List.replicate 25 0x0A ++ [0x41])) := by
  intro h
  have hstart := initializeTerminal_trails fun _ _ => 0
  have h0 : (initializeTerminal (.boot fun _ _ => 0)).currentWriteRow = 0 := by
    rw [initializeTerminal_eq]
  have hrow := run_newlines hstart 25 (by rw [h0]; decide)
  rw [run_append, run_cons, run_nil, putcharStep] at h
  have hearly := ((terminalPutchar_allOnScreen_iff (run_trails hstart _) 0x41).mp h).2 (by decide)
    (by decide)
  rw [hrow, h0] at hearly
  exact absurd hearly (by decide)

end MapleKernel.Stdio
