/-
  File:      Stdio/VgaTerminal.lean
  Subject:   THE VGA TERMINAL of `vga_terminal.c`: cursors, scrollback and screen.

  `TerminalContext` is the global `term` with the memory behind `vga_buffer`, the bytes sent to
  COM1, the calls of `terminal_putentryat` made so far and a fault bit. `size_t` is 32 bits wide
  (`i686`), so the cursors are numbers below `2 ^ 32` and every increment, decrement and
  difference is taken modulo `2 ^ 32`. An index outside `big_scrollable_buffer` or outside the
  visible buffer (undefined in C) sets `fault`, and the access is dropped. The busy wait for the
  transmit buffer of COM1 is not modelled.

  The functions come first, under the source's names. Section 3 gives the closed forms of the
  three loops that fill a buffer, and with them what every operation does to each field.
-/
import MapleKernel.Lib.Loop

namespace MapleKernel.Stdio

open Loops

/-! ## 1. State -/

def vgaWidth : Nat := 80
def vgaHeight : Nat := 25
def vgaMemHeight : Nat := 1000

theorem vgaWidth_pos : 0 < vgaWidth := by decide

theorem vgaMemHeight_pos : 0 < vgaMemHeight := by decide

def vgaColorBlack : Nat := 0
def vgaColorLightGrey : Nat := 7

/-- A call of `terminal_putentryat`, with the scroll row it was made under. -/
structure PutEntry where
  c : UInt8
  posX : Nat
  posY : Nat
  scrollRow : Nat
  deriving DecidableEq, Repr

structure TerminalContext where
  currentWriteRow : Nat
  currentWriteColumn : Nat
  scrollRow : Nat
  color : UInt8
  vgaBuffer : Nat → Nat → UInt16
  bigScrollableBuffer : Nat → Nat → UInt16
  com1 : List UInt8
  entries : List PutEntry
  fault : Bool

/-- `term = {0}` over whatever the VGA memory holds at boot. -/
def TerminalContext.boot (vga : Nat → Nat → UInt16) : TerminalContext where
  currentWriteRow := 0
  currentWriteColumn := 0
  scrollRow := 0
  color := 0
  vgaBuffer := vga
  bigScrollableBuffer := fun _ _ => 0
  com1 := []
  entries := []
  fault := false

/-- Difference of two `size_t`. -/
def sub32 (a b : Nat) : Nat := (a + 2 ^ 32 - b) % 2 ^ 32

/-- `vga_entry_color`: the result type is one byte. -/
def vgaEntryColor (fg bg : Nat) : UInt8 := UInt8.ofNat ((bg <<< 4) ||| fg)

/-- `vga_entry`. -/
def vgaEntry (uc : UInt8) (color : UInt8) : UInt16 := (color.toUInt16 <<< 8) ||| uc.toUInt16

/-! ## 2. The functions -/

/-- `set_vga_element`: both coordinates are `uint8_t`. -/
def setVgaElement (posX posY : Nat) (c : UInt16) (t : TerminalContext) : TerminalContext :=
  if posY % 2 ^ 8 < vgaHeight ∧ posX % 2 ^ 8 < vgaWidth then
    { t with vgaBuffer := put t.vgaBuffer (posY % 2 ^ 8) (posX % 2 ^ 8) c }
  else { t with fault := true }

/-- A store to `big_scrollable_buffer[posY][posX]`. -/
def setBigElement (posX posY : Nat) (c : UInt16) (t : TerminalContext) : TerminalContext :=
  if posY < vgaMemHeight ∧ posX < vgaWidth then
    { t with bigScrollableBuffer := put t.bigScrollableBuffer posY posX c }
  else { t with fault := true }

/-- A load of `big_scrollable_buffer[posY][posX]`, handed on to `k`. -/
def withBigElement (posX posY : Nat) (k : UInt16 → TerminalContext → TerminalContext)
    (t : TerminalContext) : TerminalContext :=
  if posY < vgaMemHeight ∧ posX < vgaWidth then k (t.bigScrollableBuffer posY posX) t
  else { t with fault := true }

def clearVisibleTerminal (t : TerminalContext) : TerminalContext :=
  forRange vgaHeight (fun y => forRange vgaWidth fun x t =>
    setVgaElement x y (vgaEntryColor 0x20 t.color.toNat).toUInt16 t) t

def initializeTerminal (t : TerminalContext) : TerminalContext :=
  let t := { t with
    currentWriteRow := 0
    currentWriteColumn := 0
    color := vgaEntryColor vgaColorLightGrey vgaColorBlack }
  let t := clearVisibleTerminal t
  let t := { t with scrollRow := 0 }
  forRange vgaMemHeight (fun y => forRange vgaWidth fun x t =>
    setBigElement x y (vgaEntry 0x20 t.color) t) t

def terminalUpdateVgaMem (t : TerminalContext) : TerminalContext :=
  forRange vgaHeight (fun y => forRange vgaWidth fun x t =>
    withBigElement x ((y + t.scrollRow) % 2 ^ 32) (setVgaElement x y) t) t

/-- `terminal_set_scroll`. The test `row < 0` of the source is never true of a `size_t`. -/
def terminalSetScroll (row : Nat) (t : TerminalContext) : TerminalContext :=
  let max := vgaMemHeight - vgaHeight
  let row := if row > max then max else row
  terminalUpdateVgaMem { t with scrollRow := row }

/-- `terminal_scroll_down`: the `int` is converted to `size_t`. -/
def terminalScrollDown (scrollAmount : Int) (t : TerminalContext) : TerminalContext :=
  terminalSetScroll (((t.scrollRow : Int) + scrollAmount) % 2 ^ 32).toNat t

def terminalScrollUp (scrollAmount : Int) (t : TerminalContext) : TerminalContext :=
  terminalScrollDown (-scrollAmount) t

def terminalSetcolor (color : UInt8) (t : TerminalContext) : TerminalContext :=
  { t with color := color }

/-- `terminal_putentryat`. The entry shown on screen is read back at `pos_y - scroll_row`. -/
def terminalPutentryat (c : UInt8) (color : UInt8) (posX posY : Nat) (t : TerminalContext) :
    TerminalContext :=
  let t := { t with entries := t.entries ++ [⟨c, posX, posY, t.scrollRow⟩] }
  let t := setBigElement posX posY (vgaEntry c color) t
  if sub32 posY t.scrollRow ≥ vgaHeight then t
  else withBigElement posX (sub32 posY t.scrollRow)
    (setVgaElement posX (sub32 posY t.scrollRow)) t

def terminalIncreaseRow (t : TerminalContext) : TerminalContext :=
  let t := { t with currentWriteRow := (t.currentWriteRow + 1) % 2 ^ 32 }
  let t := if sub32 t.currentWriteRow t.scrollRow > vgaHeight then terminalScrollDown 1 t else t
  if t.currentWriteRow ≥ vgaMemHeight then
    clearVisibleTerminal
      (terminalSetScroll 0 { t with currentWriteRow := 0, currentWriteColumn := 0 })
  else t

def terminalArrowUp (t : TerminalContext) : TerminalContext :=
  let t := { t with currentWriteRow := sub32 t.currentWriteRow 1 }
  if t.currentWriteRow < t.scrollRow then
    terminalScrollUp 1 { t with currentWriteRow := t.scrollRow }
  else t

def terminalArrowDown (t : TerminalContext) : TerminalContext :=
  let t := { t with currentWriteRow := (t.currentWriteRow + 1) % 2 ^ 32 }
  if t.currentWriteRow > (t.scrollRow + vgaHeight) % 2 ^ 32 then
    terminalScrollDown 1 { t with currentWriteRow := (t.scrollRow + vgaHeight) % 2 ^ 32 }
  else t

def terminalCtrlF (t : TerminalContext) : TerminalContext :=
  let t := if (t.scrollRow + vgaHeight) % 2 ^ 32 < vgaMemHeight then terminalScrollDown 1 t else t
  if t.currentWriteRow < t.scrollRow then { t with currentWriteRow := t.scrollRow } else t

def terminalCtrlR (t : TerminalContext) : TerminalContext :=
  let t := if t.scrollRow > 0 then terminalScrollUp 1 t else t
  if t.currentWriteRow > (t.scrollRow + vgaHeight) % 2 ^ 32 then
    { t with currentWriteRow := (t.scrollRow + vgaHeight) % 2 ^ 32 }
  else t

def serialWriteChar (c : UInt8) (t : TerminalContext) : TerminalContext :=
  { t with com1 := t.com1 ++ [c] }

/-- The end of `terminal_putchar`: one column on, and a new row after the last one. -/
def advanceColumn (t : TerminalContext) : TerminalContext :=
  let t := { t with currentWriteColumn := (t.currentWriteColumn + 1) % 2 ^ 32 }
  if t.currentWriteColumn = vgaWidth then terminalIncreaseRow { t with currentWriteColumn := 0 }
  else t

/-- `terminal_putchar` of a character that is neither NUL nor a tab. -/
def terminalPutcharPlain (c : UInt8) (t : TerminalContext) : TerminalContext :=
  let t := serialWriteChar c t
  if c = 0x0A then terminalIncreaseRow { t with currentWriteColumn := 0 }
  else
    advanceColumn (terminalPutentryat c t.color t.currentWriteColumn t.currentWriteRow t)

/-- The number of spaces a tab is worth, computed in `uint8_t`. -/
def spaceToAdd (t : TerminalContext) : Nat :=
  let diff := sub32 vgaWidth t.currentWriteColumn % 2 ^ 8
  if 4 > diff then diff else 4

/-- `terminal_putchar`. Its only recursive calls are on the space a tab is replaced with. -/
def terminalPutchar (c : UInt8) (t : TerminalContext) : TerminalContext :=
  if c = 0 then t
  else if c = 0x09 then forRange (spaceToAdd t) (fun _ => terminalPutcharPlain 0x20) t
  else terminalPutcharPlain c t

/-- `terminal_write`: the first `size` bytes of `data`. -/
def terminalWrite (data : List UInt8) (size : Nat) (t : TerminalContext) : TerminalContext :=
  (data.take size).foldl (fun t c => terminalPutchar c t) t

/-! ## 3. Closed forms -/

theorem setVgaElement_of_lt {x y : Nat} (hy : y < vgaHeight) (hx : x < vgaWidth) (c : UInt16)
    (t : TerminalContext) :
    setVgaElement x y c t = { t with vgaBuffer := put t.vgaBuffer y x c } := by
  have ey : y % 2 ^ 8 = y := Nat.mod_eq_of_lt (Nat.lt_trans hy (by decide))
  have ex : x % 2 ^ 8 = x := Nat.mod_eq_of_lt (Nat.lt_trans hx (by decide))
  rw [setVgaElement, ey, ex, if_pos ⟨hy, hx⟩]

theorem setBigElement_of_lt {x y : Nat} (hy : y < vgaMemHeight) (hx : x < vgaWidth) (c : UInt16)
    (t : TerminalContext) :
    setBigElement x y c t
      = { t with bigScrollableBuffer := put t.bigScrollableBuffer y x c } := by
  rw [setBigElement, if_pos ⟨hy, hx⟩]

/-- The value a cleared cell of the screen gets: `vga_entry_color`, not `vga_entry`. -/
def clearedCell (color : UInt8) : UInt16 := (vgaEntryColor 0x20 color.toNat).toUInt16

theorem clearVisibleTerminal_eq (t : TerminalContext) :
    clearVisibleTerminal t = { t with
      vgaBuffer := fun y x => if y < vgaHeight ∧ x < vgaWidth then clearedCell t.color
        else t.vgaBuffer y x } := by
  have hbody : ∀ (y x : Nat) (g : Nat → Nat → UInt16), y < vgaHeight → x < vgaWidth →
      setVgaElement x y (vgaEntryColor 0x20 t.color.toNat).toUInt16 { t with vgaBuffer := g }
        = { t with vgaBuffer := put g y x (clearedCell t.color) } := by
    intro y x g hy hx
    rw [setVgaElement_of_lt hy hx]
    rfl
  have fill := forGrid_fill (h := vgaHeight) (w := vgaWidth)
    (fun g : Nat → Nat → UInt16 => { t with vgaBuffer := g }) (fun _ _ => clearedCell t.color)
    (fun y x (t : TerminalContext) =>
      setVgaElement x y (vgaEntryColor 0x20 t.color.toNat).toUInt16 t)
  unfold clearVisibleTerminal
  exact fill hbody t.vgaBuffer

/-- The visible buffer after a refresh from row `scroll` of the scrollback. -/
def shown (big : Nat → Nat → UInt16) (scroll : Nat) (vga : Nat → Nat → UInt16) :
    Nat → Nat → UInt16 :=
  fun y x => if y < vgaHeight ∧ x < vgaWidth then big (y + scroll) x else vga y x

theorem terminalUpdateVgaMem_eq {t : TerminalContext}
    (h : t.scrollRow ≤ vgaMemHeight - vgaHeight) :
    terminalUpdateVgaMem t
      = { t with vgaBuffer := shown t.bigScrollableBuffer t.scrollRow t.vgaBuffer } := by
  have hbody : ∀ y x g, y < vgaHeight → x < vgaWidth →
      withBigElement x ((y + t.scrollRow) % 2 ^ 32) (setVgaElement x y) { t with vgaBuffer := g }
        = { t with vgaBuffer := put g y x (t.bigScrollableBuffer (y + t.scrollRow) x) } := by
    intro y x g hy hx
    have hlt : y + t.scrollRow < vgaMemHeight := by
      unfold vgaMemHeight vgaHeight at *; omega
    have hmod : (y + t.scrollRow) % 2 ^ 32 = y + t.scrollRow :=
      Nat.mod_eq_of_lt (Nat.lt_trans hlt (by decide))
    rw [hmod, withBigElement, if_pos ⟨hlt, hx⟩, setVgaElement_of_lt hy hx]
  unfold terminalUpdateVgaMem
  exact forGrid_fill (fun g => { t with vgaBuffer := g })
    (fun y x => t.bigScrollableBuffer (y + t.scrollRow) x)
    (fun y x t => withBigElement x ((y + t.scrollRow) % 2 ^ 32) (setVgaElement x y) t) hbody
    t.vgaBuffer

/-- **`terminal_set_scroll` clamps and refreshes**, and touches nothing else. -/
theorem terminalSetScroll_eq (row : Nat) (t : TerminalContext) :
    terminalSetScroll row t = { t with
      scrollRow := min row 975
      vgaBuffer := shown t.bigScrollableBuffer (min row 975) t.vgaBuffer } := by
  have hrow : (if row > vgaMemHeight - vgaHeight then vgaMemHeight - vgaHeight else row)
      = min row 975 := by
    unfold vgaMemHeight vgaHeight
    by_cases h : row > 1000 - 25
    · rw [if_pos h]; omega
    · rw [if_neg h]; omega
  have hle : min row 975 ≤ vgaMemHeight - vgaHeight := Nat.min_le_right _ _
  rw [terminalSetScroll, hrow]
  exact terminalUpdateVgaMem_eq (t := { t with scrollRow := min row 975 }) hle

theorem terminalScrollDown_one {t : TerminalContext} (h : t.scrollRow ≤ 975) :
    terminalScrollDown 1 t = terminalSetScroll (t.scrollRow + 1) t := by
  have e : (((t.scrollRow : Int) + 1) % 2 ^ 32).toNat = t.scrollRow + 1 := by omega
  rw [terminalScrollDown, e]

/-- `terminal_putentryat` inside the scrollback: the cell is stored there, and if its row is one
    of the visible ones the screen gets the entry found `scroll_row` rows above it. -/
theorem terminalPutentryat_eq {x y : Nat} {t : TerminalContext} (hy : y < vgaMemHeight)
    (hx : x < vgaWidth) (c color : UInt8) :
    terminalPutentryat c color x y t = { t with
      entries := t.entries ++ [⟨c, x, y, t.scrollRow⟩]
      bigScrollableBuffer := put t.bigScrollableBuffer y x (vgaEntry c color)
      vgaBuffer := if sub32 y t.scrollRow ≥ vgaHeight then t.vgaBuffer
        else put t.vgaBuffer (sub32 y t.scrollRow) x
          (put t.bigScrollableBuffer y x (vgaEntry c color) (sub32 y t.scrollRow) x) } := by
  rw [terminalPutentryat, setBigElement_of_lt hy hx]
  by_cases hv : sub32 y t.scrollRow ≥ vgaHeight
  · simp only [hv, if_true]
  · have hv' : sub32 y t.scrollRow < vgaHeight := Nat.lt_of_not_le hv
    have hm : sub32 y t.scrollRow < vgaMemHeight := Nat.lt_trans hv' (by decide)
    simp only [hv, if_false]
    rw [withBigElement, if_pos ⟨hm, hx⟩, setVgaElement_of_lt hv' hx]

/-- `terminal_increase_row` below the last row: one row down, scrolled by one if the new row is
    more than 25 below the scroll row (as unsigned numbers). -/
theorem terminalIncreaseRow_of_lt {t : TerminalContext} (hr : t.currentWriteRow < 999)
    (hs : t.scrollRow ≤ 975) :
    terminalIncreaseRow t =
      if sub32 (t.currentWriteRow + 1) t.scrollRow > vgaHeight
      then terminalSetScroll (t.scrollRow + 1)
        { t with currentWriteRow := t.currentWriteRow + 1 }
      else { t with currentWriteRow := t.currentWriteRow + 1 } := by
  have hmod : (t.currentWriteRow + 1) % 2 ^ 32 = t.currentWriteRow + 1 := by omega
  have hlt : ¬ (t.currentWriteRow + 1 ≥ vgaMemHeight) := by simp only [vgaMemHeight]; omega
  simp only [terminalIncreaseRow, hmod]
  by_cases hv : sub32 (t.currentWriteRow + 1) t.scrollRow > vgaHeight
  · rw [if_pos hv, if_pos hv, terminalScrollDown_one (by exact hs), terminalSetScroll_eq]
    exact if_neg hlt
  · rw [if_neg hv, if_neg hv]
    exact if_neg hlt

/-- Clearing the screen forgets what a refresh has put there. -/
theorem cleared_shown (v : UInt16) (big : Nat → Nat → UInt16) (scroll : Nat)
    (vga : Nat → Nat → UInt16) :
    (fun y x => if y < vgaHeight ∧ x < vgaWidth then v else shown big scroll vga y x)
      = fun y x => if y < vgaHeight ∧ x < vgaWidth then v else vga y x := by
  funext y x
  by_cases h : y < vgaHeight ∧ x < vgaWidth <;> simp [shown, h]

/-- `terminal_increase_row` on the last row: back to the top, screen cleared. -/
theorem terminalIncreaseRow_last {t : TerminalContext} (hr : t.currentWriteRow = 999)
    (hs : t.scrollRow ≤ 975) :
    terminalIncreaseRow t = { t with
      currentWriteRow := 0
      currentWriteColumn := 0
      scrollRow := 0
      vgaBuffer := fun y x => if y < vgaHeight ∧ x < vgaWidth then clearedCell t.color
        else t.vgaBuffer y x } := by
  have hmod : (t.currentWriteRow + 1) % 2 ^ 32 = 1000 := by omega
  simp only [terminalIncreaseRow, hmod]
  by_cases hv : sub32 1000 t.scrollRow > vgaHeight
  · rw [if_pos hv, terminalScrollDown_one (by exact hs), terminalSetScroll_eq]
    simp only [vgaMemHeight, ge_iff_le, Nat.le_refl, if_true]
    rw [terminalSetScroll_eq, clearVisibleTerminal_eq, cleared_shown, cleared_shown, Nat.zero_min]
  · rw [if_neg hv]
    simp only [vgaMemHeight, ge_iff_le, Nat.le_refl, if_true]
    rw [terminalSetScroll_eq, clearVisibleTerminal_eq, cleared_shown, Nat.zero_min]

/-- The loop of `initialize_terminal` over the scrollback. -/
theorem blankScrollback_eq (t : TerminalContext) :
    forRange vgaMemHeight (fun y => forRange vgaWidth fun x t =>
        setBigElement x y (vgaEntry 0x20 t.color) t) t
      = { t with
          bigScrollableBuffer := fun y x => if y < vgaMemHeight ∧ x < vgaWidth
            then vgaEntry 0x20 t.color else t.bigScrollableBuffer y x } := by
  have hbody : ∀ (y x : Nat) (g : Nat → Nat → UInt16), y < vgaMemHeight → x < vgaWidth →
      setBigElement x y (vgaEntry 0x20 t.color) { t with bigScrollableBuffer := g }
        = { t with bigScrollableBuffer := put g y x (vgaEntry 0x20 t.color) } := by
    intro y x g hy hx
    rw [setBigElement_of_lt hy hx]
  have fill := forGrid_fill (h := vgaMemHeight) (w := vgaWidth)
    (fun g : Nat → Nat → UInt16 => { t with bigScrollableBuffer := g })
    (fun _ _ => vgaEntry 0x20 t.color)
    (fun y x (t : TerminalContext) => setBigElement x y (vgaEntry 0x20 t.color) t)
  exact fill hbody t.bigScrollableBuffer

/-- The state after `initialize_terminal`: light grey on black, a blank scrollback, the screen
    cleared. -/
theorem initializeTerminal_eq (t : TerminalContext) :
    initializeTerminal t = { t with
      currentWriteRow := 0
      currentWriteColumn := 0
      scrollRow := 0
      color := 7
      vgaBuffer := fun y x => if y < vgaHeight ∧ x < vgaWidth then clearedCell 7
        else t.vgaBuffer y x
      bigScrollableBuffer := fun y x => if y < vgaMemHeight ∧ x < vgaWidth
        then vgaEntry 0x20 7 else t.bigScrollableBuffer y x } := by
  have hcol : vgaEntryColor vgaColorLightGrey vgaColorBlack = 7 := by decide
  simp only [initializeTerminal, hcol, clearVisibleTerminal_eq, blankScrollback_eq]

-- From here on these are known by their closed forms: unfolding them would run the loops.
attribute [irreducible] sub32 clearVisibleTerminal terminalUpdateVgaMem terminalSetScroll
  initializeTerminal terminalPutentryat terminalIncreaseRow

end MapleKernel.Stdio
