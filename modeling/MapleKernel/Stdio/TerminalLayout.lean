/-
  File:      Stdio/TerminalLayout.lean
  Subject:   TEXT LAYOUT: what `terminal_write` leaves in the scrollback.

  * `Page`, `expandText`, `layout` -- the 80-column layout of a byte string, said without the
    terminal: tabs become spaces and NULs vanish first, then every byte is written at a cursor
    that only moves forward.
  * `Shows` -- the relation between a terminal and a page; one plain byte keeps it
    (`terminalPutcharPlain_shows`), hence a whole string does (`foldl_putchar_shows`), as long
    as the page stays within the 1000 rows.
  * `terminalWrite_layout`: the refinement from `initialize_terminal` on.
-/
import MapleKernel.Stdio.TerminalBounds

namespace MapleKernel.Stdio

open Loops

/-! ## 1. The layout -/

/-- A sheet of 80 columns and as many rows as needed, with a cursor. -/
structure Page where
  row : Nat
  column : Nat
  cell : Nat → Nat → Option UInt8

def Page.blank : Page := ⟨0, 0, fun _ _ => none⟩

/-- The column after a plain byte. -/
def nextColumn (k : Nat) (b : UInt8) : Nat := if b = 0x0A ∨ k + 1 = vgaWidth then 0 else k + 1

/-- One plain byte: a newline opens a row, any other byte takes the cell at the cursor, and a
    full row opens the next. -/
def Page.write (p : Page) (b : UInt8) : Page where
  row := if b = 0x0A ∨ p.column + 1 = vgaWidth then p.row + 1 else p.row
  column := nextColumn p.column b
  cell := if b = 0x0A then p.cell else put p.cell p.row p.column (some b)

/-- A byte met at column `k`, as plain bytes. -/
def expandByte (k : Nat) (c : UInt8) : List UInt8 :=
  if c = 0 then [] else if c = 0x09 then List.replicate (min 4 (vgaWidth - k)) 0x20 else [c]

/-- The text from column `k` on with NULs removed and tabs replaced by their spaces. -/
def expandText : Nat → List UInt8 → List UInt8
  | _, [] => []
  | k, c :: s => expandByte k c ++ expandText ((expandByte k c).foldl nextColumn k) s

def layout (s : List UInt8) : Page := (expandText 0 s).foldl Page.write Page.blank

theorem Page.row_le_write (p : Page) (b : UInt8) : p.row ≤ (p.write b).row := by
  show p.row ≤ if b = 0x0A ∨ p.column + 1 = vgaWidth then p.row + 1 else p.row
  split <;> omega

/-- The cursor of a page never moves up. -/
theorem Page.row_le_foldl (p : Page) (text : List UInt8) :
    p.row ≤ (text.foldl Page.write p).row := by
  induction text generalizing p with
  | nil => exact Nat.le_refl _
  | cons b text ih => exact Nat.le_trans (p.row_le_write b) (ih (p.write b))

theorem Page.column_foldl (p : Page) (text : List UInt8) :
    (text.foldl Page.write p).column = text.foldl nextColumn p.column := by
  induction text generalizing p with
  | nil => rfl
  | cons b text ih => exact ih (p.write b)

/-! ## 2. A terminal that shows a page -/

/-- The scrollback entry of a page's cell: its byte in colour `color`, or the initial blank. -/
def cellEntry (color : UInt8) : Option UInt8 → UInt16
  | some b => vgaEntry b color
  | none => vgaEntry 0x20 7

/-- The scrollback holds the page in the colour of the terminal (light grey since
    `initialize_terminal`), the cursor is the page's, and `out` is what COM1 got. -/
structure Shows (t : TerminalContext) (p : Page) (out : List UInt8) : Prop where
  inBounds : InBounds t
  row_eq : t.currentWriteRow = p.row
  column_eq : t.currentWriteColumn = p.column
  big_eq : ∀ y x, y < vgaMemHeight → x < vgaWidth →
    t.bigScrollableBuffer y x = cellEntry t.color (p.cell y x)
  color_eq : t.color = 7
  com1_eq : t.com1 = out

theorem initializeTerminal_shows (vga : Nat → Nat → UInt16) :
    Shows (initializeTerminal (.boot vga)) Page.blank [] := by
  refine ⟨initializeTerminal_inBounds vga, ?_, ?_, ?_, ?_, ?_⟩ <;> rw [initializeTerminal_eq]
  · rfl
  · rfl
  · intro y x hy hx
    exact if_pos ⟨hy, hx⟩
  · rfl

/-- A new row leaves what is shown alone. -/
theorem terminalIncreaseRow_shows {t : TerminalContext} {p : Page} {out : List UInt8}
    (h : Shows t p out) (hr : p.row + 1 < vgaMemHeight) :
    Shows (terminalIncreaseRow t) { p with row := p.row + 1 } out := by
  have hlt : t.currentWriteRow < 999 := by
    rw [h.row_eq]; exact Nat.lt_of_succ_lt_succ hr
  obtain ⟨erow, ecol, ebig, ecolor, ecom⟩ :=
    terminalIncreaseRow_frame hlt h.inBounds.scroll_le_max
  refine ⟨terminalIncreaseRow_inBounds h.inBounds, ?_, ?_, ?_, ?_, ?_⟩
  · rw [erow, h.row_eq]
  · rw [ecol]; exact h.column_eq
  · rw [ebig, ecolor]; exact h.big_eq
  · rw [ecolor]; exact h.color_eq
  · rw [ecom]; exact h.com1_eq

theorem Shows.column_zero {t : TerminalContext} {p : Page} {out : List UInt8}
    (h : Shows t p out) : Shows { t with currentWriteColumn := 0 } { p with column := 0 } out :=
  ⟨h.inBounds.column_zero, h.row_eq, rfl, h.big_eq, h.color_eq, h.com1_eq⟩

theorem storedChar_shows {t : TerminalContext} {p : Page} {out : List UInt8}
    (h : Shows t p out) (c : UInt8) :
    Shows (storedChar c t) { p with cell := put p.cell p.row p.column (some c) }
      (out ++ [c]) := by
  refine ⟨storedChar_inBounds h.inBounds c, ?_, ?_, ?_, ?_, ?_⟩ <;> rw [storedChar_eq h.inBounds]
  · exact h.row_eq
  · exact h.column_eq
  · intro y x hy hx
    simp only [h.row_eq, h.column_eq]
    by_cases hyx : y = p.row ∧ x = p.column
    · obtain ⟨rfl, rfl⟩ := hyx
      rw [put_self, put_self]
      rfl
    · rw [put_of_ne hyx, put_of_ne hyx]
      exact h.big_eq y x hy hx
  · exact h.color_eq
  · exact congrArg (· ++ [c]) h.com1_eq

theorem advanceColumn_shows {t : TerminalContext} {p : Page} {out : List UInt8}
    (h : Shows t p out)
    (hr : (if p.column + 1 = vgaWidth then p.row + 1 else p.row) < vgaMemHeight) :
    Shows (advanceColumn t)
      { p with
        row := if p.column + 1 = vgaWidth then p.row + 1 else p.row
        column := if p.column + 1 = vgaWidth then 0 else p.column + 1 } out := by
  have hin := advanceColumn_inBounds h.inBounds
  rw [advanceColumn_eq h.inBounds.column_lt, h.column_eq] at hin ⊢
  by_cases hw : p.column + 1 = vgaWidth
  · simp only [hw, if_true] at hr ⊢
    exact terminalIncreaseRow_shows h.column_zero hr
  · simp only [hw, if_false] at hin ⊢
    exact ⟨hin, h.row_eq, rfl, h.big_eq, h.color_eq, h.com1_eq⟩

/-- **One plain byte**: the terminal keeps showing the page, within the 1000 rows. -/
theorem terminalPutcharPlain_shows {t : TerminalContext} {p : Page} {out : List UInt8}
    (h : Shows t p out) (b : UInt8) (hr : (p.write b).row < vgaMemHeight) :
    Shows (terminalPutcharPlain b t) (p.write b) (out ++ [b]) := by
  by_cases hb : b = 0x0A
  · subst hb
    have hsent : Shows { t with com1 := t.com1 ++ [0x0A], currentWriteColumn := 0 }
        { p with column := 0 } (out ++ [0x0A]) :=
      ⟨h.inBounds.newline, h.row_eq, rfl, h.big_eq, h.color_eq,
        congrArg (· ++ [0x0A]) h.com1_eq⟩
    have hpage : p.write 0x0A = { p with row := p.row + 1, column := 0 } := by
      simp [Page.write, nextColumn]
    rw [hpage] at hr ⊢
    rw [terminalPutcharPlain_newline]
    exact terminalIncreaseRow_shows hsent hr
  · have hpage : p.write b = { p with
        row := if p.column + 1 = vgaWidth then p.row + 1 else p.row
        column := if p.column + 1 = vgaWidth then 0 else p.column + 1
        cell := put p.cell p.row p.column (some b) } := by
      simp [Page.write, nextColumn, hb]
    rw [hpage] at hr ⊢
    rw [terminalPutcharPlain_char hb]
    exact advanceColumn_shows (storedChar_shows h b) hr

/-! ## 3. Strings -/

/-- Plain bytes, one after another. -/
theorem foldl_putcharPlain_shows {t : TerminalContext} {p : Page} {out : List UInt8}
    (h : Shows t p out) (text : List UInt8)
    (hr : (text.foldl Page.write p).row < vgaMemHeight) :
    Shows (text.foldl (fun t b => terminalPutcharPlain b t) t) (text.foldl Page.write p)
      (out ++ text) := by
  induction text generalizing t p out with
  | nil => rw [List.append_nil]; exact h
  | cons b text ih =>
      have hb : (p.write b).row < vgaMemHeight :=
        Nat.lt_of_le_of_lt (Page.row_le_foldl (p.write b) text) hr
      have hrest := ih (terminalPutcharPlain_shows h b hb) hr
      rw [List.append_assoc, List.singleton_append] at hrest
      exact hrest

/-- `terminal_putchar` is its plain bytes, one after another. -/
theorem terminalPutchar_eq_foldl {t : TerminalContext} (h : t.currentWriteColumn < vgaWidth)
    (c : UInt8) :
    terminalPutchar c t =
      (expandByte t.currentWriteColumn c).foldl (fun t b => terminalPutcharPlain b t) t := by
  by_cases h0 : c = 0
  · subst h0; rfl
  · by_cases ht : c = 0x09
    · subst ht
      rw [terminalPutchar, if_neg h0, if_pos rfl, forRange_const_eq_foldl, spaceToAdd_eq h]
      rfl
    · rw [terminalPutchar_plain h0 ht, expandByte, if_neg h0, if_neg ht]
      rfl

/-- **A whole string**: the terminal shows the page its expansion is laid out on. -/
theorem foldl_putchar_shows {t : TerminalContext} {p : Page} {out : List UInt8}
    (h : Shows t p out) (s : List UInt8)
    (hr : ((expandText p.column s).foldl Page.write p).row < vgaMemHeight) :
    Shows (s.foldl (fun t c => terminalPutchar c t) t)
      ((expandText p.column s).foldl Page.write p) (out ++ expandText p.column s) := by
  induction s generalizing t p out with
  | nil => rw [expandText, List.append_nil]; exact h
  | cons c s ih =>
      have hcol := h.inBounds.column_lt
      rw [expandText, List.foldl_append, ← Page.column_foldl] at hr ⊢
      have hfirst : ((expandByte p.column c).foldl Page.write p).row < vgaMemHeight :=
        Nat.lt_of_le_of_lt (Page.row_le_foldl _ _) hr
      have hbyte := foldl_putcharPlain_shows h (expandByte p.column c) hfirst
      rw [List.foldl_cons, terminalPutchar_eq_foldl hcol, h.column_eq, ← List.append_assoc]
      exact ih hbyte hr

/-- **Two writes are one.** -/
theorem terminalWrite_append (s u : List UInt8) (t : TerminalContext) :
    terminalWrite u u.length (terminalWrite s s.length t)
      = terminalWrite (s ++ u) (s ++ u).length t := by
  simp only [terminalWrite, List.take_length, List.foldl_append]

/-- **`terminal_write` lays text out**: within 1000 rows the scrollback holds the layout of `s` in
    light grey and the initial blank everywhere else, the cursor is at the layout's end and COM1
    got the expanded text; and writing two strings is writing their concatenation. -/
theorem terminalWrite_layout (vga : Nat → Nat → UInt16) (s : List UInt8)
    (hr : (layout s).row < vgaMemHeight) :
    Shows (terminalWrite s s.length (initializeTerminal (.boot vga))) (layout s)
        (expandText 0 s) ∧
      ∀ (u v : List UInt8) (t : TerminalContext),
        terminalWrite v v.length (terminalWrite u u.length t)
          = terminalWrite (u ++ v) (u ++ v).length t := by
  refine ⟨?_, terminalWrite_append⟩
  rw [terminalWrite, List.take_length]
  exact foldl_putchar_shows (initializeTerminal_shows vga) s hr

theorem terminalWrite_layout_tab :
    Shows (terminalWrite [0x41, 0x09, 0x0A, 0x00, 0x42] 5 (initializeTerminal (.boot fun _ _ => 0)))
      (layout [0x41, 0x09, 0x0A, 0x00, 0x42]) [0x41, 0x20, 0x20, 0x20, 0x20, 0x0A, 0x42] :=
  (terminalWrite_layout (fun _ _ => 0) [0x41, 0x09, 0x0A, 0x00, 0x42] (by decide)).1

end MapleKernel.Stdio
