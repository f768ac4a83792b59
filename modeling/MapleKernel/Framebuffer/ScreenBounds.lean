/-
  File:      Framebuffer/ScreenBounds.lean
  Subject:   WHICH CELLS the bounds check of `set_pixel` lets through.

  In a build with `DEBUG` the check refuses `x > width` and `y > height`, so a column and a row too
  many pass it. A block is drawn up to the first refused pixel, a line goes on behind it.

  * `onScreen_iff` -- a pixel in the column `width` is on the screen only as the first one of the
    next row, where rows have no padding.
  * `Block.Safe`, `DrawLineArgs.Safe` -- the shapes that write no cell beside the screen, by their
    arguments: `debugCheck_iff`.
-/
import MapleKernel.Framebuffer.Shapes

namespace MapleKernel.Framebuffer

open RowScan LastWrite GridLine

/-! ## 1. Cells of the screen -/

def FrameBuffer.OnScreen (fb : FrameBuffer) (cell : Nat) : Prop :=
  ∃ x y, x < fb.width.toNat ∧ y < fb.height.toNat ∧ cell = y * fb.effectivePitch.toNat + x

/-- The cells a drawing function wrote. -/
def Drawing.cells (d : Drawing) : List Nat := d.pixels.map fun p => d.fb.index p.1 p.2

/-- The pixels `draw_line_quick` set: its calls of `set_pixel` that were not refused. -/
def LineState.pixels (debug : Bool) (s : LineState) : List (UInt16 × UInt16) :=
  (s.calls.map fun p => (narrow p.1, narrow p.2)).filter fun p => s.fb.admits debug p.1 p.2

def LineState.cells (debug : Bool) (s : LineState) : List Nat :=
  (s.pixels debug).map fun p => s.fb.index p.1 p.2

/-- A pixel that is on the screen, or just behind the end of a row of it and so at the beginning
    of the next one. -/
def FrameBuffer.Free (fb : FrameBuffer) (x y : Nat) : Prop :=
  (x < fb.width.toNat ∧ y < fb.height.toNat) ∨
    (x = fb.width.toNat ∧ 0 < fb.width.toNat ∧ fb.effectivePitch = fb.width
      ∧ y + 1 < fb.height.toNat)

/-- **The cell of a pixel up to the column `width`.** -/
theorem onScreen_iff {fb : FrameBuffer} (hP : fb.width.toNat ≤ fb.effectivePitch.toNat) {x y : Nat}
    (hx : x ≤ fb.width.toNat) :
    fb.OnScreen (y * fb.effectivePitch.toNat + x) ↔ fb.Free x y := by
  constructor
  · rintro ⟨x', y', hx', hy', heq⟩
    by_cases hlt : x < fb.effectivePitch.toNat
    · obtain ⟨rfl, rfl⟩ := cell_inj hlt (by omega) heq
      exact Or.inl ⟨hx', hy'⟩
    · -- the pixel behind a row without padding
      have hpitch : fb.effectivePitch.toNat = fb.width.toNat := by omega
      have hxe : x = fb.width.toNat := by omega
      have hnext : (y + 1) * fb.effectivePitch.toNat + 0 = y' * fb.effectivePitch.toNat + x' := by
        rw [Nat.add_mul, Nat.one_mul]
        omega
      obtain ⟨-, rfl⟩ := cell_inj (by omega) (by omega) hnext
      exact Or.inr ⟨hxe, by omega, UInt16.toNat_inj.mp hpitch, hy'⟩
  · rintro (⟨hx', hy'⟩ | ⟨rfl, hpos, hpitch, hy'⟩)
    · exact ⟨x, y, hx', hy', rfl⟩
    · refine ⟨0, y + 1, hpos, hy', ?_⟩
      rw [hpitch, Nat.add_mul, Nat.one_mul, Nat.add_zero]

/-! ## 2. Blocks -/

/-- **The blocks that write no cell beside the screen**: no pixel at all, because the block is
    empty or its first pixel is refused; all pixels on the screen; or rows without padding, where
    the column behind the screen is that of the next rows, which must be on the screen too. The
    block goes on after that column only if the column is its last one or the widest there is. -/
def Block.Safe (b : Block) (fb : FrameBuffer) : Prop :=
  b.width = 0 ∨ b.height = 0 ∨ fb.width.toNat < b.left ∨ fb.height.toNat < b.top ∨
    (b.left + b.width ≤ fb.width.toNat ∧ b.top + b.height ≤ fb.height.toNat) ∨
    (0 < fb.width.toNat ∧ fb.effectivePitch = fb.width ∧ fb.width.toNat < b.left + b.width
      ∧ b.top + 1 < fb.height.toNat
      ∧ (b.left + b.width ≤ fb.width.toNat + 1 ∨ fb.width.toNat = 2 ^ 16 - 1 →
        b.top + b.height < fb.height.toNat))

/-- The sizes that the arguments of the drawing functions have. -/
structure Block.Fits (b : Block) : Prop where
  left : b.left < 2 ^ 16
  top : b.top < 2 ^ 16
  width : b.width < 2 ^ 16
  height : b.height < 2 ^ 16

/-- The pixel `(j, i)` of a block is drawn: the check admits it and all before it. -/
def Block.Drawn (b : Block) (fb : FrameBuffer) (j i : Nat) : Prop :=
  ∀ j' i', i' < b.width → (j' < j ∨ j' = j ∧ i' ≤ i) →
    (b.left + i') % 2 ^ 16 ≤ fb.width.toNat ∧ (b.top + j') % 2 ^ 16 ≤ fb.height.toNat

section Blocks

variable {fb : FrameBuffer} {b : Block} (hfits : b.Fits)

include hfits

/-- What a safe block draws is free. -/
theorem Block.Safe.free (hsafe : b.Safe fb) {j i : Nat} (hj : j < b.height) (hi : i < b.width)
    (hdrawn : b.Drawn fb j i) :
    fb.Free ((b.left + i) % 2 ^ 16) ((b.top + j) % 2 ^ 16) := by
  obtain ⟨hl, ht, hw, hh⟩ := hfits
  have hself := hdrawn j i hi (Or.inr ⟨rfl, Nat.le_refl i⟩)
  have hfirst := hdrawn 0 0 (by omega) (by omega)
  rcases hsafe with h | h | h | h | ⟨hx, hy⟩ | ⟨hpos, hpitch, hx, hy, hrows⟩
  · omega
  · omega
  · omega
  · omega
  · exact Or.inl ⟨by omega, by omega⟩
  · have hW := fb.width.toNat_lt
    have hH := fb.height.toNat_lt
    -- the row of the pixel is above the last one
    have hrow : b.top + j + 1 < fb.height.toNat := by
      by_cases hgoes : b.left + b.width ≤ fb.width.toNat + 1 ∨ fb.width.toNat = 2 ^ 16 - 1
      · have := hrows hgoes
        omega
      · by_contra hbelow
        have hstop := hdrawn 0 (fb.width.toNat + 1 - b.left) (by omega) (by omega)
        omega
    have hye : (b.top + j) % 2 ^ 16 = b.top + j := Nat.mod_eq_of_lt (by omega)
    rw [hye]
    rcases Nat.lt_or_eq_of_le hself.1 with hlt | heq
    · exact Or.inl ⟨hlt, by omega⟩
    · exact Or.inr ⟨heq, hpos, hpitch, hrow⟩

/-- A block that draws free pixels only is safe: the pixels it would draw first beside the screen
    are the one in the row `height` and the one in the column `width`. -/
theorem Block.safe_of_free (hfree : ∀ j i, j < b.height → i < b.width → b.Drawn fb j i →
    fb.Free ((b.left + i) % 2 ^ 16) ((b.top + j) % 2 ^ 16)) : b.Safe fb := by
  obtain ⟨hl, ht, hw, hh⟩ := hfits
  have hW := fb.width.toNat_lt
  have hH := fb.height.toNat_lt
  by_cases hempty : b.width = 0 ∨ b.height = 0 ∨ fb.width.toNat < b.left ∨ fb.height.toNat < b.top
  · unfold Block.Safe
    omega
  have hw0 : 0 < b.width := by omega
  have hh0 : 0 < b.height := by omega
  refine Or.inr (Or.inr (Or.inr (Or.inr ?_)))
  by_cases hx : b.left + b.width ≤ fb.width.toNat
  · refine Or.inl ⟨hx, ?_⟩
    by_contra hy
    have hlast := hfree (fb.height.toNat - b.top) 0 (by omega) hw0 fun j' i' hi' hbefore => by
      omega
    unfold FrameBuffer.Free at hlast
    omega
  · -- the column `width` is drawn in the first row
    have hcolumn := hfree 0 (fb.width.toNat - b.left) hh0 (by omega) fun j' i' hi' hbefore => by
      omega
    have hxe : (b.left + (fb.width.toNat - b.left)) % 2 ^ 16 = fb.width.toNat := by omega
    rw [hxe] at hcolumn
    rcases hcolumn with ⟨hlt, -⟩ | ⟨-, hpos, hpitch, hy⟩
    · exact absurd hlt (Nat.lt_irrefl _)
    refine Or.inr ⟨hpos, hpitch, by omega, by omega, fun hgoes => ?_⟩
    by_contra hrows
    have hlast := hfree (fb.height.toNat - 1 - b.top) (fb.width.toNat - b.left) (by omega)
      (by omega) fun j' i' hi' hbefore => by omega
    rw [hxe] at hlast
    unfold FrameBuffer.Free at hlast
    omega

end Blocks

theorem setPixels_cells (debug : Bool) (fb : FrameBuffer) (ps : List Pixel) :
    (setPixels debug fb ps).cells = (fb.reached debug ps).map fun p => fb.index p.x p.y := by
  obtain ⟨hfb, hpixels, -⟩ := setPixels_spec debug fb ps
  rw [Drawing.cells, hpixels, hfb, List.map_map]
  rfl

/-- The pixels of a block that are drawn. -/
theorem mem_reached_block {fb : FrameBuffer} {b : Block} {color : Nat → Nat → Color} {p : Pixel} :
    p ∈ fb.reached true (scan b.height b.width (b.pixel color)) ↔
      ∃ j i, j < b.height ∧ i < b.width ∧ p = b.pixel color j i ∧ b.Drawn fb j i := by
  have hadmits : ∀ j i, fb.admits true (b.pixel color j i).x (b.pixel color j i).y = true
      ↔ (b.left + i) % 2 ^ 16 ≤ fb.width.toNat ∧ (b.top + j) % 2 ^ 16 ≤ fb.height.toNat := by
    intro j i
    rw [FrameBuffer.admits_iff, UInt16.le_iff_toNat_le, UInt16.le_iff_toNat_le]
    simp only [Block.pixel, UInt16.toNat_ofNat', true_implies]
  simp only [FrameBuffer.reached, mem_takeWhile_scan, hadmits]
  rfl

/-- **The blocks that write no cell beside the screen.** -/
theorem drawBlock_onScreen_iff {fb : FrameBuffer}
    (hP : fb.width.toNat ≤ fb.effectivePitch.toNat) {b : Block} (hfits : b.Fits)
    (color : Nat → Nat → Color) :
    (∀ cell ∈ (drawBlock true fb b color).cells, fb.OnScreen cell) ↔ b.Safe fb := by
  have hindex : ∀ j i, fb.index (b.pixel color j i).x (b.pixel color j i).y
      = (b.top + j) % 2 ^ 16 * fb.effectivePitch.toNat + (b.left + i) % 2 ^ 16 := by
    intro j i
    rw [fb.index_eq]
    simp only [Block.pixel, UInt16.toNat_ofNat']
  rw [drawBlock, setPixels_cells]
  constructor
  · intro hall
    refine Block.safe_of_free hfits fun j i hj hi hdrawn => ?_
    have hx := (hdrawn j i hi (Or.inr ⟨rfl, Nat.le_refl i⟩)).1
    have hcell := hall _ (List.mem_map_of_mem (mem_reached_block.mpr ⟨j, i, hj, hi, rfl, hdrawn⟩))
    rw [hindex] at hcell
    exact (onScreen_iff hP hx).mp hcell
  · intro hsafe cell hcell
    obtain ⟨p, hp, rfl⟩ := List.mem_map.mp hcell
    obtain ⟨j, i, hj, hi, rfl, hdrawn⟩ := mem_reached_block.mp hp
    have hx := (hdrawn j i hi (Or.inr ⟨rfl, Nat.le_refl i⟩)).1
    rw [hindex]
    exact (onScreen_iff hP hx).mpr (hsafe.free hfits hj hi hdrawn)

/-! ## 3. Lines -/

/-- The `k`-th point of the line from one end to the other: every step goes on in the longer
    direction, and the other coordinate is rounded to the nearest. -/
def DrawLineArgs.point (args : DrawLineArgs) (k : Nat) : Int × Int :=
  let X := axisOf args.x0 args.x1
  let Y := axisOf args.y0 args.y1
  if Y.d ≤ X.d then (X.pos k, Y.pos (rise X.d Y.d k)) else (X.pos (rise Y.d X.d k), Y.pos k)

theorem pixelAt_eq_point (args : DrawLineArgs) {k : Nat} (hk : k ≤ args.turns) :
    pixelAt (axisOf args.x0 args.x1) (axisOf args.y0 args.y1) k = args.point k := by
  have hn := args.turns_eq
  rw [pixelAt, walk_eq (axisOf args.x0 args.x1).d_nonneg (axisOf args.y0 args.y1).d_nonneg
    (by omega), DrawLineArgs.point]
  split
  · rfl
  · rfl

/-- A point of the line is a call of `set_pixel`, and its coordinates fit. -/
theorem point_mem (args : DrawLineArgs) {k : Nat} (hk : k ≤ args.turns) : args.point k
    ∈ pixelsFrom (axisOf args.x0 args.x1) (axisOf args.y0 args.y1) 0 args.turns := by
  refine List.mem_map.mpr ⟨k, List.mem_range.mpr (Nat.lt_succ_of_le hk), ?_⟩
  rw [Nat.zero_add, pixelAt_eq_point args hk]

theorem point_eq_narrow (args : DrawLineArgs) {k : Nat} (hk : k ≤ args.turns) : args.point k
    = (((narrow (args.point k).1).toNat : Int), ((narrow (args.point k).2).toNat : Int)) := by
  obtain ⟨hx, hy⟩ := narrow_eq_of_mem args.turns_eq (point_mem args hk)
  exact Prod.ext hx.symm hy.symm

/-- **The lines that write no cell beside the screen**: those whose points the check admits are
    free, all of them. -/
def DrawLineArgs.Safe (args : DrawLineArgs) (fb : FrameBuffer) : Prop :=
  ∀ k ≤ args.turns, (args.point k).1 ≤ fb.width.toNat → (args.point k).2 ≤ fb.height.toNat →
    fb.Free (args.point k).1.toNat (args.point k).2.toNat

/-- The frame after the calls of `set_pixel` of a line: the admitted ones are written. -/
theorem drawn_eq (debug : Bool) (color : Color) (fb : FrameBuffer) (calls : List (Int × Int)) :
    drawn debug color fb calls = { fb with
      baseAddress := memAfter fb.baseAddress
        (((calls.map fun p => (narrow p.1, narrow p.2)).filter fun p =>
          fb.admits debug p.1 p.2).map fun p => fb.write ⟨p.1, p.2, color⟩) } := by
  induction calls generalizing fb with
  | nil => rfl
  | cons c calls ih =>
      have hcons : drawn debug color fb (c :: calls)
          = drawn debug color (fb.setPixel debug (narrow c.1) (narrow c.2) color).2 calls := rfl
      rw [hcons, List.map_cons]
      cases hc : fb.admits debug (narrow c.1) (narrow c.2) with
      | true =>
          have hkeep := List.filter_cons_of_pos (l := calls.map fun p => (narrow p.1, narrow p.2))
            (p := fun p => fb.admits debug p.1 p.2) (a := (narrow c.1, narrow c.2)) hc
          rw [FrameBuffer.setPixel_of_admits hc, ih, hkeep]
          rfl
      | false =>
          obtain ⟨-, ret, -, hset⟩ := FrameBuffer.setPixel_of_not_admits hc color
          have hdrop := List.filter_cons_of_neg (l := calls.map fun p => (narrow p.1, narrow p.2))
            (p := fun p => fb.admits debug p.1 p.2) (a := (narrow c.1, narrow c.2)) (by simp [hc])
          rw [hset, ih, hdrop]

theorem narrow_natCast (x : UInt16) : narrow (x.toNat : Int) = x := by
  have hx := x.toNat_lt
  have hnarrow := narrow_toNat (x := (x.toNat : Int)) (by omega) (by omega)
  exact UInt16.toNat_inj.mp (Int.ofNat.inj hnarrow)

/-- The pixels that `draw_line_quick` sets. -/
theorem drawLineQuick_pixels (debug : Bool) (fb : FrameBuffer) (args : DrawLineArgs)
    (extra : Nat) : ∃ s, drawLineQuick debug (2 ^ 16 + extra) fb args = .ok s ∧
      s.fb.effectivePitch = fb.effectivePitch ∧
      ∀ x y, (x, y) ∈ s.pixels debug ↔
        fb.admits debug x y = true ∧ ∃ k ≤ args.turns, 
          args.point k = ((x.toNat : Int), (y.toNat : Int)) := by
  obtain ⟨s, hrun, hcalls, hfb⟩ := drawLineQuick_ok debug fb args extra
  rw [drawn_eq] at hfb
  refine ⟨s, hrun, by rw [hfb], fun x y => ?_⟩
  have hadmits : s.fb.admits debug x y = fb.admits debug x y := by rw [hfb]; rfl
  rw [LineState.pixels, List.mem_filter, hadmits, and_comm, hcalls, List.mem_map]
  refine and_congr_right fun _ => ?_
  constructor
  · rintro ⟨p, hp, hpe⟩
    obtain ⟨k, hk, rfl⟩ := List.mem_map.mp hp
    have hk' : k ≤ args.turns := Nat.le_of_lt_succ (List.mem_range.mp hk)
    rw [Nat.zero_add, pixelAt_eq_point args hk'] at hpe
    obtain ⟨rfl, rfl⟩ := Prod.mk.inj hpe
    exact ⟨k, hk', point_eq_narrow args hk'⟩
  · rintro ⟨k, hk, hpoint⟩
    refine ⟨args.point k, point_mem args hk, ?_⟩
    rw [hpoint, narrow_natCast, narrow_natCast]

theorem drawLineQuick_onScreen_iff {fb : FrameBuffer}
    (hP : fb.width.toNat ≤ fb.effectivePitch.toNat) (args : DrawLineArgs) (extra : Nat) :
    ∃ s, drawLineQuick true (2 ^ 16 + extra) fb args = .ok s ∧
      ((∀ cell ∈ s.cells true, fb.OnScreen cell) ↔ args.Safe fb) := by
  obtain ⟨s, hrun, hpitch, hpixels⟩ := drawLineQuick_pixels true fb args extra
  have hindex : ∀ x y, s.fb.index x y = y.toNat * fb.effectivePitch.toNat + x.toNat := by
    intro x y
    rw [s.fb.index_eq, hpitch]
  refine ⟨s, hrun, ?_, ?_⟩
  · intro hall k hk hx hy
    have hpoint := point_eq_narrow args hk
    generalize narrow (args.point k).1 = x at hpoint
    generalize narrow (args.point k).2 = y at hpoint
    rw [hpoint] at hx hy ⊢
    have hx' : x.toNat ≤ fb.width.toNat := Int.ofNat_le.mp hx
    have hy' : y.toNat ≤ fb.height.toNat := Int.ofNat_le.mp hy
    have hadmits : fb.admits true x y = true := FrameBuffer.admits_iff.mpr fun _ =>
      ⟨UInt16.le_iff_toNat_le.mpr hx', UInt16.le_iff_toNat_le.mpr hy'⟩
    have hcell := hall _ (List.mem_map_of_mem ((hpixels x y).mpr ⟨hadmits, k, hk, hpoint⟩))
    rw [hindex] at hcell
    exact (onScreen_iff hP hx').mp hcell
  · intro hsafe cell hcell
    obtain ⟨⟨x, y⟩, hp, rfl⟩ := List.mem_map.mp hcell
    obtain ⟨hadmits, k, hk, hpoint⟩ := (hpixels x y).mp hp
    obtain ⟨hx, hy⟩ := FrameBuffer.admits_iff.mp hadmits rfl
    have hfree := hsafe k hk
    rw [hpoint] at hfree
    rw [hindex]
    exact (onScreen_iff hP (UInt16.le_iff_toNat_le.mp hx)).mpr
      (hfree (Int.ofNat_le.mpr (UInt16.le_iff_toNat_le.mp hx))
        (Int.ofNat_le.mpr (UInt16.le_iff_toNat_le.mp hy)))

/-! ## 4. Every shape -/

theorem DrawHorizontalLineArgs.block_fits (args : DrawHorizontalLineArgs) : args.block.Fits where
  left := args.xStart.toNat_lt
  top := args.y.toNat_lt
  width := Nat.lt_of_le_of_lt (Nat.sub_le _ _) args.xEnd.toNat_lt
  height := args.thickness.toNat_lt

theorem DrawVerticalLineArgs.block_fits (args : DrawVerticalLineArgs) : args.block.Fits where
  left := args.x.toNat_lt
  top := args.yStart.toNat_lt
  width := args.thickness.toNat_lt
  height := Nat.lt_of_le_of_lt (Nat.sub_le _ _) args.yEnd.toNat_lt

theorem DrawRectangleArgs.block_fits (args : DrawRectangleArgs) : args.block.Fits where
  left := args.topLeftX.toNat_lt
  top := args.topLeftY.toNat_lt
  width := args.width.toNat_lt
  height := args.height.toNat_lt

theorem DrawBitmapArgs.block_fits (args : DrawBitmapArgs) : args.block.Fits where
  left := args.topLeftX.toNat_lt
  top := args.topLeftY.toNat_lt
  width := args.bitmap.width.toNat_lt
  height := args.bitmap.height.toNat_lt

/-- **The check against the screen.** In a build with `DEBUG` every shape writes cells of the
    screen only if and only if its arguments are `Safe`. -/
theorem debugCheck_iff {fb : FrameBuffer} (hP : fb.width.toNat ≤ fb.effectivePitch.toNat) :
    (∀ args, (∀ cell ∈ (drawHorizontalLine true fb args).cells, fb.OnScreen cell)
      ↔ args.block.Safe fb)
    ∧ (∀ args, (∀ cell ∈ (drawVerticalLine true fb args).cells, fb.OnScreen cell)
      ↔ args.block.Safe fb)
    ∧ (∀ args, (∀ cell ∈ (drawRectangle true fb args).cells, fb.OnScreen cell)
      ↔ args.block.Safe fb)
    ∧ (∀ args, (∀ cell ∈ (drawBitmap true fb args).cells, fb.OnScreen cell)
      ↔ args.block.Safe fb)
    ∧ ∀ args extra, ∃ s, drawLineQuick true (2 ^ 16 + extra) fb args = .ok s ∧
      ((∀ cell ∈ s.cells true, fb.OnScreen cell) ↔ args.Safe fb) := by
  refine ⟨fun args => ?_, fun args => ?_, fun args => ?_, fun args => ?_, fun args extra => ?_⟩
  · exact drawBlock_onScreen_iff hP args.block_fits _
  · exact drawBlock_onScreen_iff hP args.block_fits _
  · exact drawBlock_onScreen_iff hP args.block_fits _
  · exact drawBlock_onScreen_iff hP args.block_fits _
  · exact drawLineQuick_onScreen_iff hP args extra

theorem debugCheck_iff_padded :
    (∀ cell ∈ (drawRectangle true paddedFrame ⟨1, 1, 3, 2, ⟨0, 0, 0, 0⟩⟩).cells,
      paddedFrame.OnScreen cell) ↔ Block.Safe ⟨1, 1, 3, 2⟩ paddedFrame :=
  (@debugCheck_iff paddedFrame (by decide)).2.2.1 ⟨1, 1, 3, 2, ⟨0, 0, 0, 0⟩⟩

/-- A rectangle of one pixel at the lower right corner of the screen, one too far both ways. -/
theorem debugCheck_corner : ¬ ∀ (fb : FrameBuffer), fb.width.toNat ≤ fb.effectivePitch.toNat →
    (∀ args, ∀ cell ∈ (drawHorizontalLine true fb args).cells, fb.OnScreen cell)
    ∧ (∀ args, ∀ cell ∈ (drawVerticalLine true fb args).cells, fb.OnScreen cell)
    ∧ (∀ args, ∀ cell ∈ (drawRectangle true fb args).cells, fb.OnScreen cell)
    ∧ (∀ args, ∀ cell ∈ (drawBitmap true fb args).cells, fb.OnScreen cell)
    ∧ ∀ args extra s, drawLineQuick true (2 ^ 16 + extra) fb args = .ok s →
      ∀ cell ∈ s.cells true, fb.OnScreen cell := by
  intro hall
  obtain ⟨-, -, hrectangle, -⟩ := hall paddedFrame (by decide)
  obtain ⟨x, y, hx, hy, hcell⟩ := hrectangle ⟨4, 3, 1, 1, ⟨0, 0, 0, 0⟩⟩ 19 (by decide)
  have hx' : x < 4 := hx
  have hy' : y < 3 := hy
  have hcell' : 19 = y * 5 + x := hcell
  omega

end MapleKernel.Framebuffer
