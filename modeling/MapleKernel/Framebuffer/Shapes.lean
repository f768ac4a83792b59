/-
  File:      Framebuffer/Shapes.lean
  Subject:   LINES, RECTANGLES AND BITMAPS: the nested loops of `framebuffer.cpp`.

  Every shape is a block of pixels, set row by row; in a build with `DEBUG` the first pixel that
  `set_pixel` refuses ends the function.

  * `setPixels_spec` -- the pixels up to the first refused one are written, and nothing else.
  * `drawBlock_filled` -- a block on the screen is filled exactly: what `get_pixel` reads there is
    what was drawn, and every other cell keeps its contents. `filledShapes_exact` says so of
    the rectangles and the bitmaps.
-/
import MapleKernel.Lib.RowScan
import MapleKernel.Lib.LastWrite
import MapleKernel.Framebuffer.DrawLine

namespace MapleKernel.Framebuffer

open RowScan LastWrite

/-! ## 1. The functions -/

/-- `Color(uint32_t)`. -/
def Color.ofHex (hex : BitVec 32) : Color where
  b := ⟨(hex &&& 0xFF#32).setWidth 8⟩
  g := ⟨((hex >>> 8) &&& 0xFF#32).setWidth 8⟩
  r := ⟨((hex >>> 16) &&& 0xFF#32).setWidth 8⟩
  a := ⟨((hex >>> 24) &&& 0xFF#32).setWidth 8⟩

/-- `get_pixel`; in a build with `DEBUG` it aborts where `set_pixel` returns an error. -/
def FrameBuffer.getPixel (debug : Bool) (fb : FrameBuffer) (x y : UInt16) : Option Color :=
  if debug ∧ x > fb.width then none
  else if debug ∧ y > fb.height then none
  else some (Color.ofHex (fb.baseAddress (fb.index x y)))

structure Pixel where
  x : UInt16
  y : UInt16
  color : Color
  deriving DecidableEq, Repr

/-- What a drawing function leaves: its result and the frame. `pixels` is ghost data, the pixels
    it set. -/
structure Drawing where
  ret : Nat
  fb : FrameBuffer
  pixels : List (UInt16 × UInt16)

/-- The calls of `set_pixel` of a drawing function. -/
def setPixels (debug : Bool) (fb : FrameBuffer) : List Pixel → Drawing
  | [] => ⟨0, fb, []⟩
  | p :: ps =>
      let (ret, fb) := fb.setPixel debug p.x p.y p.color
      if debug ∧ ret ≠ 0 then ⟨ret, fb, []⟩
      else
        let rest := setPixels debug fb ps
        { rest with pixels := (p.x, p.y) :: rest.pixels }

/-- A block of pixels, before its coordinates are narrowed to `uint16_t`. -/
structure Block where
  left : Nat
  top : Nat
  width : Nat
  height : Nat
  deriving DecidableEq, Repr

def Block.pixel (b : Block) (color : Nat → Nat → Color) (j i : Nat) : Pixel :=
  ⟨UInt16.ofNat (b.left + i), UInt16.ofNat (b.top + j), color j i⟩

def drawBlock (debug : Bool) (fb : FrameBuffer) (b : Block) (color : Nat → Nat → Color) : Drawing :=
  setPixels debug fb (scan b.height b.width (b.pixel color))

structure DrawHorizontalLineArgs where
  y : UInt16
  xStart : UInt16
  xEnd : UInt16
  color : Color
  thickness : UInt16 := 1
  deriving DecidableEq, Repr

def DrawHorizontalLineArgs.block (args : DrawHorizontalLineArgs) : Block :=
  ⟨args.xStart.toNat, args.y.toNat, args.xEnd.toNat - args.xStart.toNat, args.thickness.toNat⟩

def drawHorizontalLine (debug : Bool) (fb : FrameBuffer) (args : DrawHorizontalLineArgs) :
    Drawing :=
  drawBlock debug fb args.block fun _ _ => args.color

structure DrawVerticalLineArgs where
  x : UInt16
  yStart : UInt16
  yEnd : UInt16
  color : Color
  thickness : UInt16 := 1
  deriving DecidableEq, Repr

def DrawVerticalLineArgs.block (args : DrawVerticalLineArgs) : Block :=
  ⟨args.x.toNat, args.yStart.toNat, args.thickness.toNat, args.yEnd.toNat - args.yStart.toNat⟩

def drawVerticalLine (debug : Bool) (fb : FrameBuffer) (args : DrawVerticalLineArgs) : Drawing :=
  drawBlock debug fb args.block fun _ _ => args.color

/-- `draw_line`. Its result is `void`; `slanted` stands for the branch of the lines along neither
    axis, which computes in floating point. -/
def drawLine (slanted : Bool → FrameBuffer → DrawLineArgs → Drawing) (debug : Bool)
    (fb : FrameBuffer) (args : DrawLineArgs) : Drawing :=
  let dx : Int := args.x1.toNat - args.x0.toNat
  let dy : Int := args.y1.toNat - args.y0.toNat
  if dy = 0 then
    drawHorizontalLine debug fb
      { y := args.y0, xStart := args.x0, xEnd := args.x1, color := args.color }
  else if dx = 0 then
    drawVerticalLine debug fb
      { x := args.x0, yStart := args.y0, yEnd := args.y1, color := args.color }
  else slanted debug fb args

structure DrawRectangleArgs where
  topLeftX : UInt16
  topLeftY : UInt16
  width : UInt16
  height : UInt16
  color : Color
  deriving DecidableEq, Repr

def DrawRectangleArgs.block (args : DrawRectangleArgs) : Block :=
  ⟨args.topLeftX.toNat, args.topLeftY.toNat, args.width.toNat, args.height.toNat⟩

def drawRectangle (debug : Bool) (fb : FrameBuffer) (args : DrawRectangleArgs) : Drawing :=
  drawBlock debug fb args.block fun _ _ => args.color

/-- A bitmap; its data is apart from the frame, so that drawing leaves it as it is. -/
structure Bitmap where
  width : UInt16
  height : UInt16
  effectivePitch : UInt16
  data : Nat → Color

/-- The colour at `(i, j)`: `data[b_idx]`. -/
def Bitmap.at (bitmap : Bitmap) (j i : Nat) : Color :=
  bitmap.data ((j * bitmap.effectivePitch.toNat + i) % 2 ^ 32)

structure DrawBitmapArgs where
  topLeftX : UInt16
  topLeftY : UInt16
  bitmap : Bitmap

def DrawBitmapArgs.block (args : DrawBitmapArgs) : Block :=
  ⟨args.topLeftX.toNat, args.topLeftY.toNat, args.bitmap.width.toNat, args.bitmap.height.toNat⟩

def drawBitmap (debug : Bool) (fb : FrameBuffer) (args : DrawBitmapArgs) : Drawing :=
  drawBlock debug fb args.block args.bitmap.at

/-! ## 2. The calls of `set_pixel` -/

/-- `set_pixel` sets the pixel. -/
def FrameBuffer.admits (debug : Bool) (fb : FrameBuffer) (x y : UInt16) : Bool :=
  !debug || (x ≤ fb.width && y ≤ fb.height)

theorem FrameBuffer.admits_iff {debug : Bool} {fb : FrameBuffer} {x y : UInt16} :
    fb.admits debug x y = true ↔ (debug = true → x ≤ fb.width ∧ y ≤ fb.height) := by
  cases debug with
  | false => simp [FrameBuffer.admits]
  | true => simp [FrameBuffer.admits]

theorem FrameBuffer.setPixel_of_admits {debug : Bool} {fb : FrameBuffer} {x y : UInt16}
    (h : fb.admits debug x y = true) (color : Color) : fb.setPixel debug x y color
      = (0, { fb with
          baseAddress := Function.update fb.baseAddress (fb.index x y) color.pack }) := by
  have h' := FrameBuffer.admits_iff.mp h
  rw [FrameBuffer.setPixel, if_neg, if_neg]
  · rintro ⟨hd, hy⟩
    exact absurd (h' hd).2 (UInt16.not_le.mpr hy)
  · rintro ⟨hd, hx⟩
    exact absurd (h' hd).1 (UInt16.not_le.mpr hx)

/-- A pixel that is not admitted: the frame stays, and the result is an error. -/
theorem FrameBuffer.setPixel_of_not_admits {debug : Bool} {fb : FrameBuffer} {x y : UInt16}
    (h : fb.admits debug x y = false) (color : Color) :
    debug = true ∧ ∃ ret, ret ≠ 0 ∧ fb.setPixel debug x y color = (ret, fb) := by
  cases debug with
  | false => simp [FrameBuffer.admits] at h
  | true =>
      refine ⟨rfl, ?_⟩
      by_cases hx : x > fb.width
      · exact ⟨1, by decide, if_pos ⟨rfl, hx⟩⟩
      · have hy : y > fb.height := by
          have hle : ¬ (x ≤ fb.width ∧ y ≤ fb.height) := by simpa [FrameBuffer.admits] using h
          exact UInt16.not_le.mp fun hle' => hle ⟨UInt16.not_lt.mp hx, hle'⟩
        refine ⟨2, by decide, ?_⟩
        rw [FrameBuffer.setPixel, if_neg fun e => hx e.2, if_pos ⟨rfl, hy⟩]

/-- The write that sets a pixel. -/
def FrameBuffer.write (fb : FrameBuffer) (p : Pixel) : Nat × BitVec 32 :=
  (fb.index p.x p.y, p.color.pack)

/-- The pixels that are set: those before the first refused one. -/
def FrameBuffer.reached (debug : Bool) (fb : FrameBuffer) (ps : List Pixel) : List Pixel :=
  ps.takeWhile fun p => fb.admits debug p.x p.y

/-- **What a drawing function does.** -/
theorem setPixels_spec (debug : Bool) (fb : FrameBuffer) (ps : List Pixel) :
    (setPixels debug fb ps).fb = { fb with
        baseAddress := memAfter fb.baseAddress ((fb.reached debug ps).map fb.write) }
      ∧ (setPixels debug fb ps).pixels = (fb.reached debug ps).map (fun p => (p.x, p.y))
      ∧ ((∀ p ∈ ps, fb.admits debug p.x p.y = true) → (setPixels debug fb ps).ret = 0) := by
  induction ps generalizing fb with
  | nil => exact ⟨rfl, rfl, fun _ => rfl⟩
  | cons p ps ih =>
      cases hp : fb.admits debug p.x p.y with
      | true =>
          have hset := FrameBuffer.setPixel_of_admits hp p.color
          obtain ⟨hfb, hpixels, hret⟩ := ih { fb with
            baseAddress := Function.update fb.baseAddress (fb.index p.x p.y) p.color.pack }
          have hreached : fb.reached debug (p :: ps) = p :: fb.reached debug ps :=
            List.takeWhile_cons_of_pos hp
          rw [hreached, setPixels]
          simp only [hset, ne_eq, not_true_eq_false, and_false, if_false]
          refine ⟨hfb, congrArg _ hpixels, fun hall => hret fun q hq => ?_⟩
          exact hall q (List.mem_cons_of_mem p hq)
      | false =>
          have hreached : fb.reached debug (p :: ps) = [] :=
            List.takeWhile_cons_of_neg (by simp [hp])
          obtain ⟨rfl, ret, hret, hset⟩ := FrameBuffer.setPixel_of_not_admits hp p.color
          rw [hreached, setPixels]
          simp only [hset, hret, ne_eq, not_false_eq_true, and_self, if_true]
          refine ⟨rfl, rfl, fun hall => ?_⟩
          rw [hall p List.mem_cons_self] at hp
          cases hp

/-! ## 3. Blocks on the screen -/

def Block.Contains (b : Block) (x y : UInt16) : Prop :=
  (b.left ≤ x.toNat ∧ x.toNat < b.left + b.width) ∧ (b.top ≤ y.toNat ∧ y.toNat < b.top + b.height)

/-- `d` is what a run that fills `b` owes its caller. -/
structure Filled (debug : Bool) (fb : FrameBuffer) (b : Block) (color : Nat → Nat → Color)
    (d : Drawing) : Prop where
  ret : d.ret = 0
  /-- The pixels inside are read back as they were drawn, ... -/
  inside : ∀ x y, b.Contains x y →
    d.fb.getPixel debug x y = some (color (y.toNat - b.top) (x.toNat - b.left))
  /-- ... every other cell is as it was, ... -/
  frame : ∀ cell, (∀ x y, b.Contains x y → cell ≠ y.toNat * fb.effectivePitch.toNat + x.toNat) →
    d.fb.baseAddress cell = fb.baseAddress cell
  /-- ... and so are the sizes. -/
  sizes : d.fb.width = fb.width ∧ d.fb.height = fb.height
    ∧ d.fb.effectivePitch = fb.effectivePitch
  /-- No index overflows an `int`. -/
  index : ∀ x y, b.Contains x y → y.toNat * fb.effectivePitch.toNat + x.toNat < 2 ^ 31

/-- **Colours survive a cell.** -/
theorem Color.ofHex_pack (c : Color) : Color.ofHex c.pack = c := by
  obtain ⟨⟨b⟩, ⟨g⟩, ⟨r⟩, ⟨a⟩⟩ := c
  simp only [Color.ofHex, Color.pack, Color.mk.injEq, UInt8.ofBitVec.injEq]
  refine ⟨?_, ?_, ?_, ?_⟩
  · ext i hi
    interval_cases i <;> simp
  · ext i hi
    interval_cases i <;> simp
  · ext i hi
    interval_cases i <;> simp
  · ext i hi
    interval_cases i <;> simp

/-- The cell of a position on the screen. -/
theorem FrameBuffer.cell_lt {fb : FrameBuffer} {limit : Nat}
    (hP : fb.width.toNat ≤ fb.effectivePitch.toNat)
    (hsize : fb.height.toNat * fb.effectivePitch.toNat < limit) {x y : UInt16}
    (hx : x.toNat < fb.width.toNat) (hy : y.toNat < fb.height.toNat) :
    y.toNat * fb.effectivePitch.toNat + x.toNat < limit := by
  have hrow : (y.toNat + 1) * fb.effectivePitch.toNat
      ≤ fb.height.toNat * fb.effectivePitch.toNat := Nat.mul_le_mul_right _ hy
  rw [Nat.add_mul, Nat.one_mul] at hrow
  omega

/-- An index always fits 32 bits. -/
theorem FrameBuffer.index_eq (fb : FrameBuffer) (x y : UInt16) :
    fb.index x y = y.toNat * fb.effectivePitch.toNat + x.toNat := by
  have hx := x.toNat_lt
  have hmul : y.toNat * fb.effectivePitch.toNat ≤ (2 ^ 16 - 1) * (2 ^ 16 - 1) :=
    Nat.mul_le_mul (Nat.le_sub_one_of_lt y.toNat_lt)
      (Nat.le_sub_one_of_lt fb.effectivePitch.toNat_lt)
  exact Nat.mod_eq_of_lt (by omega)

section OnScreen

variable {fb : FrameBuffer} {b : Block} (hx : b.left + b.width ≤ fb.width.toNat)
  (hy : b.top + b.height ≤ fb.height.toNat)

include hx hy

/-- The pixels of a block on the screen are not narrowed. -/
theorem Block.pixel_toNat (color : Nat → Nat → Color) {j i : Nat} (hj : j < b.height)
    (hi : i < b.width) : (b.pixel color j i).x.toNat = b.left + i
      ∧ (b.pixel color j i).y.toNat = b.top + j := by
  have hW := fb.width.toNat_lt
  have hH := fb.height.toNat_lt
  refine ⟨UInt16.toNat_ofNat_of_lt' ?_, UInt16.toNat_ofNat_of_lt' ?_⟩
  · exact Nat.lt_of_lt_of_le (by omega) (Nat.le_of_lt hW)
  · exact Nat.lt_of_lt_of_le (by omega) (Nat.le_of_lt hH)

theorem Block.admits_pixel (debug : Bool) (color : Nat → Nat → Color) {p : Pixel}
    (hp : p ∈ scan b.height b.width (b.pixel color)) : fb.admits debug p.x p.y = true := by
  obtain ⟨j, i, hj, hi, rfl⟩ := mem_scan.mp hp
  obtain ⟨hxe, hye⟩ := Block.pixel_toNat hx hy color hj hi
  refine FrameBuffer.admits_iff.mpr fun _ => ⟨UInt16.le_iff_toNat_le.mpr ?_, ?_⟩
  · omega
  · rw [UInt16.le_iff_toNat_le]
    omega

/-- Every pixel of a block on the screen is reached. -/
theorem Block.reached_eq (debug : Bool) (color : Nat → Nat → Color) :
    fb.reached debug (scan b.height b.width (b.pixel color))
      = scan b.height b.width (b.pixel color) :=
  List.takeWhile_eq_self_iff.mpr fun _ hp => Block.admits_pixel hx hy debug color hp

/-- **The writes of a block leave its colour in the cell of each position inside.** -/
theorem Block.memAfter_inside (color : Nat → Nat → Color)
    (hP : fb.width.toNat ≤ fb.effectivePitch.toNat) {x y : UInt16} (hin : b.Contains x y) :
    memAfter fb.baseAddress ((scan b.height b.width (b.pixel color)).map fb.write) (fb.index x y)
      = (color (y.toNat - b.top) (x.toNat - b.left)).pack := by
  obtain ⟨⟨hl, hr⟩, ht, hb⟩ := hin
  refine memAfter_of_agree ?_ ?_
  · refine List.mem_map.mpr ⟨b.pixel color (y.toNat - b.top) (x.toNat - b.left),
      mem_scan.mpr ⟨_, _, by omega, by omega, rfl⟩, ?_⟩
    have hxe : UInt16.ofNat (b.left + (x.toNat - b.left)) = x := by
      rw [Nat.add_sub_cancel' hl, UInt16.ofNat_toNat]
    have hye : UInt16.ofNat (b.top + (y.toNat - b.top)) = y := by
      rw [Nat.add_sub_cancel' ht, UInt16.ofNat_toNat]
    simp only [FrameBuffer.write, Block.pixel, hxe, hye]
  · -- a write to the same cell is that of the same pixel
    intro e he heq
    obtain ⟨p, hp, rfl⟩ := List.mem_map.mp he
    obtain ⟨j, i, hj, hi, rfl⟩ := mem_scan.mp hp
    obtain ⟨hxe, hye⟩ := Block.pixel_toNat hx hy color hj hi
    have heq' : fb.index (b.pixel color j i).x (b.pixel color j i).y = fb.index x y := heq
    rw [fb.index_eq, fb.index_eq] at heq'
    obtain ⟨hxx, hyy⟩ := cell_inj (by omega) (by omega) heq'
    have hi' : x.toNat - b.left = i := by omega
    have hj' : y.toNat - b.top = j := by omega
    rw [hi', hj']
    rfl

/-- The writes of a block touch no cell of a position outside. -/
theorem Block.memAfter_outside (color : Nat → Nat → Color) {cell : Nat}
    (hcell : ∀ x y, b.Contains x y → cell ≠ y.toNat * fb.effectivePitch.toNat + x.toNat) :
    memAfter fb.baseAddress ((scan b.height b.width (b.pixel color)).map fb.write) cell
      = fb.baseAddress cell := by
  refine memAfter_of_untouched fun e he heq => ?_
  obtain ⟨p, hp, rfl⟩ := List.mem_map.mp he
  obtain ⟨j, i, hj, hi, rfl⟩ := mem_scan.mp hp
  obtain ⟨hxe, hye⟩ := Block.pixel_toNat hx hy color hj hi
  refine hcell (b.pixel color j i).x (b.pixel color j i).y ⟨?_, ?_⟩ ?_
  · omega
  · omega
  · rw [← heq]
    exact fb.index_eq _ _

/-- **A block on the screen is filled exactly.** -/
theorem drawBlock_filled (debug : Bool) (color : Nat → Nat → Color)
    (hP : fb.width.toNat ≤ fb.effectivePitch.toNat)
    (hsize : fb.height.toNat * fb.effectivePitch.toNat < 2 ^ 31) :
    Filled debug fb b color (drawBlock debug fb b color) := by
  obtain ⟨hfb, -, hret⟩ := setPixels_spec debug fb (scan b.height b.width (b.pixel color))
  rw [Block.reached_eq hx hy debug color] at hfb
  constructor
  case ret => exact hret fun p hp => Block.admits_pixel hx hy debug color hp
  case inside =>
    intro x y hin
    have hcell := Block.memAfter_inside hx hy color hP hin
    obtain ⟨⟨hl, hr⟩, ht, hb⟩ := hin
    have hread : ¬ (debug = true ∧ x > fb.width) := fun e => by
      have := UInt16.lt_iff_toNat_lt.mp e.2
      omega
    have hread' : ¬ (debug = true ∧ y > fb.height) := fun e => by
      have := UInt16.lt_iff_toNat_lt.mp e.2
      omega
    rw [drawBlock, hfb, FrameBuffer.getPixel, if_neg hread, if_neg hread']
    exact congrArg some ((congrArg Color.ofHex hcell).trans (Color.ofHex_pack _))
  case frame =>
    intro cell hcell
    show (drawBlock debug fb b color).fb.baseAddress cell = _
    rw [drawBlock, hfb]
    exact Block.memAfter_outside hx hy color hcell
  case sizes =>
    rw [drawBlock, hfb]
    exact ⟨rfl, rfl, rfl⟩
  case index =>
    intro x y hin
    obtain ⟨⟨hl, hr⟩, ht, hb⟩ := hin
    exact FrameBuffer.cell_lt hP hsize (by omega) (by omega)

end OnScreen

/-- A bitmap is read inside its own rows. -/
theorem Bitmap.at_eq {bitmap : Bitmap}
    (hpitch : bitmap.width.toNat ≤ bitmap.effectivePitch.toNat) {j i : Nat}
    (hj : j < bitmap.height.toNat) (hi : i < bitmap.width.toNat) :
    bitmap.at j i = bitmap.data (j * bitmap.effectivePitch.toNat + i)
      ∧ j * bitmap.effectivePitch.toNat + i
        < bitmap.height.toNat * bitmap.effectivePitch.toNat := by
  have hrow : (j + 1) * bitmap.effectivePitch.toNat
      ≤ bitmap.height.toNat * bitmap.effectivePitch.toNat := Nat.mul_le_mul_right _ hj
  have hall : bitmap.height.toNat * bitmap.effectivePitch.toNat ≤ (2 ^ 16 - 1) * (2 ^ 16 - 1) :=
    Nat.mul_le_mul (Nat.le_sub_one_of_lt bitmap.height.toNat_lt)
      (Nat.le_sub_one_of_lt bitmap.effectivePitch.toNat_lt)
  rw [Nat.add_mul, Nat.one_mul] at hrow
  rw [Bitmap.at, Nat.mod_eq_of_lt (by omega)]
  exact ⟨rfl, by omega⟩

/-- **Filled shapes write exactly their pixels**, and colours survive their cell. -/
theorem filledShapes_exact (debug : Bool) {fb : FrameBuffer}
    (hP : fb.width.toNat ≤ fb.effectivePitch.toNat)
    (hsize : fb.height.toNat * fb.effectivePitch.toNat < 2 ^ 31) :
    (∀ args : DrawRectangleArgs,
      args.topLeftX.toNat + args.width.toNat ≤ fb.width.toNat →
      args.topLeftY.toNat + args.height.toNat ≤ fb.height.toNat →
      Filled debug fb args.block (fun _ _ => args.color) (drawRectangle debug fb args))
    ∧ (∀ args : DrawBitmapArgs,
      args.bitmap.width.toNat ≤ args.bitmap.effectivePitch.toNat →
      args.topLeftX.toNat + args.bitmap.width.toNat ≤ fb.width.toNat →
      args.topLeftY.toNat + args.bitmap.height.toNat ≤ fb.height.toNat →
      Filled debug fb args.block args.bitmap.at (drawBitmap debug fb args)
        ∧ ∀ j i, j < args.bitmap.height.toNat → i < args.bitmap.width.toNat →
          args.bitmap.at j i = args.bitmap.data (j * args.bitmap.effectivePitch.toNat + i)
            ∧ j * args.bitmap.effectivePitch.toNat + i
              < args.bitmap.height.toNat * args.bitmap.effectivePitch.toNat)
    ∧ ∀ c : Color, Color.ofHex c.pack = c := by
  refine ⟨fun args hx hy => drawBlock_filled hx hy debug _ hP hsize,
    fun args hpitch hx hy => ⟨drawBlock_filled hx hy debug _ hP hsize, ?_⟩, Color.ofHex_pack⟩
  intro j i hj hi
  exact Bitmap.at_eq hpitch hj hi

/-- A frame of 4 × 3 pixels with a cell of padding behind each row. -/
def paddedFrame : FrameBuffer := ⟨4, 3, 5, fun _ => 0⟩

theorem filledShapes_exact_padded :
    Filled true paddedFrame ⟨1, 1, 3, 2⟩ (fun _ _ => ⟨1, 2, 3, 4⟩)
      (drawRectangle true paddedFrame ⟨1, 1, 3, 2, ⟨1, 2, 3, 4⟩⟩)
    ∧ (Filled false paddedFrame ⟨0, 1, 2, 2⟩ (Bitmap.at ⟨2, 2, 3, fun _ => ⟨5, 6, 7, 8⟩⟩)
        (drawBitmap false paddedFrame ⟨0, 1, ⟨2, 2, 3, fun _ => ⟨5, 6, 7, 8⟩⟩⟩)) :=
  ⟨(@filledShapes_exact true paddedFrame (by decide) (by decide)).1
      ⟨1, 1, 3, 2, ⟨1, 2, 3, 4⟩⟩ (by decide) (by decide),
    ((@filledShapes_exact false paddedFrame (by decide) (by decide)).2.1
      ⟨0, 1, ⟨2, 2, 3, fun _ => ⟨5, 6, 7, 8⟩⟩⟩ (by decide) (by decide) (by decide)).1⟩

end MapleKernel.Framebuffer
