/-
  File:      Framebuffer/DrawLine.lean
  Subject:   `FrameBuffer::draw_line_quick` draws the line between its end points.

  The function steers by one accumulator `err` and stops only when both coordinates meet the end
  point. An `int` is an `Int` whose every result is checked against the range of 32 bits: a result
  outside ends the run with `intOverflow`. `calls` is ghost data: the arguments of the calls of
  `set_pixel`, before they are narrowed to `uint16_t`.

  * `Located` -- the loop's invariant: the coordinates are those of `GridLine.walk`, mirrored into
    the octant of the end points, and `err` is the walk's deviation, `dx * (m + 1) - dy * (k + 1)`
    after `k` and `m` steps.
  * `lineTurn_ok` -- one turn of the loop is one step of the walk and overflows nowhere.
  * `drawLineQuick_draws` -- every run ends, with the pixels of the line.
-/
import MapleKernel.Lib.GridLine

namespace MapleKernel.Framebuffer

open GridLine

/-! ## 1. The functions -/

structure Color where
  b : UInt8
  g : UInt8
  r : UInt8
  a : UInt8
  deriving DecidableEq, Repr

/-- The pixels behind `base_address` are numbered cells of 32 bits. -/
structure FrameBuffer where
  width : UInt16
  height : UInt16
  effectivePitch : UInt16
  baseAddress : Nat → BitVec 32

def Color.pack (c : Color) : BitVec 32 :=
  (c.a.toBitVec.setWidth 32 <<< 24) ||| (c.r.toBitVec.setWidth 32 <<< 16) |||
    (c.g.toBitVec.setWidth 32 <<< 8) ||| c.b.toBitVec.setWidth 32

/-- The cell of a pixel, as a `uint32_t`; the source adds it up in `int`, see `DrawsLine.index`. -/
def FrameBuffer.index (fb : FrameBuffer) (x y : UInt16) : Nat :=
  (y.toNat * fb.effectivePitch.toNat + x.toNat) % 2 ^ 32

/-- `set_pixel`; the two checks are there in a build with `DEBUG`. -/
def FrameBuffer.setPixel (debug : Bool) (fb : FrameBuffer) (x y : UInt16) (color : Color) :
    Nat × FrameBuffer :=
  if debug ∧ x > fb.width then (1, fb)
  else if debug ∧ y > fb.height then (2, fb)
  else (0, { fb with baseAddress := Function.update fb.baseAddress (fb.index x y) color.pack })

structure DrawLineArgs where
  x0 : UInt16
  y0 : UInt16
  x1 : UInt16
  y1 : UInt16
  color : Color
  deriving DecidableEq, Repr

inductive DrawFault where
  | intOverflow
  | outOfFuel
  deriving DecidableEq, Repr

/-- The result of an `int` operation. -/
def int32 (x : Int) : Except DrawFault Int :=
  if -2 ^ 31 ≤ x ∧ x < 2 ^ 31 then .ok x else .error .intOverflow

/-- `abs` of `math.hpp`. -/
def abs (x : Int) : Except DrawFault Int := if x < 0 then int32 (-x) else .ok x

/-- An `int` passed as a `uint16_t`. -/
def narrow (x : Int) : UInt16 := UInt16.ofInt x

structure LineState where
  x0 : Int
  y0 : Int
  err : Int
  fb : FrameBuffer
  calls : List (Int × Int)

/-- `set_pixel(x0, y0, args.color)`. -/
def LineState.plot (debug : Bool) (color : Color) (s : LineState) : LineState :=
  { s with
    fb := (s.fb.setPixel debug (narrow s.x0) (narrow s.y0) color).2
    calls := s.calls ++ [(s.x0, s.y0)] }

/-- A turn of the loop after its `break`. -/
def lineTurn (dx dy sx sy : Int) (s : LineState) : Except DrawFault LineState := do
  let e2 ← int32 (2 * s.err)
  let negDy ← int32 (-dy)
  let s ← if e2 > negDy then do
      let err ← int32 (s.err - dy)
      let x0 ← int32 (s.x0 + sx)
      pure { s with err := err, x0 := x0 }
    else pure s
  if e2 < dx then do
    let err ← int32 (s.err + dx)
    let y0 ← int32 (s.y0 + sy)
    pure { s with err := err, y0 := y0 }
  else pure s

/-- The loop; `fuel` bounds its turns. -/
def lineLoop (debug : Bool) (color : Color) (x1 y1 dx dy sx sy : Int) :
    Nat → LineState → Except DrawFault LineState
  | 0, _ => .error .outOfFuel
  | fuel + 1, s =>
      let s := s.plot debug color
      if s.x0 = x1 ∧ s.y0 = y1 then .ok s
      else do
        let s ← lineTurn dx dy sx sy s
        lineLoop debug color x1 y1 dx dy sx sy fuel s

/-- **`draw_line_quick`.** -/
def drawLineQuick (debug : Bool) (fuel : Nat) (fb : FrameBuffer) (args : DrawLineArgs) :
    Except DrawFault LineState := do
  let x0 : Int := args.x0.toNat
  let y0 : Int := args.y0.toNat
  let x1 : Int := args.x1.toNat
  let y1 : Int := args.y1.toNat
  let dx ← abs (← int32 (x1 - x0))
  let dy ← abs (← int32 (y1 - y0))
  let sx := if x0 < x1 then 1 else -1
  let sy := if y0 < y1 then 1 else -1
  let err ← int32 (dx - dy)
  lineLoop debug args.color x1 y1 dx dy sx sy fuel ⟨x0, y0, err, fb, []⟩

/-! ## 2. The octants -/

/-- One coordinate of the end points: the way from `a` to `b` is `d` steps of `s`. -/
structure Axis where
  a : Int
  b : Int
  d : Int
  s : Int
  a_range : 0 ≤ a ∧ a < 2 ^ 16
  b_range : 0 ≤ b ∧ b < 2 ^ 16
  d_nonneg : 0 ≤ d
  s_unit : s = 1 ∨ s = -1
  b_eq : b = a + s * d

/-- The axis that the function computes from two coordinates. -/
def axisOf (u v : UInt16) : Axis where
  a := u.toNat
  b := v.toNat
  d := |(v.toNat : Int) - u.toNat|
  s := if (u.toNat : Int) < v.toNat then 1 else -1
  a_range := ⟨Int.natCast_nonneg _, by have := u.toNat_lt; omega⟩
  b_range := ⟨Int.natCast_nonneg _, by have := v.toNat_lt; omega⟩
  d_nonneg := abs_nonneg _
  s_unit := by split <;> simp
  b_eq := by
    split
    · rw [abs_of_pos (by omega)]; omega
    · rw [abs_of_nonpos (by omega)]; omega

namespace Axis

variable (A : Axis)

/-- The coordinate after `k` steps. -/
def pos (k : Int) : Int := A.a + A.s * k

theorem d_lt : A.d < 2 ^ 16 := by
  have ha := A.a_range
  have hb := A.b_range
  have heq := A.b_eq
  rcases A.s_unit with hs | hs
  · rw [hs] at heq; omega
  · rw [hs] at heq; omega

theorem pos_eq_b_iff (k : Int) : A.pos k = A.b ↔ k = A.d := by
  rw [pos, A.b_eq]
  rcases A.s_unit with hs | hs
  · rw [hs]; omega
  · rw [hs]; omega

/-- Up to `d` steps lie between the end points. -/
theorem pos_range {k : Int} (h0 : 0 ≤ k) (hk : k ≤ A.d) :
    min A.a A.b ≤ A.pos k ∧ A.pos k ≤ max A.a A.b := by
  have heq := A.b_eq
  unfold pos
  rcases A.s_unit with hs | hs
  · rw [hs] at heq ⊢; omega
  · rw [hs] at heq ⊢; omega

theorem pos_add (k e : Int) : A.pos (k + e) = A.pos k + A.s * e := by
  unfold pos
  ring

end Axis

/-! ## 3. One turn of the loop -/

theorem int32_ok {x : Int} (h : -2 ^ 31 ≤ x ∧ x < 2 ^ 31) : int32 x = .ok x := if_pos h

/-- The sizes at which a turn computes: far inside 32 bits. -/
structure Fits (dx dy sx sy : Int) (s : LineState) : Prop where
  dx : 0 ≤ dx ∧ dx < 2 ^ 16
  dy : 0 ≤ dy ∧ dy < 2 ^ 16
  sx : sx = 1 ∨ sx = -1
  sy : sy = 1 ∨ sy = -1
  err : |s.err| < 2 ^ 18
  x0 : 0 ≤ s.x0 ∧ s.x0 < 2 ^ 16
  y0 : 0 ≤ s.y0 ∧ s.y0 < 2 ^ 16

theorem lineTurn_eq {dx dy sx sy : Int} {s : LineState} (h : Fits dx dy sx sy s) :
    lineTurn dx dy sx sy s = .ok { s with
      x0 := if 2 * s.err > -dy then s.x0 + sx else s.x0
      y0 := if 2 * s.err < dx then s.y0 + sy else s.y0
      err := s.err - (if 2 * s.err > -dy then dy else 0) + if 2 * s.err < dx then dx else 0 } := by
  have herr := abs_lt.mp h.err
  have hdx := h.dx
  have hdy := h.dy
  have hx0 := h.x0
  have hy0 := h.y0
  have hx : -2 ^ 31 ≤ s.x0 + sx ∧ s.x0 + sx < 2 ^ 31 := by
    rcases h.sx with e | e <;> rw [e] <;> omega
  have hy : -2 ^ 31 ≤ s.y0 + sy ∧ s.y0 + sy < 2 ^ 31 := by
    rcases h.sy with e | e <;> rw [e] <;> omega
  have h2 : int32 (2 * s.err) = .ok (2 * s.err) := int32_ok (by omega)
  have hneg : int32 (-dy) = .ok (-dy) := int32_ok (by omega)
  have hsub : int32 (s.err - dy) = .ok (s.err - dy) := int32_ok (by omega)
  have hadd : int32 (s.err + dx) = .ok (s.err + dx) := int32_ok (by omega)
  have hboth : int32 (s.err - dy + dx) = .ok (s.err - dy + dx) := int32_ok (by omega)
  unfold lineTurn
  by_cases hr : 2 * s.err > -dy <;> by_cases hu : 2 * s.err < dx <;>
    simp only [h2, hneg, hsub, hadd, hboth, int32_ok hx, int32_ok hy, hr, hu, if_true, if_false,
      bind, Except.bind, pure, Except.pure, Int.sub_zero, Int.add_zero]

section Line

variable (X Y : Axis)

/-- **The invariant**: the loop stands where the walk stands after `i` steps. -/
structure Located (i : Nat) (s : LineState) : Prop where
  x0 : s.x0 = X.pos (walk X.d Y.d i).right
  y0 : s.y0 = Y.pos (walk X.d Y.d i).up
  err : s.err = deviation X.d Y.d (walk X.d Y.d i) + X.d - Y.d

variable {X Y} {i : Nat} {s : LineState}

theorem Located.near (hi : (i : Int) ≤ max X.d Y.d) : Near X.d Y.d i (walk X.d Y.d i) :=
  walk_near X.d_nonneg Y.d_nonneg hi

theorem Located.fits (h : Located X Y i s) (hi : (i : Int) ≤ max X.d Y.d) :
    Fits X.d Y.d X.s Y.s s := by
  have hnear := Located.near hi
  have hclose := abs_le.mp hnear.close
  have hX := X.d_lt
  have hY := Y.d_lt
  have hX0 := X.d_nonneg
  have hY0 := Y.d_nonneg
  have hx := X.pos_range hnear.right_range.1 hnear.right_range.2
  have hy := Y.pos_range hnear.up_range.1 hnear.up_range.2
  have hXa := X.a_range
  have hXb := X.b_range
  have hYa := Y.a_range
  have hYb := Y.b_range
  refine ⟨⟨hX0, hX⟩, ⟨hY0, hY⟩, X.s_unit, Y.s_unit, ?_, ?_, ?_⟩
  · rw [h.err, abs_lt]
    omega
  · rw [h.x0]
    omega
  · rw [h.y0]
    omega

/-- **One turn is one step of the walk.** -/
theorem lineTurn_ok (h : Located X Y i s) (hi : (i : Int) ≤ max X.d Y.d) :
    ∃ s', lineTurn X.d Y.d X.s Y.s s = .ok s' ∧ Located X Y (i + 1) s' ∧
      s'.fb = s.fb ∧ s'.calls = s.calls := by
  have hright : 2 * s.err > -Y.d ↔ StepsRight X.d Y.d (walk X.d Y.d i) := by
    unfold StepsRight
    rw [h.err]
    omega
  have hup : 2 * s.err < X.d ↔ StepsUp X.d Y.d (walk X.d Y.d i) := by
    unfold StepsUp
    rw [h.err]
    omega
  refine ⟨_, lineTurn_eq (h.fits hi), ⟨?_, ?_, ?_⟩, rfl, rfl⟩
  · simp only [hright, walk_succ, next, h.x0]
    split
    · rw [X.pos_add, Int.mul_one]
    · rfl
  · simp only [hup, walk_succ, next, h.y0]
    split
    · rw [Y.pos_add, Int.mul_one]
    · rfl
  · simp only [hright, hup]
    rw [walk_succ, deviation_next, h.err]
    ring

/-! ## 4. The loop -/

/-- The arguments of the `i`-th call of `set_pixel`. -/
def pixelAt (X Y : Axis) (i : Nat) : Int × Int :=
  (X.pos (walk X.d Y.d i).right, Y.pos (walk X.d Y.d i).up)

/-- The calls of `set_pixel` from the `i`-th on, with `k` more after it. -/
def pixelsFrom (X Y : Axis) (i k : Nat) : List (Int × Int) :=
  (List.range (k + 1)).map fun j => pixelAt X Y (i + j)

theorem pixelsFrom_succ (X Y : Axis) (i k : Nat) :
    pixelsFrom X Y i (k + 1) = pixelAt X Y i :: pixelsFrom X Y (i + 1) k := by
  unfold pixelsFrom
  rw [List.range_succ_eq_map, List.map_cons, List.map_map]
  refine congrArg _ (List.map_congr_left fun j _ => ?_)
  show pixelAt X Y (i + (j + 1)) = pixelAt X Y (i + 1 + j)
  rw [Nat.add_right_comm, Nat.add_assoc]

/-- Everything `calls` says was written to the frame. -/
def drawn (debug : Bool) (color : Color) (fb : FrameBuffer) (calls : List (Int × Int)) :
    FrameBuffer :=
  calls.foldl (fun fb p => (fb.setPixel debug (narrow p.1) (narrow p.2) color).2) fb

theorem Located.plot_call (h : Located X Y i s) (debug : Bool) (color : Color) :
    (s.plot debug color).calls = s.calls ++ [pixelAt X Y i] ∧
      (s.plot debug color).fb = drawn debug color s.fb [pixelAt X Y i] := by
  unfold LineState.plot pixelAt drawn
  rw [← h.x0, ← h.y0]
  exact ⟨rfl, rfl⟩

/-- The loop stops where the walk is at its end. -/
theorem Located.stops_iff (h : Located X Y i s) (hi : (i : Int) ≤ max X.d Y.d) :
    (s.x0 = X.b ∧ s.y0 = Y.b) ↔ (i : Int) = max X.d Y.d := by
  rw [h.x0, h.y0, X.pos_eq_b_iff, Y.pos_eq_b_iff]
  exact walk_eq_end_iff X.d_nonneg Y.d_nonneg hi

/-- **The loop**, with `k` turns to go: it draws the rest of the line. -/
theorem lineLoop_ok (debug : Bool) (color : Color) {k fuel : Nat} (h : Located X Y i s)
    (hi : (i : Int) + k = max X.d Y.d) (hfuel : k < fuel) :
    ∃ s', lineLoop debug color X.b Y.b X.d Y.d X.s Y.s fuel s = .ok s' ∧
      s'.calls = s.calls ++ pixelsFrom X Y i k ∧
      s'.fb = drawn debug color s.fb (pixelsFrom X Y i k) := by
  induction k generalizing i s fuel with
  | zero =>
      obtain ⟨fuel, rfl⟩ : ∃ m, fuel = m + 1 := ⟨fuel - 1, by omega⟩
      have hstop := (h.stops_iff (by omega)).mpr (by omega)
      obtain ⟨hcalls, hfb⟩ := h.plot_call debug color
      exact ⟨s.plot debug color, if_pos hstop, hcalls, hfb⟩
  | succ k ih =>
      obtain ⟨fuel, rfl⟩ : ∃ m, fuel = m + 1 := ⟨fuel - 1, by omega⟩
      have hgo : ¬ ((s.plot debug color).x0 = X.b ∧ (s.plot debug color).y0 = Y.b) := fun hs => by
        have := (h.stops_iff (by omega)).mp hs
        omega
      have hplot : Located X Y i (s.plot debug color) := ⟨h.x0, h.y0, h.err⟩
      obtain ⟨hcalls, hfb⟩ := h.plot_call debug color
      obtain ⟨s₁, hturn, hloc, hfb₁, hcalls₁⟩ := lineTurn_ok hplot (by omega)
      obtain ⟨s', hloop, hcalls', hfb'⟩ :=
        ih hloc (by push_cast; omega) (Nat.lt_of_succ_lt_succ hfuel)
      refine ⟨s', ?_, ?_, ?_⟩
      · rw [lineLoop, if_neg hgo, hturn]
        exact hloop
      · rw [hcalls', hcalls₁, hcalls, pixelsFrom_succ, List.append_assoc, List.singleton_append]
      · rw [hfb', hfb₁, hfb, pixelsFrom_succ]
        rfl

end Line

/-! ## 5. The line -/

namespace DrawLineArgs

variable (args : DrawLineArgs)

/-- The end points, as numbers. -/
def start : Int × Int := (args.x0.toNat, args.y0.toNat)

def stop : Int × Int := (args.x1.toNat, args.y1.toNat)

/-- The way from one to the other. -/
def deltaX : Int := args.stop.1 - args.start.1

def deltaY : Int := args.stop.2 - args.start.2

end DrawLineArgs

/-- `s` is what a run of `draw_line_quick` owes its caller. -/
structure DrawsLine (debug : Bool) (fb : FrameBuffer) (args : DrawLineArgs) (s : LineState) :
    Prop where
  /-- So many calls of `set_pixel`, ... -/
  count : (s.calls.length : Int) = max |args.deltaX| |args.deltaY| + 1
  /-- ... from one end point to the other, ... -/
  first : s.calls.head? = some args.start
  last : s.calls.getLast? = some args.stop
  /-- ... each next to the one before and further along the longer axis, ... -/
  adjacent : ∀ i p q, s.calls[i]? = some p → s.calls[i + 1]? = some q →
    |q.1 - p.1| ≤ 1 ∧ |q.2 - p.2| ≤ 1 ∧
      (|args.deltaY| ≤ |args.deltaX| → |q.1 - p.1| = 1) ∧
      (|args.deltaX| ≤ |args.deltaY| → |q.2 - p.2| = 1)
  /-- ... in the bounding box, so that no coordinate changes when it is narrowed, ... -/
  inside : ∀ p ∈ s.calls,
    (min args.start.1 args.stop.1 ≤ p.1 ∧ p.1 ≤ max args.start.1 args.stop.1) ∧
    (min args.start.2 args.stop.2 ≤ p.2 ∧ p.2 ≤ max args.start.2 args.stop.2)
  narrow_eq : ∀ p ∈ s.calls, ((narrow p.1).toNat : Int) = p.1 ∧ ((narrow p.2).toNat : Int) = p.2
  /-- ... and within one half of the exact line on the shorter axis. -/
  close_y : |args.deltaY| ≤ |args.deltaX| → ∀ p ∈ s.calls,
    |(p.2 : ℚ) - (args.start.2 + (p.1 - args.start.1) * (args.deltaY / args.deltaX))| ≤ 1 / 2
  close_x : |args.deltaX| ≤ |args.deltaY| → ∀ p ∈ s.calls,
    |(p.1 : ℚ) - (args.start.1 + (p.2 - args.start.2) * (args.deltaX / args.deltaY))| ≤ 1 / 2
  /-- The index that `set_pixel` adds up overflows an `int` at no pixel if it does not at the far
      corner of the box. -/
  index : max args.start.2 args.stop.2 * fb.effectivePitch.toNat
      + max args.start.1 args.stop.1 < 2 ^ 31 →
    ∀ p ∈ s.calls, 0 ≤ p.2 * fb.effectivePitch.toNat + p.1 ∧
      p.2 * fb.effectivePitch.toNat + p.1 < 2 ^ 31
  /-- The frame is the old one with these pixels set. -/
  frame : s.fb = drawn debug args.color fb s.calls

theorem narrow_toNat {x : Int} (h0 : 0 ≤ x) (h : x < 2 ^ 16) : ((narrow x).toNat : Int) = x := by
  unfold narrow UInt16.ofInt
  rw [UInt16.toNat_ofNat']
  omega

theorem abs_ok {x : Int} (h : |x| < 2 ^ 16) : abs x = .ok |x| := by
  have hlt := abs_lt.mp h
  unfold abs
  by_cases hneg : x < 0
  · rw [if_pos hneg, int32_ok (by omega), abs_of_neg hneg]
  · rw [if_neg hneg, abs_of_nonneg (Int.not_lt.mp hneg)]

/-- A distance on one axis against the way on the other, whatever their directions are. -/
theorem mirror_close {sx sy : Int} (hx : sx = 1 ∨ sx = -1) (hy : sy = 1 ∨ sy = -1)
    {k m dx dy : ℚ} (h : |m - k * (dy / dx)| ≤ 1 / 2) :
    |sy * m - sx * k * ((sy * dy) / (sx * dx))| ≤ 1 / 2 := by
  have heq : (sy : ℚ) * m - sx * k * ((sy * dy) / (sx * dx)) = sy * (m - k * (dy / dx)) := by
    rcases hx with rfl | rfl
    · push_cast; ring
    · push_cast; ring
  have hunit : |(sy : ℚ)| = 1 := by
    rcases hy with rfl | rfl <;> norm_num
  rw [heq, abs_mul, hunit, one_mul]
  exact h

section Run

variable {X Y : Axis} {n : Nat} (hn : (n : Int) = max X.d Y.d)

include hn

theorem near_of_mem {p : Int × Int} (hp : p ∈ pixelsFrom X Y 0 n) :
    ∃ (i : Nat) (k m : Int),
      p = (X.pos k, Y.pos m) ∧ (i : Int) ≤ max X.d Y.d ∧ Near X.d Y.d i ⟨k, m⟩ := by
  obtain ⟨i, hi, rfl⟩ := List.mem_map.mp hp
  have hle : ((0 + i : Nat) : Int) ≤ max X.d Y.d := by
    have := List.mem_range.mp hi
    omega
  exact ⟨_, _, _, rfl, hle, walk_near X.d_nonneg Y.d_nonneg hle⟩

/-- Two pixels in a row. -/
theorem pixelAt_adjacent {i : Nat} (hi : i < n) :
    |(pixelAt X Y (i + 1)).1 - (pixelAt X Y i).1| ≤ 1 ∧
    |(pixelAt X Y (i + 1)).2 - (pixelAt X Y i).2| ≤ 1 ∧
    (Y.d ≤ X.d → |(pixelAt X Y (i + 1)).1 - (pixelAt X Y i).1| = 1) ∧
    (X.d ≤ Y.d → |(pixelAt X Y (i + 1)).2 - (pixelAt X Y i).2| = 1) := by
  have hnear := walk_near X.d_nonneg Y.d_nonneg (i := i) (by omega)
  have hnear' := walk_near X.d_nonneg Y.d_nonneg (i := i + 1) (by push_cast; omega)
  have hstep := @walk_succ X.d Y.d i
  have hright : (walk X.d Y.d (i + 1)).right - (walk X.d Y.d i).right = 0 ∨
      (walk X.d Y.d (i + 1)).right - (walk X.d Y.d i).right = 1 := by
    rw [hstep, next]
    simp only
    split <;> omega
  have hup : (walk X.d Y.d (i + 1)).up - (walk X.d Y.d i).up = 0 ∨
      (walk X.d Y.d (i + 1)).up - (walk X.d Y.d i).up = 1 := by
    rw [hstep, next]
    simp only
    split <;> omega
  have hx : (pixelAt X Y (i + 1)).1 - (pixelAt X Y i).1
      = X.s * ((walk X.d Y.d (i + 1)).right - (walk X.d Y.d i).right) := by
    simp only [pixelAt, Axis.pos]
    ring
  have hy : (pixelAt X Y (i + 1)).2 - (pixelAt X Y i).2
      = Y.s * ((walk X.d Y.d (i + 1)).up - (walk X.d Y.d i).up) := by
    simp only [pixelAt, Axis.pos]
    ring
  have hXs : |X.s| = 1 := by rcases X.s_unit with e | e <;> rw [e] <;> rfl
  have hYs : |Y.s| = 1 := by rcases Y.s_unit with e | e <;> rw [e] <;> rfl
  rw [hx, hy, abs_mul, abs_mul, hXs, hYs, one_mul, one_mul]
  refine ⟨?_, ?_, fun hle => ?_, fun hle => ?_⟩
  · rcases hright with e | e <;> rw [e] <;> decide
  · rcases hup with e | e <;> rw [e] <;> decide
  · rw [hnear.right_longer hle, hnear'.right_longer hle]
    push_cast
    rw [add_sub_cancel_left]
    rfl
  · rw [hnear.up_longer hle, hnear'.up_longer hle]
    push_cast
    rw [add_sub_cancel_left]
    rfl

theorem inside_of_mem {p : Int × Int} (hp : p ∈ pixelsFrom X Y 0 n) :
    (min X.a X.b ≤ p.1 ∧ p.1 ≤ max X.a X.b) ∧ (min Y.a Y.b ≤ p.2 ∧ p.2 ≤ max Y.a Y.b) := by
  obtain ⟨i, k, m, rfl, -, hnear⟩ := near_of_mem hn hp
  exact ⟨X.pos_range hnear.right_range.1 hnear.right_range.2,
    Y.pos_range hnear.up_range.1 hnear.up_range.2⟩

theorem narrow_eq_of_mem {p : Int × Int} (hp : p ∈ pixelsFrom X Y 0 n) :
    ((narrow p.1).toNat : Int) = p.1 ∧ ((narrow p.2).toNat : Int) = p.2 := by
  obtain ⟨hx, hy⟩ := inside_of_mem hn hp
  have hXa := X.a_range
  have hXb := X.b_range
  have hYa := Y.a_range
  have hYb := Y.b_range
  exact ⟨narrow_toNat (by omega) (by omega), narrow_toNat (by omega) (by omega)⟩

theorem index_of_mem {pitch : Nat} (hcorner : max Y.a Y.b * pitch + max X.a X.b < 2 ^ 31)
    {p : Int × Int} (hp : p ∈ pixelsFrom X Y 0 n) :
    0 ≤ p.2 * pitch + p.1 ∧ p.2 * pitch + p.1 < 2 ^ 31 := by
  obtain ⟨hx, hy⟩ := inside_of_mem hn hp
  have hXa := X.a_range
  have hXb := X.b_range
  have hYa := Y.a_range
  have hYb := Y.b_range
  have hmul : p.2 * (pitch : Int) ≤ max Y.a Y.b * pitch :=
    Int.mul_le_mul_of_nonneg_right hy.2 (Int.natCast_nonneg _)
  have hnonneg : 0 ≤ p.2 * (pitch : Int) := Int.mul_nonneg (by omega) (Int.natCast_nonneg _)
  constructor
  · omega
  · omega

theorem pixelsFrom_getLast? : (pixelsFrom X Y 0 n).getLast? = some (X.b, Y.b) := by
  have hend := (walk_eq_end_iff X.d_nonneg Y.d_nonneg (i := n) (by omega)).mpr hn
  unfold pixelsFrom
  rw [List.range_succ, List.map_append, List.map_singleton, List.getLast?_concat, Nat.zero_add,
    pixelAt, hend.1, hend.2, (X.pos_eq_b_iff _).mpr rfl, (Y.pos_eq_b_iff _).mpr rfl]

end Run

theorem pixelsFrom_head? {X Y : Axis} {n : Nat} :
    (pixelsFrom X Y 0 n).head? = some (X.a, Y.a) := by
  have hzero : pixelAt X Y 0 = (X.a, Y.a) := by simp [pixelAt, Axis.pos, walk, Point.origin]
  rw [pixelsFrom, List.range_succ_eq_map, List.map_cons, List.head?_cons, hzero]

theorem pixelsFrom_getElem? {X Y : Axis} {n i : Nat} {p : Int × Int}
    (h : (pixelsFrom X Y 0 n)[i]? = some p) : i ≤ n ∧ p = pixelAt X Y i := by
  unfold pixelsFrom at h
  rw [List.getElem?_map, Option.map_eq_some_iff] at h
  obtain ⟨j, hj, hp⟩ := h
  obtain ⟨hlt, rfl⟩ := List.getElem?_eq_some_iff.mp hj
  rw [List.length_range] at hlt
  rw [List.getElem_range, Nat.zero_add] at hp
  exact ⟨Nat.le_of_lt_succ hlt, hp.symm⟩

/-! ## 6. The run -/

/-- The way on an axis, with its sign. -/
theorem Axis.signed (A : Axis) : A.s * A.d = A.b - A.a := by
  have heq := A.b_eq
  omega

/-- A pixel of the walk against the line through the end points, on the shorter axis. -/
theorem near_close {X Y : Axis} {i : Nat} {k m : Int} (h : Near X.d Y.d i ⟨k, m⟩)
    (hle : Y.d ≤ X.d) :
    |(Y.pos m : ℚ) - (Y.a + (X.pos k - X.a) * ((Y.b - Y.a : Int) / (X.b - X.a : Int)))|
      ≤ 1 / 2 := by
  have hclose := mirror_close X.s_unit Y.s_unit (h.up_close Y.d_nonneg hle)
  have hx : ((X.b - X.a : Int) : ℚ) = X.s * X.d := by exact_mod_cast X.signed.symm
  have hy : ((Y.b - Y.a : Int) : ℚ) = Y.s * Y.d := by exact_mod_cast Y.signed.symm
  have heq : (Y.pos m : ℚ) - (Y.a + (X.pos k - X.a) * ((Y.s * Y.d) / (X.s * X.d)))
      = Y.s * m - X.s * k * ((Y.s * Y.d) / (X.s * X.d)) := by
    unfold Axis.pos
    push_cast
    ring
  rw [hx, hy, heq]
  exact hclose

theorem located_start (fb : FrameBuffer) (args : DrawLineArgs) :
    Located (axisOf args.x0 args.x1) (axisOf args.y0 args.y1) 0
      ⟨args.x0.toNat, args.y0.toNat,
        (axisOf args.x0 args.x1).d - (axisOf args.y0 args.y1).d, fb, []⟩ := by
  refine ⟨?_, ?_, ?_⟩
  · simp [axisOf, Axis.pos, walk, Point.origin]
  · simp [axisOf, Axis.pos, walk, Point.origin]
  · simp [walk, Point.origin, deviation]

/-- The turns of the loop before it breaks. -/
def DrawLineArgs.turns (args : DrawLineArgs) : Nat :=
  (max (axisOf args.x0 args.x1).d (axisOf args.y0 args.y1).d).toNat

theorem DrawLineArgs.turns_eq (args : DrawLineArgs) :
    (args.turns : Int) = max (axisOf args.x0 args.x1).d (axisOf args.y0 args.y1).d :=
  Int.toNat_of_nonneg (le_max_of_le_left (axisOf args.x0 args.x1).d_nonneg)

/-- The calls of a run, by the octant of its arguments. -/
theorem drawLineQuick_ok (debug : Bool) (fb : FrameBuffer) (args : DrawLineArgs) (extra : Nat) :
    ∃ s, drawLineQuick debug (2 ^ 16 + extra) fb args = .ok s ∧
      s.calls = pixelsFrom (axisOf args.x0 args.x1) (axisOf args.y0 args.y1) 0 args.turns ∧
      s.fb = drawn debug args.color fb
        (pixelsFrom (axisOf args.x0 args.x1) (axisOf args.y0 args.y1) 0 args.turns) := by
  have hXlt := (axisOf args.x0 args.x1).d_lt
  have hYlt := (axisOf args.y0 args.y1).d_lt
  have hn := args.turns_eq
  have hx0 := args.x0.toNat_lt
  have hy0 := args.y0.toNat_lt
  have hx1 := args.x1.toNat_lt
  have hy1 := args.y1.toNat_lt
  have hfuel : args.turns < 2 ^ 16 + extra := by omega
  obtain ⟨s, hrun, hcalls, hfb⟩ :=
    lineLoop_ok debug args.color (located_start fb args) (k := args.turns) (by omega) hfuel
  refine ⟨s, ?_, hcalls, hfb⟩
  have hdx : abs ((args.x1.toNat : Int) - args.x0.toNat) = .ok (axisOf args.x0 args.x1).d :=
    abs_ok hXlt
  have hdy : abs ((args.y1.toNat : Int) - args.y0.toNat) = .ok (axisOf args.y0 args.y1).d :=
    abs_ok hYlt
  have hX0 := (axisOf args.x0 args.x1).d_nonneg
  have hY0 := (axisOf args.y0 args.y1).d_nonneg
  have herr : int32 ((axisOf args.x0 args.x1).d - (axisOf args.y0 args.y1).d) = .ok _ :=
    int32_ok (by omega)
  have hsubx : int32 ((args.x1.toNat : Int) - args.x0.toNat) = .ok _ := int32_ok (by omega)
  have hsuby : int32 ((args.y1.toNat : Int) - args.y0.toNat) = .ok _ := int32_ok (by omega)
  simp only [drawLineQuick, hsubx, hsuby, hdx, hdy, herr, bind, Except.bind]
  exact hrun

/-- **`draw_line_quick` draws the line between its end points**, with `extra` turns to spare. -/
theorem drawLineQuick_draws (debug : Bool) (fb : FrameBuffer) (args : DrawLineArgs) (extra : Nat) :
    ∃ s, drawLineQuick debug (2 ^ 16 + extra) fb args = .ok s ∧ DrawsLine debug fb args s := by
  obtain ⟨s, hrun, hcalls, hfb⟩ := drawLineQuick_ok debug fb args extra
  have hn := args.turns_eq
  refine ⟨s, hrun, ?_⟩
  constructor
  case count =>
    rw [hcalls, pixelsFrom, List.length_map, List.length_range]
    push_cast
    rw [hn]
    rfl
  case first =>
    rw [hcalls]
    exact pixelsFrom_head?
  case last => rw [hcalls, pixelsFrom_getLast? hn]; rfl
  case adjacent =>
    intro i p q hp hq
    rw [hcalls] at hp hq
    obtain ⟨-, rfl⟩ := pixelsFrom_getElem? hp
    obtain ⟨hle, rfl⟩ := pixelsFrom_getElem? hq
    exact pixelAt_adjacent hn hle
  case inside =>
    intro p hp
    rw [hcalls] at hp
    exact inside_of_mem hn hp
  case narrow_eq =>
    intro p hp
    rw [hcalls] at hp
    exact narrow_eq_of_mem hn hp
  case close_y =>
    intro hle p hp
    rw [hcalls] at hp
    obtain ⟨i, k, m, rfl, -, hnear⟩ := near_of_mem hn hp
    exact near_close hnear hle
  case close_x =>
    intro hle p hp
    rw [hcalls] at hp
    obtain ⟨i, k, m, rfl, -, hnear⟩ := near_of_mem hn hp
    exact near_close hnear.swap hle
  case index =>
    intro hcorner p hp
    rw [hcalls] at hp
    exact index_of_mem hn hcorner hp
  case frame =>
    rw [hfb, hcalls]

end MapleKernel.Framebuffer
