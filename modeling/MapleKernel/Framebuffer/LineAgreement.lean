/-
  File:      Framebuffer/LineAgreement.lean
  Subject:   `draw_line` AND `draw_line_quick` on lines along an axis.

  `draw_line` hands its end points to loops over half-open ranges, `draw_line_quick` runs to the
  end point from either side.

  * `mem_drawBlock_thin` -- a block of one row or one column sets its admitted pixels, all of them.
  * `drawLine_eq_quick_iff` -- the two set the same pixels where the end point is refused, and
    nowhere else.
-/
import MapleKernel.Framebuffer.ScreenBounds

namespace MapleKernel.Framebuffer

open RowScan GridLine

/-! ## 1. Thin blocks -/

theorem FrameBuffer.admits_mono {debug : Bool} {fb : FrameBuffer} {x y x' y' : UInt16}
    (h : fb.admits debug x y = true) (hx : x' ≤ x) (hy : y' ≤ y) : fb.admits debug x' y' = true :=
  FrameBuffer.admits_iff.mpr fun hd =>
    ⟨UInt16.le_trans hx (FrameBuffer.admits_iff.mp h hd).1,
      UInt16.le_trans hy (FrameBuffer.admits_iff.mp h hd).2⟩

/-- **A block of one row or one column**: the pixels before an admitted one are admitted. -/
theorem mem_drawBlock_thin {debug : Bool} {fb : FrameBuffer} {b : Block}
    {color : Nat → Nat → Color} (hthin : b.width = 1 ∨ b.height = 1)
    (hx : b.left + b.width ≤ 2 ^ 16) (hy : b.top + b.height ≤ 2 ^ 16) (x y : UInt16) :
    (x, y) ∈ (drawBlock debug fb b color).pixels
      ↔ fb.admits debug x y = true ∧ b.Contains x y := by
  have hcoord : ∀ j i, j < b.height → i < b.width → (b.pixel color j i).x.toNat = b.left + i
      ∧ (b.pixel color j i).y.toNat = b.top + j := fun j i hj hi =>
    ⟨UInt16.toNat_ofNat_of_lt' (Nat.lt_of_lt_of_le (by omega) hx),
      UInt16.toNat_ofNat_of_lt' (Nat.lt_of_lt_of_le (by omega) hy)⟩
  rw [drawBlock, (setPixels_spec debug fb _).2.1, List.mem_map]
  simp only [FrameBuffer.reached, mem_takeWhile_scan]
  constructor
  · rintro ⟨p, ⟨j, i, hj, hi, rfl, hadmits⟩, hp⟩
    obtain ⟨rfl, rfl⟩ := Prod.mk.inj hp
    obtain ⟨hxe, hye⟩ := hcoord j i hj hi
    refine ⟨hadmits j i hi (Or.inr ⟨rfl, Nat.le_refl i⟩), ⟨?_, ?_⟩, ?_, ?_⟩
    · omega
    · omega
    · omega
    · omega
  · rintro ⟨hadmits, ⟨hl, hr⟩, ht, hb⟩
    have hj : y.toNat - b.top < b.height := by omega
    have hi : x.toNat - b.left < b.width := by omega
    refine ⟨b.pixel color (y.toNat - b.top) (x.toNat - b.left),
      ⟨_, _, hj, hi, rfl, fun j i hi' hbefore => ?_⟩, ?_⟩
    · obtain ⟨hxe, hye⟩ := hcoord j i (by omega) hi'
      refine FrameBuffer.admits_mono hadmits ?_ ?_
      · rw [UInt16.le_iff_toNat_le]
        omega
      · rw [UInt16.le_iff_toNat_le]
        omega
    · obtain ⟨hxe, hye⟩ := hcoord _ _ hj hi
      refine Prod.ext (UInt16.toNat_inj.mp ?_) (UInt16.toNat_inj.mp ?_)
      · exact hxe.trans (Nat.add_sub_cancel' hl)
      · exact hye.trans (Nat.add_sub_cancel' ht)

/-! ## 2. The points of a line along an axis -/

/-- The positions of the steps on an axis: all between its ends. -/
theorem Axis.exists_pos_iff (A : Axis) {n : Nat} (hn : (n : Int) = A.d) (x : Int) :
    (∃ k : Nat, k ≤ n ∧ A.pos k = x) ↔ min A.a A.b ≤ x ∧ x ≤ max A.a A.b := by
  have hb := A.b_eq
  constructor
  · rintro ⟨k, hk, rfl⟩
    exact A.pos_range (Int.natCast_nonneg k) (by omega)
  · rintro ⟨hlo, hhi⟩
    unfold Axis.pos
    rcases A.s_unit with hs | hs
    · rw [hs] at hb ⊢
      exact ⟨(x - A.a).toNat, by omega, by omega⟩
    · rw [hs] at hb ⊢
      exact ⟨(A.a - x).toNat, by omega, by omega⟩

theorem axisOf_self (u : UInt16) : (axisOf u u).d = 0 ∧ (axisOf u u).pos 0 = u.toNat := by
  simp [axisOf, Axis.pos]

/-- A line without height does not rise. -/
theorem rise_zero {d : Int} (hd : 0 ≤ d) (k : Int) : rise d 0 k = 0 := by
  unfold rise
  rcases Int.lt_or_eq_of_le hd with hpos | hzero
  · exact Int.ediv_eq_zero_of_lt (by omega) (by omega)
  · rw [← hzero]
    simp

/-- The coordinates between two others. -/
def Between (u v w : UInt16) : Prop :=
  min u.toNat v.toNat ≤ w.toNat ∧ w.toNat ≤ max u.toNat v.toNat

theorem exists_axisOf_pos_iff (u v w : UInt16) {n : Nat} (hn : (n : Int) = (axisOf u v).d) :
    (∃ k : Nat, k ≤ n ∧ (axisOf u v).pos k = w.toNat) ↔ Between u v w := by
  have ha : (axisOf u v).a = u.toNat := rfl
  have hb : (axisOf u v).b = v.toNat := rfl
  rw [(axisOf u v).exists_pos_iff hn, ha, hb, Between]
  omega

section Axes

variable (args : DrawLineArgs) (x y : UInt16)

/-- The points of a line to the left or to the right. -/
theorem point_horizontal (h : args.y0 = args.y1) :
    (∃ k ≤ args.turns, args.point k = ((x.toNat : Int), (y.toNat : Int)))
      ↔ y = args.y0 ∧ Between args.x0 args.x1 x := by
  have hX0 := (axisOf args.x0 args.x1).d_nonneg
  have hn := args.turns_eq
  obtain ⟨hflat, hstart⟩ := axisOf_self args.y0
  rw [← h, hflat, max_eq_left hX0] at hn
  have hpoint : ∀ k, args.point k = ((axisOf args.x0 args.x1).pos k, (args.y0.toNat : Int)) := by
    intro k
    rw [DrawLineArgs.point, ← h, if_pos (by omega), hflat, rise_zero hX0, hstart]
  rw [← exists_axisOf_pos_iff args.x0 args.x1 x hn]
  simp only [hpoint, Prod.mk.injEq]
  constructor
  · rintro ⟨k, hk, hxe, hye⟩
    exact ⟨UInt16.toNat_inj.mp (by omega), k, hk, hxe⟩
  · rintro ⟨rfl, k, hk, hxe⟩
    exact ⟨k, hk, hxe, rfl⟩

/-- The points of a line up or down. -/
theorem point_vertical (h : args.x0 = args.x1) (hne : args.y0 ≠ args.y1) :
    (∃ k ≤ args.turns, args.point k = ((x.toNat : Int), (y.toNat : Int)))
      ↔ x = args.x0 ∧ Between args.y0 args.y1 y := by
  have hY0 := (axisOf args.y0 args.y1).d_nonneg
  have hn := args.turns_eq
  obtain ⟨hflat, hstart⟩ := axisOf_self args.x0
  rw [← h, hflat, max_eq_right hY0] at hn
  have hsteep : (axisOf args.y0 args.y1).d ≠ 0 := by
    intro hzero
    have hend := (axisOf args.y0 args.y1).b_eq
    rw [hzero, Int.mul_zero, Int.add_zero] at hend
    exact hne (UInt16.toNat_inj.mp (Int.ofNat.inj hend.symm))
  have hpoint : ∀ k, args.point k = ((args.x0.toNat : Int), (axisOf args.y0 args.y1).pos k) := by
    intro k
    rw [DrawLineArgs.point, ← h, if_neg (by omega), hflat, rise_zero hY0, hstart]
  rw [← exists_axisOf_pos_iff args.y0 args.y1 y hn]
  simp only [hpoint, Prod.mk.injEq]
  constructor
  · rintro ⟨k, hk, hxe, hye⟩
    exact ⟨UInt16.toNat_inj.mp (by omega), k, hk, hye⟩
  · rintro ⟨rfl, k, hk, hye⟩
    exact ⟨k, hk, rfl, hye⟩

end Axes

/-! ## 3. The two functions -/

/-- Two sets of pixels between the ends `u` and `v` on one axis, one of them without `v`: they
    are the same exactly if `v` is refused, where a refused pixel refuses those behind it. -/
theorem halfOpen_eq_iff {admitted : UInt16 → Prop}
    (hmono : ∀ w w', w' ≤ w → admitted w → admitted w')
    (u v : UInt16) :
    (∀ w, (admitted w ∧ u ≤ w ∧ w < v) ↔ (admitted w ∧ Between u v w)) ↔ ¬ admitted v := by
  constructor
  · intro hsame hv
    have hend : Between u v v := ⟨Nat.min_le_right _ _, Nat.le_max_right _ _⟩
    have hlt := ((hsame v).mpr ⟨hv, hend⟩).2.2
    exact absurd hlt (UInt16.lt_irrefl v)
  · intro hv w
    refine and_congr_right fun hw => ?_
    have hbefore : w < v := by
      by_contra hge
      exact hv (hmono w v (UInt16.not_lt.mp hge) hw)
    rw [Between, UInt16.le_iff_toNat_le]
    rw [UInt16.lt_iff_toNat_lt] at hbefore ⊢
    omega

section Agreement

variable (slanted : Bool → FrameBuffer → DrawLineArgs → Drawing) (debug : Bool) (fb : FrameBuffer)
  {args : DrawLineArgs}

/-- What `draw_line` sets on a line to the right: all but the end point. -/
theorem mem_drawLine_horizontal (h : args.y0 = args.y1) (x y : UInt16) :
    (x, y) ∈ (drawLine slanted debug fb args).pixels
      ↔ fb.admits debug x y = true ∧ y = args.y0 ∧ args.x0 ≤ x ∧ x < args.x1 := by
  have hx1 := args.x1.toNat_lt
  have hx0 := args.x0.toNat_lt
  have hy1 := args.y1.toNat_lt
  rw [drawLine]
  simp only [h, sub_self, if_true, drawHorizontalLine]
  rw [mem_drawBlock_thin (Or.inr rfl)]
  · refine and_congr_right fun _ => ?_
    have hone : (1 : UInt16).toNat = 1 := rfl
    rw [UInt16.le_iff_toNat_le, UInt16.lt_iff_toNat_lt, ← UInt16.toNat_inj]
    simp only [Block.Contains, DrawHorizontalLineArgs.block, hone]
    omega
  · simp only [DrawHorizontalLineArgs.block]
    omega
  · have hone : (1 : UInt16).toNat = 1 := rfl
    simp only [DrawHorizontalLineArgs.block, hone]
    omega

/-- And on a line downwards. -/
theorem mem_drawLine_vertical (h : args.x0 = args.x1) (hne : args.y0 ≠ args.y1) (x y : UInt16) :
    (x, y) ∈ (drawLine slanted debug fb args).pixels
      ↔ fb.admits debug x y = true ∧ x = args.x0 ∧ args.y0 ≤ y ∧ y < args.y1 := by
  have hy1 := args.y1.toNat_lt
  have hy0 := args.y0.toNat_lt
  have hx1 := args.x1.toNat_lt
  have hdy : ¬ ((args.y1.toNat : Int) - args.y0.toNat = 0) := fun hzero =>
    hne (UInt16.toNat_inj.mp (by omega))
  rw [drawLine]
  simp only [h, sub_self, if_neg hdy, if_true, drawVerticalLine]
  rw [mem_drawBlock_thin (Or.inl rfl)]
  · refine and_congr_right fun _ => ?_
    have hone : (1 : UInt16).toNat = 1 := rfl
    rw [UInt16.le_iff_toNat_le, UInt16.lt_iff_toNat_lt, ← UInt16.toNat_inj]
    simp only [Block.Contains, DrawVerticalLineArgs.block, hone]
    omega
  · have hone : (1 : UInt16).toNat = 1 := rfl
    simp only [DrawVerticalLineArgs.block, hone]
    omega
  · simp only [DrawVerticalLineArgs.block]
    omega

theorem FrameBuffer.not_admits_iff {x y : UInt16} :
    ¬ fb.admits debug x y = true ↔ debug = true ∧ (x > fb.width ∨ y > fb.height) := by
  rw [FrameBuffer.admits_iff, Classical.not_imp, not_and_or, UInt16.not_le, UInt16.not_le]

/-- **Where `draw_line` and `draw_line_quick` set the same pixels** of a line along an axis: only
    in a build with `DEBUG`, and only where `set_pixel` refuses the end point. -/
theorem drawLine_eq_quick_iff (haxis : args.x0 = args.x1 ∨ args.y0 = args.y1) (extra : Nat) :
    ∃ s, drawLineQuick debug (2 ^ 16 + extra) fb args = .ok s ∧
      ((∀ p, p ∈ (drawLine slanted debug fb args).pixels ↔ p ∈ s.pixels debug)
        ↔ debug = true ∧ (args.x1 > fb.width ∨ args.y1 > fb.height)) := by
  obtain ⟨s, hrun, -, hpixels⟩ := drawLineQuick_pixels debug fb args extra
  refine ⟨s, hrun, ?_⟩
  rw [← FrameBuffer.not_admits_iff, Prod.forall]
  by_cases hy : args.y0 = args.y1
  · rw [← hy, ← halfOpen_eq_iff (fun w w' hle hw => FrameBuffer.admits_mono hw hle
      (UInt16.le_refl args.y0)) args.x0 args.x1]
    simp only [mem_drawLine_horizontal slanted debug fb hy, hpixels, point_horizontal args _ _ hy]
    constructor
    · intro hsame w
      have hrow := hsame w args.y0
      simpa only [true_and] using hrow
    · intro hsame x y
      by_cases hye : y = args.y0
      · subst hye
        simpa only [true_and] using hsame x
      · simp only [hye, false_and, and_false]
  · have hx : args.x0 = args.x1 := haxis.resolve_right hy
    rw [← hx, ← halfOpen_eq_iff (fun w w' hle hw => FrameBuffer.admits_mono hw
      (UInt16.le_refl args.x0) hle) args.y0 args.y1]
    simp only [mem_drawLine_vertical slanted debug fb hx hy, hpixels, point_vertical args _ _ hx hy]
    constructor
    · intro hsame w
      have hcolumn := hsame args.x0 w
      simpa only [true_and] using hcolumn
    · intro hsame x y
      by_cases hxe : x = args.x0
      · subst hxe
        simpa only [true_and] using hsame y
      · simp only [hxe, false_and, and_false]

end Agreement

/-- Slanted lines left undrawn. -/
def axisLinesOnly (_ : Bool) (fb : FrameBuffer) (_ : DrawLineArgs) : Drawing := ⟨0, fb, []⟩

/-- A line of one pixel beside the screen. -/
theorem drawLine_eq_quick_iff_outside :
    ∃ s, drawLineQuick true (2 ^ 16 + 0) paddedFrame ⟨9, 1, 9, 1, ⟨0, 0, 0, 0⟩⟩ = .ok s ∧
      ((∀ p, p ∈ (drawLine axisLinesOnly true paddedFrame ⟨9, 1, 9, 1, ⟨0, 0, 0, 0⟩⟩).pixels
          ↔ p ∈ s.pixels true)
        ↔ true = true ∧ ((9 : UInt16) > paddedFrame.width ∨ (1 : UInt16) > paddedFrame.height)) :=
  @drawLine_eq_quick_iff axisLinesOnly true paddedFrame ⟨9, 1, 9, 1, ⟨0, 0, 0, 0⟩⟩ (by decide) 0

/-- A line drawn from the right to the left. -/
theorem drawLine_backwards :
    ¬ ∀ (slanted : Bool → FrameBuffer → DrawLineArgs → Drawing) (debug : Bool) (fb : FrameBuffer)
      (args : DrawLineArgs) (extra : Nat) (s : LineState),
      args.x0 = args.x1 ∨ args.y0 = args.y1 → drawLineQuick debug (2 ^ 16 + extra) fb args = .ok s →
      ∀ p, p ∈ (drawLine slanted debug fb args).pixels ↔ p ∈ s.pixels debug := by
  intro hall
  obtain ⟨s, hrun, -, hpixels⟩ :=
    drawLineQuick_pixels false paddedFrame ⟨2, 1, 0, 1, ⟨0, 0, 0, 0⟩⟩ 0
  have hsame := hall axisLinesOnly false paddedFrame _ 0 s (Or.inr rfl) hrun (0, 1)
  have hquick : ((0, 1) : UInt16 × UInt16) ∈ s.pixels false :=
    (hpixels 0 1).mpr ⟨rfl, (point_horizontal _ 0 1 rfl).mpr ⟨rfl, by decide, by decide⟩⟩
  have hslow := (mem_drawLine_horizontal _ false paddedFrame rfl 0 1).mp (hsame.mpr hquick)
  exact absurd hslow.2.2.2 (by decide)

end MapleKernel.Framebuffer
