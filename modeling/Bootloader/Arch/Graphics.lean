import Bootloader.Std.Count
import Bootloader.Std.Word

/-!
# Drawing lines and rectangles

Both routines of `graphics.c` draw pixel by pixel through the video BIOS, in counting loops over
signed 16-bit coordinates. A line has three cases, and its vertical one compares a signed counter
with an unsigned bound: `line_ends_iff` says which lines come to an end. A hollow rectangle goes
along its inner rows in steps of its height, and `rectangle_draws_iff` says when that draws its
border.
-/

namespace Bootloader.Arch

open Bootloader.Std

/-- The registers that `video_draw_pixel` fills for interrupt `0x10`. -/
structure PixelRequest where
  ah : UInt8
  al : UInt8
  cx : UInt16
  dx : UInt16
  deriving DecidableEq

/-- The request for a pixel at two coordinates. -/
def pixel (x y : Int16) (color : UInt8) : PixelRequest where
  ah := 0x0c
  al := color
  cx := x.toUInt16
  dx := y.toUInt16

/-- `video_draw_pixel`: the BIOS gets the requests in order. -/
def videoDrawPixel (column row : UInt16) (color : UInt8) (drawn : List PixelRequest) :
    Outcome (List PixelRequest) Unit :=
  .returned () (drawn ++ [{ ah := 0x0c, al := color, cx := column, dx := row }])

/-- A signed division; where there is no quotient, it raises an exception. -/
def divideSigned (dividend divisor : Int32) (drawn : List PixelRequest) :
    Outcome (List PixelRequest) Int32 :=
  if divisor = 0 ∨ dividend = Int32.minValue ∧ divisor = -1 then .panicked "divide error" drawn
  else .returned (dividend / divisor) drawn

/-- One turn of the loop for a line that is neither vertical nor horizontal. -/
def drawSlanted (startY coefH coefL : Int16) (color : UInt8) (lX : Int16)
    (drawn : List PixelRequest) : Outcome (List PixelRequest) Unit :=
  (divideSigned (lX.toInt32 * coefH.toInt32 + startY.toInt32 * coefL.toInt32) coefL.toInt32
    drawn).andThen fun quotient drawn =>
      let lY := quotient.toInt16
      videoDrawPixel lX.toUInt16 lY.toUInt16 color drawn

/-- `graphics_draw_line`. -/
def graphicsDrawLine (turns : Nat) (aX aY bX bY : Int16) (color : UInt8)
    (drawn : List PixelRequest) : Outcome (List PixelRequest) Unit :=
  let coefH := bY - aY
  let coefL := bX - aX
  if coefL = 0 then
    -- the rows are `uint16_t` here, their counter is not
    let (startY, endY) :=
      if aY < bY then (aY.toUInt16, bY.toUInt16) else (bY.toUInt16, aY.toUInt16)
    countUp turns startY.toInt16 endY.toNat 1
      (fun lY => videoDrawPixel aX.toUInt16 lY.toUInt16 color) drawn
  else if coefH = 0 then
    let (startX, endX) := if aX < bX then (aX, bX) else (bX, aX)
    countUp turns startX endX.toInt 1
      (fun lX => videoDrawPixel lX.toUInt16 aY.toUInt16 color) drawn
  else
    let (startX, endX, startY, coefH, coefL) :=
      if aX < bX then (aX, bX, aY, coefH, coefL) else (bX, aX, bY, -coefH, -coefL)
    countUp turns startX endX.toInt 1 (drawSlanted startY coefH coefL color) drawn

/-- `inc`, the step from column to column in a row of a rectangle. -/
def rectangleInc (aY cY : Int16) (full : Bool) (y : Int16) : Int16 :=
  if !full ∧ y > aY ∧ y < cY then cY - aY else 1

/-- `graphics_draw_rectangle`. -/
def graphicsDrawRectangle (turns : Nat) (aX aY cX cY : Int16) (color : UInt8) (full : Bool)
    (drawn : List PixelRequest) : Outcome (List PixelRequest) Unit :=
  countUp turns aY cY.toInt 1 (fun y =>
    countUp turns aX cX.toInt (rectangleInc aY cY full y)
      (fun x => videoDrawPixel x.toUInt16 y.toUInt16 color)) drawn

section Pixels

variable {x y x' y' : Int16} {color color' : UInt8}

theorem videoDrawPixel_appends (x y : Int16) (color : UInt8) :
    Appends (videoDrawPixel x.toUInt16 y.toUInt16 color) [pixel x y color] := fun _ => rfl

theorem pixel_inj : pixel x y color = pixel x' y' color ↔ x = x' ∧ y = y' := by
  constructor
  · intro same
    have column := congrArg (fun request => request.cx.toInt16) same
    have row := congrArg (fun request => request.dx.toInt16) same
    exact ⟨column, row⟩
  · rintro ⟨rfl, rfl⟩
    rfl

end Pixels

section Division

variable {startY coefH coefL lX : Int16} {color : UInt8}

theorem natAbs_mul_le {left right : Int} {bound : Nat} (small : left.natAbs ≤ bound)
    (small' : right.natAbs ≤ bound) : (left * right).natAbs ≤ bound * bound := by
  rw [Int.natAbs_mul]
  exact Nat.mul_le_mul small small'

/-- The row that is stored in `l_y`. -/
def lineRow (startY coefH coefL lX : Int16) : Int16 :=
  ((lX.toInt32 * coefH.toInt32 + startY.toInt32 * coefL.toInt32) / coefL.toInt32).toInt16

/-- The one dividend that has no quotient by -1 is out of reach. -/
theorem dividend_ne_minValue (minus : coefL.toInt32 = -1) :
    lX.toInt32 * coefH.toInt32 + startY.toInt32 * coefL.toInt32 ≠ Int32.minValue := by
  intro least
  have column := lX.le_toInt
  have column' := lX.toInt_lt
  have high := coefH.le_toInt
  have high' := coefH.toInt_lt
  have row := startY.le_toInt
  have row' := startY.toInt_lt
  have rise := @natAbs_mul_le lX.toInt coefH.toInt 32768 (by omega) (by omega)
  have kept : (lX.toInt * coefH.toInt).bmod (2 ^ 32) = lX.toInt * coefH.toInt :=
    Int.bmod_eq_of_le (by omega) (by omega)
  have number := congrArg Int32.toInt least
  rw [minus, Int32.toInt_add, Int32.toInt_mul, Int32.toInt_mul, Int16.toInt_toInt32,
    Int16.toInt_toInt32, Int16.toInt_toInt32, kept, show (-1 : Int32).toInt = -1 from rfl,
    show Int32.minValue.toInt = -2147483648 from rfl, Int.mul_neg, Int.mul_one,
    Int.add_bmod_bmod, Int.bmod_eq_of_le (by omega) (by omega)] at number
  omega

/-- No division of a slanted line raises the exception. -/
theorem drawSlanted_eq (slanted : coefL ≠ 0) :
    drawSlanted startY coefH coefL color = fun lX =>
      videoDrawPixel lX.toUInt16 (lineRow startY coefH coefL lX).toUInt16 color := by
  funext lX drawn
  have divides : ¬ (coefL.toInt32 = 0 ∨
      lX.toInt32 * coefH.toInt32 + startY.toInt32 * coefL.toInt32 = Int32.minValue ∧
        coefL.toInt32 = -1) := by
    rintro (zero | ⟨least, minus⟩)
    · have back := congrArg Int32.toInt16 zero
      rw [Int16.toInt16_toInt32] at back
      exact slanted back
    · exact dividend_ne_minValue minus least
  rw [drawSlanted, divideSigned, if_neg divides]
  rfl

end Division

section Lines

variable {aX aY bX bY : Int16} {turns : Nat} {color : UInt8}

theorem int16_sub_eq_zero {left right : Int16} : left - right = 0 ↔ left = right := by
  constructor
  · intro nothing
    have back := congrArg (fun difference => difference + right) nothing
    simpa using back
  · rintro rfl
    exact Int16.sub_self left

theorem int16_sub_ne_zero {left right : Int16} (differ : left.toInt ≠ right.toInt) :
    left - right ≠ 0 :=
  fun nothing => differ (Int16.toInt_inj.mpr (int16_sub_eq_zero.mp nothing))

/-- A vertical line from its upper end down. -/
theorem line_vertical (below : aY.toInt ≤ bY.toInt) :
    graphicsDrawLine turns aX aY aX bY color =
      countUp turns aY bY.toUInt16.toNat 1
        (fun lY => videoDrawPixel aX.toUInt16 lY.toUInt16 color) := by
  funext drawn
  rw [graphicsDrawLine, if_pos (Int16.sub_self aX)]
  by_cases above : aY < bY
  · rw [if_pos above]
    rfl
  · rw [if_neg above]
    have same : aY = bY := by
      refine Int16.toInt_inj.mp (Int.le_antisymm below ?_)
      exact Int.not_lt.mp (fun less => above (Int16.lt_iff_toInt_lt.mpr less))
    rw [same]
    rfl

/-- A vertical line upwards is the line down from its other end. -/
theorem line_upwards (below : aY.toInt < bY.toInt) :
    graphicsDrawLine turns aX bY aX aY color = graphicsDrawLine turns aX aY aX bY color := by
  have less : ¬ bY < aY := fun more =>
    Int.lt_asymm below (Int16.lt_iff_toInt_lt.mp more)
  rw [line_vertical (Int.le_of_lt below)]
  funext drawn
  rw [graphicsDrawLine, if_pos (Int16.sub_self aX), if_neg less]
  rfl

/-- The row of a line in a column from its left end on. -/
def lineRowAt (aX aY bX bY lX : Int16) : Int16 :=
  if bY = aY then aY else lineRow aY (bY - aY) (bX - aX) lX

/-- Any other line from its left end on. -/
theorem line_rightwards (right : aX.toInt < bX.toInt) :
    graphicsDrawLine turns aX aY bX bY color =
      countUp turns aX bX.toInt 1
        (fun lX => videoDrawPixel lX.toUInt16 (lineRowAt aX aY bX bY lX).toUInt16 color) := by
  have differ := int16_sub_ne_zero (Int.ne_of_gt right)
  have less : aX < bX := Int16.lt_iff_toInt_lt.mpr right
  funext drawn
  rw [graphicsDrawLine, if_neg differ]
  by_cases level : bY = aY
  · simp only [lineRowAt, if_pos (int16_sub_eq_zero.mpr level), if_pos less, if_pos level]
  · have slanted : ¬ bY - aY = 0 := fun nothing => level (int16_sub_eq_zero.mp nothing)
    simp only [lineRowAt, if_neg slanted, if_pos less, if_neg level]
    rw [drawSlanted_eq differ]

/-- A line to the left is the line to the right from its other end. -/
theorem line_leftwards (right : aX.toInt < bX.toInt) :
    graphicsDrawLine turns bX bY aX aY color = graphicsDrawLine turns aX aY bX bY color := by
  have less : ¬ bX < aX := fun more =>
    Int.lt_asymm right (Int16.lt_iff_toInt_lt.mp more)
  rw [line_rightwards right]
  funext drawn
  rw [graphicsDrawLine, if_neg (int16_sub_ne_zero (Int.ne_of_lt right))]
  by_cases level : bY = aY
  · subst level
    simp only [lineRowAt, if_pos (Int16.sub_self bY), if_neg less, if_pos]
  · have slanted : ¬ aY - bY = 0 := fun nothing => level (int16_sub_eq_zero.mp nothing).symm
    simp only [lineRowAt, if_neg slanted, if_neg less, if_neg level, Int16.neg_sub]
    rw [drawSlanted_eq (int16_sub_ne_zero (Int.ne_of_gt right))]

/-- A line is drawn the same from either end. -/
theorem line_comm (turns : Nat) (aX aY bX bY : Int16) (color : UInt8) :
    graphicsDrawLine turns aX aY bX bY color = graphicsDrawLine turns bX bY aX aY color := by
  rcases Int.lt_trichotomy aX.toInt bX.toInt with right | same | left
  · exact (line_leftwards right).symm
  · rw [Int16.toInt_inj] at same
    subst same
    rcases Int.lt_trichotomy aY.toInt bY.toInt with below | level | above
    · exact (line_upwards below).symm
    · rw [Int16.toInt_inj.mp level]
    · exact line_upwards above
  · exact line_leftwards left

/-- An unsigned bound that a signed counter gets past is that of a row on the screen's side. -/
theorem unsigned_bound_iff (row : Int16) :
    (row.toUInt16.toNat : Int) < 32767 ↔ 0 ≤ row.toInt ∧ row.toInt < 32767 := by
  have lower := row.le_toInt
  rw [toNat_toUInt16]
  split <;> omega

/-- The line comes to an end. -/
def LineEnds (aX aY bX bY : Int16) (color : UInt8) (drawn : List PixelRequest) : Prop :=
  ∃ turns after, graphicsDrawLine turns aX aY bX bY color drawn = .returned () after

theorem lineEnds_comm {drawn : List PixelRequest} :
    LineEnds aX aY bX bY color drawn ↔ LineEnds bX bY aX aY color drawn := by
  simp only [LineEnds, line_comm _ aX aY bX bY color]

theorem lineEnds_rightwards_iff (right : aX.toInt < bX.toInt) (drawn : List PixelRequest) :
    LineEnds aX aY bX bY color drawn ↔ bX.toInt < 32767 := by
  simp only [LineEnds, line_rightwards right]
  exact countUp_ends_iff (fun lX => videoDrawPixel_appends lX _ color) drawn

theorem lineEnds_vertical_iff (below : aY.toInt ≤ bY.toInt) (drawn : List PixelRequest) :
    LineEnds aX aY aX bY color drawn ↔ 0 ≤ bY.toInt ∧ bY.toInt < 32767 := by
  rw [← unsigned_bound_iff]
  simp only [LineEnds, line_vertical below]
  exact countUp_ends_iff (fun lY => videoDrawPixel_appends aX lY color) drawn

/-- A line comes to an end when the counter of its loop can get past its other end, and a vertical
line only when that end has a row from 0 on. -/
theorem line_ends_iff (aX aY bX bY : Int16) (color : UInt8) (drawn : List PixelRequest) :
    LineEnds aX aY bX bY color drawn ↔
      if aX = bX then 0 ≤ max aY.toInt bY.toInt ∧ max aY.toInt bY.toInt < 32767
      else max aX.toInt bX.toInt < 32767 := by
  by_cases vertical : aX = bX
  · subst vertical
    rw [if_pos rfl]
    rcases Int.le_total aY.toInt bY.toInt with below | above
    · rw [lineEnds_vertical_iff below, Int.max_eq_right below]
    · rw [lineEnds_comm, lineEnds_vertical_iff above, Int.max_eq_left above]
  · rw [if_neg vertical]
    have differ : aX.toInt ≠ bX.toInt := fun same => vertical (Int16.toInt_inj.mp same)
    rcases Int.lt_or_gt_of_ne differ with right | left
    · rw [lineEnds_rightwards_iff right, Int.max_eq_right (Int.le_of_lt right)]
    · rw [lineEnds_comm, lineEnds_rightwards_iff left, Int.max_eq_left (Int.le_of_lt left)]

/-- A vertical line above the screen is never finished. -/
theorem line_above_endless : ¬ LineEnds 0 (-2) 0 (-1) 2 [] := by
  rw [lineEnds_vertical_iff (by decide)]
  decide

end Lines

/-- The corners of a rectangle on the screen, the upper left one and the lower right one. -/
structure Corners (aX aY cX cY : Int16) : Prop where
  left : 0 ≤ aX.toInt
  across : aX.toInt ≤ cX.toInt
  right : cX.toInt < 640
  top : 0 ≤ aY.toInt
  down : aY.toInt ≤ cY.toInt
  bottom : cY.toInt < 480

/-- A point of a rectangle: any point of the box when it is full, one of its border otherwise. -/
structure InRectangle (aX aY cX cY : Int16) (full : Bool) (x y : Int16) : Prop where
  across : aX.toInt ≤ x.toInt ∧ x.toInt ≤ cX.toInt
  down : aY.toInt ≤ y.toInt ∧ y.toInt ≤ cY.toInt
  border : full = true ∨ (x = aX ∨ x = cX) ∨ y = aY ∨ y = cY

/-- The loops end, and the pixels that have been drawn are those of the rectangle. -/
def DrawsRectangle (aX aY cX cY : Int16) (color : UInt8) (full : Bool) : Prop :=
  ∃ drawn, Produces (fun turns => graphicsDrawRectangle turns aX aY cX cY color full) drawn ∧
    ∀ request, request ∈ drawn ↔
      ∃ x y, InRectangle aX aY cX cY full x y ∧ pixel x y color = request

section Rectangles

variable {aX aY cX cY x y : Int16} {color : UInt8} {full : Bool}

theorem rectangleInc_inner (corners : Corners aX aY cX cY) (hollow : full = false)
    (above : aY.toInt < y.toInt) (below : y.toInt < cY.toInt) :
    (rectangleInc aY cY full y).toInt = cY.toInt - aY.toInt := by
  have := corners.top
  have := corners.bottom
  rw [rectangleInc, if_pos ⟨by rw [hollow]; rfl, Int16.lt_iff_toInt_lt.mpr above,
    Int16.lt_iff_toInt_lt.mpr below⟩, Int16.toInt_sub]
  exact Int.bmod_eq_of_le (by omega) (by omega)

theorem rectangleInc_outer
    (outer : ¬ (full = false ∧ aY.toInt < y.toInt ∧ y.toInt < cY.toInt)) :
    rectangleInc aY cY full y = 1 := by
  rw [rectangleInc, if_neg]
  rintro ⟨hollow, above, below⟩
  refine outer ⟨?_, Int16.lt_iff_toInt_lt.mp above, Int16.lt_iff_toInt_lt.mp below⟩
  rwa [Bool.not_eq_true'] at hollow

/-- The step goes to the right, and not off the counter. -/
theorem rectangleInc_bounds (corners : Corners aX aY cX cY) (y : Int16) :
    0 < (rectangleInc aY cY full y).toInt ∧
      cX.toInt + (rectangleInc aY cY full y).toInt ≤ 32767 := by
  have := corners.right
  have := corners.top
  have := corners.bottom
  by_cases inner : full = false ∧ aY.toInt < y.toInt ∧ y.toInt < cY.toInt
  · rw [rectangleInc_inner corners inner.1 inner.2.1 inner.2.2]
    omega
  · rw [rectangleInc_outer inner]
    exact ⟨by decide, show cX.toInt + 1 ≤ 32767 by omega⟩

/-- The pixels of a rectangle as its loops come by them. -/
def rectanglePixels (aX aY cX cY : Int16) (color : UInt8) (full : Bool) : List PixelRequest :=
  (counters aY cY.toInt 1).flatMap fun y =>
    (counters aX cX.toInt (rectangleInc aY cY full y)).flatMap fun x => [pixel x y color]

theorem rectangle_produces (corners : Corners aX aY cX cY) (color : UInt8) (full : Bool) :
    Produces (fun turns => graphicsDrawRectangle turns aX aY cX cY color full)
      (rectanglePixels aX aY cX cY color full) := by
  have left := corners.left
  have right := corners.right
  have top := corners.top
  have bottom := corners.bottom
  refine ⟨642, fun turns enough => ?_⟩
  refine countUp_appends (by decide) (show cY.toInt + 1 ≤ 32767 by omega) (fun y _ => ?_)
    (by omega)
  obtain ⟨up, room⟩ := @rectangleInc_bounds _ _ _ _ full corners y
  exact countUp_appends up room (fun x _ => videoDrawPixel_appends x y color) (by omega)

theorem mem_rectanglePixels (corners : Corners aX aY cX cY) {request : PixelRequest} :
    request ∈ rectanglePixels aX aY cX cY color full ↔
      ∃ x y, ((aY.toInt ≤ y.toInt ∧ y.toInt ≤ cY.toInt) ∧
        x ∈ counters aX cX.toInt (rectangleInc aY cY full y)) ∧ pixel x y color = request := by
  have below : cY.toInt < 32767 := Int.lt_trans corners.bottom (by decide)
  simp only [rectanglePixels, List.mem_flatMap, List.mem_singleton, mem_counters_one below]
  constructor
  · rintro ⟨y, rows, x, columns, rfl⟩
    exact ⟨x, y, ⟨rows, columns⟩, rfl⟩
  · rintro ⟨x, y, ⟨rows, columns⟩, rfl⟩
    exact ⟨y, rows, x, columns, rfl⟩

/-- A rectangle is drawn when each of its rows is. -/
theorem drawsRectangle_iff (corners : Corners aX aY cX cY) :
    DrawsRectangle aX aY cX cY color full ↔
      ∀ x y, aY.toInt ≤ y.toInt → y.toInt ≤ cY.toInt →
        (x ∈ counters aX cX.toInt (rectangleInc aY cY full y) ↔
          InRectangle aX aY cX cY full x y) := by
  have produces := rectangle_produces corners color full
  constructor
  · rintro ⟨drawn, produces', exactly⟩ x y above below
    rw [← produces.unique produces'] at exactly
    have point := exactly (pixel x y color)
    rw [mem_rectanglePixels corners] at point
    simp only [pixel_inj] at point
    constructor
    · intro taken
      obtain ⟨x', y', inside, rfl, rfl⟩ := point.mp ⟨x, y, ⟨⟨above, below⟩, taken⟩, rfl, rfl⟩
      exact inside
    · intro inside
      obtain ⟨x', y', ⟨_, taken⟩, rfl, rfl⟩ := point.mpr ⟨x, y, inside, rfl, rfl⟩
      exact taken
  · intro rows
    refine ⟨_, produces, fun request => ?_⟩
    rw [mem_rectanglePixels corners]
    constructor
    · rintro ⟨x, y, ⟨⟨above, below⟩, taken⟩, same⟩
      exact ⟨x, y, (rows x y above below).mp taken, same⟩
    · rintro ⟨x, y, inside, same⟩
      exact ⟨x, y, ⟨inside.down, (rows x y inside.down.1 inside.down.2).mpr inside⟩, same⟩

/-- The rows of a full rectangle and the outer rows of a hollow one are drawn in full. -/
theorem outer_row_drawn (corners : Corners aX aY cX cY) (above : aY.toInt ≤ y.toInt)
    (below : y.toInt ≤ cY.toInt)
    (outer : ¬ (full = false ∧ aY.toInt < y.toInt ∧ y.toInt < cY.toInt)) :
    x ∈ counters aX cX.toInt (rectangleInc aY cY full y) ↔ InRectangle aX aY cX cY full x y := by
  rw [rectangleInc_outer outer, mem_counters_one (Int.lt_trans corners.right (by decide))]
  constructor
  · intro across
    refine ⟨across, ⟨above, below⟩, ?_⟩
    cases full with
    | true => exact Or.inl rfl
    | false =>
        have first : ¬ (aY.toInt < y.toInt ∧ y.toInt < cY.toInt) := fun inner => outer ⟨rfl, inner⟩
        rw [← Int16.toInt_inj (x := y), ← Int16.toInt_inj (x := y)]
        exact Or.inr (Or.inr (by omega))
  · exact InRectangle.across

/-- A row between has two points, and the columns drawn in it are heights apart. -/
theorem inner_row_drawn_iff (corners : Corners aX aY cX cY) (hollow : full = false)
    (above : aY.toInt < y.toInt) (below : y.toInt < cY.toInt) :
    (∀ x, x ∈ counters aX cX.toInt (rectangleInc aY cY full y) ↔
      InRectangle aX aY cX cY full x y) ↔
    cX = aX ∨ cX.toInt - aX.toInt = cY.toInt - aY.toInt := by
  obtain ⟨up, room⟩ := @rectangleInc_bounds _ _ _ _ full corners y
  have across := corners.across
  have height := rectangleInc_inner corners hollow above below
  have points (x : Int16) : InRectangle aX aY cX cY full x y ↔ x = aX ∨ x = cX := by
    constructor
    · intro inside
      rcases inside.border with filled | side | rfl | rfl
      · rw [hollow] at filled
        cases filled
      · exact side
      · exact absurd above (Int.lt_irrefl _)
      · exact absurd below (Int.lt_irrefl _)
    · intro side
      refine ⟨?_, ⟨Int.le_of_lt above, Int.le_of_lt below⟩, Or.inr (Or.inl side)⟩
      rcases side with rfl | rfl
      · exact ⟨Int.le_refl _, across⟩
      · exact ⟨across, Int.le_refl _⟩
  simp only [points]
  rw [counters_ends_iff up room across, height]

/-- A rectangle is drawn when it is full, when there is no row between the first and the last, when
it is one column wide, and when it is as wide as it is high. -/
theorem rectangle_draws_iff (corners : Corners aX aY cX cY) (color : UInt8) (full : Bool) :
    DrawsRectangle aX aY cX cY color full ↔
      full = true ∨ cY.toInt - aY.toInt ≤ 1 ∨ cX = aX ∨
        cX.toInt - aX.toInt = cY.toInt - aY.toInt := by
  rw [drawsRectangle_iff corners]
  constructor
  · intro rows
    by_cases filled : full = true
    · exact Or.inl filled
    · by_cases low : cY.toInt - aY.toInt ≤ 1
      · exact Or.inr (Or.inl low)
      · have hollow : full = false := (Bool.not_eq_true full).mp filled
        have top := corners.top
        have bottom := corners.bottom
        have second : (Int16.ofInt (aY.toInt + 1)).toInt = aY.toInt + 1 :=
          Int16.toInt_ofInt_of_le (by omega) (by omega)
        have fits := (inner_row_drawn_iff corners hollow (by omega) (by omega)).mp
          (fun x => rows x (Int16.ofInt (aY.toInt + 1)) (by omega) (by omega))
        exact Or.inr (Or.inr fits)
  · intro fits x y above below
    by_cases inner : full = false ∧ aY.toInt < y.toInt ∧ y.toInt < cY.toInt
    · obtain ⟨hollow, after, before⟩ := inner
      refine (inner_row_drawn_iff corners hollow after before).mpr ?_ x
      rcases fits with filled | low | fits
      · rw [hollow] at filled
        cases filled
      · omega
      · exact fits
    · exact outer_row_drawn corners above below inner

theorem rectangle_draws_iff_square :
    DrawsRectangle 10 20 14 24 2 false ↔
      false = true ∨ (24 : Int16).toInt - (20 : Int16).toInt ≤ 1 ∨ (14 : Int16) = 10 ∨
        (14 : Int16).toInt - (10 : Int16).toInt = (24 : Int16).toInt - (20 : Int16).toInt :=
  rectangle_draws_iff ⟨by decide, by decide, by decide, by decide, by decide, by decide⟩ 2 false

/-- A hollow box, wider than it is high, is drawn with columns inside it. -/
theorem wide_rectangle_differs : ¬ DrawsRectangle 0 0 10 4 2 false := by
  rw [drawsRectangle_iff ⟨by decide, by decide, by decide, by decide, by decide, by decide⟩]
  intro rows
  have inside := (rows 4 2 (by decide) (by decide)).mp (by decide)
  exact absurd inside.border (by decide)

end Rectangles

end Bootloader.Arch
