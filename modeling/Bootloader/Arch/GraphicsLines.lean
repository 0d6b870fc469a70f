import Bootloader.Arch.Graphics
import Bootloader.Std.Slope

/-!
# Lines between two points of the screen

The row of a slanted line is interpolated from the column itself and not from its distance to the
left end of the line, so the line is off by what it climbs in the columns to the left of it.
`line_joins_iff` says for which points of the screen it joins them all the same.
-/

namespace Bootloader.Arch

open Bootloader.Std

/-- A point of the screen. -/
structure ScreenPoint (x y : Int16) : Prop where
  column : 0 ≤ x.toInt ∧ x.toInt < 640
  row : 0 ≤ y.toInt ∧ y.toInt < 640

/-- A point of the box that two points span. -/
structure Between (aX aY bX bY x y : Int16) : Prop where
  column : min aX.toInt bX.toInt ≤ x.toInt ∧ x.toInt ≤ max aX.toInt bX.toInt
  row : min aY.toInt bY.toInt ≤ y.toInt ∧ y.toInt ≤ max aY.toInt bY.toInt

/-- Both ends of the line are drawn, and nothing outside the box of the two. -/
structure DrawnBetween (aX aY bX bY : Int16) (color : UInt8) (drawn : List PixelRequest) :
    Prop where
  first : pixel aX aY color ∈ drawn
  last : pixel bX bY color ∈ drawn
  box : ∀ request ∈ drawn, ∃ x y, Between aX aY bX bY x y ∧ pixel x y color = request

/-- A line to the right has the rows of its ends in their columns, and rows of the box between. -/
structure KeepsRows (aX aY bX bY : Int16) : Prop where
  first : lineRowAt aX aY bX bY aX = aY
  last : lineRowAt aX aY bX bY bX = bY
  box : ∀ x : Int16, aX.toInt ≤ x.toInt → x.toInt ≤ bX.toInt →
    min aY.toInt bY.toInt ≤ (lineRowAt aX aY bX bY x).toInt ∧
      (lineRowAt aX aY bX bY x).toInt ≤ max aY.toInt bY.toInt

/-- The line joins its ends. -/
def Joins (aX aY bX bY : Int16) (color : UInt8) : Prop :=
  ∃ drawn, Produces (fun turns => graphicsDrawLine turns aX aY bX bY color) drawn ∧
    DrawnBetween aX aY bX bY color drawn

section Sides

variable {aX aY bX bY : Int16} {color : UInt8}

theorem Between.swap {x y : Int16} (between : Between aX aY bX bY x y) :
    Between bX bY aX aY x y := by
  obtain ⟨⟨left, right⟩, above, below⟩ := between
  exact ⟨⟨by omega, by omega⟩, ⟨by omega, by omega⟩⟩

theorem Joins.swap (joins : Joins aX aY bX bY color) : Joins bX bY aX aY color := by
  obtain ⟨drawn, produces, first, last, box⟩ := joins
  refine ⟨drawn, ?_, last, first, fun request member => ?_⟩
  · simpa only [line_comm _ aX aY bX bY color] using produces
  · obtain ⟨x, y, between, same⟩ := box request member
    exact ⟨x, y, between.swap, same⟩

theorem joins_comm : Joins aX aY bX bY color ↔ Joins bX bY aX aY color :=
  ⟨Joins.swap, Joins.swap⟩

/-- A line joins its ends when its counter comes by both of them, and nowhere outside the box. -/
theorem joins_iff_of_counts {start : Int16} {bound : Int} (below : bound < 32767)
    (column row : Int16 → Int16)
    (counts : ∀ turns, graphicsDrawLine turns aX aY bX bY color = countUp turns start bound 1
      (fun counter => videoDrawPixel (column counter).toUInt16 (row counter).toUInt16 color)) :
    Joins aX aY bX bY color ↔
      (∃ counter ∈ counters start bound 1, column counter = aX ∧ row counter = aY) ∧
      (∃ counter ∈ counters start bound 1, column counter = bX ∧ row counter = bY) ∧
      ∀ counter ∈ counters start bound 1, Between aX aY bX bY (column counter) (row counter) := by
  have produces : Produces (fun turns => graphicsDrawLine turns aX aY bX bY color)
      ((counters start bound 1).flatMap fun counter =>
        [pixel (column counter) (row counter) color]) := by
    simp only [counts]
    exact ⟨_, fun _ enough => countUp_appends (by decide) below
      (fun counter _ => videoDrawPixel_appends (column counter) (row counter) color) enough⟩
  have member (x y : Int16) : pixel x y color ∈ ((counters start bound 1).flatMap fun counter =>
      [pixel (column counter) (row counter) color]) ↔
      ∃ counter ∈ counters start bound 1, column counter = x ∧ row counter = y := by
    simp only [List.mem_flatMap, List.mem_singleton, pixel_inj, eq_comm]
  constructor
  · rintro ⟨drawn, produces', first, last, box⟩
    rw [← produces.unique produces'] at first last box
    refine ⟨(member aX aY).mp first, (member bX bY).mp last, fun counter taken => ?_⟩
    obtain ⟨x, y, between, same⟩ := box _ ((member _ _).mpr ⟨counter, taken, rfl, rfl⟩)
    obtain ⟨rfl, rfl⟩ := pixel_inj.mp same
    exact between
  · rintro ⟨first, last, box⟩
    refine ⟨_, produces, (member aX aY).mpr first, (member bX bY).mpr last, ?_⟩
    intro request drawn
    obtain ⟨counter, taken, here⟩ := List.mem_flatMap.mp drawn
    exact ⟨_, _, box counter taken, (List.mem_singleton.mp here).symm⟩

/-- A vertical line joins its ends. -/
theorem joins_vertical (b : ScreenPoint aX bY) (down : aY.toInt ≤ bY.toInt) :
    Joins aX aY aX bY color := by
  obtain ⟨zero, most⟩ := b.row
  have number : (bY.toUInt16.toNat : Int) = bY.toInt := by rw [toNat_toUInt16, if_pos zero]
  have below : bY.toInt < 32767 := by omega
  rw [joins_iff_of_counts below (fun _ => aX) id fun turns => by
    rw [line_vertical down, number]; rfl]
  simp only [mem_counters_one below]
  refine ⟨⟨aY, ⟨Int.le_refl _, down⟩, trivial, rfl⟩, ⟨bY, ⟨down, Int.le_refl _⟩, trivial, rfl⟩, ?_⟩
  rintro counter ⟨above, under⟩
  exact ⟨⟨Int.min_le_left _ _, Int.le_max_left _ _⟩,
    ⟨by rw [Int.min_eq_left down]; exact above, by rw [Int.max_eq_right down]; exact under⟩⟩

/-- Any other line joins its ends when it keeps to their rows. -/
theorem joins_rightwards_iff (b : ScreenPoint bX bY) (right : aX.toInt < bX.toInt) :
    Joins aX aY bX bY color ↔ KeepsRows aX aY bX bY := by
  have below : bX.toInt < 32767 := Int.lt_trans b.column.2 (by decide)
  rw [joins_iff_of_counts below id (lineRowAt aX aY bX bY) fun turns => line_rightwards right]
  simp only [mem_counters_one below]
  constructor
  · rintro ⟨⟨first, _, rfl, firstRow⟩, ⟨last, _, rfl, lastRow⟩, box⟩
    exact ⟨firstRow, lastRow, fun x onward within => (box x ⟨onward, within⟩).row⟩
  · rintro ⟨firstRow, lastRow, rows⟩
    refine ⟨⟨aX, ⟨Int.le_refl _, Int.le_of_lt right⟩, rfl, firstRow⟩,
      ⟨bX, ⟨Int.le_of_lt right, Int.le_refl _⟩, rfl, lastRow⟩, ?_⟩
    rintro x ⟨onward, within⟩
    refine ⟨⟨?_, ?_⟩, rows x onward within⟩
    · rw [Int.min_eq_left (Int.le_of_lt right)]
      exact onward
    · rw [Int.max_eq_right (Int.le_of_lt right)]
      exact within

/-- A horizontal line joins its ends. -/
theorem joins_horizontal (b : ScreenPoint bX aY) (right : aX.toInt < bX.toInt) :
    Joins aX aY bX aY color := by
  rw [joins_rightwards_iff b right]
  have level (x : Int16) : lineRowAt aX aY bX aY x = aY := if_pos rfl
  refine ⟨level aX, level bX, fun x _ _ => ?_⟩
  rw [level x]
  exact ⟨Int.min_le_left _ _, Int.le_max_left _ _⟩

end Sides

section Rows

variable {aX aY bX bY x : Int16}

/-- The row of a column is interpolated, and stored in 16 bits. -/
theorem toInt_lineRow {startY coefH coefL lX : Int16} (row : startY.toInt.natAbs ≤ 639)
    (high : coefH.toInt.natAbs ≤ 639) (wide : coefL.toInt.natAbs ≤ 639)
    (column : lX.toInt.natAbs ≤ 639) :
    (lineRow startY coefH coefL lX).toInt =
      ((lX.toInt * coefH.toInt + startY.toInt * coefL.toInt).tdiv coefL.toInt).bmod 65536 := by
  have rise := natAbs_mul_le column high
  have base := natAbs_mul_le row wide
  have kept {number : Int} (small : number.natAbs ≤ 816642) : number.bmod (2 ^ 32) = number :=
    Int.bmod_eq_of_le (by omega) (by omega)
  have rise' := @kept (lX.toInt * coefH.toInt) (by omega)
  have base' := @kept (startY.toInt * coefL.toInt) (by omega)
  have sum' := @kept (lX.toInt * coefH.toInt + startY.toInt * coefL.toInt) (by omega)
  rw [lineRow, Int32.toInt_toInt16, Int32.toInt_div, Int32.toInt_add, Int32.toInt_mul,
    Int32.toInt_mul, Int16.toInt_toInt32, Int16.toInt_toInt32, Int16.toInt_toInt32,
    Int16.toInt_toInt32, rise', base', sum', Int.bmod_bmod_of_dvd (by decide)]

/-- Of a number and a shift, 16 bits keep the number exactly when the shift is a multiple of
`2 ^ 16`. -/
theorem bmod_eq_iff_shift {value shift : Int} (lower : 0 ≤ value) (upper : value < 640) :
    (value + shift).bmod 65536 = value ↔ shift % 65536 = 0 := by
  rw [Int.bmod_eq_iff (by decide)]
  omega

/-- The rows a line is off: what it climbs in the columns to the left of it. -/
def lineOffset (aX aY bX bY : Int16) : Int :=
  climb (bY.toInt - aY.toInt).natAbs (bX.toInt - aX.toInt).natAbs (min aX.toInt bX.toInt)

/-- The row in which a line of some rows and columns is drawn. -/
theorem toInt_lineRowAt (a : ScreenPoint aX aY) (b : ScreenPoint bX bY) (slanted : bY ≠ aY)
    (within : x.toInt.natAbs ≤ 639) :
    (lineRowAt aX aY bX bY x).toInt =
      ((x.toInt * (bY.toInt - aY.toInt) + aY.toInt * (bX.toInt - aX.toInt)).tdiv
        (bX.toInt - aX.toInt)).bmod 65536 := by
  obtain ⟨⟨left, _⟩, above, _⟩ := a
  obtain ⟨⟨left', _⟩, above', _⟩ := b
  have coefH : (bY - aY).toInt = bY.toInt - aY.toInt := by
    rw [Int16.toInt_sub]
    exact Int.bmod_eq_of_le (by omega) (by omega)
  have coefL : (bX - aX).toInt = bX.toInt - aX.toInt := by
    rw [Int16.toInt_sub]
    exact Int.bmod_eq_of_le (by omega) (by omega)
  rw [lineRowAt, if_neg slanted, toInt_lineRow (by omega) (by omega) (by omega) within, coefH,
    coefL]

/-- A line that goes down the screen is off by what it climbs. -/
theorem toInt_lineRowAt_down (a : ScreenPoint aX aY) (b : ScreenPoint bX bY)
    (right : aX.toInt < bX.toInt) (down : aY.toInt < bY.toInt)
    (within : 0 ≤ x.toInt ∧ x.toInt < 640) :
    (lineRowAt aX aY bX bY x).toInt =
      (aY.toInt + climb (bY.toInt - aY.toInt) (bX.toInt - aX.toInt) x.toInt).bmod 65536 := by
  have slanted : bY ≠ aY := fun same => Int.lt_irrefl _ (same ▸ down)
  rw [toInt_lineRowAt a b slanted (by omega),
    interpolate_up (by omega) a.row.1 (by omega) within.1]

/-- A line that goes up the screen is off by what it climbs where it is above the screen. -/
theorem toInt_lineRowAt_past (a : ScreenPoint aX aY) (b : ScreenPoint bX bY)
    (right : aX.toInt < bX.toInt) (up : bY.toInt < aY.toInt)
    (within : 0 ≤ x.toInt ∧ x.toInt < 640)
    (past : aY.toInt * (bX.toInt - aX.toInt) < x.toInt * (aY.toInt - bY.toInt)) :
    (lineRowAt aX aY bX bY x).toInt =
      (aY.toInt - climb (aY.toInt - bY.toInt) (bX.toInt - aX.toInt) x.toInt).bmod 65536 := by
  have slanted : bY ≠ aY := fun same => Int.lt_irrefl _ (same ▸ up)
  have height : bY.toInt - aY.toInt = -(aY.toInt - bY.toInt) := by omega
  rw [toInt_lineRowAt a b slanted (by omega), height, interpolate_down_past (by omega) past]

/-- Where it is not, the division rounds downwards. -/
theorem toInt_lineRowAt_up (a : ScreenPoint aX aY) (b : ScreenPoint bX bY)
    (right : aX.toInt < bX.toInt) (up : bY.toInt < aY.toInt)
    (within : 0 ≤ x.toInt ∧ x.toInt < 640)
    (above : x.toInt * (aY.toInt - bY.toInt) ≤ aY.toInt * (bX.toInt - aX.toInt)) :
    (lineRowAt aX aY bX bY x).toInt =
      (aY.toInt * (bX.toInt - aX.toInt) - x.toInt * (aY.toInt - bY.toInt)) /
        (bX.toInt - aX.toInt) := by
  have slanted : bY ≠ aY := fun same => Int.lt_irrefl _ (same ▸ up)
  have height : bY.toInt - aY.toInt = -(aY.toInt - bY.toInt) := by omega
  have wide : 0 < bX.toInt - aX.toInt := by omega
  have product : 0 ≤ x.toInt * (aY.toInt - bY.toInt) := Int.mul_nonneg within.1 (by omega)
  have high := a.row.2
  have lower : 0 ≤ (aY.toInt * (bX.toInt - aX.toInt) - x.toInt * (aY.toInt - bY.toInt)) /
      (bX.toInt - aX.toInt) := Int.ediv_nonneg (by omega) (by omega)
  have upper : (aY.toInt * (bX.toInt - aX.toInt) - x.toInt * (aY.toInt - bY.toInt)) /
      (bX.toInt - aX.toInt) < aY.toInt + 1 := by
    rw [Int.ediv_lt_iff_lt_mul wide, Int.add_mul]
    omega
  rw [toInt_lineRowAt a b slanted (by omega), height, interpolate_down above]
  exact Int.bmod_eq_of_le (by omega) (by omega)

/-- A line that climbs its height from its first row on, down the screen or up, keeps its rows. -/
theorem keepsRows_of_climb {height side : Int} (right : aX.toInt < bX.toInt) (high : 0 ≤ height)
    (sides : side = 1 ∨ side = -1) (last : bY.toInt = aY.toInt + side * height)
    (rows : ∀ x : Int16, aX.toInt ≤ x.toInt → x.toInt ≤ bX.toInt →
      (lineRowAt aX aY bX bY x).toInt = aY.toInt + side *
        (climb height (bX.toInt - aX.toInt) x.toInt -
          climb height (bX.toInt - aX.toInt) aX.toInt)) :
    KeepsRows aX aY bX bY := by
  have wide : 0 < bX.toInt - aX.toInt := Int.sub_pos_of_lt right
  have end' : aX.toInt + (bX.toInt - aX.toInt) = bX.toInt := by omega
  have whole := @climb_add_width height _ aX.toInt wide
  rw [end'] at whole
  refine ⟨Int16.toInt_inj.mp ?_, Int16.toInt_inj.mp ?_, fun x onward within => ?_⟩
  · rw [rows aX (Int.le_refl _) (Int.le_of_lt right), Int.sub_self, Int.mul_zero, Int.add_zero]
  · rw [rows bX (Int.le_of_lt right) (Int.le_refl _), whole, last]
    congr 2
    omega
  · have share := climb_within wide high onward (by omega)
    rw [rows x onward within, last]
    rcases sides with rfl | rfl <;> omega

/-- A line down the screen keeps its rows when 16 bits keep them. -/
theorem keepsRows_down_iff (a : ScreenPoint aX aY) (b : ScreenPoint bX bY)
    (right : aX.toInt < bX.toInt) (down : aY.toInt < bY.toInt) :
    KeepsRows aX aY bX bY ↔
      climb (bY.toInt - aY.toInt) (bX.toInt - aX.toInt) aX.toInt % 65536 = 0 := by
  have row {x : Int16} := @toInt_lineRowAt_down _ _ _ _ x a b right down
  have wide : 0 < bX.toInt - aX.toInt := Int.sub_pos_of_lt right
  have above := a.row.1
  have below := b.row.2
  constructor
  · intro keeps
    have first := row a.column
    rw [keeps.first] at first
    exact (bmod_eq_iff_shift above a.row.2).mp first.symm
  · intro multiple
    have high : 0 ≤ bY.toInt - aY.toInt := by omega
    refine keepsRows_of_climb right high (Or.inl rfl) (by omega) (fun x onward within => ?_)
    have share := climb_within wide high onward (by omega)
    rw [row ⟨Int.le_trans a.column.1 onward, Int.lt_of_le_of_lt within b.column.2⟩,
      Int.bmod_eq_iff (by decide)]
    omega

/-- From column 0 on a line up the screen keeps its rows. -/
theorem keepsRows_up_zero (a : ScreenPoint aX aY) (b : ScreenPoint bX bY)
    (right : aX.toInt < bX.toInt) (up : bY.toInt < aY.toInt) (zero : aX.toInt = 0) :
    KeepsRows aX aY bX bY := by
  have wide : 0 < bX.toInt - aX.toInt := by omega
  have high : 0 ≤ aY.toInt - bY.toInt := by omega
  have above := b.row.1
  have row (x : Int16) (onward : aX.toInt ≤ x.toInt) (within : x.toInt ≤ bX.toInt) :
      (lineRowAt aX aY bX bY x).toInt =
        (aY.toInt * (bX.toInt - aX.toInt) - x.toInt * (aY.toInt - bY.toInt)) /
          (bX.toInt - aX.toInt) := by
    refine toInt_lineRowAt_up a b right up
      ⟨Int.le_trans a.column.1 onward, Int.lt_of_le_of_lt within b.column.2⟩ ?_
    rw [Int.mul_comm aY.toInt]
    exact Int.mul_le_mul (by omega) (by omega) high (by omega)
  refine ⟨Int16.toInt_inj.mp ?_, Int16.toInt_inj.mp ?_, fun x onward within => ?_⟩
  · rw [row aX (Int.le_refl _) (Int.le_of_lt right), zero, Int.zero_mul, Int.sub_zero, Int.sub_zero]
    exact Int.mul_ediv_cancel _ (by omega)
  · rw [row bX (Int.le_of_lt right) (Int.le_refl _), zero, Int.sub_zero,
      Int.mul_comm bX.toInt, ← Int.sub_mul, Int.mul_ediv_cancel _ (by omega)]
    omega
  · have ends := @interpolate_down_within _ _ x.toInt aY.toInt wide high (by omega) (by omega)
    rw [row x onward within]
    omega

/-- Where its offset is a number of `2 ^ 16` rows, a line up the screen keeps its rows in
16 bits. -/
theorem keepsRows_up_wraps (a : ScreenPoint aX aY) (b : ScreenPoint bX bY)
    (right : aX.toInt < bX.toInt) (up : bY.toInt < aY.toInt)
    (multiple : climb (aY.toInt - bY.toInt) (bX.toInt - aX.toInt) aX.toInt % 65536 = 0)
    (nonzero : climb (aY.toInt - bY.toInt) (bX.toInt - aX.toInt) aX.toInt ≠ 0) :
    KeepsRows aX aY bX bY := by
  have wide : 0 < bX.toInt - aX.toInt := by omega
  have high : 0 ≤ aY.toInt - bY.toInt := by omega
  have above := b.row.1
  have below := a.row.2
  have nonneg : 0 ≤ climb (aY.toInt - bY.toInt) (bX.toInt - aX.toInt) aX.toInt :=
    Int.ediv_nonneg (Int.mul_nonneg a.column.1 high) (Int.le_of_lt wide)
  refine keepsRows_of_climb right high (Or.inr rfl) (by omega) (fun x onward within => ?_)
  have share := climb_within wide high onward (by omega)
  have beyond : (aY.toInt + 1) * (bX.toInt - aX.toInt) ≤ x.toInt * (aY.toInt - bY.toInt) :=
    (le_climb_iff wide).mp (by omega)
  rw [Int.add_mul, Int.one_mul] at beyond
  rw [toInt_lineRowAt_past a b right up
    ⟨Int.le_trans a.column.1 onward, Int.lt_of_le_of_lt within b.column.2⟩ (by omega),
    Int.bmod_eq_iff (by decide)]
  omega

/-- A line up the screen that keeps its first row is off by a number of `2 ^ 16` rows, and off by
none only from column 0 on. -/
theorem multiple_of_keepsRows_up (a : ScreenPoint aX aY) (b : ScreenPoint bX bY)
    (right : aX.toInt < bX.toInt) (up : bY.toInt < aY.toInt) (keeps : KeepsRows aX aY bX bY) :
    climb (aY.toInt - bY.toInt) (bX.toInt - aX.toInt) aX.toInt % 65536 = 0 ∧
      (climb (aY.toInt - bY.toInt) (bX.toInt - aX.toInt) aX.toInt = 0 → aX.toInt = 0) := by
  have wide : 0 < bX.toInt - aX.toInt := by omega
  have below := b.row.1
  by_cases past : aY.toInt * (bX.toInt - aX.toInt) < aX.toInt * (aY.toInt - bY.toInt)
  · have first := toInt_lineRowAt_past a b right up a.column past
    rw [keeps.first, Int.sub_eq_add_neg] at first
    have multiple := (bmod_eq_iff_shift a.row.1 a.row.2).mp first.symm
    have beyond := (le_climb_iff wide).mpr (Int.le_of_lt past)
    exact ⟨by omega, fun nothing => absurd beyond (by omega)⟩
  · have first := toInt_lineRowAt_up a b right up a.column (Int.not_lt.mp past)
    rw [keeps.first] at first
    have product := interpolate_down_base wide (Int.le_of_eq first)
    have zero : aX.toInt = 0 := by
      refine Int.le_antisymm (Int.not_lt.mp fun positive => ?_) a.column.1
      exact absurd (Int.mul_pos positive (Int.sub_pos_of_lt up)) (Int.not_lt.mpr product)
    rw [climb, zero, Int.zero_mul, Int.zero_ediv]
    exact ⟨rfl, fun _ => rfl⟩

end Rows

section Lines

variable {aX aY bX bY : Int16}

theorem lineOffset_comm (aX aY bX bY : Int16) :
    lineOffset aX aY bX bY = lineOffset bX bY aX aY := by
  have height : (bY.toInt - aY.toInt).natAbs = (aY.toInt - bY.toInt).natAbs := by omega
  have width : (bX.toInt - aX.toInt).natAbs = (aX.toInt - bX.toInt).natAbs := by omega
  rw [lineOffset, lineOffset, height, width, Int.min_comm]

/-- A slanted line to the right joins its ends when its offset leaves it in its rows. -/
theorem joins_slanted_iff (a : ScreenPoint aX aY) (b : ScreenPoint bX bY)
    (right : aX.toInt < bX.toInt) (slanted : aY ≠ bY) (color : UInt8) :
    Joins aX aY bX bY color ↔
      lineOffset aX aY bX bY % 65536 = 0 ∧
        (lineOffset aX aY bX bY = 0 →
          (aX.toInt < bX.toInt ↔ aY.toInt < bY.toInt) ∨ min aX.toInt bX.toInt = 0) := by
  have width : ((bX.toInt - aX.toInt).natAbs : Int) = bX.toInt - aX.toInt := by omega
  rw [joins_rightwards_iff b right, lineOffset, width, Int.min_eq_left (Int.le_of_lt right),
    iff_true_left right]
  have differ : aY.toInt ≠ bY.toInt := fun same => slanted (Int16.toInt_inj.mp same)
  rcases Int.lt_or_gt_of_ne differ with down | up
  · have height : ((bY.toInt - aY.toInt).natAbs : Int) = bY.toInt - aY.toInt := by omega
    rw [height, keepsRows_down_iff a b right down]
    exact (and_iff_left (fun _ => Or.inl down)).symm
  · have height : ((bY.toInt - aY.toInt).natAbs : Int) = aY.toInt - bY.toInt := by omega
    rw [height, or_iff_right (Int.not_lt.mpr (Int.le_of_lt up))]
    constructor
    · exact multiple_of_keepsRows_up a b right up
    · rintro ⟨multiple, only⟩
      by_cases zero : climb (aY.toInt - bY.toInt) (bX.toInt - aX.toInt) aX.toInt = 0
      · exact keepsRows_up_zero a b right up (only zero)
      · exact keepsRows_up_wraps a b right up multiple zero

/-- A line joins its ends when it is vertical or horizontal, and else when its offset is a number of
`2 ^ 16` rows. An offset of no row also wants a line that goes down to the right or starts in
column 0. -/
theorem line_joins_iff (a : ScreenPoint aX aY) (b : ScreenPoint bX bY) (color : UInt8) :
    Joins aX aY bX bY color ↔
      aX = bX ∨ aY = bY ∨
        lineOffset aX aY bX bY % 65536 = 0 ∧
          (lineOffset aX aY bX bY = 0 →
            (aX.toInt < bX.toInt ↔ aY.toInt < bY.toInt) ∨ min aX.toInt bX.toInt = 0) := by
  by_cases vertical : aX = bX
  · subst vertical
    refine iff_of_true ?_ (Or.inl rfl)
    rcases Int.le_total aY.toInt bY.toInt with down | up
    · exact joins_vertical b down
    · exact (joins_vertical a up).swap
  · rw [or_iff_right vertical]
    have differ : aX.toInt ≠ bX.toInt := fun same => vertical (Int16.toInt_inj.mp same)
    by_cases horizontal : aY = bY
    · subst horizontal
      refine iff_of_true ?_ (Or.inl rfl)
      rcases Int.lt_or_gt_of_ne differ with right | left
      · exact joins_horizontal b right
      · exact (joins_horizontal a left).swap
    · rw [or_iff_right horizontal]
      rcases Int.lt_or_gt_of_ne differ with right | left
      · exact joins_slanted_iff a b right horizontal color
      · have turned : (aX.toInt < bX.toInt ↔ aY.toInt < bY.toInt) ↔
            (bX.toInt < aX.toInt ↔ bY.toInt < aY.toInt) := by
          have level : aY.toInt ≠ bY.toInt := fun same => horizontal (Int16.toInt_inj.mp same)
          omega
        rw [joins_comm, joins_slanted_iff b a left (Ne.symm horizontal) color, lineOffset_comm,
          turned, Int.min_comm]

theorem line_joins_iff_diagonal :
    Joins 0 0 3 3 2 ↔
      (0 : Int16) = 3 ∨ (0 : Int16) = 3 ∨
        lineOffset 0 0 3 3 % 65536 = 0 ∧
          (lineOffset 0 0 3 3 = 0 →
            ((0 : Int16).toInt < (3 : Int16).toInt ↔ (0 : Int16).toInt < (3 : Int16).toInt) ∨
              min (0 : Int16).toInt (3 : Int16).toInt = 0) :=
  line_joins_iff ⟨by decide, by decide⟩ ⟨by decide, by decide⟩ 2

/-- A diagonal line in the middle of the screen starts ten rows too low. -/
theorem offset_line_misses : ¬ Joins 10 10 20 20 2 := by
  rw [joins_rightwards_iff ⟨by decide, by decide⟩ (by decide)]
  intro keeps
  exact absurd keeps.first (by decide)

end Lines

end Bootloader.Arch
