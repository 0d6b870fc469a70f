/-!
# Slopes in whole numbers

A slope climbs a height over a width, and over a run its share of that, rounded down. Truncating
division interpolates between two rows in the same way upwards, and downwards as long as
the result stays on one side of zero: it rounds towards the base above zero and away from it below.
-/

namespace Bootloader.Std

variable {height width run base : Int}

/-- How far a slope climbs over a run. -/
def climb (height width run : Int) : Int := run * height / width

theorem climb_mono (wide : 0 < width) (up : 0 ≤ height) {longer : Int} (atLeast : run ≤ longer) :
    climb height width run ≤ climb height width longer :=
  Int.ediv_le_ediv wide (Int.mul_le_mul_of_nonneg_right atLeast up)

theorem le_climb_iff (wide : 0 < width) :
    base ≤ climb height width run ↔ base * width ≤ run * height :=
  Int.le_ediv_iff_mul_le wide

/-- Over its width a slope climbs its height. -/
theorem climb_add_width (wide : 0 < width) :
    climb height width (run + width) = climb height width run + height := by
  rw [climb, Int.add_mul, Int.mul_comm width height, Int.add_mul_ediv_right _ _ (Int.ne_of_gt wide)]
  rfl

/-- What a slope climbs over less than its width is less than its height. -/
theorem climb_within (wide : 0 < width) (up : 0 ≤ height) {longer : Int} (atLeast : run ≤ longer)
    (atMost : longer ≤ run + width) :
    climb height width run ≤ climb height width longer ∧
      climb height width longer ≤ climb height width run + height := by
  refine ⟨climb_mono wide up atLeast, ?_⟩
  rw [← climb_add_width wide]
  exact climb_mono wide up atMost

/-- Interpolation upwards adds the climb to the base. -/
theorem interpolate_up (wide : 0 < width) (positive : 0 ≤ base) (up : 0 ≤ height) (far : 0 ≤ run) :
    (run * height + base * width).tdiv width = base + climb height width run := by
  have product : 0 ≤ run * height := Int.mul_nonneg far up
  have start : 0 ≤ base * width := Int.mul_nonneg positive (Int.le_of_lt wide)
  rw [Int.tdiv_eq_ediv_of_nonneg (Int.add_nonneg product start),
    Int.add_mul_ediv_right _ _ (Int.ne_of_gt wide), climb, Int.add_comm]

/-- Interpolation downwards past zero takes the climb from the base. -/
theorem interpolate_down_past (wide : 0 < width) (past : base * width < run * height) :
    (run * -height + base * width).tdiv width = base - climb height width run := by
  have negative : run * -height + base * width = -(run * height - base * width) := by
    rw [Int.mul_neg]
    omega
  rw [negative, Int.neg_tdiv, Int.tdiv_eq_ediv_of_nonneg (by omega),
    Int.sub_mul_ediv_right _ _ (Int.ne_of_gt wide), climb]
  omega

/-- Interpolation downwards that stays above zero. -/
theorem interpolate_down (above : run * height ≤ base * width) :
    (run * -height + base * width).tdiv width = (base * width - run * height) / width := by
  have same : run * -height + base * width = base * width - run * height := by
    rw [Int.mul_neg]
    omega
  rw [same, Int.tdiv_eq_ediv_of_nonneg (by omega)]

/-- It ends at the base only with nothing to go down. -/
theorem interpolate_down_base (wide : 0 < width)
    (reached : base ≤ (base * width - run * height) / width) : run * height ≤ 0 := by
  rw [Int.le_ediv_iff_mul_le wide] at reached
  omega

/-- From the foot of the slope over no more than its width, it ends between the two rows. -/
theorem interpolate_down_within (wide : 0 < width) (up : 0 ≤ height) (far : 0 ≤ run)
    (atMost : run ≤ width) :
    base - height ≤ (base * width - run * height) / width ∧
      (base * width - run * height) / width ≤ base := by
  have product : 0 ≤ run * height := Int.mul_nonneg far up
  have most : run * height ≤ width * height := Int.mul_le_mul_of_nonneg_right atMost up
  constructor
  · rw [Int.le_ediv_iff_mul_le wide, Int.sub_mul, Int.mul_comm height width]
    omega
  · rw [← Int.lt_add_one_iff, Int.ediv_lt_iff_lt_mul wide, Int.add_mul]
    omega

end Bootloader.Std
