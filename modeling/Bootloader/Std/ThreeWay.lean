import Mathlib.Data.List.Lex
import Mathlib.Order.Lattice

/-!
# Three-way comparison

A three-way comparison answers with a number below zero, zero or a number above zero. Over a linear
order its sign says everything about the order, and sequences are compared by the first place
where they differ.
-/

namespace Bootloader.Std

variable {Key : Type} [LinearOrder Key] {first second : Key}

/-- The order of two keys as a number. -/
def threeWay (first second : Key) : Int :=
  if first < second then -1 else if first = second then 0 else 1

theorem threeWay_eq_zero_iff : threeWay first second = 0 ↔ first = second := by
  rw [threeWay]
  rcases lt_trichotomy first second with less | rfl | more
  · rw [if_pos less]
    exact iff_of_false (by decide) (ne_of_lt less)
  · rw [if_neg (lt_irrefl first), if_pos rfl]
    exact iff_of_true rfl rfl
  · rw [if_neg (lt_asymm more), if_neg (ne_of_gt more)]
    exact iff_of_false (by decide) (ne_of_gt more)

theorem threeWay_neg_iff : threeWay first second < 0 ↔ first < second := by
  rw [threeWay]
  by_cases less : first < second
  · rw [if_pos less]
    exact iff_of_true (by decide) less
  · rw [if_neg less]
    refine iff_of_false ?_ less
    split <;> decide

theorem threeWay_nonpos_iff : threeWay first second ≤ 0 ↔ first ≤ second := by
  rw [Int.le_iff_lt_or_eq, le_iff_lt_or_eq, threeWay_neg_iff, threeWay_eq_zero_iff]

/-- Keys in the same order compare the same. -/
theorem threeWay_congr {Other : Type} [LinearOrder Other] {third fourth : Other}
    (less : first < second ↔ third < fourth) (equal : first = second ↔ third = fourth) :
    threeWay first second = threeWay third fourth := by
  rw [threeWay, threeWay]
  by_cases before : first < second
  · rw [if_pos before, if_pos (less.mp before)]
  · rw [if_neg before, if_neg (fun after => before (less.mpr after))]
    by_cases same : first = second
    · rw [if_pos same, if_pos (equal.mp same)]
    · rw [if_neg same, if_neg (fun both => same (equal.mpr both))]

/-- Compared the other way round, keys give the opposite. -/
theorem threeWay_swap (first second : Key) : threeWay second first = -threeWay first second := by
  rcases lt_trichotomy first second with less | rfl | more
  · rw [threeWay, threeWay, if_neg (lt_asymm less), if_neg (ne_of_gt less), if_pos less]
    rfl
  · rw [threeWay_eq_zero_iff.mpr rfl]
    rfl
  · rw [threeWay, threeWay, if_pos more, if_neg (lt_asymm more), if_neg (ne_of_gt more)]

/-- Sequences are compared by their first keys, and by the rest where these are the same. -/
theorem threeWay_cons (first second : Key) (firsts seconds : List Key) :
    threeWay (first :: firsts) (second :: seconds) =
      if first = second then threeWay firsts seconds else threeWay first second := by
  have less : first :: firsts < second :: seconds ↔
      first < second ∨ first = second ∧ firsts < seconds := List.cons_lt_cons_iff
  have equal : first :: firsts = second :: seconds ↔ first = second ∧ firsts = seconds := by
    rw [List.cons.injEq]
  by_cases same : first = second
  · rw [if_pos same]
    subst same
    rw [or_iff_right (lt_irrefl first), and_iff_right rfl] at less
    rw [and_iff_right rfl] at equal
    exact threeWay_congr less equal
  · rw [if_neg same]
    rw [or_iff_left (fun both => same both.1)] at less
    exact threeWay_congr less (equal.trans (iff_of_false (fun both => same both.1) same))

end Bootloader.Std
