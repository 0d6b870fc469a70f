import Bootloader.Arch.Vga
import Bootloader.Std.Scroll

/-!
# Scrolling the screen

`vga_scrollup` and `vga_scrolldown` take a number of lines and scroll by one.
`scroll_by_lines_iff` says what that comes to: other numbers are right on screens with nothing
to scroll but the line that they are filled with.
-/

namespace Bootloader.Arch

open Bootloader.Std Bootloader.Libc

/-- One call after the other. -/
def repeated (call : Display → Outcome Display Unit) : Nat → Display → Outcome Display Unit
  | 0, display => .returned () display
  | count + 1, display => (call display).andThen fun _ display => repeated call count display

/-- A row of the screen, `n` rows from where it was. -/
def scrolledEntry (move : Nat → UInt16 → (Nat → UInt16) → Nat → UInt16) (n : Nat)
    (fillWith : UInt32) (before : Display) (row column : Nat) : UInt16 :=
  move n (before.fillEntry fillWith column) (before.screen · column) row

/-- Scrolling moves the rows by `n`, as `n` times scrolling by one does. -/
def ScrollsBy (scroll : UInt32 → UInt32 → Display → Outcome Display Unit)
    (move : Nat → UInt16 → (Nat → UInt16) → Nat → UInt16) (n fillWith : UInt32)
    (display : Display) : Prop :=
  ∃ after ones, scroll n fillWith display = .returned () after ∧
    repeated (scroll 1 fillWith) n.toNat display = .returned () ones ∧
      ∀ row < 25, ∀ column < 80,
        after.screen row column = scrolledEntry move n.toNat fillWith display row column ∧
          after.screen row column = ones.screen row column

/-- What a call does that scrolls by one row. -/
structure ScrollsOne (move : Nat → UInt16 → (Nat → UInt16) → Nat → UInt16) (fillWith : UInt32)
    (before after : Display) : Prop where
  rows : ∀ row < 25, ∀ column < 80,
    after.screen row column = scrolledEntry move 1 fillWith before row column
  line : ∀ column < 80, after.fillEntry fillWith column = before.fillEntry fillWith column

section Lines

variable {display : Display} {fillWith n : UInt32}
  {scroll : UInt32 → UInt32 → Display → Outcome Display Unit}
  {move : Nat → UInt16 → (Nat → UInt16) → Nat → UInt16}

/-- A call scrolls up by one row, whatever it is asked for. -/
theorem vgaScrollup_one (offScreen : OffScreen fillWith) (positive : n > 0) (display : Display) :
    ∃ after, vgaScrollup n fillWith display = .returned () after ∧
      ScrollsOne (Scroll.up 25) fillWith display after := by
  refine ⟨_, vgaScrollup_eq positive fillWith, fun row onRow column onColumn => ?_,
    fun column onColumn => ?_⟩
  · rw [screen_vgaScrollup offScreen onRow onColumn, scrolledEntry, Scroll.up]
    by_cases last : row = 24
    · rw [if_pos last, if_neg (by omega)]
    · rw [if_neg last, if_pos (by omega)]
  · refine fillEntry_congr offScreen onColumn vgaFillline_color fun place outside => ?_
    have offLine :
        place < cell (24 : UInt32).toNat 0 ∨ cell (24 : UInt32).toNat 0 + 160 ≤ place := by
      simp only [cell, show (24 : UInt32).toNat = 24 from rfl]
      omega
    exact (vgaFillline_outside (by decide) offLine).trans (movedUp_outside outside)

/-- And so it does down. -/
theorem vgaScrolldown_one (offScreen : OffScreen fillWith) (positive : n > 0) (display : Display) :
    ∃ after, vgaScrolldown n fillWith display = .returned () after ∧
      ScrollsOne Scroll.down fillWith display after := by
  refine ⟨_, vgaScrolldown_eq positive fillWith, fun row onRow column onColumn => ?_,
    fun column onColumn => ?_⟩
  · rw [screen_vgaScrolldown offScreen onRow onColumn, scrolledEntry, Scroll.down]
    by_cases first : row = 0
    · rw [if_pos first, if_neg (by omega)]
    · rw [if_neg first, if_pos (by omega)]
  · refine fillEntry_congr offScreen onColumn (vgaFillline_color.trans movedDown_color)
      fun place outside => ?_
    have offLine : place < cell (0 : UInt32).toNat 0 ∨ cell (0 : UInt32).toNat 0 + 160 ≤ place := by
      simp only [cell, show (0 : UInt32).toNat = 0 from rfl]
      omega
    exact (vgaFillline_outside (by decide) offLine).trans (movedDown_outside outside)

/-- Calls that scroll by one row each scroll by as many rows as there are calls. -/
theorem repeated_scrolls (moves : Scroll.Moves 25 move)
    (one : ∀ display, ∃ after, scroll 1 fillWith display = .returned () after ∧
      ScrollsOne move fillWith display after) (count : Nat) (display : Display) :
    ∃ ones, repeated (scroll 1 fillWith) count display = .returned () ones ∧
      ∀ row < 25, ∀ column < 80,
        ones.screen row column = scrolledEntry move count fillWith display row column := by
  induction count generalizing display with
  | zero =>
      refine ⟨display, rfl, fun row onRow column _ => ?_⟩
      rw [scrolledEntry, moves.zero onRow]
  | succ count inductionHypothesis =>
      obtain ⟨after, ran, rows, line⟩ := one display
      obtain ⟨ones, rest, scrolls⟩ := inductionHypothesis after
      refine ⟨ones, ?_, fun row onRow column onColumn => ?_⟩
      · rw [repeated, ran]
        exact rest
      · rw [scrolls row onRow column onColumn, scrolledEntry, line column onColumn, scrolledEntry,
          Nat.add_comm, ← moves.add]
        exact moves.congr (fun other onScreen => rows other onScreen column onColumn) onRow

/-- What is asked for is what is done when scrolling by one row makes no difference. -/
theorem scrollsBy_iff (moves : Scroll.Moves 25 move)
    (one : ∀ n > 0, ∀ display, ∃ after, scroll n fillWith display = .returned () after ∧
      ScrollsOne move fillWith display after) (positive : n > 0) :
    ScrollsBy scroll move n fillWith display ↔ ∀ column < 80, ∀ row < 25,
      scrolledEntry move 1 fillWith display row column =
        scrolledEntry move n.toNat fillWith display row column := by
  obtain ⟨after, ran, rows, _⟩ := one n positive display
  obtain ⟨ones, repeats, scrolls⟩ := repeated_scrolls moves (one 1 (by decide)) n.toNat display
  constructor
  · rintro ⟨after', _, ran', _, same⟩ column onColumn row onRow
    rw [ran] at ran'
    cases ran'
    rw [← rows row onRow column onColumn, (same row onRow column onColumn).1]
  · intro same
    refine ⟨after, ones, ran, repeats, fun row onRow column onColumn => ?_⟩
    rw [rows row onRow column onColumn, scrolls row onRow column onColumn]
    exact ⟨same column onColumn row onRow, same column onColumn row onRow⟩

/-- Scrolling by `n` lines is what the screen shows when `n` is one, or when the rows that
scroll are no different from the line that comes after them. -/
theorem scroll_by_lines_iff (display : Display) (offScreen : OffScreen fillWith) (nonzero : n > 0) :
    (ScrollsBy vgaScrollup (Scroll.up 25) n fillWith display ↔
      n = 1 ∨ ∀ column < 80, ∀ row < 25, 0 < row →
        display.screen row column = display.fillEntry fillWith column) ∧
    (ScrollsBy vgaScrolldown Scroll.down n fillWith display ↔
      n = 1 ∨ ∀ column < 80, ∀ row, row + 1 < 25 →
        display.screen row column = display.fillEntry fillWith column) := by
  rw [scrollsBy_iff Scroll.moves_up (fun _ => vgaScrollup_one offScreen) nonzero,
    scrollsBy_iff Scroll.moves_down (fun _ => vgaScrolldown_one offScreen) nonzero]
  by_cases single : n = 1
  · subst single
    exact ⟨iff_of_true (fun _ _ _ _ => rfl) (Or.inl rfl),
      iff_of_true (fun _ _ _ _ => rfl) (Or.inl rfl)⟩
  · have more : 1 < n.toNat := by
      have positive := UInt32.lt_iff_toNat_lt.mp nonzero
      have other : n.toNat ≠ 1 := fun same => single (UInt32.toNat_inj.mp same)
      rw [UInt32.toNat_zero] at positive
      omega
    rw [or_iff_right single, or_iff_right single]
    exact ⟨forall₂_congr fun _ _ => Scroll.up_eq_one_iff more,
      forall₂_congr fun _ _ => Scroll.down_eq_one_iff more⟩

/-- A screen on which nothing has been drawn, not even blanks. -/
def coldDisplay : Display where
  memory := fun _ => 0
  color := 0x02
  ports := []
  drawn := []

theorem scroll_by_lines_iff_two :
    (ScrollsBy vgaScrollup (Scroll.up 25) 2 0 coldDisplay ↔
      (2 : UInt32) = 1 ∨ ∀ column < 80, ∀ row < 25, 0 < row →
        coldDisplay.screen row column = coldDisplay.fillEntry 0 column) ∧
    (ScrollsBy vgaScrolldown Scroll.down 2 0 coldDisplay ↔
      (2 : UInt32) = 1 ∨ ∀ column < 80, ∀ row, row + 1 < 25 →
        coldDisplay.screen row column = coldDisplay.fillEntry 0 column) :=
  scroll_by_lines_iff coldDisplay (Or.inl (by decide)) (by decide)

/-- Scrolling up by two lines leaves the last line but one as it was below. -/
theorem scroll_by_two_lines_differs :
    ¬ ScrollsBy vgaScrollup (Scroll.up 25) 2 0 coldDisplay := by
  rintro ⟨after, _, ran, _, same⟩
  obtain ⟨here, _⟩ := same 23 (by decide) 0 (by decide)
  rw [vgaScrollup_eq (by decide)] at ran
  cases ran
  rw [screen_vgaScrollup (Or.inl (by decide)) (by decide) (by decide)] at here
  exact absurd here (by decide)

end Lines

end Bootloader.Arch
