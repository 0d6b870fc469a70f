/-!
# Pages and windows

A page is a text of unbounded length with a cursor on it, and its window is what a
screen of a given height shows of it: the rows that end with the cursor's, or the
first ones while these still fit. `window_lineFeed` is the fact behind scrolling:
the window of a page moves down by a row exactly when the cursor leaves it.
-/

namespace Bootloader.Std

/-- Rows and columns of glyphs, and a cursor. -/
structure Page (Glyph : Type) where
  cells : Nat → Nat → Glyph
  row : Nat
  column : Nat

namespace Page

variable {Glyph : Type}

/-- A page with nothing on it. -/
def empty (blank : Glyph) : Page Glyph :=
  { cells := fun _ _ => blank, row := 0, column := 0 }

/-- To the same column of the next row. -/
def lineFeed (page : Page Glyph) : Page Glyph :=
  { page with row := page.row + 1 }

/-- To the first column of the row. -/
def carriageReturn (page : Page Glyph) : Page Glyph :=
  { page with column := 0 }

/-- Write at the cursor. -/
def mark (glyph : Glyph) (page : Page Glyph) : Page Glyph :=
  { page with
    cells := fun row column =>
      if row = page.row ∧ column = page.column then glyph else page.cells row column }

/-- One column on, from the last one to the first column of the next row. -/
def advance (width : Nat) (page : Page Glyph) : Page Glyph :=
  if page.column + 1 = width then page.carriageReturn.lineFeed
  else { page with column := page.column + 1 }

/-- Write at the cursor and go on. -/
def put (width : Nat) (glyph : Glyph) (page : Page Glyph) : Page Glyph :=
  (page.mark glyph).advance width

/-- Write a glyph several times. -/
def puts (width : Nat) (glyph : Glyph) : Nat → Page Glyph → Page Glyph
  | 0, page => page
  | count + 1, page => puts width glyph count (page.put width glyph)

/-- The first row a screen shows. -/
def top (height : Nat) (page : Page Glyph) : Nat := page.row + 1 - height

/-- What a screen shows. -/
def window (height : Nat) (page : Page Glyph) (row column : Nat) : Glyph :=
  page.cells (page.top height + row) column

/-- Nothing is written below the cursor. -/
def BlankBelow (blank : Glyph) (page : Page Glyph) : Prop :=
  ∀ row column, page.row < row → page.cells row column = blank

section Windows

variable {page : Page Glyph} {blank glyph : Glyph} {height row column : Nat}

theorem blankBelow_empty : BlankBelow blank (empty blank) :=
  fun _ _ _ => rfl

theorem BlankBelow.lineFeed (below : BlankBelow blank page) : BlankBelow blank page.lineFeed :=
  fun row column beyond => below row column (Nat.lt_of_succ_lt beyond)

theorem BlankBelow.mark (below : BlankBelow blank page) : BlankBelow blank (page.mark glyph) := by
  intro row column beyond
  have different : ¬ (row = page.row ∧ column = page.column) :=
    fun both => absurd both.1 (Nat.ne_of_gt beyond)
  exact (if_neg different).trans (below row column beyond)

/-- Writing changes one cell of the window. -/
theorem window_mark :
    (page.mark glyph).window height row column =
      if page.top height + row = page.row ∧ column = page.column then glyph
      else page.window height row column :=
  rfl

/-- What is written in the last column takes the cursor to the next row. -/
theorem put_last {width : Nat} (last : page.column + 1 = width) :
    page.put width glyph = (page.mark glyph).carriageReturn.lineFeed :=
  if_pos last

/-- What is written before the last column leaves the cursor in its row. -/
theorem put_within {width : Nat} (room : ¬ page.column + 1 = width) :
    page.put width glyph = { page.mark glyph with column := page.column + 1 } :=
  if_neg room

/-- While the cursor stays in the window, the window stays. -/
theorem top_lineFeed_of_lt (room : page.row + 1 < height) :
    page.lineFeed.top height = page.top height := by
  simp only [top, lineFeed]
  omega

/-- In the last row of the window, the window moves down with the cursor. -/
theorem top_lineFeed_of_le (last : height ≤ page.row + 1) :
    page.lineFeed.top height = page.top height + 1 := by
  simp only [top, lineFeed]
  omega

/-- What a line feed does to the window. -/
theorem window_lineFeed (below : BlankBelow blank page) :
    page.lineFeed.window height row column =
      if page.row + 1 < height then page.window height row column
      else if row = height - 1 then blank
      else page.window height (row + 1) column := by
  by_cases room : page.row + 1 < height
  · rw [if_pos room, window, top_lineFeed_of_lt room]
    rfl
  · have moved := top_lineFeed_of_le (Nat.le_of_not_lt room)
    rw [if_neg room, window, moved]
    by_cases last : row = height - 1
    · rw [if_pos last]
      apply below
      rw [top]
      omega
    · rw [if_neg last, window, Nat.add_assoc, Nat.add_comm 1 row]
      rfl

end Windows

section Maps

variable {Image : Type} (image : Glyph → Image) (page : Page Glyph)

/-- The same page with other glyphs. -/
def map : Page Image :=
  { cells := fun row column => image (page.cells row column)
    row := page.row
    column := page.column }

/-- What a screen shows of it. -/
theorem window_map (height row column : Nat) :
    (page.map image).window height row column = image (page.window height row column) := rfl

theorem map_mark (glyph : Glyph) :
    (page.mark glyph).map image = (page.map image).mark (image glyph) := by
  simp only [map, mark]
  congr
  funext row column
  exact apply_ite image _ _ _

theorem map_put (width : Nat) (glyph : Glyph) :
    (page.put width glyph).map image = (page.map image).put width (image glyph) := by
  simp only [put, ← map_mark, advance]
  exact apply_ite (map image) _ _ _

theorem map_puts (width : Nat) (glyph : Glyph) (count : Nat) :
    (page.puts width glyph count).map image = (page.map image).puts width (image glyph) count := by
  induction count generalizing page with
  | zero => rfl
  | succ count inductionHypothesis => rw [puts, puts, inductionHypothesis, map_put]

end Maps

end Page

end Bootloader.Std
