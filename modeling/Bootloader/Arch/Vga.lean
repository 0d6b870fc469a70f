import Bootloader.Libc.MemOperations

/-!
# The text screen

The screen is a buffer of 16-bit entries at a fixed address, 25 rows of 80, each
entry a character with its colours. `screen` reads it as a grid; what the drawing
routines do to that grid is stated here once, and nothing above looks at an
address again.
-/

namespace Bootloader.Arch

open Bootloader.Std Bootloader.Libc

/-- `enum vga_color`. -/
inductive VgaColor where
  | black
  | blue
  | green
  | cyan
  | red
  | magenta
  | brown
  | lightGrey
  | darkGrey
  | lightBlue
  | lightGreen
  | lightCyan
  | lightRed
  | lightMagenta
  | lightBrown
  | white
deriving DecidableEq, Repr

/-- The number of a colour. -/
def VgaColor.code : VgaColor → UInt8
  | .black => 0
  | .blue => 1
  | .green => 2
  | .cyan => 3
  | .red => 4
  | .magenta => 5
  | .brown => 6
  | .lightGrey => 7
  | .darkGrey => 8
  | .lightBlue => 9
  | .lightGreen => 10
  | .lightCyan => 11
  | .lightRed => 12
  | .lightMagenta => 13
  | .lightBrown => 14
  | .white => 15

/-- `VGA_MEMORY`, the constant `vga.bufaddr`. -/
def vgaMemory : UInt32 := 0xB8000

/-- `VGA_WIDTH`, the constant `vga.width`. -/
def vgaWidth : UInt32 := 80

/-- `VGA_HEIGHT`, the constant `vga.height`. -/
def vgaHeight : UInt32 := 25

/-- Memory with the screen in it, the variable `vga.color`, the bytes that were
sent to I/O ports, and the indices `vga_putchar` has stored at. -/
structure Display where
  memory : Memory
  color : UInt8
  ports : List (UInt16 × UInt8)
  drawn : List UInt32

/-- `vga_mkcolor`. -/
def vgaMkcolor (fg bg : VgaColor) : UInt8 := ((0x0F : UInt8) &&& fg.code) ||| (bg.code <<< 4)

/-- `vga_mkentry`: a `char` is signed and is widened with its sign. -/
def vgaMkentry (c color : UInt8) : UInt16 :=
  c.toInt8.toInt16.toUInt16 ||| (color.toUInt16 <<< 8)

/-- `' '`. -/
def space : UInt8 := 0x20

/-- `vga_setcolor`. -/
def vgaSetcolor (fg bg : VgaColor) (display : Display) : Display :=
  { display with color := vgaMkcolor fg bg }

/-- `vga_putchar`. -/
def vgaPutchar (c : UInt8) (x y : UInt32) (display : Display) : Display :=
  let index := y * vgaWidth + x
  { display with
    memory := display.memory.store16 (vgaMemory + 2 * index).toNat (vgaMkentry c display.color)
    drawn := display.drawn ++ [index] }

/-- `vga_fillline`: copies of the entries at `fillWith`, blanks when it is NULL. -/
def vgaFillline (y fillWith : UInt32) (display : Display) : Display :=
  let startAddr := vgaMemory + 2 * (vgaWidth * y)
  let vgaDefaultentry := vgaMkentry space display.color
  { display with
    memory := display.memory.store16s startAddr.toNat
      (fun i memory =>
        if fillWith ≠ 0 then memory.load16 (fillWith.toNat + 2 * i) else vgaDefaultentry)
      vgaWidth.toNat }

/-- `vga_clearscreen`: a blank at every entry from the first to the last. -/
def vgaClearscreen (display : Display) : Display :=
  let vgaEntry := vgaMkentry space display.color
  { display with
    memory := display.memory.store16s vgaMemory.toNat (fun _ _ => vgaEntry)
      (vgaWidth * vgaHeight).toNat }

/-- `vga_scrollup`: one line, whatever `n` is. -/
def vgaScrollup (n fillWith : UInt32) (display : Display) : Outcome Display Unit :=
  if ¬ n > 0 then .panicked "n > 0" display
  else
    ((memcpy vgaMemory (vgaMemory + 2 * vgaWidth) (vgaWidth * (vgaHeight - 1) * 2)
        display.memory).within ({ display with memory := · })).andThen fun _ display =>
      .returned () (vgaFillline (vgaHeight - 1) fillWith display)

/-- `vga_scrolldown`: one line, whatever `n` is. -/
def vgaScrolldown (n fillWith : UInt32) (display : Display) : Outcome Display Unit :=
  if ¬ n > 0 then .panicked "n > 0" display
  else
    ((memcpyrev (vgaMemory + 2 * vgaWidth) vgaMemory (vgaWidth * (vgaHeight - 1) * 2)
        display.memory).within ({ display with memory := · })).andThen fun _ display =>
      .returned () (vgaFillline 0 fillWith display)

/-- `outb`. -/
def outb (port : UInt16) (byte : UInt8) (display : Display) : Display :=
  { display with ports := display.ports ++ [(port, byte)] }

/-- `vga_mvcursor`: the linear position, high byte first. -/
def vgaMvcursor (x y : UInt32) (display : Display) : Display :=
  let cursorLinearPos := (y * vgaWidth + x).toUInt16
  outb 0x3D5 cursorLinearPos.toUInt8
    (outb 0x3D4 0x0F
      (outb 0x3D5 (cursorLinearPos >>> 8).toUInt8
        (outb 0x3D4 0x0E display)))

/-- The address of the entry in a row and a column of the screen. -/
def cell (row column : Nat) : Nat := 0xB8000 + 2 * (80 * row + column)

/-- The entry in a row and a column of the screen. -/
def Display.screen (display : Display) (row column : Nat) : UInt16 :=
  display.memory.load16 (cell row column)

/-- The entry of a blank cell. -/
def Display.blank (display : Display) : UInt16 := vgaMkentry space display.color

section Screen

variable {display : Display} {row column : Nat} {x y : UInt32}

@[simp] theorem screen_vgaMvcursor :
    (vgaMvcursor x y display).screen row column = display.screen row column := rfl

/-- A cell of the screen has an index below 2000. -/
theorem index_toNat (onRow : y.toNat < 25) (onColumn : x.toNat < 80) :
    (y * vgaWidth + x).toNat = 80 * y.toNat + x.toNat := by
  have width : vgaWidth.toNat = 80 := rfl
  rw [UInt32.toNat_add, UInt32.toNat_mul, width]
  omega

/-- Drawing on a cell of the screen changes that cell alone. -/
theorem screen_vgaPutchar {c : UInt8} (onRow : y.toNat < 25) (onColumn : x.toNat < 80)
    (column_lt : column < 80) :
    (vgaPutchar c x y display).screen row column =
      if row = y.toNat ∧ column = x.toNat then vgaMkentry c display.color
      else display.screen row column := by
  have index := index_toNat onRow onColumn
  have base : vgaMemory.toNat = 0xB8000 := rfl
  have two : (2 : UInt32).toNat = 2 := rfl
  have address : (vgaMemory + 2 * (y * vgaWidth + x)).toNat = cell y.toNat x.toNat := by
    rw [UInt32.toNat_add, UInt32.toNat_mul, index, base, two, cell]
    omega
  simp only [Display.screen, vgaPutchar, address]
  split
  · rename_i same
    rw [same.1, same.2, Memory.load16_store16]
  · rename_i different
    rw [Memory.load16_store16_disjoint]
    simp only [cell]
    omega

/-- Clearing makes every cell blank. -/
theorem screen_vgaClearscreen (onRow : row < 25) (onColumn : column < 80) :
    (vgaClearscreen display).screen row column = display.blank := by
  have inside : 80 * row + column < (vgaWidth * vgaHeight).toNat := by
    change 80 * row + column < 2000
    omega
  exact Memory.load16_store16s inside

/-- The entry of the line at `fillWith` in a column, a blank when it is NULL. -/
def Display.fillEntry (display : Display) (fillWith : UInt32) (column : Nat) : UInt16 :=
  if fillWith ≠ 0 then display.memory.load16 (fillWith.toNat + 2 * column) else display.blank

/-- A line to fill with stands apart from the screen. -/
def OffScreen (fillWith : UInt32) : Prop :=
  fillWith.toNat + 160 ≤ 0xB8000 ∨ 0xB8000 + 4000 ≤ fillWith.toNat

/-- A line that is off the screen is the same when only the screen has changed. -/
theorem fillEntry_congr {other : Display} {fillWith : UInt32} (offScreen : OffScreen fillWith)
    (onColumn : column < 80) (colored : other.color = display.color)
    (same : ∀ place, (place < 0xB8000 ∨ 0xB8000 + 4000 ≤ place) →
      other.memory place = display.memory place) :
    other.fillEntry fillWith column = display.fillEntry fillWith column := by
  have apart : ∀ offset < 2, fillWith.toNat + 2 * column + offset < 0xB8000 ∨
      0xB8000 + 4000 ≤ fillWith.toNat + 2 * column + offset := by
    intro offset within
    rcases offScreen with below | above <;> omega
  rw [Display.fillEntry, Display.fillEntry, Display.blank, Display.blank, colored]
  congr 1
  exact Memory.load16_congr (same _ (apart 0 (by decide))) (same _ (apart 1 (by decide)))

/-- Where a line of the screen starts. -/
theorem line_address (onRow : y.toNat < 25) :
    (vgaMemory + 2 * (vgaWidth * y)).toNat = cell y.toNat 0 := by
  have base : vgaMemory.toNat = 0xB8000 := rfl
  have width : vgaWidth.toNat = 80 := rfl
  have two : (2 : UInt32).toNat = 2 := rfl
  rw [UInt32.toNat_add, UInt32.toNat_mul, UInt32.toNat_mul, base, width, two, cell]
  omega

/-- What is filled is a line of the screen. -/
theorem vgaFillline_outside {fillWith : UInt32} {place : Nat} (onRow : y.toNat < 25)
    (outside : place < cell y.toNat 0 ∨ cell y.toNat 0 + 160 ≤ place) :
    (vgaFillline y fillWith display).memory place = display.memory place := by
  rw [← line_address onRow] at outside
  exact Memory.store16s_outside outside

theorem vgaFillline_color {fillWith : UInt32} :
    (vgaFillline y fillWith display).color = display.color := rfl

/-- Filling a line changes that line, to the one it is filled with. -/
theorem screen_vgaFillline {fillWith : UInt32} (offScreen : OffScreen fillWith)
    (onRow : y.toNat < 25) (onColumn : column < 80) :
    (vgaFillline y fillWith display).screen row column =
      if row = y.toNat then display.fillEntry fillWith column
      else display.screen row column := by
  have start := line_address onRow
  by_cases here : row = y.toNat
  · have place : cell row column = (vgaMemory + 2 * (vgaWidth * y)).toNat + 2 * column := by
      rw [start, here]
      simp only [cell]
      omega
    rw [if_pos here, Display.screen, place]
    refine (Memory.load16_store16s_at onColumn).trans ?_
    refine @fillEntry_congr display column { display with memory := _ } fillWith offScreen
      onColumn rfl fun other outside => Memory.store16s_outside ?_
    rw [start]
    simp only [cell]
    omega
  · have outside : ∀ offset < 2, cell row column + offset < cell y.toNat 0 ∨
        cell y.toNat 0 + 160 ≤ cell row column + offset := by
      intro offset within
      simp only [cell]
      omega
    rw [if_neg here]
    exact Memory.load16_congr (vgaFillline_outside onRow (outside 0 (by decide)))
      (vgaFillline_outside onRow (outside 1 (by decide)))

/-- All rows but the last one, moved up. -/
def movedUp (display : Display) : Display :=
  { display with memory := display.memory.copyUp 0xB8000 0xB80A0 3840 }

/-- All rows but the last one, moved down. -/
def movedDown (display : Display) : Display :=
  { display with memory := display.memory.copyDown 0xB80A0 0xB8000 3840 }

theorem screen_movedUp (notLast : row < 24) (onColumn : column < 80) :
    (movedUp display).screen row column = display.screen (row + 1) column := by
  have moved : ∀ offset < 2, (movedUp display).memory (cell row column + offset) =
      display.memory (cell (row + 1) column + offset) := by
    intro offset within
    have inside : Memory.copyUp display.memory 0xB8000 0xB80A0 3840
        (0xB8000 + (2 * (80 * row + column) + offset)) =
          display.memory (0xB80A0 + (2 * (80 * row + column) + offset)) :=
      Memory.copyUp_inside (Or.inl (by omega)) (by omega)
    simp only [cell, movedUp]
    rw [Nat.add_assoc, inside]
    congr 1
    omega
  exact Memory.load16_congr (moved 0 (by decide)) (moved 1 (by decide))

theorem screen_movedDown (notLast : row < 24) (onColumn : column < 80) :
    (movedDown display).screen (row + 1) column = display.screen row column := by
  have moved : ∀ offset < 2, (movedDown display).memory (cell (row + 1) column + offset) =
      display.memory (cell row column + offset) := by
    intro offset within
    have inside : Memory.copyDown display.memory 0xB80A0 0xB8000 3840
        (0xB80A0 + (2 * (80 * row + column) + offset)) =
          display.memory (0xB8000 + (2 * (80 * row + column) + offset)) :=
      Memory.copyDown_inside (Or.inl (by omega)) (by omega)
    simp only [cell, movedDown]
    rw [Nat.add_assoc 0xB8000 (2 * (80 * row + column)), ← inside,
      show 0xB8000 + 2 * (80 * (row + 1) + column) + offset =
        0xB80A0 + (2 * (80 * row + column) + offset) by omega]
  exact Memory.load16_congr (moved 0 (by decide)) (moved 1 (by decide))

/-- Moving rows changes nothing but the screen. -/
theorem movedUp_outside {place : Nat} (outside : place < 0xB8000 ∨ 0xB8000 + 4000 ≤ place) :
    (movedUp display).memory place = display.memory place :=
  Memory.copyUp_outside (by omega)

theorem movedDown_outside {place : Nat} (outside : place < 0xB8000 ∨ 0xB8000 + 4000 ≤ place) :
    (movedDown display).memory place = display.memory place := by
  simp only [movedDown]
  exact Memory.copyDown_outside (by omega)

theorem movedDown_color : (movedDown display).color = display.color := by
  simp only [movedDown]

/-- Scrolling never fails, and moves the rows by one line. -/
theorem vgaScrollup_eq {n : UInt32} (positive : n > 0) (fillWith : UInt32) :
    vgaScrollup n fillWith display =
      .returned () (vgaFillline 24 fillWith (movedUp display)) := by
  have target : vgaMemory ≠ 0 := by decide
  have source : vgaMemory + 2 * vgaWidth ≠ 0 := by decide
  rw [vgaScrollup, if_neg (not_not_intro positive), memcpy_eq target source]
  rfl

theorem vgaScrolldown_eq {n : UInt32} (positive : n > 0) (fillWith : UInt32) :
    vgaScrolldown n fillWith display =
      .returned () (vgaFillline 0 fillWith (movedDown display)) := by
  have target : vgaMemory + 2 * vgaWidth ≠ 0 := by decide
  have source : vgaMemory ≠ 0 := by decide
  rw [vgaScrolldown, if_neg (not_not_intro positive), memcpyrev_eq target source]
  rfl

/-- Scrolling up moves every row up, and fills the last one. -/
theorem screen_vgaScrollup {fillWith : UInt32} (offScreen : OffScreen fillWith) (onRow : row < 25)
    (onColumn : column < 80) :
    (vgaFillline 24 fillWith (movedUp display)).screen row column =
      if row = 24 then display.fillEntry fillWith column
      else display.screen (row + 1) column := by
  have bottom : (24 : UInt32).toNat = 24 := rfl
  rw [screen_vgaFillline offScreen (by decide) onColumn, bottom]
  by_cases last : row = 24
  · rw [if_pos last, if_pos last]
    exact fillEntry_congr offScreen onColumn rfl fun _ => movedUp_outside
  · rw [if_neg last, if_neg last, screen_movedUp (by omega) onColumn]

/-- Scrolling down moves every row down, and fills the first one. -/
theorem screen_vgaScrolldown {fillWith : UInt32} (offScreen : OffScreen fillWith)
    (onRow : row < 25) (onColumn : column < 80) :
    (vgaFillline 0 fillWith (movedDown display)).screen row column =
      if row = 0 then display.fillEntry fillWith column
      else display.screen (row - 1) column := by
  have top : (0 : UInt32).toNat = 0 := rfl
  rw [screen_vgaFillline offScreen (by decide) onColumn, top]
  cases row with
  | zero =>
      rw [if_pos rfl, if_pos rfl]
      exact fillEntry_congr offScreen onColumn movedDown_color fun _ => movedDown_outside
  | succ row =>
      rw [if_neg (Nat.succ_ne_zero row), if_neg (Nat.succ_ne_zero row),
        screen_movedDown (by omega) onColumn, Nat.add_sub_cancel]

/-- The display after scrolling up one blank line. -/
def scrolled (display : Display) : Display :=
  vgaFillline 24 0 { display with memory := display.memory.copyUp 0xB8000 0xB80A0 3840 }

/-- Scrolling moves every row up, and blanks the last one. -/
theorem screen_scrolled (onRow : row < 25) (onColumn : column < 80) :
    (scrolled display).screen row column =
      if row = 24 then display.blank else display.screen (row + 1) column :=
  screen_vgaScrollup (Or.inl (by decide)) onRow onColumn

end Screen

end Bootloader.Arch
