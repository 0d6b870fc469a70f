import Bootloader.Arch.Tty
import Bootloader.Std.Page

/-!
# The terminal shows the tail of a page

What is printed on the terminal, without backspaces, is printed on a page that
never ends. `Simulates` relates the two: the screen is the window of the page that
ends with the cursor's row. One lemma says that the two line feeds keep it, with
the scrolling on one side and the window moving on the other; the wrap behind the
last column, the tabulator and the line feed proper all go through it.
-/

namespace Bootloader.Arch

open Bootloader.Std

/-- A character and the colours it is written in. -/
structure Glyph where
  char : UInt8
  color : UInt8
deriving DecidableEq, Repr

/-- The entry that shows a glyph: the character in the low byte, the colours in
the high one. -/
def Glyph.entry (glyph : Glyph) : UInt16 := glyph.char.toUInt16 ||| (glyph.color.toUInt16 <<< 8)

/-- The sign of a character does not matter below 128. -/
theorem vgaMkentry_ascii {c : UInt8} (ascii : c.toNat < 128) (color : UInt8) :
    vgaMkentry c color = Glyph.entry { char := c, color := color } := by
  have widened : ∀ n < 128,
      (UInt8.ofNat n).toInt8.toInt16.toUInt16 = (UInt8.ofNat n).toUInt16 := by
    decide +kernel
  have same := widened c.toNat ascii
  rw [UInt8.ofNat_toNat] at same
  rw [vgaMkentry, same, Glyph.entry]

/-- What a character other than backspace does to a page of any glyphs. -/
def types {Sign : Type} (sign : UInt8 → Sign) (c : UInt8) (page : Page Sign) : Page Sign :=
  if c = carriageReturn then page.carriageReturn
  else if c = lineFeed then page.lineFeed
  else if c = tabulator then page.puts 80 (sign space) (4 - page.column % 4)
  else if c = bell ∨ c = delete then page
  else page.put 80 (sign c)

/-- What a character other than backspace does to a page in one colour. -/
def write (color c : UInt8) (page : Page Glyph) : Page Glyph :=
  types (fun c => { char := c, color := color }) c page

/-- Write characters one after the other. -/
def writes (color : UInt8) (chars : List UInt8) (page : Page Glyph) : Page Glyph :=
  chars.foldl (fun page c => write color c page) page

/-- The screen is the bottom of the page, and the cursor is where it is there. -/
structure ShowsTail (terminal : Terminal) (page : Page Glyph) : Prop where
  cells : ∀ row column, row < 25 → column < 80 →
    terminal.display.screen row column = (page.window 25 row column).entry
  row : page.top 25 + terminal.tty.row.toNat = page.row
  column : terminal.tty.column.toNat = page.column

/-- A terminal in step with a page. -/
structure Simulates (color : UInt8) (terminal : Terminal) (page : Page Glyph) : Prop extends
    ShowsTail terminal page where
  wide : terminal.tty.width = 80
  high : terminal.tty.height = 25
  onRow : terminal.tty.row.toNat < 25
  onColumn : terminal.tty.column.toNat < 80
  colored : terminal.display.color = color
  below : page.BlankBelow { char := space, color := color }

section Steps

variable {color c : UInt8} {glyph : Glyph} {terminal : Terminal} {page : Page Glyph}

theorem space_ascii : space.toNat < 128 := by decide

/-- A blank cell shows a blank. -/
theorem Simulates.blank (simulates : Simulates color terminal page) :
    terminal.display.blank = Glyph.entry { char := space, color := color } := by
  rw [Display.blank, simulates.colored]
  exact vgaMkentry_ascii space_ascii color

/-- One row further down, scrolling included, is one row further down. -/
theorem nextRow_simulates {display : Display} {tty : Tty}
    (simulates : Simulates color ⟨display, tty⟩ page) :
    ∃ after, scrollifneeded ⟨display, { tty with row := tty.row + 1 }⟩ = .returned () after ∧
      Simulates color after page.lineFeed := by
  have blank := simulates.blank
  obtain ⟨⟨cells, row, column⟩, wide, high, onRow, onColumn, colored, below⟩ := simulates
  simp only [Page.top] at cells row column wide high onRow onColumn colored blank
  have next : (tty.row + 1).toNat = tty.row.toNat + 1 := toNat_add_one (by omega)
  by_cases last : tty.row.toNat = 24
  · have behind : tty.row + 1 = 25 := UInt32.toNat_inj.mp (by rw [next, last]; rfl)
    have full : ¬ page.row + 1 < 25 := by omega
    have bottom : (24 : UInt32).toNat = 24 := rfl
    refine ⟨_, scrollifneeded_scrolls _ wide high onColumn behind, ?_⟩
    refine ⟨⟨?_, ?_, column⟩, wide, high, ?_, onColumn, colored, below.lineFeed⟩
    · intro screenRow screenColumn onScreenRow onScreenColumn
      rw [ttyShowcursor, screen_vgaMvcursor, screen_scrolled onScreenRow onScreenColumn,
        Page.window_lineFeed below, if_neg full]
      by_cases bottomRow : screenRow = 24
      · rw [if_pos bottomRow, if_pos bottomRow, blank]
      · rw [if_neg bottomRow, if_neg bottomRow]
        exact cells _ _ (by omega) onScreenColumn
    · simp only [Page.top, Page.lineFeed, ttyShowcursor, bottom]
      omega
    · simp only [ttyShowcursor, bottom]
      omega
  · have room : page.row + 1 < 25 := by omega
    have onRow' : (tty.row + 1).toNat < 25 := by omega
    refine ⟨_, scrollifneeded_stays _ wide high onColumn onRow', ?_⟩
    refine ⟨⟨?_, ?_, column⟩, wide, high, onRow', onColumn, colored, below.lineFeed⟩
    · intro screenRow screenColumn onScreenRow onScreenColumn
      rw [ttyShowcursor, screen_vgaMvcursor, Page.window_lineFeed below, if_pos room]
      exact cells _ _ onScreenRow onScreenColumn
    · simp only [Page.top, Page.lineFeed, ttyShowcursor, next]
      omega

/-- A character written at the cursor, as the glyph that shows it. -/
theorem mark_simulates (shows : vgaMkentry c color = glyph.entry)
    (simulates : Simulates color terminal page) :
    Simulates color
      { terminal with
        display := vgaPutchar c terminal.tty.column terminal.tty.row terminal.display }
      (page.mark glyph) := by
  obtain ⟨⟨cells, row, column⟩, wide, high, onRow, onColumn, colored, below⟩ := simulates
  refine ⟨⟨?_, row, column⟩, wide, high, onRow, onColumn, colored, below.mark⟩
  intro screenRow screenColumn onScreenRow onScreenColumn
  have here : screenRow = terminal.tty.row.toNat ↔ page.top 25 + screenRow = page.row := by
    omega
  rw [screen_vgaPutchar onRow onColumn onScreenColumn, Page.window_mark]
  by_cases cursor : page.top 25 + screenRow = page.row ∧ screenColumn = page.column
  · rw [if_pos cursor, if_pos ⟨here.mpr cursor.1, cursor.2.trans column.symm⟩, colored]
    exact shows
  · rw [if_neg cursor, if_neg fun both => cursor ⟨here.mp both.1, both.2.trans column⟩]
    exact cells _ _ onScreenRow onScreenColumn

/-- A character written at the cursor, and the cursor on the next cell. -/
theorem ttyPutdefault_simulates (shows : vgaMkentry c color = glyph.entry)
    (simulates : Simulates color terminal page) :
    ∃ after, ttyPutdefault c terminal = .returned () after ∧
      Simulates color after (page.put 80 glyph) := by
  have marked := mark_simulates shows simulates
  have column := simulates.column
  have onColumn := simulates.onColumn
  have next : (terminal.tty.column + 1).toNat = terminal.tty.column.toNat + 1 :=
    toNat_add_one (by omega)
  rw [ttyPutdefault]
  by_cases last : page.column + 1 = 80
  · have behind : terminal.tty.column + 1 = 80 :=
      UInt32.toNat_inj.mp (by rw [next, column, last]; rfl)
    have first : (0 : UInt32).toNat < 80 := by decide
    have wrapped : Simulates color
        ⟨vgaPutchar c terminal.tty.column terminal.tty.row terminal.display,
          { terminal.tty with column := 0 }⟩
        (page.mark glyph).carriageReturn :=
      ⟨⟨marked.cells, marked.row, rfl⟩, marked.wide, marked.high, marked.onRow, first,
        marked.colored, marked.below⟩
    obtain ⟨after, ran, kept⟩ := nextRow_simulates wrapped
    rw [Page.put_last last]
    refine ⟨after, ?_, kept⟩
    rw [← ran]
    apply scrollifneeded_wraps
    · exact marked.wide
    · exact behind
  · have column' : (terminal.tty.column + 1).toNat = page.column + 1 := by
      rw [next, column]
    have onColumn' : (terminal.tty.column + 1).toNat < 80 := by omega
    rw [Page.put_within last]
    exact ⟨_, scrollifneeded_stays _ marked.wide marked.high onColumn' marked.onRow,
      ⟨marked.cells, marked.row, column'⟩, marked.wide, marked.high, marked.onRow, onColumn',
      marked.colored, marked.below⟩

theorem ttyPutspaces_simulates (shows : vgaMkentry space color = glyph.entry)
    (simulates : Simulates color terminal page) (shifting : Nat) :
    ∃ after, ttyPutspaces shifting terminal = .returned () after ∧
      Simulates color after (page.puts 80 glyph shifting) := by
  induction shifting generalizing terminal page with
  | zero => exact ⟨terminal, rfl, simulates⟩
  | succ shifting inductionHypothesis =>
      obtain ⟨middle, ran, kept⟩ := ttyPutdefault_simulates shows simulates
      rw [ttyPutspaces, ran]
      exact inductionHypothesis kept

/-- A tabulator goes on to the next multiple of four. -/
theorem tabShifting_toNat {column : UInt32} (onColumn : column.toNat < 80) :
    (tabShifting column).toNat = 4 - column.toNat % 4 := by
  have shifting : ∀ n < 80, (tabShifting (UInt32.ofNat n)).toNat = 4 - n % 4 := by
    decide +kernel
  have here := shifting column.toNat onColumn
  rwa [UInt32.ofNat_toNat] at here

/-- One character, on a page of the glyphs that show characters. -/
theorem ttyPutchar_types {sign : UInt8 → Glyph} (shows : vgaMkentry c color = (sign c).entry)
    (blank : vgaMkentry space color = (sign space).entry) (forward : c ≠ backspace)
    (simulates : Simulates color terminal page) :
    ∃ after, ttyPutchar c terminal = .returned () after ∧
      Simulates color after (types sign c page) := by
  rw [ttyPutchar, types]
  by_cases isReturn : c = carriageReturn
  · have first : (0 : UInt32).toNat < 80 := by decide
    rw [if_pos isReturn, if_pos isReturn]
    exact ⟨_, rfl, ⟨simulates.cells, simulates.row, rfl⟩, simulates.wide, simulates.high,
      simulates.onRow, first, simulates.colored, simulates.below⟩
  rw [if_neg isReturn, if_neg isReturn]
  by_cases isFeed : c = lineFeed
  · rw [if_pos isFeed, if_pos isFeed]
    exact nextRow_simulates simulates
  rw [if_neg isFeed, if_neg isFeed]
  by_cases isTab : c = tabulator
  · rw [if_pos isTab, if_pos isTab, tabShifting_toNat simulates.onColumn, simulates.column]
    exact ttyPutspaces_simulates blank simulates _
  rw [if_neg isTab, if_neg isTab]
  by_cases isBell : c = bell
  · rw [if_pos isBell, if_pos (Or.inl isBell)]
    exact ⟨terminal, rfl, simulates⟩
  rw [if_neg isBell, if_neg forward]
  by_cases isDelete : c = delete
  · rw [if_pos isDelete, if_pos (Or.inr isDelete)]
    exact ⟨terminal, rfl, simulates⟩
  · rw [if_neg isDelete, if_neg fun either => either.elim isBell isDelete]
    exact ttyPutdefault_simulates shows simulates

end Steps

section Runs

/-- The colours `tty_initialize` sets. -/
def greenOnBlack : UInt8 := 0x02

/-- From the start on, the terminal is in step with an empty page. -/
theorem ttyInitialize_simulates (terminal : Terminal) :
    Simulates greenOnBlack (ttyInitialize terminal)
      (Page.empty { char := space, color := greenOnBlack }) := by
  have colored : vgaMkcolor .green .black = greenOnBlack := by decide
  refine ⟨⟨?_, rfl, rfl⟩, rfl, rfl, ?_, ?_, colored, Page.blankBelow_empty⟩
  · intro row column onRow onColumn
    calc (ttyInitialize terminal).display.screen row column
        = (vgaClearscreen (vgaSetcolor .green .black terminal.display)).screen row column := rfl
      _ = (vgaSetcolor .green .black terminal.display).blank :=
          screen_vgaClearscreen onRow onColumn
      _ = vgaMkentry space greenOnBlack := by rw [Display.blank, vgaSetcolor, colored]
      _ = Glyph.entry { char := space, color := greenOnBlack } :=
          vgaMkentry_ascii space_ascii greenOnBlack
  · change (0 : UInt32).toNat < 25
    decide
  · change (0 : UInt32).toNat < 80
    decide

theorem ttyPutchars_types {color : UInt8} {sign : UInt8 → Glyph} {chars : List UInt8}
    {terminal : Terminal} {page : Page Glyph}
    (shows : ∀ c ∈ chars, vgaMkentry c color = (sign c).entry)
    (blank : vgaMkentry space color = (sign space).entry) (forward : ∀ c ∈ chars, c ≠ backspace)
    (simulates : Simulates color terminal page) :
    ∃ after, ttyPutchars chars terminal = .returned () after ∧
      Simulates color after (chars.foldl (fun page c => types sign c page) page) := by
  induction chars generalizing terminal page with
  | nil => exact ⟨terminal, rfl, simulates⟩
  | cons c chars inductionHypothesis =>
      obtain ⟨showsHere, showsLater⟩ := List.forall_mem_cons.mp shows
      obtain ⟨here, later⟩ := List.forall_mem_cons.mp forward
      obtain ⟨middle, ran, kept⟩ := ttyPutchar_types showsHere blank here simulates
      rw [ttyPutchars, ran]
      exact inductionHypothesis showsLater later kept

/-- Characters of seven bits are shown in the colours of the screen. -/
theorem ttyPutchars_simulates {color : UInt8} {chars : List UInt8} {terminal : Terminal}
    {page : Page Glyph} (plain : ∀ c ∈ chars, c.toNat < 128 ∧ c ≠ backspace)
    (simulates : Simulates color terminal page) :
    ∃ after, ttyPutchars chars terminal = .returned () after ∧
      Simulates color after (writes color chars page) :=
  ttyPutchars_types (fun c member => vgaMkentry_ascii (plain c member).1 color)
    (vgaMkentry_ascii space_ascii color) (fun c member => (plain c member).2) simulates

/-- Whatever is printed after `tty_initialize`, the terminal shows the tail of it. -/
theorem tty_shows_tail (terminal : Terminal) (chars : List UInt8)
    (plain : ∀ c ∈ chars, c.toNat < 128 ∧ c ≠ backspace) :
    ∃ after, ttyPutchars chars (ttyInitialize terminal) = .returned () after ∧
      ShowsTail after
        (writes greenOnBlack chars (Page.empty { char := space, color := greenOnBlack })) := by
  obtain ⟨after, ran, kept⟩ := ttyPutchars_simulates plain (ttyInitialize_simulates terminal)
  exact ⟨after, ran, kept.toShowsTail⟩

theorem tty_shows_tail_hello :
    ∃ after, ttyPutchars [0x48, tabulator, 0x69, carriageReturn, lineFeed]
        (ttyInitialize coldTerminal) = .returned () after ∧
      ShowsTail after (writes greenOnBlack [0x48, tabulator, 0x69, carriageReturn, lineFeed]
        (Page.empty { char := space, color := greenOnBlack })) :=
  tty_shows_tail coldTerminal _ (by decide +kernel)

end Runs

end Bootloader.Arch
