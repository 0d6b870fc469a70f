import Bootloader.Arch.Vga

/-!
# The terminal

`tty_putchar` moves a cursor over the screen and draws at it. Row and column are
unsigned, and the terminal wraps and scrolls by comparing them with the size of
the screen for equality. `tty_stays_onScreen_iff` says which characters take the
cursor past that test: a backspace in column zero.
-/

namespace Bootloader.Arch

open Bootloader.Std

/-- `tty_t`. -/
structure Tty where
  row : UInt32
  column : UInt32
  width : UInt32
  height : UInt32
  colorBackground : VgaColor
  colorForeground : VgaColor

/-- The screen and the terminal on it. -/
structure Terminal where
  display : Display
  tty : Tty

/-- `'\a'`. -/
def bell : UInt8 := 0x07

/-- `'\b'`. -/
def backspace : UInt8 := 0x08

/-- `'\t'`. -/
def tabulator : UInt8 := 0x09

/-- `'\n'`. -/
def lineFeed : UInt8 := 0x0A

/-- `'\r'`. -/
def carriageReturn : UInt8 := 0x0D

/-- `127`. -/
def delete : UInt8 := 0x7F

/-- `tty_showcursor`. -/
def ttyShowcursor (terminal : Terminal) : Terminal :=
  { terminal with
    display := vgaMvcursor terminal.tty.column terminal.tty.row terminal.display }

/-- `tty_clearscreen`. -/
def ttyClearscreen (terminal : Terminal) : Terminal :=
  { display := vgaMvcursor 0 0 (vgaClearscreen terminal.display)
    tty := { terminal.tty with row := 0, column := 0 } }

/-- `tty_initialize`. -/
def ttyInitialize (terminal : Terminal) : Terminal :=
  let tty := { terminal.tty with colorBackground := .black, colorForeground := .green }
  let display := vgaSetcolor tty.colorForeground tty.colorBackground terminal.display
  let tty := { tty with width := vgaWidth, height := vgaHeight }
  ttyShowcursor (ttyClearscreen { display := display, tty := tty })

/-- `scrollifneeded`. -/
def scrollifneeded (terminal : Terminal) : Outcome Terminal Unit :=
  let terminal :=
    if terminal.tty.column = terminal.tty.width then
      { terminal with tty := { terminal.tty with column := 0, row := terminal.tty.row + 1 } }
    else terminal
  (if terminal.tty.row = terminal.tty.height then
    ((vgaScrollup 1 0 terminal.display).within ({ terminal with display := · })).andThen
      fun _ terminal =>
        .returned () { terminal with tty := { terminal.tty with row := terminal.tty.row - 1 } }
  else .returned () terminal).andThen fun _ terminal => .returned () (ttyShowcursor terminal)

/-- The default case of `tty_putchar`. -/
def ttyPutdefault (c : UInt8) (terminal : Terminal) : Outcome Terminal Unit :=
  scrollifneeded
    { display := vgaPutchar c terminal.tty.column terminal.tty.row terminal.display
      tty := { terminal.tty with column := terminal.tty.column + 1 } }

/-- The loop of `tty_putchar(' ')` calls for a tabulator; a blank takes the
default case of `tty_putchar`. -/
def ttyPutspaces : Nat → Terminal → Outcome Terminal Unit
  | 0, terminal => .returned () terminal
  | shifting + 1, terminal =>
      (ttyPutdefault space terminal).andThen fun _ terminal => ttyPutspaces shifting terminal

/-- The number of blanks a tabulator stands for. -/
def tabShifting (column : UInt32) : UInt32 := ((column + 4) &&& ~~~(4 - 1)) - column

/-- Where a backspace takes the cursor. -/
def ttyBack (tty : Tty) : Tty :=
  if tty.column = 0 ∧ tty.row ≠ 0 then { tty with row := tty.row - 1, column := vgaWidth }
  else { tty with column := tty.column - 1 }

/-- `tty_putchar`. -/
def ttyPutchar (c : UInt8) (terminal : Terminal) : Outcome Terminal Unit :=
  if c = carriageReturn then
    .returned ()
      { display := vgaMvcursor 0 terminal.tty.row terminal.display
        tty := { terminal.tty with column := 0 } }
  else if c = lineFeed then
    scrollifneeded { terminal with tty := { terminal.tty with row := terminal.tty.row + 1 } }
  else if c = tabulator then
    ttyPutspaces (tabShifting terminal.tty.column).toNat terminal
  else if c = bell then .returned () terminal
  else if c = backspace then
    let tty := ttyBack terminal.tty
    .returned () (ttyShowcursor
      { display := vgaPutchar space tty.column tty.row terminal.display, tty := tty })
  else if c = delete then .returned () terminal
  else ttyPutdefault c terminal

/-- Characters one after the other. -/
def ttyPutchars : List UInt8 → Terminal → Outcome Terminal Unit
  | [], terminal => .returned () terminal
  | c :: rest, terminal =>
      (ttyPutchar c terminal).andThen fun _ terminal => ttyPutchars rest terminal

section Cursor

variable (terminal : Terminal)

/-- In the last column behind the screen, the cursor goes to the next row. -/
theorem scrollifneeded_wraps (wide : terminal.tty.width = 80)
    (last : terminal.tty.column = 80) :
    scrollifneeded terminal = scrollifneeded
      { terminal with tty := { terminal.tty with column := 0, row := terminal.tty.row + 1 } } := by
  have here : terminal.tty.column = terminal.tty.width := last.trans wide.symm
  have there : ¬ (0 : UInt32) = terminal.tty.width := by
    rw [wide]
    decide
  rw [scrollifneeded, if_pos here, scrollifneeded, if_neg there]

/-- On the screen, nothing moves. -/
theorem scrollifneeded_stays (wide : terminal.tty.width = 80) (high : terminal.tty.height = 25)
    (onColumn : terminal.tty.column.toNat < 80) (onRow : terminal.tty.row.toNat < 25) :
    scrollifneeded terminal = .returned () (ttyShowcursor terminal) := by
  have column : terminal.tty.column ≠ terminal.tty.width := by
    rw [wide]
    exact ne_of_toNat_lt onColumn
  have row : terminal.tty.row ≠ terminal.tty.height := by
    rw [high]
    exact ne_of_toNat_lt onRow
  rw [scrollifneeded, if_neg column, if_neg row]
  rfl

/-- In the row behind the screen, everything goes one row up. -/
theorem scrollifneeded_scrolls (wide : terminal.tty.width = 80) (high : terminal.tty.height = 25)
    (onColumn : terminal.tty.column.toNat < 80) (last : terminal.tty.row = 25) :
    scrollifneeded terminal = .returned () (ttyShowcursor
      { display := scrolled terminal.display, tty := { terminal.tty with row := 24 } }) := by
  have column : terminal.tty.column ≠ terminal.tty.width := by
    rw [wide]
    exact ne_of_toNat_lt onColumn
  rw [scrollifneeded, if_neg column, if_pos (last.trans high.symm), vgaScrollup_eq (by decide)]
  simp only [Outcome.returned_within, Outcome.returned_andThen, last]
  rfl

end Cursor

/-- The cursor is on the screen, and so is everything drawn so far. -/
structure OnScreen (terminal : Terminal) : Prop where
  wide : terminal.tty.width = 80
  high : terminal.tty.height = 25
  row : terminal.tty.row.toNat < 25
  column : terminal.tty.column.toNat < 80
  drawn : ∀ index ∈ terminal.display.drawn, index.toNat < 80 * 25

section Steps

variable {terminal : Terminal}

/-- What is drawn on the screen has an index on it. -/
theorem drawn_vgaPutchar (c : UInt8) {display : Display} {x y : UInt32} (onRow : y.toNat < 25)
    (onColumn : x.toNat < 80) (drawn : ∀ index ∈ display.drawn, index.toNat < 80 * 25) :
    ∀ index ∈ (vgaPutchar c x y display).drawn, index.toNat < 80 * 25 := by
  intro index member
  rcases List.mem_append.mp member with earlier | now
  · exact drawn index earlier
  · rw [List.mem_singleton.mp now, index_toNat onRow onColumn]
    omega

/-- One row further down, wrapping and scrolling included, is on the screen. -/
theorem nextRow_onScreen {tty : Tty} {display : Display} (onScreen : OnScreen ⟨display, tty⟩) :
    ∃ after, scrollifneeded ⟨display, { tty with row := tty.row + 1 }⟩ = .returned () after ∧
      OnScreen after := by
  obtain ⟨wide, high, row, column, drawn⟩ := onScreen
  simp only at wide high row column drawn
  have next : (tty.row + 1).toNat = tty.row.toNat + 1 := toNat_add_one (by omega)
  by_cases last : tty.row.toNat = 24
  · have behind : tty.row + 1 = 25 := UInt32.toNat_inj.mp (by rw [next, last]; rfl)
    refine ⟨_, scrollifneeded_scrolls _ wide high column behind, wide, high, ?_, column, drawn⟩
    change (24 : UInt32).toNat < 25
    decide
  · refine ⟨_, scrollifneeded_stays _ wide high column ?_, wide, high, ?_, column, drawn⟩
    · simp only [next]
      omega
    · simp only [ttyShowcursor, next]
      omega

theorem ttyPutdefault_onScreen (c : UInt8) (onScreen : OnScreen terminal) :
    ∃ after, ttyPutdefault c terminal = .returned () after ∧ OnScreen after := by
  obtain ⟨wide, high, row, column, drawn⟩ := onScreen
  have drawn' := drawn_vgaPutchar c row column drawn
  have next : (terminal.tty.column + 1).toNat = terminal.tty.column.toNat + 1 :=
    toNat_add_one (by omega)
  rw [ttyPutdefault]
  by_cases last : terminal.tty.column.toNat = 79
  · have behind : terminal.tty.column + 1 = 80 :=
      UInt32.toNat_inj.mp (by rw [next, last]; rfl)
    have first : (0 : UInt32).toNat < 80 := by decide
    have wrapped : OnScreen
        ⟨vgaPutchar c terminal.tty.column terminal.tty.row terminal.display,
          { terminal.tty with column := 0 }⟩ := ⟨wide, high, row, first, drawn'⟩
    obtain ⟨after, ran, kept⟩ := nextRow_onScreen wrapped
    refine ⟨after, ?_, kept⟩
    rw [← ran]
    apply scrollifneeded_wraps
    · exact wide
    · exact behind
  · have column' : (terminal.tty.column + 1).toNat < 80 := by omega
    exact ⟨_, scrollifneeded_stays _ wide high column' row, wide, high, row, column', drawn'⟩

theorem ttyPutspaces_onScreen (onScreen : OnScreen terminal) (shifting : Nat) :
    ∃ after, ttyPutspaces shifting terminal = .returned () after ∧ OnScreen after := by
  induction shifting generalizing terminal with
  | zero => exact ⟨terminal, rfl, onScreen⟩
  | succ shifting inductionHypothesis =>
      obtain ⟨middle, ran, kept⟩ := ttyPutdefault_onScreen space onScreen
      rw [ttyPutspaces, ran]
      exact inductionHypothesis kept

/-- A backspace keeps the terminal on the screen exactly when there is a column to
go back to. -/
theorem backspace_onScreen (onScreen : OnScreen terminal) :
    OnScreen (ttyShowcursor
        { display := vgaPutchar space (ttyBack terminal.tty).column (ttyBack terminal.tty).row
            terminal.display
          tty := ttyBack terminal.tty }) ↔
      ¬ terminal.tty.column = 0 := by
  obtain ⟨wide, high, row, column, drawn⟩ := onScreen
  constructor
  · rintro ⟨_, _, _, off, _⟩ first
    simp only [ttyShowcursor, ttyBack] at off
    have width : ¬ vgaWidth.toNat < 80 := by decide
    have wrapped : ¬ ((0 : UInt32) - 1).toNat < 80 := by decide
    split at off
    · exact width off
    · rw [first] at off
      exact wrapped off
  · intro later
    have back : ttyBack terminal.tty =
        { terminal.tty with column := terminal.tty.column - 1 } := by
      rw [ttyBack, if_neg fun both => later both.1]
    have positive : 0 < terminal.tty.column.toNat := toNat_pos_iff.mpr later
    have column' : (terminal.tty.column - 1).toNat < 80 := by
      rw [UInt32.toNat_sub, UInt32.toNat_one]
      omega
    rw [back]
    exact ⟨wide, high, row, column', drawn_vgaPutchar space row column' drawn⟩

/-- A character keeps the terminal on the screen unless it is a backspace in
column zero; that one takes it off. -/
theorem ttyPutchar_onScreen (c : UInt8) (onScreen : OnScreen terminal) :
    ∃ after, ttyPutchar c terminal = .returned () after ∧
      (OnScreen after ↔ ¬ (c = backspace ∧ terminal.tty.column = 0)) := by
  have clear : c ≠ backspace → ¬ (c = backspace ∧ terminal.tty.column = 0) :=
    fun different both => different both.1
  rw [ttyPutchar]
  by_cases isReturn : c = carriageReturn
  · rw [if_pos isReturn]
    refine ⟨_, rfl, iff_of_true ?_ (clear (by rw [isReturn]; decide))⟩
    have first : (0 : UInt32).toNat < 80 := by decide
    exact ⟨onScreen.wide, onScreen.high, onScreen.row, first, onScreen.drawn⟩
  rw [if_neg isReturn]
  by_cases isFeed : c = lineFeed
  · rw [if_pos isFeed]
    obtain ⟨after, ran, kept⟩ := nextRow_onScreen onScreen
    exact ⟨after, ran, iff_of_true kept (clear (by rw [isFeed]; decide))⟩
  rw [if_neg isFeed]
  by_cases isTab : c = tabulator
  · rw [if_pos isTab]
    obtain ⟨after, ran, kept⟩ :=
      ttyPutspaces_onScreen onScreen (tabShifting terminal.tty.column).toNat
    exact ⟨after, ran, iff_of_true kept (clear (by rw [isTab]; decide))⟩
  rw [if_neg isTab]
  by_cases isBell : c = bell
  · rw [if_pos isBell]
    exact ⟨terminal, rfl, iff_of_true onScreen (clear (by rw [isBell]; decide))⟩
  rw [if_neg isBell]
  by_cases isBack : c = backspace
  · rw [if_pos isBack]
    refine ⟨_, rfl, ?_⟩
    simp only [isBack, true_and]
    exact backspace_onScreen onScreen
  rw [if_neg isBack]
  by_cases isDelete : c = delete
  · rw [if_pos isDelete]
    exact ⟨terminal, rfl, iff_of_true onScreen (clear isBack)⟩
  · rw [if_neg isDelete]
    obtain ⟨after, ran, kept⟩ := ttyPutdefault_onScreen c onScreen
    exact ⟨after, ran, iff_of_true kept (clear isBack)⟩

end Steps

section Runs

variable {terminal : Terminal} {chars : List UInt8}

theorem ttyPutchars_append (first second : List UInt8) (terminal : Terminal) :
    ttyPutchars (first ++ second) terminal =
      (ttyPutchars first terminal).andThen fun _ terminal => ttyPutchars second terminal := by
  induction first generalizing terminal with
  | nil => rfl
  | cons c first inductionHypothesis =>
      rw [List.cons_append, ttyPutchars, ttyPutchars]
      cases ttyPutchar c terminal with
      | returned value middle => exact inductionHypothesis middle
      | panicked reason middle => rfl
      | diverged middle => rfl

theorem ttyInitialize_onScreen (fresh : terminal.display.drawn = []) :
    OnScreen (ttyInitialize terminal) where
  wide := rfl
  high := rfl
  row := by
    change (0 : UInt32).toNat < 25
    decide
  column := by
    change (0 : UInt32).toNat < 80
    decide
  drawn := by
    change ∀ index ∈ terminal.display.drawn, index.toNat < 80 * 25
    rw [fresh]
    exact fun index member => absurd member (List.not_mem_nil)

/-- After each of the characters the terminal is on the screen. -/
def StaysOnScreen (terminal : Terminal) (chars : List UInt8) : Prop :=
  ∀ first second, chars = first ++ second →
    ∃ after, ttyPutchars first terminal = .returned () after ∧ OnScreen after

/-- No backspace comes while the cursor is in column zero. -/
def BacksWithin (terminal : Terminal) (chars : List UInt8) : Prop :=
  ∀ first second reached, chars = first ++ backspace :: second →
    ttyPutchars first terminal = .returned () reached → reached.tty.column ≠ 0

theorem onScreen_of_backsWithin (onScreen : OnScreen terminal)
    (within : BacksWithin terminal chars) :
    ∃ after, ttyPutchars chars terminal = .returned () after ∧ OnScreen after := by
  induction chars generalizing terminal with
  | nil => exact ⟨terminal, rfl, onScreen⟩
  | cons c chars inductionHypothesis =>
      obtain ⟨middle, ran, kept⟩ := ttyPutchar_onScreen c onScreen
      have inside : ¬ (c = backspace ∧ terminal.tty.column = 0) := by
        rintro ⟨rfl, first⟩
        exact within [] chars terminal rfl rfl first
      have later : BacksWithin middle chars := by
        intro first second reached split reach
        apply within (c :: first) second reached
        · rw [split, List.cons_append]
        · rw [ttyPutchars, ran]
          exact reach
      obtain ⟨after, rest, here⟩ := inductionHypothesis (kept.mpr inside) later
      refine ⟨after, ?_, here⟩
      rw [ttyPutchars, ran]
      exact rest

/-- From the start on, the cursor and everything drawn stay on the screen exactly
when no backspace comes in column zero. -/
theorem tty_stays_onScreen_iff (terminal : Terminal) (fresh : terminal.display.drawn = [])
    (chars : List UInt8) :
    StaysOnScreen (ttyInitialize terminal) chars ↔ BacksWithin (ttyInitialize terminal) chars := by
  have start := ttyInitialize_onScreen fresh
  constructor
  · intro stays first second reached split reach column
    obtain ⟨before, ran, onScreen⟩ := stays first (backspace :: second) split
    cases ran.symm.trans reach
    obtain ⟨after, more, there⟩ := stays (first ++ [backspace]) second (by
      rw [split, List.append_assoc]
      rfl)
    obtain ⟨next, put, kept⟩ := ttyPutchar_onScreen backspace onScreen
    have same : next = after := by
      rw [ttyPutchars_append, reach, Outcome.returned_andThen, ttyPutchars, put] at more
      cases more
      rfl
    exact kept.mp (same ▸ there) ⟨rfl, column⟩
  · intro within first second split
    apply onScreen_of_backsWithin start
    intro early late reached splits reach
    apply within early (late ++ second) reached _ reach
    rw [split, splits, List.append_assoc]
    rfl

/-- The terminal as the machine starts with it, over blank memory. -/
def coldTerminal : Terminal :=
  { display := { memory := fun _ => 0, color := vgaMkcolor .white .black, ports := [], drawn := [] }
    tty :=
      { row := 0
        column := 0
        width := 25
        height := 80
        colorBackground := .black
        colorForeground := .white } }

/-- A backspace that comes first draws at the last index of the address space. -/
theorem tty_backspace_off_screen : ¬ StaysOnScreen (ttyInitialize coldTerminal) [backspace] := by
  intro stays
  obtain ⟨after, ran, onScreen⟩ := stays [backspace] [] rfl
  have drawn : (ttyPutchars [backspace] (ttyInitialize coldTerminal)).state.display.drawn =
      [0xFFFFFFFF] := by
    decide +kernel
  rw [ran, Outcome.state_returned] at drawn
  have index := onScreen.drawn 0xFFFFFFFF (by rw [drawn]; exact List.mem_singleton_self _)
  exact absurd index (by decide)

theorem tty_stays_onScreen_iff_cold :
    StaysOnScreen (ttyInitialize coldTerminal) [0x41, backspace] ↔
      BacksWithin (ttyInitialize coldTerminal) [0x41, backspace] :=
  tty_stays_onScreen_iff coldTerminal rfl [0x41, backspace]

end Runs

end Bootloader.Arch
