import Bootloader.Arch.TtyPage

/-!
# Backspace behind a character

A backspace goes back over the character in front of the cursor. Where that character
has taken the cursor to the next row, the way back leads to the column behind the last
one, which is none of the screen. `backspace_undoes_iff` says that this is the only
place where a character cannot be taken back.
-/

namespace Bootloader.Arch

open Bootloader.Std

/-- The printable characters of seven bits. -/
def Printable (c : UInt8) : Prop := 0x20 ≤ c ∧ c ≤ 0x7E

instance : DecidablePred Printable :=
  fun c => inferInstanceAs (Decidable (0x20 ≤ c ∧ c ≤ 0x7E))

/-- A character written here takes the whole screen up by a row. -/
def Tty.Scrolls (tty : Tty) : Prop := tty.column = 79 ∧ tty.row = 24

instance (tty : Tty) : Decidable tty.Scrolls :=
  inferInstanceAs (Decidable (tty.column = 79 ∧ tty.row = 24))

/-- The row in which a character written here is found afterwards. -/
def Tty.writtenRow (tty : Tty) : UInt32 := if tty.Scrolls then tty.row - 1 else tty.row

/-- A backspace behind a character leaves the cursor on its cell and that cell blank, and
all others as they were. -/
def BackspaceUndoes (c : UInt8) (terminal : Terminal) : Prop :=
  ∃ written undone, ttyPutchar c terminal = .returned () written ∧
    ttyPutchar backspace written = .returned () undone ∧
    undone.tty.row = terminal.tty.writtenRow ∧ undone.tty.column = terminal.tty.column ∧
    ∀ row column, row < 25 → column < 80 →
      undone.display.screen row column =
        if row = terminal.tty.writtenRow.toNat ∧ column = terminal.tty.column.toNat then
          written.display.blank
        else written.display.screen row column

section Undo

variable {terminal : Terminal} {c color : UInt8} {page : Page Glyph}

/-- Printable characters take the default case. -/
theorem ttyPutchar_printable (printable : Printable c) (terminal : Terminal) :
    ttyPutchar c terminal = ttyPutdefault c terminal := by
  have other (special : UInt8) (outside : ¬ Printable special) : c ≠ special :=
    fun same => outside (same ▸ printable)
  rw [ttyPutchar, if_neg (other _ (by decide)), if_neg (other _ (by decide)),
    if_neg (other _ (by decide)), if_neg (other _ (by decide)), if_neg (other _ (by decide)),
    if_neg (other _ (by decide))]

/-- What a backspace does, whatever is on the screen. -/
theorem ttyPutchar_backspace (terminal : Terminal) :
    ttyPutchar backspace terminal = .returned () (ttyShowcursor
      { display := vgaPutchar space (ttyBack terminal.tty).column (ttyBack terminal.tty).row
          terminal.display
        tty := ttyBack terminal.tty }) := by
  rw [ttyPutchar, if_neg (by decide), if_neg (by decide), if_neg (by decide), if_neg (by decide),
    if_pos rfl]

/-- Before the last column, a character moves the cursor on by one. -/
theorem ttyPutchar_within (printable : Printable c) (simulates : Simulates color terminal page)
    (within : terminal.tty.column.toNat < 79) :
    ttyPutchar c terminal = .returned () (ttyShowcursor
      { display := vgaPutchar c terminal.tty.column terminal.tty.row terminal.display
        tty := { terminal.tty with column := terminal.tty.column + 1 } }) := by
  have next : (terminal.tty.column + 1).toNat = terminal.tty.column.toNat + 1 :=
    toNat_add_one (by omega)
  rw [ttyPutchar_printable printable, ttyPutdefault]
  apply scrollifneeded_stays
  · exact simulates.wide
  · exact simulates.high
  · simp only [next]
    omega
  · exact simulates.onRow

/-- Before the last column, the backspace finds its way back. -/
theorem backspaceUndoes_within (printable : Printable c)
    (simulates : Simulates color terminal page) (within : terminal.tty.column.toNat < 79) :
    BackspaceUndoes c terminal := by
  have next : (terminal.tty.column + 1).toNat = terminal.tty.column.toNat + 1 :=
    toNat_add_one (by omega)
  have still : ¬ terminal.tty.Scrolls := fun scrolls => by
    have last : terminal.tty.column.toNat = 79 := by rw [scrolls.1]; rfl
    omega
  have back : ttyBack { terminal.tty with column := terminal.tty.column + 1 } = terminal.tty := by
    have nonzero : ¬ terminal.tty.column + 1 = 0 := toNat_pos_iff.mp (by omega)
    rw [ttyBack, if_neg fun both => nonzero both.1]
    simp only [UInt32.add_sub_cancel]
  refine ⟨_, _, ttyPutchar_within printable simulates within, ttyPutchar_backspace _, ?_⟩
  rw [Tty.writtenRow, if_neg still]
  simp only [ttyShowcursor, back, screen_vgaMvcursor]
  refine ⟨trivial, trivial, fun row column _ onColumn => ?_⟩
  rw [screen_vgaPutchar simulates.onRow simulates.onColumn onColumn]
  rfl

/-- Behind the last column, it goes one column too little back. -/
theorem not_backspaceUndoes_last (printable : Printable c)
    (simulates : Simulates color terminal page) (last : terminal.tty.column.toNat = 79) :
    ¬ BackspaceUndoes c terminal := by
  rintro ⟨written, undone, wrote, back, _, column, _⟩
  have ascii : c.toNat < 128 := by
    have below := UInt8.le_iff_toNat_le.mp printable.2
    exact Nat.lt_of_le_of_lt below (by decide)
  obtain ⟨after, ran, kept⟩ := ttyPutdefault_simulates (vgaMkentry_ascii ascii color) simulates
  rw [ttyPutchar_printable printable, ran] at wrote
  cases wrote
  rw [ttyPutchar_backspace] at back
  cases back
  have endOfRow : page.column + 1 = 80 := by
    rw [← simulates.column, last]
  have first : written.tty.column = 0 := by
    apply UInt32.toNat_inj.mp
    rw [kept.column, Page.put_last endOfRow]
    rfl
  have there : (ttyBack written.tty).column.toNat = 79 := (congrArg UInt32.toNat column).trans last
  have width : ¬ vgaWidth.toNat = 79 := by decide
  have wrapped : ¬ ((0 : UInt32) - 1).toNat = 79 := by decide
  rw [ttyBack] at there
  split at there
  · exact width there
  · rw [first] at there
    exact wrapped there

end Undo

section Runs

variable {chars : List UInt8} {c : UInt8}

/-- Printable characters and ends of lines are in step with a page. -/
theorem plain_of_printable
    (typed : ∀ c ∈ chars, Printable c ∨ c = carriageReturn ∨ c = lineFeed) :
    ∀ c ∈ chars, c.toNat < 128 ∧ c ≠ backspace := by
  intro c member
  rcases typed c member with printable | rfl | rfl
  · have below := UInt8.le_iff_toNat_le.mp printable.2
    refine ⟨Nat.lt_of_le_of_lt below (by decide), ?_⟩
    rintro rfl
    exact absurd printable.1 (by decide)
  · exact ⟨by decide, by decide⟩
  · exact ⟨by decide, by decide⟩

/-- Wherever printable characters and ends of lines have taken the cursor, a backspace
takes the next character back exactly when that was not written in the last column. -/
theorem backspace_undoes_iff (terminal : Terminal)
    (typed : ∀ c ∈ chars, Printable c ∨ c = carriageReturn ∨ c = lineFeed)
    (printable : Printable c) :
    ∃ reached, ttyPutchars chars (ttyInitialize terminal) = .returned () reached ∧
      (BackspaceUndoes c reached ↔ reached.tty.column ≠ 79) := by
  obtain ⟨reached, ran, simulates⟩ := ttyPutchars_simulates (plain_of_printable typed)
    (ttyInitialize_simulates terminal)
  refine ⟨reached, ran, fun undoes last => ?_, fun other => ?_⟩
  · exact not_backspaceUndoes_last printable simulates (congrArg UInt32.toNat last) undoes
  · have different : reached.tty.column.toNat ≠ 79 :=
      fun same => other (UInt32.toNat_inj.mp same)
    exact backspaceUndoes_within printable simulates (by have := simulates.onColumn; omega)

theorem backspace_undoes_iff_first :
    ∃ reached, ttyPutchars [0x61, lineFeed] (ttyInitialize coldTerminal) = .returned () reached ∧
      (BackspaceUndoes 0x62 reached ↔ reached.tty.column ≠ 79) :=
  backspace_undoes_iff coldTerminal (by decide +kernel) (by decide)

/-- The eightieth character of a line is not taken back. -/
theorem backspace_misses_last_column :
    ¬ ∀ chars : List UInt8,
      (∀ c ∈ chars, Printable c ∨ c = carriageReturn ∨ c = lineFeed) → ∀ c, Printable c →
        ∀ reached, ttyPutchars chars (ttyInitialize coldTerminal) = .returned () reached →
          BackspaceUndoes c reached := by
  intro undoes
  have typed : ∀ c ∈ List.replicate 79 (0x61 : UInt8),
      Printable c ∨ c = carriageReturn ∨ c = lineFeed :=
    fun c member => Or.inl (List.eq_of_mem_replicate member ▸ by decide)
  obtain ⟨reached, ran, simulates⟩ := ttyPutchars_simulates (plain_of_printable typed)
    (ttyInitialize_simulates coldTerminal)
  have last : (ttyPutchars (List.replicate 79 0x61) (ttyInitialize coldTerminal)).state.tty.column =
      79 := by
    decide +kernel
  rw [ran, Outcome.state_returned] at last
  have printable : Printable 0x61 := by decide
  exact not_backspaceUndoes_last printable simulates (congrArg UInt32.toNat last)
    (undoes _ typed 0x61 printable reached ran)

end Runs

end Bootloader.Arch
