import Bootloader.Arch.TtyPage

/-!
# The colours on the screen

An entry has its character in the low byte and its colours in the high one.
`tty_keeps_colour_iff` says when all entries have the colours of the screen: a `char` is
signed, and the sign of one from 0x80 on goes over the colours of its entry.
-/

namespace Bootloader.Arch

open Bootloader.Std

/-- The characters that are on a page when these have been typed on an empty one. -/
def typed (chars : List UInt8) : Page UInt8 :=
  chars.foldl (fun page c => types id c page) (Page.empty space)

/-- The character in an entry. -/
def charByte (entry : UInt16) : UInt8 := entry.toUInt8

/-- The colours in an entry. -/
def colorByte (entry : UInt16) : UInt8 := (entry >>> 8).toUInt8

/-- Every entry of the screen has the colours of the screen and the character that was typed
there last. -/
def KeepsColour (terminal : Terminal) (chars : List UInt8) : Prop :=
  ∃ after, ttyPutchars chars (ttyInitialize terminal) = .returned () after ∧
    ∀ row < 25, ∀ column < 80,
      colorByte (after.display.screen row column) = after.display.color ∧
        charByte (after.display.screen row column) = (typed chars).window 25 row column

/-- The glyph that a character is shown as. -/
def shown (color c : UInt8) : Glyph where
  char := c
  color := if c < 128 then color else 0xFF

section Entries

variable {color c : UInt8} {glyph : Glyph}

theorem toNat_entry : glyph.entry.toNat = glyph.char.toNat + 256 * glyph.color.toNat := by
  have char := glyph.char.toNat_lt
  have color := glyph.color.toNat_lt
  rw [Glyph.entry, UInt16.toNat_or, UInt16.toNat_shiftLeft, UInt8.toNat_toUInt16,
    UInt8.toNat_toUInt16, Nat.or_comm]
  have shifted : glyph.color.toNat <<< ((8 : UInt16).toNat % 16) % 2 ^ 16 =
      2 ^ 8 * glyph.color.toNat := by
    rw [Nat.shiftLeft_eq]
    change glyph.color.toNat * 2 ^ 8 % 2 ^ 16 = _
    omega
  rw [shifted, ← Nat.two_pow_add_eq_or_of_lt char]
  omega

theorem charByte_entry : charByte glyph.entry = glyph.char := by
  have char := glyph.char.toNat_lt
  apply UInt8.toNat_inj.mp
  rw [charByte, UInt16.toNat_toUInt8, toNat_entry]
  omega

theorem colorByte_entry : colorByte glyph.entry = glyph.color := by
  have char := glyph.char.toNat_lt
  have color := glyph.color.toNat_lt
  apply UInt8.toNat_inj.mp
  rw [colorByte, UInt16.toNat_toUInt8, UInt16.toNat_shiftRight, toNat_entry,
    Nat.shiftRight_eq_div_pow]
  change (glyph.char.toNat + 256 * glyph.color.toNat) / 2 ^ 8 % 2 ^ 8 = _
  omega

/-- The entry of a character, whatever its sign. -/
theorem vgaMkentry_shown (color c : UInt8) : vgaMkentry c color = (shown color c).entry := by
  by_cases ascii : c < 128
  · rw [shown, if_pos ascii]
    exact vgaMkentry_ascii (UInt8.lt_iff_toNat_lt.mp ascii) color
  · have widened : ∀ code < 256, ¬ UInt8.ofNat code < 128 →
        (UInt8.ofNat code).toInt8.toInt16.toUInt16 =
          0xFF00 ||| (UInt8.ofNat code).toUInt16 := by
      decide +kernel
    have absorbed : ∀ code < 256,
        (0xFF00 : UInt16) ||| (UInt8.ofNat code).toUInt16 <<< 8 = 0xFF00 := by
      decide +kernel
    have wide := widened c.toNat c.toNat_lt
    have full := absorbed color.toNat color.toNat_lt
    rw [UInt8.ofNat_toNat] at wide full
    rw [vgaMkentry, wide ascii, shown, if_neg ascii, Glyph.entry, UInt16.or_comm 0xFF00,
      UInt16.or_assoc, full]
    rfl

end Entries

section Runs

variable {chars : List UInt8} {terminal : Terminal}

/-- The glyphs on the page are those of the characters typed. -/
theorem map_typed (chars : List UInt8) (page : Page UInt8) (sign : UInt8 → Glyph) :
    (chars.foldl (fun page c => types id c page) page).map sign =
      chars.foldl (fun page c => types sign c page) (page.map sign) := by
  have one (c : UInt8) (page : Page UInt8) :
      (types id c page).map sign = types sign c (page.map sign) := by
    simp only [types, apply_ite (Page.map sign), Page.map_put, Page.map_puts]
    rfl
  induction chars generalizing page with
  | nil => rfl
  | cons c chars inductionHypothesis =>
      rw [List.foldl_cons, List.foldl_cons, inductionHypothesis, one]

/-- What the screen shows of the characters typed. -/
theorem screen_typed (terminal : Terminal) (forward : ∀ c ∈ chars, c ≠ backspace) :
    ∃ after, ttyPutchars chars (ttyInitialize terminal) = .returned () after ∧
      after.display.color = greenOnBlack ∧ ∀ row < 25, ∀ column < 80,
        after.display.screen row column =
          (shown greenOnBlack ((typed chars).window 25 row column)).entry := by
  obtain ⟨after, ran, kept⟩ := ttyPutchars_types (fun c _ => vgaMkentry_shown greenOnBlack c)
    (vgaMkentry_shown greenOnBlack space) forward (ttyInitialize_simulates terminal)
  refine ⟨after, ran, kept.colored, fun row onRow column onColumn => ?_⟩
  have page : (typed chars).map (shown greenOnBlack) = chars.foldl
      (fun page c => types (shown greenOnBlack) c page)
      (Page.empty { char := space, color := greenOnBlack }) := map_typed chars _ _
  rw [kept.cells row column onRow onColumn, ← page, Page.window_map]

/-- All entries keep the colours of the screen exactly when no character from 0x80 on is left
on it. -/
theorem tty_keeps_colour_iff (terminal : Terminal) (forward : ∀ c ∈ chars, c ≠ backspace) :
    KeepsColour terminal chars ↔
      ∀ row < 25, ∀ column < 80, (typed chars).window 25 row column < 128 := by
  obtain ⟨after, ran, colored, cells⟩ := screen_typed terminal forward
  have green : greenOnBlack ≠ 0xFF := by decide
  constructor
  · rintro ⟨after', ran', keeps⟩ row onRow column onColumn
    rw [ran] at ran'
    cases ran'
    have kept := (keeps row onRow column onColumn).1
    rw [cells row onRow column onColumn, colorByte_entry, colored, shown] at kept
    by_contra wide
    exact green (kept.symm.trans (if_neg wide))
  · intro ascii
    refine ⟨after, ran, fun row onRow column onColumn => ?_⟩
    rw [cells row onRow column onColumn, colorByte_entry, charByte_entry, colored]
    exact ⟨if_pos (ascii row onRow column onColumn), rfl⟩

/-- Behind a carriage return the first character is written over. -/
theorem tty_keeps_colour_iff_overwritten :
    KeepsColour coldTerminal [0xE9, carriageReturn, 0x65] ↔
      ∀ row < 25, ∀ column < 80,
        (typed [0xE9, carriageReturn, 0x65]).window 25 row column < 128 :=
  tty_keeps_colour_iff coldTerminal (by decide +kernel)

/-- A character from 0x80 on has other colours. -/
theorem tty_loses_colour : ¬ KeepsColour coldTerminal [0xE9] := by
  rintro ⟨after, ran, keeps⟩
  have kept := (keeps 0 (by decide) 0 (by decide)).1
  have differs : ¬ colorByte ((ttyPutchars [0xE9] (ttyInitialize coldTerminal)).state.display.screen
      0 0) = (ttyPutchars [0xE9] (ttyInitialize coldTerminal)).state.display.color := by
    decide +kernel
  rw [ran] at differs
  exact differs kept

end Runs

end Bootloader.Arch
