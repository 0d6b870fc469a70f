import Bootloader.Libc.StrOperations
import Bootloader.Std.Bytes

/-!
# The screen of the example kernel

The kernel that the bootloader is tested with writes its output into video memory itself, on 24
lines of 80 columns, and begins at the top again behind the last one. Whatever it prints, it
writes nothing but cells of the screen.
-/

namespace Bootloader.Common

open Bootloader.Std Bootloader.Libc

/-- The variables behind the screen, and memory, where its cells are. -/
structure KernelScreen where
  xpos : Int32
  ypos : Int32
  memory : Memory

/-- `VIDEO`. -/
def kernelVideo : UInt32 := 0xB8000

/-- `COLUMNS`. -/
def kernelColumns : Int32 := 80

/-- `LINES`. -/
def kernelLines : Int32 := 24

/-- `ATTRIBUTE`. -/
def kernelAttribute : UInt8 := 7

/-- The bytes of the screen. -/
def kernelScreenBytes : Nat := 3840

/-- `cls`. -/
def cls (memory : Memory) : KernelScreen where
  xpos := 0
  ypos := 0
  memory := (List.range kernelScreenBytes).foldl
    (fun memory i => memory.store8 (kernelVideo.toNat + i) 0) memory

/-- What stands behind the label `newline` in `putchar`. -/
def kernelNewline (screen : KernelScreen) : KernelScreen :=
  let ypos := screen.ypos + 1
  { screen with xpos := 0, ypos := if ypos ≥ kernelLines then 0 else ypos }

/-- Where the next character goes. -/
def KernelScreen.cell (screen : KernelScreen) : UInt32 :=
  kernelVideo + ((screen.xpos + screen.ypos * kernelColumns) * 2).toUInt32

/-- What `putchar` does with a character that is not the end of a line. -/
def KernelScreen.put (c : Int32) (screen : KernelScreen) : KernelScreen :=
  let memory := screen.memory.store8 screen.cell.toNat (c &&& 0xff).toUInt32.toUInt8
  let memory := memory.store8 (screen.cell + 1).toNat kernelAttribute
  { screen with xpos := screen.xpos + 1, memory }

/-- A line that is full ends. -/
def KernelScreen.wrap (screen : KernelScreen) : KernelScreen :=
  if screen.xpos ≥ kernelColumns then kernelNewline screen else screen

/-- `putchar`. -/
def kernelPutchar (screen : KernelScreen) (c : Int32) : KernelScreen :=
  if c = 0x0a ∨ c = 0x0d then kernelNewline screen else (screen.put c).wrap

/-- Characters one behind the other. -/
def kernelPuts (text : List Int32) (screen : KernelScreen) : KernelScreen :=
  text.foldl kernelPutchar screen

/-- A `char` where an `int` is expected. -/
def kernelChar (c : UInt8) : Int32 := c.toInt8.toInt32

/-- One turn of a loop that prints a string. -/
def kernelStringTurn (p : UInt32) (screen : KernelScreen) :
    Outcome KernelScreen (Turn UInt32 Unit) :=
  let c := screen.memory p.toNat
  if c ≠ 0 then .returned (.again (p + 1)) (kernelPutchar screen (kernelChar c))
  else .returned (.leave ()) screen

/-- The cursor is on the screen. -/
structure KernelScreen.Inside (screen : KernelScreen) : Prop where
  left : 0 ≤ screen.xpos.toInt
  right : screen.xpos.toInt < 80
  top : 0 ≤ screen.ypos.toInt
  bottom : screen.ypos.toInt < 24

/-- An address that is not in a cell of the screen. -/
def OffScreen (place : Nat) : Prop := place < 0xB8000 ∨ 0xB8F00 ≤ place

/-- Screens with the cursor in the same place, and the same bytes where it matters. -/
structure KernelScreen.Alike (Where : Nat → Prop) (screen other : KernelScreen) : Prop where
  xpos : screen.xpos = other.xpos
  ypos : screen.ypos = other.ypos
  memory : ∀ place, Where place → screen.memory place = other.memory place

section Screen

variable {screen other : KernelScreen} {text more : List Int32} {c : Int32} {place : Nat}
  {Where : Nat → Prop}

theorem KernelScreen.Alike.refl : screen.Alike Where screen := ⟨rfl, rfl, fun _ _ => rfl⟩

theorem KernelScreen.Alike.trans {last : KernelScreen} (first : screen.Alike Where other)
    (second : other.Alike Where last) : screen.Alike Where last :=
  ⟨first.xpos.trans second.xpos, first.ypos.trans second.ypos, fun place inside =>
    (first.memory place inside).trans (second.memory place inside)⟩

theorem kernelColumns_le_iff {x : Int32} : x ≥ kernelColumns ↔ 80 ≤ x.toInt :=
  Int32.le_iff_toInt_le

theorem kernelLines_le_iff {y : Int32} : y ≥ kernelLines ↔ 24 ≤ y.toInt :=
  Int32.le_iff_toInt_le

/-- A coordinate does not overflow. -/
theorem toInt_add_one {x : Int32} (low : 0 ≤ x.toInt) (high : x.toInt < 80) :
    (x + 1).toInt = x.toInt + 1 := by
  have one : (1 : Int32).toInt = 1 := rfl
  rw [Int32.toInt_add, one]
  exact Int.bmod_eq_of_le (by omega) (by omega)

/-- The cells are in a row, line by line. -/
theorem KernelScreen.Inside.toNat_cell (inside : screen.Inside) :
    screen.cell.toNat = 0xB8000 + 2 * (screen.xpos.toInt + 80 * screen.ypos.toInt).toNat := by
  obtain ⟨left, right, top, bottom⟩ := inside
  have columns : kernelColumns.toInt = 80 := rfl
  have two : (2 : Int32).toInt = 2 := rfl
  have zero : (0 : Int32).toInt = 0 := rfl
  have video : kernelVideo.toNat = 0xB8000 := rfl
  have row : (screen.ypos * kernelColumns).toInt = screen.ypos.toInt * 80 := by
    rw [Int32.toInt_mul, columns]
    exact Int.bmod_eq_of_le (by omega) (by omega)
  have index : (screen.xpos + screen.ypos * kernelColumns).toInt =
      screen.xpos.toInt + screen.ypos.toInt * 80 := by
    rw [Int32.toInt_add, row]
    exact Int.bmod_eq_of_le (by omega) (by omega)
  have offset : ((screen.xpos + screen.ypos * kernelColumns) * 2).toInt =
      (screen.xpos.toInt + screen.ypos.toInt * 80) * 2 := by
    rw [Int32.toInt_mul, index, two]
    exact Int.bmod_eq_of_le (by omega) (by omega)
  have positive : 0 ≤ (screen.xpos + screen.ypos * kernelColumns) * 2 :=
    Int32.le_iff_toInt_le.mpr (by
      rw [offset, zero]
      omega)
  have bytes : ((screen.xpos + screen.ypos * kernelColumns) * 2).toUInt32.toNat =
      ((screen.xpos.toInt + screen.ypos.toInt * 80) * 2).toNat := by
    rw [Int32.toNat_toUInt32_of_le positive, Int32.toNatClampNeg, offset]
  rw [KernelScreen.cell, UInt32.toNat_add, video, bytes]
  omega

/-- The cursor stays on the screen behind the end of a line. -/
theorem kernelNewline_inside (top : 0 ≤ screen.ypos.toInt) (bottom : screen.ypos.toInt < 24) :
    (kernelNewline screen).Inside := by
  have next := toInt_add_one top (by omega)
  have zero : (0 : Int32).toInt = 0 := rfl
  have xpos : (kernelNewline screen).xpos.toInt = 0 := rfl
  by_cases last : screen.ypos + 1 ≥ kernelLines
  · have ypos : (kernelNewline screen).ypos = 0 := if_pos last
    rw [← ypos] at zero
    exact ⟨by omega, by omega, by omega, by omega⟩
  · have ypos : (kernelNewline screen).ypos = screen.ypos + 1 := if_neg last
    rw [kernelLines_le_iff] at last
    rw [← ypos] at last next
    exact ⟨by omega, by omega, by omega, by omega⟩

/-- Whatever is printed, the cursor stays on the screen. -/
theorem kernelPutchar_inside (inside : screen.Inside) (c : Int32) :
    (kernelPutchar screen c).Inside := by
  rw [kernelPutchar]
  by_cases line : c = 0x0a ∨ c = 0x0d
  · rw [if_pos line]
    exact kernelNewline_inside inside.top inside.bottom
  · rw [if_neg line, KernelScreen.wrap]
    have next : (screen.put c).xpos.toInt = screen.xpos.toInt + 1 :=
      toInt_add_one inside.left inside.right
    by_cases full : (screen.put c).xpos ≥ kernelColumns
    · rw [if_pos full]
      exact kernelNewline_inside inside.top inside.bottom
    · rw [if_neg full]
      rw [kernelColumns_le_iff] at full
      have left := inside.left
      exact ⟨by omega, by omega, inside.top, inside.bottom⟩

theorem kernelNewline_memory : (kernelNewline screen).memory = screen.memory := rfl

theorem KernelScreen.wrap_memory : screen.wrap.memory = screen.memory := by
  rw [KernelScreen.wrap]
  split
  · exact kernelNewline_memory
  · rfl

/-- Only the cells of the screen change. -/
theorem kernelPutchar_frame (inside : screen.Inside) (off : OffScreen place) :
    (kernelPutchar screen c).memory place = screen.memory place := by
  rw [kernelPutchar]
  split
  · rw [kernelNewline_memory]
  · obtain ⟨left, right, top, bottom⟩ := inside
    have cell := KernelScreen.Inside.toNat_cell ⟨left, right, top, bottom⟩
    have next : (screen.cell + 1).toNat = screen.cell.toNat + 1 := toNat_add_one (by omega)
    have off : place < 0xB8000 ∨ 0xB8F00 ≤ place := off
    rw [KernelScreen.wrap_memory]
    exact (Memory.store8_of_ne (by omega)).trans (Memory.store8_of_ne (by omega))

theorem kernelNewline_alike (alike : screen.Alike Where other) :
    (kernelNewline screen).Alike Where (kernelNewline other) :=
  ⟨rfl, by rw [kernelNewline, kernelNewline, alike.ypos], alike.memory⟩

theorem KernelScreen.wrap_alike (alike : screen.Alike Where other) :
    screen.wrap.Alike Where other.wrap := by
  rw [KernelScreen.wrap, KernelScreen.wrap, alike.xpos]
  split
  · exact kernelNewline_alike alike
  · exact alike

/-- The same byte is stored in both memories. -/
theorem store8_alike {memory memory' : Memory} {target : Nat} {byte : UInt8}
    (same : memory place = memory' place) :
    memory.store8 target byte place = memory'.store8 target byte place := by
  by_cases here : place = target
  · rw [here, Memory.store8_same, Memory.store8_same]
  · rw [Memory.store8_of_ne here, Memory.store8_of_ne here, same]

theorem KernelScreen.put_alike (alike : screen.Alike Where other) :
    (screen.put c).Alike Where (other.put c) := by
  have cell : screen.cell = other.cell := by
    rw [KernelScreen.cell, alike.xpos, alike.ypos, KernelScreen.cell]
  rw [KernelScreen.put, KernelScreen.put, cell]
  exact ⟨congrArg (· + 1) alike.xpos, alike.ypos,
    fun place inside => store8_alike (store8_alike (alike.memory place inside))⟩

/-- What is printed depends on where the cursor is, and not on what memory holds. -/
theorem kernelPutchar_alike (alike : screen.Alike Where other) :
    (kernelPutchar screen c).Alike Where (kernelPutchar other c) := by
  rw [kernelPutchar, kernelPutchar]
  split
  · exact kernelNewline_alike alike
  · exact KernelScreen.wrap_alike (KernelScreen.put_alike alike)

theorem kernelPuts_cons : kernelPuts (c :: text) screen = kernelPuts text (kernelPutchar screen c) :=
  rfl

theorem kernelPuts_append : kernelPuts (text ++ more) screen = kernelPuts more (kernelPuts text screen) :=
  List.foldl_append

/-- Whatever is printed, the cursor stays on the screen: the induction is on the text. -/
theorem kernelPuts_inside (inside : screen.Inside) : (kernelPuts text screen).Inside := by
  induction text generalizing screen with
  | nil => exact inside
  | cons c text inductionHypothesis => exact inductionHypothesis (kernelPutchar_inside inside c)

/-- Whatever is printed, only the cells of the screen change. -/
theorem kernelPuts_frame (inside : screen.Inside) (off : OffScreen place) :
    (kernelPuts text screen).memory place = screen.memory place := by
  induction text generalizing screen with
  | nil => rfl
  | cons c text inductionHypothesis =>
      exact (inductionHypothesis (kernelPutchar_inside inside c)).trans (kernelPutchar_frame inside off)

theorem kernelPuts_alike (alike : screen.Alike Where other) :
    (kernelPuts text screen).Alike Where (kernelPuts text other) := by
  induction text generalizing screen other with
  | nil => exact alike
  | cons c text inductionHypothesis => exact inductionHypothesis (kernelPutchar_alike alike)

/-- A character in the middle of a line. -/
theorem kernelPutchar_line (inside : screen.Inside) (plain : ¬(c = 0x0a ∨ c = 0x0d))
    (room : screen.xpos.toInt + 1 < 80) : kernelPutchar screen c = screen.put c := by
  have next : (screen.put c).xpos.toInt = screen.xpos.toInt + 1 :=
    toInt_add_one inside.left inside.right
  have short : ¬(screen.put c).xpos ≥ kernelColumns := by
    rw [kernelColumns_le_iff]
    omega
  rw [kernelPutchar, if_neg plain, KernelScreen.wrap, if_neg short]

/-- What a character is in its cell. -/
def cellBytes (c : Int32) : List UInt8 := [(c &&& 0xff).toUInt32.toUInt8, kernelAttribute]

/-- A text that fits in its line stands there, character by character, and the cursor behind it:
the induction is on the text. -/
theorem kernelPuts_line (inside : screen.Inside) (plain : ∀ c ∈ text, ¬(c = 0x0a ∨ c = 0x0d))
    (room : screen.xpos.toInt + text.length < 80) :
    (kernelPuts text screen).ypos = screen.ypos ∧
      (kernelPuts text screen).xpos.toInt = screen.xpos.toInt + text.length ∧
      Memory.Holds (kernelPuts text screen).memory screen.cell.toNat (text.flatMap cellBytes) ∧
      ∀ place, place < screen.cell.toNat →
        (kernelPuts text screen).memory place = screen.memory place := by
  induction text generalizing screen with
  | nil => exact ⟨rfl, (Int.add_zero _).symm, rfl, fun _ _ => rfl⟩
  | cons c text inductionHypothesis =>
      obtain ⟨first, rest⟩ := List.forall_mem_cons.mp plain
      rw [List.length_cons] at room ⊢
      have middle := kernelPutchar_inside inside c
      rw [kernelPutchar_line inside first (by omega)] at middle
      have next : (screen.put c).xpos.toInt = screen.xpos.toInt + 1 :=
        toInt_add_one inside.left inside.right
      have row : (screen.put c).ypos = screen.ypos := rfl
      have place := inside.toNat_cell
      have behind := middle.toNat_cell
      rw [next, row] at behind
      have left := inside.left
      have top := inside.top
      have step : (screen.put c).cell.toNat = screen.cell.toNat + 2 := by omega
      have second : (screen.cell + 1).toNat = screen.cell.toNat + 1 := toNat_add_one (by
        have bottom := inside.bottom
        omega)
      obtain ⟨ypos, xpos, shown, kept⟩ := inductionHypothesis middle rest (by omega)
      rw [kernelPuts_cons, kernelPutchar_line inside first (by omega)]
      refine ⟨ypos, by omega, ?_, fun other below => ?_⟩
      · rw [List.flatMap_cons]
        refine Memory.holds_append.mpr ⟨?_, step ▸ shown⟩
        have character : (screen.put c).memory screen.cell.toNat = (c &&& 0xff).toUInt32.toUInt8 :=
          (Memory.store8_of_ne (by omega)).trans (Memory.store8_same ..)
        have colour : (screen.put c).memory (screen.cell.toNat + 1) = kernelAttribute :=
          second ▸ Memory.store8_same ..
        rw [cellBytes, Memory.Holds, List.length_cons, List.length_singleton, Memory.loadBytes,
          Memory.loadBytes, Memory.loadBytes, kept _ (by omega), kept _ (by omega), character,
          colour]
      · rw [kept other (by omega)]
        exact (Memory.store8_of_ne (by omega)).trans (Memory.store8_of_ne (by omega))

/-- A string that is not on the screen is printed. -/
theorem kernelString_prints {p : UInt32} {bytes : List UInt8} (string : CString screen.memory p bytes)
    (inside : screen.Inside)
    (off : ∀ place, p.toNat ≤ place → place ≤ p.toNat + bytes.length → OffScreen place)
    (turns : Nat) (enough : bytes.length < turns) :
    loop kernelStringTurn turns p screen = .returned () (kernelPuts (bytes.map kernelChar) screen) := by
  obtain ⟨turns, rfl⟩ := Nat.exists_eq_succ_of_ne_zero (Nat.ne_zero_of_lt enough)
  induction bytes generalizing p screen turns with
  | nil => exact loop_leave (if_neg (not_not_intro string.2))
  | cons c bytes inductionHypothesis =>
      have next := string.toNat_next
      have turn : kernelStringTurn p screen =
          .returned (.again (p + 1)) (kernelPutchar screen (kernelChar c)) := by
        rw [kernelStringTurn, string.2.2.1]
        exact if_pos string.2.1
      rw [List.length_cons] at off enough
      obtain ⟨turns, rfl⟩ : ∃ fewer, turns = fewer + 1 := ⟨turns - 1, by omega⟩
      have rest : CString (kernelPutchar screen (kernelChar c)).memory (p + 1) bytes :=
        string.2.2.2.congr fun place above below =>
          kernelPutchar_frame inside (off place (by omega) (by omega))
      rw [loop_again turn]
      exact inductionHypothesis rest (kernelPutchar_inside inside _)
        (fun place above below => off place (by omega) (by omega)) turns (by omega)

/-- `cls` begins at the top. -/
theorem cls_inside (memory : Memory) : (cls memory).Inside := by
  have zero : (0 : Int32).toInt = 0 := rfl
  have xpos : (cls memory).xpos.toInt = 0 := zero
  have ypos : (cls memory).ypos.toInt = 0 := zero
  exact ⟨by omega, by omega, by omega, by omega⟩

/-- The loop of `cls`, as far as it has come. -/
theorem cls_loop (count : Nat) (memory : Memory) (place : Nat) :
    (List.range count).foldl (fun memory i => memory.store8 (kernelVideo.toNat + i) 0) memory place =
      if kernelVideo.toNat ≤ place ∧ place < kernelVideo.toNat + count then 0 else memory place := by
  induction count with
  | zero =>
      rw [if_neg (by omega)]
      rfl
  | succ count inductionHypothesis =>
      rw [List.range_succ, List.foldl_append, List.foldl_cons, List.foldl_nil]
      by_cases last : place = kernelVideo.toNat + count
      · rw [last, Memory.store8_same, if_pos (by omega)]
      · rw [Memory.store8_of_ne last, inductionHypothesis]
        exact if_congr (by omega) rfl rfl

/-- `cls` clears the cells of the screen, and nothing else. -/
theorem cls_memory (memory : Memory) (place : Nat) :
    (cls memory).memory place =
      if kernelVideo.toNat ≤ place ∧ place < kernelVideo.toNat + kernelScreenBytes then 0
      else memory place := by
  simp only [cls]
  rw [cls_loop]

end Screen

/-- Two letters on a screen that is clear. -/
theorem kernelPuts_line_cleared : (kernelPuts [0x6f, 0x6b] (cls fun _ => 7)).ypos = 0 ∧
    (kernelPuts [0x6f, 0x6b] (cls fun _ => 7)).xpos.toInt = 2 ∧
    Memory.Holds (kernelPuts [0x6f, 0x6b] (cls fun _ => 7)).memory 0xB8000 [0x6f, 7, 0x6b, 7] := by
  have inside := cls_inside fun _ => 7
  have plain : ∀ c ∈ [(0x6f : Int32), 0x6b], ¬(c = 0x0a ∨ c = 0x0d) := by
    simp only [List.forall_mem_cons, List.not_mem_nil, false_implies, implies_true, and_true]
    decide
  have cell : (cls fun _ => 7).cell.toNat = 0xB8000 := inside.toNat_cell
  obtain ⟨ypos, xpos, shown, -⟩ :=
    @kernelPuts_line (cls fun _ => 7) [0x6f, 0x6b] inside plain (by decide : (0 : Int) + 2 < 80)
  rw [cell] at shown
  exact ⟨ypos, xpos, shown⟩

end Bootloader.Common
