import Bootloader.Libc.Printf
import Bootloader.Std.Reach

/-!
# `getdelim`

What is typed is read character by character, into a buffer and, where that is asked for,
back to the console. `getdelim_edits_line` says that the buffer holds the line as it has
been edited, and that the console shows as much of it at any time.
-/

namespace Bootloader.Libc

open Bootloader.Std

/-- `'\b'`. -/
def backspace : UInt8 := 0x08

/-- `'\r'`. -/
def carriageReturn : UInt8 := 0x0D

/-- `'\n'`. -/
def lineFeed : UInt8 := 0x0A

/-- The console, and the characters that will be typed. -/
structure LineInput where
  console : Console
  typed : List UInt8

/-- `putc`. -/
def LineInput.putc (c : UInt8) (input : LineInput) : LineInput :=
  { input with console := Libc.putc c input.console }

/-- Store a byte. -/
def LineInput.store8 (address : Nat) (byte : UInt8) (input : LineInput) : LineInput :=
  { input with
    console := { input.console with memory := input.console.memory.store8 address byte } }

/-- `getc`: it waits for a character that never comes when nothing more is typed. -/
def getc (input : LineInput) : Outcome LineInput UInt8 :=
  match input.typed with
  | [] => .diverged input
  | c :: rest => .returned c { input with typed := rest }

/-- The rest of a turn of the loop in `getdelim`, behind `getc`. -/
def getdelimKeep (buf : UInt32) (delim : UInt8) (verbose : Bool) (n : UInt32) (c : UInt8)
    (input : LineInput) : Outcome LineInput (Turn UInt32 UInt32) :=
  let kept := if c ≠ backspace then n + 1 else n
  let input := if c ≠ backspace then input.store8 (buf + n).toNat c else input
  if c = delim then .returned (.leave kept) ((input.putc carriageReturn).putc lineFeed)
  else
    .returned (.again (if c = backspace ∧ kept > 0 then kept - 1 else kept))
      (if verbose ∧ kept > 0 then input.putc c else input)

/-- One turn of the loop in `getdelim`. -/
def getdelimTurn (buf len : UInt32) (delim : UInt8) (verbose : Bool) (n : UInt32)
    (input : LineInput) : Outcome LineInput (Turn UInt32 UInt32) :=
  if n < len then (getc input).andThen (getdelimKeep buf delim verbose n)
  else .returned (.leave n) input

/-- `getdelim`. Every turn takes a character. -/
def getdelim (buf len : UInt32) (delim : UInt8) (verbose : Bool) (input : LineInput) :
    Outcome LineInput UInt32 :=
  if buf = 0 then .panicked "buf != NULL" input
  else
    (loop (getdelimTurn buf len delim verbose) (input.typed.length + 1) 0 input).andThen
      fun n input =>
        .returned n (if n < len then input.store8 (buf + n).toNat 0 else input)

/-- What a character does to a line. -/
def edit (line : List UInt8) (c : UInt8) : List UInt8 :=
  if c = backspace then line.dropLast else line ++ [c]

/-- The line that has been typed. -/
def edited (consumed : List UInt8) : List UInt8 := consumed.foldl edit []

/-- These characters complete a line: with a delimiter, or because there is no room for
more, and none of them was typed behind that. -/
structure Completes (len : Nat) (delim : UInt8) (consumed : List UInt8) : Prop where
  unfinished : ∀ earlier, earlier <+: consumed → earlier ≠ consumed →
    delim ∉ earlier ∧ (edited earlier).length < len
  finished : delim ∈ consumed ∨ (edited consumed).length = len

/-- The console shows as many characters as the line has, the delimiter apart. -/
def Balanced (delim : UInt8) (shown line : List UInt8) : Prop :=
  (shown.countP (· ≠ backspace) : Int) - shown.count backspace = line.countP (· ≠ delim)

/-- What `getdelim` has read, and what it leaves in memory and on the console. -/
structure HasRead (buf len : UInt32) (delim : UInt8) (verbose : Bool) (before : LineInput)
    (consumed : List UInt8) (n : UInt32) (after : LineInput) : Prop where
  typed : before.typed = consumed ++ after.typed
  completes : Completes len.toNat delim consumed
  count : n.toNat = (edited consumed).length
  held : after.console.memory.loadBytes buf.toNat n.toNat = edited consumed
  frame : ∀ place, place < buf.toNat ∨ buf.toNat + len.toNat ≤ place →
    after.console.memory place = before.console.memory place
  echoed : verbose = true → ∃ shown,
    after.console.out = before.console.out ++ shown ++
      (if delim ∈ consumed then [carriageReturn, lineFeed] else []) ∧
    Balanced delim shown (edited consumed)

/-- The line is a string, as long as there is room for the terminator. -/
structure ReadsLine (buf len : UInt32) (delim : UInt8) (verbose : Bool) (before : LineInput)
    (consumed : List UInt8) (n : UInt32) (after : LineInput) : Prop
    extends HasRead buf len delim verbose before consumed n after where
  terminated : n < len → after.console.memory (buf.toNat + n.toNat) = 0

/-- What there is to say each time `getdelim` looks for the next character. -/
structure LineSoFar (buf len : UInt32) (delim : UInt8) (verbose : Bool) (before : LineInput)
    (point : UInt32 × LineInput) : Prop where
  frame : ∀ place, place < buf.toNat ∨ buf.toNat + len.toNat ≤ place →
    point.2.console.memory place = before.console.memory place
  echoed : verbose = true → ∃ consumed shown, before.typed = consumed ++ point.2.typed ∧
    point.2.console.out = before.console.out ++ shown ∧
    Balanced delim shown (edited consumed)

/-- The invariant of the loop: the line is not complete yet. -/
structure Editing (buf len : UInt32) (delim : UInt8) (verbose : Bool) (before : LineInput)
    (consumed : List UInt8) (n : UInt32) (input : LineInput) : Prop where
  typed : before.typed = consumed ++ input.typed
  absent : delim ∉ consumed
  early : ∀ earlier, earlier <+: consumed → earlier ≠ consumed →
    (edited earlier).length < len.toNat
  count : n.toNat = (edited consumed).length
  room : n.toNat ≤ len.toNat
  held : input.console.memory.loadBytes buf.toNat n.toNat = edited consumed
  frame : ∀ place, place < buf.toNat ∨ buf.toNat + len.toNat ≤ place →
    input.console.memory place = before.console.memory place
  echoed : verbose = true → ∃ shown, input.console.out = before.console.out ++ shown ∧
    shown.countP (· ≠ backspace) = shown.count backspace + (edited consumed).length

section Lines

variable {consumed shown : List UInt8} {c delim : UInt8} {len : Nat}

theorem edited_concat (consumed : List UInt8) (c : UInt8) :
    edited (consumed ++ [c]) = edit (edited consumed) c := by
  rw [edited, List.foldl_append]
  rfl

theorem edited_backspace (consumed : List UInt8) :
    edited (consumed ++ [backspace]) = (edited consumed).dropLast := by
  rw [edited_concat, edit, if_pos rfl]

theorem edited_other (consumed : List UInt8) (other : c ≠ backspace) :
    edited (consumed ++ [c]) = edited consumed ++ [c] := by
  rw [edited_concat, edit, if_neg other]

/-- Nothing but what has been typed is in the line. -/
theorem mem_of_mem_edited (member : c ∈ edited consumed) : c ∈ consumed := by
  induction consumed using List.reverseRecOn with
  | nil => cases member
  | append_singleton consumed last inductionHypothesis =>
      rw [List.mem_append, List.mem_singleton]
      rw [edited_concat, edit] at member
      split at member
      · exact Or.inl (inductionHypothesis ((List.dropLast_sublist _).subset member))
      · rw [List.mem_append, List.mem_singleton] at member
        exact member.imp_left inductionHypothesis

/-- In a line without a delimiter every character counts. -/
theorem countP_edited (absent : delim ∉ consumed) :
    (edited consumed).countP (· ≠ delim) = (edited consumed).length := by
  rw [List.countP_eq_length]
  intro c member
  have different : c ≠ delim := fun same => absent (mem_of_mem_edited (same ▸ member))
  exact decide_eq_true different

/-- The delimiter itself is not counted. -/
theorem countP_edited_concat (absent : delim ∉ consumed) (visible : delim ≠ backspace) :
    (edited (consumed ++ [delim])).countP (· ≠ delim) = (edited consumed).length := by
  rw [edited_other consumed visible, List.countP_append, countP_edited absent]
  simp

end Lines

section Turns

variable {buf len n : UInt32} {delim c : UInt8} {verbose : Bool} {before input : LineInput}
  {consumed rest : List UInt8}

/-- Before there is a character that fills the line, none of what is typed completes it. -/
theorem Editing.early_concat
    (editing : Editing buf len delim verbose before consumed n input) (within : n < len)
    (earlier : List UInt8) (part : earlier <+: consumed ++ [c])
    (less : earlier ≠ consumed ++ [c]) :
    delim ∉ earlier ∧ (edited earlier).length < len.toNat := by
  rcases List.prefix_concat_iff.mp part with same | inside
  · exact absurd same less
  · refine ⟨fun member => editing.absent (inside.subset member), ?_⟩
    by_cases whole : earlier = consumed
    · have below := UInt32.lt_iff_toNat_lt.mp within
      rw [whole, ← editing.count]
      exact below
    · exact editing.early earlier inside whole

/-- The character that is next is taken from what is typed. -/
theorem Editing.typed_concat
    (editing : Editing buf len delim verbose before consumed n input)
    (next : input.typed = c :: rest) : before.typed = consumed ++ [c] ++ rest := by
  rw [editing.typed, next, List.append_assoc, List.singleton_append]

/-- Another character that is not the delimiter leaves it absent. -/
theorem Editing.absent_concat
    (editing : Editing buf len delim verbose before consumed n input) (inner : c ≠ delim) :
    delim ∉ consumed ++ [c] := by
  rw [List.mem_append, List.mem_singleton]
  exact not_or.mpr ⟨editing.absent, inner.symm⟩

/-- The place of the next character. -/
theorem Editing.place (fits : buf.toNat + len.toNat ≤ 2 ^ 32) (within : n < len) :
    (buf + n).toNat = buf.toNat + n.toNat := by
  have below := UInt32.lt_iff_toNat_lt.mp within
  exact toNat_add_of_lt (by omega)

theorem Editing.toNat_next (within : n < len) : (n + 1).toNat = n.toNat + 1 := by
  have below := UInt32.lt_iff_toNat_lt.mp within
  have bound := len.toNat_lt
  exact toNat_add_one (by omega)

/-- A character is stored behind the line. -/
theorem Editing.held_store (fits : buf.toNat + len.toNat ≤ 2 ^ 32) (within : n < len)
    (editing : Editing buf len delim verbose before consumed n input) (other : c ≠ backspace) :
    (input.store8 (buf + n).toNat c).console.memory.loadBytes buf.toNat (n + 1).toNat =
      edited (consumed ++ [c]) := by
  rw [Editing.place fits within, Editing.toNat_next within, edited_other consumed other,
    ← editing.held]
  exact Memory.loadBytes_store8_behind

theorem Editing.frame_store (fits : buf.toNat + len.toNat ≤ 2 ^ 32) (within : n < len)
    (editing : Editing buf len delim verbose before consumed n input) {place : Nat}
    (outside : place < buf.toNat ∨ buf.toNat + len.toNat ≤ place) :
    (input.store8 (buf + n).toNat c).console.memory place = before.console.memory place := by
  have below := UInt32.lt_iff_toNat_lt.mp within
  rw [← editing.frame place outside, Editing.place fits within]
  exact Memory.store8_of_ne (by omega)

/-- Showing a character changes neither the memory nor what is typed. -/
theorem LineInput.shown_same (verbose : Bool) (c : UInt8) (input : LineInput) :
    (if verbose = true then input.putc c else input).typed = input.typed ∧
      (if verbose = true then input.putc c else input).console.memory = input.console.memory := by
  cases verbose <;> exact ⟨rfl, rfl⟩

/-- What the turn does with a character that is kept and does not end the line. -/
theorem getdelimKeep_other (within : n < len) (other : c ≠ backspace) (inner : c ≠ delim)
    (input : LineInput) :
    getdelimKeep buf delim verbose n c input = .returned (.again (n + 1))
      (if verbose = true then (input.store8 (buf + n).toNat c).putc c
        else input.store8 (buf + n).toNat c) := by
  have positive : n + 1 > 0 := by
    rw [gt_iff_lt, UInt32.lt_iff_toNat_lt, Editing.toNat_next within]
    exact Nat.succ_pos _
  simp only [getdelimKeep, ne_eq, other, inner, positive, not_false_eq_true, if_true, if_false,
    and_true]

/-- What it does with a backspace. -/
theorem getdelimKeep_backspace (positive : n > 0) (visible : delim ≠ backspace) (input : LineInput) :
    getdelimKeep buf delim verbose n backspace input = .returned (.again (n - 1))
      (if verbose = true then input.putc backspace else input) := by
  simp only [getdelimKeep, ne_eq, not_true_eq_false, if_false, visible.symm, positive, and_self,
    and_true, if_true]

/-- Any other character goes behind the line, and to the console. -/
theorem Editing.append (fits : buf.toNat + len.toNat ≤ 2 ^ 32) (within : n < len)
    (editing : Editing buf len delim verbose before consumed n input)
    (next : input.typed = c :: rest) (other : c ≠ backspace) (inner : c ≠ delim) :
    ∃ after, getdelimKeep buf delim verbose n c { input with typed := rest } =
        .returned (.again (n + 1)) after ∧
      Editing buf len delim verbose before (consumed ++ [c]) (n + 1) after ∧
        after.typed = rest := by
  have below := UInt32.lt_iff_toNat_lt.mp within
  have stored := editing.held_store fits within other
  have frame {place : Nat} := @Editing.frame_store _ _ _ _ c _ _ _ _ fits within editing place
  obtain ⟨typed, memory⟩ := LineInput.shown_same verbose c
    (LineInput.store8 (buf + n).toNat c { input with typed := rest })
  refine ⟨_, getdelimKeep_other within other inner _, ?_, typed⟩
  refine ⟨?_, editing.absent_concat inner,
    fun earlier part less => (editing.early_concat within earlier part less).2, ?_, ?_, ?_, ?_, ?_⟩
  · rw [typed]
    exact editing.typed_concat next
  · rw [Editing.toNat_next within, editing.count, edited_other consumed other,
      List.length_append, List.length_singleton]
  · rw [Editing.toNat_next within]
    exact below
  · rw [memory]
    exact stored
  · intro place outside
    rw [memory]
    exact frame outside
  · rintro rfl
    obtain ⟨shown, out, balanced⟩ := editing.echoed rfl
    refine ⟨shown ++ [c], ?_, ?_⟩
    · rw [← List.append_assoc, ← out]
      rfl
    · rw [edited_other consumed other, List.countP_append, List.count_append, balanced,
        List.length_append]
      simp [other]
      omega

/-- A backspace in an empty line is neither kept nor shown. -/
theorem Editing.erase_none (within : 0 < len)
    (editing : Editing buf len delim verbose before consumed 0 input)
    (next : input.typed = backspace :: rest) (visible : delim ≠ backspace) :
    getdelimKeep buf delim verbose 0 backspace { input with typed := rest } =
        .returned (.again 0) { input with typed := rest } ∧
      Editing buf len delim verbose before (consumed ++ [backspace]) 0
        { input with typed := rest } := by
  have empty : edited consumed = [] := List.eq_nil_of_length_eq_zero editing.count.symm
  have still : edited (consumed ++ [backspace]) = [] := by rw [edited_backspace, empty]; rfl
  constructor
  · simp [getdelimKeep, visible.symm]
  · refine ⟨editing.typed_concat next, editing.absent_concat visible.symm,
      fun earlier part less => (editing.early_concat within earlier part less).2, ?_,
      editing.room, ?_, editing.frame, fun shows => ?_⟩
    · rw [still]
      rfl
    · rw [still]
      rfl
    · obtain ⟨shown, out, balanced⟩ := editing.echoed shows
      exact ⟨shown, out, by rw [balanced, still, empty]⟩

/-- A backspace takes the last character back, from the console as well. -/
theorem Editing.erase_last (within : n < len) (nonzero : n > 0)
    (editing : Editing buf len delim verbose before consumed n input)
    (next : input.typed = backspace :: rest) (visible : delim ≠ backspace) :
    ∃ after, getdelimKeep buf delim verbose n backspace { input with typed := rest } =
        .returned (.again (n - 1)) after ∧
      Editing buf len delim verbose before (consumed ++ [backspace]) (n - 1) after ∧
        after.typed = rest := by
  have below := UInt32.lt_iff_toNat_lt.mp within
  have positive : 0 < n.toNat := UInt32.lt_iff_toNat_lt.mp nonzero
  have less : (n - 1).toNat = n.toNat - 1 := UInt32.toNat_sub_of_le _ _ positive
  obtain ⟨typed, memory⟩ := LineInput.shown_same verbose backspace { input with typed := rest }
  refine ⟨_, getdelimKeep_backspace nonzero visible _, ?_, typed⟩
  refine ⟨?_, editing.absent_concat visible.symm,
    fun earlier part less => (editing.early_concat within earlier part less).2, ?_, ?_, ?_, ?_, ?_⟩
  · rw [typed]
    exact editing.typed_concat next
  · rw [less, editing.count, edited_backspace, List.length_dropLast]
  · omega
  · rw [memory, less, edited_backspace, ← editing.held, Memory.dropLast_loadBytes]
  · intro place outside
    rw [memory]
    exact editing.frame place outside
  · rintro rfl
    obtain ⟨shown, out, balanced⟩ := editing.echoed rfl
    refine ⟨shown ++ [backspace], ?_, ?_⟩
    · rw [← List.append_assoc, ← out]
      rfl
    · have length := editing.count
      rw [edited_backspace, List.countP_append, List.count_append, balanced,
        List.length_dropLast]
      simp
      omega

/-- The delimiter ends the line. -/
theorem Editing.ends (fits : buf.toNat + len.toNat ≤ 2 ^ 32) (within : n < len)
    (editing : Editing buf len delim verbose before consumed n input)
    (next : input.typed = delim :: rest) (visible : delim ≠ backspace) :
    ∃ after, getdelimKeep buf delim verbose n delim { input with typed := rest } =
        .returned (.leave (n + 1)) after ∧
      HasRead buf len delim verbose before (consumed ++ [delim]) (n + 1) after := by
  have member : delim ∈ consumed ++ [delim] := List.mem_append_right _ (List.mem_singleton_self _)
  have held := editing.held_store fits within visible
  have frame {place : Nat} := @Editing.frame_store _ _ _ _ delim _ _ _ _ fits within editing place
  let stored := LineInput.store8 (buf + n).toNat delim { input with typed := rest }
  refine ⟨(stored.putc carriageReturn).putc lineFeed,
    by simp only [getdelimKeep, ne_eq, visible, not_false_eq_true, if_true, stored],
    editing.typed_concat next, ⟨editing.early_concat within, Or.inl member⟩, ?_,
    held, fun place outside => frame outside, fun shows => ?_⟩
  · rw [Editing.toNat_next within, editing.count, edited_other consumed visible,
      List.length_append, List.length_singleton]
  · obtain ⟨shown, out, balanced⟩ := editing.echoed shows
    refine ⟨shown, ?_, ?_⟩
    · rw [if_pos member, ← out]
      simp only [LineInput.putc, Libc.putc, LineInput.store8, List.append_assoc,
        List.singleton_append, stored]
    · rw [Balanced, countP_edited_concat editing.absent visible]
      omega

/-- A turn goes on with the line, ends it, or waits for more to be typed. -/
theorem Editing.turn (fits : buf.toNat + len.toNat ≤ 2 ^ 32) (visible : delim ≠ backspace)
    (editing : Editing buf len delim verbose before consumed n input) :
    (∃ kept after consumed, getdelimTurn buf len delim verbose n input =
        .returned (.again kept) after ∧
      Editing buf len delim verbose before consumed kept after ∧
        input.typed.length = after.typed.length + 1) ∨
    (∃ last after consumed, getdelimTurn buf len delim verbose n input =
        .returned (.leave last) after ∧
      HasRead buf len delim verbose before consumed last after) ∨
    getdelimTurn buf len delim verbose n input = .diverged input ∧ input.typed = [] ∧ n < len := by
  by_cases within : n < len
  · rw [getdelimTurn, if_pos within, getc]
    cases next : input.typed with
    | nil => exact Or.inr (Or.inr ⟨rfl, rfl, within⟩)
    | cons c rest =>
        simp only [Outcome.returned_andThen]
        by_cases atEnd : c = delim
        · subst atEnd
          obtain ⟨after, ran, read⟩ := editing.ends fits within next visible
          exact Or.inr (Or.inl ⟨_, after, _, ran, read⟩)
        · left
          by_cases back : c = backspace
          · subst back
            by_cases positive : n > 0
            · obtain ⟨after, ran, kept, left⟩ := editing.erase_last within positive next visible
              exact ⟨_, after, _, ran, kept, by rw [left, List.length_cons]⟩
            · obtain rfl : n = 0 := UInt32.le_zero_iff.mp (UInt32.not_lt.mp positive)
              obtain ⟨ran, kept⟩ := editing.erase_none within next visible
              exact ⟨_, _, _, ran, kept, by rw [List.length_cons]⟩
          · obtain ⟨after, ran, kept, left⟩ := editing.append fits within next back atEnd
            exact ⟨_, after, _, ran, kept, by rw [left, List.length_cons]⟩
  · right
    left
    have full : n.toNat = len.toNat :=
      Nat.le_antisymm editing.room (UInt32.le_iff_toNat_le.mp (UInt32.not_lt.mp within))
    refine ⟨n, input, consumed, by rw [getdelimTurn, if_neg within], editing.typed,
      ⟨fun earlier part less => ⟨fun member => editing.absent (part.subset member),
        editing.early earlier part less⟩, Or.inr (editing.count.symm.trans full)⟩,
      editing.count, editing.held, editing.frame, fun shows => ?_⟩
    obtain ⟨shown, out, balanced⟩ := editing.echoed shows
    refine ⟨shown, ?_, ?_⟩
    · rw [if_neg editing.absent, List.append_nil]
      exact out
    · rw [Balanced, countP_edited editing.absent]
      omega

end Turns

section Runs

variable {buf len n : UInt32} {delim : UInt8} {verbose : Bool} {before input : LineInput}
  {consumed : List UInt8}

theorem editing_nil (before : LineInput) : Editing buf len delim verbose before [] 0 before where
  typed := rfl
  absent := List.not_mem_nil
  early _ part less := absurd (List.prefix_nil.mp part) less
  count := rfl
  room := Nat.zero_le _
  held := rfl
  frame _ _ := rfl
  echoed _ := ⟨[], (List.append_nil _).symm, rfl⟩

/-- The loop ends the line, or waits until more is typed. -/
theorem Editing.run (fits : buf.toNat + len.toNat ≤ 2 ^ 32) (visible : delim ≠ backspace)
    (editing : Editing buf len delim verbose before consumed n input) {turns : Nat}
    (enough : input.typed.length < turns) :
    (∃ last after consumed, loop (getdelimTurn buf len delim verbose) turns n input =
        .returned last after ∧ HasRead buf len delim verbose before consumed last after) ∨
    (∃ kept after consumed, loop (getdelimTurn buf len delim verbose) turns n input =
        .diverged after ∧ Editing buf len delim verbose before consumed kept after ∧
      after.typed = [] ∧ kept < len) := by
  induction turns generalizing consumed n input with
  | zero => exact absurd enough (Nat.not_lt_zero _)
  | succ turns inductionHypothesis =>
      rcases editing.turn fits visible with
        ⟨kept, after, consumed, ran, kept', shorter⟩ | ⟨last, after, consumed, ran, read⟩ |
          ⟨ran, nothing, within⟩
      · rw [loop_again ran]
        exact inductionHypothesis kept' (by omega)
      · exact Or.inl ⟨last, after, consumed, loop_leave ran, read⟩
      · exact Or.inr ⟨n, input, consumed, by rw [loop, ran], editing, nothing, within⟩

/-- As long as the loop waits, what has been typed does not complete a line. -/
theorem Editing.incomplete (editing : Editing buf len delim verbose before consumed n input)
    (nothing : input.typed = []) (within : n < len) {line : List UInt8}
    (part : line <+: before.typed) : ¬ Completes len.toNat delim line := by
  rw [editing.typed, nothing, List.append_nil] at part
  rintro ⟨_, member | full⟩
  · exact editing.absent (part.subset member)
  · by_cases whole : line = consumed
    · have below := UInt32.lt_iff_toNat_lt.mp within
      rw [whole, ← editing.count] at full
      omega
    · exact absurd full (Nat.ne_of_lt (editing.early line part whole))

/-- A point of the loop, from which it may go on to another. -/
theorem Editing.along (fits : buf.toNat + len.toNat ≤ 2 ^ 32) (visible : delim ≠ backspace)
    {point : UInt32 × LineInput}
    (path : Relation.ReflTransGen (Again (getdelimTurn buf len delim verbose)) (0, before) point) :
    ∃ consumed, Editing buf len delim verbose before consumed point.1 point.2 := by
  induction path with
  | refl => exact ⟨[], editing_nil before⟩
  | tail _ last inductionHypothesis =>
      obtain ⟨consumed, editing⟩ := inductionHypothesis
      rw [Again] at last
      rcases editing.turn fits visible with
        ⟨kept, after, consumed, ran, kept', _⟩ | ⟨_, _, _, ran, _⟩ | ⟨ran, _⟩
      · rw [ran] at last
        cases last
        exact ⟨consumed, kept'⟩
      · rw [ran] at last
        cases last
      · rw [ran] at last
        cases last

theorem Editing.soFar (editing : Editing buf len delim verbose before consumed n input) :
    LineSoFar buf len delim verbose before (n, input) where
  frame := editing.frame
  echoed shows := by
    obtain ⟨shown, out, balanced⟩ := editing.echoed shows
    refine ⟨consumed, shown, editing.typed, out, ?_⟩
    rw [Balanced, countP_edited editing.absent]
    omega

/-- The terminator goes behind the line. -/
theorem HasRead.terminate (fits : buf.toNat + len.toNat ≤ 2 ^ 32)
    (read : HasRead buf len delim verbose before consumed n input) :
    ReadsLine buf len delim verbose before consumed n
      (if n < len then input.store8 (buf + n).toNat 0 else input) := by
  by_cases within : n < len
  · have below := UInt32.lt_iff_toNat_lt.mp within
    rw [if_pos within, Editing.place fits within]
    refine ⟨⟨read.typed, read.completes, read.count, ?_, fun place outside => ?_, read.echoed⟩,
      fun _ => Memory.store8_same _ _ _⟩
    · rw [← read.held]
      apply Memory.loadBytes_congr
      intro place _ before
      exact Memory.store8_of_ne (by omega)
    · rw [← read.frame place outside]
      exact Memory.store8_of_ne (by omega)
  · rw [if_neg within]
    exact ⟨read, fun below => absurd below within⟩

/-- `getdelim` reads a line. The buffer holds what has been typed with each backspace
taking back the character before it, the console shows the same, and nothing outside of the
buffer is written, at any time. It comes back as soon as the line is complete. -/
theorem getdelim_edits_line (fits : buf.toNat + len.toNat ≤ 2 ^ 32)
    (visible : delim ≠ backspace) (verbose : Bool) (input : LineInput) :
    (∀ n after, getdelim buf len delim verbose input = .returned n after →
      ∃ consumed, ReadsLine buf len delim verbose input consumed n after) ∧
    AllAlong (Again (getdelimTurn buf len delim verbose))
      (LineSoFar buf len delim verbose input) (0, input) ∧
    (buf ≠ 0 → ((∃ n after, getdelim buf len delim verbose input = .returned n after) ↔
      ∃ line, line <+: input.typed ∧ Completes len.toNat delim line)) := by
  have runs := (@editing_nil buf len delim verbose input).run fits visible (Nat.lt_succ_self _)
  refine ⟨fun n after ran => ?_, fun point path => ?_, fun valid => ⟨?_, ?_⟩⟩
  · rw [getdelim] at ran
    split at ran
    · cases ran
    · rcases runs with ⟨last, middle, consumed, returned, read⟩ | ⟨_, _, _, waits, _⟩
      · rw [returned] at ran
        cases ran
        exact ⟨consumed, read.terminate fits⟩
      · rw [waits] at ran
        cases ran
  · obtain ⟨consumed, editing⟩ := Editing.along fits visible path
    exact editing.soFar
  · rintro ⟨n, after, ran⟩
    rw [getdelim, if_neg valid] at ran
    rcases runs with ⟨last, middle, consumed, returned, read⟩ | ⟨_, _, _, waits, _⟩
    · exact ⟨consumed, ⟨_, read.typed.symm⟩, read.completes⟩
    · rw [waits] at ran
      cases ran
  · rintro ⟨line, part, completes⟩
    rcases runs with ⟨last, middle, consumed, returned, read⟩ |
      ⟨_, _, _, _, editing, nothing, within⟩
    · rw [getdelim, if_neg valid, returned]
      exact ⟨_, _, rfl⟩
    · exact absurd completes (editing.incomplete nothing within part)

/-- A line of three characters, the last one taken back, in a buffer of eight bytes. -/
theorem getdelim_edits_line_corrected :
    let input : LineInput :=
      { console := { memory := fun _ => 0, out := [] },
        typed := [0x6C, 0x73, 0x78, backspace, carriageReturn, 0x21] }
    (∀ n after, getdelim 0x3000 8 carriageReturn true input = .returned n after →
      ∃ consumed, ReadsLine 0x3000 8 carriageReturn true input consumed n after) ∧
    AllAlong (Again (getdelimTurn 0x3000 8 carriageReturn true))
      (LineSoFar 0x3000 8 carriageReturn true input) (0, input) ∧
    ((0x3000 : UInt32) ≠ 0 →
      ((∃ n after, getdelim 0x3000 8 carriageReturn true input = .returned n after) ↔
        ∃ line, line <+: input.typed ∧ Completes (8 : UInt32).toNat carriageReturn line)) :=
  getdelim_edits_line (by decide) (by decide) true _

end Runs

end Bootloader.Libc
