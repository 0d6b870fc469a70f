import Bootloader.Libc.StrOperations
import Bootloader.Std.Words

/-!
# Copies of strings

Four routines copy a string up to its terminator, a number of characters or a delimiter, and
return where the copy ends. `string_copies_iff` is what their callers take for granted: that a
terminator stands there. `strcpy` stores none.
-/

namespace Bootloader.Libc

open Bootloader.Std

/-- One turn of the loop in `strncpy`, and the terminator behind it. -/
def strncpyTurn (dest src n i : UInt32) (memory : Memory) :
    Outcome Memory (Turn UInt32 UInt32) :=
  if i < n ∧ memory (src + i).toNat ≠ 0 then
    .returned (.again (i + 1)) (memory.store8 (dest + i).toNat (memory (src + i).toNat))
  else .returned (.leave (dest + i)) (memory.store8 (dest + i).toNat 0)

/-- `strncpy`: at most `n` characters, and a terminator. -/
def strncpy (dest src n : UInt32) (memory : Memory) : Outcome Memory UInt32 :=
  if dest = 0 then .panicked "dest != NULL" memory
  else if src = 0 then .panicked "src != NULL" memory
  else loop (strncpyTurn dest src n) stringTurns 0 memory

/-- One turn of the loop in `strncpydelim`, and the terminator behind it. -/
def strncpydelimTurn (dest src n : UInt32) (delim : UInt8) (i : UInt32) (memory : Memory) :
    Outcome Memory (Turn UInt32 UInt32) :=
  if i < n ∧ memory (src + i).toNat ≠ delim ∧ memory (src + i).toNat ≠ 0 then
    .returned (.again (i + 1)) (memory.store8 (dest + i).toNat (memory (src + i).toNat))
  else .returned (.leave (dest + i)) (memory.store8 (dest + i).toNat 0)

/-- `strncpydelim`: at most `n` characters up to a delimiter, and a terminator. -/
def strncpydelim (dest src n : UInt32) (delim : UInt8) (memory : Memory) :
    Outcome Memory UInt32 :=
  if dest = 0 then .panicked "dest != NULL" memory
  else if src = 0 then .panicked "src != NULL" memory
  else loop (strncpydelimTurn dest src n delim) stringTurns 0 memory

/-- The routines that copy a string, with what they stop at. -/
inductive Copier where
  | strcpy
  | strncpy (n : UInt32)
  | strcpydelim (delim : UInt8)
  | strncpydelim (n : UInt32) (delim : UInt8)

namespace Copier

/-- Call the routine. -/
def call (dest src : UInt32) : Copier → Memory → Outcome Memory UInt32
  | .strcpy => Libc.strcpy dest src
  | .strncpy n => Libc.strncpy dest src n
  | .strcpydelim delim => Libc.strcpydelim dest src delim
  | .strncpydelim n delim => Libc.strncpydelim dest src n delim

/-- The part of a text that is copied. -/
def copied (text : List UInt8) : Copier → List UInt8
  | .strcpy => text
  | .strncpy n => text.take n.toNat
  | .strcpydelim delim => firstWord delim text
  | .strncpydelim n delim => firstWord delim (text.take n.toNat)

end Copier

/-- At `dest` is room for `bytes` and a terminator, apart from the string of `text` at `src`. -/
structure RoomFor (bytes text : List UInt8) (dest src : UInt32) : Prop where
  valid : dest ≠ 0
  fits : dest.toNat + bytes.length < 2 ^ 32
  apart : dest.toNat + bytes.length < src.toNat ∨ src.toNat + text.length < dest.toNat

/-- At `dest` stand `bytes` with a terminator behind them, which is the place that has been
returned, and no other byte has changed. -/
structure LeavesCopy (bytes : List UInt8) (dest : UInt32) (before after : Memory)
    (result : UInt32) : Prop where
  copied : after.loadBytes dest.toNat bytes.length = bytes
  ending : result.toNat = dest.toNat + bytes.length
  terminated : after result.toNat = 0
  others : ∀ place, place < dest.toNat ∨ dest.toNat + bytes.length < place →
    after place = before place

/-- A call of the routine comes back and has left a terminated copy. -/
def CopiesString (copier : Copier) (text : List UInt8) (dest src : UInt32) (memory : Memory) :
    Prop :=
  ∃ result after, copier.call dest src memory = .returned result after ∧
    LeavesCopy (copier.copied text) dest memory after result

/-- What the routines with a terminator come to. -/
def terminatedCopy (bytes : List UInt8) (dest : UInt32) (memory : Memory) :
    Outcome Memory UInt32 :=
  .returned (dest + UInt32.ofNat bytes.length)
    ((memory.storeBytes dest.toNat bytes).store8 (dest.toNat + bytes.length) 0)

section Stops

variable {memory : Memory} {dest src n : UInt32} {before after text : List UInt8} {delim : UInt8}

/-- `strncpydelim` between places apart, up to where it stops. -/
theorem strncpydelim_stops (string : CString memory src (before ++ after)) (first : delim ∉ before)
    (within : before.length ≤ n.toNat)
    (stops : before.length = n.toNat ∨ AtSeparator delim after) (valid : dest ≠ 0)
    (room : dest.toNat + before.length < 2 ^ 32)
    (apart : dest.toNat + before.length ≤ src.toNat ∨
      src.toNat + (before ++ after).length < dest.toNat) :
    strncpydelim dest src n delim memory = .returned (dest + UInt32.ofNat before.length)
      ((memory.storeBytes dest.toNat before).store8 (dest.toNat + before.length) 0) := by
  have bound := n.toNat_lt_size
  have takes : TakesBytes (strncpydelimTurn dest src n delim) UInt32.ofNat dest src before := by
    intro index byte found nonzero memory here
    obtain ⟨inside, _⟩ := List.getElem?_eq_some_iff.mp found
    have more : UInt32.ofNat index < n := (UInt32.ofNat_lt_iff (by omega)).mpr (by omega)
    have different : byte ≠ delim := fun same => first (same ▸ List.mem_of_getElem? found)
    have goesOn : UInt32.ofNat index < n ∧ byte ≠ delim ∧ byte ≠ 0 := ⟨more, different, nonzero⟩
    simp only [strncpydelimTurn, here, if_pos goesOn, UInt32.ofNat_add]
    rfl
  have ended : ¬ (UInt32.ofNat before.length < n ∧ after.headD 0 ≠ delim ∧
      after.headD 0 ≠ 0) := by
    rintro ⟨more, different, nonzero⟩
    rw [UInt32.ofNat_lt_iff (by omega)] at more
    rcases stops with limit | stops
    · omega
    · cases after with
      | nil => exact nonzero rfl
      | cons c rest => exact different (stops c rfl)
  rw [strncpydelim, if_neg valid, if_neg string.ne_zero]
  refine copy_loop takes string room apart fun ends => ?_
  rw [strncpydelimTurn, ends.head, if_neg ended, toNat_offset room]

/-- Without a delimiter of its own `strncpy` is `strncpydelim` for the terminator. -/
theorem strncpy_eq_strncpydelim : strncpy dest src n memory = strncpydelim dest src n 0 memory := by
  have turns : strncpyTurn dest src n = strncpydelimTurn dest src n 0 := by
    funext i memory
    simp only [strncpyTurn, strncpydelimTurn, and_self_iff]
  rw [strncpy, strncpydelim, turns]

/-- The part of a text up to a limit or a delimiter, and what is behind it. -/
theorem firstWord_take (text : List UInt8) (limit : Nat) (delim : UInt8) :
    ∃ word after, firstWord delim (text.take limit) = word ∧ text = word ++ after ∧
      delim ∉ word ∧ word.length ≤ limit ∧ (word.length = limit ∨ AtSeparator delim after) := by
  obtain ⟨word, middle, split, absent, stops⟩ := exists_word delim (text.take limit)
  have lengths := congrArg List.length split
  rw [List.length_take, List.length_append] at lengths
  refine ⟨word, middle ++ text.drop limit, ?_, ?_, absent, by omega, ?_⟩
  · rw [split, (takeApart absent stops).1]
  · rw [← List.append_assoc, ← split, List.take_append_drop]
  · cases middle with
    | cons c rest => exact Or.inr stops
    | nil =>
        rw [List.length_nil] at lengths
        rcases Nat.lt_or_ge text.length limit with short | long
        · rw [List.drop_eq_nil_of_le (Nat.le_of_lt short)]
          exact Or.inr stops
        · exact Or.inl (by omega)

/-- A text without a delimiter is copied to its end. -/
theorem firstWord_absent (absent : delim ∉ text) : firstWord delim text = text := by
  have apart := @takeApart _ _ delim text [] absent (fun _ member => nomatch member)
  rw [List.append_nil] at apart
  exact apart.1

/-- `strncpydelim` of any text. -/
theorem strncpydelim_eq (string : CString memory src text)
    (room : RoomFor (firstWord delim (text.take n.toNat)) text dest src) :
    strncpydelim dest src n delim memory =
      terminatedCopy (firstWord delim (text.take n.toNat)) dest memory := by
  obtain ⟨word, after, copied, rfl, first, within, stops⟩ := firstWord_take text n.toNat delim
  rw [copied] at room ⊢
  have apart := room.apart
  exact strncpydelim_stops string first within stops room.valid room.fits (by omega)

/-- `strncpy` of any text. -/
theorem strncpy_eq (string : CString memory src text)
    (room : RoomFor (text.take n.toNat) text dest src) :
    strncpy dest src n memory = terminatedCopy (text.take n.toNat) dest memory := by
  have absent : 0 ∉ text.take n.toNat :=
    fun member => string.nonzero 0 (List.mem_of_mem_take member) rfl
  rw [← firstWord_absent absent] at room
  rw [strncpy_eq_strncpydelim, strncpydelim_eq string room, firstWord_absent absent]

/-- `strcpydelim` of any text. -/
theorem strcpydelim_firstWord (string : CString memory src text)
    (room : RoomFor (firstWord delim text) text dest src) :
    strcpydelim dest src delim memory = terminatedCopy (firstWord delim text) dest memory := by
  obtain ⟨word, rest, rfl, absent, stops⟩ := exists_word delim text
  rw [(takeApart absent stops).1] at room ⊢
  have apart := room.apart
  exact strcpydelim_stops string absent stops room.valid room.fits (by omega)

end Stops

section Contract

variable {memory : Memory} {dest src : UInt32} {text bytes : List UInt8} {copier : Copier}

/-- All routines but `strcpy` leave the same kind of copy. -/
theorem Copier.call_eq (string : CString memory src text)
    (room : RoomFor (copier.copied text) text dest src) (other : copier ≠ .strcpy) :
    copier.call dest src memory = terminatedCopy (copier.copied text) dest memory := by
  cases copier with
  | strcpy => exact absurd rfl other
  | strncpy n => exact strncpy_eq string room
  | strcpydelim delim => exact strcpydelim_firstWord string room
  | strncpydelim n delim => exact strncpydelim_eq string room

/-- Such a copy is terminated. -/
theorem terminatedCopy_leavesCopy (fits : dest.toNat + bytes.length < 2 ^ 32) :
    ∃ result after, terminatedCopy bytes dest memory = .returned result after ∧
      LeavesCopy bytes dest memory after result := by
  have ending := toNat_offset fits
  refine ⟨_, _, rfl, ?_, ending, ?_, fun place outside => ?_⟩
  · have stored := @Memory.loadBytes_storeBytes memory dest.toNat bytes
    refine (Memory.loadBytes_congr fun place _ below => ?_).trans stored
    exact Memory.store8_of_ne (by omega)
  · rw [ending, Memory.store8_same]
  · rw [Memory.store8_of_ne (by omega), Memory.storeBytes_outside (by omega)]

/-- The copy of `strcpy` is terminated when a zero was behind it before. -/
theorem strcpy_copiesString_iff (string : CString memory src text)
    (room : RoomFor text text dest src) :
    CopiesString .strcpy text dest src memory ↔ memory (dest.toNat + text.length) = 0 := by
  have ending := toNat_offset room.fits
  have apart := room.apart
  have ran : Copier.strcpy.call dest src memory = .returned (dest + UInt32.ofNat text.length)
      (memory.storeBytes dest.toNat text) :=
    strcpy_eq string room.valid room.fits (by omega)
  have behind : memory.storeBytes dest.toNat text (dest.toNat + text.length) =
      memory (dest.toNat + text.length) :=
    Memory.storeBytes_outside (Or.inr (Nat.le_refl _))
  constructor
  · rintro ⟨result, after, returned, copy⟩
    rw [ran] at returned
    cases returned
    have terminated := copy.terminated
    rwa [ending, behind] at terminated
  · intro zero
    refine ⟨_, _, ran, Memory.loadBytes_storeBytes, ending, ?_, fun place outside => ?_⟩
    · rw [ending, behind, zero]
    · exact Memory.storeBytes_outside (by rw [Copier.copied] at outside; omega)

/-- Every copy is terminated but that of `strcpy`, which is only where a zero was behind it
before. -/
theorem string_copies_iff (string : CString memory src text)
    (room : RoomFor (copier.copied text) text dest src) :
    CopiesString copier text dest src memory ↔
      copier ≠ .strcpy ∨ memory (dest.toNat + text.length) = 0 := by
  by_cases plain : copier = .strcpy
  · subst plain
    rw [strcpy_copiesString_iff string room, or_iff_right fun other => other rfl]
  · rw [CopiesString, Copier.call_eq string room plain]
    exact iff_of_true (terminatedCopy_leavesCopy room.fits) (Or.inl plain)

/-- Memory with the string of one character at 512, and no other zero than its own. -/
def lettersAround : Memory := fun place => if place = 513 then 0 else 0x61

theorem string_copies_iff_limit : CopiesString (.strncpy 8) [0x61] 256 512 lettersAround :=
  (string_copies_iff (by decide) ⟨by decide, by decide, by decide⟩).mpr (Or.inl nofun)

/-- `strcpy` leaves the letter that stood behind its copy. -/
theorem strcpy_leaves_no_terminator : ¬ CopiesString .strcpy [0x61] 256 512 lettersAround := by
  have string : CString lettersAround 512 [0x61] := by decide
  rw [strcpy_copiesString_iff string ⟨by decide, by decide, by decide⟩]
  decide

end Contract

end Bootloader.Libc
