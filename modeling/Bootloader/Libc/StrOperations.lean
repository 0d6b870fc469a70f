import Bootloader.Std.Memory
import Bootloader.Std.Program
import Mathlib.Data.List.Induction

/-!
# Strings

A string is a pointer to bytes that end with a zero. `CString` gives its contents as
a list, and every routine here is described by what it does to that list; no caller
walks a pointer again.
-/

namespace Bootloader.Libc

open Bootloader.Std

/-- More turns than a walk along a string can take: after as many, a 32-bit pointer is
back where it was. -/
def stringTurns : Nat := 2 ^ 32

/-- One turn of the loop in `strchr`. -/
def strchrTurn (c : UInt8) (str : UInt32) (memory : Memory) :
    Outcome Memory (Turn UInt32 UInt32) :=
  if memory str.toNat ≠ c ∧ memory str.toNat ≠ 0 then .returned (.again (str + 1)) memory
  else if memory str.toNat = c then .returned (.leave str) memory
  else .returned (.leave 0) memory

/-- `strchr`: the first place of a character in a string, or NULL. -/
def strchr (str : UInt32) (c : UInt8) (memory : Memory) : Outcome Memory UInt32 :=
  if str = 0 then .panicked "str != NULL" memory
  else loop (strchrTurn c) stringTurns str memory

/-- Where a copy reads and where it writes. -/
structure CopyCursor where
  dest : UInt32
  src : UInt32

/-- One turn of the loop in `strcpy`. -/
def strcpyTurn (cursor : CopyCursor) (memory : Memory) :
    Outcome Memory (Turn CopyCursor UInt32) :=
  let c := memory cursor.src.toNat
  if c ≠ 0 then
    .returned (.again ⟨cursor.dest + 1, cursor.src + 1⟩) (memory.store8 cursor.dest.toNat c)
  else .returned (.leave cursor.dest) memory

/-- `strcpy`: the terminator is not copied, and the result is the place behind the last
character. -/
def strcpy (dest src : UInt32) (memory : Memory) : Outcome Memory UInt32 :=
  if dest = 0 then .panicked "dest != NULL" memory
  else if src = 0 then .panicked "src != NULL" memory
  else loop strcpyTurn stringTurns ⟨dest, src⟩ memory

/-- One turn of the loop in `strcpydelim`, and the terminator behind it. -/
def strcpydelimTurn (delim : UInt8) (cursor : CopyCursor) (memory : Memory) :
    Outcome Memory (Turn CopyCursor UInt32) :=
  let c := memory cursor.src.toNat
  if c ≠ delim ∧ c ≠ 0 then
    .returned (.again ⟨cursor.dest + 1, cursor.src + 1⟩) (memory.store8 cursor.dest.toNat c)
  else .returned (.leave cursor.dest) (memory.store8 cursor.dest.toNat 0)

/-- `strcpydelim`: up to a delimiter, and with a terminator. -/
def strcpydelim (dest src : UInt32) (delim : UInt8) (memory : Memory) :
    Outcome Memory UInt32 :=
  if dest = 0 then .panicked "dest != NULL" memory
  else if src = 0 then .panicked "src != NULL" memory
  else loop (strcpydelimTurn delim) stringTurns ⟨dest, src⟩ memory

/-- The two ends of what is left to reverse. -/
structure ReverseCursor where
  str : UInt32
  strEnd : UInt32

/-- One turn of the loop in `strnrev`. -/
def strnrevTurn (cursor : ReverseCursor) (memory : Memory) :
    Outcome Memory (Turn ReverseCursor Unit) :=
  if cursor.str ≠ cursor.strEnd ∧ cursor.str < cursor.strEnd then
    let tmp := memory cursor.str.toNat
    let memory := memory.store8 cursor.str.toNat (memory cursor.strEnd.toNat)
    .returned (.again ⟨cursor.str + 1, cursor.strEnd - 1⟩)
      (memory.store8 cursor.strEnd.toNat tmp)
  else .returned (.leave ()) memory

/-- `strnrev`. -/
def strnrev (str n : UInt32) (memory : Memory) : Outcome Memory Unit :=
  if str = 0 then .panicked "str != NULL" memory
  else loop strnrevTurn stringTurns ⟨str, str + n - 1⟩ memory

theorem stringTurns_pos : 0 < stringTurns := Nat.two_pow_pos 32

/-- A pointer that has not been advanced. -/
theorem offset_zero (pointer : UInt32) : pointer + UInt32.ofNat 0 = pointer :=
  UInt32.add_zero pointer

/-- A pointer advanced once, and then some more. -/
theorem offset_succ (pointer : UInt32) (count : Nat) :
    pointer + 1 + UInt32.ofNat count = pointer + UInt32.ofNat (count + 1) := by
  rw [UInt32.ofNat_add, UInt32.add_assoc, UInt32.add_comm 1]
  rfl

/-- A pointer advanced some places, and then once more. -/
theorem offset_next (pointer : UInt32) (count : Nat) :
    pointer + UInt32.ofNat count + 1 = pointer + UInt32.ofNat (count + 1) := by
  rw [UInt32.ofNat_add, ← UInt32.add_assoc]
  rfl

/-- At this address stand these bytes, none of them zero, and a zero behind them. -/
def CString (memory : Memory) : UInt32 → List UInt8 → Prop
  | address, [] => address ≠ 0 ∧ memory address.toNat = 0
  | address, byte :: rest =>
      address ≠ 0 ∧ byte ≠ 0 ∧ memory address.toNat = byte ∧ CString memory (address + 1) rest

/-- Whether a string stands at an address can be looked up. -/
instance CString.decidable (memory : Memory) :
    (address : UInt32) → (bytes : List UInt8) → Decidable (CString memory address bytes)
  | _, [] => inferInstanceAs (Decidable (_ ∧ _))
  | address, _ :: rest =>
      have := CString.decidable memory (address + 1) rest
      inferInstanceAs (Decidable (_ ∧ _ ∧ _ ∧ _))

namespace CString

variable {memory other : Memory} {address : UInt32} {bytes before after : List UInt8}
  {byte : UInt8}

theorem ne_zero (string : CString memory address bytes) : address ≠ 0 := by
  cases bytes with
  | nil => exact string.1
  | cons byte rest => exact string.1

/-- The first byte, the terminator of an empty string included. -/
theorem head (string : CString memory address bytes) :
    memory address.toNat = bytes.headD 0 := by
  cases bytes with
  | nil => exact string.2
  | cons byte rest => exact string.2.2.1

/-- No byte of a string is zero. -/
theorem nonzero (string : CString memory address bytes) : ∀ byte ∈ bytes, byte ≠ 0 := by
  induction bytes generalizing address with
  | nil => exact fun byte member => absurd member List.not_mem_nil
  | cons byte rest inductionHypothesis =>
      exact List.forall_mem_cons.mpr ⟨string.2.1, inductionHypothesis string.2.2.2⟩

theorem toNat_next (string : CString memory address (byte :: bytes)) :
    (address + 1).toNat = address.toNat + 1 := by
  have next := string.2.2.2.ne_zero
  have bound := address.toNat_lt
  rw [ne_eq, ← UInt32.toNat_inj, UInt32.toNat_add, UInt32.toNat_one, UInt32.toNat_zero] at next
  rw [UInt32.toNat_add, UInt32.toNat_one]
  omega

/-- A string does not wrap around the address space. -/
theorem fits (string : CString memory address bytes) :
    address.toNat + bytes.length < 2 ^ 32 := by
  induction bytes generalizing address with
  | nil => exact address.toNat_lt
  | cons byte rest inductionHypothesis =>
      have next := string.toNat_next
      have rest := inductionHypothesis string.2.2.2
      rw [List.length_cons]
      omega

/-- The way along a string is short enough. -/
theorem length_lt (string : CString memory address bytes) : bytes.length < stringTurns :=
  Nat.lt_of_le_of_lt (Nat.le_add_left _ _) string.fits

/-- So is the way along a part of a string. -/
theorem front_lt (string : CString memory address (before ++ after)) :
    before.length < stringTurns := by
  have short := string.length_lt
  rw [List.length_append] at short
  exact Nat.lt_of_le_of_lt (Nat.le_add_right _ _) short

/-- What stands behind a part of a string is a string. -/
theorem drop (string : CString memory address (before ++ after)) :
    CString memory (address + UInt32.ofNat before.length) after := by
  induction before generalizing address with
  | nil => simpa using string
  | cons byte rest inductionHypothesis =>
      have behind := inductionHypothesis string.2.2.2
      rwa [offset_succ] at behind

/-- A string stays when none of its bytes changes. -/
theorem congr (string : CString memory address bytes)
    (same : ∀ place, address.toNat ≤ place → place ≤ address.toNat + bytes.length →
      other place = memory place) : CString other address bytes := by
  induction bytes generalizing address with
  | nil => exact ⟨string.1, (same _ (Nat.le_refl _) (Nat.le_refl _)).trans string.2⟩
  | cons byte rest inductionHypothesis =>
      have next := string.toNat_next
      rw [List.length_cons] at same
      refine ⟨string.1, string.2.1, (same _ (Nat.le_refl _) (by omega)).trans string.2.2.1, ?_⟩
      apply inductionHypothesis string.2.2.2
      intro place above below
      exact same place (by omega) (by omega)

/-- A string stands in every memory with the same bytes. -/
theorem agree (string : CString memory address bytes)
    (agree : Memory.AgreeOn address.toNat (address.toNat + bytes.length + 1) memory other) :
    CString other address bytes :=
  string.congr fun place above below => (agree place above (Nat.lt_succ_of_le below)).symm

/-- What stands behind a part of a string stands behind its bytes. -/
theorem toNat_drop (string : CString memory address (before ++ after)) :
    (address + UInt32.ofNat before.length).toNat = address.toNat + before.length := by
  have fits := string.fits
  rw [List.length_append] at fits
  exact toNat_offset (by omega)

/-- A string ends with a zero. -/
theorem terminator (string : CString memory address bytes) :
    memory (address + UInt32.ofNat bytes.length).toNat = 0 := by
  have whole : CString memory address (bytes ++ []) := by rwa [List.append_nil]
  exact whole.drop.2

/-- The bytes of a part of a string. -/
theorem loadBytes_eq (string : CString memory address (before ++ after)) :
    memory.loadBytes address.toNat before.length = before := by
  induction before generalizing address with
  | nil => rfl
  | cons byte rest inductionHypothesis =>
      rw [List.length_cons, Memory.loadBytes, ← string.toNat_next,
        inductionHypothesis string.2.2.2, show memory address.toNat = byte from string.2.2.1]

/-- A zero cuts a string. -/
theorem cut (string : CString memory address (before ++ byte :: after)) :
    CString (memory.store8 (address.toNat + before.length) 0) address before := by
  induction before generalizing address with
  | nil => exact ⟨string.1, Memory.store8_same _ _ _⟩
  | cons first rest inductionHypothesis =>
      have next := string.toNat_next
      have tail := inductionHypothesis string.2.2.2
      rw [next, Nat.add_assoc, Nat.add_comm 1] at tail
      refine ⟨string.1, string.2.1, ?_, tail⟩
      rw [Memory.store8_of_ne (by rw [List.length_cons]; omega)]
      exact string.2.2.1

/-- Bytes other than zero with a zero behind them are a string. -/
theorem of_loadBytes (valid : address ≠ 0) (nonzero : ∀ byte ∈ bytes, byte ≠ 0)
    (fits : address.toNat + bytes.length < 2 ^ 32)
    (held : memory.loadBytes address.toNat bytes.length = bytes)
    (ends : memory (address.toNat + bytes.length) = 0) : CString memory address bytes := by
  induction bytes generalizing address with
  | nil => exact ⟨valid, ends⟩
  | cons byte rest inductionHypothesis =>
      obtain ⟨first, others⟩ := List.forall_mem_cons.mp nonzero
      rw [List.length_cons] at fits held ends
      have next : (address + 1).toNat = address.toNat + 1 := toNat_add_one (by omega)
      rw [Memory.loadBytes, List.cons.injEq] at held
      refine ⟨valid, first, held.1, ?_⟩
      apply inductionHypothesis (toNat_pos_iff.mp (by omega)) others (by omega)
      · rw [next]
        exact held.2
      · rw [next, Nat.add_assoc, Nat.add_comm 1]
        exact ends

end CString

section Searches

variable {memory : Memory} {str : UInt32} {before after bytes : List UInt8} {c : UInt8}

/-- `strchr` finds the first occurrence. -/
theorem strchr_found (string : CString memory str (before ++ c :: after)) (first : c ∉ before) :
    strchr str c memory = .returned (str + UInt32.ofNat before.length) memory := by
  have search : ∀ turns, before.length < turns → loop (strchrTurn c) turns str memory =
      .returned (str + UInt32.ofNat before.length) memory := by
    intro turns enough
    induction before generalizing str turns with
    | nil =>
        obtain ⟨turns, rfl⟩ := Nat.exists_eq_add_of_lt enough
        have here : memory str.toNat = c := string.2.2.1
        rw [List.length_nil, offset_zero]
        apply loop_leave
        rw [strchrTurn, if_neg (fun both => both.1 here), if_pos here]
    | cons byte rest inductionHypothesis =>
        rw [List.length_cons] at enough
        obtain ⟨turns, rfl⟩ := Nat.exists_eq_add_of_lt enough
        obtain ⟨_, valid, here, tail⟩ := string
        have different : memory str.toNat ≠ c ∧ memory str.toNat ≠ 0 := by
          rw [here]
          exact ⟨fun same => first (same ▸ List.mem_cons_self), valid⟩
        have passed : strchrTurn c str memory = .returned (.again (str + 1)) memory := by
          rw [strchrTurn, if_pos different]
        rw [loop_again passed, inductionHypothesis tail
          (fun member => first (List.mem_cons_of_mem _ member)) _ (by omega), List.length_cons,
          offset_succ]
  rw [strchr, if_neg string.ne_zero]
  exact search _ string.front_lt

/-- `strchr` finds nothing else. -/
theorem strchr_absent (string : CString memory str bytes) (valid : c ≠ 0) (absent : c ∉ bytes) :
    strchr str c memory = .returned 0 memory := by
  have search : ∀ turns, bytes.length < turns →
      loop (strchrTurn c) turns str memory = .returned 0 memory := by
    intro turns enough
    induction bytes generalizing str turns with
    | nil =>
        obtain ⟨turns, rfl⟩ := Nat.exists_eq_add_of_lt enough
        have here : memory str.toNat = 0 := string.2
        apply loop_leave
        rw [strchrTurn, here, if_neg (fun both => both.2 rfl), if_neg valid.symm]
    | cons byte rest inductionHypothesis =>
        rw [List.length_cons] at enough
        obtain ⟨turns, rfl⟩ := Nat.exists_eq_add_of_lt enough
        obtain ⟨_, nonzero, here, tail⟩ := string
        have different : memory str.toNat ≠ c ∧ memory str.toNat ≠ 0 := by
          rw [here]
          exact ⟨fun same => absent (same ▸ List.mem_cons_self), nonzero⟩
        have passed : strchrTurn c str memory = .returned (.again (str + 1)) memory := by
          rw [strchrTurn, if_pos different]
        rw [loop_again passed]
        exact inductionHypothesis tail (fun member => absent (List.mem_cons_of_mem _ member)) _
          (by omega)
  rw [strchr, if_neg string.ne_zero]
  exact search _ string.length_lt

end Searches

section Copies

variable {memory : Memory} {dest src : UInt32} {before after bytes : List UInt8}
  {byte delim : UInt8}

/-- Storing below the rest of a string, or behind it, leaves it. -/
theorem CString.store8_next (string : CString memory src (byte :: bytes))
    (apart : dest.toNat ≤ src.toNat ∨ src.toNat + bytes.length + 1 < dest.toNat) :
    CString (memory.store8 dest.toNat byte) (src + 1) bytes := by
  have next := string.toNat_next
  apply string.2.2.2.congr
  intro place above below
  apply Memory.store8_of_ne
  omega

/-- The turns of a copy at the places of `bytes`, other than zero, take these over. -/
def TakesBytes {Local : Type} (turn : Local → Memory → Outcome Memory (Turn Local UInt32))
    (cursor : Nat → Local) (dest src : UInt32) (bytes : List UInt8) : Prop :=
  ∀ index byte, bytes[index]? = some byte → byte ≠ 0 → ∀ memory : Memory,
    memory (src + UInt32.ofNat index).toNat = byte → turn (cursor index) memory =
      .returned (.again (cursor (index + 1)))
        (memory.store8 (dest + UInt32.ofNat index).toNat byte)

/-- The loops of the copies have one shape: whatever ends them, they take over the
bytes before that one by one. -/
theorem copy_bytes {Local : Type} {turn : Local → Memory → Outcome Memory (Turn Local UInt32)}
    {cursor : Nat → Local} (takes : TakesBytes turn cursor dest src before)
    (string : CString memory src (before ++ after)) (room : dest.toNat + before.length < 2 ^ 32)
    (apart : dest.toNat + before.length ≤ src.toNat ∨
      src.toNat + (before ++ after).length < dest.toNat) (turns : Nat) :
    loop turn (before.length + turns) (cursor 0) memory =
        loop turn turns (cursor before.length) (memory.storeBytes dest.toNat before) ∧
      CString (memory.storeBytes dest.toNat before) (src + UInt32.ofNat before.length) after := by
  induction before generalizing memory dest src cursor with
  | nil =>
      rw [List.length_nil, offset_zero, Nat.zero_add]
      exact ⟨rfl, string⟩
  | cons byte rest inductionHypothesis =>
      rw [List.cons_append, List.length_cons, List.length_cons] at apart
      rw [List.length_cons] at room
      have next := string.toNat_next
      have destNext : (dest + 1).toNat = dest.toNat + 1 := toNat_add_one (by omega)
      have first := takes 0 byte rfl string.2.1 memory
        (by rw [offset_zero]; exact string.2.2.1)
      rw [offset_zero] at first
      have others :
          TakesBytes turn (fun index => cursor (index + 1)) (dest + 1) (src + 1) rest := by
        intro index other found nonzero memory here
        rw [offset_succ] at here ⊢
        exact takes (index + 1) other found nonzero memory here
      have tail : CString (memory.store8 dest.toNat byte) (src + 1) (rest ++ after) :=
        CString.store8_next string (by omega)
      have further : (dest + 1).toNat + rest.length < 2 ^ 32 := by omega
      obtain ⟨ran, left⟩ := inductionHypothesis others tail further (by omega)
      rw [destNext] at ran
      rw [offset_succ, destNext] at left
      rw [List.length_cons, Nat.add_right_comm, loop_again first, ran]
      exact ⟨rfl, left⟩

/-- Such a loop comes to where it leaves. -/
theorem copy_loop {Local : Type} {turn : Local → Memory → Outcome Memory (Turn Local UInt32)}
    {cursor : Nat → Local} {result : UInt32} {final : Memory}
    (takes : TakesBytes turn cursor dest src before)
    (string : CString memory src (before ++ after)) (room : dest.toNat + before.length < 2 ^ 32)
    (apart : dest.toNat + before.length ≤ src.toNat ∨
      src.toNat + (before ++ after).length < dest.toNat)
    (leaves : CString (memory.storeBytes dest.toNat before) (src + UInt32.ofNat before.length)
      after → turn (cursor before.length) (memory.storeBytes dest.toNat before) =
        .returned (.leave result) final) :
    loop turn stringTurns (cursor 0) memory = .returned result final := by
  obtain ⟨turns, enough⟩ := Nat.exists_eq_add_of_lt string.front_lt
  obtain ⟨copied, left⟩ := copy_bytes takes string room apart (turns + 1)
  rw [enough, Nat.add_assoc, copied]
  exact loop_leave (leaves left)

/-- The cursor of a copy that advances both its pointers. -/
def advanced (dest src : UInt32) (count : Nat) : CopyCursor :=
  ⟨dest + UInt32.ofNat count, src + UInt32.ofNat count⟩

theorem advanced_zero (dest src : UInt32) : advanced dest src 0 = ⟨dest, src⟩ := by
  rw [advanced, offset_zero, offset_zero]

/-- `strcpy` between places apart. -/
theorem strcpy_eq (string : CString memory src bytes) (valid : dest ≠ 0)
    (room : dest.toNat + bytes.length < 2 ^ 32)
    (apart : dest.toNat + bytes.length ≤ src.toNat ∨ src.toNat + bytes.length < dest.toNat) :
    strcpy dest src memory = .returned (dest + UInt32.ofNat bytes.length)
      (memory.storeBytes dest.toNat bytes) := by
  have whole : CString memory src (bytes ++ []) := by rwa [List.append_nil]
  have takes : TakesBytes strcpyTurn (advanced dest src) dest src bytes := by
    intro index byte _ nonzero memory here
    simp only [strcpyTurn, advanced, here, if_pos nonzero, offset_next]
  rw [strcpy, if_neg valid, if_neg string.ne_zero, ← advanced_zero]
  refine copy_loop takes whole room (by rwa [List.append_nil]) fun ends => ?_
  rw [strcpyTurn, advanced, ends.2]
  rfl

/-- `strcpydelim` between places apart, up to where it stops. -/
theorem strcpydelim_stops (string : CString memory src (before ++ after)) (first : delim ∉ before)
    (stops : ∀ c ∈ after.head?, c = delim) (valid : dest ≠ 0)
    (room : dest.toNat + before.length < 2 ^ 32)
    (apart : dest.toNat + before.length ≤ src.toNat ∨
      src.toNat + (before ++ after).length < dest.toNat) :
    strcpydelim dest src delim memory = .returned (dest + UInt32.ofNat before.length)
      ((memory.storeBytes dest.toNat before).store8 (dest.toNat + before.length) 0) := by
  have takes : TakesBytes (strcpydelimTurn delim) (advanced dest src) dest src before := by
    intro index byte found nonzero memory here
    have different : byte ≠ delim := fun same => first (same ▸ List.mem_of_getElem? found)
    simp only [strcpydelimTurn, advanced, here, if_pos (And.intro different nonzero), offset_next]
  have ended : ¬ (after.headD 0 ≠ delim ∧ after.headD 0 ≠ 0) := by
    cases after with
    | nil => exact fun both => both.2 rfl
    | cons c rest => exact fun both => both.1 (stops c rfl)
  rw [strcpydelim, if_neg valid, if_neg string.ne_zero, ← advanced_zero]
  refine copy_loop takes string room apart fun ends => ?_
  rw [strcpydelimTurn, advanced, ends.head, if_neg ended, toNat_offset room]

/-- `strcpydelim` between places apart, when the delimiter is there. -/
theorem strcpydelim_eq (string : CString memory src (before ++ delim :: after))
    (first : delim ∉ before) (valid : dest ≠ 0) (room : dest.toNat + before.length < 2 ^ 32)
    (apart : dest.toNat + before.length ≤ src.toNat ∨
      src.toNat + (before ++ delim :: after).length < dest.toNat) :
    strcpydelim dest src delim memory = .returned (dest + UInt32.ofNat before.length)
      ((memory.storeBytes dest.toNat before).store8 (dest.toNat + before.length) 0) :=
  strcpydelim_stops string first (fun _ head => (Option.some.inj head).symm) valid room apart

end Copies

section Reversal

variable {memory : Memory} {str strEnd : UInt32} {bytes : List UInt8}

/-- The loop is left where the two ends have met. -/
theorem strnrevTurn_leave (met : strEnd.toNat ≤ str.toNat) :
    strnrevTurn ⟨str, strEnd⟩ memory = .returned (.leave ()) memory := by
  refine if_neg fun both => ?_
  exact absurd (UInt32.lt_iff_toNat_lt.mp both.2) (Nat.not_lt.mpr met)

/-- A turn swaps the bytes at the two ends. -/
theorem strnrevTurn_again (apart : str.toNat < strEnd.toNat) :
    strnrevTurn ⟨str, strEnd⟩ memory = .returned (.again ⟨str + 1, strEnd - 1⟩)
      ((memory.store8 str.toNat (memory strEnd.toNat)).store8 strEnd.toNat
        (memory str.toNat)) :=
  if_pos ⟨ne_of_toNat_lt apart, UInt32.lt_iff_toNat_lt.mpr apart⟩

/-- Bytes with another in front and another behind. -/
theorem loadBytes_ends (memory : Memory) (address count : Nat) :
    memory.loadBytes address (count + 2) =
      memory address ::
        (memory.loadBytes (address + 1) count ++ [memory (address + count + 1)]) := by
  rw [Memory.loadBytes, Memory.loadBytes_append, Nat.add_right_comm address 1 count]
  rfl

/-- The loop reverses the bytes between its two ends, and changes no others. -/
theorem strnrev_loop (held : memory.loadBytes str.toNat bytes.length = bytes)
    (ends : strEnd.toNat + 1 = str.toNat + bytes.length) (turns : Nat)
    (enough : bytes.length < turns) :
    ∃ after, loop strnrevTurn turns ⟨str, strEnd⟩ memory = .returned () after ∧
      after.loadBytes str.toNat bytes.length = bytes.reverse ∧
      ∀ place, place < str.toNat ∨ str.toNat + bytes.length ≤ place →
        after place = memory place := by
  obtain ⟨turns, rfl⟩ := Nat.exists_eq_succ_of_ne_zero (Nat.ne_zero_of_lt enough)
  induction bytes using List.bidirectionalRec generalizing memory str strEnd turns with
  | nil => exact ⟨memory, loop_leave (strnrevTurn_leave (by simp at ends; omega)), rfl,
      fun _ _ => rfl⟩
  | singleton byte => exact ⟨memory, loop_leave (strnrevTurn_leave (by simp at ends; omega)), held,
      fun _ _ => rfl⟩
  | cons_append first middle last inductionHypothesis =>
      have length : (first :: (middle ++ [last])).length = middle.length + 2 := by simp
      rw [length] at held ends enough
      rw [loadBytes_ends, List.cons.injEq] at held
      obtain ⟨low, rest⟩ := held
      obtain ⟨inner, high⟩ := List.append_inj' rest rfl
      rw [List.singleton_inj] at high
      have bound := strEnd.toNat_lt
      have place : str.toNat + middle.length + 1 = strEnd.toNat := by omega
      have up : (str + 1).toNat = str.toNat + 1 := toNat_add_one (by omega)
      have down : (strEnd - 1).toNat = strEnd.toNat - 1 := by
        rw [UInt32.toNat_sub, UInt32.toNat_one]
        omega
      rw [place] at high
      rw [loop_again (strnrevTurn_again (by omega)), low, high]
      obtain ⟨turns, rfl⟩ : ∃ fewer, turns = fewer + 1 := ⟨turns - 1, by omega⟩
      obtain ⟨after, ran, reversed, frame⟩ :=
        @inductionHypothesis ((memory.store8 str.toNat last).store8 strEnd.toNat first) (str + 1)
          (strEnd - 1) (by
            refine (Memory.loadBytes_congr fun other above below => ?_).trans (up ▸ inner)
            rw [Memory.store8_of_ne (by omega), Memory.store8_of_ne (by omega)])
          (by omega) turns (by omega)
      refine ⟨after, ran, ?_, fun other outside => ?_⟩
      · rw [length, loadBytes_ends, place, ← up, reversed, frame _ (by omega),
          frame _ (by omega), Memory.store8_same, Memory.store8_of_ne (by omega),
          Memory.store8_same]
        simp
      · rw [length] at outside
        rw [frame _ (by omega), Memory.store8_of_ne (by omega), Memory.store8_of_ne (by omega)]

/-- `strnrev` reverses bytes where they are. -/
theorem strnrev_eq (held : memory.loadBytes str.toNat bytes.length = bytes) (valid : str ≠ 0)
    (fits : str.toNat + bytes.length < 2 ^ 32) :
    ∃ after, strnrev str (UInt32.ofNat bytes.length) memory = .returned () after ∧
      after.loadBytes str.toNat bytes.length = bytes.reverse ∧
      ∀ place, place < str.toNat ∨ str.toNat + bytes.length ≤ place →
        after place = memory place := by
  have positive := toNat_pos_iff.mpr valid
  have ends : (str + UInt32.ofNat bytes.length - 1).toNat + 1 = str.toNat + bytes.length := by
    rw [UInt32.toNat_sub, UInt32.toNat_add, UInt32.toNat_ofNat', UInt32.toNat_one]
    omega
  rw [strnrev, if_neg valid]
  exact strnrev_loop held ends stringTurns (by unfold stringTurns; omega)

end Reversal

end Bootloader.Libc
