import Bootloader.Std.Program

/-!
# The BIOS memory map

`e820_detect_mem` asks the BIOS for one entry of the memory map at a time, and
stores those it does not have to ignore, at most as many as there is room for.
-/

namespace Bootloader.Arch

open Bootloader.Std

/-- `SMAP_entry_t`. -/
structure SmapEntry where
  baseL : UInt32
  baseH : UInt32
  lengthL : UInt32
  lengthH : UInt32
  type : UInt32
  acpi : UInt32
deriving DecidableEq, Repr

/-- What `int 0x15` leaves: `eax`, `ebx` and `ecx`, and the entry at the place it
was given. -/
structure E820Reply where
  signature : UInt32
  continuationVal : UInt32
  bytes : UInt32
  entry : SmapEntry

/-- A BIOS by the number of the call and the continuation value it is given. -/
abbrev E820Bios : Type := Nat → UInt32 → E820Reply

/-- `0x534D4150`, "SMAP". -/
def smapSignature : UInt32 := 0x534D4150

/-- The loop variables of `e820_detect_mem`; `buffer` and `nb_entries` are the
entries stored so far. -/
structure E820Cursor where
  continuationVal : UInt32
  stored : List SmapEntry

/-- The entries stored after a reply; bit 0 of the extended attributes says
whether the entry counts, when the BIOS has returned them. -/
def storeReply (reply : E820Reply) (stored : List SmapEntry) : List SmapEntry :=
  if reply.bytes > 20 && reply.entry.acpi &&& 0x1 == 0x0 then stored
  else stored ++ [reply.entry]

/-- One turn of the loop in `e820_detect_mem`, in the state of the calls made. -/
def e820Turn (bios : E820Bios) (nbMaxEntries : Nat) (cursor : E820Cursor) (calls : Nat) :
    Outcome Nat (Turn E820Cursor (Option (List SmapEntry))) :=
  let reply := bios calls cursor.continuationVal
  if reply.signature ≠ smapSignature then .returned (.leave none) (calls + 1)
  else
    let stored := storeReply reply cursor.stored
    if reply.continuationVal ≠ 0 && stored.length < nbMaxEntries then
      .returned (.again ⟨reply.continuationVal, stored⟩) (calls + 1)
    else .returned (.leave (some stored)) (calls + 1)

/-- `e820_detect_mem`: the entries stored, or none where the source returns -1. A
BIOS that never comes to an end with entries to ignore keeps it from returning. -/
def e820DetectMem (turns : Nat) (bios : E820Bios) (nbMaxEntries : Nat) :
    Outcome Nat (Option (List SmapEntry)) :=
  loop (e820Turn bios nbMaxEntries) turns ⟨0, []⟩ 0

theorem storeReply_length (reply : E820Reply) (stored : List SmapEntry) :
    (storeReply reply stored).length ≤ stored.length + 1 := by
  rw [storeReply]
  split
  · exact Nat.le_succ _
  · exact Nat.le_of_eq List.length_append

/-- The entries stored are no more than there is room for. -/
def Fits (nbMaxEntries : Nat) : Outcome Nat (Option (List SmapEntry)) → Prop
  | .returned (some smap) _ => smap.length ≤ nbMaxEntries
  | _ => True

/-- What a turn does: it gives up at a reply that is none, and otherwise goes on while
the BIOS has more and there is room for it. -/
theorem e820Turn_cases (bios : E820Bios) (nbMaxEntries : Nat) (cursor : E820Cursor)
    (calls : Nat) :
    let reply := bios calls cursor.continuationVal
    let stored := storeReply reply cursor.stored
    let turn := e820Turn bios nbMaxEntries cursor calls
    (reply.signature ≠ smapSignature ∧ turn = .returned (.leave none) (calls + 1)) ∨
      (reply.signature = smapSignature ∧ reply.continuationVal ≠ 0 ∧
        stored.length < nbMaxEntries ∧
        turn = .returned (.again ⟨reply.continuationVal, stored⟩) (calls + 1)) ∨
      (reply.signature = smapSignature ∧
        (reply.continuationVal = 0 ∨ nbMaxEntries ≤ stored.length) ∧
        turn = .returned (.leave (some stored)) (calls + 1)) := by
  intro reply stored turn
  by_cases valid : reply.signature = smapSignature
  · have passed : turn = if reply.continuationVal ≠ 0 && stored.length < nbMaxEntries then
        .returned (.again ⟨reply.continuationVal, stored⟩) (calls + 1)
      else .returned (.leave (some stored)) (calls + 1) := if_neg (not_not_intro valid)
    rw [passed]
    by_cases more : reply.continuationVal ≠ 0 ∧ stored.length < nbMaxEntries
    · rw [if_pos (by simpa using more)]
      exact Or.inr (Or.inl ⟨valid, more.1, more.2, rfl⟩)
    · rw [if_neg (by simpa using more)]
      refine Or.inr (Or.inr ⟨valid, ?_, rfl⟩)
      by_cases last : reply.continuationVal = 0
      · exact Or.inl last
      · exact Or.inr (Nat.le_of_not_lt fun room => more ⟨last, room⟩)
  · exact Or.inl ⟨valid, if_pos valid⟩

/-- No more entries are stored than there is room for. -/
theorem e820DetectMem_fits {turns : Nat} {bios : E820Bios} {nbMaxEntries calls : Nat}
    {smap : List SmapEntry} (someRoom : 0 < nbMaxEntries)
    (detected : e820DetectMem turns bios nbMaxEntries = .returned (some smap) calls) :
    smap.length ≤ nbMaxEntries := by
  have step : ∀ cursor calls, cursor.stored.length < nbMaxEntries →
      Establishes (fun cursor _ => cursor.stored.length < nbMaxEntries) (Fits nbMaxEntries)
        (e820Turn bios nbMaxEntries cursor calls) := by
    intro cursor calls room
    obtain ⟨_, gave⟩ | ⟨_, _, room', again⟩ | ⟨_, _, left⟩ :=
      e820Turn_cases bios nbMaxEntries cursor calls
    · rw [gave]
      trivial
    · rw [again]
      exact room'
    · rw [left]
      exact Nat.le_trans (storeReply_length _ _) room
  have fits : Fits nbMaxEntries (e820DetectMem turns bios nbMaxEntries) :=
    loop_invariant step (fun _ _ _ => trivial) turns someRoom
  rwa [detected] at fits

end Bootloader.Arch
