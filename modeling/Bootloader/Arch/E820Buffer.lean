import Bootloader.Arch.E820
import Mathlib.Data.List.Range

/-!
# The buffer of the memory map

`e820_detect_mem` hands the BIOS a slot of its buffer at each call, moves on to the next
slot when the entry counts, and lets the BIOS overwrite the slot when it does not. This
is the loop as it works on the buffer; `e820DetectMemInto_simulates` says that it stores
the entries that `e820DetectMem` lists, and `e820_bounded_filter` which these are.
-/

namespace Bootloader.Arch

open Bootloader.Std

/-- The buffer by slot, and the slots that the BIOS has been given, one a call. -/
structure E820Machine where
  buffer : Nat → SmapEntry
  slots : List Nat

/-- The loop variables of `e820_detect_mem`; `slot` is where `buffer` points to. -/
structure E820Position where
  continuationVal : UInt32
  slot : Nat
  nbEntries : Int

/-- `bioscall(0x15)` with the slot in `DI`: the BIOS leaves its entry there. -/
def E820Machine.call (machine : E820Machine) (slot : Nat) (entry : SmapEntry) : E820Machine where
  buffer := fun index => if index = slot then entry else machine.buffer index
  slots := machine.slots ++ [slot]

/-- One turn of the loop in `e820_detect_mem`. -/
def e820IntoTurn (bios : E820Bios) (nbMaxEntries : Int) (position : E820Position)
    (machine : E820Machine) : Outcome E820Machine (Turn E820Position Int) :=
  let reply := bios machine.slots.length position.continuationVal
  let machine := machine.call position.slot reply.entry
  if reply.signature ≠ smapSignature then .returned (.leave (-1)) machine
  else
    let position : E820Position :=
      if reply.bytes > 20 && (machine.buffer position.slot).acpi &&& 0x1 == 0x0 then
        { position with continuationVal := reply.continuationVal }
      else ⟨reply.continuationVal, position.slot + 1, position.nbEntries + 1⟩
    if position.continuationVal ≠ 0 && position.nbEntries < nbMaxEntries then
      .returned (.again position) machine
    else .returned (.leave position.nbEntries) machine

/-- `e820_detect_mem` of the real-mode build, for at most `turns` calls. -/
def e820DetectMemInto (turns : Nat) (bios : E820Bios) (buffer : Nat → SmapEntry)
    (nbMaxEntries : Int) : Outcome E820Machine Int :=
  loop (e820IntoTurn bios nbMaxEntries) turns ⟨0, 0, 0⟩ ⟨buffer, []⟩

/-- The entries in the first slots of a buffer. -/
def entries (buffer : Nat → SmapEntry) (count : Nat) : List SmapEntry :=
  (List.range count).map buffer

section Simulation

variable {bios : E820Bios} {nbMaxEntries : Int} {position : E820Position}
  {machine : E820Machine} {cursor : E820Cursor} {calls : Nat}

/-- The loop on the buffer is where the loop on the list is: the slots before the next
one hold the entries stored. -/
structure Follows (nbMaxEntries : Int) (position : E820Position) (machine : E820Machine)
    (cursor : E820Cursor) (calls : Nat) : Prop where
  continuation : position.continuationVal = cursor.continuationVal
  counted : position.nbEntries = position.slot
  stored : entries machine.buffer position.slot = cursor.stored
  room : (position.slot : Int) < nbMaxEntries
  given : ∀ slot ∈ machine.slots, (slot : Int) < nbMaxEntries
  made : machine.slots.length = calls

/-- What the loop on the buffer returns for what the loop on the list does. -/
structure Yields (nbMaxEntries : Int) (nbEntries : Int) (machine : E820Machine)
    (smap : Option (List SmapEntry)) (calls : Nat) : Prop where
  failed : smap = none → nbEntries = -1
  stored : ∀ list, smap = some list →
    nbEntries = list.length ∧ entries machine.buffer list.length = list
  given : ∀ slot ∈ machine.slots, (slot : Int) < nbMaxEntries
  made : machine.slots.length = calls

theorem entries_succ (buffer : Nat → SmapEntry) (count : Nat) :
    entries buffer (count + 1) = entries buffer count ++ [buffer count] := by
  rw [entries, List.range_succ, List.map_append, ← entries]
  rfl

@[simp] theorem entries_length (buffer : Nat → SmapEntry) (count : Nat) :
    (entries buffer count).length = count := by
  rw [entries, List.length_map, List.length_range]

/-- A call leaves the slots before its own as they are. -/
theorem entries_call (machine : E820Machine) (slot : Nat) (entry : SmapEntry) :
    entries (machine.call slot entry).buffer slot = entries machine.buffer slot := by
  refine List.map_congr_left fun index member => ?_
  exact if_neg (Nat.ne_of_lt (List.mem_range.mp member))

theorem call_slot (machine : E820Machine) (slot : Nat) (entry : SmapEntry) :
    (machine.call slot entry).buffer slot = entry := if_pos rfl

theorem Follows.given_call (follows : Follows nbMaxEntries position machine cursor calls)
    (entry : SmapEntry) :
    ∀ slot ∈ (machine.call position.slot entry).slots, (slot : Int) < nbMaxEntries := by
  intro slot member
  rcases List.mem_append.mp member with earlier | here
  · exact follows.given slot earlier
  · rw [List.mem_singleton.mp here]
    exact follows.room

theorem Follows.made_call (follows : Follows nbMaxEntries position machine cursor calls)
    (entry : SmapEntry) : (machine.call position.slot entry).slots.length = calls + 1 := by
  rw [← follows.made]
  exact List.length_append

/-- Where a reply leads the loop on the buffer: it holds the entries stored after it. -/
theorem Follows.store (follows : Follows nbMaxEntries position machine cursor calls)
    (reply : E820Reply) : ∃ slot : Nat,
    (if reply.bytes > 20 &&
        ((machine.call position.slot reply.entry).buffer position.slot).acpi &&& 0x1 == 0x0 then
      ({ position with continuationVal := reply.continuationVal } : E820Position)
    else ⟨reply.continuationVal, position.slot + 1, position.nbEntries + 1⟩) =
      ⟨reply.continuationVal, slot, slot⟩ ∧
    slot = (storeReply reply cursor.stored).length ∧
    entries (machine.call position.slot reply.entry).buffer slot =
      storeReply reply cursor.stored := by
  have before := follows.stored
  have length : cursor.stored.length = position.slot := by
    rw [← before, entries_length]
  rw [call_slot, storeReply]
  by_cases ignorable : (reply.bytes > 20 && reply.entry.acpi &&& 0x1 == 0x0) = true
  · rw [if_pos ignorable, if_pos ignorable, follows.counted]
    exact ⟨position.slot, rfl, length.symm, by rw [entries_call, before]⟩
  · rw [if_neg ignorable, if_neg ignorable, follows.counted]
    refine ⟨position.slot + 1, rfl, ?_, ?_⟩
    · rw [List.length_append, length]
      rfl
    · rw [entries_succ, entries_call, before, call_slot]

/-- A turn on the buffer does what the turn on the list does. -/
theorem e820IntoTurn_agrees (follows : Follows nbMaxEntries position machine cursor calls) :
    Agrees (Follows nbMaxEntries) (Yields nbMaxEntries)
      (e820IntoTurn bios nbMaxEntries position machine)
      (e820Turn bios nbMaxEntries.toNat cursor calls) := by
  have given := follows.given_call
  have made := follows.made_call
  obtain ⟨slot, moved, length, stored⟩ :=
    follows.store (bios calls cursor.continuationVal)
  simp only [e820IntoTurn, follows.made, follows.continuation, moved]
  obtain ⟨invalid, ran⟩ | ⟨valid, more, room, ran⟩ | ⟨valid, last, ran⟩ :=
    e820Turn_cases bios nbMaxEntries.toNat cursor calls
  · rw [ran, if_pos invalid]
    exact ⟨fun _ => rfl, fun _ found => (nomatch found), given _, made _⟩
  · rw [← length, Int.lt_toNat] at room
    rw [ran, if_neg (not_not_intro valid), if_pos (by simpa using ⟨more, room⟩)]
    exact ⟨rfl, rfl, stored, room, given _, made _⟩
  · have stops : ¬ ((bios calls cursor.continuationVal).continuationVal ≠ 0 ∧
        (slot : Int) < nbMaxEntries) := by
      rintro ⟨more, room⟩
      rw [← length, Int.toNat_le] at last
      rcases last with last | full
      · exact more last
      · omega
    rw [ran, if_neg (not_not_intro valid), if_neg (by simpa using stops)]
    refine ⟨fun nothing => (nomatch nothing), fun list found => ?_, given _, made _⟩
    cases found
    rw [← length]
    exact ⟨rfl, stored⟩

end Simulation

/-- The loop on the buffer returns what the loop on the list does, and stores its
entries in the first slots. -/
theorem e820DetectMemInto_simulates {turns : Nat} {bios : E820Bios} {buffer : Nat → SmapEntry}
    {nbMaxEntries result : Int} {final : E820Machine} (someRoom : 1 ≤ nbMaxEntries)
    (ran : e820DetectMemInto turns bios buffer nbMaxEntries = .returned result final) :
    ∃ smap calls, e820DetectMem turns bios nbMaxEntries.toNat = .returned smap calls ∧
      Yields nbMaxEntries result final smap calls := by
  refine loop_simulation (fun _ _ _ _ follows => e820IntoTurn_agrees follows) ?_ ran
  exact ⟨rfl, rfl, rfl, someRoom, fun _ member => absurd member List.not_mem_nil, rfl⟩

/-- The reply to a call, each call passing on the continuation value of the one before. -/
def e820Reply (bios : E820Bios) : Nat → E820Reply
  | 0 => bios 0 0
  | call + 1 => bios (call + 1) (e820Reply bios call).continuationVal

/-- More than 20 bytes, and bit 0 of the extended attributes clear. -/
def E820Reply.ignorable (reply : E820Reply) : Bool :=
  reply.bytes > 20 && reply.entry.acpi &&& 0x1 == 0x0

/-- The entries of the first replies that do not have to be ignored, in order. -/
def keptEntries (bios : E820Bios) (calls : Nat) : List SmapEntry :=
  (((List.range calls).map (e820Reply bios)).filter fun reply => !reply.ignorable).map
    E820Reply.entry

/-- A reply that ends the collection: it is none, or it is the last one, or it fills the
buffer. -/
def Stops (bios : E820Bios) (nbMaxEntries call : Nat) : Prop :=
  (e820Reply bios call).signature ≠ smapSignature ∨
    (e820Reply bios call).continuationVal = 0 ∨
    nbMaxEntries ≤ (keptEntries bios (call + 1)).length

section Filter

variable {bios : E820Bios} {nbMaxEntries calls : Nat}

/-- The next reply is stored exactly when it does not have to be ignored. -/
theorem keptEntries_succ (bios : E820Bios) (calls : Nat) :
    keptEntries bios (calls + 1) = storeReply (e820Reply bios calls) (keptEntries bios calls) := by
  rw [keptEntries, List.range_succ, List.map_append, List.filter_append, List.map_append,
    ← keptEntries, storeReply, ← E820Reply.ignorable]
  cases ignorable : (e820Reply bios calls).ignorable <;> simp [ignorable]

/-- The loop has stored what it had to keep, and has not come to a reply that stops it. -/
structure Collects (bios : E820Bios) (nbMaxEntries : Nat) (cursor : E820Cursor)
    (calls : Nat) : Prop where
  reply : bios calls cursor.continuationVal = e820Reply bios calls
  stored : cursor.stored = keptEntries bios calls
  goesOn : ∀ call < calls, ¬ Stops bios nbMaxEntries call

/-- What has been collected when the loop ends. -/
def Collected (bios : E820Bios) (nbMaxEntries : Nat) :
    Outcome Nat (Option (List SmapEntry)) → Prop
  | .returned smap calls => ∃ stop, calls = stop + 1 ∧ Stops bios nbMaxEntries stop ∧
      (∀ call < stop, ¬ Stops bios nbMaxEntries call) ∧
      (smap = none ↔ (e820Reply bios stop).signature ≠ smapSignature) ∧
      ∀ list, smap = some list → list = keptEntries bios (stop + 1)
  | _ => True

theorem e820Turn_collects {cursor : E820Cursor}
    (collects : Collects bios nbMaxEntries cursor calls) :
    Establishes (Collects bios nbMaxEntries) (Collected bios nbMaxEntries)
      (e820Turn bios nbMaxEntries cursor calls) := by
  have cases := e820Turn_cases bios nbMaxEntries cursor calls
  simp only [collects.reply, collects.stored, ← keptEntries_succ] at cases
  obtain ⟨invalid, ran⟩ | ⟨valid, more, room, ran⟩ | ⟨valid, last, ran⟩ := cases
  · rw [ran]
    exact ⟨calls, rfl, Or.inl invalid, collects.goesOn, iff_of_true rfl invalid,
      fun _ found => (nomatch found)⟩
  · rw [ran]
    refine ⟨rfl, rfl, fun call earlier => ?_⟩
    rcases Nat.lt_succ_iff_lt_or_eq.mp earlier with earlier | here
    · exact collects.goesOn call earlier
    · rw [here]
      rintro (invalid | last | full)
      · exact invalid valid
      · exact more last
      · exact absurd room (Nat.not_lt.mpr full)
  · rw [ran]
    refine ⟨calls, rfl, Or.inr last, collects.goesOn,
      iff_of_false (fun nothing => (nomatch nothing)) (not_not_intro valid), fun list found => ?_⟩
    cases found
    rfl

/-- The list holds the replies up to the one that stops the loop, without those to ignore. -/
theorem e820DetectMem_collects (turns : Nat) (bios : E820Bios) (nbMaxEntries : Nat) :
    Collected bios nbMaxEntries (e820DetectMem turns bios nbMaxEntries) :=
  loop_invariant (fun _ _ collects => e820Turn_collects collects) (fun _ _ _ => trivial) turns
    ⟨rfl, rfl, fun _ earlier => absurd earlier (Nat.not_lt_zero _)⟩

end Filter

/-- The collection of the memory map is a bounded filter: every slot the BIOS is given is
one of the buffer, and what is returned is decided by the first reply that stops it. -/
theorem e820_bounded_filter (bios : E820Bios) (buffer : Nat → SmapEntry)
    {nbMaxEntries : Int} (someRoom : 1 ≤ nbMaxEntries) {turns : Nat} {result : Int}
    {final : E820Machine}
    (ran : e820DetectMemInto turns bios buffer nbMaxEntries = .returned result final) :
    (∀ slot ∈ final.slots, (slot : Int) < nbMaxEntries) ∧
      ∃ stop, Stops bios nbMaxEntries.toNat stop ∧
        (∀ call < stop, ¬ Stops bios nbMaxEntries.toNat call) ∧
        final.slots.length = stop + 1 ∧
        (result = -1 ↔ (e820Reply bios stop).signature ≠ smapSignature) ∧
        (result ≠ -1 → ∃ count : Nat, result = count ∧ (count : Int) ≤ nbMaxEntries ∧
          entries final.buffer count = keptEntries bios (stop + 1)) := by
  obtain ⟨smap, calls, listed, delivers⟩ := e820DetectMemInto_simulates someRoom ran
  have collected := e820DetectMem_collects turns bios nbMaxEntries.toNat
  rw [listed] at collected
  obtain ⟨stop, made, stops, first, failed, kept⟩ := collected
  refine ⟨delivers.given, stop, stops, first, delivers.made.trans made, ?_⟩
  cases smap with
  | none =>
      have invalid := failed.mp rfl
      have result := delivers.failed rfl
      exact ⟨iff_of_true result invalid, fun other => absurd result other⟩
  | some list =>
      obtain ⟨counted, stored⟩ := delivers.stored list rfl
      have fits := e820DetectMem_fits (Int.lt_toNat.mpr someRoom) listed
      rw [Int.le_toNat (by omega)] at fits
      refine ⟨iff_of_false (by omega) fun invalid => (nomatch failed.mpr invalid), fun _ => ?_⟩
      exact ⟨list.length, counted, fits, stored.trans (kept list rfl)⟩

/-- A BIOS with an entry to ignore and one to keep. -/
def twoReplies : E820Bios := fun call _ =>
  if call = 0 then ⟨smapSignature, 1, 24, ⟨0, 0, 0x1000, 0, 2, 0⟩⟩
  else ⟨smapSignature, 0, 24, ⟨0x1000, 0, 0x9F000, 0, 1, 1⟩⟩

/-- A buffer that nothing has been stored in. -/
def blankBuffer : Nat → SmapEntry := fun _ => ⟨0, 0, 0, 0, 0, 0⟩

/-- The second entry overwrites the first in a buffer with room for one. -/
theorem e820_bounded_filter_overwritten : ∃ final,
    e820DetectMemInto 2 twoReplies blankBuffer 1 = .returned 1 final ∧
      final.slots = [0, 0] ∧ (∀ slot ∈ final.slots, (slot : Int) < 1) ∧
      ∃ stop, Stops twoReplies (1 : Int).toNat stop ∧
        (∀ call < stop, ¬ Stops twoReplies (1 : Int).toNat call) ∧
        final.slots.length = stop + 1 ∧
        ((1 : Int) = -1 ↔ (e820Reply twoReplies stop).signature ≠ smapSignature) ∧
        ((1 : Int) ≠ -1 → ∃ count : Nat, (1 : Int) = count ∧ (count : Int) ≤ 1 ∧
          entries final.buffer count = keptEntries twoReplies (stop + 1)) :=
  ⟨_, rfl, rfl, @e820_bounded_filter twoReplies blankBuffer 1 (by decide) 2 1 _ rfl⟩

end Bootloader.Arch
