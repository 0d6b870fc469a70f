import Bootloader.Common.HdDrvRequests

/-!
# Replies with the carry flag

`disk_read_sectors` takes the number of sectors from AL, whatever the carry flag of the
reply says, and `hd_read` counts what the last attempt for a piece reports.
`hdRead_counts_iff` says which failed replies are counted as data for that reason.
-/

namespace Bootloader.Common

open Bootloader.Std Bootloader.Arch Relation

/-- The registers that a read request is answered with. -/
def readReply (driveNb : UInt8) (segment offset : UInt16) (address : Chs) (nbSectors : UInt8)
    (machine : Machine) : Regs16 :=
  ((machine.record (.request address nbSectors)).int13
    (readRequest driveNb segment offset address nbSectors)).1

/-- The replies that the attempts for a piece get, the last one last. -/
def attemptReplies (driveNb : UInt8) (segment offset : UInt16) (address : Chs)
    (nbSectorsToRead : UInt8) : Nat → UInt8 → Machine → List Regs16
  | 0, _, _ => []
  | attempts + 1, nbReadSectors, machine =>
      if nbReadSectors ≠ nbSectorsToRead then
        readReply driveNb segment offset address nbSectorsToRead machine ::
          attemptReplies driveNb segment offset address nbSectorsToRead attempts
            (diskReadSectors driveNb segment offset address nbSectorsToRead machine).1
            (diskReadSectors driveNb segment offset address nbSectorsToRead machine).2
      else []

/-- The replies to the attempts for the piece at a point. -/
def pieceReplies (minor : UInt8) (desc : ChsDiskGeometry) (point : HdCursor × Machine) :
    List Regs16 :=
  attemptReplies (biosHdDriveBaseNb + minor) segmentExtraDataRm 0
    (lbatochs desc point.1.lbaStart) (pieceSize desc point.1) 5 0 point.2

/-- The sectors that are copied and counted for a piece, if any, are those that a reply
without the carry flag reports. -/
def CountsCleared (minor : UInt8) (desc : ChsDiskGeometry) (point : HdCursor × Machine) : Prop :=
  (pieceRead minor desc point.1 point.2).1 ≠ 0 →
    ∃ reply, (pieceReplies minor desc point).getLast? = some reply ∧
      reply.al = (pieceRead minor desc point.1 point.2).1 ∧ reply.cf = false

/-- No reply with the carry flag passes for a success: none reports as many sectors as were
asked for, and none reports any at the last attempt. -/
def CarryHarmless (minor : UInt8) (desc : ChsDiskGeometry) (point : HdCursor × Machine) : Prop :=
  ∀ index reply, (pieceReplies minor desc point)[index]? = some reply → reply.cf = true →
    reply.al ≠ pieceSize desc point.1 ∧ (index = 4 → reply.al = 0)

section Attempts

variable {driveNb nbSectorsToRead : UInt8} {segment offset : UInt16} {address : Chs}

/-- A first attempt, and the others. -/
theorem attemptReplies_succ {attempts : Nat} {nbReadSectors : UInt8} {machine : Machine}
    (again : nbReadSectors ≠ nbSectorsToRead) :
    attemptReplies driveNb segment offset address nbSectorsToRead (attempts + 1) nbReadSectors
        machine =
      readReply driveNb segment offset address nbSectorsToRead machine ::
        attemptReplies driveNb segment offset address nbSectorsToRead attempts
          (diskReadSectors driveNb segment offset address nbSectorsToRead machine).1
          (diskReadSectors driveNb segment offset address nbSectorsToRead machine).2 := by
  rw [attemptReplies, if_pos again]

/-- The attempts end with the first reply that reports what was asked for, or when there
are no more of them, and the last reply is the one that counts. -/
theorem attempts_spec (attempts : Nat) {nbReadSectors : UInt8} {machine : Machine}
    (again : nbReadSectors ≠ nbSectorsToRead) :
    ∃ earlier last, attemptReplies driveNb segment offset address nbSectorsToRead (attempts + 1)
        nbReadSectors machine = earlier ++ [last] ∧
      last.al = (readAttempts driveNb segment offset address nbSectorsToRead (attempts + 1)
        nbReadSectors machine).1 ∧
      (∀ reply ∈ earlier, reply.al ≠ nbSectorsToRead) ∧ earlier.length ≤ attempts ∧
      (last.al = nbSectorsToRead ∨ earlier.length = attempts) := by
  rw [attemptReplies_succ again, readAttempts_succ again]
  have reported : (diskReadSectors driveNb segment offset address nbSectorsToRead machine).1 =
      (readReply driveNb segment offset address nbSectorsToRead machine).al := rfl
  induction attempts generalizing nbReadSectors machine with
  | zero =>
      exact ⟨[], _, rfl, rfl, fun _ member => absurd member List.not_mem_nil, Nat.le_refl _,
        Or.inr rfl⟩
  | succ attempts inductionHypothesis =>
      by_cases short : (diskReadSectors driveNb segment offset address nbSectorsToRead
          machine).1 ≠ nbSectorsToRead
      · obtain ⟨earlier, last, replies, counted, others, few, ends⟩ :=
          inductionHypothesis short rfl
        rw [attemptReplies_succ short, readAttempts_succ short]
        refine ⟨_ :: earlier, last, by rw [replies, List.cons_append], counted, ?_,
          Nat.succ_le_succ few, ends.imp_right fun length => by rw [List.length_cons, length]⟩
        intro reply member
        rcases List.mem_cons.mp member with first | later
        · rwa [first, ← reported]
        · exact others reply later
      · rw [attemptReplies, if_neg short, readAttempts, if_neg short]
        exact ⟨[], _, rfl, reported.symm, fun _ member => absurd member List.not_mem_nil,
          Nat.zero_le _, Or.inl (reported ▸ not_not.mp short)⟩

end Attempts

section Pieces

variable {minor : UInt8} {desc : ChsDiskGeometry} {point : HdCursor × Machine}

/-- A piece without sectors is not asked for. -/
theorem pieceReplies_none (zero : pieceSize desc point.1 = 0) :
    pieceReplies minor desc point = [] ∧ (pieceRead minor desc point.1 point.2).1 = 0 := by
  rw [pieceReplies, pieceRead, zero]
  exact ⟨rfl, rfl⟩

/-- What is counted for a piece comes from a success when no failure passes for one. -/
theorem countsCleared_iff :
    CountsCleared minor desc point ↔ CarryHarmless minor desc point := by
  by_cases empty : pieceSize desc point.1 = 0
  · obtain ⟨nothing, zero⟩ := @pieceReplies_none minor desc point empty
    refine iff_of_true (fun counted => absurd zero counted) fun index reply found => ?_
    rw [nothing] at found
    cases found
  · obtain ⟨earlier, last, replies, counted, others, few, ends⟩ :=
      @attempts_spec (biosHdDriveBaseNb + minor) (pieceSize desc point.1) segmentExtraDataRm 0
        (lbatochs desc point.1.lbaStart) 4 0 point.2 (Ne.symm empty)
    rw [CountsCleared, CarryHarmless, pieceReplies, pieceRead, replies, ← counted]
    constructor
    · intro cleared index reply found carry
      rcases Nat.lt_trichotomy index earlier.length with before | here | behind
      · rw [List.getElem?_append_left before] at found
        exact ⟨others reply (List.mem_of_getElem? found), fun fifth => by omega⟩
      · rw [here, List.getElem?_concat_length] at found
        cases found
        -- the last reply has the carry flag, so it may not have counted anything
        have zero : last.al = 0 := by
          by_contra counts
          obtain ⟨reply, isLast, _, clear⟩ := cleared counts
          rw [List.getLast?_concat] at isLast
          cases isLast
          rw [carry] at clear
          cases clear
        exact ⟨fun full => empty (full ▸ zero), fun _ => zero⟩
      · rw [List.getElem?_eq_none (by rw [List.length_append]; exact behind)] at found
        cases found
    · intro harmless counts
      refine ⟨last, List.getLast?_concat, rfl, ?_⟩
      by_contra carry
      obtain ⟨short, nothing⟩ := harmless earlier.length last List.getElem?_concat_length
        (Bool.not_eq_false _ ▸ carry)
      rcases ends with full | fifth
      · exact short full
      · exact counts (nothing fifth)

end Pieces

/-- The replies under which `hd_read` counts and copies only what successful attempts
report: there is no buffer to copy to, or at no point it comes to does a failed reply pass
for a success. -/
theorem hdRead_counts_iff (minor : UInt8) (desc : ChsDiskGeometry) (lba count buffer : UInt32)
    (machine : Machine) :
    (∀ point next, Visits minor desc lba count buffer machine point →
      Again (hdReadTurn minor desc buffer) point next → CountsCleared minor desc point) ↔
      buffer = 0 ∨ ∀ point, Visits minor desc lba count buffer machine point →
        0 < point.1.count → CarryHarmless minor desc point := by
  by_cases valid : buffer = 0
  · exact iff_of_true (fun point next _ turn => absurd valid (again_iff.mp turn).2.1)
      (Or.inl valid)
  · rw [or_iff_right valid]
    constructor
    · intro counts point visits left
      exact countsCleared_iff.mp (counts point _ visits (again_iff.mpr ⟨left, valid, rfl⟩))
    · intro harmless point next visits turn
      exact countsCleared_iff.mpr (harmless point visits (again_iff.mp turn).1)

/-- A BIOS that fails every request, and leaves AL as it was. -/
def carryReplies : Nat → Bios := fun _ regs memory => ({ regs with cf := true }, memory)

/-- The loop at the start of a read of the first sector from such a drive. -/
def carryStart : HdCursor × Machine :=
  (⟨0, 0, 1, (1 : UInt32).toUInt8⟩, freshMachine openDevices carryReplies fun _ => 0)

/-- A failed read of the first sector is counted as one sector read. -/
theorem hdRead_counts_failure :
    ¬ ∀ point next, Visits 0 smallDisk 0 1 0x100000 carryStart.2 point →
      Again (hdReadTurn 0 smallDisk 0x100000) point next → CountsCleared 0 smallDisk point := by
  intro counts
  have start : Visits 0 smallDisk 0 1 0x100000 carryStart.2 carryStart :=
    ⟨rfl, by decide, by decide, by decide, .refl⟩
  have left : 0 < carryStart.1.count := by decide
  have counted : (pieceRead 0 smallDisk carryStart.1 carryStart.2).1 ≠ 0 := by decide
  obtain ⟨reply, last, _, clear⟩ :=
    counts _ _ start (again_iff.mpr ⟨left, by decide, rfl⟩) counted
  cases last
  cases clear

end Bootloader.Common
