import Bootloader.Common.HdDrvDelivery

/-!
# A disk that fails

The BIOS may refuse to reset or to describe a drive, and may report no sector read for
as many attempts as it likes. A read of the first sector that comes back all the same
has that sector in its buffer, and has changed no other byte of a client.
-/

namespace Bootloader.Common

open Bootloader.Std Bootloader.Libc Bootloader.Arch

/-- A BIOS for a drive with this image that answers resets and geometry requests as it
likes and reads a request in full or not at all. Of the memory above what is its own it
writes only what it was asked to read. -/
structure FaultyBios (image : Nat → UInt8) (desc : ChsDiskGeometry) (bios : Bios) : Prop where
  quiet : ∀ regs memory address, regs.ah ≠ 0x02 → lowMemory ≤ address →
    (bios regs memory).2 address = memory address
  described : ∀ regs memory, regs.ah = 0x08 → (bios regs memory).1.refused = false →
    1 ≤ (bios regs memory).1.geometry.ns ∧ (bios regs memory).1.geometry.ns ≤ 63 ∧
      1 ≤ (bios regs memory).1.geometry.nh
  count : ∀ regs memory, regs.ah = 0x02 →
    (bios regs memory).1.al = 0 ∨ (bios regs memory).1.al = regs.al
  data : ∀ regs memory offset, regs.ah = 0x02 → (bios regs memory).1.al = regs.al →
    offset < regs.al.toNat * 512 →
      (bios regs memory).2 (transfer regs + offset) = image (regs.sector desc * 512 + offset)
  frame : ∀ regs memory address, regs.ah = 0x02 → lowMemory ≤ address →
    address < transfer regs ∨ transfer regs + regs.al.toNat * 512 ≤ address →
      (bios regs memory).2 address = memory address

/-- Every answer a machine will get is one of such a BIOS. -/
def Served (image : Nat → UInt8) (desc : ChsDiskGeometry) (replies : Nat → Bios) : Prop :=
  ∀ index, FaultyBios image desc (replies index)

theorem Served.next {image : Nat → UInt8} {desc : ChsDiskGeometry} {replies : Nat → Bios}
    (served : Served image desc replies) : Served image desc fun index => replies (index + 1) :=
  fun index => served (index + 1)

/-- The answers that are left after some of them. -/
def Tail (replies later : Nat → Bios) : Prop :=
  ∃ used, later = fun index => replies (index + used)

theorem Tail.refl (replies : Nat → Bios) : Tail replies replies := ⟨0, rfl⟩

theorem Tail.trans {replies later last : Nat → Bios} (tail : Tail replies later)
    (further : Tail later last) : Tail replies last := by
  obtain ⟨used, rfl⟩ := tail
  obtain ⟨more, rfl⟩ := further
  exact ⟨more + used, funext fun index => congrArg replies (Nat.add_assoc index more used)⟩

theorem Served.tail {image : Nat → UInt8} {desc : ChsDiskGeometry}
    {replies later : Nat → Bios} (served : Served image desc replies)
    (tail : Tail replies later) : Served image desc later := by
  obtain ⟨used, rfl⟩ := tail
  exact fun index => served (index + used)

/-- An answer that reads whatever is asked for. -/
def ReadsInFull (bios : Bios) : Prop :=
  ∀ regs memory, regs.ah = 0x02 → (bios regs memory).1.al = regs.al

/-- However long the disk fails, it reads in the end. -/
def ReadsInTheEnd (replies : Nat → Bios) : Prop :=
  ∀ index, ∃ distance, ReadsInFull (replies (distance + index))

theorem ReadsInTheEnd.tail {replies later : Nat → Bios} (reads : ReadsInTheEnd replies)
    (tail : Tail replies later) : ReadsInTheEnd later := by
  obtain ⟨used, rfl⟩ := tail
  intro index
  obtain ⟨distance, full⟩ := reads (index + used)
  rw [← Nat.add_assoc] at full
  exact ⟨distance, full⟩

section FirstSector

variable {image : Nat → UInt8} {desc devInfo : ChsDiskGeometry} {machine : Machine}
  {memory : Memory} {minor nbSectors driveNb : UInt8} {buffer : UInt32} {cursor : HdCursor}

/-- The first sector of a disk is at the same place in every geometry. -/
theorem lbatochs_first : lbatochs devInfo 0 = ⟨0, 0, 1⟩ := by
  simp [lbatochs]

/-- After some attempts to read the first sector: `nbSectors` is what the last of them
reported, and of the memory a client can see only the bounce buffer has changed. -/
structure Attempted (image : Nat → UInt8) (desc : ChsDiskGeometry) (memory : Memory)
    (nbSectors : UInt8) (machine : Machine) : Prop where
  served : Served image desc machine.replies
  count : nbSectors = 0 ∨ nbSectors = 1
  data : nbSectors = 1 → ∀ offset < 512, machine.memory (bounceBuffer + offset) = image offset
  frame : ∀ address, lowMemory ≤ address →
    address < bounceBuffer ∨ bounceBuffer + 512 ≤ address →
      machine.memory address = memory address

/-- One more attempt. -/
theorem Attempted.again (attempted : Attempted image desc memory nbSectors machine) :
    Attempted image desc memory
      (diskReadSectors driveNb segmentExtraDataRm 0 ⟨0, 0, 1⟩ 1 machine).1
      (diskReadSectors driveNb segmentExtraDataRm 0 ⟨0, 0, 1⟩ 1 machine).2 := by
  have one : (readRequest driveNb segmentExtraDataRm 0 ⟨0, 0, 1⟩ 1).al.toNat = 1 := rfl
  have first : (readRequest driveNb segmentExtraDataRm 0 ⟨0, 0, 1⟩ 1).sector desc = 0 := by
    rw [readRequest_sector desc (by decide) (by decide)]
    simp
  have bios := attempted.served 0
  refine ⟨attempted.served.next, bios.count _ machine.memory rfl, fun full offset below => ?_,
    fun address low out => ?_⟩
  · have read := bios.data _ machine.memory offset rfl full (by rw [one]; omega)
    rwa [transfer_readRequest, first, Nat.zero_mul, Nat.zero_add] at read
  · have kept := bios.frame _ machine.memory address rfl low
      (by rw [transfer_readRequest, one]; omega)
    exact kept.trans (attempted.frame address low out)

/-- Any number of attempts. -/
theorem Attempted.attempts (driveNb : UInt8) (attempts : Nat)
    (attempted : Attempted image desc memory nbSectors machine) :
    Attempted image desc memory
      (readAttempts driveNb segmentExtraDataRm 0 ⟨0, 0, 1⟩ 1 attempts nbSectors machine).1
      (readAttempts driveNb segmentExtraDataRm 0 ⟨0, 0, 1⟩ 1 attempts nbSectors machine).2 := by
  induction attempts generalizing nbSectors machine with
  | zero => exact attempted
  | succ attempts inductionHypothesis =>
      rw [readAttempts]
      split
      · exact inductionHypothesis attempted.again
      · exact attempted

/-- The attempts go on until one reads the sector, or all of them were made before the
answer that does. -/
theorem readAttempts_reach (driveNb : UInt8) (attempts : Nat) {distance : Nat}
    (served : Served image desc machine.replies)
    (full : ReadsInFull (machine.replies distance)) :
    (readAttempts driveNb segmentExtraDataRm 0 ⟨0, 0, 1⟩ 1 attempts 0 machine).1 = 1 ∨
      attempts ≤ distance ∧
        ReadsInFull ((readAttempts driveNb segmentExtraDataRm 0 ⟨0, 0, 1⟩ 1 attempts 0
          machine).2.replies (distance - attempts)) := by
  induction attempts generalizing distance machine with
  | zero => exact Or.inr ⟨Nat.zero_le _, full⟩
  | succ attempts inductionHypothesis =>
      let request := readRequest driveNb segmentExtraDataRm 0 ⟨0, 0, 1⟩ 1
      have asked : request.al = 1 := rfl
      rw [readAttempts, if_pos (by decide)]
      rcases (served 0).count request machine.memory rfl with zero | one
      · have failed : (diskReadSectors driveNb segmentExtraDataRm 0 ⟨0, 0, 1⟩ 1 machine).1 = 0 :=
          zero
        simp only [failed]
        cases distance with
        | zero =>
            have read := full request machine.memory rfl
            rw [zero, asked] at read
            cases read
        | succ distance =>
            have served' : Served image desc
                (diskReadSectors driveNb segmentExtraDataRm 0 ⟨0, 0, 1⟩ 1 machine).2.replies :=
              served.next
            have full' : ReadsInFull
                ((diskReadSectors driveNb segmentExtraDataRm 0 ⟨0, 0, 1⟩ 1 machine).2.replies
                  distance) := full
            have reach := inductionHypothesis served' full'
            rw [Nat.add_le_add_iff_right, Nat.add_sub_add_right]
            exact reach
      · have done : (diskReadSectors driveNb segmentExtraDataRm 0 ⟨0, 0, 1⟩ 1 machine).1 = 1 :=
          one.trans asked
        simp only [done]
        cases attempts <;> simp [readAttempts]

/-- The loop of `hd_read` when it was asked for the first sector: the sector is still to
be read, or stands in the buffer. -/
structure ReadsFirst (image : Nat → UInt8) (desc : ChsDiskGeometry) (buffer : UInt32)
    (memory : Memory) (cursor : HdCursor) (machine : Machine) : Prop where
  served : Served image desc machine.replies
  progress : cursor = ⟨0, 0, 1, 1⟩ ∨ cursor.count = 0 ∧ cursor.read = 512 ∧
    ∀ offset < 512, machine.memory (buffer.toNat + offset) = image offset
  frame : ∀ address, lowMemory ≤ address →
    address < bounceBuffer ∨ bounceBuffer + 512 ≤ address →
      address < buffer.toNat ∨ buffer.toNat + 512 ≤ address →
        machine.memory address = memory address

/-- The cursor stays where it is when nothing was read, and is done otherwise. -/
theorem cursor_stays : HdCursor.advance ⟨0, 0, 1, 1⟩ 1 0 = ⟨0, 0, 1, 1⟩ := by
  simp [HdCursor.advance]

theorem cursor_done : HdCursor.advance ⟨0, 0, 1, 1⟩ 1 1 = ⟨512, 1, 0, 1⟩ := by
  simp [HdCursor.advance, sectorSize]

/-- What the attempts have read is copied to the buffer. -/
theorem ReadsFirst.copied {result : UInt8 × Machine} (client : ClientBuffer buffer.toNat 512)
    (reads : ReadsFirst image desc buffer memory ⟨0, 0, 1, 1⟩ machine)
    (attempted : Attempted image desc machine.memory result.1 result.2) :
    ReadsFirst image desc buffer memory (HdCursor.advance ⟨0, 0, 1, 1⟩ 1 result.1)
      ((copyPiece buffer result.1 result.2).record (.advance result.1)) := by
  have apart := client.apart
  have memory_copied : ((copyPiece buffer result.1 result.2).record
      (.advance result.1)).memory =
        result.2.memory.copyUp buffer.toNat bounceBuffer (result.1.toNat * 512) := rfl
  have bytes : result.1.toNat * 512 ≤ 512 := by
    rcases attempted.count with zero | one
    · simp [zero]
    · simp [one]
  refine ⟨attempted.served, ?_, fun address low outBounce outBuffer => ?_⟩
  · rcases attempted.count with zero | one
    · rw [zero]
      exact Or.inl cursor_stays
    · have whole : result.1.toNat * 512 = 512 := by rw [one, UInt8.toNat_one]
      have advanced : HdCursor.advance ⟨0, 0, 1, 1⟩ 1 result.1 = ⟨512, 1, 0, 1⟩ := by
        rw [one, cursor_done]
      rw [advanced]
      refine Or.inr ⟨rfl, rfl, fun offset below => ?_⟩
      rw [memory_copied, whole, ← attempted.data one offset below]
      exact Memory.copyUp_inside (by simp only [bounceBuffer] at apart ⊢; omega) below
  · rw [memory_copied, Memory.copyUp_outside (by omega), attempted.frame address low outBounce,
      reads.frame address low outBounce outBuffer]

/-- A turn that has something to read asks for that sector, and comes nearer to the
answer that reads it. -/
theorem ReadsFirst.turn (client : ClientBuffer buffer.toNat 512)
    (positive : 1 ≤ devInfo.ns) (reads : ReadsFirst image desc buffer memory cursor machine)
    (left : 0 < cursor.count) :
    ∃ next after, hdReadTurn minor devInfo buffer cursor machine =
        .returned (.again next) after ∧
      ReadsFirst image desc buffer memory next after ∧
      ∀ distance, ReadsInFull (machine.replies distance) →
        next.count = 0 ∨ 5 ≤ distance ∧ ReadsInFull (after.replies (distance - 5)) := by
  rcases reads.progress with rfl | ⟨done, _⟩
  · have track : pieceSize devInfo ⟨0, 0, 1, 1⟩ = 1 := by
      apply pieceSize_stale
      have atLeast := UInt8.le_iff_toNat_le.mp positive
      exact atLeast
    have start : Attempted image desc machine.memory 0 machine :=
      ⟨reads.served, Or.inl rfl, fun absurd => (by cases absurd), fun _ _ _ => rfl⟩
    have attempted := start.attempts (biosHdDriveBaseNb + minor) 5
    have piece : pieceRead minor devInfo ⟨0, 0, 1, 1⟩ machine =
        readAttempts (biosHdDriveBaseNb + minor) segmentExtraDataRm 0 ⟨0, 0, 1⟩ 1 5 0
          machine := by
      rw [pieceRead, lbatochs_first, track]
    refine ⟨_, _, hdReadTurn_again left client.valid, ?_, fun distance full => ?_⟩
    · rw [track, piece]
      exact reads.copied client attempted
    · rw [track, piece]
      refine (readAttempts_reach (biosHdDriveBaseNb + minor) 5 reads.served full).imp_left
        fun one => ?_
      rw [one, cursor_done]
  · rw [done] at left
    exact absurd left (by decide)

/-- The loop does not leave before the sector stands in the buffer. -/
theorem ReadsFirst.leaves {turns : Nat} {read : Int32} {final : Machine}
    (client : ClientBuffer buffer.toNat 512) (positive : 1 ≤ devInfo.ns)
    (reads : ReadsFirst image desc buffer memory cursor machine)
    (returned : loop (hdReadTurn minor devInfo buffer) turns cursor machine =
      .returned read final) :
    read = 512 ∧ ReadsFirst image desc buffer memory ⟨512, 1, 0, 1⟩ final := by
  induction turns generalizing cursor machine with
  | zero => cases returned
  | succ turns inductionHypothesis =>
      by_cases left : 0 < cursor.count
      · obtain ⟨next, after, ran, again, _⟩ := reads.turn client positive left
        rw [loop_again ran] at returned
        exact inductionHypothesis again returned
      · have done := HdCursor.done left
        rw [loop_leave (hdReadTurn_leave done)] at returned
        cases returned
        rcases reads.progress with rfl | ⟨_, whole, data⟩
        · cases done
        · rw [whole]
          exact ⟨rfl, reads.served, Or.inr ⟨rfl, rfl, data⟩, reads.frame⟩

/-- The loop ends soon after the answer that reads the sector. -/
theorem ReadsFirst.loop_ends {turns : Nat} (client : ClientBuffer buffer.toNat 512)
    (positive : 1 ≤ devInfo.ns) (reads : ReadsFirst image desc buffer memory cursor machine)
    (near : cursor.count = 0 ∧ 1 ≤ turns ∨
      ∃ distance, distance + 2 ≤ turns ∧ ReadsInFull (machine.replies distance)) :
    (loop (hdReadTurn minor devInfo buffer) turns cursor machine).ends = true := by
  induction turns generalizing cursor machine with
  | zero => omega
  | succ turns inductionHypothesis =>
      by_cases left : 0 < cursor.count
      · obtain ⟨next, after, ran, again, nearer⟩ := reads.turn client positive left
        rw [loop_again ran]
        apply inductionHypothesis again
        rcases near with ⟨done, _⟩ | ⟨distance, enough, full⟩
        · rw [done] at left
          exact absurd left (by decide)
        · rcases nearer distance full with done | ⟨far, full'⟩
          · exact Or.inl ⟨done, by omega⟩
          · exact Or.inr ⟨distance - 5, by omega, full'⟩
      · rw [loop_leave (hdReadTurn_leave (HdCursor.done left))]
        rfl

/-- The loop at its start. -/
theorem ReadsFirst.start (served : Served image desc machine.replies) :
    ReadsFirst image desc buffer machine.memory ⟨0, 0, 1, 1⟩ machine :=
  ⟨served, Or.inl rfl, fun _ _ _ _ => rfl⟩

/-- A read of the first sector that comes back has read it all into the buffer. -/
theorem hdRead_first {turns : Nat} {read : Int32} {final : Machine}
    (served : Served image desc machine.replies) (client : ClientBuffer buffer.toNat 512)
    (tracks : ∀ devInfo, devGetinfo hardDiskDriver minor machine.devices = some devInfo →
      1 ≤ devInfo.ns)
    (returned : hdRead turns minor 0 1 buffer machine = .returned read final) :
    read = 512 ∧ ReadsFirst image desc buffer machine.memory ⟨512, 1, 0, 1⟩ final := by
  rcases hdRead_cases minor 0 1 buffer machine with ⟨reason, stops⟩ | ⟨devInfo, known, loops⟩
  · rw [stops] at returned
    cases returned
  · rw [loops] at returned
    exact (ReadsFirst.start served).leaves client (tracks devInfo known) returned

/-- A disk that reads in the end lets the read of its first sector end. -/
theorem hdRead_first_ends (served : Served image desc machine.replies)
    (client : ClientBuffer buffer.toNat 512)
    (tracks : ∀ devInfo, devGetinfo hardDiskDriver minor machine.devices = some devInfo →
      1 ≤ devInfo.ns)
    (reads : ReadsInTheEnd machine.replies) :
    ∃ turns, (hdRead turns minor 0 1 buffer machine).ends = true := by
  rcases hdRead_cases minor 0 1 buffer machine with ⟨reason, stops⟩ | ⟨devInfo, known, loops⟩
  · exact ⟨0, by rw [stops]; rfl⟩
  · obtain ⟨distance, full⟩ := reads 0
    refine ⟨distance + 2, ?_⟩
    rw [loops]
    exact (ReadsFirst.start served).loop_ends client (tracks devInfo known)
      (Or.inr ⟨distance, Nat.le_refl _, full⟩)

end FirstSector

end Bootloader.Common
