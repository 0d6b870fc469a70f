import Bootloader.Common.HdDrv
import Mathlib.Tactic.DefEqTransformations

/-!
# What `hd_read` delivers

With a BIOS that answers every request in full, a range that fits a track is
delivered in one piece. A longer one is not: every piece is copied to the start
of the caller's buffer, so that nothing behind the first track of it is written.
-/

namespace Bootloader.Common

open Bootloader.Std Bootloader.Libc Bootloader.Arch

/-- The memory below the first 32 kB belongs to the BIOS and to the switch into
real mode and back. -/
def lowMemory : Nat := 0x8000

/-- Where a read request wants its sectors. -/
def transfer (regs : Regs16) : Nat := regs.es.toNat * 16 + regs.bx.toNat

/-- A BIOS that answers every read in full, from a disk with this image. -/
structure DiskBios (image : Nat → UInt8) (desc : ChsDiskGeometry) (bios : Bios) : Prop where
  count : ∀ regs memory, regs.ah = 0x02 → (bios regs memory).1.al = regs.al
  data : ∀ regs memory offset, regs.ah = 0x02 → offset < regs.al.toNat * 512 →
    (bios regs memory).2 (transfer regs + offset) = image (regs.sector desc * 512 + offset)
  frame : ∀ regs memory address, regs.ah = 0x02 → lowMemory ≤ address →
    address < transfer regs ∨ transfer regs + regs.al.toNat * 512 ≤ address →
      (bios regs memory).2 address = memory address

/-- The plainest BIOS of that kind. -/
def imageBios (image : Nat → UInt8) (desc : ChsDiskGeometry) : Bios := fun regs memory =>
  (regs, fun address =>
    if transfer regs ≤ address ∧ address < transfer regs + regs.al.toNat * 512 then
      image (regs.sector desc * 512 + (address - transfer regs))
    else memory address)

theorem imageBios_disk (image : Nat → UInt8) (desc : ChsDiskGeometry) :
    DiskBios image desc (imageBios image desc) where
  count _ _ _ := rfl
  data regs memory offset _ within := by
    simp only [imageBios]
    rw [if_pos (by omega), Nat.add_sub_cancel_left]
  frame regs memory address _ _ outside := by
    simp only [imageBios]
    rw [if_neg (by omega)]

/-- A buffer of a client: not NULL, above low memory, inside the address space
and apart from the segment the BIOS reads into. -/
structure ClientBuffer (buffer size : Nat) : Prop where
  low : lowMemory ≤ buffer
  fits : buffer + size ≤ 2 ^ 32
  apart : buffer + size ≤ bounceBuffer ∨ bounceBuffer + 0x10000 ≤ buffer

theorem ClientBuffer.valid {buffer : UInt32} {size : Nat}
    (client : ClientBuffer buffer.toNat size) : buffer ≠ 0 :=
  toNat_pos_iff.mp (Nat.lt_of_lt_of_le (by decide) client.low)

/-- The start of a client's buffer is a buffer too. -/
theorem ClientBuffer.mono {buffer size smaller : Nat} (client : ClientBuffer buffer size)
    (less : smaller ≤ size) : ClientBuffer buffer smaller where
  low := client.low
  fits := by
    have fits := client.fits
    omega
  apart := by
    have apart := client.apart
    omega

/-- A machine whose disk is served by one BIOS throughout. -/
def diskMachine (devices : List Dev) (bios : Bios) (memory : Memory) : Machine :=
  ⟨memory, devices, fun _ => bios, []⟩

section Pieces

variable {image : Nat → UInt8} {desc : ChsDiskGeometry} {bios : Bios} {minor : UInt8}
  {cursor : HdCursor} {machine : Machine} {buffer : UInt32}

/-- The registers of the request for the piece at a cursor. -/
def pieceRegs (minor : UInt8) (desc : ChsDiskGeometry) (cursor : HdCursor) : Regs16 :=
  readRequest (biosHdDriveBaseNb + minor) segmentExtraDataRm 0 (lbatochs desc cursor.lbaStart)
    (pieceSize desc cursor)

/-- Every request of the driver goes to the bounce buffer. -/
theorem transfer_readRequest {driveNb nbSectors : UInt8} {address : Chs} :
    transfer (readRequest driveNb segmentExtraDataRm 0 address nbSectors) = bounceBuffer := by
  have segment : (readRequest driveNb segmentExtraDataRm 0 address nbSectors).es.toNat =
      0x3000 := rfl
  have offset : (readRequest driveNb segmentExtraDataRm 0 address nbSectors).bx.toNat = 0 := rfl
  rw [transfer, segment, offset, bounceBuffer]

theorem transfer_pieceRegs : transfer (pieceRegs minor desc cursor) = bounceBuffer :=
  transfer_readRequest

/-- Answered in full, a piece is read at the first attempt. -/
theorem pieceRead_full (minor : UInt8) (disk : DiskBios image desc bios)
    (served : machine.replies = fun _ => bios) (nonzero : pieceSize desc cursor ≠ 0) :
    ∃ events, pieceRead minor desc cursor machine =
      (pieceSize desc cursor, ⟨(bios (pieceRegs minor desc cursor) machine.memory).2,
        machine.devices, fun _ => bios, events⟩) := by
  have answered : (bios (pieceRegs minor desc cursor) machine.memory).1.al =
      pieceSize desc cursor := disk.count _ _ rfl
  rw [pieceRegs] at answered ⊢
  simp only [pieceRead, readAttempts, ne_eq, nonzero.symm, not_false_eq_true, if_true,
    diskReadSectors, Machine.int13, Machine.record, served, answered, not_true_eq_false, if_false]
  exact ⟨_, rfl⟩

/-- A piece cut to the track has at least one sector and at most a whole track of
them; any other piece is as long as the one before. -/
theorem pieceSize_bounds (positive : 0 < desc.ns.toNat)
    (stale : cursor.count.toNat ≤ desc.ns.toNat →
      0 < cursor.nbSectorsToRead.toNat ∧ cursor.nbSectorsToRead.toNat ≤ desc.ns.toNat) :
    0 < (pieceSize desc cursor).toNat ∧ (pieceSize desc cursor).toNat ≤ desc.ns.toNat := by
  rw [pieceSize]
  split
  · have s := lbatochs_s cursor.lbaStart positive
    have rest := Nat.mod_lt cursor.lbaStart.toNat positive
    have bound := desc.ns.toNat_lt
    rw [UInt8.toNat_add, UInt8.toNat_sub, s, UInt8.toNat_one]
    omega
  · rename_i small
    rw [gt_iff_lt, UInt32.lt_iff_toNat_lt, UInt8.toNat_toUInt32] at small
    exact stale (by omega)

/-- The BIOS finds the sector of the cursor in a request, up to the ten bits a
cylinder has there. -/
theorem pieceRegs_sector (positive : 0 < desc.ns.toNat) (sectors : desc.ns.toNat ≤ 63)
    (heads : 0 < desc.nh.toNat) :
    (pieceRegs minor desc cursor).sector desc =
      cursor.lbaStart.toNat % (1024 * desc.nh.toNat * desc.ns.toNat) := by
  have s := lbatochs_s cursor.lbaStart positive
  have rest := Nat.mod_lt cursor.lbaStart.toNat positive
  rw [pieceRegs, readRequest_sector desc (by omega) (by omega), lbatochs_c positive,
    lbatochs_h positive heads, s, Nat.add_sub_cancel, Nat.mod_mod_of_dvd _ (by decide),
    Nat.mul_comm (1024 * desc.nh.toNat), Nat.mod_mul, Nat.mul_comm 1024, Nat.mod_mul,
    Nat.add_comm (_ % desc.ns.toNat), Nat.mul_comm desc.ns.toNat, Nat.add_comm (_ % desc.nh.toNat),
    Nat.mul_comm desc.nh.toNat]

/-- The loop has not touched a place: every piece is at most a track long. -/
structure Untouched (desc : ChsDiskGeometry) (bios : Bios) (place : Nat) (byte : UInt8)
    (cursor : HdCursor) (machine : Machine) : Prop where
  served : machine.replies = fun _ => bios
  kept : machine.memory place = byte
  stale : cursor.count.toNat ≤ desc.ns.toNat →
    0 < cursor.nbSectorsToRead.toNat ∧ cursor.nbSectorsToRead.toNat ≤ desc.ns.toNat

/-- Every piece goes to the start of the buffer, so that a turn does not touch what is a
track behind it. -/
theorem Untouched.turn {byte : UInt8} (disk : DiskBios image desc bios)
    (positive : 0 < desc.ns.toNat) (sectors : desc.ns.toNat ≤ 63)
    (client : ClientBuffer buffer.toNat ((desc.ns.toNat + 1) * 512))
    (untouched : Untouched desc bios (buffer.toNat + desc.ns.toNat * 512) byte cursor machine)
    (left : 0 < cursor.count) :
    ∃ next after, hdReadTurn minor desc buffer cursor machine = .returned (.again next) after ∧
      Untouched desc bios (buffer.toNat + desc.ns.toNat * 512) byte next after := by
  have low := client.low
  have apart := client.apart
  simp only [lowMemory, bounceBuffer] at low apart
  have size := pieceSize_bounds positive untouched.stale
  obtain ⟨events, read⟩ := pieceRead_full minor disk untouched.served (pieceSize_ne_zero size.1)
  have requested : (pieceRegs minor desc cursor).al.toNat = (pieceSize desc cursor).toNat := rfl
  have framed := disk.frame (pieceRegs minor desc cursor) machine.memory
    (buffer.toNat + desc.ns.toNat * 512) rfl (by simp only [lowMemory]; omega)
    (by rw [transfer_pieceRegs, requested, bounceBuffer]; omega)
  rw [hdReadTurn_again left client.valid, read]
  refine ⟨_, _, rfl, rfl, ?_, fun _ => size⟩
  simp only [Machine.record, copyPiece]
  rw [Memory.copyUp_outside (by omega), framed, untouched.kept]

end Pieces

/-- The claim a caller of `hd_read` relies on: it comes back with the number of
bytes asked for, and they are those of the sectors asked for. -/
def Delivers (image : Nat → UInt8) (lba count buffer : Nat)
    (run : Nat → Outcome Machine Int32) : Prop :=
  ∃ turns value final, run turns = .returned value final ∧
    value.toInt = ((count * 512 : Nat) : Int) ∧
    ∀ offset < count * 512, final.memory (buffer + offset) = image (lba * 512 + offset)

theorem toInt_toInt32 {word : UInt32} (small : word.toNat < 2 ^ 31) :
    word.toInt32.toInt = word.toNat := by
  rw [UInt32.toInt32, Int32.toInt, BitVec.toInt_eq_toNat_of_lt]
  · rfl
  · change 2 * word.toNat < _
    omega

section Reads

variable {image : Nat → UInt8} {desc : ChsDiskGeometry} {bios : Bios} {minor : UInt8}
  {devices : List Dev} {lba count buffer : UInt32}

/-- A request for sectors of the disk starts the loop. -/
theorem hdRead_starts {machine : Machine} {turns : Nat}
    (known : devGetinfo hardDiskDriver minor machine.devices = some desc)
    (sectors : desc.ns.toNat ≤ 63) (range : lba.toNat + count.toNat ≤ desc.nlba.toNat)
    (positive : 0 < count.toNat) :
    hdRead turns minor lba count buffer machine =
      loop (hdReadTurn minor desc buffer) turns ⟨0, lba, count, count.toUInt8⟩ machine := by
  have bound := desc.nlba.toNat_lt
  apply hdRead_loop known
  · omega
  · exact UInt32.lt_iff_toNat_lt.mpr (by omega)
  · rw [UInt32.le_iff_toNat_le, toNat_add_of_lt (by omega)]
    exact range

/-- A range that fits a track is read in one piece. -/
theorem hdRead_piece (disk : DiskBios image desc bios) (memory : Memory)
    (known : devGetinfo hardDiskDriver minor devices = some desc)
    (sectors : desc.ns.toNat ≤ 63) (heads : 0 < desc.nh.toNat)
    (range : lba.toNat + count.toNat ≤ desc.nlba.toNat) (positive : 0 < count.toNat)
    (client : ClientBuffer buffer.toNat (count.toNat * 512))
    (short : count.toNat ≤ desc.ns.toNat) :
    ∃ (value : Int32) (final : Machine), value.toInt = ((count.toNat * 512 : Nat) : Int) ∧
      (∀ turns, hdRead (turns + 2) minor lba count buffer (diskMachine devices bios memory) =
        .returned value final) ∧
      ∀ offset < count.toNat * 512, final.memory (buffer.toNat + offset) =
        image (lba.toNat % (1024 * desc.nh.toNat * desc.ns.toNat) * 512 + offset) := by
  have valid := client.valid
  let cursor : HdCursor := ⟨0, lba, count, count.toUInt8⟩
  have size : (pieceSize desc cursor).toNat = count.toNat := by
    rw [pieceSize_stale short, UInt32.toNat_toUInt8]
    omega
  have nonzero : pieceSize desc cursor ≠ 0 := pieceSize_ne_zero (by omega)
  obtain ⟨events, read⟩ : ∃ events, pieceRead minor desc cursor (diskMachine devices bios memory) =
      (pieceSize desc cursor, ⟨(bios (pieceRegs minor desc cursor) memory).2, devices,
        fun _ => bios, events⟩) := pieceRead_full minor disk rfl nonzero
  have first : hdReadTurn minor desc buffer cursor (diskMachine devices bios memory) = _ :=
    hdReadTurn_again (UInt32.lt_iff_toNat_lt.mpr positive) valid
  have done : (cursor.advance (pieceSize desc cursor) (pieceSize desc cursor)).count = 0 := by
    apply UInt32.toNat_inj.mp
    change (count - (pieceSize desc cursor).toUInt32).toNat = 0
    have bound := count.toNat_lt
    rw [UInt32.toNat_sub, UInt8.toNat_toUInt32, size]
    omega
  have bytes : (cursor.advance (pieceSize desc cursor) (pieceSize desc cursor)).read.toNat =
      count.toNat * 512 := by
    simp only [HdCursor.advance, cursor]
    rw [UInt32.toNat_add, UInt32.toNat_mul, UInt8.toNat_toUInt32, toNat_sectorSize, size,
      UInt32.toNat_zero]
    omega
  rw [read] at first
  have run (turns : Nat) :
      hdRead (turns + 2) minor lba count buffer (diskMachine devices bios memory) =
        .returned (cursor.advance (pieceSize desc cursor) (pieceSize desc cursor)).read.toInt32
          ((copyPiece buffer (pieceSize desc cursor)
            ⟨(bios (pieceRegs minor desc cursor) memory).2, devices, fun _ => bios, events⟩).record
              (.advance (pieceSize desc cursor))) := by
    rw [hdRead_starts known sectors range positive]
    exact (loop_again first).trans (loop_leave (hdReadTurn_leave done))
  refine ⟨_, _, ?_, run, fun offset within => ?_⟩
  rotate_left
  · have low := client.low
    have apart := client.apart
    have requested : (pieceRegs minor desc cursor).al.toNat = count.toNat := size
    have served := disk.data (pieceRegs minor desc cursor) memory offset rfl
      (by rwa [requested])
    rw [transfer_pieceRegs, pieceRegs_sector (by omega) sectors heads] at served
    simp only [Machine.record, copyPiece, size]
    rw [Memory.copyUp_inside (by simp only [bounceBuffer] at apart ⊢; omega) within, served]
  · have small : count.toNat * 512 < 2 ^ 31 := by omega
    rw [← bytes] at small ⊢
    exact toInt_toInt32 small

/-- A range longer than a track leaves the byte behind the first track of the
buffer as it was, however long the loop runs. -/
theorem hdRead_beyond_track (disk : DiskBios image desc bios) (memory : Memory)
    (known : devGetinfo hardDiskDriver minor devices = some desc)
    (positive : 0 < desc.ns.toNat) (sectors : desc.ns.toNat ≤ 63)
    (range : lba.toNat + count.toNat ≤ desc.nlba.toNat)
    (client : ClientBuffer buffer.toNat (count.toNat * 512))
    (long : desc.ns.toNat < count.toNat) (turns : Nat) :
    (hdRead turns minor lba count buffer (diskMachine devices bios memory)).state.memory
      (buffer.toNat + desc.ns.toNat * 512) = memory (buffer.toNat + desc.ns.toNat * 512) := by
  have room : (desc.ns.toNat + 1) * 512 ≤ count.toNat * 512 := Nat.mul_le_mul_right 512 long
  have start : Untouched desc bios (buffer.toNat + desc.ns.toNat * 512)
      (memory (buffer.toNat + desc.ns.toNat * 512)) ⟨0, lba, count, count.toUInt8⟩
      (diskMachine devices bios memory) :=
    ⟨rfl, rfl, fun short => absurd short (Nat.not_le_of_lt long)⟩
  rw [hdRead_starts known sectors range (by omega)]
  obtain ⟨last, kept⟩ := hdReadLoop_keeps
    (fun _ _ untouched left => untouched.turn disk positive sectors (client.mono room) left)
    turns start
  exact kept.kept

/-- `hd_read` delivers what is asked for exactly when the range is no longer than
a track and the ten bits of cylinder that reach the BIOS name its first sector,
or at least sectors of the same content. -/
theorem hdRead_delivers_iff (known : devGetinfo hardDiskDriver minor devices = some desc)
    (positive : 1 ≤ desc.ns.toNat) (sectors : desc.ns.toNat ≤ 63) (heads : 1 ≤ desc.nh.toNat)
    (range : lba.toNat + count.toNat ≤ desc.nlba.toNat) (atLeastOne : 1 ≤ count.toNat)
    (client : ClientBuffer buffer.toNat (count.toNat * 512)) :
    (∀ bios, DiskBios image desc bios → ∀ memory,
      Delivers image lba.toNat count.toNat buffer.toNat fun turns =>
        hdRead turns minor lba count buffer (diskMachine devices bios memory)) ↔
      count.toNat ≤ desc.ns.toNat ∧ ∀ offset < count.toNat * 512,
        image (lba.toNat % (1024 * desc.nh.toNat * desc.ns.toNat) * 512 + offset) =
          image (lba.toNat * 512 + offset) := by
  have disk := imageBios_disk image desc
  constructor
  · intro delivers
    have short : count.toNat ≤ desc.ns.toNat := by
      by_contra long
      let other : Memory := fun _ => image (lba.toNat * 512 + desc.ns.toNat * 512) + 1
      obtain ⟨turns, value, final, ran, _, content⟩ := delivers _ disk other
      have kept := hdRead_beyond_track disk other known positive sectors range client
        (by omega) turns
      have delivered := content (desc.ns.toNat * 512) (by omega)
      beta_reduce at ran
      rw [ran, Outcome.state_returned, delivered] at kept
      simp [other] at kept
    refine ⟨short, fun offset within => ?_⟩
    obtain ⟨turns, value, final, ran, _, content⟩ := delivers _ disk fun _ => 0
    obtain ⟨_, placed, _, run, found⟩ := hdRead_piece disk (fun _ => 0) known sectors heads range
      atLeastOne client short
    have ran' := hdRead_more ran 2
    rw [run turns] at ran'
    cases ran'
    rw [← found offset within, ← content offset within]
  · rintro ⟨short, same⟩ bios served memory
    obtain ⟨value, final, size, run, found⟩ := hdRead_piece served memory known sectors heads
      range atLeastOne client short
    exact ⟨2, value, final, run 0, size, fun offset within =>
      (found offset within).trans (same offset within)⟩

end Reads

theorem clientBuffer_high :
    ClientBuffer (0x100000 : UInt32).toNat ((64 : UInt32).toNat * 512) where
  low := by decide
  fits := by decide
  apart := Or.inr (by decide)

/-- One sector more than a track, from the start of the disk: the last sector of
the caller's buffer stays as it was. -/
theorem hdRead_track_and_one_not_delivered :
    ¬ ∀ bios, DiskBios (fun _ => 1) smallDisk bios → ∀ memory,
      Delivers (fun _ => 1) 0 64 0x100000 fun turns =>
        hdRead turns 0 0 64 0x100000 (diskMachine openDevices bios memory) := by
  intro delivers
  have disk := imageBios_disk (fun _ => 1) smallDisk
  obtain ⟨turns, value, final, ran, _, content⟩ := delivers _ disk fun _ => 0
  have address : (0x100000 : UInt32).toNat + smallDisk.ns.toNat * 512 = 0x100000 + 63 * 512 := by
    decide
  have kept : (hdRead turns 0 0 64 0x100000 (diskMachine openDevices
      (imageBios (fun _ => 1) smallDisk) fun _ => 0)).state.memory
        ((0x100000 : UInt32).toNat + smallDisk.ns.toNat * 512) = 0 :=
    hdRead_beyond_track disk (fun _ => 0) rfl (by decide) (by decide) (by decide)
      clientBuffer_high (by decide) turns
  have delivered := content (63 * 512) (by decide)
  beta_reduce at ran
  rw [ran, Outcome.state_returned, address] at kept
  exact absurd (kept.symm.trans delivered) (by decide)

/-- A disk whose sectors hold their numbers. -/
def numberedImage (place : Nat) : UInt8 := UInt8.ofNat (place / 512)

/-- The third track is delivered, and with the first sector of the fourth it is not. -/
theorem hdRead_delivers_iff_thirdTrack :
    (∀ bios, DiskBios numberedImage smallDisk bios → ∀ memory,
      Delivers numberedImage (126 : UInt32).toNat (63 : UInt32).toNat (0x100000 : UInt32).toNat
        fun turns => hdRead turns 0 126 63 0x100000 (diskMachine openDevices bios memory)) ∧
    ¬ ∀ bios, DiskBios numberedImage smallDisk bios → ∀ memory,
      Delivers numberedImage (126 : UInt32).toNat (64 : UInt32).toNat (0x100000 : UInt32).toNat
        fun turns => hdRead turns 0 126 64 0x100000 (diskMachine openDevices bios memory) := by
  have track : ClientBuffer (0x100000 : UInt32).toNat ((63 : UInt32).toNat * 512) :=
    ⟨by decide, by decide, Or.inr (by decide)⟩
  constructor
  · apply (hdRead_delivers_iff rfl (by decide) (by decide) (by decide) (by decide) (by decide)
      track).mpr
    exact ⟨by decide, fun _ _ => rfl⟩
  · intro delivers
    have short := ((hdRead_delivers_iff rfl (by decide) (by decide) (by decide) (by decide)
      (by decide) clientBuffer_high).mp delivers).1
    exact absurd short (by decide)

end Bootloader.Common
