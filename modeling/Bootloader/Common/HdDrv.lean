import Bootloader.Arch.Disk
import Bootloader.Libc.MemOperations

/-!
# The hard disk driver

`hd_read` reads a range of sectors piece by piece: the BIOS places each piece in
a buffer below one megabyte, and the driver copies it from there. A piece is
asked for up to five times, until the BIOS reports as many sectors as requested.
-/

namespace Bootloader.Common

open Bootloader.Std Bootloader.Libc Bootloader.Arch

/-- `SECTOR_SIZE`. -/
def sectorSize : UInt32 := 512

@[simp] theorem toNat_sectorSize : sectorSize.toNat = 512 := rfl

/-- `SEGMENT_SIZE_16bit_MODE`. -/
def segmentSize16bitMode : UInt32 := 65536

/-- `BIOS_HD_DRIVE_BASE_NB`. -/
def biosHdDriveBaseNb : UInt8 := 0x80

/-- `SEGMENT_EXTRA_DATA_RM`: the segment of the buffer the BIOS reads into. -/
def segmentExtraDataRm : UInt16 := 0x3000

/-- The attempts to read one piece, until one of them is answered in full. -/
def readAttempts (driveNb : UInt8) (segment offset : UInt16) (address : Chs)
    (nbSectorsToRead : UInt8) : Nat → UInt8 → Machine → UInt8 × Machine
  | 0, nbReadSectors, machine => (nbReadSectors, machine)
  | attempts + 1, nbReadSectors, machine =>
      if nbReadSectors ≠ nbSectorsToRead then
        let (nbReadSectors, machine) :=
          diskReadSectors driveNb segment offset address nbSectorsToRead machine
        readAttempts driveNb segment offset address nbSectorsToRead attempts nbReadSectors machine
      else (nbReadSectors, machine)

/-- The variables of the loop in `hd_read`. -/
structure HdCursor where
  read : UInt32
  lbaStart : UInt32
  count : UInt32
  nbSectorsToRead : UInt8

/-- The size of the next piece: what is left of the track when the count exceeds
a whole track, and otherwise what it was before. -/
def pieceSize (devInfo : ChsDiskGeometry) (cursor : HdCursor) : UInt8 :=
  if cursor.count > devInfo.ns.toUInt32 then
    devInfo.ns - (lbatochs devInfo cursor.lbaStart).s + 1
  else cursor.nbSectorsToRead

/-- One turn of the loop in `hd_read`. -/
def hdReadTurn (minor : UInt8) (devInfo : ChsDiskGeometry) (buffer : UInt32)
    (cursor : HdCursor) (machine : Machine) : Outcome Machine (Turn HdCursor Int32) :=
  let bufRmSegment := segmentExtraDataRm
  let bufRmOffset : UInt16 := 0
  if cursor.count > 0 then
    let chsAddrStart := lbatochs devInfo cursor.lbaStart
    let nbSectorsToRead := pieceSize devInfo cursor
    let (nbReadSectors, machine) :=
      readAttempts (biosHdDriveBaseNb + minor) bufRmSegment bufRmOffset chsAddrStart
        nbSectorsToRead 5 0 machine
    let nbReadBytes := nbReadSectors.toUInt32 * sectorSize
    ((memcpy buffer ((bufRmSegment.toUInt32 <<< 4) ||| bufRmOffset.toUInt32) nbReadBytes
        machine.memory).within ({ machine with memory := · })).andThen fun _ machine =>
      .returned
        (.again
          { read := cursor.read + nbReadBytes
            lbaStart := cursor.lbaStart + nbReadSectors.toUInt32
            count := cursor.count - nbReadSectors.toUInt32
            nbSectorsToRead := nbSectorsToRead })
        (machine.record (.advance nbReadSectors))
  else .returned (.leave cursor.read.toInt32) machine

/-- `hd_read`, for at most `turns` turns of its loop. -/
def hdRead (turns : Nat) (minor : UInt8) (lbaStart count buffer : UInt32) (machine : Machine) :
    Outcome Machine Int32 :=
  match devGetinfo hardDiskDriver minor machine.devices with
  | none => .panicked "dev_info != NULL" machine
  | some devInfo =>
      if ¬ devInfo.ns.toUInt32 ≤ segmentSize16bitMode / sectorSize then
        .panicked "dev_info->NS <= (SEGMENT_SIZE_16bit_MODE / SECTOR_SIZE)" machine
      else if ¬ lbaStart < devInfo.nlba then .panicked "lba_start < dev_info->Nlba" machine
      else if ¬ lbaStart + count ≤ devInfo.nlba then
        .panicked "lba_start + count <= dev_info->Nlba" machine
      else
        loop (hdReadTurn minor devInfo buffer) turns ⟨0, lbaStart, count, count.toUInt8⟩ machine

/-- The address of the buffer the BIOS reads into. -/
def bounceBuffer : Nat := 0x30000

theorem bounceBuffer_eq :
    (segmentExtraDataRm.toUInt32 <<< 4 ||| (0 : UInt16).toUInt32).toNat = bounceBuffer := rfl

section Turns

variable {minor : UInt8} {devInfo : ChsDiskGeometry} {buffer : UInt32} {cursor : HdCursor}
  {machine : Machine}

/-- The cursor after a piece of which `sectors` were read. -/
def HdCursor.advance (cursor : HdCursor) (size sectors : UInt8) : HdCursor where
  read := cursor.read + sectors.toUInt32 * sectorSize
  lbaStart := cursor.lbaStart + sectors.toUInt32
  count := cursor.count - sectors.toUInt32
  nbSectorsToRead := size

/-- The attempts the driver makes for the piece at a cursor. -/
def pieceRead (minor : UInt8) (devInfo : ChsDiskGeometry) (cursor : HdCursor)
    (machine : Machine) : UInt8 × Machine :=
  readAttempts (biosHdDriveBaseNb + minor) segmentExtraDataRm 0
    (lbatochs devInfo cursor.lbaStart) (pieceSize devInfo cursor) 5 0 machine

/-- The machine after the piece has been copied out of the bounce buffer. -/
def copyPiece (buffer : UInt32) (sectors : UInt8) (machine : Machine) : Machine :=
  { machine with
    memory := machine.memory.copyUp buffer.toNat bounceBuffer (sectors.toNat * 512) }

theorem pieceSize_ne_zero (positive : 0 < (pieceSize devInfo cursor).toNat) :
    pieceSize devInfo cursor ≠ 0 := by
  intro zero
  rw [zero, UInt8.toNat_zero] at positive
  omega

/-- With no more than a track left, a piece is as long as the one before. -/
theorem pieceSize_stale (short : cursor.count.toNat ≤ devInfo.ns.toNat) :
    pieceSize devInfo cursor = cursor.nbSectorsToRead := by
  rw [pieceSize, if_neg]
  rw [gt_iff_lt, UInt32.lt_iff_toNat_lt, UInt8.toNat_toUInt32]
  omega

/-- What a turn does while there is something left to read. -/
theorem hdReadTurn_again (left : 0 < cursor.count) (valid : buffer ≠ 0) :
    hdReadTurn minor devInfo buffer cursor machine =
      .returned (.again (cursor.advance (pieceSize devInfo cursor)
          (pieceRead minor devInfo cursor machine).1))
        ((copyPiece buffer (pieceRead minor devInfo cursor machine).1
          (pieceRead minor devInfo cursor machine).2).record
            (.advance (pieceRead minor devInfo cursor machine).1)) := by
  have source : segmentExtraDataRm.toUInt32 <<< 4 ||| (0 : UInt16).toUInt32 ≠ 0 := by decide
  have bytes : ((pieceRead minor devInfo cursor machine).1.toUInt32 * sectorSize).toNat =
      (pieceRead minor devInfo cursor machine).1.toNat * 512 := by
    have bound := (pieceRead minor devInfo cursor machine).1.toNat_lt
    rw [UInt32.toNat_mul, UInt8.toNat_toUInt32, toNat_sectorSize]
    omega
  rw [pieceRead] at bytes
  simp only [hdReadTurn, gt_iff_lt, if_pos left, memcpy_eq valid source,
    Outcome.returned_within, Outcome.returned_andThen, bounceBuffer_eq, bytes, pieceRead,
    copyPiece, HdCursor.advance]

/-- What is not left is zero. -/
theorem HdCursor.done (exhausted : ¬ 0 < cursor.count) : cursor.count = 0 :=
  not_not.mp (mt UInt32.pos_iff_ne_zero.mpr exhausted)

/-- The loop ends when nothing is left. -/
theorem hdReadTurn_leave (done : cursor.count = 0) :
    hdReadTurn minor devInfo buffer cursor machine =
      .returned (.leave cursor.read.toInt32) machine := by
  simp [hdReadTurn, done]

/-- What every turn keeps holds however long the loop runs. -/
theorem hdReadLoop_keeps {Keeps : HdCursor → Machine → Prop}
    (turn : ∀ cursor machine, Keeps cursor machine → 0 < cursor.count → ∃ next after,
      hdReadTurn minor devInfo buffer cursor machine = .returned (.again next) after ∧
        Keeps next after)
    (turns : Nat) (start : Keeps cursor machine) :
    ∃ last, Keeps last (loop (hdReadTurn minor devInfo buffer) turns cursor machine).state := by
  let Post : Outcome Machine Int32 → Prop := fun outcome => ∃ last, Keeps last outcome.state
  have step : ∀ cursor machine, Keeps cursor machine →
      Establishes Keeps Post (hdReadTurn minor devInfo buffer cursor machine) := by
    intro cursor machine keeps
    by_cases left : 0 < cursor.count
    · obtain ⟨next, after, ran, kept⟩ := turn cursor machine keeps left
      rw [ran]
      exact kept
    · rw [hdReadTurn_leave (HdCursor.done left)]
      exact ⟨cursor, keeps⟩
  exact loop_invariant step (fun cursor machine keeps => ⟨cursor, keeps⟩) turns start

/-- A request within the bounds of the disk starts the loop. -/
theorem hdRead_loop {turns : Nat} {lbaStart count : UInt32}
    (known : devGetinfo hardDiskDriver minor machine.devices = some devInfo)
    (track : devInfo.ns.toNat ≤ 128) (inside : lbaStart < devInfo.nlba)
    (range : lbaStart + count ≤ devInfo.nlba) :
    hdRead turns minor lbaStart count buffer machine =
      loop (hdReadTurn minor devInfo buffer) turns ⟨0, lbaStart, count, count.toUInt8⟩
        machine := by
  have fits : devInfo.ns.toUInt32 ≤ segmentSize16bitMode / sectorSize := by
    rw [UInt32.le_iff_toNat_le, UInt8.toNat_toUInt32]
    exact track
  simp only [hdRead, known]
  rw [if_neg (not_not_intro fits), if_neg (not_not_intro inside), if_neg (not_not_intro range)]

/-- A read stops at an assertion, or is the loop. -/
theorem hdRead_cases (minor : UInt8) (lbaStart count buffer : UInt32) (machine : Machine) :
    (∃ reason, ∀ turns, hdRead turns minor lbaStart count buffer machine =
        .panicked reason machine) ∨
      ∃ devInfo, devGetinfo hardDiskDriver minor machine.devices = some devInfo ∧
        ∀ turns, hdRead turns minor lbaStart count buffer machine =
          loop (hdReadTurn minor devInfo buffer) turns ⟨0, lbaStart, count, count.toUInt8⟩
            machine := by
  cases known : devGetinfo hardDiskDriver minor machine.devices with
  | none => exact Or.inl ⟨_, fun turns => by simp only [hdRead, known]; rfl⟩
  | some devInfo =>
      simp only [hdRead, known]
      split
      · exact Or.inl ⟨_, fun _ => rfl⟩
      · split
        · exact Or.inl ⟨_, fun _ => rfl⟩
        · split
          · exact Or.inl ⟨_, fun _ => rfl⟩
          · exact Or.inr ⟨devInfo, rfl, fun _ => rfl⟩

/-- A read that has come back does the same when it may take more turns. -/
theorem hdRead_more {turns : Nat} {lbaStart count : UInt32} {value : Int32} {final : Machine}
    (ran : hdRead turns minor lbaStart count buffer machine = .returned value final)
    (extra : Nat) :
    hdRead (turns + extra) minor lbaStart count buffer machine = .returned value final := by
  rcases hdRead_cases minor lbaStart count buffer machine with ⟨reason, stops⟩ |
    ⟨devInfo, _, loops⟩
  · rw [stops] at ran
    cases ran
  · rw [loops] at ran ⊢
    exact loop_more ran extra

end Turns

/-- A disk of four cylinders with 16 heads and 63 sectors per track. -/
def smallDisk : ChsDiskGeometry := ⟨4, 16, 63, 4032⟩

/-- The device table once that disk has been opened as `hda`. -/
def openDevices : List Dev :=
  [⟨"hda", hardDiskDriver, 0, .initialized, some smallDisk⟩,
    ⟨"fda", floppyDiskDriver, 0, .unknown, none⟩]

end Bootloader.Common
