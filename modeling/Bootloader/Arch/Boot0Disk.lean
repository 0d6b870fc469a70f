import Bootloader.Arch.Boot0Runs

/-!
# What the boot sector loads

The two reads fetch the sectors behind the boot sector as far as the first track goes, and then
those at the beginning of the second one. On a disk with 63 sectors in a track these are 120
sectors in a row; on other disks it depends on what is in them.
-/

namespace Bootloader.Arch

open Bootloader.Std Bootloader.Common

/-- The contents of sectors one behind the other. -/
def diskSectors (disk : Nat → List UInt8) (first count : Nat) : List UInt8 :=
  (List.range' first count).flatMap disk

/-- The registers that a part is read with. -/
def BootPart.regs (drive : UInt8) (part : BootPart) : Regs16 where
  al := part.nbSectors
  ah := 0x02
  bx := part.startAddrRm
  cl := part.startSector.toUInt8
  ch := (part.startSector >>> 8).toUInt8
  dl := drive
  dh := part.head
  es := boot0ExtraDataSegment
  cf := false

/-- A BIOS that has read the sectors of the two parts when it accepts the request for one. -/
def ReadsDisk (firmware : Firmware) (desc : ChsDiskGeometry) (disk : Nat → List UInt8) : Prop :=
  ∀ part ∈ [boot1p1, boot1p2], ∀ (drive : UInt8) (cpu : Cpu),
    (Boot0Request.read part).Made drive cpu → ¬ Refused (firmware 0x13 cpu) →
    (firmware 0x13 cpu).memory.Holds (0x10000 + part.startAddrRm.toNat)
      (diskSectors disk ((part.regs drive).sector desc) part.nbSectors.toNat)

section Loads

variable {firmware : Firmware} {image : Boot0Image} {drive : UInt8} {desc : ChsDiskGeometry}
  {disk : Nat → List UInt8} {memory last : Memory}

/-- The first part stands behind the boot sector. -/
theorem sector_boot1p1 : (boot1p1.regs drive).sector desc = 1 := by
  have ch : (boot1p1.regs drive).ch.toNat = 0 := rfl
  have cl : (boot1p1.regs drive).cl.toNat = 2 := rfl
  have dh : (boot1p1.regs drive).dh.toNat = 0 := rfl
  rw [Regs16.sector, ch, cl, dh]
  omega

/-- The second part stands at the beginning of the second track. -/
theorem sector_boot1p2 : (boot1p2.regs drive).sector desc = desc.ns.toNat := by
  have ch : (boot1p2.regs drive).ch.toNat = 0 := rfl
  have cl : (boot1p2.regs drive).cl.toNat = 1 := rfl
  have dh : (boot1p2.regs drive).dh.toNat = 1 := rfl
  rw [Regs16.sector, ch, cl, dh]
  omega

theorem length_diskSectors {first count : Nat} (whole : ∀ sector, (disk sector).length = 512) :
    (diskSectors disk first count).length = 512 * count := by
  induction count generalizing first with
  | zero => rfl
  | succ count inductionHypothesis =>
      rw [diskSectors, List.range'_succ, List.flatMap_cons, List.length_append, whole,
        Nat.mul_succ, Nat.add_comm]
      exact congrArg (· + 512) inductionHypothesis

theorem diskSectors_add {first less more : Nat} :
    diskSectors disk first (less + more) =
      diskSectors disk first less ++ diskSectors disk (first + less) more := by
  rw [diskSectors, diskSectors, diskSectors, ← List.flatMap_append, ← List.range'_append_1]

/-- The first of some requests. -/
theorem Asked.first {kind : Cpu → Prop} {request : Boot0Request} {requests : List Boot0Request}
    (asked : Asked firmware drive kind (request :: requests) memory last) :
    ∃ cpu, cpu.memory = memory ∧ request.Made drive cpu ∧
      Boot0Answered request cpu (firmware request.number cpu) ∧
      kind (firmware request.number cpu) ∧
      Asked firmware drive kind requests (firmware request.number cpu).memory last := by
  cases asked with
  | cons made kept answer more => exact ⟨_, rfl, made, kept, answer, more⟩

/-- What the accepted requests have loaded. -/
theorem Asked.loads (whole : ∀ sector, (disk sector).length = 512)
    (reads : ReadsDisk firmware desc disk)
    (asked : Asked firmware drive (¬ Refused ·) boot0Requests memory last) :
    last.Holds 0x10000 (diskSectors disk 1 62) ∧
      last.Holds 0x17c00 (diskSectors disk desc.ns.toNat 58) := by
  have first := @length_diskSectors disk 1 62 whole
  have second := @length_diskSectors disk desc.ns.toNat 58 whole
  obtain ⟨_, _, _, _, _, asked⟩ := asked.first
  obtain ⟨cpu, _, made, _, accepted, asked⟩ := asked.first
  have read := reads boot1p1 List.mem_cons_self _ _ made accepted
  rw [sector_boot1p1] at read
  obtain ⟨cpu', memory', made', kept', accepted', asked⟩ := asked.first
  have read' := reads boot1p2 (List.mem_cons_of_mem _ List.mem_cons_self) _ _ made' accepted'
  rw [sector_boot1p2] at read'
  obtain ⟨cpu'', memory'', _, kept'', _, asked⟩ := asked.first
  cases asked
  -- The gate request keeps all of stage 1, the second read what is below its own part.
  have kept : ∀ address, 0x10000 ≤ address → address < 0x17c00 →
      (firmware 0x13 cpu').memory address = (firmware 0x13 cpu).memory address := by
    intro address above below
    have outside : ¬ (Boot0Request.read boot1p2).buffer address := by
      intro inside
      have start : 0x17c00 ≤ address := inside.1
      omega
    exact (kept'.memory address (.inr (.inr ⟨above, by omega, outside⟩))).trans
      (congrFun memory' address)
  have gate : ∀ address, 0x10000 ≤ address → address < 0x1f000 →
      (firmware 0x15 cpu'').memory address = (firmware 0x13 cpu').memory address := by
    intro address above below
    exact (kept''.memory address (.inr (.inr ⟨above, below, id⟩))).trans (congrFun memory'' address)
  constructor
  · refine read.congr fun place within => ?_
    have within : place < (diskSectors disk 1 62).length := within
    rw [first] at within
    exact (gate (0x10000 + place) (by omega) (by omega)).trans
      (kept (0x10000 + place) (by omega) (by omega))
  · refine read'.congr fun place within => ?_
    have within : place < (diskSectors disk desc.ns.toNat 58).length := within
    rw [second] at within
    exact gate (0x17c00 + place) (by omega) (by omega)

/-- Filling in `gdtptr` leaves stage 1 alone. -/
theorem holds_fillPointer {address : Nat} {bytes : List UInt8} (above : 0x10000 ≤ address)
    (holds : memory.Holds address bytes) : (image.fillPointer memory).Holds address bytes := by
  refine holds.congr fun place _ => ?_
  have fits := image.fits
  have sector : bootSector = 31744 := rfl
  have pointer := @toNat_gdtptr image
  rw [Boot0Image.fillPointer, Memory.storeLE_outside (by omega), Memory.storeLE_outside (by omega)]

/-- The sectors are in a row in memory where those of the second track are the ones that come
next on the disk. -/
theorem holds_diskSectors_iff (whole : ∀ sector, (disk sector).length = 512) {next : Nat}
    (first : memory.Holds 0x10000 (diskSectors disk 1 62))
    (second : memory.Holds 0x17c00 (diskSectors disk next 58)) :
    memory.Holds 0x10000 (diskSectors disk 1 120) ↔
      diskSectors disk next 58 = diskSectors disk 63 58 := by
  have split : diskSectors disk 1 120 = diskSectors disk 1 62 ++ diskSectors disk 63 58 :=
    @diskSectors_add disk 1 62 58
  have length := @length_diskSectors disk 1 62 whole
  have same : (diskSectors disk 63 58).length = (diskSectors disk next 58).length := by
    rw [length_diskSectors whole, length_diskSectors whole]
  rw [split, Memory.holds_append, length]
  constructor
  · rintro ⟨_, behind⟩
    have behind : memory.loadBytes 0x17c00 (diskSectors disk 63 58).length =
        diskSectors disk 63 58 := behind
    rw [← behind, same]
    exact second.symm
  · intro equal
    rw [equal] at second
    exact ⟨first, second⟩

/-- Where the boot sector enters stage 1, this is what it has loaded: 62 sectors from sector 1 on
and 58 sectors from the second track on, at the address they are entered at. -/
theorem boot0_loads {entry : UInt32} {cpu : Cpu} (bios : Boot0Bios firmware image)
    (whole : ∀ sector, (disk sector).length = 512) (reads : ReadsDisk firmware desc disk)
    (entered : Boot0Entered image entry drive cpu) :
    ∃ turns after, boot0 firmware image entry turns cpu = some after ∧
      (Boot0Halted image after ∨
        after.ip = boot1StartAddrPm ∧
          after.memory.Holds boot1StartAddrPm.toNat (diskSectors disk 1 62) ∧
          after.memory.Holds (boot1StartAddrPm.toNat + 62 * 512)
            (diskSectors disk desc.ns.toNat 58) ∧
          (after.memory.Holds boot1StartAddrPm.toNat (diskSectors disk 1 120) ↔
            diskSectors disk desc.ns.toNat 58 = diskSectors disk 63 58)) := by
  obtain ⟨turns, after, ran, ends⟩ := boot0_leaves bios entered
  refine ⟨turns, after, ran, ?_⟩
  rcases ends with ⟨last, asked, stage⟩ | ⟨_, _, _, _, _, _, _, _, _, _, _, halted⟩
  · obtain ⟨first, second⟩ := asked.loads whole reads
    have first := @holds_fillPointer image _ _ _ (by decide) first
    have second := @holds_fillPointer image _ _ _ (by decide) second
    rw [← stage.memory] at first second
    exact .inr ⟨stage.ip, first, second, holds_diskSectors_iff whole first second⟩
  · exact .inl halted

end Loads

/-- The registers of a disk request as a BIOS finds them. -/
def diskRegs (cpu : Cpu) : Regs16 where
  al := cpu.byte .al
  ah := cpu.byte .ah
  bx := (cpu.register .ebx).toUInt16
  cl := (cpu.register .ecx).toUInt16.toUInt8
  ch := ((cpu.register .ecx).toUInt16 >>> 8).toUInt8
  dl := cpu.byte .dl
  dh := cpu.byte .dh
  es := (cpu.segment .es).selector
  cf := false

/-- A BIOS that reads a disk and accepts everything. -/
def diskFirmware (desc : ChsDiskGeometry) (disk : Nat → List UInt8) : Firmware := fun number cpu =>
  acceptingFirmware number
    (if number = 0x13 ∧ cpu.byte .ah = 0x02 then
      cpu.setMemory (cpu.memory.storeBytes
        (16 * (cpu.segment .es).selector.toNat + (cpu.register .ebx).toUInt16.toNat)
        (diskSectors disk ((diskRegs cpu).sector desc) (cpu.byte .al).toNat))
    else cpu)

section Example

variable {image : Boot0Image} {drive : UInt8} {desc : ChsDiskGeometry} {disk : Nat → List UInt8}
  {part : BootPart} {cpu : Cpu}

/-- What this BIOS does for a part. -/
theorem diskFirmware_read (made : (Boot0Request.read part).Made drive cpu) :
    diskFirmware desc disk 0x13 cpu = acceptingFirmware 0x13 (cpu.setMemory
      (cpu.memory.storeBytes (0x10000 + part.startAddrRm.toNat)
        (diskSectors disk ((part.regs drive).sector desc) part.nbSectors.toNat))) := by
  obtain ⟨ah, al, cx, dh, dl, es, bx⟩ := made
  have regs : diskRegs cpu = part.regs drive := by
    rw [diskRegs, ah, al, cx, dh, dl, es, bx]
    rfl
  have base : 16 * boot0ExtraDataSegment.toNat = 0x10000 := rfl
  rw [diskFirmware, if_pos ⟨rfl, ah⟩, regs, al, es, bx, base]

theorem diskFirmware_reads : ReadsDisk (diskFirmware desc disk) desc disk := by
  intro part _ drive cpu made _
  rw [diskFirmware_read made]
  exact Memory.holds_storeBytes

theorem diskFirmware_bios (whole : ∀ sector, (disk sector).length = 512) :
    Boot0Bios (diskFirmware desc disk) image := by
  intro request drive stack cpu low here made
  have quiet : ∀ number : UInt8, (number = 0x13 → cpu.byte .ah ≠ 0x02) →
      diskFirmware desc disk number cpu = acceptingFirmware number cpu := by
    intro number other
    rw [diskFirmware, if_neg fun both => other both.1 both.2]
  have kept : Boot0Answered request cpu (acceptingFirmware request.number cpu) :=
    ⟨rfl, fun _ _ => rfl, rfl, rfl, rfl, withFlag_apart (by decide), fun _ _ => rfl⟩
  cases request with
  | reset =>
      rw [quiet]
      · exact kept
      · intro _ read
        rw [made.1] at read
        exact absurd read (by decide)
  | enableA20 =>
      rw [quiet]
      · exact kept
      · intro disk
        exact absurd disk (by decide)
  | print character =>
      rw [quiet]
      · exact kept
      · intro disk
        exact absurd disk (by decide : (0x10 : UInt8) ≠ 0x13)
  | read part =>
      change Boot0Answered _ cpu (diskFirmware desc disk 0x13 cpu)
      rw [diskFirmware_read made]
      refine ⟨rfl, fun _ _ => rfl, rfl, rfl, rfl, withFlag_apart (by decide), ?_⟩
      intro address inside
      apply Memory.storeBytes_outside
      rw [length_diskSectors whole]
      have sector : bootSector = 31744 := rfl
      have top : boot0StackBaseOffset.toNat = 32768 := rfl
      rcases inside with ⟨_, below⟩ | ⟨_, below⟩ | ⟨_, _, outside⟩
      · omega
      · omega
      · have outside : ¬ (0x10000 + part.startAddrRm.toNat ≤ address ∧
            address < 0x10000 + part.startAddrRm.toNat + 512 * part.nbSectors.toNat) := outside
        omega

end Example

/-- A disk whose sectors are filled with their numbers. -/
def exampleDisk (sector : Nat) : List UInt8 := List.replicate 512 (UInt8.ofNat sector)

/-- A disk with 63 sectors in a track. -/
def exampleGeometry : ChsDiskGeometry := ⟨100, 16, 63, 100800⟩

theorem boot0_loads_63 :
    ∃ turns after, boot0 (diskFirmware exampleGeometry exampleDisk) exampleBoot0 0x7c00 turns
        (exampleBooting exampleBootMemory) = some after ∧
      (Boot0Halted exampleBoot0 after ∨
        after.ip = boot1StartAddrPm ∧
          after.memory.Holds boot1StartAddrPm.toNat (diskSectors exampleDisk 1 62) ∧
          after.memory.Holds (boot1StartAddrPm.toNat + 62 * 512)
            (diskSectors exampleDisk exampleGeometry.ns.toNat 58) ∧
          (after.memory.Holds boot1StartAddrPm.toNat (diskSectors exampleDisk 1 120) ↔
            diskSectors exampleDisk exampleGeometry.ns.toNat 58 = diskSectors exampleDisk 63 58)) :=
  boot0_loads (diskFirmware_bios fun _ => List.length_replicate)
    (fun _ => List.length_replicate) diskFirmware_reads
    (exampleBooting_entered exampleBootMemory_loaded)

end Bootloader.Arch
