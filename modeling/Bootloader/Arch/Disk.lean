import Bootloader.Common.BlockDev
import Bootloader.Std.Memory
import Bootloader.Std.Program

/-!
# Disk access through the BIOS

Both builds reach the disk by software interrupt 0x13: they fill a register block,
have the interrupt called, and look at the block they are handed back. A reply is
this block. In the real-mode build it holds the carry flag of the BIOS; in the
protected-mode build `int32` hands its flags back with the carry flag clear. What
will be handed back is part of the machine, one reply after the other, and may
depend on the registers that are given and on memory.
-/

namespace Bootloader.Arch

open Bootloader.Std Bootloader.Common

/-- The registers of a `regs16_t` that the disk routines fill or read. -/
structure Regs16 where
  al : UInt8
  ah : UInt8
  bx : UInt16
  cl : UInt8
  ch : UInt8
  dl : UInt8
  dh : UInt8
  es : UInt16
  cf : Bool

/-- One answer to an interrupt: the register block handed back, with the memory the BIOS
leaves. -/
abbrev Bios : Type := Regs16 → Memory → Regs16 × Memory

/-- What a disk driver does that can be seen from outside: its requests to the
BIOS with the count each was answered with, and the sectors it takes over. -/
inductive DiskEvent where
  | request (address : Chs) (sectors : UInt8)
  | advance (sectors : UInt8)
deriving DecidableEq, Repr

/-- Memory, the device table, the answers the BIOS will give to the coming disk
interrupts, and the record of what the driver has done. -/
structure Machine where
  memory : Memory
  devices : List Dev
  replies : Nat → Bios
  events : List DiskEvent

namespace Machine

/-- Record an event. -/
def record (machine : Machine) (event : DiskEvent) : Machine :=
  { machine with events := machine.events ++ [event] }

/-- `bioscall(0x13, regs)` or `int32(0x13, regs)`: the block of the next answer. -/
def int13 (regs : Regs16) (machine : Machine) : Regs16 × Machine :=
  let (reply, memory) := machine.replies 0 regs machine.memory
  (reply, { machine with memory := memory, replies := fun index => machine.replies (index + 1) })

end Machine

/-- The CX register of a read request: the low eight bits of the cylinder, the
next two of them, and the sector. -/
def startCylinderSector (address : Chs) : UInt16 :=
  ((address.c &&& 0x00FF) <<< 8) ||| ((address.c &&& 0x0300) >>> 2) ||| address.s.toUInt16

/-- The registers of a read request. -/
def readRequest (driveNb : UInt8) (segmentBase offset : UInt16) (address : Chs)
    (nbSectors : UInt8) : Regs16 where
  al := nbSectors
  ah := 0x02
  bx := offset
  cl := (startCylinderSector address).toUInt8
  ch := (startCylinderSector address >>> 8).toUInt8
  dl := driveNb
  dh := address.h
  es := segmentBase
  cf := false

/-- `disk_read_sectors`: the number of sectors the BIOS reports in AL. -/
def diskReadSectors (driveNb : UInt8) (segmentBase offset : UInt16) (address : Chs)
    (nbSectors : UInt8) (machine : Machine) : UInt8 × Machine :=
  let (regs, machine) :=
    (machine.record (.request address nbSectors)).int13
      (readRequest driveNb segmentBase offset address nbSectors)
  (regs.al, machine)

/-- What a routine reports that returns `EXIT_SUCCESS` or `EXIT_FAILURE`. -/
inductive ExitStatus where
  | success
  | failure
deriving DecidableEq, Repr

/-- The registers of a request that names a function and a drive; the others stay
as the stack has them. -/
def driveRequest (function driveNb : UInt8) : Regs16 where
  al := 0
  ah := function
  bx := 0
  cl := 0
  ch := 0
  dl := driveNb
  dh := 0
  es := 0
  cf := false

/-- `disk_reset`. -/
def diskReset (driveNb : UInt8) (machine : Machine) : ExitStatus × Machine :=
  let (regs, machine) := machine.int13 (driveRequest 0x00 driveNb)
  (if regs.cf then .failure else .success, machine)

/-- The geometry that the reply to a geometry request describes: CX packs the last
cylinder and the sectors per track, DH is the last head. -/
def Regs16.geometry (regs : Regs16) : ChsDiskGeometry :=
  let nc := (regs.ch.toUInt16 ||| ((regs.cl &&& 0xc0).toUInt16 <<< 2)) + 1
  let ns := regs.cl &&& ~~~0xc0
  let nh := regs.dh + 1
  { nc := nc
    nh := nh
    ns := ns
    nlba := nc.toUInt32 * nh.toUInt32 * ns.toUInt32 }

/-- Whether a reply to a geometry request is an error for `disk_geometry`. -/
def Regs16.refused (regs : Regs16) : Bool := regs.cf && regs.ah == 0x01

/-- A `chs_disk_geometry_t` in memory: NC, NH, NS and Nlba in eight bytes. -/
def loadGeometry (memory : Memory) (address : Nat) : ChsDiskGeometry where
  nc := memory.load16 address
  nh := memory (address + 2)
  ns := memory (address + 3)
  nlba := memory.load32 (address + 4)

/-- Fill the fields of a `chs_disk_geometry_t`. -/
def storeGeometry (memory : Memory) (address : Nat) (desc : ChsDiskGeometry) : Memory :=
  (((memory.store16 address desc.nc).store8 (address + 3) desc.ns).store8
    (address + 2) desc.nh).store32 (address + 4) desc.nlba

/-- `disk_geometry`; a failure comes with the line it prints. -/
def diskGeometry (driveNb : UInt8) (geometry : UInt32) (machine : Machine) :
    Outcome Machine (Except String Unit) :=
  if geometry = 0 then .panicked "geometry != NULL" machine
  else
    let (regs, machine) := machine.int13 (driveRequest 0x08 driveNb)
    if regs.refused then
      .returned (.error "disk geometry error : invalid command\r\n") machine
    else
      .returned (.ok ())
        { machine with
          memory := storeGeometry machine.memory geometry.toNat regs.geometry }

/-- The machine after the BIOS has described a disk in these registers. -/
def Machine.fillGeometry (machine : Machine) (geometry : UInt32) (regs : Regs16) : Machine :=
  { machine with memory := storeGeometry machine.memory geometry.toNat regs.geometry }

/-- The bytes of a geometry are all that `disk_geometry` stores. -/
theorem storeGeometry_outside {memory : Memory} {address place : Nat} {desc : ChsDiskGeometry}
    (outside : place < address ∨ address + 8 ≤ place) :
    storeGeometry memory address desc place = memory place := by
  rw [storeGeometry, Memory.store32_outside (by omega), Memory.store8_of_ne (by omega),
    Memory.store8_of_ne (by omega), Memory.store16_outside (by omega)]

/-- What `disk_geometry` makes of the reply. -/
theorem diskGeometry_eq {driveNb : UInt8} {geometry : UInt32} {machine : Machine}
    (valid : geometry ≠ 0) :
    diskGeometry driveNb geometry machine =
      if (machine.int13 (driveRequest 0x08 driveNb)).1.refused then
        .returned (.error "disk geometry error : invalid command\r\n")
          (machine.int13 (driveRequest 0x08 driveNb)).2
      else
        .returned (.ok ()) ((machine.int13 (driveRequest 0x08 driveNb)).2.fillGeometry geometry
          (machine.int13 (driveRequest 0x08 driveNb)).1) :=
  if_neg valid

/-- The sector a BIOS finds in the registers of a request, by the convention that
also `disk_geometry` decodes: ten bits of cylinder and six bits of sector. -/
def Regs16.sector (desc : ChsDiskGeometry) (regs : Regs16) : Nat :=
  ((regs.ch.toNat + regs.cl.toNat / 64 * 256) * desc.nh.toNat + regs.dh.toNat) *
    desc.ns.toNat + (regs.cl.toNat % 64 - 1)

section Registers

variable {address : Chs} {driveNb nbSectors : UInt8} {segmentBase offset : UInt16}

/-- The two bits of the cylinder above the low eight. -/
theorem and_0x300 (cylinder : Nat) : cylinder &&& 0x300 = cylinder / 256 % 4 * 256 := by
  have small : ∀ rest < 1024, rest &&& 0x300 = rest / 256 % 4 * 256 := by decide +kernel
  have masked : cylinder &&& 0x300 = cylinder % 1024 &&& 0x300 := by
    rw [← Nat.and_two_pow_sub_one_eq_mod cylinder 10, Nat.and_assoc]
    rfl
  rw [masked, small _ (Nat.mod_lt _ (by decide))]
  omega

/-- The packed register as a number. -/
theorem startCylinderSector_toNat (sector : address.s.toNat < 64) :
    (startCylinderSector address).toNat =
      address.c.toNat % 256 * 256 + (address.c.toNat / 256 % 4 * 64 + address.s.toNat) := by
  have low : address.c.toNat &&& 0xFF = address.c.toNat % 256 :=
    Nat.and_two_pow_sub_one_eq_mod _ 8
  have inner : address.c.toNat / 256 % 4 * 64 ||| address.s.toNat =
      address.c.toNat / 256 % 4 * 64 + address.s.toNat := by
    have disjoint := Nat.shiftLeft_add_eq_or_of_lt (i := 6) sector (address.c.toNat / 256 % 4)
    rw [Nat.shiftLeft_eq] at disjoint
    exact disjoint.symm
  have outer : address.c.toNat % 256 * 256 |||
      (address.c.toNat / 256 % 4 * 64 + address.s.toNat) =
        address.c.toNat % 256 * 256 + (address.c.toNat / 256 % 4 * 64 + address.s.toNat) := by
    have small : address.c.toNat / 256 % 4 * 64 + address.s.toNat < 2 ^ 8 := by omega
    have disjoint := Nat.shiftLeft_add_eq_or_of_lt small (address.c.toNat % 256)
    rw [Nat.shiftLeft_eq] at disjoint
    exact disjoint.symm
  rw [startCylinderSector, UInt16.toNat_or, UInt16.toNat_or, UInt16.toNat_shiftLeft,
    UInt16.toNat_shiftRight, UInt16.toNat_and, UInt16.toNat_and, UInt8.toNat_toUInt16]
  simp only [UInt16.reduceToNat, Nat.reduceMod, low, and_0x300, Nat.shiftLeft_eq,
    Nat.shiftRight_eq_div_pow]
  rw [show address.c.toNat / 256 % 4 * 256 / 2 ^ 2 = address.c.toNat / 256 % 4 * 64 by omega,
    show address.c.toNat % 256 * 2 ^ 8 % 2 ^ 16 = address.c.toNat % 256 * 256 by omega,
    Nat.or_assoc, inner, outer]

theorem toNat_readRequest_cl (sector : address.s.toNat < 64) :
    (readRequest driveNb segmentBase offset address nbSectors).cl.toNat =
      address.c.toNat / 256 % 4 * 64 + address.s.toNat := by
  simp only [readRequest]
  rw [UInt16.toNat_toUInt8, startCylinderSector_toNat sector]
  omega

theorem toNat_readRequest_ch (sector : address.s.toNat < 64) :
    (readRequest driveNb segmentBase offset address nbSectors).ch.toNat =
      address.c.toNat % 256 := by
  have low : address.c.toNat / 256 % 4 * 64 + address.s.toNat < 256 := by omega
  simp only [readRequest]
  rw [UInt16.toNat_toUInt8, UInt16.toNat_shiftRight, startCylinderSector_toNat sector]
  simp only [UInt16.reduceToNat, Nat.reduceMod, Nat.shiftRight_eq_div_pow, Nat.reducePow]
  generalize address.c.toNat / 256 % 4 * 64 + address.s.toNat = rest at low
  omega

/-- A read request carries the low ten bits of the cylinder, the head and the
sector, so that the BIOS finds the sector of the address in it when the cylinder
has no more bits. -/
theorem readRequest_sector (desc : ChsDiskGeometry) (positive : 0 < address.s.toNat)
    (sector : address.s.toNat < 64) :
    (readRequest driveNb segmentBase offset address nbSectors).sector desc =
      (address.c.toNat % 1024 * desc.nh.toNat + address.h.toNat) * desc.ns.toNat +
        (address.s.toNat - 1) := by
  have head : (readRequest driveNb segmentBase offset address nbSectors).dh = address.h := rfl
  rw [Regs16.sector, toNat_readRequest_cl sector, toNat_readRequest_ch sector, head]
  congr 2
  · congr 2
    omega
  · omega

end Registers

end Bootloader.Arch
