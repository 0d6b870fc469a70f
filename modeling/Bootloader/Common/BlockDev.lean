import Mathlib.Algebra.Group.Nat.Defs

/-!
# Block devices

The table of the two known devices, and the two ways to name a sector of a disk:
its logical block address, and the cylinder, head and sector that a BIOS is
given. `lbatochs_sector` says that the second names the same sector as the first
wherever the cylinder fits its 16-bit field; `chstolba_toNat` and
`lbatochs_unique` are the way back.
-/

namespace Bootloader.Common

/-- A sector by its cylinder, head and sector number; sectors count from one. -/
@[ext] structure Chs where
  c : UInt16
  h : UInt8
  s : UInt8
deriving DecidableEq, Repr

/-- The number of cylinders, of heads, of sectors per track, and of sectors. -/
structure ChsDiskGeometry where
  nc : UInt16
  nh : UInt8
  ns : UInt8
  nlba : UInt32
deriving DecidableEq, Repr

/-- What the driver has found out about a device. -/
inductive DevStatus where
  | notFound
  | unknown
  | initialized
  | opened
  | closed
deriving DecidableEq, Repr

/-- `FLOPPY_DISK_DRIVER`. -/
def floppyDiskDriver : UInt8 := 0

/-- `HARD_DISK_DRIVER`. -/
def hardDiskDriver : UInt8 := 1

/-- An entry of the device table; `info` points to the geometry once it is known. -/
structure Dev where
  name : String
  major : UInt8
  minor : UInt8
  status : DevStatus
  info : Option ChsDiskGeometry
deriving DecidableEq, Repr

/-- `dev_getinfo`: the geometry of a device, NULL when it is not known. -/
def devGetinfo (major minor : UInt8) (devices : List Dev) : Option ChsDiskGeometry :=
  (devices.find? fun device => device.major == major && device.minor == minor).bind Dev.info

/-- `lbatochs`: each part is narrowed to its field. -/
def lbatochs (desc : ChsDiskGeometry) (lbaAddr : UInt32) : Chs :=
  let s := (lbaAddr % desc.ns.toUInt32 + 1).toUInt8
  { s := s
    h := ((lbaAddr - (s.toUInt32 - 1)) / desc.ns.toUInt32 % desc.nh.toUInt32).toUInt8
    c := ((lbaAddr - (s.toUInt32 - 1)) / desc.ns.toUInt32 / desc.nh.toUInt32).toUInt16 }

/-- `chstolba`: the inverse, in 32-bit arithmetic. -/
def chstolba (desc : ChsDiskGeometry) (address : Chs) : UInt32 :=
  address.c.toUInt32 * desc.ns.toUInt32 * desc.nh.toUInt32 +
    address.h.toUInt32 * desc.ns.toUInt32 + (address.s.toUInt32 - 1)

/-- The number of the sector a CHS address names. -/
def Chs.sector (desc : ChsDiskGeometry) (address : Chs) : Nat :=
  (address.c.toNat * desc.nh.toNat + address.h.toNat) * desc.ns.toNat + (address.s.toNat - 1)

/-- A CHS address that the disk has. -/
structure Chs.On (desc : ChsDiskGeometry) (address : Chs) : Prop where
  cylinder : address.c < desc.nc
  head : address.h < desc.nh
  first : 1 ≤ address.s
  last : address.s ≤ desc.ns

/-- The number of sectors a disk has, as a natural number. -/
def ChsDiskGeometry.sectors (desc : ChsDiskGeometry) : Nat :=
  desc.nc.toNat * desc.nh.toNat * desc.ns.toNat

section Addresses

variable {desc : ChsDiskGeometry} {lba : UInt32} {address : Chs}

/-- The sector number is the rest of the address in its track, counted from one. -/
theorem lbatochs_s (lba : UInt32) (sectors : 0 < desc.ns.toNat) :
    (lbatochs desc lba).s.toNat = lba.toNat % desc.ns.toNat + 1 := by
  have bound := desc.ns.toNat_lt
  have rest : lba.toNat % desc.ns.toNat < desc.ns.toNat := Nat.mod_lt _ sectors
  simp only [lbatochs, UInt32.toNat_toUInt8, UInt32.toNat_add, UInt32.toNat_mod,
    UInt8.toNat_toUInt32, UInt32.toNat_one]
  omega

/-- The address of the first sector of a track, as `lbatochs` computes it. -/
theorem track_start (lba : UInt32) (sectors : 0 < desc.ns.toNat) :
    (lba - ((lbatochs desc lba).s.toUInt32 - 1)).toNat =
      lba.toNat / desc.ns.toNat * desc.ns.toNat := by
  have s := lbatochs_s lba sectors
  have parts := Nat.div_add_mod' lba.toNat desc.ns.toNat
  have bound := lba.toNat_lt
  have small := (lbatochs desc lba).s.toNat_lt
  rw [UInt32.toNat_sub, UInt32.toNat_sub, UInt8.toNat_toUInt32, s, UInt32.toNat_one]
  rw [s] at small
  omega

theorem lbatochs_h (sectors : 0 < desc.ns.toNat) (heads : 0 < desc.nh.toNat) :
    (lbatochs desc lba).h.toNat = lba.toNat / desc.ns.toNat % desc.nh.toNat := by
  have bound := desc.nh.toNat_lt
  have below : lba.toNat / desc.ns.toNat % desc.nh.toNat < desc.nh.toNat := Nat.mod_lt _ heads
  have start := track_start lba sectors
  have track : (lbatochs desc lba).h =
      ((lba - ((lbatochs desc lba).s.toUInt32 - 1)) / desc.ns.toUInt32 %
        desc.nh.toUInt32).toUInt8 := rfl
  rw [track, UInt32.toNat_toUInt8, UInt32.toNat_mod, UInt32.toNat_div, start,
    UInt8.toNat_toUInt32, UInt8.toNat_toUInt32, Nat.mul_div_cancel _ sectors]
  omega

theorem lbatochs_c (sectors : 0 < desc.ns.toNat) :
    (lbatochs desc lba).c.toNat =
      lba.toNat / desc.ns.toNat / desc.nh.toNat % 65536 := by
  have start := track_start lba sectors
  have track : (lbatochs desc lba).c =
      ((lba - ((lbatochs desc lba).s.toUInt32 - 1)) / desc.ns.toUInt32 /
        desc.nh.toUInt32).toUInt16 := rfl
  rw [track, UInt32.toNat_toUInt16, UInt32.toNat_div, UInt32.toNat_div, start,
    UInt8.toNat_toUInt32, UInt8.toNat_toUInt32, Nat.mul_div_cancel _ sectors]

/-- The CHS address of a block names that block. -/
theorem lbatochs_sector (sectors : 0 < desc.ns.toNat) (heads : 0 < desc.nh.toNat)
    (cylinder : lba.toNat / desc.ns.toNat / desc.nh.toNat < 65536) :
    (lbatochs desc lba).sector desc = lba.toNat := by
  rw [Chs.sector, lbatochs_c sectors, lbatochs_h sectors heads, lbatochs_s lba sectors,
    Nat.mod_eq_of_lt cylinder, Nat.div_add_mod', Nat.add_sub_cancel, Nat.div_add_mod']

/-- The address of a block of the disk is one the disk has. -/
theorem lbatochs_on (heads : 0 < desc.nh.toNat) (positive : 0 < desc.ns.toNat)
    (inside : lba.toNat < desc.sectors) :
    (lbatochs desc lba).On desc ∧
      (lbatochs desc lba).c.toNat = lba.toNat / desc.ns.toNat / desc.nh.toNat := by
  have below : lba.toNat / desc.ns.toNat / desc.nh.toNat < desc.nc.toNat := by
    rw [Nat.div_lt_iff_lt_mul heads, Nat.div_lt_iff_lt_mul positive]
    exact inside
  have cylinder : (lbatochs desc lba).c.toNat = lba.toNat / desc.ns.toNat / desc.nh.toNat := by
    have bound := desc.nc.toNat_lt
    rw [lbatochs_c positive, Nat.mod_eq_of_lt (by omega)]
  have head := @lbatochs_h desc lba positive heads
  have sector := lbatochs_s lba positive
  have headBelow := Nat.mod_lt (lba.toNat / desc.ns.toNat) heads
  have sectorBelow := Nat.mod_lt lba.toNat positive
  refine ⟨⟨?_, ?_, ?_, ?_⟩, cylinder⟩
  · rw [UInt16.lt_iff_toNat_lt, cylinder]
    exact below
  · rw [UInt8.lt_iff_toNat_lt, head]
    exact headBelow
  · rw [UInt8.le_iff_toNat_le, sector, UInt8.toNat_one]
    omega
  · rw [UInt8.le_iff_toNat_le, sector]
    omega

/-- The track of an address is one of the tracks of the disk. -/
theorem Chs.On.track_lt (on : address.On desc) :
    address.c.toNat * desc.nh.toNat + address.h.toNat < desc.nc.toNat * desc.nh.toNat := by
  have head := UInt8.lt_iff_toNat_lt.mp on.head
  have cylinder := UInt16.lt_iff_toNat_lt.mp on.cylinder
  calc address.c.toNat * desc.nh.toNat + address.h.toNat
      < (address.c.toNat + 1) * desc.nh.toNat := by rw [Nat.succ_mul]; omega
    _ ≤ desc.nc.toNat * desc.nh.toNat := Nat.mul_le_mul_right _ cylinder

/-- An address of the disk names one of its sectors. -/
theorem Chs.On.sector_lt (on : address.On desc) : address.sector desc < desc.sectors := by
  have first := UInt8.le_iff_toNat_le.mp on.first
  have last := UInt8.le_iff_toNat_le.mp on.last
  rw [UInt8.toNat_one] at first
  calc address.sector desc
      < (address.c.toNat * desc.nh.toNat + address.h.toNat + 1) * desc.ns.toNat := by
        rw [Chs.sector, Nat.succ_mul]
        omega
    _ ≤ desc.sectors := Nat.mul_le_mul_right _ on.track_lt

/-- `chstolba` computes the number of the sector where no product leaves 32 bits. -/
theorem chstolba_toNat (on : address.On desc) (small : desc.sectors < 2 ^ 32) :
    (chstolba desc address).toNat = address.sector desc := by
  have below := on.sector_lt
  have first := UInt8.le_iff_toNat_le.mp on.first
  have last := address.s.toNat_lt
  have cylinders : address.c.toNat * desc.ns.toNat * desc.nh.toNat +
      address.h.toNat * desc.ns.toNat + (address.s.toNat - 1) = address.sector desc := by
    rw [Chs.sector, Nat.add_mul, Nat.mul_right_comm]
  have track : address.c.toNat * desc.ns.toNat < 2 ^ 32 := by
    have wide := address.c.toNat_lt
    have narrow := desc.ns.toNat_lt
    exact Nat.lt_of_le_of_lt (Nat.mul_le_mul (Nat.le_of_lt wide) (Nat.le_of_lt narrow)) (by decide)
  rw [UInt8.toNat_one] at first
  have rest : (address.s.toUInt32 - 1).toNat = address.s.toNat - 1 := by
    rw [UInt32.toNat_sub, UInt8.toNat_toUInt32, UInt32.toNat_one]
    omega
  have head : (address.h.toUInt32 * desc.ns.toUInt32).toNat =
      address.h.toNat * desc.ns.toNat := by
    rw [UInt32.toNat_mul, UInt8.toNat_toUInt32, UInt8.toNat_toUInt32, Nat.mod_eq_of_lt (by omega)]
  have cylinder : (address.c.toUInt32 * desc.ns.toUInt32 * desc.nh.toUInt32).toNat =
      address.c.toNat * desc.ns.toNat * desc.nh.toNat := by
    rw [UInt32.toNat_mul, UInt32.toNat_mul, UInt16.toNat_toUInt32, UInt8.toNat_toUInt32,
      UInt8.toNat_toUInt32, Nat.mod_eq_of_lt track, Nat.mod_eq_of_lt (by omega)]
  rw [chstolba, UInt32.toNat_add, UInt32.toNat_add, cylinder, head, rest]
  omega

/-- A block number is found again from its address. -/
theorem chstolba_lbatochs (heads : 0 < desc.nh.toNat) (positive : 0 < desc.ns.toNat)
    (small : desc.sectors < 2 ^ 32) (inside : lba.toNat < desc.sectors) :
    chstolba desc (lbatochs desc lba) = lba := by
  obtain ⟨on, cylinder⟩ := lbatochs_on heads positive inside
  have narrow := (lbatochs desc lba).c.toNat_lt
  apply UInt32.toNat_inj.mp
  rw [chstolba_toNat on small, lbatochs_sector positive heads (cylinder ▸ narrow)]

/-- The address of a sector is found again from its number. -/
theorem lbatochs_unique (on : address.On desc) (heads : 0 < desc.nh.toNat)
    (names : lba.toNat = address.sector desc) : lbatochs desc lba = address := by
  have first := UInt8.le_iff_toNat_le.mp on.first
  have last := UInt8.le_iff_toNat_le.mp on.last
  have head := UInt8.lt_iff_toNat_lt.mp on.head
  have wide := address.c.toNat_lt
  rw [UInt8.toNat_one] at first
  have positive : 0 < desc.ns.toNat := by omega
  have inTrack : address.s.toNat - 1 < desc.ns.toNat := by omega
  have track : lba.toNat / desc.ns.toNat =
      address.c.toNat * desc.nh.toNat + address.h.toNat := by
    rw [names, Chs.sector, Nat.mul_comm, Nat.mul_add_div positive, Nat.div_eq_of_lt inTrack,
      Nat.add_zero]
  have rest : lba.toNat % desc.ns.toNat = address.s.toNat - 1 := by
    rw [names, Chs.sector, Nat.mul_comm, Nat.mul_add_mod, Nat.mod_eq_of_lt inTrack]
  have c : (lbatochs desc lba).c = address.c := by
    apply UInt16.toNat_inj.mp
    rw [lbatochs_c positive, track, Nat.mul_comm, Nat.mul_add_div heads, Nat.div_eq_of_lt head,
      Nat.add_zero, Nat.mod_eq_of_lt wide]
  have h : (lbatochs desc lba).h = address.h := by
    apply UInt8.toNat_inj.mp
    rw [lbatochs_h positive heads, track, Nat.mul_comm, Nat.mul_add_mod, Nat.mod_eq_of_lt head]
  have s : (lbatochs desc lba).s = address.s := by
    apply UInt8.toNat_inj.mp
    rw [lbatochs_s lba positive, rest]
    omega
  exact Chs.ext c h s

end Addresses

end Bootloader.Common
