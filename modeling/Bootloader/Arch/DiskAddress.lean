import Bootloader.Arch.Disk

/-!
# Disk addresses

Three pieces of code translate disk addresses: `lbatochs` and `chstolba` between
a block number and its cylinder, head and sector, `disk_read_sectors` into the
registers of a request, and `disk_geometry` out of the registers of a reply. On
every geometry that `disk_geometry` can store they agree with one another.
-/

namespace Bootloader.Arch

open Bootloader.Std Bootloader.Common

/-- A geometry that some run of `disk_geometry` stores. -/
def Storable (desc : ChsDiskGeometry) : Prop :=
  ∃ driveNb geometry machine final,
    diskGeometry driveNb geometry machine = .returned (.ok ()) final ∧
      loadGeometry final.memory geometry.toNat = desc

/-- The cylinder, head and sector that registers carry, packed as `disk_geometry`
unpacks them. -/
def Regs16.chs (regs : Regs16) : Chs where
  c := regs.ch.toUInt16 ||| ((regs.cl &&& 0xc0).toUInt16 <<< 2)
  h := regs.dh
  s := regs.cl &&& 0x3f

section Geometry

variable {regs : Regs16} {memory : Memory} {address : Nat} {desc : ChsDiskGeometry}

/-- A geometry is read back as it was filled in. -/
theorem loadGeometry_storeGeometry :
    loadGeometry (storeGeometry memory address desc) address = desc := by
  have nc : (storeGeometry memory address desc).load16 address = desc.nc := by
    rw [storeGeometry]
    trans (memory.store16 address desc.nc).load16 address
    · apply Memory.load16_congr
      · rw [Memory.store32_outside (by omega), Memory.store8_of_ne (by omega),
          Memory.store8_of_ne (by omega)]
      · rw [Memory.store32_outside (by omega), Memory.store8_of_ne (by omega),
          Memory.store8_of_ne (by omega)]
    · exact Memory.load16_store16 ..
  have nh : storeGeometry memory address desc (address + 2) = desc.nh := by
    rw [storeGeometry, Memory.store32_outside (by omega), Memory.store8_same]
  have ns : storeGeometry memory address desc (address + 3) = desc.ns := by
    rw [storeGeometry, Memory.store32_outside (by omega), Memory.store8_of_ne (by omega),
      Memory.store8_same]
  have nlba : (storeGeometry memory address desc).load32 (address + 4) = desc.nlba :=
    Memory.load32_store32 ..
  rw [loadGeometry, nc, nh, ns, nlba]

/-- The two high bits of a byte. -/
theorem and_0xc0 (byte : UInt8) : (byte &&& 0xc0).toNat = byte.toNat / 64 * 64 := by
  have all : ∀ number < 256, number &&& 0xc0 = number / 64 * 64 := by decide +kernel
  rw [UInt8.toNat_and]
  exact all _ byte.toNat_lt

/-- The cylinder in CX is a number of ten bits. -/
theorem toNat_chs_c : regs.chs.c.toNat = regs.ch.toNat + regs.cl.toNat / 64 * 256 := by
  have low := regs.ch.toNat_lt
  have high := regs.cl.toNat_lt
  have shifted : ((regs.cl &&& 0xc0).toUInt16 <<< 2).toNat = regs.cl.toNat / 64 * 256 := by
    rw [UInt16.toNat_shiftLeft, UInt8.toNat_toUInt16, and_0xc0, Nat.shiftLeft_eq]
    simp only [UInt16.reduceToNat, Nat.reduceMod, Nat.reducePow]
    omega
  have disjoint : regs.ch.toNat ||| regs.cl.toNat / 64 * 256 =
      regs.ch.toNat + regs.cl.toNat / 64 * 256 := by
    have sum := Nat.shiftLeft_add_eq_or_of_lt (i := 8) low (regs.cl.toNat / 64)
    rw [Nat.shiftLeft_eq] at sum
    rw [Nat.or_comm, Nat.add_comm]
    exact sum.symm
  rw [Regs16.chs, UInt16.toNat_or, shifted, UInt8.toNat_toUInt16, disjoint]

/-- The sector in CX is a number of six bits. -/
theorem toNat_chs_s : regs.chs.s.toNat = regs.cl.toNat % 64 := by
  have all : ∀ number < 256, number &&& 0x3f = number % 64 := by decide +kernel
  rw [Regs16.chs, UInt8.toNat_and]
  exact all _ regs.cl.toNat_lt

theorem toNat_geometry_nc :
    regs.geometry.nc.toNat = regs.ch.toNat + regs.cl.toNat / 64 * 256 + 1 := by
  have low := regs.ch.toNat_lt
  have high := regs.cl.toNat_lt
  have last : regs.geometry.nc = regs.chs.c + 1 := rfl
  rw [last, UInt16.toNat_add, toNat_chs_c, UInt16.toNat_one]
  omega

theorem toNat_geometry_ns : regs.geometry.ns.toNat = regs.cl.toNat % 64 :=
  toNat_chs_s

/-- The bounds of a geometry that registers can describe, whose number of sectors
is then the product of the other three. -/
theorem geometry_bounds (regs : Regs16) :
    1 ≤ regs.geometry.nc.toNat ∧ regs.geometry.nc.toNat ≤ 1024 ∧ regs.geometry.ns.toNat ≤ 63 ∧
      regs.geometry.nlba.toNat = regs.geometry.sectors := by
  have nc := @toNat_geometry_nc regs
  have ns := @toNat_geometry_ns regs
  have low := regs.ch.toNat_lt
  have high := regs.cl.toNat_lt
  have nh := regs.geometry.nh.toNat_lt
  have cylinders : regs.geometry.nc.toNat ≤ 1024 := by omega
  have sectors : regs.geometry.ns.toNat ≤ 63 := by omega
  have tracks : regs.geometry.nc.toNat * regs.geometry.nh.toNat ≤ 1024 * 255 :=
    Nat.mul_le_mul cylinders (by omega)
  have all : regs.geometry.sectors ≤ 1024 * 255 * 63 := Nat.mul_le_mul tracks sectors
  refine ⟨by omega, cylinders, sectors, ?_⟩
  have product : regs.geometry.nlba =
      regs.geometry.nc.toUInt32 * regs.geometry.nh.toUInt32 * regs.geometry.ns.toUInt32 := rfl
  rw [ChsDiskGeometry.sectors] at all ⊢
  rw [product, UInt32.toNat_mul, UInt32.toNat_mul, UInt16.toNat_toUInt32, UInt8.toNat_toUInt32,
    UInt8.toNat_toUInt32, Nat.mod_eq_of_lt (a := regs.geometry.nc.toNat * _) (by omega),
    Nat.mod_eq_of_lt (by omega)]

/-- What is stored is what some registers describe. -/
theorem Storable.described (storable : Storable desc) : ∃ regs : Regs16, desc = regs.geometry := by
  obtain ⟨driveNb, geometry, machine, final, ran, rfl⟩ := storable
  by_cases null : geometry = 0
  · rw [diskGeometry, if_pos null] at ran
    cases ran
  · rw [diskGeometry_eq null] at ran
    split at ran
    · cases ran
    · cases ran
      exact ⟨_, loadGeometry_storeGeometry⟩

/-- Whatever a reply describes without an error is stored. -/
theorem storable_geometry (accepted : regs.refused = false) : Storable regs.geometry := by
  let machine : Machine := ⟨fun _ => 0, [], fun _ _ memory => (regs, memory), []⟩
  have ran : diskGeometry 0x80 1 machine =
      .returned (.ok ())
        ((machine.int13 (driveRequest 0x08 0x80)).2.fillGeometry 1 regs) := by
    rw [diskGeometry_eq (by decide)]
    exact if_neg (Bool.eq_false_iff.mp accepted)
  exact ⟨0x80, 1, machine, _, ran, loadGeometry_storeGeometry⟩

/-- The bounds of a stored geometry. -/
theorem Storable.bounds (storable : Storable desc) :
    1 ≤ desc.nc.toNat ∧ desc.nc.toNat ≤ 1024 ∧ desc.ns.toNat ≤ 63 ∧
      desc.nlba.toNat = desc.sectors := by
  obtain ⟨regs, rfl⟩ := storable.described
  exact geometry_bounds regs

/-- The sectors of a stored geometry are numbered in 32 bits. -/
theorem Storable.sectors_lt (storable : Storable desc) : desc.sectors < 2 ^ 32 := by
  obtain ⟨_, _, _, product⟩ := storable.bounds
  exact product ▸ desc.nlba.toNat_lt

end Geometry

/-- The reply for the largest disk that the registers can describe with a head. -/
def largestReply : Regs16 where
  al := 0
  ah := 0
  bx := 0
  cl := 0xff
  ch := 0xff
  dl := 1
  dh := 254
  es := 0
  cf := false

example : largestReply.geometry = ⟨1024, 255, 63, 16450560⟩ := by decide

section Addresses

variable {desc : ChsDiskGeometry}

/-- Block numbers and CHS addresses are inverse to one another on every geometry
that has a head and a sector. -/
theorem chs_lba_inverse (storable : Storable desc) (heads : 1 ≤ desc.nh.toNat)
    (positive : 1 ≤ desc.ns.toNat) :
    (∀ lba : UInt32, lba.toNat < desc.sectors →
      (lbatochs desc lba).On desc ∧
        (lbatochs desc lba).c.toNat = lba.toNat / desc.ns.toNat / desc.nh.toNat ∧
        (lbatochs desc lba).h.toNat = lba.toNat / desc.ns.toNat % desc.nh.toNat ∧
        (lbatochs desc lba).s.toNat = lba.toNat % desc.ns.toNat + 1 ∧
        chstolba desc (lbatochs desc lba) = lba) ∧
      ∀ address : Chs, address.On desc →
        (chstolba desc address).toNat < desc.sectors ∧
          lbatochs desc (chstolba desc address) = address := by
  have small := storable.sectors_lt
  constructor
  · intro lba inside
    obtain ⟨on, cylinder⟩ := lbatochs_on heads positive inside
    exact ⟨on, cylinder, lbatochs_h positive heads, lbatochs_s lba positive,
      chstolba_lbatochs heads positive small inside⟩
  · intro address on
    have names := chstolba_toNat on small
    exact ⟨names ▸ on.sector_lt, lbatochs_unique on heads names⟩

theorem chs_lba_inverse_largest :
    (∀ lba : UInt32, lba.toNat < largestReply.geometry.sectors →
      (lbatochs largestReply.geometry lba).On largestReply.geometry ∧
        (lbatochs largestReply.geometry lba).c.toNat = lba.toNat / 63 / 255 ∧
        (lbatochs largestReply.geometry lba).h.toNat = lba.toNat / 63 % 255 ∧
        (lbatochs largestReply.geometry lba).s.toNat = lba.toNat % 63 + 1 ∧
        chstolba largestReply.geometry (lbatochs largestReply.geometry lba) = lba) ∧
      ∀ address : Chs, address.On largestReply.geometry →
        (chstolba largestReply.geometry address).toNat < largestReply.geometry.sectors ∧
          lbatochs largestReply.geometry (chstolba largestReply.geometry address) = address :=
  chs_lba_inverse (storable_geometry rfl) (by decide) (by decide)

/-- A request carries an address whole when its cylinder has ten bits and its
sector six. -/
theorem readRequest_chs {address : Chs} {driveNb nbSectors : UInt8} {segmentBase offset : UInt16}
    (cylinder : address.c.toNat < 1024) (sector : address.s.toNat < 64) :
    (readRequest driveNb segmentBase offset address nbSectors).chs = address := by
  have c : (readRequest driveNb segmentBase offset address nbSectors).chs.c = address.c := by
    apply UInt16.toNat_inj.mp
    rw [toNat_chs_c, toNat_readRequest_ch sector, toNat_readRequest_cl sector]
    omega
  have s : (readRequest driveNb segmentBase offset address nbSectors).chs.s = address.s := by
    apply UInt8.toNat_inj.mp
    rw [toNat_chs_s, toNat_readRequest_cl sector]
    omega
  exact Chs.ext c rfl s

/-- The registers of a request for a block decode to that block. -/
theorem chstolba_readRequest (storable : Storable desc) (heads : 1 ≤ desc.nh.toNat)
    (positive : 1 ≤ desc.ns.toNat) {lba : UInt32} (inside : lba < desc.nlba)
    (driveNb nbSectors : UInt8) (segmentBase offset : UInt16) :
    chstolba desc
      (readRequest driveNb segmentBase offset (lbatochs desc lba) nbSectors).chs = lba := by
  obtain ⟨_, cylinders, sectors, product⟩ := storable.bounds
  have below : lba.toNat < desc.sectors := product ▸ UInt32.lt_iff_toNat_lt.mp inside
  obtain ⟨on, _⟩ := lbatochs_on heads positive below
  have cylinder := UInt16.lt_iff_toNat_lt.mp on.cylinder
  have last := UInt8.le_iff_toNat_le.mp on.last
  rw [readRequest_chs (by omega) (by omega)]
  exact chstolba_lbatochs heads positive storable.sectors_lt below

/-- The BIOS is asked for the block the driver means, so that no two blocks share
the cylinder, sector and head registers of their requests. -/
theorem readRequest_names_block (storable : Storable desc) (heads : 1 ≤ desc.nh.toNat)
    (positive : 1 ≤ desc.ns.toNat) (driveNb nbSectors : UInt8) (segmentBase offset : UInt16) :
    let request (lba : UInt32) :=
      readRequest driveNb segmentBase offset (lbatochs desc lba) nbSectors
    (∀ lba < desc.nlba, chstolba desc (request lba).chs = lba) ∧
      ∀ lba < desc.nlba, ∀ other < desc.nlba,
        (request lba).ch = (request other).ch → (request lba).cl = (request other).cl →
          (request lba).dh = (request other).dh → lba = other := by
  have names (lba : UInt32) (inside : lba < desc.nlba) :=
    chstolba_readRequest storable heads positive inside driveNb nbSectors segmentBase offset
  refine ⟨names, fun lba inside other otherInside high low head => ?_⟩
  rw [← names lba inside, ← names other otherInside]
  have same : (readRequest driveNb segmentBase offset (lbatochs desc lba) nbSectors).chs =
      (readRequest driveNb segmentBase offset (lbatochs desc other) nbSectors).chs := by
    simp only [Regs16.chs, high, low, head]
  rw [same]

theorem readRequest_names_block_largest :
    let request (lba : UInt32) :=
      readRequest 0x80 0x3000 0 (lbatochs largestReply.geometry lba) 1
    (∀ lba < largestReply.geometry.nlba,
        chstolba largestReply.geometry (request lba).chs = lba) ∧
      ∀ lba < largestReply.geometry.nlba, ∀ other < largestReply.geometry.nlba,
        (request lba).ch = (request other).ch → (request lba).cl = (request other).cl →
          (request lba).dh = (request other).dh → lba = other :=
  readRequest_names_block (storable_geometry rfl) (by decide) (by decide) 0x80 1 0x3000 0

end Addresses

/-- A geometry says what an error-free reply describes, the last cylinder and the last head
counted as natural numbers, and neither divisor of `lbatochs` is zero. -/
structure Describes (reply : Regs16) (desc : ChsDiskGeometry) : Prop where
  noError : reply.cf = false
  cylinders : desc.nc.toNat = reply.ch.toNat + reply.cl.toNat / 64 * 256 + 1
  heads : desc.nh.toNat = reply.dh.toNat + 1
  sectors : desc.ns.toNat = reply.cl.toNat % 64
  positive : 1 ≤ desc.nc.toNat ∧ 1 ≤ desc.nh.toNat ∧ 1 ≤ desc.ns.toNat
  product : desc.nlba.toNat = desc.nc.toNat * desc.nh.toNat * desc.ns.toNat
  divides : desc.ns.toUInt32 ≠ 0 ∧ desc.nh.toUInt32 ≠ 0

/-- The reply that `disk_geometry` gets. -/
def geometryReply (driveNb : UInt8) (machine : Machine) : Regs16 :=
  (machine.int13 (driveRequest 0x08 driveNb)).1

/-- A success of `disk_geometry` comes with a geometry that says what the reply does. -/
def ReportsExactly (driveNb : UInt8) (geometry : UInt32) (machine : Machine) : Prop :=
  ∀ final, diskGeometry driveNb geometry machine = .returned (.ok ()) final →
    Describes (geometryReply driveNb machine) (loadGeometry final.memory geometry.toNat)

section Reports

variable {reply : Regs16}

theorem toNat_geometry_nh : reply.geometry.nh.toNat = (reply.dh.toNat + 1) % 256 := by
  have heads : reply.geometry.nh = reply.dh + 1 := rfl
  rw [heads, UInt8.toNat_add, UInt8.toNat_one]

/-- The 256th head is the one that does not fit its field. -/
theorem toNat_geometry_nh_iff :
    reply.geometry.nh.toNat = reply.dh.toNat + 1 ↔ reply.dh ≠ 255 := by
  have bound := reply.dh.toNat_lt
  have last : (255 : UInt8).toNat = 255 := rfl
  rw [toNat_geometry_nh, Ne, ← UInt8.toNat_inj, last]
  omega

/-- What the registers have to say for the geometry taken from them to say it too. -/
theorem describes_geometry_iff :
    Describes reply reply.geometry ↔
      reply.cf = false ∧ reply.dh ≠ 255 ∧ reply.cl.toNat % 64 ≠ 0 := by
  constructor
  · intro describes
    refine ⟨describes.noError, toNat_geometry_nh_iff.mp describes.heads, ?_⟩
    have positive := describes.positive.2.2
    rw [describes.sectors] at positive
    exact Nat.ne_of_gt positive
  · rintro ⟨noError, fits, nonzero⟩
    obtain ⟨cylinders, _, _, product⟩ := geometry_bounds reply
    have heads := toNat_geometry_nh_iff.mpr fits
    have sectors : reply.geometry.ns.toNat = reply.cl.toNat % 64 := toNat_geometry_ns
    refine ⟨noError, toNat_geometry_nc, heads, sectors, ⟨cylinders, by omega, by omega⟩, product,
      ?_, ?_⟩
    · rw [Ne, ← UInt32.toNat_inj, UInt8.toNat_toUInt32, sectors]
      exact nonzero
    · rw [Ne, ← UInt32.toNat_inj, UInt8.toNat_toUInt32, heads]
      exact Nat.succ_ne_zero _

end Reports

/-- The replies for which `disk_geometry` keeps its word: those it refuses, and those
without an error that have a sector in each track and no 256th head. -/
theorem reportsExactly_iff (driveNb : UInt8) (geometry : UInt32) (machine : Machine) :
    ReportsExactly driveNb geometry machine ↔
      geometry = 0 ∨
        ((geometryReply driveNb machine).cf = true ∧ (geometryReply driveNb machine).ah = 1) ∨
        ((geometryReply driveNb machine).cf = false ∧ (geometryReply driveNb machine).dh ≠ 255 ∧
          (geometryReply driveNb machine).cl.toNat % 64 ≠ 0) := by
  have refused : (geometryReply driveNb machine).refused = true ↔
      (geometryReply driveNb machine).cf = true ∧ (geometryReply driveNb machine).ah = 1 := by
    rw [Regs16.refused, Bool.and_eq_true, beq_iff_eq]
  rw [← refused, ← describes_geometry_iff]
  by_cases null : geometry = 0
  · refine iff_of_true (fun final ran => ?_) (Or.inl null)
    rw [diskGeometry, if_pos null] at ran
    cases ran
  · have ran := @diskGeometry_eq driveNb geometry machine null
    rw [← geometryReply] at ran
    by_cases error : (geometryReply driveNb machine).refused = true
    · refine iff_of_true (fun final succeeded => ?_) (Or.inr (Or.inl error))
      rw [ran, if_pos error] at succeeded
      cases succeeded
    · rw [if_neg error] at ran
      constructor
      · intro reports
        have describes := reports _ ran
        rw [Machine.fillGeometry, loadGeometry_storeGeometry] at describes
        exact Or.inr (Or.inr describes)
      · rintro (zero | wrong | describes) final succeeded
        · exact absurd zero null
        · exact absurd wrong error
        · rw [ran] at succeeded
          cases succeeded
          rw [Machine.fillGeometry, loadGeometry_storeGeometry]
          exact describes

/-- A machine whose BIOS gives one reply. -/
def replyingMachine (reply : Regs16) : Machine :=
  ⟨fun _ => 0, [], fun _ _ memory => (reply, memory), []⟩

/-- A drive that fails with a code other than "invalid command" is reported as a disk, and a
disk with 256 heads as one with none. -/
theorem geometry_not_reported_exactly :
    ¬ ReportsExactly 0x80 1 (replyingMachine { largestReply with cf := true, ah := 0x07 }) ∧
      ¬ ReportsExactly 0x80 1 (replyingMachine { largestReply with dh := 255 }) := by
  constructor
  · intro reports
    exact absurd (reports _ rfl).noError (by decide)
  · intro reports
    have heads := (reports _ rfl).positive.2.1
    exact absurd heads (by decide)

end Bootloader.Arch
