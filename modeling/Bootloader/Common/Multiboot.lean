import Bootloader.Arch.E820
import Bootloader.Libc.AllocRuns

/-!
# The memory map for the kernel

`multiboot_fill_header` turns the BIOS's memory map into an array of multiboot
entries on the heap, and the kernel walks that array. The two disagree on the unit
of `mmap_length`, on the flag that makes it valid and on the upper halves of
addresses; `kernelSeesSmap_iff` says which maps survive that.
-/

namespace Bootloader.Common

open Bootloader.Std Bootloader.Libc Bootloader.Arch

/-- The fields of `multiboot_info_t` that are written for the kernel, and the flags
that say which of them are valid. -/
structure MultibootInfo where
  flags : UInt32
  memLower : UInt32
  memUpper : UInt32
  drive : UInt8
  part1 : UInt8
  part2 : UInt8
  part3 : UInt8
  mmapLength : UInt32
  mmapAddr : UInt32
deriving DecidableEq, Repr

/-- What the probes before the memory map have found: the boot drive, the boot flags
of the partition table of `hda`, the lower memory, negative for a failure, and the
upper memory up to 16 MB. -/
structure Probes where
  bootDriveNb : UInt8
  mbr : Option (Fin 4 → UInt8)
  lowerMemory : Int16
  upperMemory : Option UInt16

/-- `MULTIBOOT_INFO_UNUSED_PARTITION`, in eight bits. -/
def multibootInfoUnusedPartition : UInt8 := 0xFF

/-- `MBR_PARTITION_BOOTABLE_FLAG`. -/
def mbrPartitionBootableFlag : UInt8 := 0x80

/-- `multiboot_info.boot_device`. -/
def fillBootDevice (probes : Probes) (header : MultibootInfo) : MultibootInfo :=
  let bootable := probes.mbr.bind fun bootFlag =>
    (List.finRange 4).find? fun i => bootFlag i = mbrPartitionBootableFlag
  { header with
    drive := probes.bootDriveNb
    part1 := bootable.elim multibootInfoUnusedPartition fun i => UInt8.ofNat i
    part2 := multibootInfoUnusedPartition
    part3 := multibootInfoUnusedPartition }

/-- `multiboot_info.mem_lower`. -/
def fillMemLower (probes : Probes) (header : MultibootInfo) : MultibootInfo :=
  if probes.lowerMemory < 0 then header
  else { header with memLower := probes.lowerMemory.toInt32.toUInt32 }

/-- `multiboot_info.mem_upper`. -/
def fillMemUpper (probes : Probes) (header : MultibootInfo) : MultibootInfo :=
  probes.upperMemory.elim header fun upper => { header with memUpper := upper.toUInt32 }

/-- `sizeof(multiboot_memory_map_t)`. -/
def sizeofMemoryMap : UInt32 := 24

/-- Fill one `multiboot_memory_map_t`: only the lower halves of the address and the
length. -/
def storeEntry (address : UInt32) (entry : SmapEntry) (memory : Memory) : Memory :=
  (((memory.store32 address.toNat 20).store64 (address.toNat + 4)
    entry.baseL.toUInt64).store64 (address.toNat + 12) entry.lengthL.toUInt64).store32
      (address.toNat + 20) entry.type

/-- Fill the array from an address on. -/
def storeEntries : UInt32 → List SmapEntry → Memory → Memory
  | _, [], memory => memory
  | address, entry :: rest, memory =>
      storeEntries (address + sizeofMemoryMap) rest (storeEntry address entry memory)

/-- `multiboot_info.mmap_*`. -/
def fillMmap (smap : Option (List SmapEntry)) (header : MultibootInfo) (heap : Heap) :
    Outcome Heap MultibootInfo :=
  let header := { header with mmapAddr := 0, mmapLength := 0 }
  match smap with
  | none => .returned header heap
  | some smap =>
      (malloc (UInt32.ofNat smap.length * sizeofMemoryMap) heap).andThen fun entries heap =>
        let heap :=
          if entries ≠ 0 then { heap with memory := storeEntries entries smap heap.memory }
          else heap
        .returned { header with mmapLength := UInt32.ofNat smap.length, mmapAddr := entries } heap

/-- `multiboot_fill_header`, from the heap that is left when the boot sector has been
released again. -/
def multibootFillHeader (probes : Probes) (smap : Option (List SmapEntry))
    (header : MultibootInfo) (heap : Heap) : Outcome Heap MultibootInfo :=
  fillMmap smap (fillMemUpper probes (fillMemLower probes (fillBootDevice probes header))) heap

/-- `multiboot_memory_map_t`. -/
structure MmapEntry where
  size : UInt32
  addr : UInt64
  len : UInt64
  type : UInt32
deriving DecidableEq, Repr

/-- The entry at an address. -/
def loadEntry (memory : Memory) (address : Nat) : MmapEntry where
  size := memory.load32 address
  addr := memory.load64 (address + 4)
  len := memory.load64 (address + 12)
  type := memory.load32 (address + 20)

/-- `CHECK_FLAG`. -/
def checkFlag (flags bit : UInt32) : Bool := flags &&& (1 <<< bit) != 0

/-- The pointer of the kernel's walk, and the entries it has passed. -/
structure MmapCursor where
  mmap : UInt32
  seen : List MmapEntry

/-- One turn of the walk in the kernel's `main`. -/
def kernelMmapTurn (finish : UInt32) (cursor : MmapCursor) (memory : Memory) :
    Outcome Memory (Turn MmapCursor (List MmapEntry)) :=
  if cursor.mmap < finish then
    let entry := loadEntry memory cursor.mmap.toNat
    .returned (.again ⟨cursor.mmap + (entry.size + 4), cursor.seen ++ [entry]⟩) memory
  else .returned (.leave cursor.seen) memory

/-- The memory map in the kernel's `main`: the entries it prints. -/
def kernelMmap (turns : Nat) (mbi : MultibootInfo) (memory : Memory) :
    Outcome Memory (List MmapEntry) :=
  if checkFlag mbi.flags 6 then
    loop (kernelMmapTurn (mbi.mmapAddr + mbi.mmapLength)) turns ⟨mbi.mmapAddr, []⟩ memory
  else .returned [] memory

/-- A range of memory and what it is. -/
structure MemoryRange where
  addr : Nat
  len : Nat
  type : UInt32
deriving DecidableEq, Repr

/-- The range the BIOS reports in an entry. -/
def smapRange (entry : SmapEntry) : MemoryRange where
  addr := entry.baseH.toNat * 2 ^ 32 + entry.baseL.toNat
  len := entry.lengthH.toNat * 2 ^ 32 + entry.lengthL.toNat
  type := entry.type

/-- The range the kernel reads from an entry. -/
def MmapEntry.range (entry : MmapEntry) : MemoryRange where
  addr := entry.addr.toNat
  len := entry.len.toNat
  type := entry.type

/-- The kernel sees the ranges the BIOS has reported, in order. -/
def KernelSeesSmap (mbi : MultibootInfo) (memory : Memory) (smap : List SmapEntry) : Prop :=
  ∃ turns seen final, kernelMmap turns mbi memory = .returned seen final ∧
    seen.map MmapEntry.range = smap.map smapRange

section Entries

variable {memory : Memory} {address : UInt32} {entry : SmapEntry} {smap : List SmapEntry}

theorem loadEntry_congr {other : Memory} {start : Nat}
    (agree : Memory.AgreeOn start (start + 24) memory other) :
    loadEntry memory start = loadEntry other start := by
  rw [loadEntry, agree.load32 (by omega) (by omega), agree.load64 (by omega) (by omega),
    agree.load64 (by omega) (by omega), agree.load32 (by omega) (by omega), loadEntry]

/-- What the kernel reads where an entry was filled. -/
theorem loadEntry_storeEntry :
    loadEntry (storeEntry address entry memory) address.toNat =
      ⟨20, entry.baseL.toUInt64, entry.lengthL.toUInt64, entry.type⟩ := by
  rw [loadEntry, storeEntry, Memory.load32_store32_disjoint (by omega),
    Memory.load32_store64_disjoint (by omega), Memory.load32_store64_disjoint (by omega),
    Memory.load32_store32, Memory.load64_store32_disjoint (by omega),
    Memory.load64_store64_disjoint (by omega), Memory.load64_store64,
    Memory.load64_store32_disjoint (by omega), Memory.load64_store64, Memory.load32_store32]

theorem storeEntry_outside {other : Nat}
    (outside : other < address.toNat ∨ address.toNat + 24 ≤ other) :
    storeEntry address entry memory other = memory other := by
  rw [storeEntry, Memory.store32_outside (by omega), Memory.store64_outside (by omega),
    Memory.store64_outside (by omega), Memory.store32_outside (by omega)]

/-- Filling the array leaves what is outside it alone. -/
theorem storeEntries_outside {other : Nat}
    (outside : other < address.toNat ∨ address.toNat + 24 * smap.length ≤ other)
    (fits : address.toNat + 24 * smap.length < 2 ^ 32) :
    storeEntries address smap memory other = memory other := by
  induction smap generalizing address memory with
  | nil => rfl
  | cons entry smap inductionHypothesis =>
      have width : sizeofMemoryMap.toNat = 24 := rfl
      rw [List.length_cons] at outside fits
      have next : (address + sizeofMemoryMap).toNat = address.toNat + 24 :=
        toNat_add_of_lt (by omega)
      rw [storeEntries, inductionHypothesis (by omega) (by omega),
        storeEntry_outside (by omega)]

/-- The first entry of the array. -/
theorem loadEntry_storeEntries (fits : address.toNat + 24 * (smap.length + 1) < 2 ^ 32) :
    loadEntry (storeEntries address (entry :: smap) memory) address.toNat =
      ⟨20, entry.baseL.toUInt64, entry.lengthL.toUInt64, entry.type⟩ := by
  have width : sizeofMemoryMap.toNat = 24 := rfl
  have next : (address + sizeofMemoryMap).toNat = address.toNat + 24 :=
    toNat_add_of_lt (by omega)
  rw [← loadEntry_storeEntry, storeEntries]
  apply loadEntry_congr
  intro other above below
  exact storeEntries_outside (by omega) (by omega)

end Entries

section Handover

variable {area : HeapArea} {heap final : Heap} {header mbi : MultibootInfo} {probes : Probes}
  {smap : List SmapEntry} {entry : SmapEntry} {memory : Memory}

/-- The probes leave the flags alone. -/
theorem flags_probed (probes : Probes) (header : MultibootInfo) :
    (fillMemUpper probes (fillMemLower probes (fillBootDevice probes header))).flags =
      header.flags := by
  have lower : (fillMemLower probes (fillBootDevice probes header)).flags = header.flags := by
    rw [fillMemLower]
    split <;> rfl
  rw [fillMemUpper]
  cases probes.upperMemory with
  | none => exact lower
  | some upper => exact lower

/-- The size asked for the array. -/
theorem toNat_mapSize (few : smap.length ≤ 20) :
    (UInt32.ofNat smap.length * sizeofMemoryMap).toNat = 24 * smap.length := by
  have width : sizeofMemoryMap.toNat = 24 := rfl
  rw [UInt32.toNat_mul, UInt32.toNat_ofNat', width]
  omega

/-- With the array granted, the header points at it, and counts its entries. -/
theorem fillMmap_granted (invariant : HeapInvariant area heap) (few : smap.length ≤ 20)
    (filled : fillMmap (some smap) header heap = .returned mbi final) (granted : mbi.mmapAddr ≠ 0) :
    mbi.flags = header.flags ∧ mbi.mmapLength.toNat = smap.length ∧
      mbi.mmapAddr.toNat + 24 * smap.length < 2 ^ 32 ∧
      ∃ memory, final.memory = storeEntries mbi.mmapAddr smap memory := by
  obtain ⟨blocks, represents, coalesced⟩ := invariant
  have count : (UInt32.ofNat smap.length).toNat = smap.length := by
    rw [UInt32.toNat_ofNat']
    omega
  have wanted := toNat_mapSize few
  rcases malloc_keeps represents coalesced (UInt32.ofNat smap.length * sizeofMemoryMap) with
    refused | ⟨ptr, after, found, block, returned, represents', _, member, payload, enough, _⟩
  · rw [fillMmap, refused] at filled
    cases filled
    exact absurd rfl granted
  · rw [fillMmap, returned] at filled
    cases filled
    have inside := (represents'.layout.within member).2
    have fits := area.fits
    simp only [finish_headerWidth] at inside
    refine ⟨rfl, count, ?_, after.memory, ?_⟩
    · simp only
      omega
    · rw [if_pos granted]

/-- Without the flag, the kernel sees no memory map. -/
theorem kernelSees_unflagged (unflagged : checkFlag mbi.flags 6 = false) :
    KernelSeesSmap mbi memory smap ↔ smap = [] := by
  constructor
  · rintro ⟨turns, seen, last, ran, same⟩
    rw [kernelMmap, unflagged] at ran
    cases ran
    exact List.map_eq_nil_iff.mp same.symm
  · rintro rfl
    refine ⟨0, [], memory, ?_, rfl⟩
    rw [kernelMmap, unflagged]
    rfl

/-- The walk over an empty array. -/
theorem kernelMmap_empty (flagged : checkFlag mbi.flags 6 = true) (empty : mbi.mmapLength = 0) :
    kernelMmap 1 mbi memory = .returned [] memory := by
  rw [kernelMmap, if_pos flagged, empty, UInt32.add_zero]
  apply loop_leave
  rw [kernelMmapTurn, if_neg (UInt32.lt_irrefl _)]

/-- The walk over up to 24 entries ends behind the first one: their number is taken
for a number of bytes. -/
theorem kernelMmap_first (flagged : checkFlag mbi.flags 6 = true)
    (positive : 0 < mbi.mmapLength.toNat) (few : mbi.mmapLength.toNat ≤ 24)
    (fits : mbi.mmapAddr.toNat + 24 < 2 ^ 32)
    (size : (loadEntry memory mbi.mmapAddr.toNat).size = 20) :
    kernelMmap 2 mbi memory = .returned [loadEntry memory mbi.mmapAddr.toNat] memory := by
  have stride : ((20 : UInt32) + 4).toNat = 24 := rfl
  have finish : (mbi.mmapAddr + mbi.mmapLength).toNat =
      mbi.mmapAddr.toNat + mbi.mmapLength.toNat := toNat_add_of_lt (by omega)
  have next : (mbi.mmapAddr + (20 + 4)).toNat = mbi.mmapAddr.toNat + 24 :=
    toNat_add_of_lt (by omega)
  have enters : mbi.mmapAddr < mbi.mmapAddr + mbi.mmapLength := by
    rw [UInt32.lt_iff_toNat_lt, finish]
    omega
  have ends : ¬ mbi.mmapAddr + (20 + 4) < mbi.mmapAddr + mbi.mmapLength := by
    rw [UInt32.lt_iff_toNat_lt, finish, next]
    omega
  have first : kernelMmapTurn (mbi.mmapAddr + mbi.mmapLength) ⟨mbi.mmapAddr, []⟩ memory =
      .returned (.again ⟨mbi.mmapAddr + (20 + 4), [loadEntry memory mbi.mmapAddr.toNat]⟩)
        memory := by
    simp only [kernelMmapTurn, if_pos enters, size]
    rfl
  rw [kernelMmap, if_pos flagged, loop_again first]
  apply loop_leave
  rw [kernelMmapTurn, if_neg ends]

/-- What the kernel sees is what one of its walks gives. -/
theorem kernelSees_of_walk {turns : Nat} {seen : List MmapEntry} {last : Memory}
    (walk : kernelMmap turns mbi memory = .returned seen last) :
    KernelSeesSmap mbi memory smap ↔ seen.map MmapEntry.range = smap.map smapRange := by
  constructor
  · rintro ⟨turns', seen', last', walk', same⟩
    rw [kernelMmap] at walk walk'
    split at walk
    · rename_i flagged
      rw [if_pos flagged] at walk'
      rw [(loop_unique walk walk').1, same]
    · rename_i unflagged
      rw [if_neg unflagged] at walk'
      cases walk
      cases walk'
      exact same
  · exact fun same => ⟨turns, seen, last, walk, same⟩

/-- Only the lower halves arrive. -/
theorem range_stored (entry : SmapEntry) :
    MmapEntry.range ⟨20, entry.baseL.toUInt64, entry.lengthL.toUInt64, entry.type⟩ =
      smapRange entry ↔ entry.baseH = 0 ∧ entry.lengthH = 0 := by
  simp only [MmapEntry.range, smapRange, MemoryRange.mk.injEq, and_true,
    UInt32.toNat_toUInt64, ← UInt32.toNat_inj, UInt32.toNat_zero]
  omega

/-- The kernel sees the memory map the BIOS has reported exactly when the map is
empty, or when it is a single entry below 4 GB and something else has set the flag. -/
theorem kernelSeesSmap_iff {bios : E820Bios} {turns calls : Nat}
    (detected : e820DetectMem turns bios 20 = .returned (some smap) calls)
    (invariant : HeapInvariant area heap)
    (filled : multibootFillHeader probes (some smap) header heap = .returned mbi final)
    (granted : mbi.mmapAddr ≠ 0) :
    KernelSeesSmap mbi final.memory smap ↔
      smap = [] ∨ (checkFlag header.flags 6 = true ∧
        ∃ entry, smap = [entry] ∧ entry.baseH = 0 ∧ entry.lengthH = 0) := by
  have few : smap.length ≤ 20 := e820DetectMem_fits (by decide) detected
  obtain ⟨flags, length, fits, memory, stored⟩ := fillMmap_granted invariant few filled granted
  rw [flags_probed] at flags
  cases flag : checkFlag header.flags 6 with
  | false =>
      rw [kernelSees_unflagged (by rw [flags, flag])]
      simp
  | true =>
      have flagged : checkFlag mbi.flags 6 = true := by rw [flags, flag]
      cases smap with
      | nil =>
          have empty : mbi.mmapLength = 0 := UInt32.toNat_inj.mp length
          rw [kernelSees_of_walk (kernelMmap_empty flagged empty)]
          simp
      | cons entry rest =>
          rw [List.length_cons] at length few fits
          have here : loadEntry final.memory mbi.mmapAddr.toNat =
              ⟨20, entry.baseL.toUInt64, entry.lengthL.toUInt64, entry.type⟩ := by
            rw [stored]
            exact loadEntry_storeEntries fits
          have walk := kernelMmap_first flagged (by omega) (by omega) (by omega)
            (congrArg MmapEntry.size here)
          rw [kernelSees_of_walk walk, here, List.map_cons, List.map_cons, List.map_nil,
            List.cons.injEq, range_stored, eq_comm (a := []), List.map_eq_nil_iff]
          constructor
          · rintro ⟨low, rfl⟩
            exact Or.inr ⟨rfl, entry, rfl, low⟩
          · rintro (impossible | ⟨_, other, same, low⟩)
            · cases impossible
            · cases same
              exact ⟨low, rfl⟩

/-- A heap that has just been initialised grants the array. -/
theorem fillHeader_fresh (area : HeapArea) (memory : Memory) (probes : Probes)
    (header : MultibootInfo) (few : smap.length ≤ 20) :
    ∃ mbi final, multibootFillHeader probes (some smap) header (heapInit area.start memory) =
      .returned mbi final ∧ mbi.mmapAddr ≠ 0 := by
  have represents : Represents area (heapInit area.start memory)
      ([] ++ ⟨area.start.toNat, 4084, false⟩ :: []) := heapInit_represents area memory
  have fit : fits (UInt32.ofNat smap.length * sizeofMemoryMap).toNat
      ⟨area.start.toNat, 4084, false⟩ = true := by
    rw [fits_iff, toNat_mapSize few]
    exact ⟨rfl, by simp only; omega⟩
  obtain ⟨ptr, final, payload, returned, _⟩ :=
    malloc_found represents (fun block member => nomatch member) fit
  have granted : ptr ≠ 0 := toNat_pos_iff.mp (by omega)
  rw [multibootFillHeader, fillMmap, returned]
  exact ⟨_, _, rfl, granted⟩

end Handover

section SingleRange

/-- A machine with a single range of memory. -/
def singleRange : SmapEntry where
  baseL := 0x100000
  baseH := 0
  lengthL := 0x1000000
  lengthH := 0
  type := 1
  acpi := 1

/-- A BIOS that reports that range. -/
def singleRangeBios : E820Bios := fun _ _ =>
  { signature := smapSignature, continuationVal := 0, bytes := 20, entry := singleRange }

/-- Probes that have found nothing. -/
def bareProbes : Probes where
  bootDriveNb := 0x80
  mbr := none
  lowerMemory := -1
  upperMemory := none

/-- `multiboot_header` as the program starts with it. -/
def clearHeader : MultibootInfo := ⟨0, 0, 0, 0, 0, 0, 0, 0, 0⟩

theorem singleRange_detected :
    e820DetectMem 1 singleRangeBios 20 = .returned (some [singleRange]) 1 := rfl

/-- Nothing sets the flag, so that a single range is lost. -/
theorem kernel_misses_singleRange :
    ∃ mbi final, e820DetectMem 1 singleRangeBios 20 = .returned (some [singleRange]) 1 ∧
      multibootFillHeader bareProbes (some [singleRange]) clearHeader
        (heapInit lowHeap.start fun _ => 0) = .returned mbi final ∧
      mbi.mmapAddr ≠ 0 ∧ ¬ KernelSeesSmap mbi final.memory [singleRange] := by
  have few : [singleRange].length ≤ 20 := by decide
  obtain ⟨mbi, final, filled, granted⟩ :=
    fillHeader_fresh lowHeap (fun _ => 0) bareProbes clearHeader few
  obtain ⟨flags, _⟩ := fillMmap_granted (Run.init fun _ => 0).invariant few filled granted
  have unflagged : checkFlag mbi.flags 6 = false := by
    rw [flags, flags_probed]
    decide
  refine ⟨mbi, final, singleRange_detected, filled, granted, ?_⟩
  rw [kernelSees_unflagged unflagged]
  exact List.cons_ne_nil _ _

theorem kernelSeesSmap_iff_singleRange :
    ∃ mbi final, multibootFillHeader bareProbes (some [singleRange]) clearHeader
        (heapInit lowHeap.start fun _ => 0) = .returned mbi final ∧
      (KernelSeesSmap mbi final.memory [singleRange] ↔
        [singleRange] = [] ∨ (checkFlag clearHeader.flags 6 = true ∧
          ∃ entry, [singleRange] = [entry] ∧ entry.baseH = 0 ∧ entry.lengthH = 0)) := by
  obtain ⟨mbi, final, filled, granted⟩ :=
    fillHeader_fresh lowHeap (fun _ => 0) bareProbes clearHeader
      (show [singleRange].length ≤ 20 by decide)
  exact ⟨mbi, final, filled, kernelSeesSmap_iff singleRange_detected
    (Run.init fun _ => 0).invariant filled granted⟩

end SingleRange

end Bootloader.Common
