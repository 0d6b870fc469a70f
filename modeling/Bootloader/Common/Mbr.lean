import Bootloader.Common.HdOpenHeap

/-!
# The master boot record

`mbr_get` looks a device and its driver up by name and number, opens the device, and
reads its first sector into a block of the heap, which `mbr_destroy` gives back.
-/

namespace Bootloader.Common

open Bootloader.Std Bootloader.Libc Bootloader.Arch

/-- `dev_lookuptable`: names are compared with `strcmp`. -/
def System.devLookuptable (name : String) (system : System) : Option DevEntry :=
  system.devices.find? fun entry => entry.name == name

/-- The operations of a `block_drv_op_t` that are called; NULL is none. -/
structure BlockDrvOp where
  blockDrvOpen : Option (UInt8 → System → Outcome System ExitStatus)
  blockDrvRead : Option (UInt8 → UInt32 → UInt32 → UInt32 → System → Outcome System Int32)

/-- `hd_read` on the whole system. -/
def hdReadSystem (turns : Nat) (minor : UInt8) (lbaStart count buffer : UInt32)
    (system : System) : Outcome System Int32 :=
  (hdRead turns minor lbaStart count buffer system.machine).within system.withMachine

/-- `block_dev_drivers`, with the turns that a read may take. -/
def blockDevDrivers (turns : Nat) : List (UInt8 × BlockDrvOp) :=
  [(hardDiskDriver, ⟨some hdOpen, some (hdReadSystem turns)⟩), (floppyDiskDriver, ⟨none, none⟩)]

/-- `block_dev_driver_lookuptable`. -/
def blockDevDriverLookuptable (turns : Nat) (major : UInt8) : Option BlockDrvOp :=
  ((blockDevDrivers turns).find? fun driver => major == driver.1).map Prod.snd

/-- A call through a pointer of a driver; one through NULL does not come back. -/
def callOperation {Value : Type} (operation : Option (System → Outcome System Value))
    (system : System) : Outcome System Value :=
  match operation with
  | some run => run system
  | none => .diverged system

/-- `sizeof(MBR_format_t)`. -/
def sizeofMbr : UInt32 := 512

/-- Where the signature is in an `MBR_format_t`. -/
def signatureOffset : Nat := 510

/-- `free` on the whole system. -/
def System.free (ptr : UInt32) (system : System) : Outcome System Unit :=
  (Libc.free ptr system.heap).within system.withHeap

/-- The end of `mbr_get`, with the block and the device opened. -/
def mbrRead (op : BlockDrvOp) (minor : UInt8) (mbr : UInt32) (system : System) :
    Outcome System UInt32 :=
  (callOperation (op.blockDrvRead.map fun read => read minor 0 1 mbr) system).andThen
    fun read system =>
      if read < 0 ∨ read < 512 then (system.free mbr).andThen fun _ system => .returned 0 system
      else
        .returned mbr (system.print "bootsector signature = %#04x\r\n"
          [(system.memory.load16 (mbr.toNat + signatureOffset)).toUInt32])

/-- `mbr_get`; it waits for a key between the open and the read, which nothing here
depends on. -/
def mbrGet (turns : Nat) (devname : String) (system : System) : Outcome System UInt32 :=
  match system.devLookuptable devname with
  | none => .returned 0 { system with errno := enodev }
  | some device =>
      match blockDevDriverLookuptable turns device.major with
      | none => .panicked "op != NULL" system
      | some op =>
          ((malloc sizeofMbr system.heap).within system.withHeap).andThen fun mbr system =>
            if mbr = 0 then .panicked "mbr != NULL" system
            else
              (callOperation (op.blockDrvOpen.map fun run => run device.minor) system).andThen
                fun status system =>
                  match status with
                  | .failure =>
                      (System.free mbr { system with errno := enodev }).andThen fun _ system =>
                        .returned 0 system
                  | .success => mbrRead op device.minor mbr system

/-- `mbr_destroy`. -/
def mbrDestroy (mbr : UInt32) (system : System) : Outcome System Unit := system.free mbr

section Lookups

variable {system : System} {devname : String}

/-- A lookup sees nothing of an entry but its key. -/
theorem devLookuptable_key (devname : String)
    (keys : system.devices.map DevEntry.key = linkedDevices.map DevEntry.key) :
    (system.devLookuptable devname).map DevEntry.key =
      (linkedDevices.find? fun entry => entry.name == devname).map DevEntry.key := by
  have names : (fun key : String × UInt8 × UInt8 => key.1 == devname) ∘ DevEntry.key =
      fun entry : DevEntry => entry.name == devname := rfl
  have mapped (devices : List DevEntry) :
      (devices.map DevEntry.key).find? (fun key => key.1 == devname) =
        (devices.find? fun entry => entry.name == devname).map DevEntry.key := by
    rw [List.find?_map, names]
  rw [System.devLookuptable, ← mapped, keys, mapped]

/-- The hard disk is found under its name. -/
theorem devLookuptable_hda
    (keys : system.devices.map DevEntry.key = linkedDevices.map DevEntry.key) :
    ∃ entry, system.devLookuptable "hda" = some entry ∧ entry.major = hardDiskDriver ∧
      entry.minor = 0 := by
  have found : (system.devLookuptable "hda").map DevEntry.key = some ("hda", hardDiskDriver, 0) :=
    (devLookuptable_key "hda" keys).trans (by decide)
  obtain ⟨entry, there, key⟩ := Option.map_eq_some_iff.mp found
  simp only [DevEntry.key, Prod.mk.injEq] at key
  exact ⟨entry, there, key.2.1, key.2.2⟩

/-- Other names than the two of the table are not found. -/
theorem devLookuptable_unknown
    (keys : system.devices.map DevEntry.key = linkedDevices.map DevEntry.key)
    (hda : devname ≠ "hda") (fda : devname ≠ "fda") : system.devLookuptable devname = none := by
  have absent : (linkedDevices.find? fun entry => entry.name == devname) = none := by
    simp [linkedDevices, hda.symm, fda.symm]
  have missing := devLookuptable_key devname keys
  rw [absent] at missing
  exact Option.map_eq_none_iff.mp missing

end Lookups

end Bootloader.Common
