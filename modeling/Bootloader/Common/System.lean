import Bootloader.Common.HdDrv
import Bootloader.Libc.Alloc

/-!
# The whole machine

The drivers and the allocator work on one memory. `System` has it together with the
device table, whose entries point to geometries in that memory, the answers the BIOS
will give, and what has been printed. A disk routine sees a system as a `Machine`, the
allocator sees it as a `Heap`.
-/

namespace Bootloader.Common

open Bootloader.Std Bootloader.Libc Bootloader.Arch

/-- A `dev_t`: `info` is NULL or points to the geometry of the device. -/
structure DevEntry where
  name : String
  major : UInt8
  minor : UInt8
  status : DevStatus
  info : UInt32
deriving DecidableEq, Repr

namespace DevEntry

/-- Whether an entry is that of a device. -/
def names (major minor : UInt8) (entry : DevEntry) : Bool :=
  entry.major == major && entry.minor == minor

/-- An entry with what its pointer points to. -/
def resolve (memory : Memory) (entry : DevEntry) : Dev where
  name := entry.name
  major := entry.major
  minor := entry.minor
  status := entry.status
  info := if entry.info = 0 then none else some (loadGeometry memory entry.info.toNat)

/-- What names an entry; nothing ever changes it. -/
def key (entry : DevEntry) : String × UInt8 × UInt8 :=
  (entry.name, entry.major, entry.minor)

/-- Change the first entry of a device, where the search of every setter stops. -/
def change (major minor : UInt8) (edit : DevEntry → DevEntry) : List DevEntry → List DevEntry
  | [] => []
  | entry :: rest =>
      if entry.names major minor then edit entry :: rest
      else entry :: change major minor edit rest

end DevEntry

/-- `list_dev` as it is linked into the image. -/
def linkedDevices : List DevEntry :=
  [⟨"hda", hardDiskDriver, 0, .unknown, 0⟩, ⟨"fda", floppyDiskDriver, 0, .unknown, 0⟩]

/-- `ENODEV`. -/
def enodev : UInt8 := 2

/-- The state that the allocator and the drivers share. -/
structure System where
  memory : Memory
  heapList : UInt32
  devices : List DevEntry
  replies : Nat → Bios
  events : List DiskEvent
  console : List (String × List UInt32)
  errno : UInt8

namespace System

/-- What the allocator sees. -/
def heap (system : System) : Heap := ⟨system.memory, system.heapList⟩

/-- The system after the allocator has run. -/
def withHeap (system : System) (heap : Heap) : System :=
  { system with memory := heap.memory, heapList := heap.heapList }

/-- What a disk routine sees: the geometries are those in memory at its start. -/
def machine (system : System) : Machine where
  memory := system.memory
  devices := system.devices.map (DevEntry.resolve system.memory)
  replies := system.replies
  events := system.events

/-- The system after a disk routine has run; none of them writes to the table. -/
def withMachine (system : System) (machine : Machine) : System :=
  { system with memory := machine.memory, replies := machine.replies, events := machine.events }

/-- `printf` of a format and its arguments. -/
def print (system : System) (format : String) (arguments : List UInt32) : System :=
  { system with console := system.console ++ [(format, arguments)] }

/-- The first entry of a device. -/
def device (major minor : UInt8) (system : System) : Option DevEntry :=
  system.devices.find? (DevEntry.names major minor)

/-- `dev_getstatus`. -/
def devGetstatus (major minor : UInt8) (system : System) : DevStatus :=
  match system.device major minor with
  | some entry => entry.status
  | none => .notFound

/-- `dev_setstatus`; no caller looks at what it returns. -/
def devSetstatus (major minor : UInt8) (status : DevStatus) (system : System) : System :=
  { system with
    devices := DevEntry.change major minor ({ · with status := status }) system.devices }

/-- `dev_getinfo`. -/
def devGetinfo (major minor : UInt8) (system : System) : UInt32 :=
  match system.device major minor with
  | some entry => entry.info
  | none => 0

/-- `dev_setinfo`; no caller looks at what it returns. -/
def devSetinfo (major minor : UInt8) (info : UInt32) (system : System) : System :=
  { system with
    devices := DevEntry.change major minor ({ · with info := info }) system.devices }

end System

section Table

variable {major minor other : UInt8} {edit : DevEntry → DevEntry} {devices : List DevEntry}

/-- A change is seen at the device itself. -/
theorem find?_change (keeps : ∀ entry, (edit entry).names major minor = entry.names major minor) :
    (DevEntry.change major minor edit devices).find? (DevEntry.names major minor) =
      (devices.find? (DevEntry.names major minor)).map edit := by
  induction devices with
  | nil => rfl
  | cons entry rest inductionHypothesis =>
      rw [DevEntry.change]
      cases here : entry.names major minor with
      | true =>
          rw [if_pos rfl, List.find?_cons_of_pos ((keeps entry).trans here),
            List.find?_cons_of_pos here]
          rfl
      | false =>
          have passed : ¬ entry.names major minor = true := Bool.eq_false_iff.mp here
          rw [if_neg Bool.false_ne_true, List.find?_cons_of_neg passed,
            List.find?_cons_of_neg passed, inductionHypothesis]

/-- A change is not seen at a device of another number. -/
theorem find?_change_other (different : other ≠ minor)
    (keeps : ∀ entry, (edit entry).names major other = entry.names major other) :
    (DevEntry.change major minor edit devices).find? (DevEntry.names major other) =
      devices.find? (DevEntry.names major other) := by
  induction devices with
  | nil => rfl
  | cons entry rest inductionHypothesis =>
      rw [DevEntry.change]
      cases here : entry.names major minor with
      | true =>
          have elsewhere : ¬ entry.names major other = true := by
            simp only [DevEntry.names, Bool.and_eq_true, beq_iff_eq] at here ⊢
            rintro ⟨_, same⟩
            exact different (same.symm.trans here.2)
          rw [if_pos rfl, List.find?_cons_of_neg elsewhere,
            List.find?_cons_of_neg (by rwa [keeps entry])]
      | false =>
          rw [if_neg Bool.false_ne_true, List.find?_cons, List.find?_cons, inductionHypothesis]

/-- A change names every entry as it was. -/
theorem change_keys (keeps : ∀ entry, (edit entry).key = entry.key) :
    (DevEntry.change major minor edit devices).map DevEntry.key = devices.map DevEntry.key := by
  induction devices with
  | nil => rfl
  | cons entry rest inductionHypothesis =>
      rw [DevEntry.change]
      split
      · rw [List.map_cons, List.map_cons, keeps]
      · rw [List.map_cons, List.map_cons, inductionHypothesis]

end Table

namespace System

variable {system : System} {major minor other : UInt8}

/-- The getters read nothing but the table. -/
theorem devGetinfo_congr {later : System} (same : later.devices = system.devices) :
    later.devGetinfo major minor = system.devGetinfo major minor := by
  rw [devGetinfo, device, same, devGetinfo, device]

/-- A change of an entry, seen at the device itself and at another one. -/
theorem device_devSetstatus (status : DevStatus) :
    (system.devSetstatus major minor status).device major minor =
      (system.device major minor).map ({ · with status := status }) :=
  find?_change fun _ => rfl

theorem device_devSetstatus_other (status : DevStatus) (different : other ≠ minor) :
    (system.devSetstatus major minor status).device major other = system.device major other :=
  find?_change_other different fun _ => rfl

theorem device_devSetinfo (info : UInt32) :
    (system.devSetinfo major minor info).device major minor =
      (system.device major minor).map ({ · with info := info }) :=
  find?_change fun _ => rfl

theorem device_devSetinfo_other (info : UInt32) (different : other ≠ minor) :
    (system.devSetinfo major minor info).device major other = system.device major other :=
  find?_change_other different fun _ => rfl

theorem keys_devSetstatus (status : DevStatus) :
    (system.devSetstatus major minor status).devices.map DevEntry.key =
      system.devices.map DevEntry.key :=
  change_keys (by intro entry; rfl)

theorem keys_devSetinfo (info : UInt32) :
    (system.devSetinfo major minor info).devices.map DevEntry.key =
      system.devices.map DevEntry.key :=
  change_keys (by intro entry; rfl)

/-- Setting the status of a device leaves every geometry pointer alone. -/
theorem devGetinfo_devSetstatus (status : DevStatus) :
    (system.devSetstatus major minor status).devGetinfo major other =
      system.devGetinfo major other := by
  by_cases same : other = minor
  · rw [same, devGetinfo, device_devSetstatus, devGetinfo]
    cases system.device major minor <;> rfl
  · rw [devGetinfo, device_devSetstatus_other status same, devGetinfo]

/-- A geometry pointer is found again once it has been set, if there is the device. -/
theorem devGetinfo_devSetinfo (info : UInt32) (known : system.device major minor ≠ none) :
    (system.devSetinfo major minor info).devGetinfo major minor = info := by
  obtain ⟨entry, found⟩ := Option.ne_none_iff_exists'.mp known
  rw [devGetinfo, device_devSetinfo, found]
  rfl

theorem devGetinfo_devSetinfo_other (info : UInt32) (different : other ≠ minor) :
    (system.devSetinfo major minor info).devGetinfo major other =
      system.devGetinfo major other := by
  rw [devGetinfo, device_devSetinfo_other info different, devGetinfo]

/-- The table a disk routine sees has a geometry where the pointer is not NULL. -/
theorem devGetinfo_machine :
    Common.devGetinfo major minor system.machine.devices =
      if system.devGetinfo major minor = 0 then none
      else some (loadGeometry system.memory (system.devGetinfo major minor).toNat) := by
  have names : (fun device : Dev => device.major == major && device.minor == minor) ∘
      DevEntry.resolve system.memory = DevEntry.names major minor := rfl
  rw [Common.devGetinfo, machine, List.find?_map, names, devGetinfo, device]
  cases system.devices.find? (DevEntry.names major minor) <;> rfl

end System

end Bootloader.Common
