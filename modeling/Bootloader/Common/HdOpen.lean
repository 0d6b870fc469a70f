import Bootloader.Common.System
import Bootloader.Std.Trace

/-!
# Opening the hard disk

`hd_open` resets a drive that is not initialized yet and asks for its geometry when
the table has none. The status and the geometry are two fields of an entry: a drive
whose geometry request is refused stays initialized without a geometry, and is
reported as opened all the same.
-/

namespace Bootloader.Common

open Bootloader.Std Bootloader.Libc Bootloader.Arch

/-- `sizeof(chs_disk_geometry_t)`. -/
def sizeofGeometry : UInt32 := 8

/-- `chs_disk_geometry_print`. -/
def chsDiskGeometryPrint (geometry : UInt32) (system : System) : Outcome System Unit :=
  if geometry = 0 then .panicked "geometry" system
  else
    let desc := loadGeometry system.memory geometry.toNat
    .returned () (system.print "\tNLBA = %u | (NC, NH, NS) = (%u, %u, %u)\r\n"
      [desc.nlba, desc.nc.toUInt32, desc.nh.toUInt32, desc.ns.toUInt32])

/-- The end of `hd_open`, once a block has been allocated for the geometry. -/
def hdDescribe (minor : UInt8) (geometry : UInt32) (system : System) :
    Outcome System ExitStatus :=
  ((diskGeometry (biosHdDriveBaseNb + minor) geometry system.machine).within
      system.withMachine).andThen fun result system =>
    match result with
    | .error line =>
        let system := system.print line []
        ((free geometry system.heap).within system.withHeap).andThen fun _ system =>
          .returned .success system
    | .ok _ =>
        (chsDiskGeometryPrint geometry system).andThen fun _ system =>
          .returned .success (system.devSetinfo hardDiskDriver minor geometry)

/-- The part of `hd_open` behind the reset. -/
def hdGeometry (minor : UInt8) (system : System) : Outcome System ExitStatus :=
  if system.devGetinfo hardDiskDriver minor = 0 then
    ((malloc sizeofGeometry system.heap).within system.withHeap).andThen fun geometry system =>
      if geometry = 0 then .panicked "geometry != NULL" system
      else hdDescribe minor geometry system
  else .returned .success system

/-- `hd_open`. -/
def hdOpen (minor : UInt8) (system : System) : Outcome System ExitStatus :=
  match system.devGetstatus hardDiskDriver minor with
  | .notFound => .returned .failure { system with errno := enodev }
  | .unknown =>
      match diskReset (biosHdDriveBaseNb + minor) system.machine with
      | (.failure, machine) =>
          .returned .failure { system.withMachine machine with errno := enodev }
      | (.success, machine) =>
          hdGeometry minor
            ((system.withMachine machine).devSetstatus hardDiskDriver minor .initialized)
  | _ => hdGeometry minor system

/-- The state in which a call of `hd_open` has come past the reset. -/
def hdReady (minor : UInt8) (system : System) : Option System :=
  match system.devGetstatus hardDiskDriver minor with
  | .notFound => none
  | .unknown =>
      match diskReset (biosHdDriveBaseNb + minor) system.machine with
      | (.failure, _) => none
      | (.success, machine) =>
          some ((system.withMachine machine).devSetstatus hardDiskDriver minor .initialized)
  | _ => some system

/-- What the BIOS answers when it is asked for the geometry of a drive. -/
def geometryReply (minor : UInt8) (system : System) : Regs16 × Machine :=
  system.machine.int13 (driveRequest 0x08 (biosHdDriveBaseNb + minor))

/-- A call of `hd_open` gets as far as the geometry request, and the BIOS refuses it. -/
def GeometryRefused (minor : UInt8) (system : System) : Prop :=
  ∃ ready geometry heap, hdReady minor system = some ready ∧
    ready.devGetinfo hardDiskDriver minor = 0 ∧
    malloc sizeofGeometry ready.heap = .returned geometry heap ∧
    (geometryReply minor (ready.withHeap heap)).1.refused = true

/-- The system once the BIOS has described the drive. -/
def described (minor : UInt8) (geometry : UInt32) (system : System) : System :=
  let (regs, machine) := geometryReply minor system
  let desc := loadGeometry (machine.fillGeometry geometry regs).memory geometry.toNat
  ((system.withMachine (machine.fillGeometry geometry regs)).print
      "\tNLBA = %u | (NC, NH, NS) = (%u, %u, %u)\r\n"
      [desc.nlba, desc.nc.toUInt32, desc.nh.toUInt32, desc.ns.toUInt32]).devSetinfo
    hardDiskDriver minor geometry

/-- The system once the BIOS has refused to describe the drive. -/
def undescribed (minor : UInt8) (system : System) : System :=
  (system.withMachine (geometryReply minor system).2).print
    "disk geometry error : invalid command\r\n" []

section Calls

variable {minor other : UInt8} {geometry : UInt32} {system ready after : System}
  {status : ExitStatus}

theorem hdOpen_ready (comes : hdReady minor system = some ready) :
    hdOpen minor system = hdGeometry minor ready := by
  rw [hdReady] at comes
  rw [hdOpen]
  split at comes
  · cases comes
  · split at comes
    · cases comes
    · cases comes
      rfl
  · cases comes
    rfl

/-- Without the device, or without its reset, the table stays as it is. -/
theorem hdOpen_unready (stops : hdReady minor system = none) :
    ∃ after, hdOpen minor system = .returned .failure after ∧ after.devices = system.devices ∧
      after.errno = enodev := by
  rw [hdReady] at stops
  rw [hdOpen]
  split at stops
  · exact ⟨_, rfl, rfl, rfl⟩
  · split at stops
    · exact ⟨_, rfl, rfl, rfl⟩
    · cases stops
  · cases stops

/-- A call that comes past the reset is about a device of the table, and has not
touched a geometry pointer. -/
theorem hdReady_device (comes : hdReady minor system = some ready) :
    ready.device hardDiskDriver minor ≠ none ∧
      ∀ other, ready.devGetinfo hardDiskDriver other = system.devGetinfo hardDiskDriver other := by
  have known (found : system.devGetstatus hardDiskDriver minor ≠ .notFound) :
      system.device hardDiskDriver minor ≠ none := by
    intro absent
    rw [System.devGetstatus, absent] at found
    exact found rfl
  rw [hdReady] at comes
  split at comes
  · cases comes
  · rename_i unknown
    have there := known (by rw [unknown]; decide)
    split at comes
    · cases comes
    · cases comes
      refine ⟨?_, fun other => System.devGetinfo_devSetstatus _⟩
      rw [System.device_devSetstatus]
      exact mt Option.map_eq_none_iff.mp there
  · rename_i found _
    cases comes
    exact ⟨known found, fun other => rfl⟩

theorem hdGeometry_known (has : ready.devGetinfo hardDiskDriver minor ≠ 0) :
    hdGeometry minor ready = .returned .success ready :=
  if_neg has

/-- A call that has to ask for the geometry allocates a block for it first. -/
theorem hdGeometry_returned (lacks : ready.devGetinfo hardDiskDriver minor = 0)
    (returned : hdGeometry minor ready = .returned status after) :
    ∃ geometry heap, malloc sizeofGeometry ready.heap = .returned geometry heap ∧ geometry ≠ 0 ∧
      hdDescribe minor geometry (ready.withHeap heap) = .returned status after := by
  rw [hdGeometry, if_pos lacks] at returned
  obtain ⟨geometry, middle, allocated, rest⟩ := Outcome.andThen_eq_returned returned
  obtain ⟨heap, ran, rfl⟩ := Outcome.within_eq_returned allocated
  by_cases null : geometry = 0
  · rw [if_pos null] at rest
    cases rest
  · rw [if_neg null] at rest
    exact ⟨geometry, heap, ran, null, rest⟩

theorem hdDescribe_accepted (valid : geometry ≠ 0)
    (accepted : (geometryReply minor system).1.refused = false) :
    hdDescribe minor geometry system = .returned .success (described minor geometry system) := by
  rw [geometryReply] at accepted
  rw [hdDescribe, diskGeometry_eq valid, if_neg (Bool.eq_false_iff.mp accepted)]
  simp only [Outcome.returned_within, Outcome.returned_andThen, chsDiskGeometryPrint, if_neg valid]
  rfl

theorem hdDescribe_refused (valid : geometry ≠ 0)
    (refused : (geometryReply minor system).1.refused = true) :
    hdDescribe minor geometry system =
      ((free geometry (undescribed minor system).heap).within
        (undescribed minor system).withHeap).andThen fun _ system =>
          .returned .success system := by
  rw [geometryReply] at refused
  rw [hdDescribe, diskGeometry_eq valid, if_pos refused]
  rfl

/-- What a refused request leaves: the open is reported as a success, and the table is
what it was. -/
theorem hdDescribe_refused_returned (valid : geometry ≠ 0)
    (refused : (geometryReply minor system).1.refused = true)
    (returned : hdDescribe minor geometry system = .returned status after) :
    status = .success ∧ after.devices = system.devices := by
  rw [hdDescribe_refused valid refused] at returned
  obtain ⟨_, middle, freed, last⟩ := Outcome.andThen_eq_returned returned
  cases last
  obtain ⟨heap, ran, rfl⟩ := Outcome.within_eq_returned freed
  exact ⟨rfl, rfl⟩

/-- Once described, a drive has its geometry at the block allocated for it. -/
theorem devGetinfo_described (known : system.device hardDiskDriver minor ≠ none) :
    (described minor geometry system).devGetinfo hardDiskDriver minor = geometry :=
  System.devGetinfo_devSetinfo geometry known

theorem devGetinfo_described_other (different : other ≠ minor) :
    (described minor geometry system).devGetinfo hardDiskDriver other =
      system.devGetinfo hardDiskDriver other :=
  System.devGetinfo_devSetinfo_other geometry different

/-- Whether a call is refused its geometry, seen from where it asks for it. -/
theorem geometryRefused_iff {heap : Heap} (comes : hdReady minor system = some ready)
    (lacks : ready.devGetinfo hardDiskDriver minor = 0)
    (allocated : malloc sizeofGeometry ready.heap = .returned geometry heap) :
    GeometryRefused minor system ↔
      (geometryReply minor (ready.withHeap heap)).1.refused = true := by
  constructor
  · rintro ⟨_, _, _, again, _, allocated', refused⟩
    rw [comes] at again
    cases again
    rw [allocated] at allocated'
    cases allocated'
    exact refused
  · exact fun refused => ⟨ready, geometry, heap, comes, lacks, allocated, refused⟩

/-- A drive whose geometry is known is not asked for it. -/
theorem not_geometryRefused (comes : hdReady minor system = some ready)
    (has : ready.devGetinfo hardDiskDriver minor ≠ 0) : ¬ GeometryRefused minor system := by
  rintro ⟨_, _, _, again, lacks, _⟩
  rw [comes] at again
  cases again
  exact has lacks

/-- The calls of `hd_open` that come back, by what becomes of the geometry pointers. -/
theorem hdOpen_returned (returned : hdOpen minor system = .returned status after) :
    (status = .failure ∧ ¬ GeometryRefused minor system ∧
        ∀ other, after.devGetinfo hardDiskDriver other = system.devGetinfo hardDiskDriver other) ∨
      (status = .success ∧ ¬ GeometryRefused minor system ∧
        after.devGetinfo hardDiskDriver minor ≠ 0 ∧ ∀ other ≠ minor,
          after.devGetinfo hardDiskDriver other = system.devGetinfo hardDiskDriver other) ∨
      (status = .success ∧ GeometryRefused minor system ∧
        after.devGetinfo hardDiskDriver minor = 0 ∧
        ∀ other, after.devGetinfo hardDiskDriver other =
          system.devGetinfo hardDiskDriver other) := by
  cases comes : hdReady minor system with
  | none =>
      obtain ⟨final, ran, same, _⟩ := hdOpen_unready comes
      rw [ran] at returned
      cases returned
      refine Or.inl ⟨rfl, ?_, fun other => System.devGetinfo_congr same⟩
      rintro ⟨ready, _, _, absurd, _⟩
      rw [comes] at absurd
      cases absurd
  | some ready =>
      obtain ⟨known, pointers⟩ := hdReady_device comes
      rw [hdOpen_ready comes] at returned
      by_cases lacks : ready.devGetinfo hardDiskDriver minor = 0
      · obtain ⟨geometry, heap, allocated, valid, rest⟩ := hdGeometry_returned lacks returned
        have asked := geometryRefused_iff comes lacks allocated
        cases refused : (geometryReply minor (ready.withHeap heap)).1.refused with
        | true =>
            obtain ⟨success, same⟩ := hdDescribe_refused_returned valid refused rest
            have kept (other : UInt8) : after.devGetinfo hardDiskDriver other =
                ready.devGetinfo hardDiskDriver other := System.devGetinfo_congr same
            exact Or.inr (Or.inr ⟨success, asked.mpr refused, (kept minor).trans lacks,
              fun other => (kept other).trans (pointers other)⟩)
        | false =>
            rw [hdDescribe_accepted valid refused] at rest
            cases rest
            have set : (described minor geometry (ready.withHeap heap)).devGetinfo
                hardDiskDriver minor = geometry := devGetinfo_described known
            exact Or.inr (Or.inl ⟨rfl, mt asked.mp (Bool.eq_false_iff.mp refused),
              fun zero => valid (set.symm.trans zero),
              fun other different => (devGetinfo_described_other different).trans
                (pointers other)⟩)
      · rw [hdGeometry_known lacks] at returned
        cases returned
        exact Or.inr (Or.inl ⟨rfl, not_geometryRefused comes lacks, lacks,
          fun other _ => pointers other⟩)

end Calls

/-- The geometry of a drive is known, so that a read does not stop at its first
assertion. -/
structure Readable (minor : UInt8) (system : System) : Prop where
  known : system.devGetinfo hardDiskDriver minor ≠ 0
  reads : ∀ turns lba count buffer state,
    hdRead turns minor lba count buffer system.machine ≠ .panicked "dev_info != NULL" state

section Reads

variable {minor : UInt8} {system : System}

/-- No turn of the loop in `hd_read` asserts anything about the geometry. -/
theorem hdReadLoop_asserts {devInfo : ChsDiskGeometry} {buffer : UInt32} (turns : Nat)
    (cursor : HdCursor) (machine state : Machine) :
    loop (hdReadTurn minor devInfo buffer) turns cursor machine ≠
      .panicked "dev_info != NULL" state := by
  let Post : Outcome Machine Int32 → Prop := fun outcome =>
    outcome ≠ .panicked "dev_info != NULL" state
  have turn : ∀ cursor machine, True →
      Establishes (fun _ _ => True) Post (hdReadTurn minor devInfo buffer cursor machine) := by
    intro cursor machine _
    by_cases left : 0 < cursor.count
    · by_cases valid : buffer = 0
      · simp only [hdReadTurn, gt_iff_lt, if_pos left, memcpy, if_pos valid,
          Outcome.panicked_within, Outcome.panicked_andThen, Establishes, Post]
        simp
      · rw [hdReadTurn_again left valid]
        trivial
    · rw [hdReadTurn_leave (HdCursor.done left)]
      simp [Establishes, Post]
  exact loop_invariant turn (fun _ _ _ => by simp [Post]) turns trivial

theorem readable_of_known (known : system.devGetinfo hardDiskDriver minor ≠ 0) :
    Readable minor system where
  known := known
  reads turns lba count buffer state := by
    rw [hdRead, System.devGetinfo_machine, if_neg known]
    simp only
    split
    · simp
    · split
      · simp
      · split
        · simp
        · exact hdReadLoop_asserts turns _ _ state

/-- Without a geometry every read stops there. -/
theorem hdRead_unknown (unknown : system.devGetinfo hardDiskDriver minor = 0) (turns : Nat)
    (lba count buffer : UInt32) :
    hdRead turns minor lba count buffer system.machine =
      .panicked "dev_info != NULL" system.machine := by
  rw [hdRead, System.devGetinfo_machine, if_pos unknown]

end Reads

/-- A call of `hd_open` and what it returned. -/
structure OpenCall where
  minor : UInt8
  status : ExitStatus

/-- A call that has come back. -/
def OpenStep (system : System) (call : OpenCall) (next : System) : Prop :=
  hdOpen call.minor system = .returned call.status next

/-- What a caller of `hd_open` relies on: a success has made the drive readable, and
it stays so; without a geometry the call has failed. -/
structure OpensReadable (log : List (System × OpenCall)) (final : System) : Prop where
  opened : ∀ entry ∈ log, ∀ after, OpenStep entry.1 entry.2 after →
    entry.2.status = .success → Readable entry.2.minor after
  failed : ∀ entry ∈ log, ∀ after, OpenStep entry.1 entry.2 after →
    after.devGetinfo hardDiskDriver entry.2.minor = 0 → entry.2.status = .failure
  lasting : ∀ entry ∈ log, entry.2.status = .success → Readable entry.2.minor final

section Runs

variable {start system next final : System} {call : OpenCall} {log : List (System × OpenCall)}

/-- A geometry once known stays known. -/
theorem OpenStep.persists {minor : UInt8} (readable : Readable minor system)
    (step : OpenStep system call next) : Readable minor next := by
  have known := readable.known
  apply readable_of_known
  rcases hdOpen_returned step with ⟨_, _, same⟩ | ⟨_, _, set, same⟩ | ⟨_, _, _, same⟩
  · rwa [same minor]
  · by_cases here : minor = call.minor
    · rwa [here]
    · rwa [same minor here]
  · rwa [same minor]

theorem OpenStep.establishes (step : OpenStep system call next)
    (accepted : ¬ GeometryRefused call.minor system) (success : call.status = .success) :
    Readable call.minor next := by
  rcases hdOpen_returned step with ⟨failure, _⟩ | ⟨_, _, set, _⟩ | ⟨_, refused, _⟩
  · rw [success] at failure
    cases failure
  · exact readable_of_known set
  · exact absurd refused accepted

/-- Opening a disk makes it readable in exactly the runs in which the BIOS refuses no
geometry request. -/
theorem hdOpen_makes_readable_iff (trace : Trace OpenStep start log final) :
    OpensReadable log final ↔ ∀ entry ∈ log, ¬ GeometryRefused entry.2.minor entry.1 := by
  constructor
  · intro opens entry member refused
    obtain ⟨next, step⟩ := trace.step_of_mem member
    rcases hdOpen_returned step with ⟨_, accepted, _⟩ | ⟨_, accepted, _⟩ | ⟨success, _, lacks, _⟩
    · exact accepted refused
    · exact accepted refused
    · exact (opens.opened entry member next step success).known lacks
  · intro accepted
    refine ⟨fun entry member after step => step.establishes (accepted entry member),
      fun entry member after step lacks => ?_, fun entry member success => ?_⟩
    · rcases hdOpen_returned step with ⟨failure, _⟩ | ⟨_, _, set, _⟩ | ⟨_, refused, _⟩
      · exact failure
      · exact absurd lacks set
      · exact absurd refused (accepted entry member)
    · exact trace.lasting (fun call => Readable call.minor)
        (fun system call => ¬ GeometryRefused call.minor system ∧ call.status = .success)
        (fun allowed step => step.establishes allowed.1 allowed.2) OpenStep.persists entry member
        ⟨accepted entry member, success⟩

end Runs

/-- A BIOS that resets every drive, and either describes every drive as one of four
cylinders with 16 heads and 63 sectors per track or refuses to. -/
def geometryBios (refuses : Bool) : Bios := fun regs memory =>
  ({ regs with
      ah := if refuses then 0x01 else 0x00
      ch := 3
      cl := 63
      dh := 15
      cf := refuses && regs.ah == 0x08 }, memory)

/-- The system before any drive is opened, with its heap at 128 kB in zeroed memory. -/
def freshSystem (bios : Bios) : System where
  memory := (heapInit 0x20000 fun _ => 0).memory
  heapList := 0x20000
  devices := linkedDevices
  replies := fun _ => bios
  events := []
  console := []
  errno := 0

theorem hdOpen_makes_readable_iff_described :
    ∃ final, OpenStep (freshSystem (geometryBios false)) ⟨0, .success⟩ final ∧
      (OpensReadable [(freshSystem (geometryBios false), ⟨0, .success⟩)] final ↔
        ∀ entry ∈ [(freshSystem (geometryBios false), (⟨0, .success⟩ : OpenCall))],
          ¬ GeometryRefused entry.2.minor entry.1) := by
  have opens : (hdOpen 0 (freshSystem (geometryBios false))).passes
      (fun status _ => status == .success) = true := by decide +kernel
  obtain ⟨status, final, ran, success⟩ := Outcome.exists_of_passes opens
  obtain rfl : status = .success := by simpa using success
  exact ⟨final, ran, hdOpen_makes_readable_iff (Trace.start.extend ran)⟩

/-- The BIOS refuses to describe a drive: `hd_open` reports a success, and the read that
follows stops at its first assertion. -/
theorem refused_drive_opens :
    ∃ final, Trace OpenStep (freshSystem (geometryBios true))
        [(freshSystem (geometryBios true), ⟨0, .success⟩)] final ∧
      final.devGetinfo hardDiskDriver 0 = 0 ∧
      (∀ turns buffer, hdRead turns 0 0 1 buffer final.machine =
        .panicked "dev_info != NULL" final.machine) ∧
      ¬ OpensReadable [(freshSystem (geometryBios true), ⟨0, .success⟩)] final := by
  have opens : (hdOpen 0 (freshSystem (geometryBios true))).passes
      (fun status final => status == .success && final.devGetinfo hardDiskDriver 0 == 0) =
        true := by decide +kernel
  obtain ⟨status, final, ran, found⟩ := Outcome.exists_of_passes opens
  obtain ⟨rfl, lacks⟩ : status = .success ∧ final.devGetinfo hardDiskDriver 0 = 0 := by
    simpa using found
  refine ⟨final, Trace.start.extend ran, lacks, fun turns => hdRead_unknown lacks turns 0 1,
    fun opened => ?_⟩
  exact (opened.opened _ (List.mem_singleton.mpr rfl) final ran rfl).known lacks

end Bootloader.Common
