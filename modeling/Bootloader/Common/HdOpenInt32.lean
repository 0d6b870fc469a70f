import Bootloader.Arch.Int32Bios
import Bootloader.Common.HdDrvFaults
import Bootloader.Common.HdOpen

/-!
# Opening a disk through `int32`

No error of the BIOS comes through `int32`. Whatever the BIOS says, `hd_open` of a device of the
table is a success, and the drive has a geometry from then on: that of the registers which an
error has left.
-/

namespace Bootloader.Common

open Bootloader.Std Bootloader.Libc Bootloader.Arch

/-- The table has an entry for the drive. -/
def Found (minor : UInt8) (system : System) : Prop :=
  system.devGetstatus hardDiskDriver minor ≠ .notFound

/-- What no call of `hd_open` changes: the answers to come are those of before, but for the
first few, and the table has the same devices. -/
structure Kin (system later : System) : Prop where
  tail : Tail system.replies later.replies
  found : ∀ minor, Found minor later ↔ Found minor system

theorem Kin.trans {system middle later : System} (kin : Kin system middle)
    (further : Kin middle later) : Kin system later where
  tail := kin.tail.trans further.tail
  found minor := (further.found minor).trans (kin.found minor)

section Calls

variable {minor other : UInt8} {geometry : UInt32} {system ready later after : System}
  {status : ExitStatus}

/-- A part of a run that leaves the table alone. -/
theorem Kin.of_devices (tail : Tail system.replies later.replies)
    (same : later.devices = system.devices) : Kin system later where
  tail := tail
  found minor := by rw [Found, Found, System.devGetstatus, System.device, same]; rfl

/-- A drive that is initialized was found before. -/
theorem Kin.devSetstatus (known : Found minor system) :
    Kin system (system.devSetstatus hardDiskDriver minor .initialized) where
  tail := Tail.refl _
  found other := by
    by_cases same : other = minor
    · subst same
      obtain ⟨entry, there⟩ : ∃ entry, system.device hardDiskDriver other = some entry := by
        cases device : system.device hardDiskDriver other with
        | none => exact absurd (by rw [System.devGetstatus, device]) known
        | some entry => exact ⟨entry, rfl⟩
      rw [iff_true_right known, Found, System.devGetstatus, System.device_devSetstatus, there]
      intro gone
      cases gone
    · rw [Found, System.devGetstatus, System.device_devSetstatus_other _ same]
      rfl

theorem Kin.devSetinfo (system : System) (info : UInt32) :
    Kin system (system.devSetinfo hardDiskDriver minor info) where
  tail := Tail.refl _
  found other := by
    by_cases same : other = minor
    · subst same
      rw [Found, Found, System.devGetstatus, System.device_devSetinfo, System.devGetstatus]
      cases system.device hardDiskDriver other <;> rfl
    · rw [Found, System.devGetstatus, System.device_devSetinfo_other _ same]
      rfl

/-- With a reset that cannot fail, a call comes past it when the table has the drive. -/
theorem hdReady_behind (behind : BehindInt32 (system.replies 0)) (known : Found minor system) :
    ∃ ready, hdReady minor system = some ready ∧ Kin system ready := by
  have reset : diskReset (biosHdDriveBaseNb + minor) system.machine =
      (.success, (system.machine.int13 (driveRequest 0x00 (biosHdDriveBaseNb + minor))).2) :=
    diskReset_behind behind
  have kept : Kin system system := Kin.of_devices (Tail.refl _) rfl
  cases found : system.devGetstatus hardDiskDriver minor with
  | notFound => exact absurd found known
  | unknown =>
      have asked : Kin system (system.withMachine
          (system.machine.int13 (driveRequest 0x00 (biosHdDriveBaseNb + minor))).2) :=
        Kin.of_devices ⟨1, rfl⟩ rfl
      refine ⟨_, ?_, asked.trans (Kin.devSetstatus ((asked.found minor).mpr known))⟩
      rw [hdReady, found]
      simp only [reset]
  | initialized => exact ⟨system, by rw [hdReady, found], kept⟩
  | opened => exact ⟨system, by rw [hdReady, found], kept⟩
  | closed => exact ⟨system, by rw [hdReady, found], kept⟩

/-- Without the drive in the table, a call changes nothing but `errno`. -/
theorem hdOpen_absent (absent : ¬ Found minor system) :
    hdReady minor system = none ∧
      hdOpen minor system = .returned .failure { system with errno := enodev } := by
  have gone : system.devGetstatus hardDiskDriver minor = .notFound := Classical.not_not.mp absent
  exact ⟨by rw [hdReady, gone], by rw [hdOpen, gone]⟩

/-- No geometry request is refused. -/
theorem geometryReply_behind (minor : UInt8) (behind : BehindInt32 (system.replies 0)) :
    (geometryReply minor system).1.refused = false :=
  @refused_behind system.machine behind _

theorem Kin.withHeap (system : System) (heap : Heap) : Kin system (system.withHeap heap) where
  tail := Tail.refl _
  found _ := Iff.rfl

/-- The geometry that a request leaves is recorded, and nothing else about the table. -/
theorem Kin.described (minor : UInt8) (geometry : UInt32) (system : System) :
    Kin system (described minor geometry system) :=
  (Kin.of_devices ⟨1, rfl⟩ rfl : Kin system (((system.withMachine
    ((geometryReply minor system).2.fillGeometry geometry (geometryReply minor system).1)).print
      _ _))).trans (Kin.devSetinfo _ geometry)

end Calls

section Runs

variable {start system next final : System} {call : OpenCall} {log : List (System × OpenCall)}

/-- The answers to come are still behind `int32`. -/
theorem Kin.behind {later : System} (kin : Kin system later)
    (behind : ∀ index, BehindInt32 (system.replies index)) (index : Nat) :
    BehindInt32 (later.replies index) := by
  obtain ⟨used, same⟩ := kin.tail
  rw [same]
  exact behind (index + used)

/-- What a call does that comes back. -/
theorem OpenStep.behind (behind : ∀ index, BehindInt32 (system.replies index))
    (step : OpenStep system call next) :
    ¬ GeometryRefused call.minor system ∧
      (call.status = .success ↔ Found call.minor system) ∧ Kin system next := by
  have step' : hdOpen call.minor system = .returned call.status next := step
  by_cases known : Found call.minor system
  · obtain ⟨ready, comes, kin⟩ := hdReady_behind (behind 0) known
    rw [hdOpen_ready comes] at step'
    by_cases lacks : ready.devGetinfo hardDiskDriver call.minor = 0
    · obtain ⟨geometry, heap, allocated, valid, rest⟩ := hdGeometry_returned lacks step'
      obtain ⟨held, named⟩ : ∃ held, ready.withHeap heap = held := ⟨_, rfl⟩
      have there : Kin system held := by
        rw [← named]
        exact kin.trans (Kin.withHeap ready heap)
      have asked := geometryRefused_iff comes lacks allocated
      rw [named] at rest asked
      have accepted := geometryReply_behind call.minor (there.behind behind 0)
      rw [hdDescribe_accepted valid accepted] at rest
      obtain ⟨success, same⟩ := Outcome.returned.inj rest
      refine ⟨mt asked.mp (Bool.eq_false_iff.mp accepted), iff_of_true success.symm known, ?_⟩
      rw [← same]
      exact there.trans (Kin.described _ _ _)
    · rw [hdGeometry_known lacks] at step'
      obtain ⟨success, same⟩ := Outcome.returned.inj step'
      refine ⟨not_geometryRefused comes lacks, iff_of_true success.symm known, ?_⟩
      rw [← same]
      exact kin
  · obtain ⟨stops, failed⟩ := hdOpen_absent known
    rw [failed] at step'
    obtain ⟨failure, same⟩ := Outcome.returned.inj step'
    refine ⟨?_, iff_of_false (fun success => ?_) known, ?_⟩
    · rintro ⟨ready, _, _, comes, _⟩
      rw [stops] at comes
      cases comes
    · rw [success] at failure
      cases failure
    · rw [← same]
      exact Kin.of_devices (Tail.refl _) rfl

/-- In the protected-mode build no drive of the table fails to open, whatever the BIOS says
about it: in every run of `hd_open`, the calls that succeed are those for devices of the table,
no geometry is refused, and what has been opened can be read. -/
theorem hdOpen_through_int32 (behind : ∀ index, BehindInt32 (start.replies index))
    (trace : Trace OpenStep start log final) :
    ∀ entry ∈ log, ¬ GeometryRefused entry.2.minor entry.1 ∧
      (entry.2.status = .success ↔ Found entry.2.minor start) ∧
      (Found entry.2.minor start → Readable entry.2.minor final) := by
  have kin : Kin start final ∧ ∀ entry ∈ log, Kin start entry.1 := by
    induction trace with
    | start => exact ⟨Kin.of_devices (Tail.refl _) rfl, fun _ member => nomatch member⟩
    | extend before last inductionHypothesis =>
        obtain ⟨here, earlier⟩ := inductionHypothesis
        refine ⟨here.trans (last.behind (here.behind behind)).2.2, fun entry member => ?_⟩
        rcases List.mem_append.mp member with old | new
        · exact earlier entry old
        · rwa [List.mem_singleton.mp new]
  intro entry member
  obtain ⟨next, step⟩ := trace.step_of_mem member
  have there := kin.2 entry member
  obtain ⟨accepted, success, _⟩ := OpenStep.behind (there.behind behind) step
  have opens := success.trans (there.found _)
  refine ⟨accepted, opens, fun found => ?_⟩
  exact trace.lasting (fun call => Readable call.minor)
    (fun system call => ¬ GeometryRefused call.minor system ∧ call.status = .success)
    (fun allowed step => step.establishes allowed.1 allowed.2) OpenStep.persists entry member
    ⟨accepted, opens.mpr found⟩

end Runs

/-- A drive that the BIOS does not know opens. -/
theorem hdOpen_through_int32_refused :
    ∃ final, OpenStep (freshSystem deafBios) ⟨0, .success⟩ final ∧
      ∀ entry ∈ [(freshSystem deafBios, (⟨0, .success⟩ : OpenCall))],
        ¬ GeometryRefused entry.2.minor entry.1 ∧
          (entry.2.status = .success ↔ Found entry.2.minor (freshSystem deafBios)) ∧
          (Found entry.2.minor (freshSystem deafBios) → Readable entry.2.minor final) := by
  have opens : (hdOpen 0 (freshSystem deafBios)).passes
      (fun status _ => status == .success) = true := by decide +kernel
  obtain ⟨status, final, ran, success⟩ := Outcome.exists_of_passes opens
  obtain rfl : status = .success := by simpa using success
  exact ⟨final, ran, hdOpen_through_int32 (fun _ => deafBios_behind) (Trace.start.extend ran)⟩

end Bootloader.Common
