import Bootloader.Arch.DiskAddress
import Bootloader.Common.HdDrvFaults
import Bootloader.Common.HdOpen
import Bootloader.Libc.AllocClients

/-!
# What `hd_open` does to the heap

With a BIOS that leaves the heap alone, an open that comes back has either changed
nothing that a client of the heap can see, or has one more live block, which the device
table refers to and which holds the geometry of the drive.
-/

namespace Bootloader.Common

open Bootloader.Std Bootloader.Libc Bootloader.Arch

section Opens

variable {image : Nat → UInt8} {desc : ChsDiskGeometry} {area : HeapArea}
  {live : UInt32 → Option UInt32} {system ready later after : System} {minor : UInt8}
  {status : ExitStatus}

/-- A part of a run that a client of the heap does not notice. -/
structure Quiet (system later : System) : Prop where
  tail : Tail system.replies later.replies
  heapList : later.heapList = system.heapList
  memory : ∀ address, lowMemory ≤ address → later.memory address = system.memory address
  keys : later.devices.map DevEntry.key = system.devices.map DevEntry.key
  info : ∀ minor, later.devGetinfo hardDiskDriver minor =
    system.devGetinfo hardDiskDriver minor

theorem Quiet.refl (system : System) : Quiet system system :=
  ⟨Tail.refl _, rfl, fun _ _ => rfl, rfl, fun _ => rfl⟩

/-- A request that is no read is not noticed. -/
theorem Quiet.int13 (regs : Regs16) (served : Served image desc system.replies)
    (request : regs.ah ≠ 0x02) :
    Quiet system (system.withMachine (system.machine.int13 regs).2) where
  tail := ⟨1, rfl⟩
  heapList := rfl
  memory address low := (served 0).quiet regs system.memory address request low
  keys := rfl
  info _ := rfl

/-- Nor is what is printed. -/
theorem Quiet.print (quiet : Quiet system later) (format : String)
    (arguments : List UInt32) : Quiet system (later.print format arguments) :=
  ⟨quiet.tail, quiet.heapList, quiet.memory, quiet.keys, quiet.info⟩

/-- A reset of a drive is not noticed. -/
theorem diskReset_quiet {driveNb : UInt8} {machine : Machine}
    (served : Served image desc system.replies)
    (reset : diskReset driveNb system.machine = (status, machine)) :
    Quiet system (system.withMachine machine) := by
  have asked : (system.machine.int13 (driveRequest 0x00 driveNb)).2 = machine :=
    congrArg Prod.snd reset
  rw [← asked]
  exact Quiet.int13 _ served (show (0x00 : UInt8) ≠ 0x02 by decide)

/-- Nor is a geometry request. -/
theorem geometryReply_quiet (minor : UInt8) (served : Served image desc system.replies) :
    Quiet system (system.withMachine (geometryReply minor system).2) :=
  Quiet.int13 _ served (show (0x08 : UInt8) ≠ 0x02 by decide)

/-- Nothing of what `hd_open` does before it asks for the geometry is noticed. -/
theorem hdReady_quiet (served : Served image desc system.replies)
    (comes : hdReady minor system = some ready) : Quiet system ready := by
  rw [hdReady] at comes
  split at comes
  · cases comes
  · split at comes
    · cases comes
    · rename_i machine reset
      have quiet := diskReset_quiet served reset
      cases comes
      exact ⟨quiet.tail, quiet.heapList, quiet.memory,
        (System.keys_devSetstatus _).trans quiet.keys,
        fun other => (System.devGetinfo_devSetstatus _).trans (quiet.info other)⟩
  · cases comes
    exact .refl system

/-- The heap of a client survives what it does not notice. -/
theorem Quiet.lives (quiet : Quiet system later)
    (placed : ClientBuffer area.start.toNat 4096) (lives : Lives area system.heap live) :
    Lives area later.heap live ∧ Preserves live system.memory later.memory := by
  have low := placed.low
  refine ⟨lives.store quiet.heapList fun address above _ _ => quiet.memory address (by omega),
    fun ptr capacity granted address above _ => (quiet.memory address ?_).symm⟩
  have inside := (lives.inside granted).1
  omega

/-- What an open of a drive does to the heap of a client: nothing, or a block has become
live that holds the geometry of the drive. -/
structure Opened (area : HeapArea) (live live' : UInt32 → Option UInt32) (minor : UInt8)
    (system after : System) : Prop where
  lives : Lives area after.heap live'
  tail : Tail system.replies after.replies
  keys : after.devices.map DevEntry.key = system.devices.map DevEntry.key
  preserves : Preserves live system.memory after.memory
  geometry : (live' = live ∧
      after.devGetinfo hardDiskDriver minor = system.devGetinfo hardDiskDriver minor) ∨
    (system.devGetinfo hardDiskDriver minor = 0 ∧
      live (after.devGetinfo hardDiskDriver minor) = none ∧
      1 ≤ (loadGeometry after.memory (after.devGetinfo hardDiskDriver minor).toNat).ns ∧
      ∃ capacity, sizeofGeometry ≤ capacity ∧
        live' = Function.update live (after.devGetinfo hardDiskDriver minor) (some capacity))

/-- A refused geometry request gives its block back. -/
theorem hdDescribe_refused_lives {geometry capacity : UInt32}
    (placed : ClientBuffer area.start.toNat 4096) (served : Served image desc system.replies)
    (fresh : live geometry = none)
    (lives : Lives area system.heap (Function.update live geometry (some capacity)))
    (refused : (geometryReply minor system).1.refused = true) :
    ∃ after, hdDescribe minor geometry system = .returned .success after ∧
      Opened area live live minor system after := by
  have quiet : Quiet system (undescribed minor system) :=
    (geometryReply_quiet minor served).print _ _
  obtain ⟨lives', kept⟩ := quiet.lives placed lives
  have holds : Function.update live geometry (some capacity) geometry = some capacity :=
    Function.update_self ..
  obtain ⟨heap, freed, lives'', kept'⟩ := lives'.free holds
  have again : Function.update (Function.update live geometry (some capacity)) geometry none =
      live := by
    rw [Function.update_idem, ← fresh, Function.update_eq_self]
  rw [again] at lives''
  refine ⟨(undescribed minor system).withHeap heap, ?_, lives'', quiet.tail, quiet.keys,
    Preserves.of_update fresh (kept.trans kept'), Or.inl ⟨rfl, quiet.info minor⟩⟩
  rw [hdDescribe_refused (lives.ne_zero holds) refused, freed]
  rfl

/-- A described drive keeps the block for its geometry. -/
theorem hdDescribe_accepted_lives {geometry capacity : UInt32}
    (placed : ClientBuffer area.start.toNat 4096) (served : Served image desc system.replies)
    (fresh : live geometry = none) (room : sizeofGeometry ≤ capacity)
    (lives : Lives area system.heap (Function.update live geometry (some capacity)))
    (known : system.device hardDiskDriver minor ≠ none)
    (lacks : system.devGetinfo hardDiskDriver minor = 0)
    (accepted : (geometryReply minor system).1.refused = false) :
    Opened area live (Function.update live geometry (some capacity)) minor system
      (described minor geometry system) := by
  have quiet := geometryReply_quiet minor served
  obtain ⟨lives', kept⟩ := quiet.lives placed lives
  have holds : Function.update live geometry (some capacity) geometry = some capacity :=
    Function.update_self ..
  have eight : 8 ≤ capacity.toNat := UInt32.le_iff_toNat_le.mp room
  have stored : (described minor geometry system).memory =
      storeGeometry (geometryReply minor system).2.memory geometry.toNat
        (geometryReply minor system).1.geometry := rfl
  have outside (place : Nat) (out : place < geometry.toNat ∨ geometry.toNat + 8 ≤ place) :
      (described minor geometry system).memory place =
        (geometryReply minor system).2.memory place := by
    rw [stored, storeGeometry_outside out]
  have info : (described minor geometry system).devGetinfo hardDiskDriver minor = geometry :=
    devGetinfo_described known
  have described' := (served 0).described
    (driveRequest 0x08 (biosHdDriveBaseNb + minor)) system.memory rfl accepted
  refine ⟨lives'.store rfl fun address _ _ apart => ?_, quiet.tail,
    (System.keys_devSetinfo geometry).trans quiet.keys, ?_,
    Or.inr ⟨lacks, ?_, ?_, capacity, room, ?_⟩⟩
  · have away := apart geometry capacity holds
    exact outside address (by omega)
  · intro ptr amount granted address low high
    have still : Function.update live geometry (some capacity) ptr = some amount :=
      live_update fresh granted
    have apart := lives.apart holds still (live_ne fresh granted)
    rw [outside address (by omega)]
    exact kept ptr amount still address low high
  · rw [info, fresh]
  · rw [info, stored, loadGeometry_storeGeometry]
    exact described'.1
  · rw [info]

/-- A call that does not come past the reset is not noticed. -/
theorem hdOpen_unready_quiet (served : Served image desc system.replies)
    (stops : hdReady minor system = none) :
    ∃ after, hdOpen minor system = .returned .failure after ∧ Quiet system after := by
  rw [hdReady] at stops
  rw [hdOpen]
  split at stops
  · exact ⟨_, rfl, Tail.refl _, rfl, fun _ _ => rfl, rfl, fun _ => rfl⟩
  · split at stops
    · rename_i machine reset
      have quiet := diskReset_quiet served reset
      exact ⟨_, rfl, quiet.tail, quiet.heapList, quiet.memory, quiet.keys, quiet.info⟩
    · cases stops
  · cases stops

theorem Quiet.opened (quiet : Quiet system after) (placed : ClientBuffer area.start.toNat 4096)
    (lives : Lives area system.heap live) : Opened area live live minor system after :=
  have ⟨lives', kept⟩ := quiet.lives placed lives
  ⟨lives', quiet.tail, quiet.keys, kept, Or.inl ⟨rfl, quiet.info minor⟩⟩

/-- An open is the same to a client when nothing was noticed in front of it. -/
theorem Opened.behind {live' : UInt32 → Option UInt32}
    (opened : Opened area live live' minor later after)
    (tail : Tail system.replies later.replies)
    (keys : later.devices.map DevEntry.key = system.devices.map DevEntry.key)
    (kept : Preserves live system.memory later.memory)
    (info : later.devGetinfo hardDiskDriver minor = system.devGetinfo hardDiskDriver minor) :
    Opened area live live' minor system after where
  lives := opened.lives
  tail := tail.trans opened.tail
  keys := opened.keys.trans keys
  preserves := kept.trans opened.preserves
  geometry := by
    have geometry := opened.geometry
    rwa [info] at geometry

/-- An open stops at an assertion or comes back, and this is what it has done then. -/
theorem hdOpen_opened (placed : ClientBuffer area.start.toNat 4096)
    (served : Served image desc system.replies) (lives : Lives area system.heap live) :
    (∃ reason stuck, hdOpen minor system = .panicked reason stuck) ∨
      ∃ status after live', hdOpen minor system = .returned status after ∧
        Opened area live live' minor system after := by
  cases comes : hdReady minor system with
  | none =>
      obtain ⟨after, ran, quiet⟩ := hdOpen_unready_quiet served comes
      exact Or.inr ⟨_, after, live, ran, quiet.opened placed lives⟩
  | some ready =>
      have quiet := hdReady_quiet served comes
      obtain ⟨lives', kept⟩ := quiet.lives placed lives
      obtain ⟨known, pointers⟩ := hdReady_device comes
      rw [hdOpen_ready comes]
      by_cases lacks : ready.devGetinfo hardDiskDriver minor = 0
      · rcases lives'.malloc sizeofGeometry with failed |
          ⟨geometry, capacity, heap, allocated, fresh, room, lives'', kept'⟩
        · refine Or.inl ⟨"geometry != NULL", ready.withHeap ready.heap, ?_⟩
          rw [hdGeometry, if_pos lacks, failed]
          rfl
        · have served' : Served image desc (ready.withHeap heap).replies :=
            served.tail quiet.tail
          have valid := lives''.ne_zero (Function.update_self ..)
          have describes : hdGeometry minor ready =
              hdDescribe minor geometry (ready.withHeap heap) := by
            rw [hdGeometry, if_pos lacks, allocated]
            exact if_neg valid
          rw [describes]
          cases refused : (geometryReply minor (ready.withHeap heap)).1.refused with
          | true =>
              obtain ⟨after, ran, opened⟩ :=
                hdDescribe_refused_lives placed served' fresh lives'' refused
              exact Or.inr ⟨_, after, live, ran,
                opened.behind quiet.tail quiet.keys (kept.trans kept') (pointers minor)⟩
          | false =>
              exact Or.inr ⟨_, _, _, hdDescribe_accepted valid refused,
                (hdDescribe_accepted_lives placed served' fresh room lives'' known lacks
                  refused).behind quiet.tail quiet.keys (kept.trans kept') (pointers minor)⟩
      · exact Or.inr ⟨_, ready, live, hdGeometry_known lacks, quiet.opened placed lives⟩

end Opens

end Bootloader.Common
