import Bootloader.Common.Mbr

/-!
# What callers of `mbr_get` get

A run is any sequence of `mbr_get` and `mbr_destroy` in which a block is given back
once. `Ledger` is what every step of it keeps: the live blocks of the heap are the
blocks the callers hold and the geometry the device table refers to, and the callers'
blocks hold the first sector.
-/

namespace Bootloader.Common

open Bootloader.Std Bootloader.Libc Bootloader.Arch

/-- The live blocks are those held by callers and, once it is known, the geometry. -/
structure Accounts (live : UInt32 → Option UInt32) (held : List UInt32) (info : UInt32) :
    Prop where
  results : ∀ mbr ∈ held, ∃ capacity, live mbr = some capacity ∧ sizeofMbr ≤ capacity
  geometry : info ≠ 0 → ∃ capacity, live info = some capacity ∧ sizeofGeometry ≤ capacity
  nothingElse : ∀ ptr capacity, live ptr = some capacity → ptr ∈ held ∨ ptr = info
  apart : info ∉ held
  once : held.Nodup

namespace Accounts

variable {live : UInt32 → Option UInt32} {held : List UInt32} {info ptr capacity : UInt32}
  {memory other : Memory}

/-- A block for one more caller. -/
theorem insert (accounts : Accounts live held info) (fresh : live ptr = none)
    (valid : ptr ≠ 0) (room : sizeofMbr ≤ capacity) :
    Accounts (Function.update live ptr (some capacity)) (ptr :: held) info where
  results mbr member := by
    rcases List.mem_cons.mp member with rfl | earlier
    · exact ⟨capacity, Function.update_self .., room⟩
    · obtain ⟨amount, granted, enough⟩ := accounts.results mbr earlier
      exact ⟨amount, live_update fresh granted, enough⟩
  geometry known := by
    obtain ⟨amount, granted, enough⟩ := accounts.geometry known
    exact ⟨amount, live_update fresh granted, enough⟩
  nothingElse other amount granted := by
    by_cases same : other = ptr
    · exact Or.inl (List.mem_cons.mpr (Or.inl same))
    · rw [Function.update_of_ne same] at granted
      exact (accounts.nothingElse other amount granted).imp_left (List.mem_cons_of_mem _)
  apart member := by
    rcases List.mem_cons.mp member with rfl | earlier
    · obtain ⟨amount, granted, _⟩ := accounts.geometry valid
      exact live_ne fresh granted rfl
    · exact accounts.apart earlier
  once := by
    refine List.nodup_cons.mpr ⟨fun member => ?_, accounts.once⟩
    obtain ⟨amount, granted, _⟩ := accounts.results ptr member
    exact live_ne fresh granted rfl

/-- A caller gives its block back. -/
theorem remove (accounts : Accounts live held info) (member : ptr ∈ held) :
    Accounts (Function.update live ptr none) (held.erase ptr) info where
  results mbr stays := by
    obtain ⟨different, earlier⟩ := (accounts.once.mem_erase_iff).mp stays
    obtain ⟨amount, granted, enough⟩ := accounts.results mbr earlier
    exact ⟨amount, by rwa [Function.update_of_ne different], enough⟩
  geometry known := by
    obtain ⟨amount, granted, enough⟩ := accounts.geometry known
    have different : info ≠ ptr := by
      rintro rfl
      exact accounts.apart member
    exact ⟨amount, by rwa [Function.update_of_ne different], enough⟩
  nothingElse other amount granted := by
    obtain ⟨different, earlier⟩ := live_of_erased granted
    exact (accounts.nothingElse other amount earlier).imp_left
      ((List.mem_erase_of_ne different).mpr ·)
  apart member := accounts.apart (List.mem_of_mem_erase member)
  once := accounts.once.erase ptr

/-- The geometry of a drive becomes known. -/
theorem describe (accounts : Accounts live held 0) (null : live 0 = none)
    (fresh : live ptr = none) (room : sizeofGeometry ≤ capacity) :
    Accounts (Function.update live ptr (some capacity)) held ptr where
  results mbr member := by
    obtain ⟨amount, granted, enough⟩ := accounts.results mbr member
    exact ⟨amount, live_update fresh granted, enough⟩
  geometry _ := ⟨capacity, Function.update_self .., room⟩
  nothingElse other amount granted := by
    by_cases same : other = ptr
    · exact Or.inr same
    · rw [Function.update_of_ne same] at granted
      rcases accounts.nothingElse other amount granted with earlier | zero
      · exact Or.inl earlier
      · rw [zero, null] at granted
        cases granted
  apart member := by
    obtain ⟨amount, granted, _⟩ := accounts.results ptr member
    exact live_ne fresh granted rfl
  once := accounts.once

/-- What is preserved for live pointers is preserved for the callers' blocks. -/
theorem results_kept (accounts : Accounts live held info)
    (preserves : Preserves live memory other) {mbr : UInt32} (member : mbr ∈ held)
    {offset : Nat} (below : offset < 512) :
    other (mbr.toNat + offset) = memory (mbr.toNat + offset) := by
  obtain ⟨capacity, granted, room⟩ := accounts.results mbr member
  have enough : 512 ≤ capacity.toNat := UInt32.le_iff_toNat_le.mp room
  exact (preserves mbr capacity granted _ (by omega) (by omega)).symm

theorem tracks_kept (accounts : Accounts live held info) (known : info ≠ 0)
    (preserves : Preserves live memory other) :
    (loadGeometry other info.toNat).ns = (loadGeometry memory info.toNat).ns := by
  obtain ⟨capacity, granted, room⟩ := accounts.geometry known
  have enough : 8 ≤ capacity.toNat := UInt32.le_iff_toNat_le.mp room
  exact (preserves info capacity granted _ (by omega) (by omega)).symm

end Accounts

/-- A pointer of the heap is a buffer that a client may read into. -/
theorem clientBuffer_live {area : HeapArea} {heap : Heap} {live : UInt32 → Option UInt32}
    {ptr capacity : UInt32} {size : Nat} (placed : ClientBuffer area.start.toNat 4096)
    (lives : Lives area heap live) (holds : live ptr = some capacity)
    (room : size ≤ capacity.toNat) : ClientBuffer ptr.toNat size := by
  have inside := lives.inside holds
  obtain ⟨low, fits, apart⟩ := placed
  exact ⟨by omega, by omega, by omega⟩

section Reads

variable {image : Nat → UInt8} {desc : ChsDiskGeometry} {area : HeapArea} {heap : Heap}
  {live : UInt32 → Option UInt32} {ptr capacity : UInt32} {memory : Memory}
  {cursor : HdCursor} {machine : Machine}

/-- Of the heap a read of the first sector changes only its buffer. -/
theorem ReadsFirst.heap_frame {address : Nat} (placed : ClientBuffer area.start.toNat 4096)
    (reads : ReadsFirst image desc ptr memory cursor machine)
    (above : area.start.toNat ≤ address) (below : address < area.start.toNat + 4096)
    (out : address < ptr.toNat ∨ ptr.toNat + 512 ≤ address) :
    machine.memory address = memory address := by
  obtain ⟨low, _, apart⟩ := placed
  exact reads.frame address (by omega) (by omega) out

/-- So the other live blocks are what they were. -/
theorem ReadsFirst.others_kept (placed : ClientBuffer area.start.toNat 4096)
    (reads : ReadsFirst image desc ptr heap.memory cursor machine)
    (lives : Lives area heap live) (granted : live ptr = some capacity)
    (enough : 512 ≤ capacity.toNat) :
    Preserves (Function.update live ptr none) heap.memory machine.memory := by
  intro other amount holds address above below
  obtain ⟨different, earlier⟩ := live_of_erased holds
  have inside := lives.inside earlier
  have separate := lives.apart granted earlier different
  exact (reads.heap_frame placed (by omega) (by omega) (by omega)).symm

end Reads

/-- What a result of `mbr_get` adds to the blocks held. -/
def given (result : UInt32) (held : List UInt32) : List UInt32 :=
  if result = 0 then held else result :: held

/-- Between the steps of `mbr_get`: the callers hold `held`, of which `filled` have the
first sector of the disk. -/
structure Ledger (image : Nat → UInt8) (desc : ChsDiskGeometry) (area : HeapArea)
    (held filled : List UInt32) (live : UInt32 → Option UInt32) (system : System) :
    Prop where
  served : Served image desc system.replies
  keys : system.devices.map DevEntry.key = linkedDevices.map DevEntry.key
  lives : Lives area system.heap live
  accounts : Accounts live held (system.devGetinfo hardDiskDriver 0)
  tracks : system.devGetinfo hardDiskDriver 0 ≠ 0 →
    1 ≤ (loadGeometry system.memory (system.devGetinfo hardDiskDriver 0).toNat).ns
  holders : ∀ mbr ∈ filled, mbr ∈ held
  contents : ∀ mbr ∈ filled, ∀ offset < 512,
    system.memory (mbr.toNat + offset) = image offset

namespace Ledger

variable {image : Nat → UInt8} {desc : ChsDiskGeometry} {area : HeapArea}
  {held filled rest : List UInt32} {live : UInt32 → Option UInt32} {system after : System}
  {mbr : UInt32}

/-- What is printed is in no account, and neither is `errno`. -/
theorem print (ledger : Ledger image desc area held filled live system) (format : String)
    (arguments : List UInt32) :
    Ledger image desc area held filled live (system.print format arguments) :=
  { ledger with }

theorem withErrno (ledger : Ledger image desc area held filled live system) (errno : UInt8) :
    Ledger image desc area held filled live { system with errno := errno } :=
  { ledger with }

/-- `mbr_get` has allocated a block. -/
theorem malloc {heap : Heap} (ledger : Ledger image desc area held filled live system)
    (allocated : Libc.malloc sizeofMbr system.heap = .returned mbr heap) (valid : mbr ≠ 0) :
    ∃ live', Ledger image desc area (mbr :: held) filled live' (system.withHeap heap) := by
  rcases ledger.lives.malloc sizeofMbr with failed |
    ⟨ptr, capacity, heap', succeeded, fresh, room, lives, kept⟩
  · rw [allocated] at failed
    exact absurd (Outcome.returned.inj failed).1 valid
  · rw [allocated] at succeeded
    cases succeeded
    refine ⟨_, ledger.served, ledger.keys, lives, ledger.accounts.insert fresh valid room,
      fun known => ?_, fun other member => List.mem_cons_of_mem _ (ledger.holders other member),
      fun other member offset below => ?_⟩
    · have same := ledger.accounts.tracks_kept known kept
      exact same.symm ▸ ledger.tracks known
    · exact (ledger.accounts.results_kept kept (ledger.holders other member) below).trans
        (ledger.contents other member offset below)

/-- The device has been opened. -/
theorem opened {live' : UInt32 → Option UInt32}
    (ledger : Ledger image desc area held filled live system)
    (opened : Opened area live live' 0 system after) :
    Ledger image desc area held filled live' after := by
  have contents : ∀ mbr ∈ filled, ∀ offset < 512,
      after.memory (mbr.toNat + offset) = image offset := fun mbr member offset below =>
    (ledger.accounts.results_kept opened.preserves (ledger.holders mbr member) below).trans
      (ledger.contents mbr member offset below)
  have served := ledger.served.tail opened.tail
  have keys := opened.keys.trans ledger.keys
  rcases opened.geometry with ⟨rfl, same⟩ | ⟨lacked, fresh, tracks, capacity, room, rfl⟩
  · refine ⟨served, keys, opened.lives, ?_, ?_, ledger.holders, contents⟩
    · rw [same]
      exact ledger.accounts
    · rw [same]
      intro known
      rw [ledger.accounts.tracks_kept known opened.preserves]
      exact ledger.tracks known
  · have accounts := ledger.accounts
    rw [lacked] at accounts
    have null : live 0 = none := by
      cases holds : live 0 with
      | none => rfl
      | some amount => exact absurd rfl (ledger.lives.ne_zero holds)
    exact ⟨served, keys, opened.lives, accounts.describe null fresh room,
      fun _ => tracks, ledger.holders, contents⟩

/-- The device is opened. -/
theorem opens {status : ExitStatus} (ledger : Ledger image desc area held filled live system)
    (placed : ClientBuffer area.start.toNat 4096)
    (returned : hdOpen 0 system = .returned status after) :
    ∃ live', Ledger image desc area held filled live' after := by
  rcases hdOpen_opened placed ledger.served ledger.lives with ⟨reason, stuck, absurd⟩ |
    ⟨_, _, live', ran, opened⟩
  · rw [absurd] at returned
    cases returned
  · rw [ran] at returned
    cases returned
    exact ⟨live', ledger.opened opened⟩

/-- The geometry the driver sees has tracks. -/
theorem tracks_machine (ledger : Ledger image desc area held filled live system) :
    ∀ devInfo, devGetinfo hardDiskDriver 0 system.machine.devices = some devInfo →
      1 ≤ devInfo.ns := by
  intro devInfo known
  rw [System.devGetinfo_machine] at known
  split at known
  · cases known
  · rename_i present
    cases known
    exact ledger.tracks present

/-- A block held is a buffer that the driver may read the first sector into. -/
theorem clientBuffer (ledger : Ledger image desc area held filled live system)
    (placed : ClientBuffer area.start.toNat 4096) (member : mbr ∈ held) :
    ClientBuffer mbr.toNat 512 := by
  obtain ⟨capacity, granted, room⟩ := ledger.accounts.results mbr member
  exact clientBuffer_live placed ledger.lives granted (UInt32.le_iff_toNat_le.mp room)

/-- The first sector has been read into a block. -/
theorem read {turns : Nat} {read : Int32}
    (ledger : Ledger image desc area held filled live system)
    (placed : ClientBuffer area.start.toNat 4096) (member : mbr ∈ held)
    (returned : hdReadSystem turns 0 0 1 mbr system = .returned read after) :
    read = 512 ∧ Ledger image desc area held (mbr :: filled) live after := by
  obtain ⟨machine, ran, rfl⟩ := Outcome.within_eq_returned returned
  obtain ⟨capacity, granted, room⟩ := ledger.accounts.results mbr member
  have enough : 512 ≤ capacity.toNat := UInt32.le_iff_toNat_le.mp room
  obtain ⟨whole, reads⟩ := hdRead_first ledger.served (ledger.clientBuffer placed member)
    ledger.tracks_machine ran
  have data : ∀ offset < 512, machine.memory (mbr.toNat + offset) = image offset := by
    rcases reads.progress with absurd | ⟨_, _, data⟩
    · cases absurd
    · exact data
  -- The other pointers are those that are live without this block.
  have others := ledger.accounts.remove member
  have kept := reads.others_kept placed ledger.lives granted enough
  refine ⟨whole, reads.served, ledger.keys, ledger.lives.store rfl
    fun address above below outside => ?_, ledger.accounts, fun known => ?_, ?_, ?_⟩
  · have out := outside mbr capacity granted
    exact reads.heap_frame placed above below (by omega)
  · exact (others.tracks_kept known kept).symm ▸ ledger.tracks known
  · intro other filledMember
    rcases List.mem_cons.mp filledMember with rfl | earlier
    · exact member
    · exact ledger.holders other earlier
  · intro other filledMember offset below
    by_cases same : other = mbr
    · rw [same]
      exact data offset below
    · have earlier := List.mem_of_ne_of_mem same filledMember
      have stays := (List.mem_erase_of_ne same).mpr (ledger.holders other earlier)
      exact (others.results_kept kept stays below).trans
        (ledger.contents other earlier offset below)

/-- A block has been given back. -/
theorem free (ledger : Ledger image desc area held filled live system) (member : mbr ∈ held)
    (others : ∀ other ∈ rest, other ∈ filled ∧ other ≠ mbr)
    (freed : system.free mbr = .returned () after) :
    ∃ live', Ledger image desc area (held.erase mbr) rest live' after := by
  obtain ⟨capacity, granted, _⟩ := ledger.accounts.results mbr member
  obtain ⟨heap, returned, lives, kept⟩ := ledger.lives.free granted
  rw [System.free, returned] at freed
  cases freed
  have accounts := ledger.accounts.remove member
  have stays : ∀ other ∈ rest, other ∈ held.erase mbr := fun other earlier =>
    (List.mem_erase_of_ne (others other earlier).2).mpr
      (ledger.holders other (others other earlier).1)
  have kept' : Preserves (Function.update live mbr none) system.memory heap.memory :=
    kept.of_erased
  refine ⟨_, ledger.served, ledger.keys, lives, accounts, fun known => ?_, stays,
    fun other earlier offset below => ?_⟩
  · exact (accounts.tracks_kept known kept').symm ▸ ledger.tracks known
  · exact (accounts.results_kept kept' (stays other earlier) below).trans
      (ledger.contents other (others other earlier).1 offset below)

/-- The block has been given back into which nothing was read. -/
theorem free_head (ledger : Ledger image desc area (mbr :: held) held live system)
    (freed : system.free mbr = .returned () after) :
    ∃ live', Ledger image desc area held held live' after := by
  have outsider : mbr ∉ held := (List.nodup_cons.mp ledger.accounts.once).1
  have released := ledger.free List.mem_cons_self
    (fun other (member : other ∈ held) => ⟨member, fun same => outsider (same ▸ member)⟩) freed
  rwa [List.erase_cons_head] at released

/-- The end of `mbr_get` on the hard disk. -/
theorem mbrRead {turns : Nat} {op : BlockDrvOp} {result : UInt32}
    (ledger : Ledger image desc area (mbr :: held) held live system)
    (placed : ClientBuffer area.start.toNat 4096)
    (reads : op.blockDrvRead = some (hdReadSystem turns))
    (returned : Common.mbrRead op 0 mbr system = .returned result after) :
    result = mbr ∧ ∃ live', Ledger image desc area (mbr :: held) (mbr :: held) live' after := by
  rw [Common.mbrRead, reads] at returned
  obtain ⟨count, final, ran, rest⟩ := Outcome.andThen_eq_returned returned
  obtain ⟨rfl, filled⟩ := ledger.read placed List.mem_cons_self ran
  rw [if_neg (by decide)] at rest
  cases rest
  exact ⟨rfl, live, filled.print _ _⟩

/-- The call of `mbr_get` for the hard disk. -/
theorem mbrGet_hda (ledger : Ledger image desc area held filled live system) (turns : Nat) :
    Common.mbrGet turns "hda" system =
      ((Libc.malloc sizeofMbr system.heap).within system.withHeap).andThen fun mbr system =>
        if mbr = 0 then .panicked "mbr != NULL" system
        else
          (hdOpen 0 system).andThen fun status system =>
            match status with
            | .failure =>
                (System.free mbr { system with errno := enodev }).andThen fun _ system =>
                  .returned 0 system
            | .success =>
                Common.mbrRead ⟨some hdOpen, some (hdReadSystem turns)⟩ 0 mbr system := by
  obtain ⟨entry, found, major, minor⟩ := devLookuptable_hda ledger.keys
  have driver : blockDevDriverLookuptable turns entry.major =
      some ⟨some hdOpen, some (hdReadSystem turns)⟩ := by
    rw [major]
    rfl
  simp only [Common.mbrGet, found, driver, minor]
  rfl

/-- `mbr_get` keeps the accounts, whether it gives a block or NULL. -/
theorem mbrGet {turns : Nat} {devname : String} {result : UInt32}
    (ledger : Ledger image desc area held held live system)
    (placed : ClientBuffer area.start.toNat 4096) (notFloppy : devname ≠ "fda")
    (returned : Common.mbrGet turns devname system = .returned result after) :
    ∃ live', Ledger image desc area (given result held) (given result held) live' after := by
  by_cases hda : devname = "hda"
  · rw [hda, ledger.mbrGet_hda] at returned
    obtain ⟨mbr, allocated, ran, rest⟩ := Outcome.andThen_eq_returned returned
    obtain ⟨heap, found, rfl⟩ := Outcome.within_eq_returned ran
    split at rest
    · cases rest
    · rename_i valid
      obtain ⟨live', holding⟩ := ledger.malloc found valid
      obtain ⟨status, ready, opens, rest⟩ := Outcome.andThen_eq_returned rest
      obtain ⟨live'', opened⟩ := holding.opens placed opens
      cases status with
      | failure =>
          obtain ⟨_, final, freed, rest⟩ := Outcome.andThen_eq_returned rest
          cases rest
          exact (opened.withErrno enodev).free_head freed
      | success =>
          obtain ⟨rfl, filled⟩ := opened.mbrRead placed rfl rest
          rwa [given, if_neg valid]
  · rw [Common.mbrGet, devLookuptable_unknown ledger.keys hda notFloppy] at returned
    cases returned
    exact ⟨live, ledger.withErrno enodev⟩

/-- `mbr_destroy` takes the block off the accounts. -/
theorem mbrDestroy (ledger : Ledger image desc area held held live system)
    (member : mbr ∈ held) (returned : Common.mbrDestroy mbr system = .returned () after) :
    ∃ live', Ledger image desc area (held.erase mbr) (held.erase mbr) live' after :=
  ledger.free member
    (fun _ stays => ((ledger.accounts.once.mem_erase_iff).mp stays).symm) returned

/-- The end of `mbr_get` on the hard disk ends itself when the disk reads in the end. -/
theorem mbrRead_ends (ledger : Ledger image desc area (mbr :: held) held live system)
    (placed : ClientBuffer area.start.toNat 4096) (reads : ReadsInTheEnd system.replies) :
    ∃ turns, (Common.mbrRead ⟨some hdOpen, some (hdReadSystem turns)⟩ 0 mbr system).ends =
      true := by
  have served : Served image desc system.machine.replies := ledger.served
  obtain ⟨turns, ends⟩ := hdRead_first_ends served
    (ledger.clientBuffer placed List.mem_cons_self) ledger.tracks_machine reads
  refine ⟨turns, Outcome.ends_andThen (Outcome.ends_within.trans ends) ?_⟩
  intro count final ran
  obtain ⟨rfl, _⟩ := ledger.read placed List.mem_cons_self ran
  rfl

/-- `mbr_get` ends when the disk reads in the end. -/
theorem mbrGet_ends {devname : String}
    (ledger : Ledger image desc area held held live system)
    (placed : ClientBuffer area.start.toNat 4096) (notFloppy : devname ≠ "fda")
    (reads : ReadsInTheEnd system.replies) :
    ∃ turns, (Common.mbrGet turns devname system).ends = true := by
  by_cases hda : devname = "hda"
  · simp only [hda, ledger.mbrGet_hda]
    rcases ledger.lives.malloc sizeofMbr with failed | ⟨mbr, _, heap, allocated, _, _, lives, _⟩
    · exact ⟨0, by rw [failed]; rfl⟩
    · have valid := lives.ne_zero (Function.update_self ..)
      obtain ⟨live', holding⟩ := ledger.malloc allocated valid
      simp only [allocated, Outcome.returned_within, Outcome.returned_andThen, if_neg valid]
      rcases hdOpen_opened placed holding.served holding.lives with ⟨reason, stuck, panics⟩ |
        ⟨status, after, live'', ran, opened⟩
      · exact ⟨0, by rw [panics]; rfl⟩
      · have ledger' := holding.opened opened
        simp only [ran, Outcome.returned_andThen]
        cases status with
        | failure =>
            obtain ⟨capacity, granted, _⟩ := ledger'.accounts.results mbr List.mem_cons_self
            obtain ⟨heap', freed, _⟩ := ledger'.lives.free granted
            have freed' : Libc.free mbr ({ after with errno := enodev } : System).heap =
                .returned () heap' := freed
            exact ⟨0, by rw [System.free, freed']; rfl⟩
        | success => exact ledger'.mbrRead_ends placed (reads.tail opened.tail)
  · refine ⟨0, ?_⟩
    rw [Common.mbrGet, devLookuptable_unknown ledger.keys hda notFloppy]
    rfl

end Ledger

/-- Callers of `mbr_get`, with the blocks they were given and have not given back. -/
structure MbrClient where
  system : System
  outstanding : List UInt32

/-- A call with what it gave back. -/
inductive MbrCall where
  | get (devname : String) (result : UInt32)
  | destroy (mbr : UInt32)

/-- A call that comes back. The floppy disk is not asked for, its driver has no
operations; a block is given back by the caller that has it. -/
def MbrStep (client : MbrClient) : MbrCall → MbrClient → Prop
  | .get devname result, next =>
      devname ≠ "fda" ∧
        (∃ turns, mbrGet turns devname client.system = .returned result next.system) ∧
        next.outstanding = given result client.outstanding
  | .destroy mbr, next =>
      mbr ∈ client.outstanding ∧ mbrDestroy mbr client.system = .returned () next.system ∧
        next.outstanding = client.outstanding.erase mbr

/-- The system after `heap_init`, before any device is opened. -/
def bootedSystem (area : HeapArea) (memory : Memory) (replies : Nat → Bios) : System where
  memory := (heapInit area.start memory).memory
  heapList := (heapInit area.start memory).heapList
  devices := linkedDevices
  replies := replies
  events := []
  console := []
  errno := 0

/-- What callers rely on: the blocks they hold have the first sector of the disk, of the
other blocks only that of the geometry is live, and a call ends if the disk reads in the
end. -/
structure DeliversFirst (image : Nat → UInt8) (client : MbrClient) : Prop where
  contents : ∀ mbr ∈ client.outstanding, mbr ≠ 0 ∧
    ∀ offset < 512, client.system.memory (mbr.toNat + offset) = image offset
  accounted : ∃ live, Abstracts client.system.heap live ∧
    ∀ ptr capacity, live ptr = some capacity → ptr ∈ client.outstanding ∨
      ptr ≠ 0 ∧ ptr = client.system.devGetinfo hardDiskDriver 0
  ends : ReadsInTheEnd client.system.replies → ∀ devname ≠ "fda",
    ∃ turns, (mbrGet turns devname client.system).ends = true

/-- Clients whose ledger balances. -/
def Balanced (image : Nat → UInt8) (desc : ChsDiskGeometry) (area : HeapArea)
    (client : MbrClient) : Prop :=
  ∃ live, Ledger image desc area client.outstanding client.outstanding live client.system

section Runs

variable {image : Nat → UInt8} {desc : ChsDiskGeometry} {area : HeapArea} {memory : Memory}
  {replies : Nat → Bios} {client next : MbrClient} {call : MbrCall}
  {log : List (MbrClient × MbrCall)}

/-- Nothing is live at the start. -/
theorem ledger_booted (served : Served image desc replies) :
    Ledger image desc area [] [] (fun _ => none) (bootedSystem area memory replies) where
  served := served
  keys := rfl
  lives := Lives.init area memory
  accounts := {
    results := by simp
    geometry := fun known => absurd rfl known
    nothingElse := by simp
    apart := List.not_mem_nil
    once := List.nodup_nil }
  tracks known := absurd rfl known
  holders := by simp
  contents := by simp

theorem Balanced.delivers (balanced : Balanced image desc area client)
    (placed : ClientBuffer area.start.toNat 4096) : DeliversFirst image client := by
  obtain ⟨live, ledger⟩ := balanced
  refine ⟨fun mbr member => ?_, ⟨live, ledger.lives.abstracts, fun ptr capacity granted => ?_⟩,
    fun reads _ notFloppy => ledger.mbrGet_ends placed notFloppy reads⟩
  · obtain ⟨capacity, granted, _⟩ := ledger.accounts.results mbr member
    exact ⟨ledger.lives.ne_zero granted, ledger.contents mbr member⟩
  · exact (ledger.accounts.nothingElse ptr capacity granted).imp_right fun same =>
      ⟨ledger.lives.ne_zero granted, same⟩

theorem Balanced.step (placed : ClientBuffer area.start.toNat 4096)
    (balanced : Balanced image desc area client) (step : MbrStep client call next) :
    Balanced image desc area next := by
  obtain ⟨live, ledger⟩ := balanced
  cases call with
  | get devname result =>
      obtain ⟨notFloppy, ⟨turns, returned⟩, outstanding⟩ := step
      rw [Balanced, outstanding]
      exact ledger.mbrGet placed notFloppy returned
  | destroy mbr =>
      obtain ⟨member, returned, outstanding⟩ := step
      rw [Balanced, outstanding]
      exact ledger.mbrDestroy member returned

/-- In every run of calls the blocks given out have the first sector, and nothing is live
but them and the geometry. -/
theorem mbr_delivers_without_leak (placed : ClientBuffer area.start.toNat 4096)
    (served : Served image desc replies)
    (trace : Trace MbrStep ⟨bootedSystem area memory replies, []⟩ log client) :
    DeliversFirst image client := by
  have balanced : Balanced image desc area client :=
    trace.always ⟨_, ledger_booted served⟩ (Balanced.step placed)
  exact balanced.delivers placed

end Runs

/-- A BIOS that describes a small disk and reads from it whatever is asked for. -/
def sectorBios (image : Nat → UInt8) : Bios := fun regs memory =>
  if regs.ah = 0x02 then imageBios image smallDisk regs memory
  else geometryBios false regs memory

theorem sectorBios_faulty (image : Nat → UInt8) :
    FaultyBios image smallDisk (sectorBios image) where
  quiet regs memory address request _ := by
    rw [sectorBios, if_neg request]
    rfl
  described regs memory request _ := by
    rw [sectorBios, if_neg (by rw [request]; decide)]
    show 1 ≤ (63 : UInt8) &&& ~~~0xc0 ∧ (63 : UInt8) &&& ~~~0xc0 ≤ 63 ∧ 1 ≤ (15 : UInt8) + 1
    decide
  count regs memory request := by
    rw [sectorBios, if_pos request]
    exact Or.inr rfl
  data regs memory offset request _ within := by
    rw [sectorBios, if_pos request]
    exact (imageBios_disk image smallDisk).data regs memory offset request within
  frame regs memory address request low out := by
    rw [sectorBios, if_pos request]
    exact (imageBios_disk image smallDisk).frame regs memory address request low out

/-- A boot: the first call opens the disk and reads its first sector. -/
theorem mbr_delivers_without_leak_boot :
    ∃ mbr system, mbr ≠ 0 ∧
      MbrStep ⟨bootedSystem lowHeap (fun _ => 0) fun _ => sectorBios fun _ => 0x55, []⟩
        (.get "hda" mbr) ⟨system, [mbr]⟩ ∧
      DeliversFirst (fun _ => 0x55) ⟨system, [mbr]⟩ := by
  have gets : (mbrGet 2 "hda" (bootedSystem lowHeap (fun _ => 0) fun _ =>
      sectorBios fun _ => 0x55)).passes (fun mbr _ => mbr != 0) = true := by decide +kernel
  obtain ⟨mbr, system, ran, found⟩ := Outcome.exists_of_passes gets
  have valid : mbr ≠ 0 := by simpa using found
  have step : MbrStep ⟨bootedSystem lowHeap (fun _ => 0) fun _ => sectorBios fun _ => 0x55, []⟩
      (.get "hda" mbr) ⟨system, [mbr]⟩ :=
    ⟨by decide, ⟨2, ran⟩, (if_neg valid).symm⟩
  exact ⟨mbr, system, valid, step, mbr_delivers_without_leak
    ⟨by decide, by decide, Or.inl (by decide)⟩ (fun _ => sectorBios_faulty _)
    (Trace.start.extend step)⟩

end Bootloader.Common
