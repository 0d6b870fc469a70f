import Bootloader.Common.HdDrvDelivery
import Bootloader.Common.HdDrvRange
import Bootloader.Std.Reach

/-!
# The requests of a run of `hd_read`

Every request is made at a point that the loop comes to, for the piece at the cursor
there. `forall_requests_iff` therefore turns a property of all requests of a run into one
of the points of the loop, and an invariant of the loop decides it there:
`hdRead_requests_fit` is that every piece fits the bounce buffer.
-/

namespace Bootloader.Common

open Bootloader.Std Bootloader.Arch Relation

/-- The loop of `hd_read` comes from one point to another. -/
def Gets (minor : UInt8) (desc : ChsDiskGeometry) (buffer : UInt32) :
    HdCursor × Machine → HdCursor × Machine → Prop :=
  ReflTransGen (Again (hdReadTurn minor desc buffer))

section Turns

variable {minor : UInt8} {desc : ChsDiskGeometry} {buffer : UInt32} {cursor : HdCursor}
  {machine : Machine} {point next : HdCursor × Machine} {address : Chs} {sectors : UInt8}

/-- The point behind a turn. -/
def afterTurn (minor : UInt8) (desc : ChsDiskGeometry) (buffer : UInt32)
    (point : HdCursor × Machine) : HdCursor × Machine :=
  let piece := pieceRead minor desc point.1 point.2
  (point.1.advance (pieceSize desc point.1) piece.1,
    (copyPiece buffer piece.1 piece.2).record (.advance piece.1))

/-- Without a buffer, the first piece that was read stops the driver at an assertion. -/
theorem hdReadTurn_null (left : 0 < cursor.count) :
    hdReadTurn minor desc 0 cursor machine =
      .panicked "dest != NULL" (pieceRead minor desc cursor machine).2 := by
  simp only [hdReadTurn, gt_iff_lt, if_pos left, Libc.memcpy, if_true, pieceRead]
  rfl

/-- The loop goes round again while there is something left, to the point behind the turn. -/
theorem again_iff :
    Again (hdReadTurn minor desc buffer) point next ↔
      0 < point.1.count ∧ buffer ≠ 0 ∧ next = afterTurn minor desc buffer point := by
  by_cases left : 0 < point.1.count
  · by_cases valid : buffer = 0
    · rw [Again, valid, hdReadTurn_null left]
      exact iff_of_false (fun absurd => (nomatch absurd)) fun both => both.2.1 rfl
    · rw [Again, hdReadTurn_again left valid]
      simp only [Outcome.returned.injEq, Turn.again.injEq, left, valid, ne_eq, not_false_eq_true,
        true_and]
      rw [eq_comm, @eq_comm _ _ next.2, Prod.ext_iff]
      rfl
  · rw [Again, hdReadTurn_leave (HdCursor.done left)]
    exact iff_of_false (fun absurd => (nomatch absurd)) fun both => left both.1

/-- The requests a turn adds to the record are those for its piece. -/
theorem mem_pieceRead_events :
    .request address sectors ∈ (pieceRead minor desc cursor machine).2.events ↔
      .request address sectors ∈ machine.events ∨
        pieceSize desc cursor ≠ 0 ∧ address = lbatochs desc cursor.lbaStart ∧
          sectors = pieceSize desc cursor := by
  obtain ⟨count, events, nothing⟩ := @readAttempts_events (biosHdDriveBaseNb + minor)
    (pieceSize desc cursor) segmentExtraDataRm 0 (lbatochs desc cursor.lbaStart) 5 0 machine
  rw [pieceRead, events, List.mem_append, List.mem_replicate, DiskEvent.request.injEq]
  have asked : count ≠ 0 ↔ pieceSize desc cursor ≠ 0 := by
    have attempts : ¬ 5 = 0 := by decide
    rw [Ne, nothing, or_iff_right attempts, eq_comm]
  rw [asked]

theorem mem_turn_events :
    .request address sectors ∈ (hdReadTurn minor desc buffer cursor machine).state.events ↔
      .request address sectors ∈ machine.events ∨
        (0 < cursor.count ∧ pieceSize desc cursor ≠ 0 ∧
          address = lbatochs desc cursor.lbaStart ∧ sectors = pieceSize desc cursor) := by
  by_cases left : 0 < cursor.count
  · by_cases valid : buffer = 0
    · rw [valid, hdReadTurn_null left]
      simpa [left, Outcome.state] using mem_pieceRead_events
    · rw [hdReadTurn_again left valid]
      simpa [left, Machine.record, copyPiece] using mem_pieceRead_events
  · rw [hdReadTurn_leave (HdCursor.done left)]
    simp [left]

/-- A property of requests holds of all that the loop makes when it holds of those made
before and of the one for the piece at every point it comes to. -/
theorem forall_requests_iff {Fine : Chs → UInt8 → Prop} :
    (∀ turns address sectors, .request address sectors ∈
        (loop (hdReadTurn minor desc buffer) turns cursor machine).state.events →
      Fine address sectors) ↔
      (∀ address sectors, .request address sectors ∈ machine.events → Fine address sectors) ∧
        ∀ point, Gets minor desc buffer (cursor, machine) point → 0 < point.1.count →
          pieceSize desc point.1 ≠ 0 →
            Fine (lbatochs desc point.1.lbaStart) (pieceSize desc point.1) := by
  rw [@forall_loop_state _ _ _ (hdReadTurn minor desc buffer) cursor machine fun state =>
    ∀ address sectors, .request address sectors ∈ state.events → Fine address sectors]
  refine and_congr_right fun start => ⟨fun holds point path left nonzero => ?_, fun fine => ?_⟩
  · exact holds point path _ _ (mem_turn_events.mpr (Or.inr ⟨left, nonzero, rfl, rfl⟩))
  · intro point path
    have turn (point : HdCursor × Machine) (path : Gets minor desc buffer (cursor, machine) point)
        (before : ∀ address sectors, .request address sectors ∈ point.2.events →
          Fine address sectors) (address : Chs) (sectors : UInt8)
        (asked : .request address sectors ∈
          (hdReadTurn minor desc buffer point.1 point.2).state.events) : Fine address sectors := by
      rcases mem_turn_events.mp asked with earlier | ⟨left, nonzero, rfl, rfl⟩
      · exact before address sectors earlier
      · exact fine point path left nonzero
    refine turn point path ?_
    induction path with
    | refl => exact start
    | tail earlier last inductionHypothesis =>
        have made := turn _ earlier (inductionHypothesis)
        rw [last] at made
        exact made

end Turns

section Sizes

variable {minor : UInt8} {desc : ChsDiskGeometry} {buffer lba count : UInt32}
  {devices : List Dev} {machine : Machine} {point next : HdCursor × Machine}

/-- When a piece is not cut to the track, the size left over from the one before has at
least one sector and at most a whole track of them. -/
def Sized (desc : ChsDiskGeometry) (cursor : HdCursor) : Prop :=
  0 < cursor.count → cursor.count.toNat ≤ desc.ns.toNat →
    0 < cursor.nbSectorsToRead.toNat ∧ cursor.nbSectorsToRead.toNat ≤ desc.ns.toNat

theorem Sized.pieceSize_bounds {cursor : HdCursor} (sized : Sized desc cursor)
    (positive : 0 < desc.ns.toNat) (left : 0 < cursor.count) :
    0 < (pieceSize desc cursor).toNat ∧ (pieceSize desc cursor).toNat ≤ desc.ns.toNat :=
  Common.pieceSize_bounds positive (sized left)

/-- The first size is the count itself where it is no more than a track. -/
theorem sized_start (track : desc.ns.toNat ≤ 128) :
    Sized desc ⟨0, lba, count, count.toUInt8⟩ := by
  intro left short
  have positive := UInt32.lt_iff_toNat_lt.mp left
  simp only [UInt32.toNat_zero] at positive short
  have byte : count.toUInt8.toNat = count.toNat := by
    rw [UInt32.toNat_toUInt8]
    omega
  simp only [byte]
  exact ⟨positive, short⟩

/-- Whatever the BIOS reports, the size of the piece is what the next one finds. -/
theorem Sized.turn (sized : Sized desc point.1) (positive : 0 < desc.ns.toNat)
    (turn : Again (hdReadTurn minor desc buffer) point next) : Sized desc next.1 := by
  obtain ⟨left, _, rfl⟩ := again_iff.mp turn
  exact fun _ _ => sized.pieceSize_bounds positive left

theorem Sized.path (sized : Sized desc point.1) (positive : 0 < desc.ns.toNat)
    (path : Gets minor desc buffer point next) : Sized desc next.1 := by
  induction path with
  | refl => exact sized
  | tail earlier last inductionHypothesis => exact inductionHypothesis.turn positive last

/-- A read stops at an assertion, or its range and its tracks are within bounds. -/
theorem hdRead_bounded (known : devGetinfo hardDiskDriver minor machine.devices = some desc) :
    (∃ reason, ∀ turns, hdRead turns minor lba count buffer machine =
        .panicked reason machine) ∨
      (desc.ns.toNat ≤ 128 ∧ lba < desc.nlba ∧ lba + count ≤ desc.nlba) := by
  by_cases track : desc.ns.toUInt32 ≤ segmentSize16bitMode / sectorSize
  · by_cases inside : lba < desc.nlba
    · by_cases range : lba + count ≤ desc.nlba
      · rw [UInt32.le_iff_toNat_le, UInt8.toNat_toUInt32] at track
        exact Or.inr ⟨track, inside, range⟩
      · exact Or.inl ⟨_, fun turns => by simp only [hdRead, known, track, inside, range]; rfl⟩
    · exact Or.inl ⟨_, fun turns => by simp only [hdRead, known, track, inside]; rfl⟩
  · exact Or.inl ⟨_, fun turns => by simp only [hdRead, known, track]; rfl⟩

/-- Whatever the BIOS answers, every request of `hd_read` asks for at least one sector and
at most a track, which the bounce buffer has room for. -/
theorem hdRead_requests_fit (known : devGetinfo hardDiskDriver minor devices = some desc)
    (positive : 1 ≤ desc.ns) (lba count buffer : UInt32) (replies : Nat → Bios)
    (memory : Memory) (turns : Nat) (address : Chs) (sectors : UInt8)
    (asked : .request address sectors ∈
      (hdRead turns minor lba count buffer (freshMachine devices replies memory)).state.events) :
    1 ≤ sectors.toNat ∧ sectors.toNat ≤ desc.ns.toNat ∧
      sectors.toNat * 512 ≤ segmentSize16bitMode.toNat := by
  have segment : segmentSize16bitMode.toNat = 65536 := rfl
  rcases @hdRead_bounded minor desc buffer lba count (freshMachine devices replies memory) known
    with ⟨reason, stops⟩ | ⟨track, inside, range⟩
  · rw [stops] at asked
    exact absurd asked List.not_mem_nil
  · rw [hdRead_loop known track inside range] at asked
    have atLeast := UInt8.le_iff_toNat_le.mp positive
    have fine := (@forall_requests_iff minor desc buffer ⟨0, lba, count, count.toUInt8⟩
      (freshMachine devices replies memory) fun _ sectors =>
        0 < sectors.toNat ∧ sectors.toNat ≤ desc.ns.toNat).mpr
      ⟨fun _ _ absurd => (nomatch absurd), fun point path left _ =>
        ((sized_start track).path atLeast path).pieceSize_bounds atLeast left⟩
    obtain ⟨least, most⟩ := fine turns address sectors asked
    exact ⟨least, most, by omega⟩

/-- One sector more than a track, of which the BIOS reports nothing at first. -/
theorem hdRead_requests_fit_idle :
    .request ⟨0, 0, 1⟩ 63 ∈ (hdRead 2 0 0 64 0x100000 (freshMachine openDevices
        (answering 0 5 fullReplies) fun _ => 0)).state.events ∧
      1 ≤ (63 : UInt8).toNat ∧ (63 : UInt8).toNat ≤ smallDisk.ns.toNat ∧
        (63 : UInt8).toNat * 512 ≤ segmentSize16bitMode.toNat := by
  have asked : .request ⟨0, 0, 1⟩ 63 ∈ (hdRead 2 0 0 64 0x100000 (freshMachine openDevices
      (answering 0 5 fullReplies) fun _ => 0)).state.events := by
    decide +kernel
  exact ⟨asked, hdRead_requests_fit rfl (by decide) 0 64 0x100000 _ _ 2 ⟨0, 0, 1⟩ 63 asked⟩

/-- A point that `hd_read` comes to for a request that passes its assertions on a disk. -/
structure Visits (minor : UInt8) (desc : ChsDiskGeometry) (lba count buffer : UInt32)
    (machine : Machine) (point : HdCursor × Machine) : Prop where
  known : devGetinfo hardDiskDriver minor machine.devices = some desc
  track : desc.ns.toNat ≤ 128
  inside : lba < desc.nlba
  range : lba + count ≤ desc.nlba
  path : Gets minor desc buffer (⟨0, lba, count, count.toUInt8⟩, machine) point

/-- From such a point on, the read is the loop. -/
theorem Visits.run (visits : Visits minor desc lba count buffer machine point) :
    ∃ made, ∀ turns, hdRead (made + turns) minor lba count buffer machine =
      loop (hdReadTurn minor desc buffer) turns point.1 point.2 := by
  obtain ⟨made, same⟩ := loop_from visits.path
  refine ⟨made, fun turns => ?_⟩
  rw [hdRead_loop visits.known visits.track visits.inside visits.range, same]

end Sizes

end Bootloader.Common
