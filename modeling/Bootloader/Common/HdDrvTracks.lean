import Bootloader.Common.HdDrvFaults
import Bootloader.Common.HdDrvRequests
import Bootloader.Std.Sweep

/-!
# The pieces of `hd_read` as a sweep

While every piece is read in full, the loop of `hd_read` is a sweep over the sector
numbers: around the 2^32 of them, in tracks of the disk, towards the end of the range.
`OnCourse.path` and `exists_point` are the two halves of that correspondence. From it follow
the ranges whose requests all stay within a track, and those for which the loop ends.
-/

namespace Bootloader.Common

open Bootloader.Std Bootloader.Arch Relation

/-- The sector numbers of 32 bits, in tracks of the disk, with the end of a range. -/
def course {desc : ChsDiskGeometry} (positive : 0 < desc.ns.toNat) {finish : Nat}
    (inside : finish ≤ desc.nlba.toNat) : Course where
  size := 2 ^ 32
  width := desc.ns.toNat
  finish := finish
  positive := positive
  inside := Nat.lt_of_le_of_lt inside desc.nlba.toNat_lt
  wide := by
    have sectors := desc.ns.toNat_lt
    omega

/-- Where the sweep is when the loop of `hd_read` is at a cursor. -/
def HdCursor.sweep (cursor : HdCursor) : Sweep :=
  ⟨cursor.lbaStart.toNat, cursor.nbSectorsToRead.toNat⟩

section Course

variable {minor : UInt8} {desc : ChsDiskGeometry} {buffer : UInt32} {finish : Nat}
  {cursor : HdCursor} {point next start : HdCursor × Machine}

/-- What is left to read is what is left of the sweep. -/
def OnCourse (around : Course) (cursor : HdCursor) : Prop :=
  cursor.count.toNat = around.left cursor.lbaStart.toNat

/-- The piece at a point is read in full by one of its attempts. -/
def Answered (minor : UInt8) (desc : ChsDiskGeometry) (point : HdCursor × Machine) : Prop :=
  (pieceRead minor desc point.1 point.2).1 = pieceSize desc point.1

variable {positive : 0 < desc.ns.toNat} {inside : finish ≤ desc.nlba.toNat}

theorem OnCourse.left_iff (onCourse : OnCourse (course positive inside) cursor) :
    (course positive inside).left cursor.sweep.position ≠ 0 ↔ 0 < cursor.count := by
  rw [HdCursor.sweep, ← onCourse, UInt32.lt_iff_toNat_lt, UInt32.toNat_zero]
  exact Nat.pos_iff_ne_zero.symm

/-- The driver computes the piece of the sweep. -/
theorem OnCourse.piece (onCourse : OnCourse (course positive inside) cursor) :
    (pieceSize desc cursor).toNat = (course positive inside).piece cursor.sweep := by
  have count : cursor.count.toNat = (course positive inside).left cursor.sweep.position := onCourse
  by_cases long : desc.ns.toNat < cursor.count.toNat
  · rw [pieceSize_track positive cursor long, Course.piece_cut (count ▸ long)]
    rfl
  · rw [pieceSize_stale (Nat.not_lt.mp long),
      Course.piece_stale (count ▸ Nat.not_lt.mp long)]
    rfl

/-- A piece read in full is a piece of the sweep. -/
theorem OnCourse.advance (onCourse : OnCourse (course positive inside) cursor) :
    OnCourse (course positive inside) (cursor.advance (pieceSize desc cursor)
        (pieceSize desc cursor)) ∧
      (cursor.advance (pieceSize desc cursor) (pieceSize desc cursor)).sweep =
        (course positive inside).next cursor.sweep := by
  have piece := onCourse.piece
  have bound := desc.nlba.toNat_lt
  have lba := cursor.lbaStart.toNat_lt
  have small := (pieceSize desc cursor).toNat_lt
  have moved : (cursor.advance (pieceSize desc cursor) (pieceSize desc cursor)).lbaStart.toNat =
      (cursor.lbaStart.toNat + (pieceSize desc cursor).toNat) % 2 ^ 32 := by
    rw [HdCursor.advance, UInt32.toNat_add, UInt8.toNat_toUInt32]
  have counted : (cursor.advance (pieceSize desc cursor) (pieceSize desc cursor)).count.toNat =
      (2 ^ 32 - (pieceSize desc cursor).toNat + cursor.count.toNat) % 2 ^ 32 := by
    rw [HdCursor.advance, UInt32.toNat_sub, UInt8.toNat_toUInt32]
  constructor
  · rw [OnCourse, Course.left] at onCourse ⊢
    rw [moved, counted, onCourse]
    simp only [course]
    omega
  · apply Sweep.ext
    · rw [HdCursor.sweep, moved, piece]
      rfl
    · rw [HdCursor.sweep, Course.next, ← piece]
      rfl

theorem afterTurn_answered (answered : Answered minor desc point) :
    (afterTurn minor desc buffer point).1 =
      point.1.advance (pieceSize desc point.1) (pieceSize desc point.1) :=
  congrArg (point.1.advance (pieceSize desc point.1)) answered

section Answered

variable (onCourse : OnCourse (course positive inside) start.1)
  (full : ∀ point, Gets minor desc buffer start point → 0 < point.1.count →
    Answered minor desc point)

include onCourse full

/-- The points the loop comes to are on the way of the sweep. -/
theorem OnCourse.path (path : Gets minor desc buffer start point) :
    OnCourse (course positive inside) point.1 ∧
      ReflTransGen (course positive inside).Step start.1.sweep point.1.sweep := by
  induction path with
  | refl => exact ⟨onCourse, .refl⟩
  | tail earlier last inductionHypothesis =>
      obtain ⟨here, swept⟩ := inductionHypothesis
      obtain ⟨left, _, rfl⟩ := again_iff.mp last
      obtain ⟨there, moved⟩ := here.advance
      rw [afterTurn_answered (full _ earlier left)]
      exact ⟨there, swept.tail ⟨here.left_iff.mpr left, moved⟩⟩

/-- The loop comes to every place on the way of the sweep. -/
theorem exists_point (valid : buffer ≠ 0) {sweep : Sweep}
    (swept : ReflTransGen (course positive inside).Step start.1.sweep sweep) :
    ∃ point, Gets minor desc buffer start point ∧ point.1.sweep = sweep := by
  induction swept with
  | refl => exact ⟨start, .refl, rfl⟩
  | tail earlier last inductionHypothesis =>
      obtain ⟨point, path, rfl⟩ := inductionHypothesis
      obtain ⟨here, _⟩ := onCourse.path full path
      obtain ⟨_, moved⟩ := here.advance
      have left := here.left_iff.mp last.1
      refine ⟨_, path.tail (again_iff.mpr ⟨left, valid, rfl⟩), ?_⟩
      rw [afterTurn_answered (full _ path left), moved]
      exact last.2.symm

/-- Every piece of the loop stays within a track when every piece of the sweep does. -/
theorem pieces_within_iff (valid : buffer ≠ 0) :
    (∀ point, Gets minor desc buffer start point → 0 < point.1.count →
      pieceSize desc point.1 ≠ 0 →
        point.1.lbaStart.toNat % desc.ns.toNat + (pieceSize desc point.1).toNat ≤
          desc.ns.toNat) ↔
      AllAlong (course positive inside).Step (course positive inside).Within start.1.sweep := by
  constructor
  · rintro fits sweep swept more
    obtain ⟨point, path, rfl⟩ := exists_point onCourse full valid swept
    obtain ⟨here, _⟩ := onCourse.path full path
    rw [← here.piece]
    by_cases empty : pieceSize desc point.1 = 0
    · rw [empty]
      exact Nat.le_of_lt (Nat.mod_lt _ positive)
    · exact fits point path (here.left_iff.mp more) empty
  · intro within point path left _
    obtain ⟨here, swept⟩ := onCourse.path full path
    have fits := within _ swept (here.left_iff.mpr left)
    rwa [← here.piece] at fits

/-- Every request of the loop stays within a track when every piece of the sweep does. -/
theorem requests_within_iff (valid : buffer ≠ 0) (fresh : start.2.events = []) :
    (∀ turns address sectors, .request address sectors ∈
        (loop (hdReadTurn minor desc buffer) turns start.1 start.2).state.events →
      address.s.toNat + sectors.toNat - 1 ≤ desc.ns.toNat) ↔
      AllAlong (course positive inside).Step (course positive inside).Within start.1.sweep := by
  rw [forall_requests_iff, fresh, ← pieces_within_iff onCourse full valid]
  have nothing : ∀ (address : Chs) (sectors : UInt8),
      .request address sectors ∈ ([] : List DiskEvent) →
        address.s.toNat + sectors.toNat - 1 ≤ desc.ns.toNat :=
    fun _ _ member => absurd member List.not_mem_nil
  rw [and_iff_right nothing]
  refine forall₄_congr fun point path left nonzero => ?_
  rw [lbatochs_s point.1.lbaStart positive]
  omega

/-- The loop comes to where nothing is left when the sweep comes to its finish. -/
theorem done_iff (valid : buffer ≠ 0) :
    (∃ point, Gets minor desc buffer start point ∧ point.1.count = 0) ↔
      ComesTo (course positive inside).Step (course positive inside).Done start.1.sweep := by
  have zero {cursor : HdCursor} : cursor.count = 0 ↔ ¬ 0 < cursor.count := by
    rw [UInt32.pos_iff_ne_zero, not_not]
  constructor
  · rintro ⟨point, path, done⟩
    obtain ⟨here, swept⟩ := onCourse.path full path
    exact ⟨_, swept, not_not.mp (mt here.left_iff.mp (zero.mp done))⟩
  · rintro ⟨sweep, swept, done⟩
    obtain ⟨point, path, rfl⟩ := exists_point onCourse full valid swept
    obtain ⟨here, _⟩ := onCourse.path full path
    exact ⟨point, path, zero.mpr (mt here.left_iff.mpr (not_not_intro done))⟩

end Answered

/-- The loop is left where nothing is left to read. -/
theorem done_of_leaves {machine final : Machine} {value : Int32}
    (leaves : hdReadTurn minor desc buffer cursor machine = .returned (.leave value) final) :
    cursor.count = 0 ∧ final = machine := by
  by_cases left : 0 < cursor.count
  · by_cases valid : buffer = 0
    · rw [valid, hdReadTurn_null left] at leaves
      cases leaves
    · rw [hdReadTurn_again left valid] at leaves
      cases leaves
  · rw [hdReadTurn_leave (HdCursor.done left)] at leaves
    cases leaves
    exact ⟨HdCursor.done left, rfl⟩

/-- The loop returns when it comes to where nothing is left to read. -/
theorem returns_iff {machine : Machine} :
    (∃ turns value final,
      loop (hdReadTurn minor desc buffer) turns cursor machine = .returned value final) ↔
      ∃ point, Gets minor desc buffer (cursor, machine) point ∧ point.1.count = 0 := by
  constructor
  · rintro ⟨turns, value, final, ran⟩
    obtain ⟨point, path, leaves⟩ := loop_returns_iff.mp ⟨turns, ran⟩
    exact ⟨point, path, (done_of_leaves leaves).1⟩
  · rintro ⟨point, path, done⟩
    obtain ⟨turns, ran⟩ := loop_returns_iff.mpr ⟨point, path, hdReadTurn_leave done⟩
    exact ⟨turns, _, _, ran⟩

end Course

section Replies

variable {minor nbSectorsToRead driveNb : UInt8} {segment offset : UInt16} {address : Chs}
  {desc : ChsDiskGeometry} {buffer : UInt32} {start point : HdCursor × Machine}

/-- The attempts use up some of the answers. -/
theorem readAttempts_tail (attempts : Nat) (nbReadSectors : UInt8) (machine : Machine) :
    Tail machine.replies (readAttempts driveNb segment offset address nbSectorsToRead attempts
      nbReadSectors machine).2.replies := by
  induction attempts generalizing nbReadSectors machine with
  | zero => exact Tail.refl _
  | succ attempts inductionHypothesis =>
      by_cases again : nbReadSectors ≠ nbSectorsToRead
      · rw [readAttempts_succ again]
        have used : Tail machine.replies
            (diskReadSectors driveNb segment offset address nbSectorsToRead machine).2.replies :=
          ⟨1, rfl⟩
        exact used.trans (inductionHypothesis _ _)
      · rw [readAttempts, if_neg again]
        exact Tail.refl _

theorem Gets.tail (path : Gets minor desc buffer start point) :
    Tail start.2.replies point.2.replies := by
  induction path with
  | refl => exact Tail.refl _
  | tail earlier last inductionHypothesis =>
      obtain ⟨_, _, rfl⟩ := again_iff.mp last
      exact inductionHypothesis.trans (readAttempts_tail _ _ _)

/-- A disk that answers in full answers every piece. -/
theorem answered_of_readsInFull (full : ∀ index, ReadsInFull (start.2.replies index))
    (path : Gets minor desc buffer start point) : Answered minor desc point := by
  obtain ⟨used, later⟩ := path.tail
  by_cases empty : pieceSize desc point.1 = 0
  · rw [Answered, pieceRead, empty]
    rfl
  · have reply : ReadsInFull (point.2.replies 0) := by
      rw [later]
      exact full _
    have first : (diskReadSectors (biosHdDriveBaseNb + minor) segmentExtraDataRm 0
        (lbatochs desc point.1.lbaStart) (pieceSize desc point.1) point.2).1 =
          pieceSize desc point.1 := reply _ _ rfl
    rw [Answered, pieceRead, readAttempts_succ (Ne.symm empty), readAttempts,
      if_neg (not_not_intro first), first]

end Replies

section Ranges

variable {minor : UInt8} {desc : ChsDiskGeometry} {lba count buffer : UInt32}
  {devices : List Dev} {replies : Nat → Bios}

/-- The course of a range, at its start. -/
theorem onCourse_start (positive : 0 < desc.ns.toNat)
    (inside : lba.toNat + count.toNat ≤ desc.nlba.toNat) :
    OnCourse (course positive inside) ⟨0, lba, count, count.toUInt8⟩ := by
  have left := @Course.left_before (course positive inside) lba.toNat (Nat.le_add_right _ _)
  rw [OnCourse, left]
  exact (Nat.add_sub_cancel_left _ _).symm

/-- A count of no more than a track is its own first size. -/
theorem first_size {positive : 0 < desc.ns.toNat}
    {inside : lba.toNat + count.toNat ≤ desc.nlba.toNat}
    (track : desc.ns.toNat ≤ 128)
    (near : (course positive inside).finish - lba.toNat ≤ (course positive inside).width) :
    count.toUInt8.toNat = count.toNat ∧
      (course positive inside).finish - lba.toNat = count.toUInt8.toNat := by
  have left : (course positive inside).finish - lba.toNat = count.toNat :=
    Nat.add_sub_cancel_left _ _
  have width : (course positive inside).width = desc.ns.toNat := rfl
  have byte : count.toUInt8.toNat = count.toNat := by
    rw [UInt32.toNat_toUInt8]
    omega
  exact ⟨byte, left.trans byte.symm⟩

/-- A range within the disk passes the assertions. -/
theorem range_passes (inside : lba.toNat + count.toNat ≤ desc.nlba.toNat) :
    lba + count ≤ desc.nlba := by
  have bound := desc.nlba.toNat_lt
  rw [UInt32.le_iff_toNat_le, toNat_add_of_lt (by omega)]
  exact inside

/-- The ranges for which `hd_read` keeps every request within a track, on a disk that
answers in full: the disk is refused, or the pieces of the first lap stay within a track,
and those of the lap from the entry do if the first one misses the end of the range. -/
theorem hdRead_within_tracks_iff (known : devGetinfo hardDiskDriver minor devices = some desc)
    (positive : 0 < desc.ns.toNat) (atLeastOne : 1 ≤ count)
    (inside : lba.toNat + count.toNat ≤ desc.nlba.toNat) (valid : buffer ≠ 0)
    (full : ∀ index, ReadsInFull (replies index)) (memory : Memory) :
    (∀ turns address sectors, .request address sectors ∈
        (hdRead turns minor lba count buffer
          (freshMachine devices replies memory)).state.events →
      address.s.toNat + sectors.toNat - 1 ≤ desc.ns.toNat) ↔
      128 < desc.ns.toNat ∨
        (course positive inside).LapWithin lba.toNat count.toNat ∧
          ((course positive inside).LapEnds lba.toNat count.toNat ∨
            (course positive inside).LapWithin (course positive inside).entry desc.ns.toNat) := by
  have one := UInt32.le_iff_toNat_le.mp atLeastOne
  rw [UInt32.toNat_one] at one
  by_cases track : desc.ns.toNat ≤ 128
  · have below : lba < desc.nlba := by
      rw [UInt32.lt_iff_toNat_lt]
      omega
    have size := @first_size desc lba count positive inside track
    have sweep := @Course.within_iff (course positive inside) lba.toNat count.toUInt8.toNat
      (by simp only [course]; omega) fun near => (size near).2
    rw [or_iff_right (Nat.not_lt.mpr track),
      ← Course.lapWithin_congr fun near => (size near).1,
      ← Course.lapEnds_congr fun near => (size near).1]
    have known' : devGetinfo hardDiskDriver minor (freshMachine devices replies memory).devices =
        Option.some desc := known
    refine Iff.trans ?_ sweep
    simp only [hdRead_loop known' track below (range_passes inside)]
    exact @requests_within_iff minor desc buffer _
      (⟨0, lba, count, count.toUInt8⟩, freshMachine devices replies memory) positive inside
      (onCourse_start positive inside) (fun point path _ => answered_of_readsInFull full path) valid
      rfl
  · refine iff_of_true (fun turns address sectors asked => ?_) (Or.inl (Nat.not_le.mp track))
    rcases @hdRead_bounded minor desc buffer lba count (freshMachine devices replies memory) known
      with ⟨reason, stops⟩ | ⟨narrow, _⟩
    · rw [stops] at asked
      exact absurd asked List.not_mem_nil
    · exact absurd narrow track

/-- Two tracks are read in two pieces that each stay within one; eighty sectors from the middle
of a track are not. -/
theorem hdRead_within_tracks_iff_twoTracks :
    (∀ turns address sectors, .request address sectors ∈
        (hdRead turns 0 0 126 0x100000
          (freshMachine openDevices fullReplies fun _ => 0)).state.events →
      address.s.toNat + sectors.toNat - 1 ≤ smallDisk.ns.toNat) ∧
    ¬ ∀ turns address sectors, .request address sectors ∈
        (hdRead turns 0 40 80 0x100000
          (freshMachine openDevices fullReplies fun _ => 0)).state.events →
      address.s.toNat + sectors.toNat - 1 ≤ smallDisk.ns.toNat := by
  constructor
  · apply (hdRead_within_tracks_iff rfl smallDisk_exact.sectors (by decide) (by decide) (by decide)
      (fun _ _ _ _ => rfl) _).mpr
    exact Or.inr ⟨by decide, Or.inl (by decide)⟩
  · intro within
    have holds := (hdRead_within_tracks_iff rfl smallDisk_exact.sectors (by decide) (by decide)
      (by decide) (fun _ _ _ _ => rfl) _).mp within
    exact absurd holds (by decide)

/-- Ten sectors from the last three of a track are asked for at once. -/
theorem hdRead_crosses_track :
    ¬ ∀ turns address sectors, .request address sectors ∈
        (hdRead turns 0 60 10 0x100000
          (freshMachine openDevices fullReplies fun _ => 0)).state.events →
      address.s.toNat + sectors.toNat - 1 ≤ smallDisk.ns.toNat := by
  intro within
  have asked : .request ⟨0, 0, 61⟩ 10 ∈ (hdRead 1 0 60 10 0x100000
      (freshMachine openDevices fullReplies fun _ => 0)).state.events := by
    decide +kernel
  exact absurd (within 1 ⟨0, 0, 61⟩ 10 asked) (by decide)

end Ranges

/-- A read that gives up on a dead disk: it returns, and has read less than it was asked for
when the attempts for some piece have all failed. -/
structure GivesUp (minor : UInt8) (desc : ChsDiskGeometry) (lba count buffer : UInt32)
    (machine : Machine) : Prop where
  returns : ∃ turns value final,
    hdRead turns minor lba count buffer machine = .returned value final
  short : ∀ point, Visits minor desc lba count buffer machine point → 0 < point.1.count →
    ¬ Answered minor desc point → ∀ turns value final,
      hdRead turns minor lba count buffer machine = .returned value final →
        taken final.events * 512 < count.toNat * 512

section DeadDisks

variable {minor : UInt8} {desc : ChsDiskGeometry} {lba count buffer : UInt32}
  {devices : List Dev} {replies : Nat → Bios} {start point : HdCursor × Machine}
  {machine : Machine}

/-- The attempts for a piece take nothing over. -/
theorem taken_pieceRead (cursor : HdCursor) :
    taken (pieceRead minor desc cursor machine).2.events = taken machine.events := by
  obtain ⟨times, events, _⟩ := @readAttempts_events (biosHdDriveBaseNb + minor)
    (pieceSize desc cursor) segmentExtraDataRm 0 (lbatochs desc cursor.lbaStart) 5 0 machine
  rw [pieceRead, events, taken_append, taken_requests, Nat.add_zero]

/-- What has been taken over and what is left make up the count, in 32 bits. -/
theorem taken_left (path : Gets minor desc buffer start point) (fresh : start.2.events = []) :
    (taken point.2.events + point.1.count.toNat) % 2 ^ 32 = start.1.count.toNat := by
  induction path with
  | refl =>
      rw [fresh, taken, Nat.zero_add, Nat.mod_eq_of_lt start.1.count.toNat_lt]
  | @tail middle next earlier last inductionHypothesis =>
      obtain ⟨_, _, rfl⟩ := again_iff.mp last
      have bound := middle.1.count.toNat_lt
      have small := (pieceRead minor desc middle.1 middle.2).1.toNat_lt
      have counted : (afterTurn minor desc buffer middle).1.count.toNat =
          (2 ^ 32 - (pieceRead minor desc middle.1 middle.2).1.toNat + middle.1.count.toNat) %
            2 ^ 32 := by
        rw [afterTurn, HdCursor.advance, UInt32.toNat_sub, UInt8.toNat_toUInt32]
      have more : taken (afterTurn minor desc buffer middle).2.events =
          taken middle.2.events + (pieceRead minor desc middle.1 middle.2).1.toNat := by
        rw [← @taken_pieceRead minor desc middle.2 middle.1]
        exact taken_append _ [.advance _]
      rw [counted, more]
      omega

/-- A read that comes back has taken over no less than it was asked for. -/
theorem count_le_taken {turns : Nat} {value : Int32} {final : Machine}
    (fresh : start.2.events = [])
    (ran : loop (hdReadTurn minor desc buffer) turns start.1 start.2 = .returned value final) :
    start.1.count.toNat ≤ taken final.events := by
  obtain ⟨point, path, leaves⟩ := loop_returns_iff.mp ⟨turns, ran⟩
  obtain ⟨done, rfl⟩ := done_of_leaves leaves
  have made := taken_left path fresh
  rw [done, UInt32.toNat_zero] at made
  rw [← made]
  exact Nat.mod_le _ _

/-- The points of a read that passes the assertions are those of its loop. -/
theorem visits_iff (known : devGetinfo hardDiskDriver minor machine.devices = some desc)
    (track : desc.ns.toNat ≤ 128) (below : lba < desc.nlba) (range : lba + count ≤ desc.nlba) :
    Visits minor desc lba count buffer machine point ↔
      Gets minor desc buffer (⟨0, lba, count, count.toUInt8⟩, machine) point :=
  ⟨Visits.path, fun path => ⟨known, track, below, range, path⟩⟩

/-- With every piece answered in full, a read ends for the ranges whose sweep does. -/
theorem hdRead_returns_iff (known : devGetinfo hardDiskDriver minor machine.devices = some desc)
    (positive : 0 < desc.ns.toNat) (track : desc.ns.toNat ≤ 128) (below : lba < desc.nlba)
    (inside : lba.toNat + count.toNat ≤ desc.nlba.toNat) (valid : buffer ≠ 0)
    (full : ∀ point, Visits minor desc lba count buffer machine point → 0 < point.1.count →
      Answered minor desc point) :
    (∃ turns value final,
      hdRead turns minor lba count buffer machine = .returned value final) ↔
      (course positive inside).LapEnds lba.toNat count.toNat ∨
        (course positive inside).LapEnds (course positive inside).entry desc.ns.toNat := by
  have size := @first_size desc lba count positive inside track
  have sweep := @Course.comesTo_iff (course positive inside) lba.toNat count.toUInt8.toNat
    (Nat.le_add_right _ _) fun near => (size near).2
  have full' (point : HdCursor × Machine)
      (path : Gets minor desc buffer (⟨0, lba, count, count.toUInt8⟩, machine) point) :
      0 < point.1.count → Answered minor desc point :=
    full point ((visits_iff known track below (range_passes inside)).mpr path)
  have ends := @done_iff minor desc buffer _ (⟨0, lba, count, count.toUInt8⟩, machine)
    positive inside (onCourse_start positive inside) full' valid
  simp only [hdRead_loop known track below (range_passes inside)]
  rw [← Course.lapEnds_congr fun near => (size near).1]
  exact returns_iff.trans (ends.trans sweep)

/-- A read never returns with less than it was asked for, so that it does not give up on a
disk that fails a piece. -/
theorem GivesUp.answered (gives : GivesUp minor desc lba count buffer machine)
    (fresh : machine.events = [])
    (visits : Visits minor desc lba count buffer machine point) (left : 0 < point.1.count) :
    Answered minor desc point := by
  by_contra failed
  obtain ⟨turns, value, final, ran⟩ := gives.returns
  have less := gives.short point visits left failed turns value final ran
  rw [hdRead_loop visits.known visits.track visits.inside visits.range] at ran
  have enough := @count_le_taken minor desc buffer
    (⟨0, lba, count, count.toUInt8⟩, machine) turns value final fresh ran
  simp only at enough
  omega

/-- The runs in which `hd_read` gives up on a dead disk: those of a range whose pieces lead to
its end, in the first lap or in the lap from the entry, on a disk that answers each of them
in full. -/
theorem hdRead_givesUp_iff (known : devGetinfo hardDiskDriver minor devices = some desc)
    (positive : 0 < desc.ns.toNat) (track : desc.ns.toNat ≤ 128) (below : lba < desc.nlba)
    (inside : lba.toNat + count.toNat ≤ desc.nlba.toNat) (valid : buffer ≠ 0)
    (replies : Nat → Bios) (memory : Memory) :
    GivesUp minor desc lba count buffer (freshMachine devices replies memory) ↔
      ((course positive inside).LapEnds lba.toNat count.toNat ∨
        (course positive inside).LapEnds (course positive inside).entry desc.ns.toNat) ∧
      ∀ point, Visits minor desc lba count buffer (freshMachine devices replies memory) point →
        0 < point.1.count → Answered minor desc point := by
  have returns := @hdRead_returns_iff minor desc lba count buffer
    (freshMachine devices replies memory) known positive track below inside valid
  constructor
  · intro gives
    have full (point : HdCursor × Machine)
        (visits : Visits minor desc lba count buffer (freshMachine devices replies memory) point)
        (left : 0 < point.1.count) : Answered minor desc point :=
      gives.answered rfl visits left
    exact ⟨(returns full).mp gives.returns, full⟩
  · rintro ⟨ends, full⟩
    exact ⟨(returns full).mpr ends, fun point visits left failed =>
      absurd (full point visits left) failed⟩

/-- Two tracks in two pieces, from a disk that answers in full. -/
theorem hdRead_givesUp_iff_twoTracks :
    GivesUp 0 smallDisk 0 126 0x100000 (freshMachine openDevices fullReplies fun _ => 0) := by
  apply (hdRead_givesUp_iff rfl smallDisk_exact.sectors (by decide) (by decide) (by decide) (by decide)
    fullReplies _).mpr
  exact ⟨Or.inl (by decide), fun _ visits _ =>
    answered_of_readsInFull (fun _ _ _ _ => rfl) visits.path⟩

/-- A BIOS that reports no sector read, whatever it is asked for. -/
def deadReplies : Nat → Bios := fun _ regs memory => ({ regs with al := 0 }, memory)

/-- No number of attempts reads anything from a dead disk. -/
theorem readAttempts_dead (driveNb : UInt8) (segment offset : UInt16) (address : Chs)
    (nbSectorsToRead : UInt8) (attempts : Nat) (dead : machine.replies = deadReplies) :
    (readAttempts driveNb segment offset address nbSectorsToRead attempts 0 machine).1 = 0 := by
  induction attempts generalizing machine with
  | zero => rfl
  | succ attempts inductionHypothesis =>
      by_cases again : 0 ≠ nbSectorsToRead
      · have nothing : (diskReadSectors driveNb segment offset address nbSectorsToRead machine).1 =
            0 := by
          simp only [diskReadSectors, Machine.int13, Machine.record, dead, deadReplies]
        rw [readAttempts_succ again, nothing]
        apply inductionHypothesis
        simp only [diskReadSectors, Machine.int13, Machine.record, dead]
        rfl
      · rw [readAttempts, if_neg again]

/-- A dead disk leaves as much to read as there was. -/
theorem dead_stays (dead : start.2.replies = deadReplies)
    (path : Gets minor desc buffer start point) : point.1.count = start.1.count := by
  induction path with
  | refl => rfl
  | @tail middle next earlier last inductionHypothesis =>
      obtain ⟨_, _, rfl⟩ := again_iff.mp last
      obtain ⟨used, later⟩ := Gets.tail earlier
      have nothing : (pieceRead minor desc middle.1 middle.2).1 = 0 :=
        readAttempts_dead _ _ _ _ _ _ (by rw [later, dead]; rfl)
      rw [afterTurn, nothing, HdCursor.advance, inductionHypothesis]
      exact UInt32.sub_zero start.1.count

/-- From a dead disk `hd_read` does not come back. -/
theorem hdRead_never_gives_up :
    ¬ GivesUp 0 smallDisk 0 1 0x100000 (freshMachine openDevices deadReplies fun _ => 0) := by
  intro gives
  obtain ⟨turns, value, final, ran⟩ := gives.returns
  have known : devGetinfo hardDiskDriver 0
      (freshMachine openDevices deadReplies fun _ => 0).devices = some smallDisk := rfl
  rw [hdRead_loop known (by decide) (by decide) (by decide)] at ran
  obtain ⟨point, path, done⟩ := returns_iff.mp ⟨turns, value, final, ran⟩
  have stays := dead_stays rfl path
  rw [done] at stays
  exact absurd stays (by decide)

end DeadDisks

end Bootloader.Common
