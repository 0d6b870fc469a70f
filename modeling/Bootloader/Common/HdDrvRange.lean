import Bootloader.Common.HdDrv

/-!
# Which sectors `hd_read` asks for

The size of a piece is cut to the track while more than a track is left to read,
and stays what it was after that. A reply that falls short then leaves a piece
that reaches behind the end of the range. `hdRead_obeys_iff` says for which ranges
no sequence of replies can lead there.
-/

namespace Bootloader.Common

open Bootloader.Std Bootloader.Libc Bootloader.Arch

/-- The BIOS never reports more sectors than it was asked for. -/
def Admissible (replies : Nat → Bios) : Prop :=
  ∀ index regs memory, (replies index regs memory).1.al ≤ regs.al

/-- From the first sector not yet read: every request covers only sectors of the
range that have not been read and that exist, and what is taken over never
exceeds what is left. -/
def Obeys (desc : ChsDiskGeometry) (finish : Nat) : Nat → List DiskEvent → Prop
  | _, [] => True
  | next, .request address sectors :: rest =>
      (∀ sector, address.sector desc ≤ sector → sector < address.sector desc + sectors.toNat →
        next ≤ sector ∧ sector < finish ∧ sector < desc.nlba.toNat) ∧ Obeys desc finish next rest
  | next, .advance sectors :: rest =>
      next + sectors.toNat ≤ finish ∧ Obeys desc finish (next + sectors.toNat) rest

/-- The number of sectors taken over in a record. -/
def taken : List DiskEvent → Nat
  | [] => 0
  | .request _ _ :: rest => taken rest
  | .advance sectors :: rest => sectors.toNat + taken rest

section Records

variable {desc : ChsDiskGeometry} {finish next : Nat} {address : Chs} {sectors : UInt8}

theorem obeys_append {first second : List DiskEvent} :
    Obeys desc finish next (first ++ second) ↔
      Obeys desc finish next first ∧ Obeys desc finish (next + taken first) second := by
  induction first generalizing next with
  | nil => simp [Obeys, taken]
  | cons event rest inductionHypothesis =>
      cases event with
      | request address sectors =>
          simp only [List.cons_append, Obeys, taken, inductionHypothesis, and_assoc]
      | advance sectors =>
          simp only [List.cons_append, Obeys, taken, inductionHypothesis, and_assoc,
            Nat.add_assoc]

theorem taken_append (first second : List DiskEvent) :
    taken (first ++ second) = taken first + taken second := by
  induction first with
  | nil => simp [taken]
  | cons event rest inductionHypothesis =>
      cases event with
      | request address sectors => exact inductionHypothesis
      | advance sectors =>
          rw [List.cons_append, taken, taken, inductionHypothesis, Nat.add_assoc]

@[simp] theorem taken_requests (count : Nat) :
    taken (List.replicate count (.request address sectors)) = 0 := by
  induction count with
  | zero => rfl
  | succ count inductionHypothesis => exact inductionHypothesis

/-- A request may be repeated. -/
theorem obeys_requests (obeys : Obeys desc finish next [.request address sectors])
    (count : Nat) : Obeys desc finish next (List.replicate count (.request address sectors)) := by
  induction count with
  | zero => trivial
  | succ count inductionHypothesis => exact ⟨obeys.1, inductionHypothesis⟩

end Records

section Attempts

variable {driveNb nbSectorsToRead : UInt8} {segment offset : UInt16} {address : Chs}

/-- Another attempt is made while the last one was not answered in full. -/
theorem readAttempts_succ {attempts : Nat} {nbReadSectors : UInt8} {machine : Machine}
    (again : nbReadSectors ≠ nbSectorsToRead) :
    readAttempts driveNb segment offset address nbSectorsToRead (attempts + 1) nbReadSectors
        machine =
      readAttempts driveNb segment offset address nbSectorsToRead attempts
        (diskReadSectors driveNb segment offset address nbSectorsToRead machine).1
        (diskReadSectors driveNb segment offset address nbSectorsToRead machine).2 := by
  rw [readAttempts, if_pos again]

/-- The attempts for a piece repeat one request, at least once when there is something
to ask for. -/
theorem readAttempts_events (attempts : Nat) (nbReadSectors : UInt8) (machine : Machine) :
    ∃ count, (readAttempts driveNb segment offset address nbSectorsToRead attempts nbReadSectors
          machine).2.events =
        machine.events ++ List.replicate count (.request address nbSectorsToRead) ∧
      (count = 0 ↔ attempts = 0 ∨ nbReadSectors = nbSectorsToRead) := by
  induction attempts generalizing nbReadSectors machine with
  | zero => exact ⟨0, by simp [readAttempts], by simp⟩
  | succ attempts inductionHypothesis =>
      by_cases again : nbReadSectors ≠ nbSectorsToRead
      · obtain ⟨count, events, _⟩ := inductionHypothesis
          (diskReadSectors driveNb segment offset address nbSectorsToRead machine).1
          (diskReadSectors driveNb segment offset address nbSectorsToRead machine).2
        rw [readAttempts_succ again]
        refine ⟨count + 1, ?_, by simp [again]⟩
        rw [events, List.replicate_succ]
        simp [diskReadSectors, Machine.int13, Machine.record]
      · rw [readAttempts, if_neg again]
        exact ⟨0, by simp, by simp [not_not.mp again]⟩

/-- The attempts report no more than was asked for when no reply does. -/
theorem readAttempts_admissible (attempts : Nat) (nbReadSectors : UInt8) (machine : Machine)
    (admissible : Admissible machine.replies) (least : nbReadSectors ≤ nbSectorsToRead) :
    (readAttempts driveNb segment offset address nbSectorsToRead attempts nbReadSectors
        machine).1 ≤ nbSectorsToRead ∧
      Admissible (readAttempts driveNb segment offset address nbSectorsToRead attempts
        nbReadSectors machine).2.replies := by
  induction attempts generalizing nbReadSectors machine with
  | zero => exact ⟨least, admissible⟩
  | succ attempts inductionHypothesis =>
      by_cases again : nbReadSectors ≠ nbSectorsToRead
      · rw [readAttempts_succ again]
        exact inductionHypothesis _ _ (fun index regs memory => admissible (index + 1) regs memory)
          (admissible 0 _ _)
      · rw [readAttempts, if_neg again]
        exact ⟨least, admissible⟩

/-- A reply that reports this many sectors, or fewer when fewer were asked for. -/
def answer (sectors : UInt8) : Bios := fun regs memory =>
  ({ regs with al := if sectors ≤ regs.al then sectors else regs.al }, memory)

/-- The same reply some times over, and then others. -/
def answering (sectors : UInt8) (count : Nat) (others : Nat → Bios) : Nat → Bios := fun index =>
  if index < count then answer sectors else others (index - count)

theorem admissible_answering {sectors : UInt8} {count : Nat} {others : Nat → Bios}
    (admissible : Admissible others) : Admissible (answering sectors count others) := by
  intro index regs memory
  simp only [answering]
  split
  · simp only [answer]
    split
    · assumption
    · exact UInt8.le_refl _
  · exact admissible _ regs memory

/-- A reply within the request is what the attempt reports. -/
theorem diskReadSectors_answering {sectors : UInt8} {count : Nat} {others : Nat → Bios}
    {machine : Machine} (replies : machine.replies = answering sectors (count + 1) others)
    (within : sectors ≤ nbSectorsToRead) :
    diskReadSectors driveNb segment offset address nbSectorsToRead machine =
      (sectors, ⟨machine.memory, machine.devices, answering sectors count others,
        machine.events ++ [.request address nbSectorsToRead]⟩) := by
  have first : machine.replies 0 = answer sectors := by
    rw [replies, answering, if_pos (Nat.succ_pos count)]
  have later : (fun index => machine.replies (index + 1)) = answering sectors count others := by
    funext index
    simp only [replies, answering, Nat.add_lt_add_iff_right, Nat.add_sub_add_right]
  have report : ((answer sectors) (readRequest driveNb segment offset address nbSectorsToRead)
      machine.memory).1.al = sectors := if_pos within
  simp only [diskReadSectors, Machine.int13, Machine.record, first, later, report]
  rfl

/-- Attempts that are all answered short report the last answer. -/
theorem readAttempts_short {sectors : UInt8} {others : Nat → Bios}
    (within : sectors ≤ nbSectorsToRead) (short : sectors ≠ nbSectorsToRead) (attempts : Nat)
    (machine : Machine) (replies : machine.replies = answering sectors attempts others) :
    readAttempts driveNb segment offset address nbSectorsToRead attempts sectors machine =
      (sectors, ⟨machine.memory, machine.devices, answering sectors 0 others,
        machine.events ++ List.replicate attempts (.request address nbSectorsToRead)⟩) := by
  induction attempts generalizing machine with
  | zero =>
      rw [readAttempts, ← replies]
      simp
  | succ attempts inductionHypothesis =>
      rw [readAttempts_succ short, diskReadSectors_answering replies within,
        inductionHypothesis _ rfl, List.replicate_succ]
      simp

/-- For every answer within the request there are replies that give it. -/
theorem exists_answering {sectors : UInt8} (within : sectors ≤ nbSectorsToRead)
    (nonzero : nbSectorsToRead ≠ 0) (others : Nat → Bios) (admissible : Admissible others) :
    ∃ replies count, Admissible replies ∧ ∀ memory devices events,
      readAttempts driveNb segment offset address nbSectorsToRead 5 0
          ⟨memory, devices, replies, events⟩ =
        (sectors, ⟨memory, devices, others,
          events ++ List.replicate (count + 1) (.request address nbSectorsToRead)⟩) := by
  have rest : answering sectors 0 others = others := rfl
  by_cases full : sectors = nbSectorsToRead
  · refine ⟨answering sectors 1 others, 0, admissible_answering admissible, ?_⟩
    intro memory devices events
    rw [readAttempts_succ nonzero.symm, diskReadSectors_answering rfl within, rest]
    simp [readAttempts, full]
  · refine ⟨answering sectors 5 others, 4, admissible_answering admissible, ?_⟩
    intro memory devices events
    rw [readAttempts_succ nonzero.symm, diskReadSectors_answering rfl within]
    rw [readAttempts_short within full 4 _ rfl, rest, List.replicate_succ]
    simp

end Attempts

/-- A geometry whose number of sectors is the product of its parts. -/
structure Exact (desc : ChsDiskGeometry) : Prop where
  sectors : 0 < desc.ns.toNat
  heads : 0 < desc.nh.toNat
  size : desc.nlba.toNat = desc.nc.toNat * desc.nh.toNat * desc.ns.toNat

/-- Up to the end of the disk, the CHS address the driver computes is the sector. -/
theorem Exact.sector {desc : ChsDiskGeometry} (exact : Exact desc) {lba : UInt32}
    (inside : lba.toNat ≤ desc.nlba.toNat) : (lbatochs desc lba).sector desc = lba.toNat := by
  apply lbatochs_sector exact.sectors exact.heads
  rw [exact.size] at inside
  have track := Nat.div_le_div_right (c := desc.ns.toNat) inside
  rw [Nat.mul_div_cancel _ exact.sectors] at track
  have cylinder := Nat.div_le_div_right (c := desc.nh.toNat) track
  rw [Nat.mul_div_cancel _ exact.heads] at cylinder
  have bound := desc.nc.toNat_lt
  omega

/-- Some replies lead from a cursor to a request or an advance out of range. -/
def Strays (minor : UInt8) (desc : ChsDiskGeometry) (buffer : UInt32) (finish : Nat)
    (cursor : HdCursor) : Prop :=
  ∃ replies turns, Admissible replies ∧ ∀ memory devices events, ∃ more,
    (loop (hdReadTurn minor desc buffer) turns cursor
      ⟨memory, devices, replies, events⟩).state.events = events ++ more ∧
      ¬ Obeys desc finish cursor.lbaStart.toNat more

section Strays

variable {minor sectors : UInt8} {desc : ChsDiskGeometry} {buffer : UInt32} {finish : Nat}
  {cursor : HdCursor}

theorem advance_lbaStart {size : UInt8} (fits : cursor.lbaStart.toNat + sectors.toNat < 2 ^ 32) :
    (cursor.advance size sectors).lbaStart.toNat = cursor.lbaStart.toNat + sectors.toNat := by
  rw [HdCursor.advance, toNat_add_of_lt fits, UInt8.toNat_toUInt32]

theorem advance_count {size : UInt8} (enough : sectors.toNat ≤ cursor.count.toNat) :
    (cursor.advance size sectors).count.toNat = cursor.count.toNat - sectors.toNat := by
  have bound := cursor.count.toNat_lt
  rw [HdCursor.advance, UInt32.toNat_sub, UInt8.toNat_toUInt32]
  omega

theorem advance_one (cursor : HdCursor) (size : UInt8) (fits : cursor.lbaStart.toNat + 1 < 2 ^ 32)
    (enough : 1 ≤ cursor.count.toNat) :
    (cursor.advance size 1).lbaStart.toNat = cursor.lbaStart.toNat + 1 ∧
      (cursor.advance size 1).count.toNat = cursor.count.toNat - 1 :=
  ⟨advance_lbaStart fits, advance_count enough⟩

/-- Some replies let a piece be read for any number of sectors within it. -/
theorem exists_turn (minor sectors : UInt8) (valid : buffer ≠ 0) (left : 0 < cursor.count)
    (within : sectors ≤ pieceSize desc cursor) (nonzero : pieceSize desc cursor ≠ 0)
    (others : Nat → Bios) (admissible : Admissible others) :
    ∃ replies count, Admissible replies ∧ ∀ memory devices events turns, ∃ memory',
      loop (hdReadTurn minor desc buffer) (turns + 1) cursor
          ⟨memory, devices, replies, events⟩ =
        loop (hdReadTurn minor desc buffer) turns
          (cursor.advance (pieceSize desc cursor) sectors)
          ⟨memory', devices, others, events ++ List.replicate (count + 1)
            (.request (lbatochs desc cursor.lbaStart) (pieceSize desc cursor)) ++
              [.advance sectors]⟩ := by
  obtain ⟨replies, count, admissible', reads⟩ := exists_answering within nonzero others admissible
  refine ⟨replies, count, admissible', fun memory devices events turns => ?_⟩
  have turn : hdReadTurn minor desc buffer cursor ⟨memory, devices, replies, events⟩ = _ :=
    hdReadTurn_again left valid
  rw [pieceRead, reads] at turn
  exact ⟨_, loop_again turn⟩

/-- Replies that stray later make the run stray from here. -/
theorem strays_step (valid : buffer ≠ 0) (left : 0 < cursor.count)
    (within : sectors ≤ pieceSize desc cursor) (nonzero : pieceSize desc cursor ≠ 0)
    (fits : cursor.lbaStart.toNat + sectors.toNat < 2 ^ 32)
    (later : Strays minor desc buffer finish (cursor.advance (pieceSize desc cursor) sectors)) :
    Strays minor desc buffer finish cursor := by
  obtain ⟨others, turns, admissible, strays⟩ := later
  obtain ⟨replies, count, admissible', reads⟩ :=
    exists_turn minor sectors valid left within nonzero others admissible
  refine ⟨replies, turns + 1, admissible', fun memory devices events => ?_⟩
  obtain ⟨memory', ran⟩ := reads memory devices events turns
  obtain ⟨more, recorded, disobeys⟩ := strays memory' devices (events ++ List.replicate (count + 1)
    (.request (lbatochs desc cursor.lbaStart) (pieceSize desc cursor)) ++ [.advance sectors])
  rw [ran, recorded]
  refine ⟨_, by rw [List.append_assoc, List.append_assoc], ?_⟩
  rw [obeys_append, taken_requests, Nat.add_zero]
  rintro ⟨_, _, obeys⟩
  rw [advance_lbaStart fits] at disobeys
  exact disobeys obeys

/-- A piece that reaches behind the range or behind the disk strays at once. -/
theorem strays_here (exact : Exact desc) (inside : cursor.lbaStart.toNat ≤ desc.nlba.toNat)
    (valid : buffer ≠ 0) (left : 0 < cursor.count) (nonzero : pieceSize desc cursor ≠ 0)
    (behind : finish < cursor.lbaStart.toNat + (pieceSize desc cursor).toNat ∨
      desc.nlba.toNat < cursor.lbaStart.toNat + (pieceSize desc cursor).toNat) :
    Strays minor desc buffer finish cursor := by
  have full : Admissible fun _ regs memory => (regs, memory) := fun _ _ _ => UInt8.le_refl _
  obtain ⟨replies, count, admissible, reads⟩ :=
    exists_turn minor 0 valid left UInt8.zero_le nonzero _ full
  refine ⟨replies, 1, admissible, fun memory devices events => ?_⟩
  obtain ⟨memory', ran⟩ := reads memory devices events 0
  rw [ran, loop, Outcome.state_diverged, List.append_assoc]
  refine ⟨_, rfl, ?_⟩
  rintro ⟨covers, _⟩
  have positive : 0 < (pieceSize desc cursor).toNat := by
    refine Nat.pos_of_ne_zero fun zero => nonzero (UInt8.toNat_inj.mp zero)
  have last := covers (cursor.lbaStart.toNat + (pieceSize desc cursor).toNat - 1)
  rw [exact.sector inside] at last
  have bounds := last (by omega) (by omega)
  omega

/-- One sector at a time is always a possible answer. -/
theorem strays_one (valid : buffer ≠ 0) (left : 0 < cursor.count.toNat)
    (positive : 0 < (pieceSize desc cursor).toNat) (fits : cursor.lbaStart.toNat + 1 < 2 ^ 32)
    (later : Strays minor desc buffer finish (cursor.advance (pieceSize desc cursor) 1)) :
    Strays minor desc buffer finish cursor := by
  refine strays_step valid (UInt32.lt_iff_toNat_lt.mpr left) ?_ ?_ ?_ later
  · rw [UInt8.le_iff_toNat_le]
    exact positive
  · exact pieceSize_ne_zero positive
  · rwa [UInt8.toNat_one]

theorem pieceSize_track (sectors : 0 < desc.ns.toNat) (cursor : HdCursor)
    (long : desc.ns.toNat < cursor.count.toNat) :
    (pieceSize desc cursor).toNat =
      desc.ns.toNat - cursor.lbaStart.toNat % desc.ns.toNat := by
  have s : (lbatochs desc cursor.lbaStart).s.toNat = _ :=
    lbatochs_s cursor.lbaStart sectors
  have rest := Nat.mod_lt cursor.lbaStart.toNat sectors
  have bound := desc.ns.toNat_lt
  have above : cursor.count > desc.ns.toUInt32 := by
    rw [gt_iff_lt, UInt32.lt_iff_toNat_lt, UInt8.toNat_toUInt32]
    exact long
  rw [pieceSize, if_pos above, UInt8.toNat_add, UInt8.toNat_sub, s, UInt8.toNat_one]
  omega

/-- Every piece has a sector, as long as the one before had. -/
theorem pieceSize_pos (exact : Exact desc)
    (positive : cursor.count.toNat ≤ desc.ns.toNat → 0 < cursor.nbSectorsToRead.toNat) :
    0 < (pieceSize desc cursor).toNat := by
  by_cases short : cursor.count.toNat ≤ desc.ns.toNat
  · rw [pieceSize_stale short]
    exact positive short
  · have place := Nat.mod_lt cursor.lbaStart.toNat exact.sectors
    rw [pieceSize_track exact.sectors cursor (by omega)]
    omega

/-- Once no more than a track is left, a piece of two sectors or more is repeated
until it reaches behind the range. -/
theorem strays_stale (exact : Exact desc) (valid : buffer ≠ 0)
    (ends : cursor.lbaStart.toNat + cursor.count.toNat = finish)
    (inside : finish ≤ desc.nlba.toNat) (left : 0 < cursor.count.toNat)
    (short : cursor.count.toNat ≤ desc.ns.toNat) (wide : 2 ≤ cursor.nbSectorsToRead.toNat) :
    Strays minor desc buffer finish cursor := by
  have bound := desc.nlba.toNat_lt
  have size := pieceSize_stale short
  induction remaining : cursor.count.toNat generalizing cursor with
  | zero => omega
  | succ count inductionHypothesis =>
      by_cases behind : cursor.count.toNat < cursor.nbSectorsToRead.toNat
      · refine strays_here exact (by omega) valid (UInt32.lt_iff_toNat_lt.mpr left) ?_ (Or.inl ?_)
        · exact pieceSize_ne_zero (by rw [size]; omega)
        · rw [size]
          omega
      · obtain ⟨next, rest⟩ := advance_one cursor (pieceSize desc cursor) (by omega) (by omega)
        refine strays_one valid left (by rw [size]; omega) (by omega)
          (inductionHypothesis (by omega) (by omega) (by omega) ?_ ?_ (by omega))
        · rw [HdCursor.advance, size]
          exact wide
        · exact pieceSize_stale (by omega)

/-- A range that ends behind the disk is followed there. -/
theorem strays_wrap (exact : Exact desc) (valid : buffer ≠ 0)
    (ends : cursor.lbaStart.toNat + cursor.count.toNat = finish)
    (outside : desc.nlba.toNat < finish) (inside : cursor.lbaStart.toNat ≤ desc.nlba.toNat)
    (positive : cursor.count.toNat ≤ desc.ns.toNat → 0 < cursor.nbSectorsToRead.toNat) :
    Strays minor desc buffer finish cursor := by
  have bound := desc.nlba.toNat_lt
  have piece : 0 < (pieceSize desc cursor).toNat := pieceSize_pos exact positive
  induction distance : desc.nlba.toNat - cursor.lbaStart.toNat generalizing cursor with
  | zero =>
      exact strays_here exact inside valid (UInt32.lt_iff_toNat_lt.mpr (by simp; omega))
        (pieceSize_ne_zero piece) (Or.inr (by omega))
  | succ distance inductionHypothesis =>
      obtain ⟨next, rest⟩ := advance_one cursor (pieceSize desc cursor) (by omega) (by omega)
      have further : (cursor.advance (pieceSize desc cursor) 1).count.toNat ≤ desc.ns.toNat →
          0 < (cursor.advance (pieceSize desc cursor) 1).nbSectorsToRead.toNat := fun _ => piece
      exact strays_one valid (by omega) piece (by omega)
        (inductionHypothesis (by omega) (by omega) further (pieceSize_pos exact further) (by omega))

/-- A track and a sector, with more than one sector left in the first track. -/
theorem strays_track_and_one (exact : Exact desc) (valid : buffer ≠ 0)
    (ends : cursor.lbaStart.toNat + cursor.count.toNat = finish)
    (inside : finish ≤ desc.nlba.toNat) (long : cursor.count.toNat = desc.ns.toNat + 1)
    (wide : 2 ≤ (pieceSize desc cursor).toNat) : Strays minor desc buffer finish cursor := by
  have bound := desc.nlba.toNat_lt
  obtain ⟨next, rest⟩ := advance_one cursor (pieceSize desc cursor) (by omega) (by omega)
  have positive := exact.sectors
  exact strays_one valid (by omega) (by omega) (by omega)
    (strays_stale exact valid (by omega) inside (by omega) (by omega) wide)

/-- The place of the next sector in its track. -/
theorem succ_mod_cases (sector : Nat) {width : Nat} (positive : 0 < width) :
    (sector % width = width - 1 ∧ (sector + 1) % width = 0) ∨
      (sector % width + 1 < width ∧ (sector + 1) % width = sector % width + 1) := by
  have below := Nat.mod_lt sector positive
  have split : (sector + 1) % width = (sector % width + 1) % width := by
    rw [Nat.mod_add_mod]
  by_cases last : sector % width + 1 = width
  · refine Or.inl ⟨by omega, ?_⟩
    rw [split, last, Nat.mod_self]
  · refine Or.inr ⟨by omega, ?_⟩
    rw [split, Nat.mod_eq_of_lt (by omega)]

/-- More than a track and a sector: the last cut to the track can be made where
two or more sectors are left of it. -/
theorem strays_long (exact : Exact desc) (valid : buffer ≠ 0)
    (ends : cursor.lbaStart.toNat + cursor.count.toNat = finish)
    (inside : finish ≤ desc.nlba.toNat) (tracks : 2 ≤ desc.ns.toNat)
    (long : desc.ns.toNat + 2 ≤ cursor.count.toNat) :
    Strays minor desc buffer finish cursor := by
  have bound := desc.nlba.toNat_lt
  induction extra : cursor.count.toNat - (desc.ns.toNat + 2) generalizing cursor with
  | zero =>
      have size := pieceSize_track exact.sectors cursor (by omega)
      obtain ⟨next, rest⟩ := advance_one cursor (pieceSize desc cursor) (by omega) (by omega)
      have place := Nat.mod_lt cursor.lbaStart.toNat exact.sectors
      have size' := pieceSize_track exact.sectors (cursor.advance (pieceSize desc cursor) 1)
        (by omega)
      rw [next] at size'
      by_cases two : (pieceSize desc cursor).toNat = 2
      · have width : (2 : UInt8).toNat = 2 := rfl
        have next2 : (cursor.advance (pieceSize desc cursor) 2).lbaStart.toNat =
            cursor.lbaStart.toNat + 2 := advance_lbaStart (by omega)
        have rest2 : (cursor.advance (pieceSize desc cursor) 2).count.toNat =
            cursor.count.toNat - 2 := advance_count (by omega)
        have tail : Strays minor desc buffer finish (cursor.advance (pieceSize desc cursor) 2) :=
          strays_stale exact valid (by omega) inside (by omega) (by omega) (Nat.le_of_eq two.symm)
        refine strays_step valid (UInt32.lt_iff_toNat_lt.mpr (by simp; omega)) ?_
          (pieceSize_ne_zero (by omega)) (by omega) tail
        exact UInt8.le_iff_toNat_le.mpr (Nat.le_of_eq (width.trans two.symm))
      · refine strays_one valid (by omega) (by omega) (by omega)
          (strays_track_and_one exact valid (by omega) inside (by omega) ?_)
        rcases succ_mod_cases cursor.lbaStart.toNat exact.sectors with
          ⟨last, first⟩ | ⟨before, following⟩
        · omega
        · omega
  | succ extra inductionHypothesis =>
      obtain ⟨next, rest⟩ := advance_one cursor (pieceSize desc cursor) (by omega) (by omega)
      have size := pieceSize_track exact.sectors cursor (by omega)
      have place := Nat.mod_lt cursor.lbaStart.toNat exact.sectors
      exact strays_one valid (by omega) (by omega) (by omega)
        (inductionHypothesis (by omega) (by omega) (by omega))

end Strays

/-- The loop reads sector by sector: what the turns of the loop keep for the
ranges that cannot stray. -/
structure SectorWise (desc : ChsDiskGeometry) (first finish : Nat) (cursor : HdCursor)
    (machine : Machine) : Prop where
  admissible : Admissible machine.replies
  obeys : Obeys desc finish first machine.events
  read : first + taken machine.events = cursor.lbaStart.toNat
  ends : cursor.lbaStart.toNat + cursor.count.toNat = finish
  inside : finish ≤ desc.nlba.toNat
  stale : cursor.count.toNat ≤ desc.ns.toNat → 0 < cursor.count.toNat →
    cursor.nbSectorsToRead.toNat = 1
  track : desc.ns.toNat < cursor.count.toNat → desc.ns.toNat = 1 ∨
    (cursor.count.toNat = desc.ns.toNat + 1 ∧
      cursor.lbaStart.toNat % desc.ns.toNat = desc.ns.toNat - 1)

namespace SectorWise

variable {minor : UInt8} {desc : ChsDiskGeometry} {buffer : UInt32} {first finish : Nat}
  {cursor next : HdCursor} {machine after : Machine}

theorem piece (sectorWise : SectorWise desc first finish cursor machine) (exact : Exact desc)
    (left : 0 < cursor.count.toNat) : (pieceSize desc cursor).toNat = 1 := by
  by_cases short : cursor.count.toNat ≤ desc.ns.toNat
  · rw [pieceSize_stale short]
    exact sectorWise.stale short left
  · have size := pieceSize_track exact.sectors cursor (by omega)
    have place := Nat.mod_lt cursor.lbaStart.toNat exact.sectors
    rcases sectorWise.track (by omega) with single | ⟨_, last⟩
    · omega
    · have positive := exact.sectors
      omega

/-- A turn keeps the invariant. -/
theorem turn (sectorWise : SectorWise desc first finish cursor machine) (exact : Exact desc)
    (valid : buffer ≠ 0) (left : 0 < cursor.count) :
    ∃ next after, hdReadTurn minor desc buffer cursor machine = .returned (.again next) after ∧
      SectorWise desc first finish next after := by
  have positive : 0 < cursor.count.toNat := UInt32.lt_iff_toNat_lt.mp left
  have piece := sectorWise.piece exact positive
  obtain ⟨admissible, obeys, read, ends, inside, stale, track⟩ := sectorWise
  have bound := desc.nlba.toNat_lt
  obtain ⟨count, events, _⟩ : ∃ count,
      (pieceRead minor desc cursor machine).2.events = machine.events ++ List.replicate count
        (DiskEvent.request (lbatochs desc cursor.lbaStart) (pieceSize desc cursor)) ∧ _ :=
    readAttempts_events 5 0 machine
  obtain ⟨least, further⟩ :
      (pieceRead minor desc cursor machine).1 ≤ pieceSize desc cursor ∧
        Admissible (pieceRead minor desc cursor machine).2.replies :=
    readAttempts_admissible 5 0 machine admissible UInt8.zero_le
  refine ⟨_, _, hdReadTurn_again left valid, ?_⟩
  generalize pieceRead minor desc cursor machine = outcome at events least further
  obtain ⟨sectors, middle⟩ := outcome
  simp only at events least further ⊢
  rw [UInt8.le_iff_toNat_le, piece] at least
  have next : (cursor.advance (pieceSize desc cursor) sectors).lbaStart.toNat = _ :=
    advance_lbaStart (by omega)
  have rest : (cursor.advance (pieceSize desc cursor) sectors).count.toNat = _ :=
    advance_count (by omega)
  have recorded : ((copyPiece buffer sectors middle).record (.advance sectors)).events =
      machine.events ++ (List.replicate count
        (.request (lbatochs desc cursor.lbaStart) (pieceSize desc cursor)) ++
          [.advance sectors]) := by
    rw [Machine.record, copyPiece, events, List.append_assoc]
  have covered : Obeys desc finish cursor.lbaStart.toNat
      [.request (lbatochs desc cursor.lbaStart) (pieceSize desc cursor)] := by
    refine ⟨fun sector above below => ?_, trivial⟩
    rw [exact.sector (by omega)] at above below
    omega
  refine ⟨further, ?_, ?_, by omega, inside, fun _ _ => piece, fun long => ?_⟩
  · rw [recorded, obeys_append, obeys_append, read, taken_requests]
    exact ⟨obeys, obeys_requests covered count, by omega, trivial⟩
  · rw [recorded, taken_append, taken_append, taken_requests, next]
    simp only [taken]
    omega
  · rcases track (by omega) with single | ⟨exactly, last⟩
    · exact Or.inl single
    · refine Or.inr ⟨by omega, ?_⟩
      rw [next, show sectors.toNat = 0 by omega, Nat.add_zero]
      exact last

/-- However long the loop runs, its record obeys the range. -/
theorem run (exact : Exact desc) (valid : buffer ≠ 0)
    (sectorWise : SectorWise desc first finish cursor machine) (turns : Nat) :
    Obeys desc finish first
      (loop (hdReadTurn minor desc buffer) turns cursor machine).state.events := by
  obtain ⟨last, kept⟩ := hdReadLoop_keeps
    (fun _ _ sectorWise left => sectorWise.turn exact valid left) turns sectorWise
  exact kept.obeys

end SectorWise

section Ranges

variable {desc : ChsDiskGeometry} {minor : UInt8} {devices : List Dev} {lba count buffer : UInt32}

/-- The machine a read starts in, with nothing recorded yet. -/
def freshMachine (devices : List Dev) (replies : Nat → Bios) (memory : Memory) : Machine :=
  ⟨memory, devices, replies, []⟩

theorem toNat_toUInt8_of_le {count : UInt32} (small : count.toNat ≤ 128) :
    count.toUInt8.toNat = count.toNat := by
  rw [UInt32.toNat_toUInt8]
  omega

/-- Where the piece can be more than one sector, some replies lead out of range. -/
theorem exists_straying (minor : UInt8) (exact : Exact desc) (track : desc.ns.toNat ≤ 128)
    (inside : lba < desc.nlba) (valid : buffer ≠ 0) (nonzero : count ≠ 0)
    (wide : lba.toNat + count.toNat ≤ desc.nlba.toNat → count ≠ 1 ∧ desc.ns.toNat ≠ 1 ∧
      ¬ (count.toNat = desc.ns.toNat + 1 ∧ lba.toNat % desc.ns.toNat = desc.ns.toNat - 1)) :
    Strays minor desc buffer (lba.toNat + count.toNat) ⟨0, lba, count, count.toUInt8⟩ := by
  have positive := exact.sectors
  have inside' := UInt32.lt_iff_toNat_lt.mp inside
  have least : 0 < count.toNat := toNat_pos_iff.mpr nonzero
  by_cases fits : lba.toNat + count.toNat ≤ desc.nlba.toNat
  · obtain ⟨several, tracks, notLast⟩ := wide fits
    have several' : count.toNat ≠ 1 := fun one => several (UInt32.toNat_inj.mp one)
    by_cases short : count.toNat ≤ desc.ns.toNat
    · refine strays_stale exact valid rfl fits least short ?_
      rw [toNat_toUInt8_of_le (by omega)]
      omega
    · by_cases trackAndOne : count.toNat = desc.ns.toNat + 1
      · refine strays_track_and_one exact valid rfl fits trackAndOne ?_
        rw [pieceSize_track exact.sectors _ (by simp only; omega)]
        have place := Nat.mod_lt lba.toNat positive
        simp only
        omega
      · exact strays_long exact valid rfl fits (by omega) (by simp only; omega)
  · refine strays_wrap exact valid rfl (by omega) (Nat.le_of_lt inside') fun short => ?_
    simp only at short ⊢
    rw [toNat_toUInt8_of_le (by omega)]
    exact least

/-- Where the piece is one sector at most, the loop starts within the range. -/
theorem sectorWise_start {replies : Nat → Bios} {memory : Memory} (exact : Exact desc)
    (inside : lba < desc.nlba) (admissible : Admissible replies) (track : desc.ns.toNat ≤ 128)
    (narrow : 128 < desc.ns.toNat ∨ count = 0 ∨ (lba.toNat + count.toNat ≤ desc.nlba.toNat ∧
      (count = 1 ∨ desc.ns.toNat = 1 ∨
        (count.toNat = desc.ns.toNat + 1 ∧
          lba.toNat % desc.ns.toNat = desc.ns.toNat - 1)))) :
    SectorWise desc lba.toNat (lba.toNat + count.toNat) ⟨0, lba, count, count.toUInt8⟩
      (freshMachine devices replies memory) := by
  have positive := exact.sectors
  have inside' := UInt32.lt_iff_toNat_lt.mp inside
  have small : count.toNat ≤ 128 → count.toUInt8.toNat = count.toNat := toNat_toUInt8_of_le
  refine ⟨admissible, trivial, rfl, rfl, ?_, fun short nonzero => ?_, fun long => ?_⟩
  · rcases narrow with refused | rfl | ⟨fits, _⟩
    · omega
    · simpa using Nat.le_of_lt inside'
    · exact fits
  · simp only at short nonzero ⊢
    rcases narrow with refused | rfl | ⟨_, rfl | single | ⟨exactly, _⟩⟩
    · omega
    · simp at nonzero
    · rfl
    · omega
    · omega
  · simp only at long ⊢
    rcases narrow with refused | rfl | ⟨_, rfl | single | lastOfTrack⟩
    · omega
    · simp at long
    · rw [UInt32.toNat_one] at long
      omega
    · exact Or.inl single
    · exact Or.inr lastOfTrack

/-- Over all replies a BIOS can give, `hd_read` stays within the sectors it was
asked for exactly when it has nothing to read, or refuses the geometry, or can
only ask for single sectors. -/
theorem hdRead_obeys_iff (known : devGetinfo hardDiskDriver minor devices = some desc)
    (exact : Exact desc) (inside : lba < desc.nlba) (range : lba + count ≤ desc.nlba)
    (valid : buffer ≠ 0) :
    (∀ replies, Admissible replies → ∀ memory turns,
      Obeys desc (lba.toNat + count.toNat) lba.toNat
        (hdRead turns minor lba count buffer
          (freshMachine devices replies memory)).state.events) ↔
      128 < desc.ns.toNat ∨ count = 0 ∨ (lba.toNat + count.toNat ≤ desc.nlba.toNat ∧
        (count = 1 ∨ desc.ns.toNat = 1 ∨
          (count.toNat = desc.ns.toNat + 1 ∧
            lba.toNat % desc.ns.toNat = desc.ns.toNat - 1))) := by
  by_cases track : desc.ns.toNat ≤ 128
  · constructor
    · intro obeys
      by_contra outside
      simp only [not_or, not_and] at outside
      obtain ⟨_, nonzero, wide⟩ := outside
      obtain ⟨replies, turns, admissible, strays⟩ := exists_straying minor exact track
        inside valid nonzero fun fits => by simpa [not_and] using wide fits
      obtain ⟨more, recorded, disobeys⟩ := strays (fun _ => 0) devices []
      have obeyed := obeys replies admissible (fun _ => 0) turns
      rw [hdRead_loop known track inside range] at obeyed
      rw [List.nil_append] at recorded
      exact disobeys (recorded ▸ obeyed)
    · intro narrow replies admissible memory turns
      rw [hdRead_loop known track inside range]
      exact (sectorWise_start exact inside admissible track narrow).run exact valid turns
  · have refused : ¬ desc.ns.toUInt32 ≤ segmentSize16bitMode / sectorSize := by
      rw [UInt32.le_iff_toNat_le, UInt8.toNat_toUInt32]
      exact track
    refine iff_of_true (fun replies _ memory turns => ?_) (Or.inl (by omega))
    simp only [hdRead, freshMachine, known, if_pos refused]
    trivial

end Ranges

theorem smallDisk_exact : Exact smallDisk := ⟨by decide, by decide, by decide⟩

/-- A BIOS that reports every request as answered in full. -/
def fullReplies : Nat → Bios := fun _ regs memory => (regs, memory)

/-- One sector more than a track, each request answered in full: the second
request asks for 63 sectors where one is left. -/
theorem hdRead_track_and_one_strays :
    Admissible fullReplies ∧ ¬ Obeys smallDisk 64 0
      (hdRead 2 0 0 64 0x100000
        (freshMachine openDevices fullReplies fun _ => 0)).state.events := by
  have record : (hdRead 2 0 0 64 0x100000
      (freshMachine openDevices fullReplies fun _ => 0)).state.events =
        [.request ⟨0, 0, 1⟩ 63, .advance 63, .request ⟨0, 1, 1⟩ 63, .advance 63] := by
    decide +kernel
  refine ⟨fun _ _ _ => UInt8.le_refl _, ?_⟩
  rw [record]
  rintro ⟨_, _, covers, _⟩
  have behind := covers 100 (by decide) (by decide)
  omega

/-- A track and one sector: from the last sector of a track the two pieces obey, from the first
they do not. -/
theorem hdRead_obeys_iff_trackAndOne :
    (∀ replies, Admissible replies → ∀ memory turns,
      Obeys smallDisk ((62 : UInt32).toNat + (64 : UInt32).toNat) (62 : UInt32).toNat
        (hdRead turns 0 62 64 0x100000 (freshMachine openDevices replies memory)).state.events) ∧
    ¬ ∀ replies, Admissible replies → ∀ memory turns,
      Obeys smallDisk ((0 : UInt32).toNat + (64 : UInt32).toNat) (0 : UInt32).toNat
        (hdRead turns 0 0 64 0x100000 (freshMachine openDevices replies memory)).state.events :=
  ⟨(hdRead_obeys_iff rfl smallDisk_exact (by decide) (by decide) (by decide)).mpr (by decide),
    fun obeys => absurd ((hdRead_obeys_iff rfl smallDisk_exact (by decide) (by decide)
      (by decide)).mp obeys) (by decide)⟩

end Bootloader.Common
