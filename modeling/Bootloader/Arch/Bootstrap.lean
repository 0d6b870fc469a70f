import Bootloader.Std.Memory
import Bootloader.Std.Program
import Bootloader.Std.Word

/-!
# Relocating the data sections

In the real-mode build `bootstrap.S` copies the data sections from behind the code to their own
segment, two bytes a turn, up to a signed comparison of two 16-bit numbers.
`relocation_complete_iff` says for which sizes that copies everything.
-/

namespace Bootloader.Arch

open Bootloader.Std

/-- `BOOT1_CODE_SEGMENT_RM`, the segment in CS. -/
def segmentCode : UInt16 := 0x1000

/-- `SEGMENT_DATA`, the segment in DS. -/
def segmentData : UInt16 := 0x2000

/-- `DATA_BASE_OFFSET`. -/
def dataBaseOffset : UInt16 := 0x0000

/-- The linear address of an offset in a segment. -/
def linear (segment offset : UInt16) : Nat := 16 * segment.toNat + offset.toNat

/-- The index registers of the loop. -/
structure RelocateCursor where
  si : UInt16
  di : UInt16

/-- One turn of the loop in `bootstrap.S`. A word does not go over the end of a segment. -/
def relocateTurn (cx : UInt16) (cursor : RelocateCursor) (memory : Memory) :
    Outcome Memory (Turn RelocateCursor Unit) :=
  if cursor.si = 0xFFFF ∨ cursor.di = 0xFFFF then .panicked "general protection" memory
  else
    let ax := memory.load16 (linear segmentCode cursor.si)
    let memory := memory.store16 (linear segmentData cursor.di) ax
    let si := cursor.si + 2
    let di := cursor.di + 2
    -- `jge`
    if di.toInt16 ≥ cx.toInt16 then .returned (.leave ()) memory
    else .returned (.again ⟨si, di⟩) memory

/-- The relocation in `bootstrap.S`. -/
def relocate (turns : Nat) (dataSectionsBeginning dataSectionsSize : UInt16) (memory : Memory) :
    Outcome Memory Unit :=
  loop (relocateTurn dataSectionsSize) turns ⟨dataSectionsBeginning, dataBaseOffset⟩ memory

/-- There are data sections, and they end with their segment at the latest. -/
structure Linked (dataSectionsBeginning dataSectionsSize : UInt16) : Prop where
  positive : 0 < dataSectionsSize.toNat
  fits : dataSectionsBeginning.toNat + dataSectionsSize.toNat < 2 ^ 16

/-- The loop ends, and all data sections are where they belong. -/
def Relocates (dataSectionsBeginning dataSectionsSize : UInt16) (memory : Memory) : Prop :=
  ∃ turns after,
    relocate turns dataSectionsBeginning dataSectionsSize memory = .returned () after ∧
      ∀ i < dataSectionsSize.toNat, after (linear segmentData dataBaseOffset + i) =
        memory (linear segmentCode dataSectionsBeginning + i)

section Turns

variable {beginning size : UInt16} {memory : Memory} {done : Nat}

/-- Where the loop is after as many turns: the first bytes have been copied. -/
def relocating (beginning : UInt16) (done : Nat) : RelocateCursor where
  si := UInt16.ofNat (beginning.toNat + 2 * done)
  di := UInt16.ofNat (2 * done)

theorem relocating_start (beginning : UInt16) :
    relocating beginning 0 = ⟨beginning, dataBaseOffset⟩ := by
  rw [relocating, Nat.mul_zero, Nat.add_zero, UInt16.ofNat_toNat]
  rfl

/-- The memory with the first bytes copied. -/
def copied (beginning : UInt16) (memory : Memory) (count : Nat) : Memory :=
  memory.copyUp (linear segmentData dataBaseOffset) (linear segmentCode beginning) count

/-- The offsets of a word to copy. -/
theorem toNat_relocating (linked : Linked beginning size) (more : 2 * done < size.toNat) :
    (relocating beginning done).si.toNat = beginning.toNat + 2 * done ∧
      (relocating beginning done).di.toNat = 2 * done := by
  have fits := linked.fits
  have source : beginning.toNat + 2 * done < 2 ^ 16 := by omega
  have target : 2 * done < 2 ^ 16 := by omega
  exact ⟨UInt16.toNat_ofNat_of_lt' source, UInt16.toNat_ofNat_of_lt' target⟩

/-- A word to copy does not go over the end of a segment. -/
theorem relocating_inside (linked : Linked beginning size) (more : 2 * done < size.toNat) :
    ¬ ((relocating beginning done).si = 0xFFFF ∨ (relocating beginning done).di = 0xFFFF) := by
  have fits := linked.fits
  obtain ⟨si, di⟩ := toNat_relocating linked more
  have last : (0xFFFF : UInt16).toNat = 65535 := rfl
  rintro (end' | end')
  · rw [end', last] at si
    omega
  · rw [end', last] at di
    omega

/-- The next word to copy is two bytes further on. -/
theorem relocating_next (beginning : UInt16) (done : Nat) :
    (⟨(relocating beginning done).si + 2, (relocating beginning done).di + 2⟩ : RelocateCursor) =
      relocating beginning (done + 1) := by
  have onward (offset : Nat) : UInt16.ofNat offset + 2 = UInt16.ofNat (offset + 2) :=
    (UInt16.ofNat_add offset 2).symm
  rw [relocating, onward, onward]
  rfl

/-- The word that a turn moves is the next one of the copy. -/
theorem copied_word (linked : Linked beginning size) (more : 2 * done < size.toNat) :
    (copied beginning memory (2 * done)).store16
        (linear segmentData (relocating beginning done).di)
        ((copied beginning memory (2 * done)).load16
          (linear segmentCode (relocating beginning done).si)) =
      copied beginning memory (2 * (done + 1)) := by
  have fits := linked.fits
  obtain ⟨si, di⟩ := toNat_relocating linked more
  have source : linear segmentCode (relocating beginning done).si =
      linear segmentCode beginning + 2 * done := by
    rw [linear, si, ← Nat.add_assoc]
    rfl
  have target : linear segmentData (relocating beginning done).di =
      linear segmentData dataBaseOffset + 2 * done := by
    rw [linear, di]
    rfl
  have apart : linear segmentCode beginning + 2 * done + 1 ≠
      linear segmentData dataBaseOffset + 2 * done := by
    change 16 * 0x1000 + beginning.toNat + 2 * done + 1 ≠ 16 * 0x2000 + 0 + 2 * done
    omega
  rw [source, target, Memory.store16_load16 apart, copied, copied, Nat.mul_succ,
    Memory.copyUp_add]

/-- A turn copies two bytes, and goes on while the signed comparison says so. -/
theorem relocateTurn_eq (linked : Linked beginning size) (more : 2 * done < size.toNat) :
    relocateTurn size (relocating beginning done) (copied beginning memory (2 * done)) =
      if (UInt16.ofNat (2 * (done + 1))).toInt16 ≥ size.toInt16 then
        .returned (.leave ()) (copied beginning memory (2 * (done + 1)))
      else .returned (.again (relocating beginning (done + 1)))
        (copied beginning memory (2 * (done + 1))) := by
  have next := relocating_next beginning done
  have place := congrArg RelocateCursor.di next
  simp only [relocateTurn, if_neg (relocating_inside linked more), copied_word linked more, next]
  rw [show (relocating beginning done).di + 2 = _ from place]
  rfl

/-- What `jge` makes of a place and a size: from `2 ^ 15` on a number counts as negative. -/
theorem toInt16_ge_iff {offset : Nat} (inside : offset < 2 ^ 16) :
    (UInt16.ofNat offset).toInt16 ≥ size.toInt16 ↔
      if offset < 2 ^ 15 ↔ size.toNat < 2 ^ 15 then size.toNat ≤ offset
      else offset < 2 ^ 15 := by
  have bound := size.toNat_lt
  rw [ge_iff_le, Int16.le_iff_toInt_le, toInt_toInt16, toInt_toInt16, UInt16.toNat_ofNat',
    Nat.mod_eq_of_lt inside]
  by_cases low : offset < 2 ^ 15 <;> by_cases small : size.toNat < 2 ^ 15 <;>
    simp only [low, small, if_true, if_false, iff_true, iff_false, not_true_eq_false] <;> omega

/-- A size that is not the largest signed number and not negative is copied. -/
theorem relocate_small (linked : Linked beginning size) (small : size.toNat ≤ 32766)
    (memory : Memory) :
    ∃ turns count, size.toNat ≤ count ∧ count ≤ size.toNat + 1 ∧
      relocate turns beginning size memory = .returned () (copied beginning memory count) := by
  have walk : ∀ left done, 2 * (done + left) < size.toNat →
      size.toNat ≤ 2 * (done + left + 1) →
      loop (relocateTurn size) (left + 1) (relocating beginning done)
          (copied beginning memory (2 * done)) =
        .returned () (copied beginning memory (2 * (done + left + 1))) := by
    intro left done more enough
    induction left generalizing done with
    | zero =>
        have last : (UInt16.ofNat (2 * (done + 1))).toInt16 ≥ size.toInt16 := by
          rw [toInt16_ge_iff (by omega), if_pos (by omega)]
          exact enough
        have turn := @relocateTurn_eq _ _ memory done linked more
        rw [if_pos last] at turn
        exact loop_leave turn
    | succ left inductionHypothesis =>
        have again : ¬ (UInt16.ofNat (2 * (done + 1))).toInt16 ≥ size.toInt16 := by
          rw [toInt16_ge_iff (by omega), if_pos (by omega)]
          omega
        have turn := @relocateTurn_eq _ _ memory done linked (by omega)
        rw [if_neg again] at turn
        rw [loop_again turn, inductionHypothesis (done + 1) (by omega) (by omega),
          show done + 1 + left + 1 = done + (left + 1) + 1 by omega]
  have positive := linked.positive
  have ran := walk ((size.toNat - 1) / 2) 0 (by omega) (by omega)
  rw [relocating_start] at ran
  exact ⟨(size.toNat - 1) / 2 + 1, _, by omega, by omega, ran⟩

/-- A negative size ends the loop at once. -/
theorem relocate_negative (linked : Linked beginning size) (negative : 32768 ≤ size.toNat)
    (memory : Memory) :
    relocate 1 beginning size memory = .returned () (copied beginning memory 2) := by
  have last : (UInt16.ofNat (2 * (0 + 1))).toInt16 ≥ size.toInt16 := by
    rw [toInt16_ge_iff (by decide), if_neg (by omega)]
    decide
  apply loop_leave
  have turn := @relocateTurn_eq _ _ memory 0 linked (by omega)
  rw [if_pos last, relocating_start] at turn
  exact turn

/-- The largest signed number is odd, and no place of a word comes up to it: the loop goes on. -/
theorem relocate_largest (largest : size.toNat = 32767) (turns : Nat) (memory after : Memory) :
    relocate turns beginning size memory ≠ .returned () after := by
  refine @loop_invariant _ _ _ (relocateTurn size) ⟨beginning, dataBaseOffset⟩ memory
    (fun cursor _ => cursor.di.toNat % 2 = 0) (fun outcome => outcome ≠ .returned () after)
    (fun cursor before even => ?_) (fun _ _ _ => nofun) turns rfl
  have bound := cursor.di.toNat_lt
  have next : (cursor.di + 2).toNat = (cursor.di.toNat + 2) % 2 ^ 16 := UInt16.toNat_add _ _
  have again : ¬ (cursor.di + 2).toInt16 ≥ size.toInt16 := by
    have ofNat : cursor.di + 2 = UInt16.ofNat ((cursor.di.toNat + 2) % 2 ^ 16) := by
      rw [← next, UInt16.ofNat_toNat]
    rw [ofNat, toInt16_ge_iff (Nat.mod_lt _ (by decide)), largest]
    split <;> omega
  rw [relocateTurn]
  split
  · exact nofun
  · simp only [if_neg again, Establishes]
    rw [next]
    omega

end Turns

section Sizes

variable {beginning size : UInt16} {memory : Memory}

/-- What has been copied is what the code segment has. -/
theorem copied_inside (linked : Linked beginning size) {count i : Nat} (within : i < count)
    (atMost : count ≤ size.toNat + 1) :
    copied beginning memory count (linear segmentData dataBaseOffset + i) =
      memory (linear segmentCode beginning + i) := by
  have fits := linked.fits
  refine Memory.copyUp_inside (Or.inr ?_) within
  change 16 * 0x1000 + beginning.toNat + count ≤ 16 * 0x2000 + 0
  omega

/-- Everything is copied for sizes up to 32766. From 32768 on the loop ends with two bytes
copied, and for the size between it never ends. -/
theorem relocation_complete_iff (linked : Linked beginning size) (memory : Memory) :
    Relocates beginning size memory ↔
      size.toNat ≤ 32766 ∨ 32768 ≤ size.toNat ∧ ∀ i, 2 ≤ i → i < size.toNat →
        memory (linear segmentData dataBaseOffset + i) =
          memory (linear segmentCode beginning + i) := by
  rcases Nat.lt_trichotomy size.toNat 32767 with small | largest | negative
  · obtain ⟨turns, count, enough, atMost, ran⟩ :=
      relocate_small linked (Nat.le_of_lt_succ small) memory
    refine iff_of_true ⟨turns, _, ran, fun i within => ?_⟩ (Or.inl (Nat.le_of_lt_succ small))
    exact copied_inside linked (Nat.lt_of_lt_of_le within enough) atMost
  · refine iff_of_false ?_ (by omega)
    rintro ⟨turns, after, ran, _⟩
    exact relocate_largest largest turns memory after ran
  · have ran := relocate_negative linked negative memory
    have kept (i : Nat) (beyond : 2 ≤ i) :
        copied beginning memory 2 (linear segmentData dataBaseOffset + i) =
          memory (linear segmentData dataBaseOffset + i) :=
      Memory.copyUp_outside (Or.inr (Nat.add_le_add_left beyond _))
    have far : 32768 ≤ size.toNat := negative
    rw [or_iff_right (by omega), and_iff_right far]
    constructor
    · rintro ⟨turns, after, ran', complete⟩ i beyond within
      obtain ⟨_, rfl⟩ := loop_unique ran ran'
      rw [← kept i beyond]
      exact complete i within
    · intro same
      refine ⟨1, _, ran, fun i within => ?_⟩
      by_cases beyond : 2 ≤ i
      · rw [kept i beyond]
        exact same i beyond within
      · exact copied_inside linked (Nat.lt_of_not_le beyond) (by omega)

/-- Memory with one byte in it, behind the first two bytes of the data sections. -/
def thirdByte : Memory := fun place => if place = linear segmentCode 0x1000 + 2 then 1 else 0

theorem relocation_complete_iff_odd :
    Relocates 0x1000 5 thirdByte ↔
      (5 : UInt16).toNat ≤ 32766 ∨ 32768 ≤ (5 : UInt16).toNat ∧
        ∀ i, 2 ≤ i → i < (5 : UInt16).toNat →
          thirdByte (linear segmentData dataBaseOffset + i) =
            thirdByte (linear segmentCode 0x1000 + i) :=
  relocation_complete_iff ⟨by decide, by decide⟩ thirdByte

/-- Of 32 KB of data sections, the third byte does not arrive. -/
theorem relocation_stops_early : ¬ Relocates 0x1000 0x8000 thirdByte := by
  rintro ⟨turns, after, ran, complete⟩
  obtain ⟨_, rfl⟩ := loop_unique
    (relocate_negative ⟨by decide, by decide⟩ (by decide) thirdByte) ran
  exact absurd (complete 2 (by decide)) (by decide +kernel)

end Sizes

end Bootloader.Arch
