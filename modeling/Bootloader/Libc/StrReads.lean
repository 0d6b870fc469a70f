import Bootloader.Libc.StrCompare

/-!
# What a comparison reads

`strncmp` compares the characters at its pointers once more behind the loop, whether or not any
have been asked for. Here it keeps the places it reads. `strncmp_compares_iff` says that it keeps
to the first `n` characters as long as there is one of them.
-/

namespace Bootloader.Libc

open Bootloader.Std

/-- Memory, and the places that a comparison has read through each of its pointers. -/
structure Reading where
  memory : Memory
  places1 : List UInt32
  places2 : List UInt32

namespace Reading

/-- Nothing has been read. -/
def start (memory : Memory) : Reading := ⟨memory, [], []⟩

/-- `*s1`. -/
def load1 (s1 : UInt32) (reading : Reading) : Outcome Reading UInt8 :=
  .returned (reading.memory s1.toNat) { reading with places1 := reading.places1 ++ [s1] }

/-- `*s2`. -/
def load2 (s2 : UInt32) (reading : Reading) : Outcome Reading UInt8 :=
  .returned (reading.memory s2.toNat) { reading with places2 := reading.places2 ++ [s2] }

/-- `*s1 != '\0' && *s2 != '\0' && *s1 == *s2`. -/
def sameCharacter (s1 s2 : UInt32) (reading : Reading) : Outcome Reading Bool :=
  (load1 s1 reading).andThen fun c1 reading =>
    if c1 = 0 then .returned false reading
    else
      (load2 s2 reading).andThen fun c2 reading =>
        if c2 = 0 then .returned false reading
        else
          (load1 s1 reading).andThen fun c1 reading =>
            (load2 s2 reading).andThen fun c2 reading => .returned (c1 = c2) reading

/-- The comparison behind the loop. -/
def compareChars (s1 s2 : UInt32) (reading : Reading) : Outcome Reading Int :=
  (load1 s1 reading).andThen fun c1 reading =>
    (load2 s2 reading).andThen fun c2 reading =>
      if c1 = c2 then .returned 0 reading
      else
        (load1 s1 reading).andThen fun c1 reading =>
          (load2 s2 reading).andThen fun c2 reading =>
            .returned (if charInt c1 < charInt c2 then -1 else 1) reading

/-- One turn of the loop in `strncmp`, and the comparison behind it. -/
def strncmpTurn (n : UInt32) (cursor : CompareCursor) (reading : Reading) :
    Outcome Reading (Turn CompareCursor Int) :=
  (if cursor.i < n then sameCharacter cursor.s1 cursor.s2 reading
    else .returned false reading).andThen fun goesOn reading =>
      if goesOn then
        if cursor.i + 1 < n then
          .returned (.again ⟨cursor.s1 + 1, cursor.s2 + 1, cursor.i + 1⟩) reading
        else .returned (.again ⟨cursor.s1, cursor.s2, cursor.i + 1⟩) reading
      else
        (compareChars cursor.s1 cursor.s2 reading).andThen fun order reading =>
          .returned (.leave order) reading

/-- `strncmp`. -/
def strncmp (s1 s2 n : UInt32) (reading : Reading) : Outcome Reading Int :=
  if s1 = 0 then .panicked "s1 != NULL" reading
  else if s2 = 0 then .panicked "s2 != NULL" reading
  else loop (strncmpTurn n) stringTurns ⟨s1, s2, 0⟩ reading

/-- Of both strings only characters in front of the index `n` have been read. -/
structure Below (s1 s2 n : UInt32) (reading : Reading) : Prop where
  first : ∀ place ∈ reading.places1, ∃ index < n.toNat, place = s1 + UInt32.ofNat index
  second : ∀ place ∈ reading.places2, ∃ index < n.toNat, place = s2 + UInt32.ofNat index

/-- Nothing has been read since but the characters at the pointers. -/
structure ReadsAt (s1 s2 : UInt32) (before after : Reading) : Prop where
  memory : after.memory = before.memory
  first : ∀ place ∈ after.places1, place ∈ before.places1 ∨ place = s1
  second : ∀ place ∈ after.places2, place ∈ before.places2 ∨ place = s2

section Loads

variable {s1 s2 n : UInt32} {before middle after reading : Reading}

theorem ReadsAt.refl (s1 s2 : UInt32) (reading : Reading) : ReadsAt s1 s2 reading reading :=
  ⟨rfl, fun _ member => Or.inl member, fun _ member => Or.inl member⟩

theorem ReadsAt.trans (early : ReadsAt s1 s2 before middle) (late : ReadsAt s1 s2 middle after) :
    ReadsAt s1 s2 before after where
  memory := late.memory.trans early.memory
  first := fun place member => (late.first place member).elim (early.first place) Or.inr
  second := fun place member => (late.second place member).elim (early.second place) Or.inr

/-- A load through the first pointer. -/
theorem ReadsAt.load1 (reads : ReadsAt s1 s2 before reading) :
    ReadsAt s1 s2 before { reading with places1 := reading.places1 ++ [s1] } := by
  refine reads.trans ⟨rfl, fun place member => ?_, fun _ member => Or.inl member⟩
  exact (List.mem_append.mp member).imp_right List.mem_singleton.mp

/-- A load through the second pointer. -/
theorem ReadsAt.load2 (reads : ReadsAt s1 s2 before reading) :
    ReadsAt s1 s2 before { reading with places2 := reading.places2 ++ [s2] } := by
  refine reads.trans ⟨rfl, fun _ member => Or.inl member, fun place member => ?_⟩
  exact (List.mem_append.mp member).imp_right List.mem_singleton.mp

/-- The test of the loop is the one that keeps nothing, at the same two places. -/
theorem sameCharacter_eq (s1 s2 : UInt32) (reading : Reading) :
    ∃ after, sameCharacter s1 s2 reading =
        .returned (decide (SameCharacter reading.memory s1 s2)) after ∧
      ReadsAt s1 s2 reading after := by
  have one := (ReadsAt.refl s1 s2 reading).load1
  by_cases end1 : reading.memory s1.toNat = 0
  · refine ⟨_, ?_, one⟩
    rw [decide_eq_false fun same : SameCharacter reading.memory s1 s2 => same.1 end1]
    exact if_pos end1
  · by_cases end2 : reading.memory s2.toNat = 0
    · refine ⟨_, ?_, one.load2⟩
      rw [decide_eq_false fun same : SameCharacter reading.memory s1 s2 => same.2.1 end2]
      exact (if_neg end1).trans (if_pos end2)
    · refine ⟨_, (if_neg end1).trans ((if_neg end2).trans ?_), one.load2.load1.load2⟩
      have same : SameCharacter reading.memory s1 s2 ↔
          reading.memory s1.toNat = reading.memory s2.toNat :=
        ⟨fun both => both.2.2, fun same => ⟨end1, end2, same⟩⟩
      rw [decide_eq_decide.mpr same]
      rfl

/-- So is the comparison behind the loop, and it reads both characters. -/
theorem compareChars_eq (s1 s2 : UInt32) (reading : Reading) :
    ∃ after, compareChars s1 s2 reading =
        .returned (Libc.compareChars (reading.memory s1.toNat) (reading.memory s2.toNat)) after ∧
      ReadsAt s1 s2 reading after ∧ s1 ∈ after.places1 := by
  have once := (ReadsAt.refl s1 s2 reading).load1.load2
  have here : s1 ∈ reading.places1 ++ [s1] := List.mem_concat_self
  rw [Libc.compareChars]
  by_cases same : reading.memory s1.toNat = reading.memory s2.toNat
  · rw [if_pos same]
    exact ⟨_, if_pos same, once, here⟩
  · rw [if_neg same]
    exact ⟨_, if_neg same, once.load1.load2, List.mem_append_left _ here⟩

/-- Where nothing has been read, nothing has been read too far. -/
theorem start_below {memory : Memory} : (start memory).Below s1 s2 n where
  first := fun _ member => absurd member List.not_mem_nil
  second := fun _ member => absurd member List.not_mem_nil

/-- Reading at an index below the limit. -/
theorem Below.reads {index : Nat} (below : reading.Below s1 s2 n) (within : index < n.toNat)
    (reads : ReadsAt (s1 + UInt32.ofNat index) (s2 + UInt32.ofNat index) reading after) :
    after.Below s1 s2 n where
  first := fun place member => (reads.first place member).elim (below.first place)
    fun same => ⟨index, within, same⟩
  second := fun place member => (reads.second place member).elim (below.second place)
    fun same => ⟨index, within, same⟩

end Loads

/-- The cursors of `strncmp` with and without its reads: both stand at one index of the strings,
in front of `n`, and as long as characters are left to compare that is how many are passed. -/
structure Tracks (s1 s2 n : UInt32) (cursor : CompareCursor) (memory : Memory)
    (cursor' : CompareCursor) (reading : Reading) : Prop where
  cursors : cursor' = cursor
  memories : reading.memory = memory
  below : reading.Below s1 s2 n
  index : ∃ index < n.toNat, cursor.s1 = s1 + UInt32.ofNat index ∧
    cursor.s2 = s2 + UInt32.ofNat index ∧ (cursor.i < n → cursor.i.toNat = index)

/-- What they leave with. -/
structure Ends (s1 s2 n : UInt32) (order : Int) (memory : Memory) (order' : Int)
    (reading : Reading) : Prop where
  orders : order' = order
  memories : reading.memory = memory
  below : reading.Below s1 s2 n

section Runs

variable {s1 s2 n : UInt32} {memory : Memory} {cursor cursor' : CompareCursor}
  {reading after : Reading}

/-- The test of the loop does not read behind the limit. -/
theorem goesOn_eq {index : Nat} (below : reading.Below s1 s2 n) (within : index < n.toNat)
    (at1 : cursor.s1 = s1 + UInt32.ofNat index) (at2 : cursor.s2 = s2 + UInt32.ofNat index) :
    ∃ after, (if cursor.i < n then sameCharacter cursor.s1 cursor.s2 reading
        else .returned false reading) =
          .returned (decide (cursor.i < n ∧ SameCharacter reading.memory cursor.s1 cursor.s2))
            after ∧
      after.memory = reading.memory ∧ after.Below s1 s2 n := by
  by_cases more : cursor.i < n
  · obtain ⟨after, compared, reads⟩ := sameCharacter_eq cursor.s1 cursor.s2 reading
    refine ⟨after, ?_, reads.memory, below.reads within (at1 ▸ at2 ▸ reads)⟩
    rw [if_pos more, compared, decide_eq_decide.mpr (and_iff_right more)]
  · refine ⟨reading, ?_, rfl, below⟩
    rw [if_neg more, decide_eq_false fun both : _ ∧ _ => more both.1]

/-- A turn that keeps its reads does what the turn does that keeps none. -/
theorem strncmpTurn_agrees (tracks : Tracks s1 s2 n cursor memory cursor' reading) :
    Agrees (Tracks s1 s2 n) (Ends s1 s2 n) (Libc.strncmpTurn n cursor memory)
      (strncmpTurn n cursor' reading) := by
  obtain ⟨rfl, rfl, below, index, within, at1, at2, passed⟩ := tracks
  obtain ⟨middle, tested, same, below'⟩ := goesOn_eq below within at1 at2
  rw [strncmpTurn, tested, Outcome.returned_andThen, Libc.strncmpTurn]
  by_cases goesOn : cursor'.i < n ∧ SameCharacter reading.memory cursor'.s1 cursor'.s2
  · rw [if_pos goesOn, if_pos (decide_eq_true goesOn)]
    by_cases more : cursor'.i + 1 < n
    · have here := passed goesOn.1
      have bound := n.toNat_lt
      have next : (cursor'.i + 1).toNat = index + 1 := by
        rw [toNat_add_one (by omega), here]
      rw [if_pos more, if_pos more]
      rw [UInt32.lt_iff_toNat_lt, next] at more
      refine ⟨rfl, same, below', index + 1, more, ?_, ?_, fun _ => next⟩
      · exact at1 ▸ offset_next s1 index
      · exact at2 ▸ offset_next s2 index
    · rw [if_neg more, if_neg more]
      exact ⟨rfl, same, below', index, within, at1, at2, fun less => absurd less more⟩
  · rw [if_neg goesOn, if_neg (fun holds => goesOn (of_decide_eq_true holds))]
    obtain ⟨final, compared, reads, _⟩ := compareChars_eq cursor'.s1 cursor'.s2 middle
    rw [compared, same]
    exact ⟨rfl, reads.memory.trans same, below'.reads within (at1 ▸ at2 ▸ reads)⟩

/-- With characters to compare `strncmp` reads no others, and returns what it does without
keeping its reads. -/
theorem strncmp_below {order : Int} (nonzero : 0 < n)
    (ran : Libc.strncmp s1 s2 n memory = .returned order memory) :
    ∃ after, strncmp s1 s2 n (start memory) = .returned order after ∧
      after.memory = memory ∧ after.Below s1 s2 n := by
  have positive : 0 < n.toNat := UInt32.lt_iff_toNat_lt.mp nonzero
  have tracks : Tracks s1 s2 n ⟨s1, s2, 0⟩ memory ⟨s1, s2, 0⟩ (start memory) :=
    ⟨rfl, rfl, start_below, 0, positive, (offset_zero s1).symm, (offset_zero s2).symm,
      fun _ => rfl⟩
  rw [Libc.strncmp] at ran
  split at ran
  · cases ran
  · split at ran
    · cases ran
    · obtain ⟨order', after, returned, orders, memories, below⟩ :=
        loop_simulation (fun _ _ _ _ => strncmpTurn_agrees) tracks ran
      rw [strncmp, if_neg ‹_›, if_neg ‹_›, returned, orders]
      exact ⟨after, rfl, memories, below⟩

/-- With none to compare it reads the first one all the same. -/
theorem strncmp_reads_first {order : Int}
    (ran : strncmp s1 s2 0 reading = .returned order after) : s1 ∈ after.places1 := by
  obtain ⟨final, compared, _, member⟩ := compareChars_eq s1 s2 reading
  have turn : strncmpTurn 0 ⟨s1, s2, 0⟩ reading =
      .returned (.leave (Libc.compareChars (reading.memory s1.toNat) (reading.memory s2.toNat)))
        final := by
    rw [strncmpTurn, if_neg (UInt32.lt_irrefl 0), Outcome.returned_andThen,
      if_neg Bool.false_ne_true, compared]
    rfl
  rw [strncmp] at ran
  split at ran
  · cases ran
  · split at ran
    · cases ran
    · obtain ⟨turns, enough⟩ := Nat.exists_eq_add_of_lt stringTurns_pos
      rw [enough, loop_leave turn] at ran
      cases ran
      exact member

end Runs

end Reading

/-- What a comparison of the first `n` characters owes to two strings: it returns what `strcmp`
returns for strings of these characters alone, and reads no others. -/
structure ComparesFirst (memory : Memory) (s1 s2 n : UInt32) (text1 text2 : List UInt8)
    (order : Int) (after : Reading) : Prop where
  returned : strncmp s1 s2 n memory = .returned order memory
  keeping : Reading.strncmp s1 s2 n (.start memory) = .returned order after
  asStrcmp : ∀ other t1 t2, CString other t1 (text1.take n.toNat) →
    CString other t2 (text2.take n.toNat) → strcmp t1 t2 other = .returned order other
  below : after.Below s1 s2 n

section Strings

variable {memory : Memory} {s1 s2 n : UInt32} {text1 text2 : List UInt8}

/-- With no characters to compare `strncmp` compares the first ones. -/
theorem strncmp_zero (string1 : CString memory s1 text1) (string2 : CString memory s2 text2) :
    strncmp s1 s2 0 memory =
      .returned (compareChars (text1.headD 0) (text2.headD 0)) memory := by
  obtain ⟨turns, enough⟩ := Nat.exists_eq_add_of_lt stringTurns_pos
  rw [strncmp, if_neg string1.ne_zero, if_neg string2.ne_zero, enough]
  apply loop_leave
  rw [strncmpTurn, if_neg fun both => UInt32.lt_irrefl 0 both.1, compareChars_head string1 string2]

/-- `strncmp` compares the first `n` characters, unless `n` is zero. -/
theorem strncmp_compares_iff (string1 : CString memory s1 text1)
    (string2 : CString memory s2 text2) :
    (∃ order after, ComparesFirst memory s1 s2 n text1 text2 order after) ↔ n > 0 := by
  constructor
  · rintro ⟨order, after, compares⟩
    refine UInt32.pos_iff_ne_zero.mpr ?_
    rintro rfl
    obtain ⟨index, within, _⟩ :=
      compares.below.first s1 (Reading.strncmp_reads_first compares.keeping)
    exact absurd within (Nat.not_lt_zero index)
  · intro positive
    have returned := strncmp_eq string1 string2 positive
    obtain ⟨after, keeping, _, below⟩ := Reading.strncmp_below positive returned
    exact ⟨_, after, returned, keeping, fun _ _ _ first second => strcmp_eq first second, below⟩

/-- Memory with the strings of the characters `a` and `b` at 256 and 512. -/
def lettersApart : Memory :=
  fun place => if place = 256 then 0x61 else if place = 512 then 0x62 else 0

theorem strncmp_compares_iff_letters :
    ∃ order after, ComparesFirst lettersApart 256 512 1 [0x61] [0x62] order after := by
  have string1 : CString lettersApart 256 [0x61] := by decide
  have string2 : CString lettersApart 512 [0x62] := by decide
  exact (strncmp_compares_iff string1 string2).mpr (by decide)

/-- No characters of one compare as less than none of the other. -/
theorem strncmp_of_none_differs :
    ¬ ∃ order after, ComparesFirst lettersApart 256 512 0 [0x61] [0x62] order after := by
  rintro ⟨order, after, compares⟩
  have string1 : CString lettersApart 256 [0x61] := by decide
  have string2 : CString lettersApart 512 [0x62] := by decide
  have empty : CString lettersApart 1 [] := by decide
  have same := compares.asStrcmp lettersApart 1 1 empty empty
  have different := compares.returned
  rw [strcmp_eq empty empty] at same
  rw [strncmp_zero string1 string2] at different
  cases same
  exact absurd (Outcome.returned.inj different).1 (by decide)

end Strings

end Bootloader.Libc
