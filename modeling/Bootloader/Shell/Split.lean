import Bootloader.Libc.StrOperations
import Bootloader.Std.Words

/-!
# `shell_split_line`

The line is cut where it stands: a zero goes over the first space behind every argument, and
the array gets the place of each. `Splitting` relates what has been cut to the words that have
been found, turn by turn.
-/

namespace Bootloader.Shell

open Bootloader.Libc Bootloader.Std

/-- `' '`. -/
def space : UInt8 := 0x20

/-- `SHELL_ARGS_MAX_NB`. -/
def shellArgsMaxNb : UInt8 := 10

/-- Memory, and the places that an argument's pointer has been stored at. -/
structure SplitState where
  memory : Memory
  stored : List UInt32

/-- `*argv = ptr`. -/
def SplitState.storeArg (argv ptr : UInt32) (state : SplitState) : SplitState where
  memory := state.memory.store32 argv.toNat ptr
  stored := state.stored ++ [argv]

/-- The variables of the loop in `shell_split_line`. -/
structure SplitCursor where
  line : UInt32
  argv : UInt32
  argc : UInt8

/-- One turn of the loop over the spaces behind an argument. -/
def skipTurn (ptrNextArg : UInt32) (memory : Memory) : Outcome Memory (Turn UInt32 UInt32) :=
  if memory ptrNextArg.toNat = space then .returned (.again (ptrNextArg + 1)) memory
  else .returned (.leave ptrNextArg) memory

/-- One turn of the loop in `shell_split_line`. -/
def shellSplitTurn (cursor : SplitCursor) (state : SplitState) :
    Outcome SplitState (Turn SplitCursor UInt8) :=
  if cursor.line ≠ 0 ∧ cursor.argc ≤ shellArgsMaxNb then
    ((strchr cursor.line space state.memory).within ({ state with memory := · })).andThen
      fun ptrNextArg state =>
        if ptrNextArg = 0 then .returned (.leave cursor.argc) state
        else
          ((loop skipTurn stringTurns (ptrNextArg + 1)
            (state.memory.store8 ptrNextArg.toNat 0)).within
              ({ state with memory := · })).andThen fun ptrNextArg state =>
                if state.memory ptrNextArg.toNat = 0 then .returned (.leave cursor.argc) state
                else
                  .returned (.again ⟨ptrNextArg, cursor.argv + 4, cursor.argc + 1⟩)
                    (state.storeArg cursor.argv ptrNextArg)
  else .returned (.leave cursor.argc) state

/-- `shell_split_line`. Every turn but the last one counts an argument. -/
def shellSplitLine (line argv : UInt32) (state : SplitState) : Outcome SplitState UInt8 :=
  loop shellSplitTurn (shellArgsMaxNb.toNat + 1) ⟨line, argv + 4, 1⟩ (state.storeArg argv line)

/-- What `shell_split_line` takes for the arguments of a line: the letters up to the first
space, which may be none, and the words behind it. -/
def arguments (text : List UInt8) : List (List UInt8) :=
  firstWord space text :: words space (behindWord space text)

/-- The places of the first pointers in the array. -/
def slots (argv : UInt32) (count : Nat) : List UInt32 :=
  (List.range count).map fun i => argv + UInt32.ofNat (4 * i)

/-- A line and an array of `SHELL_ARGS_MAX_NB` pointers that lie apart. -/
structure Apart (line argv : UInt32) (length : Nat) : Prop where
  fits : argv.toNat + 4 * shellArgsMaxNb.toNat ≤ 2 ^ 32
  apart : argv.toNat + 4 * shellArgsMaxNb.toNat ≤ line.toNat ∨ line.toNat + length < argv.toNat

/-- Nothing but the characters of the line and the first pointers of the array has changed. -/
def OnlyWithin (line argv : UInt32) (length count : Nat) (before after : Memory) : Prop :=
  ∀ place, (place < line.toNat ∨ line.toNat + length ≤ place) →
    (place < argv.toNat ∨ argv.toNat + 4 * count ≤ place) → after place = before place

/-- The array points to these strings. -/
def PointsTo (argv : UInt32) (args : List (List UInt8)) (memory : Memory) : Prop :=
  ∀ i (within : i < args.length), CString memory (memory.load32 (argv.toNat + 4 * i)) args[i]

/-- What there is of the line when it has been split into these arguments. -/
structure SplitInto (line argv : UInt32) (length : Nat) (before : SplitState)
    (args : List (List UInt8)) (argc : UInt8) (after : SplitState) : Prop where
  counted : argc.toNat = args.length
  pointsTo : PointsTo argv args after.memory
  frame : OnlyWithin line argv length args.length before.memory after.memory
  stored : after.stored = before.stored ++ slots argv args.length

/-- The invariant of the loop: the arguments that are done stand in front of the one that is
being cut, which the array points to already. -/
structure Splitting (line argv : UInt32) (length : Nat) (before : SplitState)
    (done : List (List UInt8)) (text : List UInt8) (cursor : SplitCursor) (state : SplitState) :
    Prop where
  few : done.length < shellArgsMaxNb.toNat
  counted : cursor.argc.toNat = done.length + 1
  next : cursor.argv = argv + UInt32.ofNat (4 * (done.length + 1))
  here : CString state.memory cursor.line text
  start : line.toNat ≤ cursor.line.toNat
  ends : cursor.line.toNat + text.length ≤ line.toNat + length
  current : state.memory.load32 (argv.toNat + 4 * done.length) = cursor.line
  pointsTo : PointsTo argv done state.memory
  below : ∀ i (within : i < done.length),
    line.toNat ≤ (state.memory.load32 (argv.toNat + 4 * i)).toNat ∧
      (state.memory.load32 (argv.toNat + 4 * i)).toNat + done[i].length < cursor.line.toNat
  frame : OnlyWithin line argv length (done.length + 1) before.memory state.memory
  stored : state.stored = before.stored ++ slots argv (done.length + 1)

section Texts

variable {word text rest : List UInt8}

/-- An argument with nothing behind it. -/
theorem arguments_word (absent : space ∉ word) : arguments word = [word] := by
  have apart := @takeApart _ _ space word [] absent (by simp [AtSeparator])
  rw [List.append_nil] at apart
  rw [arguments, apart.1, apart.2, words_nil]

/-- An argument, and the spaces and the text behind it. -/
theorem arguments_append (absent : space ∉ word) (count : Nat) (rest : List UInt8) :
    arguments (word ++ space :: (List.replicate count space ++ rest)) =
      word :: words space rest := by
  have behind : AtSeparator space (space :: (List.replicate count space ++ rest)) := by
    simp [AtSeparator]
  rw [arguments, (takeApart absent behind).1, (takeApart absent behind).2, words_separator,
    words_replicate]

/-- A text that begins with a word has its words for arguments. -/
theorem arguments_eq_words (nonempty : text ≠ []) (atWord : AtWord space text) :
    arguments text = words space text := by
  obtain ⟨word, rest, rfl, absent, behind⟩ := exists_word space text
  have wordSome : word ≠ [] := by
    rintro rfl
    obtain ⟨letter, tail, rfl⟩ := List.exists_cons_of_ne_nil nonempty
    exact atWord letter rfl (behind letter rfl)
  rw [arguments, (takeApart absent behind).1, (takeApart absent behind).2,
    words_append wordSome absent behind]

theorem slots_succ (argv : UInt32) (count : Nat) :
    slots argv (count + 1) = slots argv count ++ [argv + UInt32.ofNat (4 * count)] := by
  rw [slots, List.range_succ, List.map_append]
  rfl

end Texts

section Cuts

variable {line argv ptr : UInt32} {length : Nat} {before state : SplitState}
  {done : List (List UInt8)} {word text rest : List UInt8} {cursor : SplitCursor}

/-- One more string that the array points to. -/
theorem PointsTo.concat {memory : Memory} (pointsTo : PointsTo argv done memory)
    (current : memory.load32 (argv.toNat + 4 * done.length) = ptr)
    (string : CString memory ptr word) : PointsTo argv (done ++ [word]) memory := by
  intro i within
  rw [List.length_append, List.length_singleton] at within
  by_cases last : i = done.length
  · subst last
    rw [current, List.getElem_concat_length rfl]
    exact string
  · have earlier : i < done.length := by omega
    rw [List.getElem_append_left earlier]
    exact pointsTo i earlier

/-- The argument that is being cut is the last one. -/
theorem Splitting.finish (splitting : Splitting line argv length before done text cursor state) :
    SplitInto line argv length before (done ++ [text]) cursor.argc state where
  counted := by rw [splitting.counted, List.length_append, List.length_singleton]
  pointsTo := splitting.pointsTo.concat splitting.current splitting.here
  frame := by
    rw [List.length_append, List.length_singleton]
    exact splitting.frame
  stored := by
    rw [List.length_append, List.length_singleton]
    exact splitting.stored

/-- The array does not stand where the line is cut. -/
theorem Apart.load32 (apart : Apart line argv length) {memory : Memory} {place i : Nat}
    {byte : UInt8} (above : line.toNat ≤ place) (below : place ≤ line.toNat + length)
    (within : i < shellArgsMaxNb.toNat) :
    (memory.store8 place byte).load32 (argv.toNat + 4 * i) =
      memory.load32 (argv.toNat + 4 * i) := by
  apply Memory.load32_store8_outside
  have := apart.apart
  omega

/-- A zero behind the argument. -/
theorem Splitting.cut (apart : Apart line argv length)
    (splitting : Splitting line argv length before done (word ++ space :: rest) cursor state) :
    Splitting line argv length before done word cursor
      { state with memory := state.memory.store8 (cursor.line.toNat + word.length) 0 } := by
  have few := splitting.few
  have start := splitting.start
  have ends := splitting.ends
  rw [List.length_append, List.length_cons] at ends
  have loads (i : Nat) (within : i ≤ done.length) :
      (state.memory.store8 (cursor.line.toNat + word.length) 0).load32 (argv.toNat + 4 * i) =
        state.memory.load32 (argv.toNat + 4 * i) :=
    apart.load32 (by omega) (by omega) (by omega)
  refine ⟨few, splitting.counted, splitting.next, splitting.here.cut, start, by omega,
    (loads _ (Nat.le_refl _)).trans splitting.current, fun i within => ?_, fun i within => ?_,
    fun place outside beyond => ?_, splitting.stored⟩
  · have below := splitting.below i within
    rw [loads i (Nat.le_of_lt within)]
    apply (splitting.pointsTo i within).congr
    intro place _ upTo
    exact Memory.store8_of_ne (by omega)
  · rw [loads i (Nat.le_of_lt within)]
    exact splitting.below i within
  · rw [← splitting.frame place outside beyond]
    exact Memory.store8_of_ne (by omega)

/-- The next argument goes into the array. -/
theorem Splitting.advance (apart : Apart line argv length)
    (splitting : Splitting line argv length before done word cursor state)
    (there : CString state.memory ptr text)
    (behind : cursor.line.toNat + word.length < ptr.toNat)
    (ends : ptr.toNat + text.length ≤ line.toNat + length)
    (few : done.length + 1 < shellArgsMaxNb.toNat) :
    Splitting line argv length before (done ++ [word]) text
      ⟨ptr, cursor.argv + 4, cursor.argc + 1⟩ (state.storeArg cursor.argv ptr) := by
  have size : (done ++ [word]).length = done.length + 1 := by simp
  have ten : shellArgsMaxNb.toNat = 10 := rfl
  have fits := apart.fits
  have off := apart.apart
  have start := splitting.start
  have counted := splitting.counted
  have place : cursor.argv.toNat = argv.toNat + 4 * (done.length + 1) := by
    rw [splitting.next, toNat_offset (by omega)]
  have loads (i : Nat) (within : i ≤ done.length) :
      (state.memory.store32 cursor.argv.toNat ptr).load32 (argv.toNat + 4 * i) =
        state.memory.load32 (argv.toNat + 4 * i) :=
    Memory.load32_store32_disjoint (by omega)
  have keeps {start : UInt32} {string : List UInt8} (stands : CString state.memory start string)
      (above : line.toNat ≤ start.toNat)
      (below : start.toNat + string.length ≤ line.toNat + length) :
      CString (state.memory.store32 cursor.argv.toNat ptr) start string := by
    apply stands.congr
    intro other _ upTo
    exact Memory.store32_outside (by omega)
  have doneKept : PointsTo argv done (state.memory.store32 cursor.argv.toNat ptr) := by
    intro i within
    obtain ⟨above, below⟩ := splitting.below i within
    have ends := splitting.ends
    rw [loads i (Nat.le_of_lt within)]
    exact keeps (splitting.pointsTo i within) above (by omega)
  have later : line.toNat ≤ ptr.toNat := by omega
  have passed : cursor.line.toNat < ptr.toNat := by omega
  refine ⟨by rw [size]; exact few, ?_, ?_, keeps there later ends, later, ends, ?_,
    doneKept.concat ((loads _ (Nat.le_refl _)).trans splitting.current)
      (keeps splitting.here start splitting.ends), fun i within => ?_,
    fun other outside beyond => ?_, ?_⟩
  · rw [size, UInt8.toNat_add, counted]
    exact Nat.mod_eq_of_lt (show done.length + 1 + 1 < 256 by omega)
  · rw [size, splitting.next, show 4 * (done.length + 1 + 1) = 4 * (done.length + 1) + 4 by omega,
      UInt32.ofNat_add, ← UInt32.add_assoc]
    rfl
  · rw [size, ← place]
    exact Memory.load32_store32 _ _ _
  · rw [size] at within
    by_cases last : i = done.length
    · subst last
      rw [SplitState.storeArg, loads _ (Nat.le_refl _), splitting.current,
        List.getElem_concat_length rfl]
      exact ⟨start, behind⟩
    · have earlier : i < done.length := by omega
      obtain ⟨above, below⟩ := splitting.below i earlier
      rw [SplitState.storeArg, loads i (Nat.le_of_lt earlier), List.getElem_append_left earlier]
      exact ⟨above, Nat.lt_trans below passed⟩
  · rw [size] at beyond
    rw [← splitting.frame other outside (by omega)]
    exact Memory.store32_outside (by omega)
  · rw [size, slots_succ, ← List.append_assoc, ← splitting.stored, ← splitting.next]
    rfl

end Cuts

section Turns

variable {line argv ptr : UInt32} {length : Nat} {before state : SplitState}
  {done : List (List UInt8)} {word text rest : List UInt8} {cursor : SplitCursor}
  {memory : Memory} {count : Nat}

/-- The inner loop goes over the spaces. -/
theorem skip_eq (string : CString memory ptr (List.replicate count space ++ rest))
    (atWord : AtWord space rest) :
    loop skipTurn stringTurns ptr memory = .returned (ptr + UInt32.ofNat count) memory := by
  have walk : ∀ turns, count < turns →
      loop skipTurn turns ptr memory = .returned (ptr + UInt32.ofNat count) memory := by
    intro turns enough
    induction count generalizing ptr turns with
    | zero =>
        obtain ⟨turns, rfl⟩ := Nat.exists_eq_add_of_lt enough
        have other : ¬ memory ptr.toNat = space := by
          rw [string.head, List.replicate_zero, List.nil_append]
          cases rest with
          | nil => exact (by decide : ¬ (0 : UInt8) = space)
          | cons c rest => exact atWord c rfl
        rw [offset_zero]
        apply loop_leave
        rw [skipTurn, if_neg other]
    | succ count inductionHypothesis =>
        obtain ⟨turns, rfl⟩ := Nat.exists_eq_add_of_lt enough
        rw [List.replicate_succ, List.cons_append] at string
        have passed : skipTurn ptr memory = .returned (.again (ptr + 1)) memory := by
          rw [skipTurn, if_pos string.2.2.1]
        rw [loop_again passed, inductionHypothesis string.2.2.2 _ (by omega), offset_succ]
  have short := string.front_lt
  rw [List.length_replicate] at short
  exact walk stringTurns short

/-- The loop looks for one more argument. -/
theorem Splitting.goesOn (splitting : Splitting line argv length before done text cursor state) :
    cursor.line ≠ 0 ∧ cursor.argc ≤ shellArgsMaxNb := by
  refine ⟨splitting.here.ne_zero, UInt8.le_iff_toNat_le.mpr ?_⟩
  rw [splitting.counted]
  exact splitting.few

/-- No space is left. -/
theorem Splitting.turn_last
    (splitting : Splitting line argv length before done word cursor state)
    (absent : space ∉ word) :
    shellSplitTurn cursor state = .returned (.leave cursor.argc) state := by
  rw [shellSplitTurn, if_pos splitting.goesOn, strchr_absent splitting.here (by decide) absent]
  rfl

/-- What is behind the argument, in the memory where it has been cut. -/
theorem Splitting.behindCut
    (splitting : Splitting line argv length before done (word ++ space :: rest) cursor state) :
    CString (state.memory.store8 (cursor.line.toNat + word.length) 0)
        (cursor.line + UInt32.ofNat word.length + 1) rest ∧
      (cursor.line + UInt32.ofNat word.length + 1).toNat =
        cursor.line.toNat + word.length + 1 := by
  have drop := splitting.here.drop
  have place := splitting.here.toNat_drop
  have next := drop.toNat_next
  rw [place] at next
  refine ⟨drop.2.2.2.congr fun other above _ => Memory.store8_of_ne ?_, next⟩
  rw [next] at above
  omega

/-- What a turn does to an argument with spaces behind it. -/
theorem Splitting.turn_cut
    (splitting : Splitting line argv length before done
      (word ++ space :: (List.replicate count space ++ rest)) cursor state)
    (absent : space ∉ word) (atWord : AtWord space rest) :
    ∃ ptr, ptr.toNat = cursor.line.toNat + word.length + 1 + count ∧
      CString (state.memory.store8 (cursor.line.toNat + word.length) 0) ptr rest ∧
      shellSplitTurn cursor state =
        if rest = [] then
          .returned (.leave cursor.argc)
            { state with memory := state.memory.store8 (cursor.line.toNat + word.length) 0 }
        else
          .returned (.again ⟨ptr, cursor.argv + 4, cursor.argc + 1⟩)
            (SplitState.storeArg cursor.argv ptr
              { state with
                memory := state.memory.store8 (cursor.line.toNat + word.length) 0 }) := by
  obtain ⟨behind, place⟩ := splitting.behindCut
  have there := behind.drop
  have reached := behind.toNat_drop
  rw [List.length_replicate] at there reached
  refine ⟨_, reached.trans (by rw [place]), there, ?_⟩
  have found := strchr_found splitting.here absent
  have nonzero : ¬ cursor.line + UInt32.ofNat word.length = 0 := splitting.here.drop.ne_zero
  have ended : (state.memory.store8 (cursor.line.toNat + word.length) 0)
      (cursor.line + UInt32.ofNat word.length + 1 + UInt32.ofNat count).toNat = 0 ↔ rest = [] := by
    rw [there.head]
    cases rest with
    | nil => exact iff_of_true rfl rfl
    | cons c rest => exact iff_of_false there.2.1 (List.cons_ne_nil _ _)
  rw [shellSplitTurn, if_pos splitting.goesOn, found, Outcome.returned_within,
    Outcome.returned_andThen, if_neg nonzero, splitting.here.toNat_drop, skip_eq behind atWord,
    Outcome.returned_within, Outcome.returned_andThen]
  simp only [ended]

/-- Behind the last place of the array there is one more pointer stored, and the loop ends. -/
theorem Splitting.full (splitting : Splitting line argv length before done text cursor state)
    (full : ¬ done.length + 1 < shellArgsMaxNb.toNat) (ptr : UInt32) (after : SplitState) :
    cursor.argc + 1 = shellArgsMaxNb + 1 ∧
      shellSplitTurn ⟨ptr, cursor.argv + 4, cursor.argc + 1⟩ after =
        .returned (.leave (cursor.argc + 1)) after ∧
      state.stored ++ [cursor.argv] = before.stored ++ slots argv (shellArgsMaxNb.toNat + 1) := by
  have few := splitting.few
  have counted := splitting.counted
  have same : cursor.argc = shellArgsMaxNb := UInt8.toNat_inj.mp (by omega)
  have beyond : ¬ shellArgsMaxNb + 1 ≤ shellArgsMaxNb := by decide
  refine ⟨by rw [same], ?_, ?_⟩
  · rw [shellSplitTurn, same, if_neg fun both => beyond both.2]
  · rw [show shellArgsMaxNb.toNat + 1 = done.length + 1 + 1 by omega, slots_succ,
      ← List.append_assoc, ← splitting.stored, ← splitting.next]

end Turns

section Runs

variable {line argv : UInt32} {length : Nat} {before state : SplitState}
  {done : List (List UInt8)} {text : List UInt8} {cursor : SplitCursor}

/-- What the loop returns: the arguments, where there are at most as many as the array has room
for, and otherwise one more than that, with a pointer stored behind the array. -/
def SplitResult (line argv : UInt32) (length : Nat) (before : SplitState)
    (args : List (List UInt8)) (argc : UInt8) (after : SplitState) : Prop :=
  args.length ≤ shellArgsMaxNb.toNat ∧ SplitInto line argv length before args argc after ∨
    shellArgsMaxNb.toNat < args.length ∧ argc = shellArgsMaxNb + 1 ∧
      after.stored = before.stored ++ slots argv (shellArgsMaxNb.toNat + 1)

/-- The loop comes back with the arguments of the line. -/
theorem Splitting.run (apart : Apart line argv length)
    (splitting : Splitting line argv length before done text cursor state) {turns : Nat}
    (enough : shellArgsMaxNb.toNat < done.length + turns) :
    ∃ argc after, loop shellSplitTurn turns cursor state = .returned argc after ∧
      SplitResult line argv length before (done ++ arguments text) argc after := by
  have ten : shellArgsMaxNb.toNat = 10 := rfl
  induction turns generalizing done text cursor state with
  | zero => exact absurd enough (Nat.not_lt.mpr (Nat.le_of_lt splitting.few))
  | succ turns inductionHypothesis =>
      have few := splitting.few
      obtain ⟨word, rest, rfl, absent, behind⟩ := exists_word space text
      cases rest with
      | nil =>
          rw [List.append_nil] at splitting ⊢
          rw [arguments_word absent]
          refine ⟨_, _, loop_leave (splitting.turn_last absent), Or.inl ⟨?_, splitting.finish⟩⟩
          rw [List.length_append, List.length_singleton]
          exact few
      | cons c rest =>
          obtain rfl : c = space := behind c rfl
          obtain ⟨count, next, rfl, atWord⟩ := exists_gap space rest
          obtain ⟨ptr, place, there, turn⟩ := splitting.turn_cut absent atWord
          have ends := splitting.ends
          simp only [List.length_append, List.length_cons, List.length_replicate] at ends
          have cut := splitting.cut apart
          rw [arguments_append absent]
          by_cases last : next = []
          · rw [if_pos last] at turn
            rw [last, words_nil]
            refine ⟨_, _, loop_leave turn, Or.inl ⟨?_, cut.finish⟩⟩
            rw [List.length_append, List.length_singleton]
            exact few
          · rw [if_neg last] at turn
            rw [loop_again turn, ← arguments_eq_words last atWord]
            by_cases room : done.length + 1 < shellArgsMaxNb.toNat
            · have advanced := cut.advance apart there (by omega) (by omega) room
              rw [List.append_cons]
              refine inductionHypothesis advanced ?_
              rw [List.length_append, List.length_singleton]
              omega
            · obtain ⟨turns, rfl⟩ : ∃ fewer, turns = fewer + 1 := ⟨turns - 1, by omega⟩
              obtain ⟨full, left, stored⟩ := splitting.full room ptr _
              refine ⟨_, _, loop_leave left, Or.inr ⟨?_, full, stored⟩⟩
              rw [arguments, List.length_append, List.length_cons, List.length_cons]
              omega

/-- The array gets the line as its first argument. -/
theorem splitting_start (apart : Apart line argv text.length)
    (string : CString before.memory line text) :
    Splitting line argv text.length before [] text ⟨line, argv + 4, 1⟩
      (before.storeArg argv line) where
  few := by decide
  counted := rfl
  next := rfl
  here := by
    have ten : shellArgsMaxNb.toNat = 10 := rfl
    have off := apart.apart
    apply string.congr
    intro place above below
    exact Memory.store32_outside (by omega)
  start := Nat.le_refl _
  ends := Nat.le_refl _
  current := Memory.load32_store32 _ _ _
  pointsTo _ within := absurd within (Nat.not_lt_zero _)
  below _ within := absurd within (Nat.not_lt_zero _)
  frame place _ beyond := Memory.store32_outside (by simpa using beyond)
  stored := by
    rw [List.length_nil, slots_succ, slots]
    exact congrArg (before.stored ++ [·]) (offset_zero argv).symm

/-- `shell_split_line` comes back with the arguments of the line. -/
theorem shellSplitLine_eq (apart : Apart line argv text.length)
    (string : CString before.memory line text) :
    ∃ argc after, shellSplitLine line argv before = .returned argc after ∧
      SplitResult line argv text.length before (arguments text) argc after :=
  (splitting_start apart string).run apart (by decide)

/-- A line that begins with a word is split into its words. -/
theorem shell_split_words (apart : Apart line argv text.length)
    (string : CString before.memory line text) (nonempty : text ≠ []) (atWord : AtWord space text)
    (few : (words space text).length ≤ shellArgsMaxNb.toNat) :
    ∃ argc after, shellSplitLine line argv before = .returned argc after ∧
      SplitInto line argv text.length before (words space text) argc after := by
  obtain ⟨argc, after, ran, result⟩ := shellSplitLine_eq apart string
  rw [arguments_eq_words nonempty atWord] at result
  rcases result with ⟨_, split⟩ | ⟨many, _⟩
  · exact ⟨argc, after, ran, split⟩
  · exact absurd few (Nat.not_le.mpr many)

/-- `shell_split_line` stores nowhere but in the array, and counts no more arguments than
that has room for. -/
def StaysInArray (line argv : UInt32) (memory : Memory) : Prop :=
  ∃ argc after, shellSplitLine line argv ⟨memory, []⟩ = .returned argc after ∧
    argc ≤ shellArgsMaxNb ∧ ∀ slot ∈ after.stored, slot ∈ slots argv shellArgsMaxNb.toNat

/-- The place behind the array is none of its places. -/
theorem behind_not_mem_slots (argv : UInt32) :
    argv + UInt32.ofNat (4 * shellArgsMaxNb.toNat) ∉ slots argv shellArgsMaxNb.toNat := by
  have apart : ∀ i < 10, UInt32.ofNat (4 * i) ≠ UInt32.ofNat 40 := by decide
  rw [slots, List.mem_map]
  rintro ⟨i, member, same⟩
  exact apart i (List.mem_range.mp member) (UInt32.add_right_inj argv |>.mp same)

theorem slots_mono (argv : UInt32) {count more : Nat} (fewer : count ≤ more) {slot : UInt32}
    (member : slot ∈ slots argv count) : slot ∈ slots argv more := by
  rw [slots, List.mem_map] at member ⊢
  obtain ⟨i, within, same⟩ := member
  exact ⟨i, List.mem_range.mpr (Nat.lt_of_lt_of_le (List.mem_range.mp within) fewer), same⟩

/-- The array is not overrun exactly when at most nine words stand behind the first space. -/
theorem shell_split_stays_iff {memory : Memory} (apart : Apart line argv text.length)
    (string : CString memory line text) :
    StaysInArray line argv memory ↔ (words space (behindWord space text)).length ≤ 9 := by
  have ten : shellArgsMaxNb.toNat = 10 := rfl
  have size : (arguments text).length = (words space (behindWord space text)).length + 1 :=
    List.length_cons
  obtain ⟨argc, after, ran, result⟩ := @shellSplitLine_eq line argv ⟨memory, []⟩ text apart string
  rcases result with ⟨few, split⟩ | ⟨many, overran, stored⟩
  · refine iff_of_true ⟨argc, after, ran, ?_, fun slot member => ?_⟩ (by omega)
    · rw [UInt8.le_iff_toNat_le, split.counted]
      exact few
    · rw [split.stored, List.nil_append] at member
      exact slots_mono argv few member
  · refine iff_of_false ?_ (by omega)
    rintro ⟨argc', after', ran', _, stays⟩
    rw [ran] at ran'
    cases ran'
    refine behind_not_mem_slots argv (stays _ ?_)
    rw [stored, slots_succ]
    exact List.mem_append_right _ (List.mem_append_right _ (List.mem_singleton_self _))

end Runs

section Lines

/-- The line "int  21 ". -/
def intLine : List UInt8 := [0x69, 0x6E, 0x74, 0x20, 0x20, 0x32, 0x31, 0x20]

/-- Eleven words. -/
def longLine : List UInt8 := (List.replicate 10 [0x61, 0x20]).flatten ++ [0x61]

/-- A line at 0x3000. -/
def lineMemory (text : List UInt8) : Memory := Memory.storeBytes (fun _ => 0) 0x3000 text

theorem apart_intLine : Apart 0x3000 0x2000 intLine.length := ⟨by decide, by decide⟩

theorem cstring_intLine : CString (lineMemory intLine) 0x3000 intLine := by decide +kernel

theorem shell_split_words_int :
    ∃ argc after, shellSplitLine 0x3000 0x2000 ⟨lineMemory intLine, []⟩ = .returned argc after ∧
      SplitInto 0x3000 0x2000 intLine.length ⟨lineMemory intLine, []⟩ (words space intLine) argc
        after :=
  @shell_split_words 0x3000 0x2000 ⟨lineMemory intLine, []⟩ intLine apart_intLine cstring_intLine
    (by decide) (by simp [AtWord, intLine, space]) (by decide)

theorem shell_split_stays_iff_int :
    StaysInArray 0x3000 0x2000 (lineMemory intLine) ↔
      (words space (behindWord space intLine)).length ≤ 9 :=
  shell_split_stays_iff apart_intLine cstring_intLine

/-- Eleven words are one too many. -/
theorem shell_split_overruns : ¬ StaysInArray 0x3000 0x2000 (lineMemory longLine) := by
  rintro ⟨argc, after, ran, few, _⟩
  have overran : (shellSplitLine 0x3000 0x2000 ⟨lineMemory longLine, []⟩).passes
      (fun argc _ => argc = 11) = true := by
    decide +kernel
  rw [ran] at overran
  obtain rfl : argc = 11 := of_decide_eq_true overran
  exact absurd few (by decide)

end Lines

end Bootloader.Shell
