import Bootloader.Libc.BasicIn
import Bootloader.Shell.Execute

/-!
# `shell_main`, over and over

`main` calls `shell_main` for ever. `typedLines` says what lines it gets from the characters that
are typed, and `shell_session` that each of them is executed once and in its turn, up to the line
that is not complete yet or the command that does not come back.
-/

namespace Bootloader.Shell

open Bootloader.Libc Bootloader.Std

/-- `SHELL_LINE_MAX_LEN`. -/
def shellLineMaxLen : UInt32 := 100

/-- `SHELL_PROMPT "/> "`. -/
def shellPrompt : List UInt8 := [0x64, 0x75, 0x6D, 0x6D, 0x79, 0x2F, 0x3E, 0x20]

/-- The places of the variables of `shell_main` and of the constants it uses. -/
structure ShellFrame where
  line : UInt32
  argv : UInt32
  prompt : UInt32
  names : Command → UInt32

/-- A call that `shell_execute` makes, and the memory it is made in: of the function of a command,
or of `printf` where there is no such command. -/
structure Invocation where
  command : Option Command
  argc : UInt8
  argv : UInt32
  memory : Memory

/-- The console, what is typed, and the calls that have been made. -/
structure ShellState where
  input : LineInput
  invoked : List Invocation

/-- The memory of the shell. -/
def ShellState.memory (state : ShellState) : Memory := state.input.console.memory

/-- The shell with other memory. -/
def ShellState.withMemory (state : ShellState) (memory : Memory) : ShellState :=
  { state with input := { state.input with console := { state.input.console with memory } } }

/-- What the commands do, and `printf` with the message for an unknown one. -/
abbrev Commands := Invocation → LineInput → Outcome LineInput UInt32

/-- `shell_execute`. -/
def ShellState.execute (frame : ShellFrame) (commands : Commands) (argc : UInt8)
    (state : ShellState) : Outcome ShellState UInt32 :=
  ((shellExecute frame.names frame.argv cmdTable state.memory).within state.withMemory).andThen
    fun command state =>
      let invocation := ⟨command, argc, frame.argv, state.memory⟩
      (commands invocation state.input).within fun input =>
        ⟨input, state.invoked ++ [invocation]⟩

/-- `shell_main` behind `getline`, which has returned `n`. -/
def shellLine (frame : ShellFrame) (commands : Commands) (n : UInt32) (state : ShellState) :
    Outcome ShellState Unit :=
  let state := state.withMemory (state.memory.store8 (frame.line + (n - 1)).toNat 0)
  if n > 1 then
    let state := state.withMemory
      (state.memory.storeBytes frame.argv.toNat (List.replicate (4 * shellArgsMaxNb.toNat) 0))
    ((shellSplitLine frame.line frame.argv ⟨state.memory, []⟩).within
      fun split => state.withMemory split.memory).andThen fun argc state =>
        (state.execute frame commands argc).andThen fun _ state => .returned () state
  else .returned () state

/-- `shell_main`. -/
def shellMain (frame : ShellFrame) (commands : Commands) (state : ShellState) :
    Outcome ShellState Unit :=
  let state := state.withMemory
    (state.memory.storeBytes frame.line.toNat (List.replicate (shellLineMaxLen.toNat + 1) 0))
  ((puts frame.prompt state.input.console).within
    fun console => { state with input := { state.input with console } }).andThen fun _ state =>
      ((getdelim frame.line (shellLineMaxLen + 1) carriageReturn true state.input).within
        ({ state with input := · })).andThen fun n state => shellLine frame commands n state

/-- The loop of `main`, some turns of it. -/
def shellSession (frame : ShellFrame) (commands : Commands) (turns : Nat) (state : ShellState) :
    Outcome ShellState Empty :=
  loop (fun _ state => (shellMain frame commands state).andThen fun _ state =>
    .returned (.again ()) state) turns () state

/-- The lines that characters make, without what completes each. -/
def typedLines (len : Nat) (delim : UInt8) (line : List UInt8) : List UInt8 → List (List UInt8)
  | [] => []
  | c :: rest =>
      let next := edit line c
      if c = delim ∨ next.length = len then next.dropLast :: typedLines len delim [] rest
      else typedLines len delim next rest

/-- The lines `shell_main` gets. -/
def shellLines (typed : List UInt8) : List (List UInt8) :=
  typedLines (shellLineMaxLen.toNat + 1) carriageReturn [] typed

/-- As much of a line as the string functions see. -/
def asString (line : List UInt8) : List UInt8 := line.takeWhile (· ≠ 0)

/-- The command lines among the lines. -/
def commandLines (lines : List (List UInt8)) : List (List UInt8) := lines.filter (· ≠ [])

/-- The call that a line leads to. -/
structure Invocation.Of (line : List UInt8) (invocation : Invocation) : Prop where
  command : invocation.command =
    cmdTable.find? fun command => firstWord space (asString line) = command.name
  argc : invocation.argc.toNat = (arguments (asString line)).length
  argv : PointsTo invocation.argv (arguments (asString line)) invocation.memory

/-- The variables and the constants lie apart. -/
structure ShellFrame.Placed (frame : ShellFrame) : Prop where
  lineValid : frame.line ≠ 0
  lineFits : frame.line.toNat + (shellLineMaxLen.toNat + 1) ≤ 2 ^ 32
  argvFits : frame.argv.toNat + 4 * shellArgsMaxNb.toNat ≤ 2 ^ 32
  apart : frame.argv.toNat + 4 * shellArgsMaxNb.toNat ≤ frame.line.toNat ∨
    frame.line.toNat + (shellLineMaxLen.toNat + 1) ≤ frame.argv.toNat
  promptLine : frame.prompt.toNat + shellPrompt.length < frame.line.toNat ∨
    frame.line.toNat + (shellLineMaxLen.toNat + 1) ≤ frame.prompt.toNat
  promptArgv : frame.prompt.toNat + shellPrompt.length < frame.argv.toNat ∨
    frame.argv.toNat + 4 * shellArgsMaxNb.toNat ≤ frame.prompt.toNat
  nameLine : ∀ command, (frame.names command).toNat + command.name.length < frame.line.toNat ∨
    frame.line.toNat + (shellLineMaxLen.toNat + 1) ≤ (frame.names command).toNat
  nameArgv : ∀ command, (frame.names command).toNat + command.name.length < frame.argv.toNat ∨
    frame.argv.toNat + 4 * shellArgsMaxNb.toNat ≤ (frame.names command).toNat

/-- The constants are in their places. -/
structure ShellFrame.Constants (frame : ShellFrame) (memory : Memory) : Prop where
  prompt : CString memory frame.prompt shellPrompt
  names : ∀ command, CString memory (frame.names command) command.name

/-- Commands that keep the constants and leave alone what is typed, if they come back. -/
def ShellFrame.Kept (frame : ShellFrame) (commands : Commands) : Prop :=
  ∀ invocation input status after, commands invocation input = .returned status after →
    frame.Constants input.console.memory →
      frame.Constants after.console.memory ∧ after.typed = input.typed

section Lines

variable {len : Nat} {delim : UInt8} {consumed rest : List UInt8}

/-- What completes a line ends it, and no character before that does. -/
theorem typedLines_completes (completes : Completes len delim consumed) (nonempty : consumed ≠ []) :
    typedLines len delim [] (consumed ++ rest) =
      (edited consumed).dropLast :: typedLines len delim [] rest := by
  have behind : ∀ later earlier, earlier ++ later = consumed → later ≠ [] →
      typedLines len delim (edited earlier) (later ++ rest) =
        (edited consumed).dropLast :: typedLines len delim [] rest := by
    intro later
    induction later with
    | nil => exact fun _ _ nothing => absurd rfl nothing
    | cons c later inductionHypothesis =>
        intro earlier whole _
        have step : edit (edited earlier) c = edited (earlier ++ [c]) := (edited_concat _ _).symm
        rw [List.cons_append, typedLines]
        simp only [step]
        by_cases last : later = []
        · subst last
          rw [whole, List.nil_append]
          have before : delim ∉ earlier :=
            (completes.unfinished earlier ⟨[c], whole⟩ (by rw [← whole]; simp)).1
          refine if_pos ?_
          rcases completes.finished with member | full
          · rw [← whole, List.mem_append, List.mem_singleton] at member
            exact Or.inl (member.resolve_left before).symm
          · exact Or.inr full
        · have whole' : earlier ++ [c] ++ later = consumed := by rw [← whole]; simp
          obtain ⟨absent, less⟩ :=
            completes.unfinished (earlier ++ [c]) ⟨later, whole'⟩ (by rw [← whole']; simp [last])
          have inner : ¬ (c = delim ∨ (edited (earlier ++ [c])).length = len) := by
            rintro (same | full)
            · exact absent (List.mem_append_right _ (List.mem_singleton.mpr same.symm))
            · exact absurd full (Nat.ne_of_lt less)
          rw [if_neg inner]
          exact inductionHypothesis (earlier ++ [c]) whole' last
  exact behind consumed [] rfl nonempty

/-- Characters that complete no line make none. -/
theorem typedLines_incomplete (absent : delim ∉ consumed)
    (short : ∀ earlier, earlier <+: consumed → (edited earlier).length < len) :
    typedLines len delim [] consumed = [] := by
  have behind : ∀ later earlier, earlier ++ later = consumed →
      typedLines len delim (edited earlier) later = [] := by
    intro later
    induction later with
    | nil => exact fun _ _ => rfl
    | cons c later inductionHypothesis =>
        intro earlier whole
        have whole' : earlier ++ [c] ++ later = consumed := by rw [← whole]; simp
        have step : edit (edited earlier) c = edited (earlier ++ [c]) := (edited_concat _ _).symm
        have inner : ¬ (c = delim ∨ (edited (earlier ++ [c])).length = len) := by
          rintro (same | full)
          · refine absent ?_
            rw [← whole', ← same]
            simp
          · exact absurd full (Nat.ne_of_lt (short _ ⟨later, whole'⟩))
        rw [typedLines]
        simp only [step]
        rw [if_neg inner]
        exact inductionHypothesis (earlier ++ [c]) whole'
  exact behind consumed [] rfl

/-- A line in memory is a string up to its first zero. -/
theorem cstring_asString {memory : Memory} {address : UInt32} {line : List UInt8}
    (valid : address ≠ 0) (fits : address.toNat + line.length < 2 ^ 32)
    (held : memory.loadBytes address.toNat line.length = line)
    (ends : memory (address.toNat + line.length) = 0) :
    CString memory address (asString line) := by
  induction line generalizing address with
  | nil => exact ⟨valid, ends⟩
  | cons byte rest inductionHypothesis =>
      rw [List.length_cons] at fits held ends
      rw [Memory.loadBytes, List.cons.injEq] at held
      by_cases zero : byte = 0
      · rw [asString, List.takeWhile_cons, zero]
        exact ⟨valid, held.1.trans zero⟩
      · have next : (address + 1).toNat = address.toNat + 1 := toNat_add_one (by omega)
        rw [asString, List.takeWhile_cons, if_pos (by simpa using zero)]
        refine ⟨valid, zero, held.1, ?_⟩
        apply inductionHypothesis (toNat_pos_iff.mp (by omega)) (by omega)
        · rw [next]
          exact held.2
        · rw [next, Nat.add_assoc, Nat.add_comm 1]
          exact ends

theorem length_asString_le (line : List UInt8) : (asString line).length ≤ line.length :=
  (List.takeWhile_sublist _).length_le

end Lines

section Completed

variable {len : Nat} {delim : UInt8} {consumed : List UInt8}

/-- The last character of a complete line. -/
theorem exists_concat_of_completes (completes : Completes len delim consumed) (room : 0 < len) :
    ∃ earlier c, consumed = earlier ++ [c] ∧ (edited earlier).length < len ∧
      (c = delim ∨ (edited consumed).length = len) := by
  cases consumed using List.reverseRecOn with
  | nil =>
      rcases completes.finished with member | full
      · cases member
      · exact absurd full (Nat.ne_of_lt room)
  | append_singleton earlier c =>
      obtain ⟨absent, less⟩ := completes.unfinished earlier ⟨[c], rfl⟩ (by simp)
      refine ⟨earlier, c, rfl, less, completes.finished.imp_left fun member => ?_⟩
      rw [List.mem_append, List.mem_singleton] at member
      exact (member.resolve_left absent).symm

/-- A complete line has a character that completes it, and is no longer than there is room. -/
theorem edited_of_completes (completes : Completes len delim consumed) (room : 0 < len)
    (visible : delim ≠ backspace) :
    consumed ≠ [] ∧ 0 < (edited consumed).length ∧ (edited consumed).length ≤ len := by
  obtain ⟨earlier, c, rfl, less, last⟩ := exists_concat_of_completes completes room
  refine ⟨by simp, ?_, ?_⟩
  · rcases last with rfl | full
    · rw [edited_other _ visible, List.length_append, List.length_singleton]
      exact Nat.succ_pos _
    · rw [full]
      exact room
  · by_cases back : c = backspace
    · rw [back, edited_backspace, List.length_dropLast]
      omega
    · rw [edited_other _ back, List.length_append, List.length_singleton]
      exact less

/-- `getdelim` comes back with a complete line, or waits for the rest of one. -/
theorem getdelim_cases {buf len : UInt32} {verbose : Bool} (valid : buf ≠ 0)
    (fits : buf.toNat + len.toNat ≤ 2 ^ 32) (visible : delim ≠ backspace) (input : LineInput) :
    (∃ n after consumed, getdelim buf len delim verbose input = .returned n after ∧
      ReadsLine buf len delim verbose input consumed n after) ∨
    ∃ n after consumed, getdelim buf len delim verbose input = .diverged after ∧
      Editing buf len delim verbose input consumed n after ∧ after.typed = [] ∧ n < len := by
  rw [getdelim, if_neg valid]
  rcases (@editing_nil buf len delim verbose input).run fits visible (Nat.lt_succ_self _) with
    ⟨n, after, consumed, ran, read⟩ | ⟨n, after, consumed, ran, editing, nothing, within⟩
  · rw [ran]
    exact Or.inl ⟨n, _, consumed, rfl, read.terminate fits⟩
  · rw [ran]
    exact Or.inr ⟨n, after, consumed, rfl, editing, nothing, within⟩

end Completed

section Rounds

variable {frame : ShellFrame} {commands : Commands} {state : ShellState} {memory other : Memory}
  {line : List UInt8} {n : UInt32}

/-- Nothing that is written to the variables reaches the constants. -/
theorem ShellFrame.Placed.constants (placed : frame.Placed) (constants : frame.Constants memory)
    (same : OnlyWithin frame.line frame.argv (shellLineMaxLen.toNat + 1) shellArgsMaxNb.toNat
      memory other) : frame.Constants other where
  prompt := by
    have promptLine := placed.promptLine
    have promptArgv := placed.promptArgv
    apply constants.prompt.congr
    intro place above below
    exact same place (by omega) (by omega)
  names command := by
    have nameLine := placed.nameLine command
    have nameArgv := placed.nameArgv command
    apply (constants.names command).congr
    intro place above below
    exact same place (by omega) (by omega)

/-- A line of characters is handed to a command, or to `printf`. -/
theorem shellLine_command (placed : frame.Placed) (constants : frame.Constants state.memory)
    (counted : n.toNat = line.length + 1) (short : line.length ≤ shellLineMaxLen.toNat)
    (held : state.memory.loadBytes frame.line.toNat line.length = line) (nonempty : line ≠ [])
    (few : (arguments (asString line)).length ≤ shellArgsMaxNb.toNat) :
    ∃ memory invocation, invocation.Of line ∧ frame.Constants memory ∧
      shellLine frame commands n state =
        ((commands invocation (state.withMemory memory).input).within fun input =>
          ⟨input, state.invoked ++ [invocation]⟩).andThen fun _ state => .returned () state := by
  have lineFits := placed.lineFits
  have apart := placed.apart
  have lengthSome : 0 < line.length := List.length_pos_iff.mpr nonempty
  have hundred : shellLineMaxLen.toNat = 100 := rfl
  have more : n > 1 := UInt32.lt_iff_toNat_lt.mpr (by rw [counted, UInt32.toNat_one]; omega)
  have less : (n - 1).toNat = line.length := by
    rw [UInt32.toNat_sub_of_le _ _ (UInt32.le_of_lt more), counted, UInt32.toNat_one,
      Nat.add_sub_cancel]
  have place : (frame.line + (n - 1)).toNat = frame.line.toNat + line.length := by
    rw [toNat_add_of_lt (by omega), less]
  obtain ⟨ready, named⟩ : ∃ ready, (state.memory.store8 (frame.line.toNat + line.length)
      0).storeBytes frame.argv.toNat (List.replicate (4 * shellArgsMaxNb.toNat) 0) = ready :=
    ⟨_, rfl⟩
  have size : (List.replicate (4 * shellArgsMaxNb.toNat) (0 : UInt8)).length =
      4 * shellArgsMaxNb.toNat := List.length_replicate
  have stored : ∀ place, (place < frame.argv.toNat ∨
      frame.argv.toNat + 4 * shellArgsMaxNb.toNat ≤ place) →
        ready place = (state.memory.store8 (frame.line.toNat + line.length) 0) place := by
    intro place outside
    rw [← named]
    exact Memory.storeBytes_outside (by rw [size]; exact outside)
  have onLine : ∀ place, frame.line.toNat ≤ place → place ≤ frame.line.toNat + line.length →
      ready place = (state.memory.store8 (frame.line.toNat + line.length) 0) place :=
    fun place above below => stored place (by omega)
  have text : ready.loadBytes frame.line.toNat line.length = line := by
    refine (Memory.loadBytes_congr fun place above below => ?_).trans held
    rw [onLine place above (by omega), Memory.store8_of_ne (by omega)]
  have string : CString ready frame.line (asString line) :=
    cstring_asString placed.lineValid (by omega) text
      (by rw [onLine _ (Nat.le_add_right _ _) (Nat.le_refl _), Memory.store8_same])
  have shorter := length_asString_le line
  have lies : Apart frame.line frame.argv (asString line).length :=
    ⟨placed.argvFits, by omega⟩
  obtain ⟨argc, split, ran, result⟩ := @shellSplitLine_eq _ _ ⟨ready, []⟩ _ lies string
  rcases result with ⟨_, into⟩ | ⟨many, _⟩
  · have constants' : frame.Constants split.memory := by
      apply placed.constants constants
      intro place outside beyond
      exact (into.frame place (by omega) (by omega)).trans
        ((stored place beyond).trans (Memory.store8_of_ne (by omega)))
    have first : CString split.memory (split.memory.load32 frame.argv.toNat)
        (firstWord space (asString line)) := into.pointsTo 0 (Nat.succ_pos _)
    have selected := shellExecute_eq first constants'.names cmdTable
    refine ⟨split.memory, ⟨cmdTable.find? fun command =>
      firstWord space (asString line) = command.name, argc, frame.argv, split.memory⟩,
      ⟨rfl, into.counted, into.pointsTo⟩, constants', ?_⟩
    have turn : shellLine frame commands n state =
        ((shellSplitLine frame.line frame.argv ⟨(state.withMemory ready).memory, []⟩).within
          fun split => (state.withMemory ready).withMemory split.memory).andThen fun argc state =>
            (state.execute frame commands argc).andThen fun _ state => .returned () state := by
      simp only [shellLine, if_pos more, place, ← named]
      rfl
    have execute : (state.withMemory split.memory).execute frame commands argc =
        (commands ⟨cmdTable.find? fun command => firstWord space (asString line) = command.name,
          argc, frame.argv, split.memory⟩ (state.withMemory split.memory).input).within fun input =>
            ⟨input, state.invoked ++ [⟨cmdTable.find? fun command =>
              firstWord space (asString line) = command.name, argc, frame.argv, split.memory⟩]⟩ := by
      rw [ShellState.execute]
      change ((shellExecute frame.names frame.argv cmdTable split.memory).within _).andThen _ = _
      rw [selected]
      rfl
    rw [turn]
    change ((shellSplitLine frame.line frame.argv ⟨ready, []⟩).within _).andThen _ = _
    rw [ran, Outcome.returned_within, Outcome.returned_andThen]
    change ((state.withMemory split.memory).execute frame commands argc).andThen _ = _
    rw [execute]
  · exact absurd few (Nat.not_le.mpr many)

/-- An empty line is passed over. -/
theorem shellLine_empty (one : n.toNat = 1) :
    shellLine frame commands n state =
      .returned () (state.withMemory (state.memory.store8 frame.line.toNat 0)) := by
  obtain rfl : n = 1 := UInt32.toNat_inj.mp one
  have place : frame.line + ((1 : UInt32) - 1) = frame.line := by
    rw [UInt32.sub_self, UInt32.add_zero]
  rw [shellLine, if_neg (by decide), place]

/-- `shell_main` asks for a line in a clear buffer. -/
theorem shellMain_asks (placed : frame.Placed) (constants : frame.Constants state.memory) :
    ∃ asked : LineInput, asked.typed = state.input.typed ∧ frame.Constants asked.console.memory ∧
      shellMain frame commands state =
        ((getdelim frame.line (shellLineMaxLen + 1) carriageReturn true asked).within
          (⟨·, state.invoked⟩)).andThen fun n state => shellLine frame commands n state := by
  have zeros : (List.replicate (shellLineMaxLen.toNat + 1) (0 : UInt8)).length =
      shellLineMaxLen.toNat + 1 := List.length_replicate
  obtain ⟨cleared, named⟩ : ∃ cleared, state.withMemory (state.memory.storeBytes frame.line.toNat
      (List.replicate (shellLineMaxLen.toNat + 1) 0)) = cleared := ⟨_, rfl⟩
  have memory : cleared.memory = state.memory.storeBytes frame.line.toNat
      (List.replicate (shellLineMaxLen.toNat + 1) 0) := by rw [← named]; rfl
  have kept : frame.Constants cleared.memory := by
    apply placed.constants constants
    intro place outside _
    rw [memory]
    exact Memory.storeBytes_outside (by rw [zeros]; exact outside)
  have prompted : puts frame.prompt cleared.input.console =
      .returned () ⟨cleared.memory, cleared.input.console.out ++ shellPrompt⟩ :=
    puts_eq kept.prompt
  refine ⟨{ cleared.input with
    console := ⟨cleared.memory, cleared.input.console.out ++ shellPrompt⟩ }, ?_, kept, ?_⟩
  · rw [← named]
    rfl
  · rw [shellMain, named, prompted, ← named]
    rfl

/-- What `shell_main` does for a line that has been read. -/
theorem shellLine_cases (placed : frame.Placed) {asked after : LineInput}
    {invoked : List Invocation} {consumed : List UInt8} (constants : frame.Constants asked.console.memory)
    (read : ReadsLine frame.line (shellLineMaxLen + 1) carriageReturn true asked consumed n after)
    (few : (edited consumed).dropLast ≠ [] →
      (arguments (asString (edited consumed).dropLast)).length ≤ shellArgsMaxNb.toNat) :
    ∃ next : ShellState, next.input.typed = after.typed ∧ frame.Constants next.memory ∧
      next.invoked = invoked ∧
      ((edited consumed).dropLast = [] ∧
          shellLine frame commands n ⟨after, invoked⟩ = .returned () next ∨
        (edited consumed).dropLast ≠ [] ∧ ∃ invocation,
          Invocation.Of (edited consumed).dropLast invocation ∧
          shellLine frame commands n ⟨after, invoked⟩ =
            ((commands invocation next.input).within fun input =>
              ⟨input, invoked ++ [invocation]⟩).andThen fun _ state => .returned () state) := by
  obtain ⟨_, positive, most⟩ :=
    edited_of_completes read.completes (Nat.succ_pos _) (by decide)
  have counted : n.toNat = (edited consumed).dropLast.length + 1 := by
    rw [read.count, List.length_dropLast]
    omega
  have kept : frame.Constants after.console.memory := by
    apply placed.constants constants
    intro place outside _
    exact read.frame place outside
  by_cases empty : (edited consumed).dropLast = []
  · refine ⟨ShellState.withMemory ⟨after, invoked⟩
      (after.console.memory.store8 frame.line.toNat 0), rfl, ?_, rfl, Or.inl ⟨empty, ?_⟩⟩
    · apply placed.constants kept
      intro place outside _
      exact Memory.store8_of_ne (by omega)
    · apply shellLine_empty
      rw [counted, empty]
      rfl
  · have held : after.console.memory.loadBytes frame.line.toNat
        (edited consumed).dropLast.length = (edited consumed).dropLast := by
      rw [List.length_dropLast, ← read.count, ← Memory.dropLast_loadBytes, read.held]
    have short : (edited consumed).dropLast.length ≤ shellLineMaxLen.toNat := by
      rw [List.length_dropLast]
      exact Nat.sub_le_of_le_add most
    obtain ⟨memory, invocation, called, kept', ran⟩ :=
      @shellLine_command frame commands ⟨after, invoked⟩ _ n placed kept counted short held empty
        (few empty)
    exact ⟨ShellState.withMemory ⟨after, invoked⟩ memory, rfl, kept', rfl,
      Or.inr ⟨empty, invocation, called, ran⟩⟩

/-- One prompt: the line that is typed for it is executed, if there is one. -/
theorem shellMain_cases (placed : frame.Placed) (constants : frame.Constants state.memory)
    (few : ∀ line ∈ commandLines (shellLines state.input.typed),
      (arguments (asString line)).length ≤ shellArgsMaxNb.toNat) :
    (∃ after, shellMain frame commands state = .diverged after ∧ after.input.typed = [] ∧
      after.invoked = state.invoked ∧ shellLines state.input.typed = []) ∨
    ∃ next line, shellLines state.input.typed = line :: shellLines next.input.typed ∧
      next.input.typed.length < state.input.typed.length ∧ frame.Constants next.memory ∧
      next.invoked = state.invoked ∧
      (line = [] ∧ shellMain frame commands state = .returned () next ∨
        line ≠ [] ∧ ∃ invocation, invocation.Of line ∧ shellMain frame commands state =
          ((commands invocation next.input).within fun input =>
            ⟨input, state.invoked ++ [invocation]⟩).andThen fun _ state => .returned () state) := by
  obtain ⟨asked, typed, kept, turn⟩ := shellMain_asks placed constants
  rw [turn]
  rcases @getdelim_cases carriageReturn frame.line (shellLineMaxLen + 1) true placed.lineValid
    placed.lineFits (by decide) asked with
    ⟨n, after, consumed, ran, read⟩ | ⟨n, after, consumed, ran, editing, nothing, within⟩
  · obtain ⟨nonempty, _⟩ := edited_of_completes read.completes (Nat.succ_pos _) (by decide)
    have lines : shellLines state.input.typed =
        (edited consumed).dropLast :: shellLines after.typed := by
      rw [← typed, read.typed]
      exact typedLines_completes read.completes nonempty
    obtain ⟨next, left, kept', same, result⟩ := @shellLine_cases frame commands n placed asked
      after state.invoked consumed kept read fun nonempty => few _ (by simp [commandLines, lines, nonempty])
    refine Or.inr ⟨next, _, by rw [left]; exact lines, ?_, kept', same, ?_⟩
    · rw [← typed, read.typed, left, List.length_append]
      have positive := List.length_pos_iff.mpr nonempty
      omega
    · rw [ran, Outcome.returned_within, Outcome.returned_andThen]
      exact result
  · refine Or.inl ⟨⟨after, state.invoked⟩, ?_, nothing, rfl, ?_⟩
    · rw [ran]
      rfl
    · have whole : state.input.typed = consumed := by
        rw [← typed, editing.typed, nothing, List.append_nil]
      rw [whole]
      refine typedLines_incomplete editing.absent fun earlier part => ?_
      by_cases all : earlier = consumed
      · rw [all, ← editing.count]
        exact UInt32.lt_iff_toNat_lt.mp within
      · exact editing.early earlier part all

end Rounds

/-- How a session ends: every command line has led to its call, and the shell waits for more to
be typed; or a call has not come back. -/
inductive SessionEnds (commands : Commands) (lines : List (List UInt8)) (made : List Invocation) :
    Outcome ShellState Empty → Prop
  | waits {after : ShellState} (all : List.Forall₂ Invocation.Of lines made)
      (nothing : after.input.typed = []) : SessionEnds commands lines made (.diverged after)
  | stays {executed rest : List (List UInt8)} {earlier : List Invocation} {last : Invocation}
      {input : LineInput} {outcome : Outcome ShellState Empty} (whole : lines = executed ++ rest)
      (split : made = earlier ++ [last]) (calls : List.Forall₂ Invocation.Of executed made)
      (lost : (commands last input).returns = false) : SessionEnds commands lines made outcome

section Sessions

variable {frame : ShellFrame} {commands : Commands} {state : ShellState}
  {line : List UInt8} {lines : List (List UInt8)} {made : List Invocation}
  {outcome : Outcome ShellState Empty}

/-- A session that goes on behind a call. -/
theorem SessionEnds.cons {invocation : Invocation} (called : invocation.Of line)
    (ends : SessionEnds commands lines made outcome) :
    SessionEnds commands (line :: lines) (invocation :: made) outcome := by
  cases ends with
  | waits all nothing => exact .waits (.cons called all) nothing
  | @stays executed rest earlier last input _ whole split calls lost =>
      subst whole split
      exact .stays (List.cons_append).symm (List.cons_append).symm (.cons called calls) lost

/-- Everything that is typed is executed, line by line and in its turn: the calls that the shell
makes are those of the command lines, each with its words for arguments, until it waits for more
or a command does not come back. -/
theorem shell_session (placed : frame.Placed) (kept : frame.Kept commands)
    (constants : frame.Constants state.memory)
    (few : ∀ line ∈ commandLines (shellLines state.input.typed),
      (arguments (asString line)).length ≤ shellArgsMaxNb.toNat)
    {turns : Nat} (enough : state.input.typed.length < turns) :
    ∃ made, (shellSession frame commands turns state).state.invoked = state.invoked ++ made ∧
      SessionEnds commands (commandLines (shellLines state.input.typed)) made
        (shellSession frame commands turns state) := by
  induction turns generalizing state with
  | zero => exact absurd enough (Nat.not_lt_zero _)
  | succ turns inductionHypothesis =>
      rcases @shellMain_cases frame commands state placed constants few with
        ⟨after, ran, nothing, same, empty⟩ | ⟨next, line, lines, shorter, constants', same, result⟩
      · have ends : shellSession frame commands (turns + 1) state = .diverged after := by
          rw [shellSession, loop, ran]
          rfl
        rw [ends, empty]
        exact ⟨[], by rw [List.append_nil]; exact same, .waits .nil nothing⟩
      · rw [lines] at few ⊢
        rcases result with ⟨rfl, ran⟩ | ⟨nonempty, invocation, called, ran⟩
        · have again : shellSession frame commands (turns + 1) state =
              shellSession frame commands turns next := by
            rw [shellSession, loop, ran]
            rfl
          rw [again, ← same]
          exact inductionHypothesis constants' few (by omega)
        · have commandLine : commandLines (line :: shellLines next.input.typed) =
              line :: commandLines (shellLines next.input.typed) := by
            rw [commandLines, List.filter_cons_of_pos (by simpa using nonempty)]
            rfl
          rw [commandLine] at few ⊢
          cases call : commands invocation next.input with
          | returned status input =>
              obtain ⟨constants'', left⟩ := kept invocation next.input status input call constants'
              have again : shellSession frame commands (turns + 1) state =
                  shellSession frame commands turns ⟨input, state.invoked ++ [invocation]⟩ := by
                rw [shellSession, loop, ran, call]
                rfl
              obtain ⟨made, invoked, ends⟩ := @inductionHypothesis
                ⟨input, state.invoked ++ [invocation]⟩ constants''
                (fun line member => few line (List.mem_cons_of_mem _ (by rwa [← left])))
                (by rw [left]; omega)
              rw [again]
              refine ⟨invocation :: made, ?_, ?_⟩
              · rw [invoked, List.append_assoc, List.singleton_append]
              · rw [left] at ends
                exact ends.cons called
          | panicked reason input =>
              have ends : shellSession frame commands (turns + 1) state =
                  .panicked reason ⟨input, state.invoked ++ [invocation]⟩ := by
                rw [shellSession, loop, ran, call]
                rfl
              rw [ends]
              exact ⟨[invocation], rfl, .stays rfl (List.nil_append _).symm (.cons called .nil)
                (by rw [call]; rfl)⟩
          | diverged input =>
              have ends : shellSession frame commands (turns + 1) state =
                  .diverged ⟨input, state.invoked ++ [invocation]⟩ := by
                rw [shellSession, loop, ran, call]
                rfl
              rw [ends]
              exact ⟨[invocation], rfl, .stays rfl (List.nil_append _).symm (.cons called .nil)
                (by rw [call]; rfl)⟩

end Sessions

section Example

/-- A line at 0x3000, an array at 0x2000, and the constants below them. -/
def exampleFrame : ShellFrame := ⟨0x3000, 0x2000, 0x1100, tableNames⟩

/-- The constants in memory. -/
def constantMemory : Memory :=
  (lineCall []).memory.storeBytes 0x1100 shellPrompt

/-- The lines "int 5" and, taken back character by character, nothing. -/
def exampleTyped : List UInt8 :=
  [0x69, 0x6E, 0x74, 0x20, 0x35, carriageReturn, 0x78, backspace, carriageReturn]

/-- Commands that do nothing. -/
def idleCommands : Commands := fun _ input => .returned 0 input

theorem exampleFrame_placed : exampleFrame.Placed where
  lineValid := by decide
  lineFits := by decide
  argvFits := by decide
  apart := by decide
  promptLine := by decide
  promptArgv := by decide
  nameLine command := by cases command <;> decide
  nameArgv command := by cases command <;> decide

theorem constantMemory_constants : exampleFrame.Constants constantMemory where
  prompt := by decide +kernel
  names command := by cases command <;> decide +kernel

theorem idleCommands_kept (frame : ShellFrame) : frame.Kept idleCommands := by
  intro invocation input status after ran constants
  cases ran
  exact ⟨constants, rfl⟩

theorem shell_session_int :
    ∃ made, (shellSession exampleFrame idleCommands 10 ⟨⟨⟨constantMemory, []⟩, exampleTyped⟩,
        []⟩).state.invoked = [] ++ made ∧
      SessionEnds idleCommands (commandLines (shellLines exampleTyped)) made
        (shellSession exampleFrame idleCommands 10 ⟨⟨⟨constantMemory, []⟩, exampleTyped⟩, []⟩) :=
  @shell_session exampleFrame idleCommands ⟨⟨⟨constantMemory, []⟩, exampleTyped⟩, []⟩
    exampleFrame_placed (idleCommands_kept _) constantMemory_constants
    (by
      have lines : commandLines (shellLines exampleTyped) = [[0x69, 0x6E, 0x74, 0x20, 0x35]] := by
        decide
      intro line member
      rw [lines, List.mem_singleton] at member
      subst member
      decide) 10 (by decide)

end Example

end Bootloader.Shell
