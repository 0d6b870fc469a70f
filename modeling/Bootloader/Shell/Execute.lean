import Bootloader.Libc.StrCompare
import Bootloader.Shell.Split

/-!
# `shell_execute`

A command is found by the first argument. `leading_spaces_iff` says what spaces in front of a
line do to it: the argument in front of them is empty, and that is the one that counts.
-/

namespace Bootloader.Shell

open Bootloader.Libc Bootloader.Std

/-- The entries of `cmd_table`. -/
inductive Command where
  | help
  | reboot
  | mmap
  | time
  | int
deriving DecidableEq, Repr

/-- The names in `cmd_table`. -/
def Command.name : Command → List UInt8
  | .help => [0x68, 0x65, 0x6C, 0x70]
  | .reboot => [0x72, 0x65, 0x62, 0x6F, 0x6F, 0x74]
  | .mmap => [0x6D, 0x6D, 0x61, 0x70]
  | .time => [0x74, 0x69, 0x6D, 0x65]
  | .int => [0x69, 0x6E, 0x74]

/-- `cmd_table`. -/
def cmdTable : List Command := [.help, .reboot, .mmap, .time, .int]

/-- `shell_execute` up to the call of the command, if there is one: the name of each stands at
`names`. -/
def shellExecute (names : Command → UInt32) (argv : UInt32) :
    List Command → Memory → Outcome Memory (Option Command)
  | [], memory => .returned none memory
  | command :: rest, memory =>
      (strcmp (memory.load32 argv.toNat) (names command) memory).andThen fun order memory =>
        if order = 0 then .returned (some command) memory
        else shellExecute names argv rest memory

/-- The names stand where the line and the array do not. -/
structure Named (names : Command → UInt32) (line argv : UInt32) (length : Nat)
    (memory : Memory) : Prop where
  stands : ∀ command, CString memory (names command) command.name
  offLine : ∀ command, (names command).toNat + command.name.length < line.toNat ∨
    line.toNat + length < (names command).toNat
  offArray : ∀ command, (names command).toNat + command.name.length < argv.toNat ∨
    argv.toNat + 4 * shellArgsMaxNb.toNat ≤ (names command).toNat

/-- A line as `shell_main` hands it to `shell_split_line`. -/
structure LineCall where
  line : UInt32
  argv : UInt32
  memory : Memory

/-- The line, the array and the names of the commands are in their places. -/
structure LineCall.Ready (names : Command → UInt32) (text : List UInt8) (call : LineCall) :
    Prop where
  apart : Apart call.line call.argv text.length
  string : CString call.memory call.line text
  named : Named names call.line call.argv text.length call.memory

/-- Two lines are split into as many arguments, the same ones, and the same command is
selected. -/
def SameCommand (names : Command → UInt32) (first second : LineCall) : Prop :=
  ∃ argc after argc' after',
    shellSplitLine first.line first.argv ⟨first.memory, []⟩ = .returned argc after ∧
    shellSplitLine second.line second.argv ⟨second.memory, []⟩ = .returned argc' after' ∧
    argc = argc' ∧
    (∀ i < argc.toNat, ∃ arg,
      CString after.memory (after.memory.load32 (first.argv.toNat + 4 * i)) arg ∧
        CString after'.memory (after'.memory.load32 (second.argv.toNat + 4 * i)) arg) ∧
    ∃ command,
      shellExecute names first.argv cmdTable after.memory = .returned command after.memory ∧
        shellExecute names second.argv cmdTable after'.memory = .returned command after'.memory

section Selection

variable {names : Command → UInt32} {argv : UInt32} {memory : Memory} {word text : List UInt8}
  {call : LineCall}

theorem Command.name_nonzero (command : Command) : ∀ c ∈ command.name, c ≠ 0 := by
  cases command <;> decide +kernel

/-- The command is the one of that name. -/
theorem shellExecute_eq (string : CString memory (memory.load32 argv.toNat) word)
    (stands : ∀ command, CString memory (names command) command.name) (table : List Command) :
    shellExecute names argv table memory =
      .returned (table.find? fun command => word = command.name) memory := by
  induction table with
  | nil => rfl
  | cons command rest inductionHypothesis =>
      have same : compareText word command.name = 0 ↔ word = command.name :=
        compareText_eq_zero_iff string.nonzero command.name_nonzero
      rw [shellExecute, strcmp_eq string (stands command), Outcome.returned_andThen,
        List.find?_cons]
      by_cases found : word = command.name
      · rw [if_pos (same.mpr found), decide_eq_true found]
      · rw [if_neg (found ∘ same.mp), decide_eq_false found]
        exact inductionHypothesis

/-- The names are still there when the line has been split. -/
theorem Named.after {line : UInt32} {length : Nat} {before after : SplitState}
    {args : List (List UInt8)} {argc : UInt8}
    (named : Named names line argv length before.memory)
    (few : args.length ≤ shellArgsMaxNb.toNat)
    (split : SplitInto line argv length before args argc after) (command : Command) :
    CString after.memory (names command) command.name := by
  have offLine := named.offLine command
  have offArray := named.offArray command
  apply (named.stands command).congr
  intro place above below
  exact split.frame place (by omega) (by omega)

/-- A line that is ready and begins with a word: its words, and the command of the first. -/
theorem LineCall.Ready.runs (ready : call.Ready names text) (nonempty : text ≠ [])
    (atWord : AtWord space text) (few : (words space text).length ≤ shellArgsMaxNb.toNat) :
    ∃ argc after,
      shellSplitLine call.line call.argv ⟨call.memory, []⟩ = .returned argc after ∧
      argc.toNat = (words space text).length ∧ PointsTo call.argv (words space text) after.memory ∧
      shellExecute names call.argv cmdTable after.memory =
        .returned (cmdTable.find? fun command => firstWord space text = command.name)
          after.memory := by
  obtain ⟨argc, after, ran, split⟩ :=
    @shell_split_words _ _ ⟨call.memory, []⟩ _ ready.apart ready.string nonempty atWord few
  have first : words space text = firstWord space text :: words space (behindWord space text) :=
    (arguments_eq_words nonempty atWord).symm
  have argument := split.pointsTo 0 (by rw [first]; exact Nat.succ_pos _)
  simp only [first, List.getElem_cons_zero, Nat.mul_zero, Nat.add_zero] at argument
  exact ⟨argc, after, ran, split.counted, split.pointsTo,
    shellExecute_eq argument (ready.named.after few split) cmdTable⟩

/-- With a space in front of it, a line has an empty argument in front of its words. -/
theorem arguments_space (count : Nat) (text : List UInt8) :
    arguments (List.replicate (count + 1) space ++ text) = [] :: words space text :=
  arguments_append List.not_mem_nil count text

/-- A line is the same command with spaces in front of it exactly when there are none. -/
theorem leading_spaces_iff {first second : LineCall} {count : Nat}
    (ready : first.Ready names text)
    (ready' : second.Ready names (List.replicate count space ++ text)) (nonempty : text ≠ [])
    (atWord : AtWord space text) (few : (words space text).length ≤ shellArgsMaxNb.toNat) :
    SameCommand names first second ↔ count = 0 := by
  obtain ⟨argc, after, ran, counted, pointsTo, selected⟩ := ready.runs nonempty atWord few
  constructor
  · rintro ⟨_, _, argc', after', ran₁, ran', rfl, _⟩
    rw [ran] at ran₁
    cases ran₁
    cases count with
    | zero => rfl
    | succ count =>
        obtain ⟨argc', after', ran₂, result⟩ :=
          @shellSplitLine_eq _ _ ⟨second.memory, []⟩ _ ready'.apart ready'.string
        rw [ran'] at ran₂
        cases ran₂
        rw [arguments_space] at result
        rcases result with ⟨_, split⟩ | ⟨_, overran, _⟩
        · have more := split.counted
          rw [counted, List.length_cons] at more
          exact absurd more (Nat.ne_of_lt (Nat.lt_succ_self _))
        · rw [← counted, overran] at few
          exact absurd few (by decide)
  · rintro rfl
    rw [List.replicate_zero, List.nil_append] at ready'
    obtain ⟨argc', after', ran', counted', pointsTo', selected'⟩ := ready'.runs nonempty atWord few
    refine ⟨argc, after, argc', after', ran, ran',
      UInt8.toNat_inj.mp (counted.trans counted'.symm), fun i within => ?_,
      _, selected, selected'⟩
    rw [counted] at within
    exact ⟨(words space text)[i], pointsTo i within, pointsTo' i within⟩

end Selection

section Calls

/-- Where the names stand. -/
def tableNames : Command → UInt32
  | .help => 0x1000
  | .reboot => 0x1010
  | .mmap => 0x1020
  | .time => 0x1030
  | .int => 0x1040

/-- A line at 0x3000, an array at 0x2000, and the names of the commands. -/
def lineCall (text : List UInt8) : LineCall where
  line := 0x3000
  argv := 0x2000
  memory := cmdTable.foldl
    (fun memory command => memory.storeBytes (tableNames command).toNat command.name)
    (lineMemory text)

theorem ready_help : (lineCall Command.help.name).Ready tableNames Command.help.name where
  apart := ⟨by decide, by decide⟩
  string := by decide +kernel
  named := ⟨fun command => by cases command <;> decide +kernel,
    fun command => by cases command <;> decide, fun command => by cases command <;> decide⟩

theorem ready_spaceHelp :
    (lineCall (List.replicate 1 space ++ Command.help.name)).Ready tableNames
      (List.replicate 1 space ++ Command.help.name) where
  apart := ⟨by decide, by decide⟩
  string := by decide +kernel
  named := ⟨fun command => by cases command <;> decide +kernel,
    fun command => by cases command <;> decide, fun command => by cases command <;> decide⟩

/-- The lines "help" and " help". -/
theorem leading_spaces_iff_help :
    SameCommand tableNames (lineCall Command.help.name)
      (lineCall (List.replicate 1 space ++ Command.help.name)) ↔ 1 = 0 :=
  leading_spaces_iff ready_help ready_spaceHelp (by decide)
    (by simp [AtWord, Command.name, space]) (by decide)

/-- They are not the same command: one has an argument more than the other. -/
theorem leading_space_differs :
    ¬ SameCommand tableNames (lineCall Command.help.name)
      (lineCall (List.replicate 1 space ++ Command.help.name)) := by
  rintro ⟨argc, after, argc', after', ran, ran', same, _⟩
  have one : (shellSplitLine (lineCall Command.help.name).line (lineCall Command.help.name).argv
      ⟨(lineCall Command.help.name).memory, []⟩).passes (fun argc _ => argc = 1) = true := by
    decide +kernel
  have two : (shellSplitLine (lineCall (List.replicate 1 space ++ Command.help.name)).line
      (lineCall (List.replicate 1 space ++ Command.help.name)).argv
      ⟨(lineCall (List.replicate 1 space ++ Command.help.name)).memory, []⟩).passes
      (fun argc _ => argc = 2) = true := by
    decide +kernel
  rw [ran] at one
  rw [ran'] at two
  have differ : (1 : UInt8) = 2 :=
    (of_decide_eq_true one).symm.trans (same.trans (of_decide_eq_true two))
  exact absurd differ (by decide)

end Calls

end Bootloader.Shell
