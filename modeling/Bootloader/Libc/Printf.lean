import Bootloader.Libc.Format

/-!
# `vprintf`

Everything `vprintf` prints goes through `putc`, and `Console` keeps the bytes in
order. `vprintfLoop_renders` says that they are what the format stands for.
-/

namespace Bootloader.Libc

open Bootloader.Std

/-- Memory, and the bytes passed to `putc`. -/
structure Console where
  memory : Memory
  out : List UInt8

/-- `putc`. -/
def putc (c : UInt8) (console : Console) : Console :=
  { console with out := console.out ++ [c] }

/-- One turn of the loop in `putsdelim`. -/
def putsdelimTurn (delim : UInt8) (str : UInt32) (console : Console) :
    Outcome Console (Turn UInt32 Unit) :=
  let c := console.memory str.toNat
  if c ≠ delim then .returned (.again (str + 1)) (putc c console)
  else .returned (.leave ()) console

/-- `putsdelim`. -/
def putsdelim (str : UInt32) (delim : UInt8) (console : Console) : Outcome Console Unit :=
  if str ≠ 0 then loop (putsdelimTurn delim) stringTurns str console
  else .returned () console

/-- `puts`. -/
def puts (str : UInt32) (console : Console) : Outcome Console Unit := putsdelim str 0 console

/-- `puts` of a constant, or of the buffer of a number. -/
def putText : List UInt8 → Console → Console
  | [], console => console
  | c :: rest, console => putText rest (putc c console)

/-- The zeros in front of a number. -/
def putZeros : Nat → Console → Console
  | 0, console => console
  | count + 1, console => putZeros count (putc digitZero console)

/-- The second switch of `vprintf`. -/
def putValue (directive : Directive) : Value → Console → Outcome Console Unit
  | .char c, console => .returned () (putc c console)
  | .string ptr, console =>
      if ptr = 0 then .returned () (putText nullText console) else puts ptr console
  | .number digits, console =>
      .returned () (putText digits (putZeros (nbzeros directive digits) console))
  | .percent, console => .returned () (putc percent console)

/-- One turn of the loop in `vprintf`. -/
def vprintfTurn (args : Memory) (cursor : FormatCursor) (console : Console) :
    Outcome Console (Turn FormatCursor FormatCursor) :=
  ((strchr cursor.strStart percent console.memory).within ({ console with memory := · })).andThen
    fun mark console =>
      if mark = 0 then .returned (.leave cursor) console
      else
        ((readDirective mark console.memory).within ({ console with memory := · })).andThen
          fun read console =>
            match fetchValue read.1 args cursor.ap with
            | none => .panicked unknownSymbol console
            | some (value, ap) =>
                (putsdelim cursor.strStart percent console).andThen fun _ console =>
                  (putValue read.1 value (putText (baseText read.1) console)).andThen
                    fun _ console => .returned (.again ⟨read.2 + 1, ap⟩) console

/-- The loop of `vprintf`, and what it prints after it. -/
def vprintfLoop (turns : Nat) (args : Memory) (cursor : FormatCursor) (console : Console) :
    Outcome Console UInt32 :=
  (loop (vprintfTurn args) turns cursor console).andThen fun cursor console =>
    (puts cursor.strStart console).andThen fun _ console => .returned cursor.ap console

/-- `vprintf`, with the arguments from `ap` on in a memory of their own: the arguments
left over. -/
def vprintf (format ap : UInt32) (args : Memory) (console : Console) : Outcome Console UInt32 :=
  vprintfLoop stringTurns args ⟨format, ap⟩ console

section Output

variable {memory : Memory} {str : UInt32} {before after bytes printed : List UInt8}
  {delim : UInt8}

/-- `putsdelim` prints up to the first delimiter. -/
theorem putsdelim_eq (string : CString memory str (before ++ delim :: after))
    (first : delim ∉ before) :
    putsdelim str delim ⟨memory, printed⟩ = .returned () ⟨memory, printed ++ before⟩ := by
  have print : ∀ turns, before.length < turns →
      loop (putsdelimTurn delim) turns str ⟨memory, printed⟩ =
        .returned () ⟨memory, printed ++ before⟩ := by
    intro turns enough
    obtain ⟨turns, rfl⟩ := Nat.exists_eq_add_of_lt enough
    induction before generalizing str printed turns with
    | nil =>
        have here : memory str.toNat = delim := string.2.2.1
        apply loop_leave
        rw [putsdelimTurn, if_neg (not_not_intro here), List.append_nil]
    | cons byte rest inductionHypothesis =>
        have here : memory str.toNat = byte := string.2.2.1
        have different : byte ≠ delim := fun same => first (same ▸ List.mem_cons_self)
        have passed : putsdelimTurn delim str ⟨memory, printed⟩ =
            .returned (.again (str + 1)) ⟨memory, printed ++ [byte]⟩ := by
          simp only [putsdelimTurn, here, if_pos different, putc]
        rw [loop_again passed, List.length_cons, Nat.add_right_comm _ 1 turns,
          inductionHypothesis string.2.2.2 (fun member => first (List.mem_cons_of_mem _ member))
            turns (by omega), List.append_assoc, List.singleton_append]
  rw [putsdelim, if_pos string.ne_zero]
  exact print _ string.front_lt

/-- `puts` prints a string. -/
theorem puts_eq (string : CString memory str bytes) :
    puts str ⟨memory, printed⟩ = .returned () ⟨memory, printed ++ bytes⟩ := by
  have print : ∀ turns, bytes.length < turns →
      loop (putsdelimTurn 0) turns str ⟨memory, printed⟩ =
        .returned () ⟨memory, printed ++ bytes⟩ := by
    intro turns enough
    obtain ⟨turns, rfl⟩ := Nat.exists_eq_add_of_lt enough
    induction bytes generalizing str printed turns with
    | nil =>
        have here : memory str.toNat = 0 := string.2
        apply loop_leave
        rw [putsdelimTurn, if_neg (not_not_intro here), List.append_nil]
    | cons byte rest inductionHypothesis =>
        obtain ⟨_, nonzero, here, tail⟩ := string
        have passed : putsdelimTurn 0 str ⟨memory, printed⟩ =
            .returned (.again (str + 1)) ⟨memory, printed ++ [byte]⟩ := by
          simp only [putsdelimTurn, here, if_pos nonzero, putc]
        rw [loop_again passed, List.length_cons, Nat.add_right_comm _ 1 turns,
          inductionHypothesis tail turns (by omega), List.append_assoc, List.singleton_append]
  rw [puts, putsdelim, if_pos string.ne_zero]
  exact print _ string.length_lt

@[simp] theorem putText_eq (text : List UInt8) (console : Console) :
    putText text console = { console with out := console.out ++ text } := by
  induction text generalizing console with
  | nil => rw [putText, List.append_nil]
  | cons c rest inductionHypothesis =>
      rw [putText, inductionHypothesis, putc, List.append_assoc, List.singleton_append]

@[simp] theorem putZeros_eq (count : Nat) (console : Console) :
    putZeros count console =
      { console with out := console.out ++ List.replicate count digitZero } := by
  induction count generalizing console with
  | zero => rw [putZeros, List.replicate_zero, List.append_nil]
  | succ count inductionHypothesis =>
      rw [putZeros, inductionHypothesis, putc, List.append_assoc, List.singleton_append,
        List.replicate_succ]

/-- A value is printed as it shows. -/
theorem putValue_shows {Text : UInt32 → List UInt8 → Prop} {directive : Directive}
    {value : Value} {shown : List UInt8}
    (texts : ∀ ptr bytes, Text ptr bytes → StringAt memory ptr bytes)
    (shows : Shows Text directive value shown) :
    putValue directive value ⟨memory, printed⟩ = .returned () ⟨memory, printed ++ shown⟩ := by
  cases value with
  | char c =>
      cases shows
      rfl
  | string ptr =>
      rw [putValue]
      rcases texts ptr shown shows with ⟨null, rfl⟩ | string
      · rw [if_pos null, putText_eq]
      · rw [if_neg string.ne_zero, puts_eq string]
  | number digits =>
      cases shows
      simp only [putValue, putText_eq, putZeros_eq, List.append_assoc]
  | percent =>
      cases shows
      rfl

end Output

/-- The turn of a directive prints what is in front of it, the base and the value. -/
theorem vprintfTurn_directive {Text : UInt32 → List UInt8 → Prop} {args memory : Memory}
    {before after shown : List UInt8} {strStart ap next : UInt32} {value : Value}
    (printed : List UInt8) (texts : ∀ ptr bytes, Text ptr bytes → StringAt memory ptr bytes)
    (string : CString memory strStart (before ++ percent :: after)) (first : percent ∉ before)
    (fetched : fetchValue (scan after).1 args ap = some (value, next))
    (shows : Shows Text (scan after).1 value shown) :
    ∃ last, vprintfTurn args ⟨strStart, ap⟩ ⟨memory, printed⟩ =
        .returned (.again ⟨last, next⟩)
          ⟨memory, printed ++ (before ++ (baseText (scan after).1 ++ shown))⟩ ∧
      Behind memory strStart (before ++ percent :: after) last (scan after).2.tail := by
  obtain ⟨mark, last, found, valid, read, behind⟩ := next_directive string first
  refine ⟨last + 1, ?_, behind (fetchValue_known fetched)⟩
  simp only [vprintfTurn, found, Outcome.returned_within, Outcome.returned_andThen,
    if_neg valid, read, fetched, putsdelim_eq string first, putText_eq,
    putValue_shows texts shows, List.append_assoc]

/-- `vprintf` prints what its format stands for. -/
theorem vprintfLoop_renders {Text : UInt32 → List UInt8 → Prop} {args memory : Memory}
    {text out printed : List UInt8} {strStart ap : UInt32} {ending : Ending} {turns : Nat}
    (renders : Renders Text args text ap out ending)
    (texts : ∀ ptr bytes, Text ptr bytes → StringAt memory ptr bytes)
    (string : CString memory strStart text) (enough : text.length < turns) :
    vprintfLoop turns args ⟨strStart, ap⟩ ⟨memory, printed⟩ =
      ending.outcome ⟨memory, printed ++ out⟩ := by
  induction renders generalizing strStart printed turns with
  | @plain text ap plainText =>
      obtain ⟨turns, rfl⟩ := Nat.exists_eq_add_of_lt enough
      have left : vprintfTurn args ⟨strStart, ap⟩ ⟨memory, printed⟩ =
          .returned (.leave ⟨strStart, ap⟩) ⟨memory, printed⟩ := by
        rw [vprintfTurn, strchr_absent string (by decide) plainText]
        rfl
      rw [vprintfLoop, loop_leave left, Outcome.returned_andThen, puts_eq string]
      rfl
  | @unknown before after ap first letter =>
      obtain ⟨turns, rfl⟩ := Nat.exists_eq_add_of_lt enough
      obtain ⟨mark, last, found, valid, read, _⟩ := next_directive string first
      have panicked : vprintfTurn args ⟨strStart, ap⟩ ⟨memory, printed⟩ =
          .panicked unknownSymbol ⟨memory, printed⟩ := by
        simp only [vprintfTurn, found, Outcome.returned_within, Outcome.returned_andThen,
          if_neg valid, read, letter]
      rw [vprintfLoop, loop_panicked panicked, List.append_nil]
      rfl
  | @directive before after shown out ap next value ending first fetched shows _
      inductionHypothesis =>
      obtain ⟨last, again, rest⟩ :=
        vprintfTurn_directive printed texts string first fetched shows
      have fewer := scan_tail_length before after
      obtain ⟨turns, rfl⟩ := Nat.exists_eq_succ_of_ne_zero (Nat.ne_zero_of_lt enough)
      have shorter : (scan after).2.tail.length < turns := by omega
      rw [vprintfLoop, loop_again again, ← vprintfLoop, inductionHypothesis rest.string shorter]
      simp only [List.append_assoc]

end Bootloader.Libc
