import Bootloader.Libc.NbToStr
import Bootloader.Libc.StrOperations

/-!
# Formats

`vprintf` and `vsprintf` hold the same parser of directives, letter by letter; it is
here once. `scan` is what that parser does to the text behind a `'%'`, and `Renders`
says what a format means: the bytes it stands for with given arguments, and how it
ends.
-/

namespace Bootloader.Libc

open Bootloader.Std

/-- `'%'`. -/
def percent : UInt8 := 0x25

/-- `'0'`. -/
def digitZero : UInt8 := 0x30

/-- What the parser finds behind a `'%'`. A width of -1 is none. -/
structure Directive where
  varFormat : UInt8
  longNb : Bool
  flagShowbase : Bool
  flagZerofill : Bool
  width : Int8
deriving DecidableEq, Repr

/-- A flag, and the mark behind it. -/
def readFlag (flag : UInt8) (mark : UInt32) (memory : Memory) : Bool × UInt32 :=
  if memory mark.toNat = flag then (true, mark + 1) else (false, mark)

/-- The variables of the loop over the digits of the width. -/
structure WidthCursor where
  mark : UInt32
  width : Int8

/-- One turn of the loop over the digits of the width, which adds them up. -/
def widthTurn (cursor : WidthCursor) (memory : Memory) :
    Outcome Memory (Turn WidthCursor WidthCursor) :=
  let varFormat := memory cursor.mark.toNat
  if (varFormat ≤ 0x39 ∧ varFormat ≥ 0x30) ∧ cursor.width < 21 then
    .returned (.again ⟨cursor.mark + 1, cursor.width + (varFormat.toInt8 - 48)⟩) memory
  else .returned (.leave cursor) memory

/-- The flag `'0'` and the width behind it. -/
def readZerofill (mark : UInt32) (memory : Memory) : Outcome Memory (Bool × WidthCursor) :=
  let flag := readFlag digitZero mark memory
  if flag.1 then
    (loop widthTurn stringTurns ⟨flag.2, 0⟩ memory).andThen fun cursor memory =>
      if cursor.width = 0 then .returned (false, { cursor with width := -1 }) memory
      else .returned (true, cursor) memory
  else .returned (false, ⟨flag.2, -1⟩) memory

/-- The parser: the directive behind the `'%'` at the mark, and the mark of its last
letter. -/
def readDirective (mark : UInt32) (memory : Memory) : Outcome Memory (Directive × UInt32) :=
  let showbase := readFlag 0x23 (mark + 1) memory
  (readZerofill showbase.2 memory).andThen fun zerofill memory =>
    let long := readFlag 0x6C zerofill.2.mark memory
    .returned
      ({ varFormat := memory long.2.toNat
         longNb := long.1
         flagShowbase := showbase.1
         flagZerofill := zerofill.1
         width := zerofill.2.width }, long.2) memory

/-- A value to print. -/
inductive Value where
  | char (c : UInt8)
  | string (ptr : UInt32)
  | number (digits : List UInt8)
  | percent
deriving DecidableEq, Repr

/-- `va_arg` of a signed number. -/
def fetchSigned (directive : Directive) (args : Memory) (ap : UInt32) : Int64 × UInt32 :=
  if directive.longNb then ((args.load64 ap.toNat).toInt64, ap + 8)
  else ((args.load32 ap.toNat).toInt32.toInt64, ap + 4)

/-- `va_arg` of an unsigned number. -/
def fetchUnsigned (directive : Directive) (args : Memory) (ap : UInt32) : UInt64 × UInt32 :=
  if directive.longNb then (args.load64 ap.toNat, ap + 8)
  else ((args.load32 ap.toNat).toUInt64, ap + 4)

/-- The first switch: the value, and the arguments behind it. The arguments are in a
memory of their own; there is no value for an unknown letter. -/
def fetchValue (directive : Directive) (args : Memory) (ap : UInt32) :
    Option (Value × UInt32) :=
  let signed := fetchSigned directive args ap
  let unsigned := fetchUnsigned directive args ap
  match directive.varFormat with
  | 0x63 => some (.char (args.load32 ap.toNat).toUInt8, ap + 4)
  | 0x73 => some (.string (args.load32 ap.toNat), ap + 4)
  | 0x64 => some (.number (inttostring signed.1 decimal), signed.2)
  | 0x70 | 0x78 => some (.number (uinttostring unsigned.1 hexadecimal), unsigned.2)
  | 0x62 | 0x75 => some (.number (uinttostring unsigned.1 decimal), unsigned.2)
  | 0x25 => some (.percent, ap)
  | _ => none

/-- The base in front of a number: `"0x"` or `"1'b"`. -/
def baseText (directive : Directive) : List UInt8 :=
  if directive.flagShowbase then
    match directive.varFormat with
    | 0x70 | 0x78 => [0x30, 0x78]
    | 0x62 => [0x31, 0x27, 0x62]
    | _ => []
  else []

/-- The number of zeros in front of a number, a 32-bit difference. -/
def nbzeros (directive : Directive) (digits : List UInt8) : Nat :=
  if directive.flagZerofill then
    (directive.width.toInt32.toUInt32 - UInt32.ofNat digits.length).toNat
  else 0

/-- `"null"`. -/
def nullText : List UInt8 := [0x6E, 0x75, 0x6C, 0x6C]

/-- Where the rest of the format and the rest of the arguments are. -/
structure FormatCursor where
  strStart : UInt32
  ap : UInt32

/-- The message of the panic at an unknown letter. -/
def unknownSymbol : String := "unkown format symbol %%%c"

section Scan

/-- A flag in a text. -/
def scanFlag (flag : UInt8) : List UInt8 → Bool × List UInt8
  | [] => (false, [])
  | c :: rest => if c = flag then (true, rest) else (false, c :: rest)

/-- The digits of the width. -/
def scanWidth : Int8 → List UInt8 → Int8 × List UInt8
  | width, [] => (width, [])
  | width, c :: rest =>
      if (c ≤ 0x39 ∧ c ≥ 0x30) ∧ width < 21 then scanWidth (width + (c.toInt8 - 48)) rest
      else (width, c :: rest)

/-- The flag `'0'` and the width behind it. -/
def scanZerofill (text : List UInt8) : Bool × Int8 × List UInt8 :=
  let flag := scanFlag digitZero text
  if flag.1 then
    let width := scanWidth 0 flag.2
    if width.1 = 0 then (false, -1, width.2) else (true, width.1, width.2)
  else (false, -1, flag.2)

/-- The directive at the start of a text, and the text from its last letter on. -/
def scan (text : List UInt8) : Directive × List UInt8 :=
  let showbase := scanFlag 0x23 text
  let zerofill := scanZerofill showbase.2
  let long := scanFlag 0x6C zerofill.2.2
  ({ varFormat := long.2.headD 0
     longNb := long.1
     flagShowbase := showbase.1
     flagZerofill := zerofill.1
     width := zerofill.2.1 }, long.2)

variable {memory : Memory} {mark : UInt32} {text : List UInt8} {flag : UInt8}

theorem scanFlag_length (flag : UInt8) (text : List UInt8) :
    (scanFlag flag text).2.length ≤ text.length := by
  cases text with
  | nil => exact Nat.le_refl _
  | cons c rest =>
      rw [scanFlag]
      split
      · exact Nat.le_succ _
      · exact Nat.le_refl _

theorem scanWidth_length (width : Int8) (text : List UInt8) :
    (scanWidth width text).2.length ≤ text.length := by
  induction text generalizing width with
  | nil => exact Nat.le_refl _
  | cons c rest inductionHypothesis =>
      rw [scanWidth]
      split
      · exact Nat.le_succ_of_le (inductionHypothesis _)
      · exact Nat.le_refl _

theorem scanZerofill_length (text : List UInt8) :
    (scanZerofill text).2.2.length ≤ text.length := by
  have flag := scanFlag_length digitZero text
  have width := scanWidth_length 0 (scanFlag digitZero text).2
  simp only [scanZerofill]
  split
  · split
    · exact Nat.le_trans width flag
    · exact Nat.le_trans width flag
  · exact flag

/-- A directive is no longer than the text it is in. -/
theorem scan_length (text : List UInt8) : (scan text).2.length ≤ text.length :=
  Nat.le_trans (scanFlag_length _ _)
    (Nat.le_trans (scanZerofill_length _) (scanFlag_length _ _))

/-- A letter that is not the terminator stands in the text. -/
theorem scan_complete {text : List UInt8} (letter : (scan text).1.varFormat ≠ 0) :
    (scan text).2 ≠ [] := by
  intro nothing
  apply letter
  change (scan text).2.headD 0 = 0
  rw [nothing]
  rfl

/-- At `next` stands the rest of the string at `mark`: both end at the same place. -/
structure Behind (memory : Memory) (mark : UInt32) (text : List UInt8) (next : UInt32)
    (rest : List UInt8) : Prop where
  string : CString memory next rest
  finish : next.toNat + rest.length = mark.toNat + text.length

theorem CString.behind_self (string : CString memory mark text) :
    Behind memory mark text mark text :=
  ⟨string, rfl⟩

/-- The rest of a string behind its first byte. -/
theorem CString.behind_next {byte : UInt8} (string : CString memory mark (byte :: text)) :
    Behind memory mark (byte :: text) (mark + 1) text := by
  refine ⟨string.2.2.2, ?_⟩
  rw [string.toNat_next, List.length_cons]
  omega

theorem Behind.trans {middle next : UInt32} {rest tail : List UInt8}
    (first : Behind memory mark text middle rest) (second : Behind memory middle rest next tail) :
    Behind memory mark text next tail :=
  ⟨second.string, second.finish.trans first.finish⟩

/-- What is left of a format behind a directive is shorter. -/
theorem scan_tail_length (before after : List UInt8) :
    (scan after).2.tail.length < (before ++ percent :: after).length := by
  have scanned := scan_length after
  rw [List.length_tail, List.length_append, List.length_cons]
  omega

/-- Reading a flag is scanning for it. -/
theorem readFlag_scan (string : CString memory mark text) (valid : flag ≠ 0) :
    ∃ next, readFlag flag mark memory = ((scanFlag flag text).1, next) ∧
      Behind memory mark text next (scanFlag flag text).2 := by
  cases text with
  | nil =>
      have here : memory mark.toNat = 0 := string.2
      refine ⟨mark, ?_, string.behind_self⟩
      rw [readFlag, here, if_neg valid.symm]
      rfl
  | cons c rest =>
      have here : memory mark.toNat = c := string.2.2.1
      rw [readFlag, here, scanFlag]
      by_cases same : c = flag
      · rw [if_pos same, if_pos same]
        exact ⟨mark + 1, rfl, string.behind_next⟩
      · rw [if_neg same, if_neg same]
        exact ⟨mark, rfl, string.behind_self⟩

/-- Reading the digits of the width is scanning for them. -/
theorem widthTurn_scan (string : CString memory mark text) (width : Int8) (turns : Nat)
    (enough : text.length < turns) :
    ∃ next, loop widthTurn turns ⟨mark, width⟩ memory =
        .returned ⟨next, (scanWidth width text).1⟩ memory ∧
      Behind memory mark text next (scanWidth width text).2 := by
  obtain ⟨turns, rfl⟩ := Nat.exists_eq_add_of_lt enough
  induction text generalizing mark width turns with
  | nil =>
      have here : memory mark.toNat = 0 := string.2
      refine ⟨mark, loop_leave ?_, string.behind_self⟩
      rw [widthTurn, here, if_neg fun both => absurd both.1.2 (by decide)]
      rfl
  | cons c rest inductionHypothesis =>
      have here : memory mark.toNat = c := string.2.2.1
      rw [scanWidth]
      by_cases another : (c ≤ 0x39 ∧ c ≥ 0x30) ∧ width < 21
      · have passed : widthTurn ⟨mark, width⟩ memory =
            .returned (.again ⟨mark + 1, width + (c.toInt8 - 48)⟩) memory := by
          simp only [widthTurn, here, if_pos another]
        obtain ⟨next, digits, behind⟩ := inductionHypothesis string.2.2.2
          (width + (c.toInt8 - 48)) turns (by omega)
        rw [if_pos another, loop_again passed, List.length_cons, Nat.add_right_comm _ 1 turns]
        exact ⟨next, digits, string.behind_next.trans behind⟩
      · rw [if_neg another]
        refine ⟨mark, loop_leave ?_, string.behind_self⟩
        simp only [widthTurn, here, if_neg another]

theorem readZerofill_scan (string : CString memory mark text) :
    ∃ next, readZerofill mark memory =
        .returned ((scanZerofill text).1, ⟨next, (scanZerofill text).2.1⟩) memory ∧
      Behind memory mark text next (scanZerofill text).2.2 := by
  obtain ⟨middle, flag, behind⟩ := readFlag_scan string (show digitZero ≠ 0 by decide)
  obtain ⟨next, digits, behind'⟩ :=
    widthTurn_scan behind.string 0 stringTurns behind.string.length_lt
  simp only [readZerofill, scanZerofill, flag]
  by_cases zerofill : (scanFlag digitZero text).1 = true
  · rw [if_pos zerofill, if_pos zerofill, digits, Outcome.returned_andThen]
    by_cases nothing : (scanWidth 0 (scanFlag digitZero text).2).1 = 0
    · rw [if_pos nothing, if_pos nothing]
      exact ⟨next, rfl, behind.trans behind'⟩
    · rw [if_neg nothing, if_neg nothing]
      exact ⟨next, rfl, behind.trans behind'⟩
  · rw [if_neg zerofill, if_neg zerofill]
    exact ⟨middle, rfl, behind⟩

/-- Reading a directive is scanning for it. -/
theorem readDirective_scan (string : CString memory (mark + 1) text) :
    ∃ last, readDirective mark memory = .returned ((scan text).1, last) memory ∧
      Behind memory (mark + 1) text last (scan text).2 := by
  obtain ⟨first, showbase, behind⟩ := readFlag_scan string (show 0x23 ≠ 0 by decide)
  obtain ⟨second, zerofill, behind'⟩ := readZerofill_scan behind.string
  obtain ⟨third, long, behind''⟩ := readFlag_scan behind'.string (show 0x6C ≠ 0 by decide)
  refine ⟨third, ?_, behind.trans (behind'.trans behind'')⟩
  simp only [readDirective, showbase, zerofill, Outcome.returned_andThen, long,
    behind''.string.head, scan]

/-- Behind a directive with a letter, the format goes on. -/
theorem Behind.directive {next : UInt32}
    (behind : Behind memory mark text next (scan text).2)
    (letter : (scan text).1.varFormat ≠ 0) :
    Behind memory mark text (next + 1) (scan text).2.tail := by
  cases rest : (scan text).2 with
  | nil =>
      have terminator : (scan text).1.varFormat = 0 := by
        change (scan text).2.headD 0 = 0
        rw [rest]
        rfl
      exact absurd terminator letter
  | cons c tail =>
      rw [rest] at behind
      exact behind.trans behind.string.behind_next

/-- How `vprintf` and `vsprintf` find the next directive of a format. -/
theorem next_directive {strStart : UInt32} {before after : List UInt8}
    (string : CString memory strStart (before ++ percent :: after)) (first : percent ∉ before) :
    ∃ mark last, strchr strStart percent memory = .returned mark memory ∧ mark ≠ 0 ∧
      readDirective mark memory = .returned ((scan after).1, last) memory ∧
      ((scan after).1.varFormat ≠ 0 →
        Behind memory strStart (before ++ percent :: after) (last + 1) (scan after).2.tail) := by
  have here := string.drop
  have mark := string.toNat_drop
  have start : Behind memory strStart (before ++ percent :: after)
      (strStart + UInt32.ofNat before.length) (percent :: after) := by
    refine ⟨here, ?_⟩
    rw [mark, List.length_append, Nat.add_assoc]
  obtain ⟨last, read, behind⟩ := readDirective_scan here.2.2.2
  exact ⟨_, last, strchr_found string first, here.ne_zero, read, fun letter =>
    start.trans (here.behind_next.trans (behind.directive letter))⟩

end Scan

section Meaning

/-- How formatting ends: with the arguments behind the last one taken, or at an
unknown letter. -/
inductive Ending where
  | finished (ap : UInt32)
  | unknown

/-- An ending in a state. -/
def Ending.outcome {State : Type} (ending : Ending) (state : State) : Outcome State UInt32 :=
  match ending with
  | .finished ap => .returned ap state
  | .unknown => .panicked unknownSymbol state

/-- What a string argument stands for: NULL prints as "null". -/
def StringAt (memory : Memory) (ptr : UInt32) (bytes : List UInt8) : Prop :=
  ptr = 0 ∧ bytes = nullText ∨ CString memory ptr bytes

/-- The text of a value, by what a string argument points at. -/
def Shows (Text : UInt32 → List UInt8 → Prop) (directive : Directive) :
    Value → List UInt8 → Prop
  | .char c, shown => shown = [c]
  | .string ptr, shown => Text ptr shown
  | .number digits, shown =>
      shown = List.replicate (nbzeros directive digits) digitZero ++ digits
  | .percent, shown => shown = [percent]

/-- What a format stands for: the bytes up to the end of formatting. -/
inductive Renders (Text : UInt32 → List UInt8 → Prop) (args : Memory) :
    List UInt8 → UInt32 → List UInt8 → Ending → Prop where
  | plain {text : List UInt8} {ap : UInt32} (plainText : percent ∉ text) :
      Renders Text args text ap text (.finished ap)
  | unknown {before after : List UInt8} {ap : UInt32} (first : percent ∉ before)
      (letter : fetchValue (scan after).1 args ap = none) :
      Renders Text args (before ++ percent :: after) ap [] .unknown
  | directive {before after shown out : List UInt8} {ap next : UInt32} {value : Value}
      {ending : Ending} (first : percent ∉ before)
      (fetched : fetchValue (scan after).1 args ap = some (value, next))
      (shows : Shows Text (scan after).1 value shown)
      (renders : Renders Text args (scan after).2.tail next out ending) :
      Renders Text args (before ++ percent :: after) ap
        (before ++ (baseText (scan after).1 ++ (shown ++ out))) ending

/-- Formatting takes this pointer as a string argument. -/
inductive TakesString (args : Memory) : List UInt8 → UInt32 → UInt32 → Prop where
  | here {before after : List UInt8} {ap next ptr : UInt32} (first : percent ∉ before)
      (fetched : fetchValue (scan after).1 args ap = some (.string ptr, next)) :
      TakesString args (before ++ percent :: after) ap ptr
  | later {before after : List UInt8} {ap next ptr : UInt32} {value : Value}
      (first : percent ∉ before)
      (fetched : fetchValue (scan after).1 args ap = some (value, next))
      (takes : TakesString args (scan after).2.tail next ptr) :
      TakesString args (before ++ percent :: after) ap ptr

variable {Text : UInt32 → List UInt8 → Prop} {args : Memory}

/-- The first directive of a format is the only one at the start of it. -/
theorem first_percent {before before' after after' : List UInt8} (first : percent ∉ before)
    (first' : percent ∉ before')
    (same : before ++ percent :: after = before' ++ percent :: after') :
    before = before' ∧ after = after' := by
  induction before generalizing before' with
  | nil =>
      cases before' with
      | nil => exact ⟨rfl, List.tail_eq_of_cons_eq same⟩
      | cons c rest => exact absurd (List.head_eq_of_cons_eq same ▸ List.mem_cons_self) first'
  | cons c rest inductionHypothesis =>
      cases before' with
      | nil => exact absurd (List.head_eq_of_cons_eq same ▸ List.mem_cons_self) first
      | cons c' rest' =>
          obtain ⟨rfl, tail⟩ := inductionHypothesis
            (fun member => first (List.mem_cons_of_mem _ member))
            (fun member => first' (List.mem_cons_of_mem _ member))
            (List.tail_eq_of_cons_eq same)
          exact ⟨by rw [List.head_eq_of_cons_eq same], tail⟩

/-- The string arguments of a format are that of its first directive and those of the
rest. -/
theorem takesString_iff {before after : List UInt8} {ap ptr : UInt32}
    (first : percent ∉ before) :
    TakesString args (before ++ percent :: after) ap ptr ↔
      ∃ value next, fetchValue (scan after).1 args ap = some (value, next) ∧
        (value = .string ptr ∨ TakesString args (scan after).2.tail next ptr) := by
  constructor
  · intro takes
    generalize whole : before ++ percent :: after = text at takes
    cases takes with
    | here first' fetched =>
        obtain ⟨rfl, rfl⟩ := first_percent first first' whole
        exact ⟨_, _, fetched, Or.inl rfl⟩
    | later first' fetched takes =>
        obtain ⟨rfl, rfl⟩ := first_percent first first' whole
        exact ⟨_, _, fetched, Or.inr takes⟩
  · rintro ⟨value, next, fetched, rfl | takes⟩
    · exact .here first fetched
    · exact .later first fetched takes

/-- A text without directives takes no arguments. -/
theorem not_takesString {text : List UInt8} {ap ptr : UInt32} (plainText : percent ∉ text) :
    ¬ TakesString args text ap ptr := by
  intro takes
  cases takes with
  | here _ _ => exact plainText (List.mem_append_right _ List.mem_cons_self)
  | later _ _ _ => exact plainText (List.mem_append_right _ List.mem_cons_self)

/-- Every format stands for something, when its string arguments do. -/
theorem exists_renders (text : List UInt8) (ap : UInt32)
    (strings : ∀ ptr, TakesString args text ap ptr → ∃ bytes, Text ptr bytes) :
    ∃ out ending, Renders Text args text ap out ending := by
  induction size : text.length using Nat.strongRecOn generalizing text ap with
  | ind length inductionHypothesis =>
      by_cases directive : percent ∈ text
      · obtain ⟨before, after, rfl, first⟩ := List.eq_append_cons_of_mem directive
        cases fetched : fetchValue (scan after).1 args ap with
        | none => exact ⟨[], .unknown, .unknown first fetched⟩
        | some fetch =>
            obtain ⟨value, next⟩ := fetch
            have shorter : (scan after).2.tail.length < length :=
              size ▸ scan_tail_length before after
            obtain ⟨out, ending, renders⟩ := inductionHypothesis _ shorter _ next
              (fun ptr takes => strings ptr (.later first fetched takes)) rfl
            have shown : ∃ shown, Shows Text (scan after).1 value shown := by
              cases value with
              | char c => exact ⟨_, rfl⟩
              | string ptr => exact strings ptr (.here first fetched)
              | number digits => exact ⟨_, rfl⟩
              | percent => exact ⟨_, rfl⟩
            obtain ⟨shown, shows⟩ := shown
            exact ⟨_, ending, .directive first fetched shows renders⟩
      · exact ⟨text, .finished ap, .plain directive⟩

/-- A letter that is known is not the terminator. -/
theorem fetchValue_known {directive : Directive} {ap next : UInt32} {value : Value}
    (fetched : fetchValue directive args ap = some (value, next)) : directive.varFormat ≠ 0 := by
  intro terminator
  rw [fetchValue, terminator] at fetched
  cases fetched

end Meaning

end Bootloader.Libc
