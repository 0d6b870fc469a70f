import Bootloader.Libc.Printf
import Bootloader.Std.Reach

/-!
# The walk along a format

`vprintf` has no test for the end of its format but that the terminator is no flag, no
digit and no letter. `vprintf_stays_in_format` is what follows: wherever a string ends,
the walk along it stays inside, goes on by at least two characters each time, and so
comes to an end.
-/

namespace Bootloader.Libc

open Bootloader.Std Relation

/-- A routine returns this in every memory that holds the same bytes from `low` up to, but not
including, `high`: it reads no others. -/
def ReadsWithin {Value : Type} (low high : Nat) (memory : Memory)
    (routine : Memory → Outcome Memory Value) (value : Value) : Prop :=
  ∀ other, Memory.AgreeOn low high memory other → routine other = .returned value other

/-- A routine prints these bytes in every memory that holds the same bytes from `low` up to,
but not including, `high`. -/
def PrintsWithin (low high : Nat) (memory : Memory) (routine : Console → Outcome Console Unit)
    (bytes : List UInt8) : Prop :=
  ∀ other printed, Memory.AgreeOn low high memory other →
    routine ⟨other, printed⟩ = .returned () ⟨other, printed ++ bytes⟩

/-- From the cursor on, `strchr` finds a `'%'`, and the parser a directive behind it whose last
letter is not behind the terminator at `finish`. -/
structure FoundDirective (memory : Memory) (finish : Nat) (cursor : FormatCursor) (mark : UInt32)
    (read : Directive × UInt32) : Prop where
  search : ReadsWithin cursor.strStart.toNat (finish + 1) memory
    (strchr cursor.strStart percent) mark
  found : memory mark.toNat = percent
  ahead : cursor.strStart.toNat ≤ mark.toNat
  parse : ReadsWithin cursor.strStart.toNat (finish + 1) memory (readDirective mark) read
  inside : read.2.toNat ≤ finish

/-- What a turn does in a format with its terminator at `finish`: it leaves the loop, panics, or
goes on at the rest of the format. -/
inductive FormatTurn (args memory : Memory) (finish : Nat) (cursor : FormatCursor)
    (console : Console) : Prop where
  | left
      (search : ReadsWithin cursor.strStart.toNat (finish + 1) memory
        (strchr cursor.strStart percent) 0)
      (rest : PrintsWithin cursor.strStart.toNat (finish + 1) memory (puts cursor.strStart)
        (memory.loadBytes cursor.strStart.toNat (finish - cursor.strStart.toNat)))
      (turn : vprintfTurn args cursor console = .returned (.leave cursor) console)
  | panicked {mark : UInt32} {read : Directive × UInt32}
      (directive : FoundDirective memory finish cursor mark read)
      (turn : vprintfTurn args cursor console = .panicked unknownSymbol console)
  | moved {mark : UInt32} {read : Directive × UInt32} {next : FormatCursor}
      {shown remaining : List UInt8}
      (directive : FoundDirective memory finish cursor mark read)
      (literal : PrintsWithin cursor.strStart.toNat (finish + 1) memory
        (putsdelim cursor.strStart percent)
        (memory.loadBytes cursor.strStart.toNat (mark.toNat - cursor.strStart.toNat)))
      (turn : vprintfTurn args cursor console = .returned (.again next)
        ⟨console.memory, console.out ++
          (memory.loadBytes cursor.strStart.toNat (mark.toNat - cursor.strStart.toNat) ++ shown)⟩)
      (forward : cursor.strStart.toNat + 2 ≤ next.strStart.toNat)
      (string : CString memory next.strStart remaining)
      (ends : next.strStart.toNat + remaining.length = finish)

section Walk

variable {args memory : Memory} {str place strStart ap : UInt32} {printed : List UInt8}
  {text rest before after : List UInt8}

/-- From anywhere, `puts` comes to a terminator when there is one in memory. -/
theorem puts_returns (zero : memory place.toNat = 0) (str : UInt32) (printed : List UInt8) :
    ∃ bytes, puts str ⟨memory, printed⟩ = .returned () ⟨memory, printed ++ bytes⟩ := by
  rw [puts, putsdelim]
  by_cases null : str = 0
  · refine ⟨[], ?_⟩
    rw [if_neg (not_not_intro null), List.append_nil]
  · rw [if_pos null]
    refine @loop_total _ _ _ (putsdelimTurn 0) str stringTurns ⟨memory, printed⟩
      (fun _ console => ∃ bytes, console = ⟨memory, printed ++ bytes⟩)
      (fun outcome => ∃ bytes, outcome = .returned () ⟨memory, printed ++ bytes⟩)
      (fun str => (place - str).toNat) ?_ (UInt32.toNat_lt _) ⟨[], by rw [List.append_nil]⟩
    rintro current _ ⟨bytes, rfl⟩
    by_cases ends : memory current.toNat = 0
    · have turn : putsdelimTurn 0 current ⟨memory, printed ++ bytes⟩ =
          .returned (.leave ()) ⟨memory, printed ++ bytes⟩ := if_neg (not_not_intro ends)
      rw [turn]
      exact ⟨bytes, rfl⟩
    · have turn : putsdelimTurn 0 current ⟨memory, printed ++ bytes⟩ =
          .returned (.again (current + 1))
            ⟨memory, printed ++ bytes ++ [memory current.toNat]⟩ := if_pos ends
      have different : current.toNat ≠ place.toNat := fun same => ends (same ▸ zero)
      rw [turn]
      refine ⟨⟨bytes ++ [memory current.toNat], by rw [List.append_assoc]⟩, ?_⟩
      simp only [UInt32.toNat_sub, UInt32.toNat_add, UInt32.toNat_one]
      have bound := current.toNat_lt
      have bound' := place.toNat_lt
      omega

/-- A value is printed, whatever a string argument points at. -/
theorem putValue_returns (zero : memory place.toNat = 0) (directive : Directive) (value : Value)
    (printed : List UInt8) :
    ∃ bytes, putValue directive value ⟨memory, printed⟩ =
      .returned () ⟨memory, printed ++ bytes⟩ := by
  cases value with
  | char c => exact ⟨[c], rfl⟩
  | string ptr =>
      rw [putValue]
      split
      · exact ⟨nullText, by rw [putText_eq]⟩
      · exact puts_returns zero ptr printed
  | number digits =>
      refine ⟨List.replicate (nbzeros directive digits) digitZero ++ digits, ?_⟩
      simp only [putValue, putText_eq, putZeros_eq, List.append_assoc]
  | percent => exact ⟨[percent], rfl⟩

/-- Wherever the rest of a format has a `'%'`, a directive is found. -/
theorem foundDirective_scan (string : CString memory strStart (before ++ percent :: after))
    (first : percent ∉ before) (ap : UInt32) :
    ∃ last, FoundDirective memory (strStart.toNat + (before ++ percent :: after).length)
        ⟨strStart, ap⟩ (strStart + UInt32.ofNat before.length) ((scan after).1, last) ∧
      Behind memory (strStart + UInt32.ofNat before.length + 1) after last (scan after).2 := by
  obtain ⟨last, read, behind⟩ := readDirective_scan string.drop.2.2.2
  have mark := string.toNat_drop
  have next := string.drop.toNat_next
  have finish := behind.finish
  have length : (before ++ percent :: after).length = before.length + (after.length + 1) :=
    List.length_append
  refine ⟨last, ⟨?_, string.drop.2.2.1, ?_, ?_, ?_⟩, behind⟩
  · intro other agree
    exact strchr_found (string.agree agree) first
  · rw [mark]
    exact Nat.le_add_right _ _
  · intro other agree
    obtain ⟨last', read', behind'⟩ := readDirective_scan (string.agree agree).drop.2.2.2
    -- The same text is left in both memories, and so the parser has stopped at the same place.
    have same : last' = last := by
      apply UInt32.toNat_inj.mp
      have finish' := behind'.finish
      omega
    rw [read', same]
  · change last.toNat ≤ _
    omega

/-- A complete directive takes up at least a character. -/
theorem scan_complete_length (letter : (scan after).1.varFormat ≠ 0) :
    (scan after).2.tail.length < after.length := by
  have shorter := scan_length after
  have nonempty := List.length_pos_iff.mpr (scan_complete letter)
  rw [List.length_tail]
  omega

/-- A turn that finds a `'%'` panics, or goes on behind the directive. -/
theorem formatTurn_directive (string : CString memory strStart (before ++ percent :: after))
    (first : percent ∉ before) (args : Memory) (ap : UInt32) (printed : List UInt8) :
    FormatTurn args memory (strStart.toNat + (before ++ percent :: after).length) ⟨strStart, ap⟩
      ⟨memory, printed⟩ := by
  obtain ⟨last, found, behind⟩ := foundDirective_scan string first ap
  have here : Memory.AgreeOn strStart.toNat
      (strStart.toNat + (before ++ percent :: after).length + 1) memory memory :=
    fun _ _ _ => rfl
  have searched := found.search memory here
  have parsed := found.parse memory here
  have valid : strStart + UInt32.ofNat before.length ≠ 0 := string.drop.ne_zero
  have mark := string.toNat_drop
  have literal : memory.loadBytes strStart.toNat
      ((strStart + UInt32.ofNat before.length).toNat - strStart.toNat) = before := by
    rw [mark, Nat.add_sub_cancel_left]
    exact string.loadBytes_eq
  cases fetched : fetchValue (scan after).1 args ap with
  | none =>
      refine .panicked found ?_
      simp only [vprintfTurn, searched, parsed, Outcome.returned_within,
        Outcome.returned_andThen, if_neg valid, fetched]
  | some fetch =>
      obtain ⟨value, next⟩ := fetch
      obtain ⟨bytes, shows⟩ := putValue_returns string.terminator (scan after).1 value
        (printed ++ (before ++ baseText (scan after).1))
      have letter := fetchValue_known fetched
      have further := behind.directive letter
      have finish := behind.finish
      have finish' := further.finish
      have consumed := scan_complete_length letter
      have after_next := string.drop.toNat_next
      have length : (before ++ percent :: after).length = before.length + (after.length + 1) :=
        List.length_append
      refine @FormatTurn.moved args memory _ ⟨strStart, ap⟩ ⟨memory, printed⟩ _ _
        ⟨last + 1, next⟩ (baseText (scan after).1 ++ bytes) _ found ?_ ?_ ?_ further.string ?_
      · intro other others agree
        rw [literal]
        exact putsdelim_eq (string.agree agree) first
      · rw [literal]
        simp only [vprintfTurn, searched, parsed, Outcome.returned_within,
          Outcome.returned_andThen, if_neg valid, fetched, putsdelim_eq string first, putText_eq,
          shows, List.append_assoc]
      · change strStart.toNat + 2 ≤ (last + 1).toNat
        omega
      · change (last + 1).toNat + (scan after).2.tail.length = _
        omega

/-- Every turn stays inside what is left of the format. -/
theorem formatTurn (string : CString memory strStart rest) (args : Memory) (ap : UInt32)
    (printed : List UInt8) :
    FormatTurn args memory (strStart.toNat + rest.length) ⟨strStart, ap⟩ ⟨memory, printed⟩ := by
  by_cases directive : percent ∈ rest
  · obtain ⟨before, after, rfl, first⟩ := List.eq_append_cons_of_mem directive
    exact formatTurn_directive string first args ap printed
  · have whole : CString memory strStart (rest ++ []) := by rwa [List.append_nil]
    refine .left ?_ ?_ ?_
    · intro other agree
      exact strchr_absent (string.agree agree) (by decide) directive
    · intro other others agree
      rw [Nat.add_sub_cancel_left, whole.loadBytes_eq]
      exact puts_eq (string.agree agree)
    · rw [vprintfTurn, strchr_absent string (by decide) directive]
      rfl

/-- The walk is at a rest of the format, with memory as it was. -/
def InFormat (memory : Memory) (finish : Nat) (cursor : FormatCursor) (console : Console) : Prop :=
  console.memory = memory ∧ ∃ rest, CString memory cursor.strStart rest ∧
    cursor.strStart.toNat + rest.length = finish

/-- What every turn of the walk does. -/
theorem InFormat.turn {finish : Nat} {cursor : FormatCursor} {console : Console}
    (inside : InFormat memory finish cursor console) (args : Memory) :
    FormatTurn args memory finish cursor console := by
  obtain ⟨strStart, ap⟩ := cursor
  obtain ⟨_, printed⟩ := console
  obtain ⟨rfl, rest, string, rfl⟩ := inside
  exact formatTurn string args ap printed

/-- The walk stays in the format, and its distance to the terminator shrinks by two. -/
theorem FormatTurn.next {finish : Nat} {cursor next : FormatCursor} {console after : Console}
    (does : FormatTurn args memory finish cursor console) (unchanged : console.memory = memory)
    (turn : vprintfTurn args cursor console = .returned (.again next) after) :
    InFormat memory finish next after ∧ cursor.strStart.toNat + 2 ≤ next.strStart.toNat := by
  cases does with
  | left _ _ left =>
      rw [left] at turn
      cases turn
  | panicked _ panicked =>
      rw [panicked] at turn
      cases turn
  | moved _ _ moved forward string ends =>
      rw [moved] at turn
      cases turn
      exact ⟨⟨unchanged, _, string, ends⟩, forward⟩

/-- Every point the walk comes to is in the format. -/
theorem InFormat.path {finish : Nat} {start point : FormatCursor × Console}
    (inside : InFormat memory finish start.1 start.2)
    (path : ReflTransGen (Again (vprintfTurn args)) start point) :
    InFormat memory finish point.1 point.2 := by
  induction path with
  | refl => exact inside
  | tail _ last inductionHypothesis =>
      exact ((inductionHypothesis.turn args).next inductionHypothesis.1 last).1

/-- The walk ends: two characters of the format are behind it with every turn. -/
theorem InFormat.loop_ends {finish turns : Nat} {cursor : FormatCursor} {console : Console}
    (inside : InFormat memory finish cursor console) (args : Memory)
    (enough : (finish - cursor.strStart.toNat) / 2 < turns) :
    (loop (vprintfTurn args) turns cursor console).ends = true ∧
      (loop (vprintfTurn args) turns cursor console).state.memory = memory := by
  refine @loop_total _ _ _ (vprintfTurn args) cursor turns console (InFormat memory finish)
    (fun outcome => outcome.ends = true ∧ outcome.state.memory = memory)
    (fun cursor => (finish - cursor.strStart.toNat) / 2) ?_ enough inside
  intro current before here
  cases here.turn args with
  | left _ _ turn =>
      rw [turn]
      exact ⟨rfl, here.1⟩
  | panicked _ turn =>
      rw [turn]
      exact ⟨rfl, here.1⟩
  | moved _ _ turn forward string ends =>
      rw [turn]
      refine ⟨⟨here.1, _, string, ends⟩, ?_⟩
      omega

/-- `vprintf` stays in its format, whatever that is and whatever its arguments are: up to the
terminator, no turn reads anything behind it, each turn panics or goes on by at least two
characters, and so the loop ends within half as many turns as the format has characters. -/
theorem vprintf_stays_in_format {format : UInt32} (string : CString memory format text)
    (args : Memory) (ap : UInt32) (printed : List UInt8) :
    (∀ point, ReflTransGen (Again (vprintfTurn args)) (⟨format, ap⟩, ⟨memory, printed⟩) point →
      FormatTurn args memory (format.toNat + text.length) point.1 point.2) ∧
    (∀ turns, text.length / 2 < turns →
      (loop (vprintfTurn args) turns ⟨format, ap⟩ ⟨memory, printed⟩).ends = true) ∧
    (vprintf format ap args ⟨memory, printed⟩).ends = true := by
  have inside : InFormat memory (format.toNat + text.length) ⟨format, ap⟩ ⟨memory, printed⟩ :=
    ⟨rfl, text, string, rfl⟩
  have walkEnds (turns : Nat) (enough : text.length / 2 < turns) :=
    inside.loop_ends args (show (format.toNat + text.length - format.toNat) / 2 < turns by omega)
  refine ⟨fun point path => (inside.path path).turn args,
    fun turns enough => (walkEnds turns enough).1, ?_⟩
  have short := string.length_lt
  obtain ⟨ends, unchanged⟩ := walkEnds stringTurns (by omega)
  refine Outcome.ends_andThen ends fun cursor console left => ?_
  have same : console = ⟨memory, console.out⟩ := by
    rw [left] at unchanged
    rw [← unchanged]
    rfl
  obtain ⟨bytes, rest⟩ := puts_returns string.terminator cursor.strStart console.out
  rw [same, rest]
  rfl

/-- The format "a%" ends inside a directive. -/
theorem vprintf_stays_in_format_unfinished :
    (∀ point, ReflTransGen (Again (vprintfTurn fun _ => 0))
        (⟨0x1000, 0x100⟩, ⟨Memory.storeBytes (fun _ => 0) 0x1000 [0x61, percent], []⟩) point →
      FormatTurn (fun _ => 0) (Memory.storeBytes (fun _ => 0) 0x1000 [0x61, percent]) 0x1002
        point.1 point.2) ∧
    (vprintf 0x1000 0x100 (fun _ => 0)
      ⟨Memory.storeBytes (fun _ => 0) 0x1000 [0x61, percent], []⟩).ends = true := by
  have string : CString (Memory.storeBytes (fun _ => 0) 0x1000 [0x61, percent]) 0x1000
      [0x61, percent] := by decide +kernel
  obtain ⟨walk, _, ends⟩ := vprintf_stays_in_format string (fun _ => 0) 0x100 []
  exact ⟨walk, ends⟩

end Walk

end Bootloader.Libc
