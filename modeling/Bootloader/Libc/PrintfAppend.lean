import Bootloader.Libc.Printf

/-!
# Formats in a row

The parser of directives looks at nothing behind the letter of a complete one, and
starts afresh behind it. Two formats in a row are therefore printed one after the
other, with one exception: what stands in front of a directive is printed only once
its letter is known.
-/

namespace Bootloader.Libc

open Bootloader.Std

section Seam

variable {text : List UInt8} {flag : UInt8}

/-- Where something is left behind a flag, more text behind that changes nothing; the
same holds for each part of the parser. -/
theorem scanFlag_append (more : List UInt8) (complete : (scanFlag flag text).2 ≠ []) :
    scanFlag flag (text ++ more) =
      ((scanFlag flag text).1, (scanFlag flag text).2 ++ more) := by
  cases text with
  | nil => exact absurd rfl complete
  | cons c rest =>
      rw [List.cons_append, scanFlag, scanFlag]
      split <;> rfl

theorem scanWidth_append {width : Int8} (more : List UInt8)
    (complete : (scanWidth width text).2 ≠ []) :
    scanWidth width (text ++ more) =
      ((scanWidth width text).1, (scanWidth width text).2 ++ more) := by
  induction text generalizing width with
  | nil => exact absurd rfl complete
  | cons c rest inductionHypothesis =>
      rw [scanWidth] at complete
      rw [List.cons_append, scanWidth, scanWidth]
      split at complete
      · rename_i digit
        rw [if_pos digit, if_pos digit, inductionHypothesis complete]
      · rename_i other
        rw [if_neg other, if_neg other]
        rfl

/-- A part of the parser that leaves something was given something. -/
theorem scanWidth_ne_nil {width : Int8} (complete : (scanWidth width text).2 ≠ []) :
    text ≠ [] := by
  rintro rfl
  exact complete rfl

theorem scanFlag_ne_nil (complete : (scanFlag flag text).2 ≠ []) : text ≠ [] := by
  rintro rfl
  exact complete rfl

theorem scanZerofill_append (more : List UInt8) (complete : (scanZerofill text).2.2 ≠ []) :
    scanZerofill (text ++ more) =
      ((scanZerofill text).1, (scanZerofill text).2.1, (scanZerofill text).2.2 ++ more) := by
  simp only [scanZerofill] at complete ⊢
  cases zerofill : (scanFlag digitZero text).1 with
  | false =>
      simp only [zerofill, Bool.false_eq_true, if_false] at complete ⊢
      rw [scanFlag_append more complete]
      simp only [zerofill, Bool.false_eq_true, if_false]
  | true =>
      simp only [zerofill, if_true] at complete ⊢
      have left : (scanWidth 0 (scanFlag digitZero text).2).2 ≠ [] := by
        split at complete <;> exact complete
      rw [scanFlag_append more (scanWidth_ne_nil left)]
      simp only [zerofill, if_true, scanWidth_append more left]
      split <;> rfl

theorem scanZerofill_ne_nil (complete : (scanZerofill text).2.2 ≠ []) : text ≠ [] := by
  rintro rfl
  exact complete rfl

/-- A directive with a letter is read as it would be without the text behind it. -/
theorem scan_append (more : List UInt8) (complete : (scan text).2 ≠ []) :
    scan (text ++ more) = ((scan text).1, (scan text).2 ++ more) := by
  simp only [scan] at complete ⊢
  have zerofill := scanFlag_ne_nil complete
  have showbase := scanZerofill_ne_nil zerofill
  rw [scanFlag_append more showbase]
  simp only [scanZerofill_append more zerofill, scanFlag_append more complete]
  have letter : (scanFlag 0x6C (scanZerofill (scanFlag 0x23 text).2).2.2).2.headD 0 =
      ((scanFlag 0x6C (scanZerofill (scanFlag 0x23 text).2).2.2).2 ++ more).headD 0 := by
    cases left : (scanFlag 0x6C (scanZerofill (scanFlag 0x23 text).2).2.2).2 with
    | nil => exact absurd left complete
    | cons c rest => rfl
  rw [letter]

end Seam

/-- The bytes of arguments that the value of a directive is taken from. -/
def Directive.argumentSize (directive : Directive) : Option Nat :=
  match directive.varFormat with
  | 0x63 => some 4
  | 0x73 => some 4
  | 0x64 => some (if directive.longNb then 8 else 4)
  | 0x70 | 0x78 => some (if directive.longNb then 8 else 4)
  | 0x62 | 0x75 => some (if directive.longNb then 8 else 4)
  | 0x25 => some 0
  | _ => none

/-- The same `count` bytes stand from two argument pointers on. -/
structure SameArguments (args : Memory) (ap : UInt32) (other : Memory) (target : UInt32)
    (count : Nat) : Prop where
  fits : ap.toNat + count < 2 ^ 32
  targetFits : target.toNat + count < 2 ^ 32
  same : ∀ index < count, args (ap.toNat + index) = other (target.toNat + index)

section Arguments

variable {args other : Memory} {ap target : UInt32} {directive : Directive} {size count : Nat}

theorem SameArguments.mono (same : SameArguments args ap other target count)
    (less : size ≤ count) : SameArguments args ap other target size where
  fits := Nat.lt_of_le_of_lt (Nat.add_le_add_left less _) same.fits
  targetFits := Nat.lt_of_le_of_lt (Nat.add_le_add_left less _) same.targetFits
  same index below := same.same index (Nat.lt_of_lt_of_le below less)

theorem SameArguments.advance (same : SameArguments args ap other target (size + count)) :
    SameArguments args (ap + UInt32.ofNat size) other (target + UInt32.ofNat size) count := by
  have fits := same.fits
  have targetFits := same.targetFits
  have here : (ap + UInt32.ofNat size).toNat = ap.toNat + size := toNat_offset (by omega)
  have there : (target + UInt32.ofNat size).toNat = target.toNat + size :=
    toNat_offset (by omega)
  refine ⟨by omega, by omega, fun index below => ?_⟩
  rw [here, there, Nat.add_assoc, Nat.add_assoc]
  exact same.same (size + index) (by omega)

theorem SameArguments.load32 (same : SameArguments args ap other target 4) :
    args.load32 ap.toNat = other.load32 target.toNat := by
  rw [Memory.load32, Memory.load32, Memory.loadLE_shift same.same]

theorem SameArguments.load64 (same : SameArguments args ap other target 8) :
    args.load64 ap.toNat = other.load64 target.toNat := by
  rw [Memory.load64, Memory.load64, Memory.loadLE_shift same.same]

/-- A signed and an unsigned number are taken from as many bytes as the directive
says. -/
theorem fetchSigned_same
    (same : SameArguments args ap other target (if directive.longNb then 8 else 4)) :
    fetchSigned directive other target = ((fetchSigned directive args ap).1,
        target + UInt32.ofNat (if directive.longNb then 8 else 4)) ∧
      (fetchSigned directive args ap).2 =
        ap + UInt32.ofNat (if directive.longNb then 8 else 4) := by
  cases long : directive.longNb <;>
    simp only [fetchSigned, long, if_true, Bool.false_eq_true, if_false] at same ⊢
  · rw [same.load32]
    exact ⟨rfl, rfl⟩
  · rw [same.load64]
    exact ⟨rfl, rfl⟩

theorem fetchUnsigned_same
    (same : SameArguments args ap other target (if directive.longNb then 8 else 4)) :
    fetchUnsigned directive other target = ((fetchUnsigned directive args ap).1,
        target + UInt32.ofNat (if directive.longNb then 8 else 4)) ∧
      (fetchUnsigned directive args ap).2 =
        ap + UInt32.ofNat (if directive.longNb then 8 else 4) := by
  cases long : directive.longNb <;>
    simp only [fetchUnsigned, long, if_true, Bool.false_eq_true, if_false] at same ⊢
  · rw [same.load32]
    exact ⟨rfl, rfl⟩
  · rw [same.load64]
    exact ⟨rfl, rfl⟩

/-- An unknown letter is unknown whatever the arguments. -/
theorem fetchValue_none_iff :
    fetchValue directive args ap = none ↔ directive.argumentSize = none := by
  rw [fetchValue, Directive.argumentSize]
  split <;> simp_all

/-- The letters that take an argument, or none, by its size. -/
theorem argumentSize_cases (sized : directive.argumentSize = some size) :
    (directive.varFormat = 0x63 ∨ directive.varFormat = 0x73) ∧ size = 4 ∨
      directive.varFormat = 0x64 ∧ size = (if directive.longNb then 8 else 4) ∨
      (directive.varFormat = 0x70 ∨ directive.varFormat = 0x78 ∨ directive.varFormat = 0x62 ∨
        directive.varFormat = 0x75) ∧ size = (if directive.longNb then 8 else 4) ∨
      directive.varFormat = 0x25 ∧ size = 0 := by
  rw [Directive.argumentSize] at sized
  split at sized <;> cases sized <;> simp [*]

/-- A value is the same wherever its argument stands, and what is behind the argument
is behind it. -/
theorem fetchValue_same (sized : directive.argumentSize = some size)
    (same : SameArguments args ap other target size) :
    ∃ value, fetchValue directive args ap = some (value, ap + UInt32.ofNat size) ∧
      fetchValue directive other target = some (value, target + UInt32.ofNat size) := by
  rcases argumentSize_cases sized with ⟨word, rfl⟩ | ⟨letter, rfl⟩ | ⟨unsigned, rfl⟩ |
    ⟨letter, rfl⟩
  · rcases word with letter | letter <;> simp only [fetchValue, letter, same.load32] <;>
      exact ⟨_, rfl, rfl⟩
  · obtain ⟨there, behind⟩ := fetchSigned_same same
    simp only [fetchValue, letter, there, behind]
    exact ⟨_, rfl, rfl⟩
  · obtain ⟨there, behind⟩ := fetchUnsigned_same same
    rcases unsigned with letter | letter | letter | letter <;>
      simp only [fetchValue, letter, there, behind] <;> exact ⟨_, rfl, rfl⟩
  · simp only [fetchValue, letter]
    exact ⟨.percent, by rw [offset_zero], by rw [offset_zero]⟩

end Arguments

/-- Formatting takes this many bytes of arguments, up to its end or to an unknown
letter. -/
inductive Takes : List UInt8 → Nat → Prop where
  | plain {text : List UInt8} (plainText : percent ∉ text) : Takes text 0
  | unknown {before after : List UInt8} (first : percent ∉ before)
      (letter : (scan after).1.argumentSize = none) : Takes (before ++ percent :: after) 0
  | directive {before after : List UInt8} {size rest : Nat} (first : percent ∉ before)
      (sized : (scan after).1.argumentSize = some size) (takes : Takes (scan after).2.tail rest) :
      Takes (before ++ percent :: after) (size + rest)

/-- The literal text behind the last directive of a format. -/
inductive LiteralEnd : List UInt8 → List UInt8 → Prop where
  | plain {text : List UInt8} (plainText : percent ∉ text) : LiteralEnd text text
  | directive {before after literal : List UInt8} (first : percent ∉ before)
      (ends : LiteralEnd (scan after).2.tail literal) :
      LiteralEnd (before ++ percent :: after) literal

/-- The first directive of a format has an unknown letter. -/
def StartsUnknown (text : List UInt8) : Prop :=
  ∃ before after, text = before ++ percent :: after ∧ percent ∉ before ∧
    (scan after).1.argumentSize = none

section Meaning

variable {Text : UInt32 → List UInt8 → Prop} {args other : Memory} {ap target : UInt32}
  {text out before after : List UInt8} {ending : Ending} {count : Nat}

theorem takes_plain (plainText : percent ∉ text) (takes : Takes text count) : count = 0 := by
  cases takes with
  | plain _ => rfl
  | unknown _ _ => rfl
  | directive _ _ _ => exact absurd (List.mem_append_right _ List.mem_cons_self) plainText

/-- What a format takes is what its first directive takes, and what the rest takes. -/
theorem takes_directive {size : Nat} (first : percent ∉ before)
    (sized : (scan after).1.argumentSize = some size)
    (takes : Takes (before ++ percent :: after) count) :
    ∃ rest, Takes (scan after).2.tail rest ∧ count = size + rest := by
  generalize whole : before ++ percent :: after = text at takes
  cases takes with
  | plain plainText =>
      rw [← whole] at plainText
      exact absurd (List.mem_append_right _ List.mem_cons_self) plainText
  | unknown first' letter =>
      obtain ⟨rfl, rfl⟩ := first_percent first first' whole
      rw [sized] at letter
      cases letter
  | directive first' sized' rest =>
      obtain ⟨rfl, rfl⟩ := first_percent first first' whole
      rw [sized] at sized'
      cases sized'
      exact ⟨_, rest, rfl⟩

/-- A format stands for the same wherever its arguments stand. -/
theorem Renders.move (renders : Renders Text args text ap out ending) (takes : Takes text count)
    (same : SameArguments args ap other target count) :
    (ending = .unknown ∧ Renders Text other text target out .unknown) ∨
      (ending = .finished (ap + UInt32.ofNat count) ∧
        Renders Text other text target out (.finished (target + UInt32.ofNat count))) := by
  induction renders generalizing target count with
  | plain plainText =>
      obtain rfl := takes_plain plainText takes
      rw [offset_zero, offset_zero]
      exact Or.inr ⟨rfl, .plain plainText⟩
  | unknown first letter =>
      have unknown := fetchValue_none_iff.mp letter
      exact Or.inl ⟨rfl, .unknown first (fetchValue_none_iff.mpr unknown)⟩
  | @directive before after shown out ap next value ending first fetched shows _
      inductionHypothesis =>
      cases sized : (scan after).1.argumentSize with
      | none =>
          rw [fetchValue_none_iff.mpr sized] at fetched
          cases fetched
      | some size =>
          obtain ⟨rest, takes', rfl⟩ := takes_directive first sized takes
          obtain ⟨value', here, there⟩ := fetchValue_same sized (same.mono (Nat.le_add_right _ _))
          rw [fetched] at here
          cases here
          have sum (pointer : UInt32) : pointer + UInt32.ofNat size + UInt32.ofNat rest =
              pointer + UInt32.ofNat (size + rest) := by
            rw [UInt32.ofNat_add, UInt32.add_assoc]
          rw [← sum, ← sum]
          rcases inductionHypothesis takes' same.advance with ⟨ends, moved⟩ | ⟨ends, moved⟩
          · exact Or.inl ⟨ends, .directive first there shows moved⟩
          · exact Or.inr ⟨ends, .directive first there shows moved⟩

/-- What stands behind the last directive, seen from the first one. -/
theorem literalEnd_directive {literal : List UInt8} (first : percent ∉ before)
    (ends : LiteralEnd (before ++ percent :: after) literal) :
    LiteralEnd (scan after).2.tail literal := by
  generalize whole : before ++ percent :: after = text at ends
  cases ends with
  | plain plainText =>
      rw [← whole] at plainText
      exact absurd (List.mem_append_right _ List.mem_cons_self) plainText
  | directive first' ends =>
      obtain ⟨rfl, rfl⟩ := first_percent first first' whole
      exact ends

theorem literalEnd_plain {literal : List UInt8} (plainText : percent ∉ text)
    (ends : LiteralEnd text literal) : literal = text := by
  cases ends with
  | plain _ => rfl
  | directive _ _ => exact absurd (List.mem_append_right _ List.mem_cons_self) plainText

/-- Behind a complete directive more text stays behind it. -/
theorem tail_scan_append {value : Value} {next : UInt32} (more : List UInt8)
    (fetched : fetchValue (scan after).1 args ap = some (value, next)) :
    (scan (after ++ more)).1 = (scan after).1 ∧
      (scan (after ++ more)).2.tail = (scan after).2.tail ++ more := by
  have complete := scan_complete (fetchValue_known fetched)
  rw [scan_append more complete]
  exact ⟨rfl, List.tail_append_of_ne_nil complete⟩

/-- Literal text in front of a format, when the format does not end at once. -/
theorem Renders.literal {literal : List UInt8} (plainText : percent ∉ literal)
    (renders : Renders Text args text ap out ending) (known : ¬ StartsUnknown text) :
    Renders Text args (literal ++ text) ap (literal ++ out) ending := by
  cases renders with
  | plain plainText' => exact .plain fun member => (List.mem_append.mp member).elim plainText plainText'
  | @unknown before after _ first letter =>
      exact absurd ⟨before, after, rfl, first, fetchValue_none_iff.mp letter⟩ known
  | @directive before after shown out _ next value _ first fetched shows rest =>
      have first' : percent ∉ literal ++ before :=
        fun member => (List.mem_append.mp member).elim plainText first
      rw [← List.append_assoc, ← List.append_assoc]
      exact .directive first' fetched shows rest

/-- A format that starts with an unknown letter stands for nothing. -/
theorem Renders.of_startsUnknown (renders : Renders Text args text ap out ending)
    (unknown : StartsUnknown text) : out = [] ∧ ending = .unknown := by
  obtain ⟨before, after, whole, first, letter⟩ := unknown
  cases renders with
  | plain plainText =>
      rw [whole] at plainText
      exact absurd (List.mem_append_right _ List.mem_cons_self) plainText
  | unknown _ _ => exact ⟨rfl, rfl⟩
  | directive first' fetched _ _ =>
      obtain ⟨rfl, rfl⟩ := first_percent first' first whole
      rw [fetchValue_none_iff.mpr letter] at fetched
      cases fetched

section Append

variable {more out' : List UInt8} {middle : UInt32}

/-- Two formats in a row stand for what each of them stands for. -/
theorem Renders.append (renders : Renders Text args text ap out (.finished middle))
    (next : Renders Text args more middle out' ending)
    (seam : ¬ StartsUnknown more ∨ LiteralEnd text []) :
    Renders Text args (text ++ more) ap (out ++ out') ending := by
  generalize finished : Ending.finished middle = first at renders
  induction renders with
  | @plain text ap plainText =>
      cases finished
      rcases seam with known | ends
      · exact next.literal plainText known
      · rw [← literalEnd_plain plainText ends]
        exact next
  | unknown _ _ => cases finished
  | @directive before after shown out ap following value _ first fetched shows _
      inductionHypothesis =>
      have later := inductionHypothesis
        (seam.imp_right (literalEnd_directive first)) finished
      obtain ⟨same, behind⟩ := tail_scan_append more fetched
      rw [← behind] at later
      rw [← same] at fetched shows ⊢
      simp only [List.append_assoc, List.cons_append]
      exact .directive first fetched shows later

/-- When the second of two formats starts with an unknown letter, the literal text at
the end of the first is lost. -/
theorem Renders.append_unknown (renders : Renders Text args text ap out (.finished middle))
    (unknown : StartsUnknown more) :
    ∃ literal emitted, LiteralEnd text literal ∧ out = emitted ++ literal ∧
      Renders Text args (text ++ more) ap emitted .unknown := by
  generalize finished : Ending.finished middle = last at renders
  induction renders with
  | @plain text ap plainText =>
      obtain ⟨before, after, rfl, first, letter⟩ := unknown
      have first' : percent ∉ text ++ before :=
        fun member => (List.mem_append.mp member).elim plainText first
      refine ⟨text, [], .plain plainText, rfl, ?_⟩
      rw [← List.append_assoc]
      exact .unknown first' (fetchValue_none_iff.mpr letter)
  | unknown _ _ => cases finished
  | @directive before after shown out ap following value _ first fetched shows _
      inductionHypothesis =>
      obtain ⟨literal, emitted, ends, split, later⟩ := inductionHypothesis finished
      obtain ⟨same, behind⟩ := tail_scan_append more fetched
      rw [← behind] at later
      refine ⟨literal, before ++ (baseText (scan after).1 ++ (shown ++ emitted)),
        .directive first ends, ?_, ?_⟩
      · simp only [split, List.append_assoc]
      · rw [← same] at fetched shows ⊢
        rw [List.append_assoc, List.cons_append]
        exact .directive first fetched shows later

end Append

/-- A text as a format of its own: every `'%'` doubled. -/
def doubled : List UInt8 → List UInt8
  | [] => []
  | c :: rest => if c = percent then percent :: percent :: doubled rest else c :: doubled rest

/-- A doubled `'%'` is a directive of its own that takes no argument. -/
theorem scan_percent (rest : List UInt8) :
    scan (percent :: rest) = (⟨percent, false, false, false, -1⟩, percent :: rest) := by
  simp [scan, scanFlag, scanZerofill, percent, digitZero]

/-- Every directive of a text with every `'%'` doubled is known. -/
theorem not_startsUnknown_doubled (text : List UInt8) : ¬ StartsUnknown (doubled text) := by
  induction text with
  | nil =>
      rintro ⟨before, after, whole, _⟩
      exact List.append_ne_nil_of_right_ne_nil before (List.cons_ne_nil _ _) whole.symm
  | cons c rest inductionHypothesis =>
      rintro ⟨before, after, whole, first, letter⟩
      rw [doubled] at whole
      by_cases mark : c = percent
      · rw [if_pos mark] at whole
        obtain ⟨rfl, rfl⟩ := first_percent first List.not_mem_nil whole.symm
        rw [scan_percent] at letter
        cases letter
      · rw [if_neg mark] at whole
        cases before with
        | nil => exact mark (List.head_eq_of_cons_eq whole)
        | cons head before =>
            exact inductionHypothesis ⟨before, after, List.tail_eq_of_cons_eq whole,
              fun member => first (List.mem_cons_of_mem _ member), letter⟩

/-- A text with every `'%'` doubled stands for the text. -/
theorem renders_doubled (text : List UInt8) (ap : UInt32) :
    Renders Text args (doubled text) ap text (.finished ap) := by
  induction text with
  | nil => exact .plain List.not_mem_nil
  | cons c rest inductionHypothesis =>
      rw [doubled]
      by_cases mark : c = percent
      · have scanned := scan_percent (doubled rest)
        have tail : (scan (percent :: doubled rest)).2.tail = doubled rest := by rw [scanned]; rfl
        have base : baseText (scan (percent :: doubled rest)).1 = [] := by rw [scanned]; rfl
        have fetched : fetchValue (scan (percent :: doubled rest)).1 args ap =
            some (.percent, ap) := by
          rw [scanned]
          rfl
        have shows : Shows Text (scan (percent :: doubled rest)).1 .percent [percent] := rfl
        have here := Renders.directive List.not_mem_nil fetched shows
          (tail ▸ inductionHypothesis)
        rw [if_pos mark, mark]
        rwa [base] at here
      · have single : percent ∉ [c] := fun member => mark (List.mem_singleton.mp member).symm
        rw [if_neg mark]
        exact inductionHypothesis.literal single (not_startsUnknown_doubled rest)

end Meaning

/-- The bytes of an argument list stand from an argument pointer on. -/
structure ArgumentsAt (args : Memory) (ap : UInt32) (list : List UInt8) : Prop where
  fits : ap.toNat + list.length < 2 ^ 32
  held : ∀ index byte, list[index]? = some byte → args (ap.toNat + index) = byte

/-- The two pointers `vprintf` is given. -/
structure FormatCall where
  format : UInt32
  ap : UInt32

/-- A format and its arguments, as a caller of `vprintf` passes them: enough arguments,
and strings where the format takes strings. -/
structure PrintfCall (memory args : Memory) (call : FormatCall) (text list : List UInt8) :
    Prop where
  format : CString memory call.format text
  arguments : ArgumentsAt args call.ap list
  enough : ∃ count ≤ list.length, Takes text count
  strings : ∀ ptr, TakesString args text call.ap ptr → ∃ bytes, StringAt memory ptr bytes

/-- A call of `vprintf`. -/
def FormatCall.run (call : FormatCall) (args : Memory) (console : Console) :
    Outcome Console UInt32 :=
  vprintf call.format call.ap args console

/-- The bytes a call emits. -/
def FormatCall.emits (call : FormatCall) (args memory : Memory) : List UInt8 :=
  (call.run args ⟨memory, []⟩).state.out

/-- Two formats with their arguments, the first of which is complete and takes all of
its arguments, and a call of both in a row. -/
structure InARow (memory args : Memory) (text more list rest : List UInt8)
    (first second both : FormatCall) : Prop where
  firstCall : PrintfCall memory args first text list
  complete : (first.run args ⟨memory, []⟩).returns = true
  consumed : Takes text list.length
  secondCall : PrintfCall memory args second more rest
  format : CString memory both.format (text ++ more)
  arguments : ArgumentsAt args both.ap (list ++ rest)

section Calls

variable {memory args : Memory} {format ap : UInt32} {text list more : List UInt8}

/-- Two places of an argument list hold the same arguments. -/
theorem ArgumentsAt.same {target : UInt32} {other : Memory} (here : ArgumentsAt args ap list)
    (there : ArgumentsAt other target list) :
    SameArguments args ap other target list.length where
  fits := here.fits
  targetFits := there.fits
  same index below := by
    have found := List.getElem?_eq_getElem below
    rw [here.held index _ found, there.held index _ found]

/-- The parts of an argument list. -/
theorem ArgumentsAt.left (arguments : ArgumentsAt args ap (list ++ more)) :
    ArgumentsAt args ap list where
  fits := by
    have fits := arguments.fits
    rw [List.length_append] at fits
    omega
  held index byte found := by
    obtain ⟨below, _⟩ := List.getElem?_eq_some_iff.mp found
    exact arguments.held index byte (by rw [List.getElem?_append_left below, found])

theorem ArgumentsAt.right (arguments : ArgumentsAt args ap (list ++ more)) :
    ArgumentsAt args (ap + UInt32.ofNat list.length) more := by
  have fits := arguments.fits
  rw [List.length_append] at fits
  have behind : (ap + UInt32.ofNat list.length).toNat = ap.toNat + list.length :=
    toNat_offset (by omega)
  refine ⟨by omega, fun index byte found => ?_⟩
  rw [behind, Nat.add_assoc]
  refine arguments.held (list.length + index) byte ?_
  rw [List.getElem?_append_right (Nat.le_add_right _ _), Nat.add_sub_cancel_left, found]

/-- Every call emits what its format stands for. -/
theorem FormatCall.run_renders {call : FormatCall} {out : List UInt8} {ending : Ending}
    (string : CString memory call.format text)
    (renders : Renders (StringAt memory) args text call.ap out ending) (printed : List UInt8) :
    call.run args ⟨memory, printed⟩ = ending.outcome ⟨memory, printed ++ out⟩ :=
  vprintfLoop_renders renders (fun _ _ string => string) string string.length_lt

theorem FormatCall.emits_renders {call : FormatCall} {out : List UInt8} {ending : Ending}
    (string : CString memory call.format text)
    (renders : Renders (StringAt memory) args text call.ap out ending) :
    call.emits args memory = out := by
  rw [FormatCall.emits, FormatCall.run_renders string renders]
  cases ending <;> rfl

/-- What the two formats stand for, each with its arguments where the call of both has
them. -/
theorem InARow.renders {rest : List UInt8} {first second both : FormatCall}
    (row : InARow memory args text more list rest first second both) :
    ∃ out out' ending middle,
      Renders (StringAt memory) args text both.ap out (.finished middle) ∧
      Renders (StringAt memory) args more middle out' ending ∧
      first.emits args memory = out ∧ second.emits args memory = out' ∧
      ∀ printed, (second.run args ⟨memory, printed⟩).returns =
        (ending.outcome (⟨memory, []⟩ : Console)).returns := by
  obtain ⟨out, ending, renders⟩ := exists_renders text first.ap row.firstCall.strings
  obtain ⟨out', ending', renders'⟩ := exists_renders more second.ap row.secondCall.strings
  have emitted := FormatCall.emits_renders row.firstCall.format renders
  have emitted' := FormatCall.emits_renders row.secondCall.format renders'
  obtain ⟨count, enough, takes⟩ := row.secondCall.enough
  have moved := renders.move row.consumed (row.firstCall.arguments.same row.arguments.left)
  have moved' := renders'.move takes
    ((row.secondCall.arguments.same row.arguments.right).mono enough)
  have returns (printed : List UInt8) : (second.run args ⟨memory, printed⟩).returns =
      (ending'.outcome (⟨memory, []⟩ : Console)).returns := by
    rw [FormatCall.run_renders row.secondCall.format renders']
    cases ending' <;> rfl
  rcases moved with ⟨unknown, _⟩ | ⟨_, complete⟩
  · have returned := row.complete
    rw [FormatCall.run_renders row.firstCall.format renders, unknown] at returned
    cases returned
  · rcases moved' with ⟨rfl, ends⟩ | ⟨rfl, ends⟩
    · exact ⟨out, out', _, _, complete, ends, emitted, emitted', returns⟩
    · exact ⟨out, out', _, _, complete, ends, emitted, emitted', returns⟩

end Calls

/-- Formatting is compositional: two formats in a row emit what the first emits and
then what the second emits, and end as the second does. The exception is a second
format whose first letter is unknown: `vprintf` panics before it has printed the
literal text at the end of the first. A text with every `'%'` doubled emits the text
and takes no argument. -/
theorem vprintf_compositional :
    (∀ {memory args : Memory} {text more list rest : List UInt8}
      {first second both : FormatCall},
      InARow memory args text more list rest first second both →
        (∀ printed, (both.run args ⟨memory, printed⟩).returns =
          (second.run args ⟨memory, printed⟩).returns) ∧
        ((¬ StartsUnknown more ∨ LiteralEnd text []) → ∀ printed,
          (both.run args ⟨memory, printed⟩).state.out =
            printed ++ (first.emits args memory ++ second.emits args memory)) ∧
        (StartsUnknown more → ∃ literal, LiteralEnd text literal ∧ ∀ printed,
          (both.run args ⟨memory, printed⟩).state.out ++ literal =
            printed ++ first.emits args memory)) ∧
      ∀ (memory args : Memory) (call : FormatCall) (text printed : List UInt8),
        CString memory call.format (doubled text) →
          call.run args ⟨memory, printed⟩ = .returned call.ap ⟨memory, printed ++ text⟩ := by
  refine ⟨fun {memory args text more _ _ _ _ _} row => ?_,
    fun memory args call text printed string =>
      FormatCall.run_renders string (renders_doubled text call.ap) printed⟩
  obtain ⟨out, out', ending, middle, renders, next, emitted, emitted', returns⟩ := row.renders
  rw [emitted, emitted']
  refine ⟨fun printed => ?_, fun seam printed => ?_, fun unknown => ?_⟩
  · rw [returns printed]
    by_cases unknown : StartsUnknown more
    · obtain ⟨_, _, _, _, both⟩ := renders.append_unknown unknown
      rw [FormatCall.run_renders row.format both, (next.of_startsUnknown unknown).2]
      rfl
    · rw [FormatCall.run_renders row.format (renders.append next (Or.inl unknown))]
      cases ending <;> rfl
  · rw [FormatCall.run_renders row.format (renders.append next seam)]
    cases ending <;> rfl
  · obtain ⟨literal, kept, ends, split, both⟩ := renders.append_unknown unknown
    refine ⟨literal, ends, fun printed => ?_⟩
    rw [FormatCall.run_renders row.format both, split, ← List.append_assoc]
    rfl

section Example

/-- "%c!" at 0x1000, "%%" at 0x1010, "%q" at 0x1020, and the first in front of each of
the others at 0x1030 and 0x1040. -/
def rowMemory : Memory :=
  ((((Memory.storeBytes (fun _ => 0) 0x1000 [percent, 0x63, 0x21]).storeBytes 0x1010
    [percent, percent]).storeBytes 0x1020 [percent, 0x71]).storeBytes 0x1030
    [percent, 0x63, 0x21, percent, percent]).storeBytes 0x1040
    [percent, 0x63, 0x21, percent, 0x71]

/-- The letter 'A' as an argument. -/
def letterArgs : Memory := Memory.store32 (fun _ => 0) 0x100 0x41

theorem letterArgs_at : ArgumentsAt letterArgs 0x100 [0x41, 0, 0, 0] where
  fits := by decide
  held index byte found := by
    obtain ⟨below, rfl⟩ := List.getElem?_eq_some_iff.mp found
    have each : ∀ index : Fin 4, letterArgs (0x100 + index.val) = [0x41, 0, 0, 0].get index := by
      decide +kernel
    exact each ⟨index, below⟩

theorem noArguments_at (args : Memory) : ArgumentsAt args 0x100 [] where
  fits := by decide
  held index byte found := by cases found

/-- "%c!" takes the letter. -/
theorem takes_letter : Takes [percent, 0x63, 0x21] 4 :=
  @Takes.directive [] [0x63, 0x21] 4 0 List.not_mem_nil rfl (.plain (by decide))

theorem letter_call :
    PrintfCall rowMemory letterArgs ⟨0x1000, 0x100⟩ [percent, 0x63, 0x21] [0x41, 0, 0, 0] where
  format := by decide +kernel
  arguments := letterArgs_at
  enough := ⟨4, Nat.le_refl 4, takes_letter⟩
  strings ptr takes := by
    have fetched : fetchValue (scan [0x63, 0x21]).1 letterArgs 0x100 =
        some (.char 0x41, 0x104) := by decide +kernel
    have plainText : percent ∉ ([] : List UInt8) := List.not_mem_nil
    obtain ⟨value, next, fetched', rfl | later⟩ := (takesString_iff plainText).mp takes
    · cases fetched.symm.trans fetched'
    · exact absurd later (not_takesString (by decide))

theorem percent_call :
    PrintfCall rowMemory letterArgs ⟨0x1010, 0x100⟩ [percent, percent] [] where
  format := by decide +kernel
  arguments := noArguments_at _
  enough := ⟨0, Nat.le_refl 0,
    @Takes.directive [] [percent] 0 0 List.not_mem_nil rfl (.plain List.not_mem_nil)⟩
  strings ptr takes := by
    have fetched : fetchValue (scan [percent]).1 letterArgs 0x100 = some (.percent, 0x100) := rfl
    have plainText : percent ∉ ([] : List UInt8) := List.not_mem_nil
    obtain ⟨value, next, fetched', rfl | later⟩ := (takesString_iff plainText).mp takes
    · cases fetched.symm.trans fetched'
    · exact absurd later (not_takesString List.not_mem_nil)

theorem unknown_call :
    PrintfCall rowMemory letterArgs ⟨0x1020, 0x100⟩ [percent, 0x71] [] where
  format := by decide +kernel
  arguments := noArguments_at _
  enough := ⟨0, Nat.le_refl 0, @Takes.unknown [] [0x71] List.not_mem_nil rfl⟩
  strings ptr takes := by
    have plainText : percent ∉ ([] : List UInt8) := List.not_mem_nil
    obtain ⟨value, next, fetched, _⟩ := (takesString_iff plainText).mp takes
    cases fetched

theorem letter_percent : InARow rowMemory letterArgs [percent, 0x63, 0x21] [percent, percent]
    [0x41, 0, 0, 0] [] ⟨0x1000, 0x100⟩ ⟨0x1010, 0x100⟩ ⟨0x1030, 0x100⟩ where
  firstCall := letter_call
  complete := by decide +kernel
  consumed := takes_letter
  secondCall := percent_call
  format := by decide +kernel
  arguments := letterArgs_at

theorem vprintf_compositional_letter :
    ((FormatCall.mk 0x1030 0x100).run letterArgs ⟨rowMemory, []⟩).state.out =
        (FormatCall.mk 0x1000 0x100).emits letterArgs rowMemory ++
          (FormatCall.mk 0x1010 0x100).emits letterArgs rowMemory ∧
      (FormatCall.mk 0x1010 0x100).run letterArgs ⟨rowMemory, []⟩ =
        .returned 0x100 ⟨rowMemory, [percent]⟩ := by
  have known : ¬ StartsUnknown [percent, percent] := not_startsUnknown_doubled [percent]
  obtain ⟨row, doubling⟩ := vprintf_compositional
  exact ⟨(row letter_percent).2.1 (Or.inl known) [],
    doubling rowMemory letterArgs ⟨0x1010, 0x100⟩ [percent] [] (by decide +kernel)⟩

/-- "%q" alone emits nothing before the panic, and behind "%c!" it also keeps the
exclamation mark from being printed. -/
theorem unknown_letter_drops_literal :
    InARow rowMemory letterArgs [percent, 0x63, 0x21] [percent, 0x71] [0x41, 0, 0, 0] []
        ⟨0x1000, 0x100⟩ ⟨0x1020, 0x100⟩ ⟨0x1040, 0x100⟩ ∧
      (FormatCall.mk 0x1040 0x100).emits letterArgs rowMemory = [0x41] ∧
      (FormatCall.mk 0x1000 0x100).emits letterArgs rowMemory ++
        (FormatCall.mk 0x1020 0x100).emits letterArgs rowMemory = [0x41, 0x21] := by
  have row : InARow rowMemory letterArgs [percent, 0x63, 0x21] [percent, 0x71] [0x41, 0, 0, 0] []
      ⟨0x1000, 0x100⟩ ⟨0x1020, 0x100⟩ ⟨0x1040, 0x100⟩ :=
    ⟨letter_call, by decide +kernel, takes_letter, unknown_call, by decide +kernel,
      letterArgs_at⟩
  exact ⟨row, by decide +kernel, by decide +kernel⟩

end Example

end Bootloader.Libc
