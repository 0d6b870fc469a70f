import Bootloader.Libc.PrintfNumbers

/-!
# Widths

The width behind the flag `'0'` is the sum of its digits, up to 29, and the zeros in
front of a number are what a subtraction of 32 bits leaves of it. What that makes of a
width and a text is a matter of lists and small numbers.
-/

namespace Bootloader.Libc

open Bootloader.Std

section Width

variable {c : UInt8} {text run rest digits : List UInt8} {w : Nat}

/-- The characters of a width are the digits of base 10, and each adds what it denotes. -/
theorem widthDigit (valid : c ≤ 0x39 ∧ c ≥ 0x30) :
    ∃ number < 10, digitOf c = some number ∧ c.toInt8 - 48 = Int8.ofNat number := by
  have all : ∀ code < 128, UInt8.ofNat code ≤ 0x39 ∧ UInt8.ofNat code ≥ 0x30 →
      ∃ number < 10, digitOf (UInt8.ofNat code) = some number ∧
        (UInt8.ofNat code).toInt8 - 48 = Int8.ofNat number := by
    decide +kernel
  have ascii : c < 128 := UInt8.lt_of_le_of_lt valid.1 (by decide)
  exact @forall_ascii c (fun c => c ≤ 0x39 ∧ c ≥ 0x30 → ∃ number < 10,
    digitOf c = some number ∧ c.toInt8 - 48 = Int8.ofNat number) all ascii valid

theorem isWidthDigit_iff : c ≤ 0x39 ∧ c ≥ 0x30 ↔ ValidIn decimal c := by
  have all : ∀ code < 128, ∀ number ∈ digitOf (UInt8.ofNat code), number < 10 →
      UInt8.ofNat code ≤ 0x39 ∧ UInt8.ofNat code ≥ 0x30 := by
    decide +kernel
  constructor
  · intro digit
    obtain ⟨number, small, denotes, _⟩ := widthDigit digit
    exact ⟨number, denotes, small⟩
  · intro valid
    obtain ⟨number, denotes, small⟩ := id valid
    exact @forall_ascii c (fun c => ∀ number ∈ digitOf c, number < 10 → c ≤ 0x39 ∧ c ≥ 0x30)
      all valid.ascii number denotes small

/-- Small widths compare as numbers. -/
theorem width_lt_iff (small : w ≤ 29) : Int8.ofNat w < 21 ↔ w < 21 :=
  Int8.ofNat_lt_iff_lt (by omega) (by decide)

/-- A width stays below 30. -/
theorem scanWidth_range (small : w ≤ 29) (text : List UInt8) :
    ∃ width, w ≤ width ∧ width ≤ 29 ∧ (scanWidth (Int8.ofNat w) text).1 = Int8.ofNat width := by
  induction text generalizing w with
  | nil => exact ⟨w, Nat.le_refl _, small, rfl⟩
  | cons c rest inductionHypothesis =>
      rw [scanWidth]
      by_cases another : (c ≤ 0x39 ∧ c ≥ 0x30) ∧ Int8.ofNat w < 21
      · obtain ⟨number, below, _, added⟩ := widthDigit another.1
        have few := (width_lt_iff small).mp another.2
        obtain ⟨width, above, bound, scanned⟩ :=
          @inductionHypothesis (w + number) (by omega)
        rw [if_pos another, added, ← Int8.ofNat_add]
        exact ⟨width, by omega, bound, scanned⟩
      · rw [if_neg another]
        exact ⟨w, Nat.le_refl _, small, rfl⟩

/-- A run of digits is passed and added up, when the sum is a width. -/
theorem scanWidth_run (valid : ∀ c ∈ run, ValidIn decimal c)
    (ends : ∀ c ∈ rest.head?, ¬ ValidIn decimal c)
    (small : w + (digitNumbers run).sum ≤ 20) :
    scanWidth (Int8.ofNat w) (run ++ rest) =
      (Int8.ofNat (w + (digitNumbers run).sum), rest) := by
  induction run generalizing w with
  | nil =>
      cases rest with
      | nil => rfl
      | cons c rest =>
          rw [List.nil_append, scanWidth,
            if_neg fun both => ends c rfl (isWidthDigit_iff.mp both.1)]
          rfl
  | cons c run inductionHypothesis =>
      obtain ⟨first, later⟩ := List.forall_mem_cons.mp valid
      obtain ⟨number, _, denotes, added⟩ := widthDigit (isWidthDigit_iff.mpr first)
      have sum : (digitNumbers (c :: run)).sum = number + (digitNumbers run).sum := by
        rw [digitNumbers, List.map_cons, List.sum_cons, denotes]
        rfl
      rw [sum, ← Nat.add_assoc] at small ⊢
      have another : (c ≤ 0x39 ∧ c ≥ 0x30) ∧ Int8.ofNat w < 21 :=
        ⟨isWidthDigit_iff.mpr first, (width_lt_iff (by omega)).mpr (by omega)⟩
      rw [List.cons_append, scanWidth, if_pos another, added, ← Int8.ofNat_add,
        inductionHypothesis later small]

/-- A directive has the flag `'0'` and a width from 1 to 29, or neither. -/
theorem scan_width (text : List UInt8) :
    (scan text).1.flagZerofill = false ∧ (scan text).1.width = -1 ∨
      (scan text).1.flagZerofill = true ∧
        ∃ w, 1 ≤ w ∧ w ≤ 29 ∧ (scan text).1.width = Int8.ofNat w := by
  change (scanZerofill _).1 = false ∧ (scanZerofill _).2.1 = -1 ∨
    (scanZerofill _).1 = true ∧ ∃ w, 1 ≤ w ∧ w ≤ 29 ∧ (scanZerofill _).2.1 = Int8.ofNat w
  simp only [scanZerofill]
  split
  · obtain ⟨w, _, bound, scanned⟩ :=
      @scanWidth_range 0 (by decide) (scanFlag digitZero (scanFlag 0x23 text).2).2
    rw [show (0 : Int8) = Int8.ofNat 0 from rfl, scanned]
    obtain zero | positive := Nat.eq_zero_or_pos w
    · rw [zero, if_pos rfl]
      exact Or.inl ⟨rfl, rfl⟩
    · have nonzero : ¬ Int8.ofNat w = Int8.ofNat 0 := by
        have all : ∀ w < 30, 0 < w → ¬ Int8.ofNat w = Int8.ofNat 0 := by decide
        exact all w (by omega) positive
      rw [if_neg nonzero]
      exact Or.inr ⟨rfl, w, positive, bound, rfl⟩
  · exact Or.inl ⟨rfl, rfl⟩

/-- What the subtraction leaves of a width. -/
theorem nbzeros_width {directive : Directive} (zerofill : directive.flagZerofill = true)
    (width : directive.width = Int8.ofNat w) (small : w ≤ 29) (short : digits.length ≤ 65) :
    nbzeros directive digits =
      if digits.length ≤ w then w - digits.length else 2 ^ 32 - (digits.length - w) := by
  have all : ∀ w < 30, (Int8.ofNat w).toInt32.toUInt32.toNat = w := by decide
  rw [nbzeros, if_pos zerofill, width, UInt32.toNat_sub, all w (by omega), UInt32.toNat_ofNat']
  split <;> omega

/-- The zeros it takes to fill a text up to the width of a directive. -/
def fillingZeros (directive : Directive) (digits : List UInt8) : Nat :=
  (directive.width.toInt - digits.length).toNat

/-- The zeros in front of a number are as many as the width asks for, unless the number is
wider. -/
theorem nbzeros_eq_iff (text : List UInt8) (short : digits.length ≤ 65) :
    nbzeros (scan text).1 digits = fillingZeros (scan text).1 digits ↔
      ((scan text).1.flagZerofill = true → (digits.length : Int) ≤ (scan text).1.width.toInt) := by
  rcases scan_width text with ⟨nothing, width⟩ | ⟨zerofill, w, _, small, width⟩
  · rw [nbzeros, nothing, if_neg Bool.false_ne_true, fillingZeros, width]
    refine iff_of_true ?_ fun filled => absurd filled Bool.false_ne_true
    rw [show (-1 : Int8).toInt = -1 from rfl]
    omega
  · have value : (scan text).1.width.toInt = w := by
      have all : ∀ w < 30, (Int8.ofNat w).toInt = w := by decide
      rw [width, all w (by omega)]
    rw [nbzeros_width zerofill width small short, fillingZeros, value]
    simp only [zerofill, true_implies]
    split <;> omega

theorem fillingZeros_le (text digits : List UInt8) :
    fillingZeros (scan text).1 digits ≤ 29 := by
  rw [fillingZeros]
  rcases scan_width text with ⟨_, width⟩ | ⟨_, w, _, small, width⟩
  · rw [width, show (-1 : Int8).toInt = -1 from rfl]
    omega
  · have all : ∀ w < 30, (Int8.ofNat w).toInt = w := by decide
    rw [width, all w (by omega)]
    omega

end Width

/-- At the next directive of a format, `vsprintf` stores the text in front of it, the prefix
of the base and a field behind its cursor, and goes on behind them. -/
def StoresField (args : Memory) (sprint : Sprint) (cursor : FormatCursor) (before : List UInt8)
    (directive : Directive) (field : List UInt8) : Prop :=
  let bytes := before ++ (baseText directive ++ field)
  ∃ next stored, vsprintfTurn args cursor sprint = .returned (.again next) stored ∧
    stored.str = sprint.str + UInt32.ofNat bytes.length ∧
    stored.memory.loadBytes sprint.str.toNat bytes.length = bytes

section Stores

variable {args memory : Memory} {before after digits : List UInt8} {str strStart ap : UInt32}
  {size zeros : Nat}

@[simp] theorem storeText_str (text : List UInt8) (sprint : Sprint) :
    (storeText text sprint).str = sprint.str + UInt32.ofNat text.length := by
  induction text generalizing sprint with
  | nil => exact (offset_zero _).symm
  | cons c rest inductionHypothesis =>
      rw [storeText, inductionHypothesis, List.length_cons, ← offset_succ]
      rfl

@[simp] theorem storeZeros_str (count : Nat) (sprint : Sprint) :
    (storeZeros count sprint).str = sprint.str + UInt32.ofNat count := by
  induction count generalizing sprint with
  | zero => exact (offset_zero _).symm
  | succ count inductionHypothesis =>
      rw [storeZeros, inductionHypothesis, ← offset_succ]
      rfl

/-- However many zeros there are, the cursor moves by their number and the digits. -/
theorem storeValue_number (directive : Directive) (digits : List UInt8) (sprint : Sprint) :
    ∃ stored, storeValue directive (.number digits) sprint = .returned () stored ∧
      stored.str = sprint.str + UInt32.ofNat (nbzeros directive digits) +
        UInt32.ofNat digits.length := by
  refine ⟨_, rfl, ?_⟩
  by_cases zerofill : directive.flagZerofill = true
  · simp only [if_pos zerofill, storeText_str, terminate, storeZeros_str]
  · simp only [if_neg zerofill, storeText_str, nbzeros, offset_zero]

/-- A directive of a number stores as many zeros as its subtraction gives, where there is
room for them. -/
theorem storesField_iff (destination : Destination str size)
    (string : CString memory strStart (before ++ percent :: after)) (first : percent ∉ before)
    (outside : Outside str size strStart (before ++ percent :: after).length)
    (number : isNumberLetter (scan after).1.varFormat = true)
    (few : zeros < 2 ^ 32)
    (room : (before ++ (baseText (scan after).1 ++ (List.replicate zeros digitZero ++
      argumentText (scan after).1 args ap))).length ≤ size) :
    StoresField args ⟨memory, str⟩ ⟨strStart, ap⟩ before (scan after).1
        (List.replicate zeros digitZero ++ argumentText (scan after).1 args ap) ↔
      nbzeros (scan after).1 (argumentText (scan after).1 args ap) = zeros := by
  obtain ⟨⟨next, fetched⟩, _⟩ := fetchValue_number number args ap
  have nothing := wrote_nothing memory str size
  constructor
  · rintro ⟨cursor, stored, ran, moved, _⟩
    obtain ⟨mark, last, found, valid, read, _⟩ := next_directive string first
    simp only [List.length_append] at room
    obtain ⟨middle, delimited, wrote⟩ :=
      nothing.storeDelim destination string first outside (by rw [List.length_nil]; omega)
    obtain ⟨final, valued, place⟩ := storeValue_number (scan after).1
      (argumentText (scan after).1 args ap) (storeText (baseText (scan after).1) middle)
    simp only [vsprintfTurn, found, Outcome.returned_within, Outcome.returned_andThen,
      if_neg valid, read, fetched, delimited, valued, Outcome.returned.injEq] at ran
    obtain ⟨_, rfl⟩ := ran
    rw [place, storeText_str, wrote.str_eq destination] at moved
    simp only [List.nil_append, List.length_append, List.length_replicate, UInt32.ofNat_add,
      ← UInt32.add_assoc] at moved
    have same := congrArg UInt32.toNat
      ((UInt32.add_right_inj _).mp ((UInt32.add_left_inj _).mp moved))
    have small : nbzeros (scan after).1 (argumentText (scan after).1 args ap) < 2 ^ 32 := by
      rw [nbzeros]
      split
      · exact UInt32.toNat_lt _
      · decide
    rw [UInt32.toNat_ofNat', UInt32.toNat_ofNat'] at same
    omega
  · rintro rfl
    obtain ⟨last, stored, ran, _, wrote⟩ := @vsprintfTurn_directive
      (fun _ _ => False) args memory before after _ [] str strStart ap next size _ _
      (fun _ _ impossible => impossible.elim) destination string first outside fetched rfl nothing
      (by rw [List.length_nil, Nat.zero_add]; exact room)
    exact ⟨_, stored, ran, wrote.str_eq destination, wrote.bytes⟩

/-- Both functions put as many zeros in front of a number as its width asks for, in at most
29 turns. -/
structure ZeroFills (args memory : Memory) (str : UInt32) (cursor : FormatCursor)
    (before : List UInt8) (directive : Directive) (digits : List UInt8) : Prop where
  prints : PrintsField args memory cursor before directive
    (List.replicate (fillingZeros directive digits) digitZero ++ digits)
  stores : StoresField args ⟨memory, str⟩ cursor before directive
    (List.replicate (fillingZeros directive digits) digitZero ++ digits)
  turns : nbzeros directive digits ≤ 29

/-- A number is filled up to its width exactly when it is not wider; otherwise the number of
zeros wraps around. -/
theorem zero_fills_iff (destination : Destination str size)
    (string : CString memory strStart (before ++ percent :: after)) (first : percent ∉ before)
    (outside : Outside str size strStart (before ++ percent :: after).length)
    (number : isNumberLetter (scan after).1.varFormat = true)
    (text : argumentText (scan after).1 args ap = digits)
    (room : (before ++ (baseText (scan after).1 ++
      (List.replicate (fillingZeros (scan after).1 digits) digitZero ++ digits))).length ≤ size) :
    ZeroFills args memory str ⟨strStart, ap⟩ before (scan after).1 digits ↔
      ((scan after).1.flagZerofill = true →
        (digits.length : Int) ≤ (scan after).1.width.toInt) := by
  subst text
  have few := fillingZeros_le after (argumentText (scan after).1 args ap)
  rw [← nbzeros_eq_iff after (argumentText_length number args ap)]
  constructor
  · intro fills
    have stored := fills.stores
    rwa [storesField_iff destination string first outside number (by omega) room] at stored
  · intro same
    refine ⟨?_, ?_, same.trans_le few⟩
    · rw [printsField_iff string first number, same]
    · rwa [storesField_iff destination string first outside number (by omega) room]

/-- "%05d" of -3: two characters and three zeros. -/
theorem zero_fills_iff_five :
    ZeroFills (wordArgs 0xFFFFFFFD) (formatMemory [percent, 0x30, 0x35, 0x64]) 0x3000
      ⟨0x1000, 0x100⟩ [] (scan [0x30, 0x35, 0x64]).1 [0x2D, 0x33] :=
  (@zero_fills_iff (wordArgs 0xFFFFFFFD) (formatMemory [percent, 0x30, 0x35, 0x64]) []
    [0x30, 0x35, 0x64] [0x2D, 0x33] 0x3000 0x1000 0x100 5 ⟨by decide, by decide⟩
    (by decide +kernel) List.not_mem_nil (Or.inl (by decide)) (by decide) (by decide +kernel)
    (by decide)).mpr (by decide)

/-- "%01u" of 10 subtracts 2 from 1, and prints 4294967295 zeros. -/
theorem zero_fill_wraps :
    ¬ ZeroFills (wordArgs 10) (formatMemory [percent, 0x30, 0x31, 0x75]) 0x3000
      ⟨0x1000, 0x100⟩ [] (scan [0x30, 0x31, 0x75]).1 [0x31, 0x30] := by
  intro fills
  have string : CString (formatMemory [percent, 0x30, 0x31, 0x75]) 0x1000
      ([] ++ percent :: [0x30, 0x31, 0x75]) := by decide +kernel
  have text : argumentText (scan [0x30, 0x31, 0x75]).1 (wordArgs 10) 0x100 = [0x31, 0x30] := by
    decide +kernel
  have zeros : nbzeros (scan [0x30, 0x31, 0x75]).1 [0x31, 0x30] = 4294967295 := by decide
  have promised : fillingZeros (scan [0x30, 0x31, 0x75]).1 [0x31, 0x30] = 0 := by decide
  have printed := (printsField_iff string List.not_mem_nil (by decide)).mp fills.prints
  rw [text, zeros, promised] at printed
  have lengths := congrArg List.length printed
  simp only [List.length_append, List.length_replicate] at lengths
  omega

end Stores

/-- The text of a directive behind its `'%'`: an optional `'#'`, `'0'`, the digits of a width,
an optional `'l'` and the letter. -/
def widthText (showbase : Bool) (run : List UInt8) (long : Bool) (letter : UInt8)
    (rest : List UInt8) : List UInt8 :=
  (if showbase then [0x23] else []) ++
    digitZero :: (run ++ ((if long then [0x6C] else []) ++ letter :: rest))

section Spelled

variable {showbase long : Bool} {run rest before field : List UInt8} {letter : UInt8}
  {args memory : Memory} {strStart ap : UInt32}

/-- No letter of a number is a flag or a digit. -/
theorem letter_ne (number : isNumberLetter letter = true) :
    letter ≠ 0x6C ∧ ¬ ValidIn decimal letter := by
  simp only [isNumberLetter, Bool.or_eq_true, beq_iff_eq] at number
  rw [← isWidthDigit_iff]
  rcases number with (((rfl | rfl) | rfl) | rfl) | rfl <;> decide

/-- In a directive that is written so, the parser finds the sum of the digits. -/
theorem scan_widthText (valid : ∀ c ∈ run, ValidIn decimal c)
    (number : isNumberLetter letter = true) (positive : 0 < (digitNumbers run).sum)
    (small : (digitNumbers run).sum ≤ 20) (showbase long : Bool) (rest : List UInt8) :
    (scan (widthText showbase run long letter rest)).1 =
      { varFormat := letter
        longNb := long
        flagShowbase := showbase
        flagZerofill := true
        width := Int8.ofNat (digitNumbers run).sum } := by
  obtain ⟨noFlag, noDigit⟩ := letter_ne number
  have showbaseFlag : scanFlag 0x23 (widthText showbase run long letter rest) =
      (showbase, digitZero :: (run ++ ((if long then [0x6C] else []) ++ letter :: rest))) := by
    cases showbase <;> rfl
  have ends : ∀ c ∈ ((if long then [0x6C] else []) ++ letter :: rest).head?,
      ¬ ValidIn decimal c := by
    cases long with
    | true =>
        rintro c ⟨⟩
        rw [← isWidthDigit_iff]
        decide
    | false =>
        rintro c ⟨⟩
        exact noDigit
  have width : scanWidth 0 (run ++ ((if long then [0x6C] else []) ++ letter :: rest)) =
      (Int8.ofNat (digitNumbers run).sum, (if long then [0x6C] else []) ++ letter :: rest) := by
    have scanned := @scanWidth_run run ((if long then [0x6C] else []) ++ letter :: rest) 0
      valid ends (by omega)
    rwa [Nat.zero_add] at scanned
  have wide : ¬ Int8.ofNat (digitNumbers run).sum = 0 := by
    have all : ∀ w < 21, 0 < w → ¬ Int8.ofNat w = 0 := by decide
    exact all _ (by omega) positive
  have zerofill : scanZerofill
      (digitZero :: (run ++ ((if long then [0x6C] else []) ++ letter :: rest))) =
      (true, Int8.ofNat (digitNumbers run).sum,
        (if long then [0x6C] else []) ++ letter :: rest) := by
    simp only [scanZerofill, scanFlag, if_pos, width, if_neg wide]
  have longFlag : scanFlag 0x6C ((if long then [0x6C] else []) ++ letter :: rest) =
      (long, letter :: rest) := by
    cases long with
    | true => rfl
    | false => exact if_neg noFlag
  simp only [scan, showbaseFlag, zerofill, longFlag, List.headD_cons]

/-- A width that is written as a number from 1 to 20 is the number for one digit behind
leading zeros, and the sum of its digits otherwise. -/
theorem width_is_decimal_iff
    (string : CString memory strStart
      (before ++ percent :: widthText showbase run long letter rest))
    (first : percent ∉ before) (valid : ∀ c ∈ run, ValidIn decimal c)
    (number : isNumberLetter letter = true) (least : 1 ≤ textValue decimal run)
    (most : textValue decimal run ≤ 20)
    (fits : (argumentText (scan (widthText showbase run long letter rest)).1 args ap).length ≤
      textValue decimal run) :
    (∃ field, field.length = textValue decimal run ∧
      PrintsField args memory ⟨strStart, ap⟩ before
        (scan (widthText showbase run long letter rest)).1 field) ↔
      textValue decimal run ≤ 9 := by
  have sum : numeralValue 1 (digitNumbers run) = (digitNumbers run).sum := numeralValue_one _
  have value : numeralValue 10 (digitNumbers run) = textValue decimal run := rfl
  have below : ∀ number ∈ digitNumbers run, number < 10 := by
    intro number member
    obtain ⟨c, there, rfl⟩ := List.mem_map.mp member
    obtain ⟨number, denotes, small⟩ := valid c there
    rw [denotes]
    exact small
  have lower := numeralValue_le (digitNumbers run) (by decide : 1 ≤ 10)
  have same := numeralValue_eq_iff (by decide : 1 < 10) below
  have positive := sum_pos_of_numeralValue_pos (value.symm ▸ least)
  rw [sum, value] at lower same
  have directive := scan_widthText valid number positive (by omega) showbase long rest
  have letterOf : isNumberLetter
      (scan (widthText showbase run long letter rest)).1.varFormat = true := by
    rw [directive]
    exact number
  have zeros := nbzeros_width (congrArg Directive.flagZerofill directive)
    (congrArg Directive.width directive) (by omega : (digitNumbers run).sum ≤ 29)
    (argumentText_length letterOf args ap)
  simp only [printsField_iff string first letterOf, ↓existsAndEq, and_true]
  rw [List.length_append, List.length_replicate, zeros]
  split <;> omega

/-- "%#05lx" of 0xBEEF. -/
theorem width_is_decimal_iff_five :
    ∃ field, field.length = 5 ∧
      PrintsField (wordArgs 0xBEEF) (formatMemory (percent :: widthText true [0x35] true 0x78 []))
        ⟨0x1000, 0x100⟩ [] (scan (widthText true [0x35] true 0x78 [])).1 field :=
  (@width_is_decimal_iff true true [0x35] [] [] 0x78 (wordArgs 0xBEEF)
    (formatMemory (percent :: widthText true [0x35] true 0x78 [])) 0x1000 0x100
    (by decide +kernel) List.not_mem_nil
    (fun c member => List.mem_singleton.mp member ▸ isWidthDigit_iff.mp (by decide)) (by decide)
    (by decide +kernel) (by decide +kernel) (by decide +kernel)).mpr (by decide +kernel)

/-- "%012d" of 5 prints 3 characters. -/
theorem width_is_no_decimal :
    ¬ ∃ field : List UInt8, field.length = 12 ∧
      PrintsField (wordArgs 5)
        (formatMemory (percent :: widthText false [0x31, 0x32] false 0x64 [])) ⟨0x1000, 0x100⟩ []
        (scan (widthText false [0x31, 0x32] false 0x64 [])).1 field := by
  rintro ⟨field, length, prints⟩
  have string : CString (formatMemory (percent :: widthText false [0x31, 0x32] false 0x64 []))
      0x1000 ([] ++ percent :: widthText false [0x31, 0x32] false 0x64 []) := by decide +kernel
  have printed := (printsField_iff string List.not_mem_nil (by decide)).mp prints
  have text : field = [0x30, 0x30, 0x35] := printed.trans (by decide +kernel)
  rw [text] at length
  cases length

end Spelled

section Signed

variable {n : Int64} {count w : Nat} {c : UInt8} {long : Bool} {rest before : List UInt8}
  {args memory : Memory} {strStart ap : UInt32}

theorem textValue_zeros (base : Base) (count : Nat) (text : List UInt8) :
    textValue base (List.replicate count digitZero ++ text) = textValue base text := by
  rw [textValue, digitNumbers, List.map_append, List.map_replicate,
    show (digitOf digitZero).getD 0 = 0 by decide, numeralValue_zeros]
  rfl

theorem zeros_valid (count : Nat) : ∀ c ∈ List.replicate count digitZero, ValidIn decimal c :=
  fun _ member => (List.mem_replicate.mp member).2 ▸ isWidthDigit_iff.mp (by decide)

/-- Zeros in front of a number without a sign are read as part of it. -/
theorem readsSigned_zeros (nonneg : ¬ n < 0) (count : Nat) :
    ReadsSigned decimal (List.replicate count digitZero ++ inttostring n decimal) n := by
  intro memory str endptr string
  rw [inttostring, if_neg nonneg] at string ⊢
  have valid : ∀ c ∈ List.replicate count digitZero ++ uinttostring n.toUInt64 decimal,
      ValidIn decimal c :=
    List.forall_mem_append.mpr ⟨zeros_valid count, uinttostring_valid _ _⟩
  have numeral := @longestNumeral_append decimal _ [] valid (by simp)
  rw [List.append_nil] at numeral
  rw [strtoll_eq string (fun c member => (valid c member).ascii)
    (fun head => not_validIn_minus decimal (valid minus (List.mem_of_mem_head? head))) numeral,
    textValue_zeros, textValue_uinttostring, UInt64.ofNat_toNat, Int64.toInt64_toUInt64]

/-- Zeros in front of a sign are read as zero, and the sign is not read. -/
theorem not_readsSigned_zeros (negative : n < 0) (positive : 0 < count) (few : count ≤ 29) :
    ¬ ReadsSigned decimal (List.replicate count digitZero ++ inttostring n decimal) n := by
  intro reads
  rw [inttostring, if_pos negative] at reads
  have short := uinttostring_length (-n).toUInt64 decimal
  have nonzero : ∀ c ∈
      List.replicate count digitZero ++ minus :: uinttostring (-n).toUInt64 decimal,
      c ≠ 0 ∧ c < 128 :=
    List.forall_mem_append.mpr
      ⟨fun c member => ⟨(zeros_valid count c member).ne_zero, (zeros_valid count c member).ascii⟩,
        List.forall_mem_cons.mpr ⟨by decide, fun c member =>
          ⟨(uinttostring_valid _ _ c member).ne_zero, uinttostring_ascii _ _ c member⟩⟩⟩
  obtain ⟨memory, string⟩ := exists_cstring (fun c member => (nonzero c member).1)
    (by rw [List.length_append, List.length_replicate, List.length_cons]; omega)
  have ends : ∀ c ∈ (minus :: uinttostring (-n).toUInt64 decimal).head?, ¬ ValidIn decimal c := by
    rintro c ⟨⟩
    exact not_validIn_minus decimal
  have numeral := longestNumeral_append (zeros_valid count) ends
  obtain ⟨fewer, rfl⟩ := Nat.exists_eq_add_of_lt positive
  have read := strtoll_eq string (fun c member => (nonzero c member).2)
    (fun head => absurd (Option.some.inj head) (by decide)) numeral 0x100
  rw [reads memory 0x1000 0x100 string, Outcome.returned.injEq] at read
  have value := textValue_zeros decimal (0 + fewer + 1) []
  rw [List.append_nil] at value
  rw [value] at read
  exact absurd (read.1 ▸ negative) (by decide)

/-- A signed number that is filled with zeros is read back as itself exactly when it is not
negative or no zero is put in front of its sign. -/
theorem zero_filled_signed_reads_back_iff
    (string : CString memory strStart (before ++ percent :: widthText false [c] long 0x64 rest))
    (first : percent ∉ before) (width : digitOf c = some w) (oneDigit : w < 10)
    (taken : (fetchSigned (scan (widthText false [c] long 0x64 rest)).1 args ap).1 = n)
    (fits : (inttostring n decimal).length ≤ w) :
    (∃ field, PrintsField args memory ⟨strStart, ap⟩ before
        (scan (widthText false [c] long 0x64 rest)).1 field ∧ ReadsSigned decimal field n) ↔
      0 ≤ n ∨ (inttostring n decimal).length = w := by
  have valid : ∀ other ∈ [c], ValidIn decimal other :=
    List.forall_mem_singleton.mpr ⟨w, width, oneDigit⟩
  have number : isNumberLetter 0x64 = true := by decide
  have sum : (digitNumbers [c]).sum = w := by
    rw [digitNumbers, List.map_singleton, width]
    exact List.sum_singleton
  have positive : 0 < (inttostring n decimal).length := by
    rw [List.length_pos_iff_ne_nil, inttostring]
    split
    · exact List.cons_ne_nil _ _
    · exact uinttostring_ne_nil _ _
  have directive := scan_widthText valid number (by omega) (by omega) false long rest
  have letterOf : isNumberLetter
      (scan (widthText false [c] long 0x64 rest)).1.varFormat = true := by
    rw [directive]
    exact number
  have text : argumentText (scan (widthText false [c] long 0x64 rest)).1 args ap =
      inttostring n decimal := by
    rcases (fetchValue_number letterOf args ap).2 with ⟨_, text⟩ | ⟨letter, _⟩
    · rw [text, taken]
    · exact absurd (congrArg Directive.varFormat directive) letter
  have zeros := nbzeros_width (congrArg Directive.flagZerofill directive)
    (congrArg Directive.width directive) (by omega : (digitNumbers [c]).sum ≤ 29)
    (text ▸ argumentText_length letterOf args ap)
  rw [sum, if_pos fits] at zeros
  simp only [printsField_iff string first letterOf, exists_eq_left, text, zeros]
  by_cases negative : n < 0
  · rw [or_iff_right (Int64.not_le.mpr negative)]
    constructor
    · intro reads
      by_contra shorter
      exact not_readsSigned_zeros negative (by omega) (by omega) reads
    · intro whole
      rw [whole, Nat.sub_self]
      exact fun memory str endptr string => strtoll_inttostring string endptr
  · exact iff_of_true (readsSigned_zeros negative _) (Or.inl (Int64.not_lt.mp negative))

/-- "%05ld" of 7. -/
theorem zero_filled_signed_reads_back_iff_seven :
    ∃ field, PrintsField (wordArgs 7)
        (formatMemory (percent :: widthText false [0x35] true 0x64 [])) ⟨0x1000, 0x100⟩ []
        (scan (widthText false [0x35] true 0x64 [])).1 field ∧
      ReadsSigned decimal field 7 :=
  (@zero_filled_signed_reads_back_iff 7 5 0x35 true [] [] (wordArgs 7)
    (formatMemory (percent :: widthText false [0x35] true 0x64 [])) 0x1000 0x100
    (by decide +kernel) List.not_mem_nil (by decide) (by decide) (by decide +kernel)
    (by decide +kernel)).mpr (Or.inl (by decide))

/-- "%05d" of -3 prints "000-3". -/
theorem zero_filled_negative_not_read_back :
    ¬ ∃ field, PrintsField (wordArgs 0xFFFFFFFD)
        (formatMemory (percent :: widthText false [0x35] false 0x64 [])) ⟨0x1000, 0x100⟩ []
        (scan (widthText false [0x35] false 0x64 [])).1 field ∧
      ReadsSigned decimal field (-3) := by
  rintro ⟨field, prints, reads⟩
  have string : CString (formatMemory (percent :: widthText false [0x35] false 0x64 []))
      0x1000 ([] ++ percent :: widthText false [0x35] false 0x64 []) := by decide +kernel
  have printed := (printsField_iff string List.not_mem_nil (by decide)).mp prints
  have text : field = List.replicate 3 digitZero ++ inttostring (-3) decimal :=
    printed.trans (by decide +kernel)
  exact not_readsSigned_zeros (by decide) (by decide) (by decide) (text ▸ reads)

end Signed

end Bootloader.Libc
