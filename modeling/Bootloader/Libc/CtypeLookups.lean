import Bootloader.Libc.StrToNb

/-!
# Lookups in the table of characters

The table of `ctype.c` has 128 entries, and its functions take the unsigned character for
an index as it is. Here they keep the indexes, and memory behind the table holds any bytes.
`strtoull_inTable_iff` says when all lookups of a conversion are in the table: when the
character it ends at is one of seven bits.
-/

namespace Bootloader.Libc

open Bootloader.Std

/-- A value, and the indexes in the table that have been looked up for it. -/
structure Looked (Value : Type) where
  value : Value
  indexes : List Nat

namespace Looked

variable {First Second : Type}

/-- A value that nothing has been looked up for. -/
def pure (value : First) : Looked First := ⟨value, []⟩

/-- Go on with a value. -/
def andThen (first : Looked First) (next : First → Looked Second) : Looked Second where
  value := (next first.value).value
  indexes := first.indexes ++ (next first.value).indexes

/-- Only one character has been looked up. -/
def Only (c : UInt8) (looked : Looked First) : Prop := ∀ index ∈ looked.indexes, index = c.toNat

theorem Only.andThen {c : UInt8} {first : Looked First} {next : First → Looked Second}
    (here : first.Only c) (later : ∀ value, (next value).Only c) : (first.andThen next).Only c := by
  intro index member
  rcases List.mem_append.mp member with early | late
  · exact here index early
  · exact later first.value index late

theorem only_pure {c : UInt8} (value : First) : (pure value).Only c :=
  fun _ member => absurd member List.not_mem_nil

end Looked

/-- Memory, and the indexes in the table that have been looked up. -/
structure Scan where
  memory : Memory
  indexes : List Nat

namespace Scan

/-- More has been looked up. -/
def look (indexes : List Nat) (scan : Scan) : Scan :=
  { scan with indexes := scan.indexes ++ indexes }

/-- All lookups are in the table. -/
def InTable (scan : Scan) : Prop := ∀ index ∈ scan.indexes, index < 128

variable {scan : Scan} {Value : Type} {looked : Looked Value} {c : UInt8}

/-- The lookup of a character of seven bits is in the table. -/
theorem InTable.look (inTable : scan.InTable) (only : looked.Only c) (ascii : c < 128) :
    (scan.look looked.indexes).InTable := by
  intro index member
  rcases List.mem_append.mp member with early | late
  · exact inTable index early
  · rw [only index late]
    exact UInt8.lt_iff_toNat_lt.mp ascii

/-- The lookup of any other character is not. -/
theorem not_inTable_of_mem (member : c.toNat ∈ scan.indexes) (wide : ¬ c < 128) :
    ¬ scan.InTable :=
  fun inTable => wide (UInt8.lt_iff_toNat_lt.mpr (inTable c.toNat member))

/-- Later lookups do not undo earlier ones. -/
theorem mem_look {index : Nat} (member : index ∈ scan.indexes) (indexes : List Nat) :
    index ∈ (scan.look indexes).indexes :=
  List.mem_append_left _ member

end Scan

namespace Lookup

section Functions

variable (behind : UInt8 → UInt8)

/-- `_ctype[(unsigned char) c]`. -/
def ctypeOf (c : UInt8) : Looked UInt8 where
  value := if c < 128 then Libc.ctypeOf c else behind c
  indexes := [c.toNat]

/-- `isdigit`. -/
def isdigit (c : UInt8) : Looked Bool :=
  (ctypeOf behind c).andThen fun entry => .pure (entry &&& ctDig != 0)

/-- `isxdigit`. -/
def isxdigit (c : UInt8) : Looked Bool :=
  (ctypeOf behind c).andThen fun entry => .pure (entry &&& (ctDig ||| ctHex) != 0)

/-- `isupper`. -/
def isupper (c : UInt8) : Looked Bool :=
  (ctypeOf behind c).andThen fun entry => .pure (entry &&& ctUp != 0)

/-- `tolower`. -/
def tolower (c : UInt8) : Looked UInt8 :=
  (isupper behind c).andThen fun upper => .pure (if upper then c + 0x61 - 0x41 else c)

/-- `isdigitinbase`. -/
def isdigitinbase (c : UInt8) (base : Base) : Looked Bool :=
  (isdigit behind c).andThen fun digit =>
    if digit then .pure (if base.val > 10 then true else charInt c - 0x30 < base.val.toNat)
    else
      (isxdigit behind c).andThen fun hex =>
        if hex then
          (tolower behind c).andThen fun lower =>
            .pure (charInt lower - 0x61 + 10 < base.val.toNat)
        else .pure false

/-- What a digit adds to the number. -/
def digitValue (c : UInt8) : Looked UInt64 :=
  (isdigit behind c).andThen fun digit =>
    if digit then .pure (UInt64.ofInt (charInt c - 0x30))
    else
      (tolower behind c).andThen fun lower =>
        .pure (UInt64.ofInt (charInt lower - 0x61 + 10))

/-- One turn of the loop in `strtoull`. -/
def strtoullTurn (base : Base) (cursor : NumberCursor) (scan : Scan) :
    Outcome Scan (Turn NumberCursor NumberCursor) :=
  let c := scan.memory cursor.str.toNat
  let valid := isdigitinbase behind c base
  let value := digitValue behind c
  if valid.value then
    .returned (.again ⟨cursor.str + 1, cursor.n * base + value.value⟩)
      ((scan.look valid.indexes).look value.indexes)
  else .returned (.leave cursor) (scan.look valid.indexes)

/-- `strtoull`. -/
def strtoull (str endptr : UInt32) (base : Base) (scan : Scan) : Outcome Scan UInt64 :=
  if str = 0 then .panicked "str != NULL" scan
  else
    (loop (strtoullTurn behind base) stringTurns ⟨str, 0⟩ scan).andThen fun cursor scan =>
      .returned cursor.n { scan with memory := storeEnd endptr cursor.str scan.memory }

/-- `strtoll`. -/
def strtoll (str endptr : UInt32) (base : Base) (scan : Scan) : Outcome Scan Int64 :=
  if str = 0 then .panicked "str != NULL" scan
  else
    let negative := scan.memory str.toNat = minus
    (strtoull behind (if negative then str + 1 else str) endptr base scan).andThen fun n scan =>
      .returned (if negative then -n.toInt64 else n.toInt64) scan

end Functions

end Lookup

/-- The digits at the start of a text end with it, or with a character of seven bits. -/
def EndsInTable (base : Base) (text : List UInt8) : Prop :=
  ∃ digits rest, text = digits ++ rest ∧ (∀ c ∈ digits, ValidIn base c) ∧
    ∀ c ∈ rest.head?, ¬ ValidIn base c ∧ c < 128

section Texts

variable {base : Base} {text digits rest : List UInt8}

/-- It is the first character that is no digit that counts. -/
theorem endsInTable_iff (valid : ∀ c ∈ digits, ValidIn base c)
    (ends : ∀ c ∈ rest.head?, ¬ ValidIn base c) :
    EndsInTable base (digits ++ rest) ↔ ∀ c ∈ rest.head?, c < 128 := by
  constructor
  · rintro ⟨others, further, same, valid', ends'⟩
    have numeral := longestNumeral_append valid ends
    rw [same] at numeral
    obtain rfl := numeral.unique (longestNumeral_append valid' fun c first => (ends' c first).1)
    rw [List.append_cancel_left_eq] at same
    rw [same]
    exact fun c first => (ends' c first).2
  · exact fun ascii => ⟨digits, rest, rfl, valid, fun c first => ⟨ends c first, ascii c first⟩⟩

end Texts

namespace Lookup

section Values

variable {behind : UInt8 → UInt8} {base : Base} {c : UInt8}

/-- Within the table the functions are those that know nothing of what is behind it. -/
theorem isdigit_value (ascii : c < 128) : (isdigit behind c).value = Libc.isdigit c := by
  simp only [isdigit, ctypeOf, Looked.andThen, Looked.pure, if_pos ascii, Libc.isdigit]

theorem tolower_value (ascii : c < 128) : (tolower behind c).value = Libc.tolower c := by
  simp only [tolower, isupper, ctypeOf, Looked.andThen, Looked.pure, if_pos ascii]
  rfl

theorem isdigitinbase_value (ascii : c < 128) :
    (isdigitinbase behind c base).value = Libc.isdigitinbase c base := by
  have hex : (isxdigit behind c).value = Libc.isxdigit c := by
    simp only [isxdigit, ctypeOf, Looked.andThen, Looked.pure, if_pos ascii, Libc.isxdigit]
  simp only [isdigitinbase, Looked.andThen, Looked.pure, isdigit_value ascii,
    Libc.isdigitinbase, hex]
  split
  · rfl
  · split
    · rw [tolower_value ascii]
    · rfl

theorem digitValue_value (ascii : c < 128) :
    (digitValue behind c).value = Libc.digitValue c := by
  simp only [digitValue, Looked.andThen, Looked.pure, isdigit_value ascii, Libc.digitValue]
  split
  · rfl
  · rw [tolower_value ascii]

theorem ctypeOf_only : (ctypeOf behind c).Only c :=
  fun _ member => List.mem_singleton.mp member

theorem isdigit_only : (isdigit behind c).Only c :=
  ctypeOf_only.andThen fun _ => Looked.only_pure _

theorem isxdigit_only : (isxdigit behind c).Only c :=
  ctypeOf_only.andThen fun _ => Looked.only_pure _

theorem tolower_only : (tolower behind c).Only c :=
  (ctypeOf_only.andThen fun _ => Looked.only_pure _).andThen fun _ => Looked.only_pure _

/-- The test for a digit looks only its own character up. -/
theorem isdigitinbase_only : (isdigitinbase behind c base).Only c := by
  refine isdigit_only.andThen fun digit => ?_
  cases digit with
  | true => exact Looked.only_pure _
  | false =>
      rw [if_neg Bool.false_ne_true]
      refine isxdigit_only.andThen fun hex => ?_
      cases hex with
      | true =>
          rw [if_pos rfl]
          exact tolower_only.andThen fun _ => Looked.only_pure _
      | false => exact Looked.only_pure _

theorem digitValue_only : (digitValue behind c).Only c := by
  refine isdigit_only.andThen fun digit => ?_
  cases digit with
  | true => exact Looked.only_pure _
  | false =>
      rw [if_neg Bool.false_ne_true]
      exact tolower_only.andThen fun _ => Looked.only_pure _

/-- It does look it up. -/
theorem mem_isdigitinbase : c.toNat ∈ (isdigitinbase behind c base).indexes :=
  List.mem_append_left _ (List.mem_append_left _ (List.mem_singleton_self _))

end Values

section Scans

variable {behind : UInt8 → UInt8} {base : Base} {scan : Scan} {str endptr : UInt32} {n : UInt64}
  {text digits rest : List UInt8} {c : UInt8}

/-- The loop passes a digit, which it looks up in the table. -/
theorem strtoullTurn_again (string : CString scan.memory str (c :: rest)) (valid : ValidIn base c)
    (inTable : scan.InTable) :
    ∃ after, strtoullTurn behind base ⟨str, n⟩ scan = .returned
        (.again ⟨str + 1, n * base + UInt64.ofNat ((digitOf c).getD 0)⟩) after ∧
      after.memory = scan.memory ∧ after.InTable := by
  have here : scan.memory str.toNat = c := string.2.2.1
  have ascii := valid.ascii
  have digit := (isdigitinbase_iff ascii).mpr valid
  refine ⟨(scan.look (isdigitinbase behind c base).indexes).look (digitValue behind c).indexes,
    ?_, rfl, (inTable.look isdigitinbase_only ascii).look digitValue_only ascii⟩
  simp only [strtoullTurn, here, isdigitinbase_value ascii, if_pos digit, digitValue_value ascii,
    digitValue_eq ascii digit]

/-- The loop ends at a character that is no digit, which it looks up. -/
theorem strtoullTurn_leave (string : CString scan.memory str rest)
    (ends : ∀ c ∈ rest.head?, ¬ ValidIn base c) (ascii : ∀ c ∈ rest.head?, c < 128)
    (inTable : scan.InTable) :
    ∃ after, strtoullTurn behind base ⟨str, n⟩ scan = .returned (.leave ⟨str, n⟩) after ∧
      after.memory = scan.memory ∧ after.InTable := by
  have stops : rest.headD 0 < 128 ∧ ¬ Libc.isdigitinbase (rest.headD 0) base = true := by
    cases rest with
    | nil =>
        refine ⟨by decide, ?_⟩
        rw [isdigitinbase_iff (by decide)]
        rintro ⟨number, denotes, _⟩
        cases denotes
    | cons c rest =>
        exact ⟨ascii c rfl, fun digit => ends c rfl ((isdigitinbase_iff (ascii c rfl)).mp digit)⟩
  refine ⟨scan.look (isdigitinbase behind (rest.headD 0) base).indexes, ?_, rfl,
    inTable.look isdigitinbase_only stops.1⟩
  simp only [strtoullTurn, string.head, isdigitinbase_value stops.1, if_neg stops.2]

/-- Every turn keeps the earlier lookups, and looks up the character it is at. -/
theorem strtoullTurn_keeps (cursor : NumberCursor) (scan : Scan) :
    ((strtoullTurn behind base cursor scan).state.memory = scan.memory ∧
      (scan.memory cursor.str.toNat).toNat ∈
        (strtoullTurn behind base cursor scan).state.indexes) ∧
    ∀ index ∈ scan.indexes, index ∈ (strtoullTurn behind base cursor scan).state.indexes := by
  rw [strtoullTurn]
  split
  · exact ⟨⟨rfl, Scan.mem_look (List.mem_append_right _ mem_isdigitinbase) _⟩,
      fun index member => Scan.mem_look (Scan.mem_look member _) _⟩
  · exact ⟨⟨rfl, List.mem_append_right _ mem_isdigitinbase⟩,
      fun index member => Scan.mem_look member _⟩

/-- The loop looks up the character it is at, and what has been looked up stays so. -/
theorem strtoull_loop_looks (turns : Nat) (cursor : NumberCursor) (scan : Scan) :
    (scan.memory cursor.str.toNat).toNat ∈
      (loop (strtoullTurn behind base) (turns + 1) cursor scan).state.indexes :=
  @loop_keeps _ _ _ (strtoullTurn behind base) cursor scan
    (fun after => (scan.memory cursor.str.toNat).toNat ∈ after.indexes)
    (fun current before member => (strtoullTurn_keeps current before).2 _ member) turns
    (strtoullTurn_keeps cursor scan).1.2

/-- The loop reads the digits as the one that knows nothing of lookups does, all of them in
the table. -/
theorem strtoull_digits (string : CString scan.memory str (digits ++ rest))
    (valid : ∀ c ∈ digits, ValidIn base c) (inTable : scan.InTable) (passed : List UInt8)
    (turns : Nat) :
    ∃ after, loop (strtoullTurn behind base) (digits.length + turns)
        ⟨str, UInt64.ofNat (textValue base passed)⟩ scan =
      loop (strtoullTurn behind base) turns ⟨str + UInt32.ofNat digits.length,
        UInt64.ofNat (textValue base (passed ++ digits))⟩ after ∧
      after.memory = scan.memory ∧ after.InTable := by
  induction digits generalizing str passed scan with
  | nil =>
      rw [List.length_nil, offset_zero, List.append_nil, Nat.zero_add]
      exact ⟨scan, rfl, rfl, inTable⟩
  | cons c digits inductionHypothesis =>
      obtain ⟨first, later⟩ := List.forall_mem_cons.mp valid
      obtain ⟨middle, turn, same, kept⟩ := @strtoullTurn_again behind base scan str
        (UInt64.ofNat (textValue base passed)) (digits ++ rest) c string first inTable
      have added : UInt64.ofNat (textValue base passed) * base +
          UInt64.ofNat ((digitOf c).getD 0) = UInt64.ofNat (textValue base (passed ++ [c])) := by
        rw [textValue_concat, UInt64.ofNat_add, UInt64.ofNat_mul, UInt64.ofNat_toNat]
      rw [added] at turn
      have tail : CString middle.memory (str + 1) (digits ++ rest) := same ▸ string.2.2.2
      obtain ⟨after, ran, same', kept'⟩ := inductionHypothesis tail later kept (passed ++ [c])
      refine ⟨after, ?_, same'.trans same, kept'⟩
      rw [List.length_cons, Nat.add_right_comm, loop_again turn, ran, offset_succ,
        List.append_assoc, List.singleton_append]

/-- The conversion looks up what its loop does. -/
theorem strtoull_state (valid : str ≠ 0) :
    (strtoull behind str endptr base scan).state.InTable ↔
      (loop (strtoullTurn behind base) stringTurns ⟨str, 0⟩ scan).state.InTable := by
  rw [strtoull, if_neg valid]
  cases loop (strtoullTurn behind base) stringTurns ⟨str, 0⟩ scan <;> rfl

/-- The conversion of digits that end in the table. -/
theorem strtoull_inTable (string : CString scan.memory str (digits ++ rest))
    (valid : ∀ c ∈ digits, ValidIn base c) (ends : ∀ c ∈ rest.head?, ¬ ValidIn base c)
    (ascii : ∀ c ∈ rest.head?, c < 128) (inTable : scan.InTable) (endptr : UInt32) :
    ∃ after, strtoull behind str endptr base scan =
        .returned (UInt64.ofNat (textValue base digits)) after ∧
      after.memory = storeEnd endptr (str + UInt32.ofNat digits.length) scan.memory ∧
      after.InTable := by
  obtain ⟨turns, more⟩ := Nat.exists_eq_add_of_lt string.front_lt
  obtain ⟨middle, ran, same, kept⟩ := @strtoull_digits behind base scan str digits rest string valid
    inTable [] (turns + 1)
  have behindDigits : CString middle.memory (str + UInt32.ofNat digits.length) rest :=
    same ▸ string.drop
  obtain ⟨after, left, same', kept'⟩ := @strtoullTurn_leave behind base middle _
    (UInt64.ofNat (textValue base digits)) rest behindDigits ends ascii kept
  refine ⟨{ after with memory := storeEnd endptr (str + UInt32.ofNat digits.length) after.memory },
    ?_, by rw [same', same], kept'⟩
  rw [List.nil_append, loop_leave left, ← Nat.add_assoc, ← more] at ran
  rw [strtoull, if_neg string.ne_zero]
  exact congrArg (Outcome.andThen · _) ran

/-- `strtoull` stays in the table exactly when its numeral ends in it. -/
theorem strtoull_inTable_iff (string : CString scan.memory str text) (inTable : scan.InTable)
    (endptr : UInt32) :
    (strtoull behind str endptr base scan).state.InTable ↔ EndsInTable base text := by
  obtain ⟨digits, numeral⟩ := exists_longestNumeral base text
  obtain ⟨rest, rfl, ends⟩ := numeral.split
  rw [endsInTable_iff numeral.valid ends]
  constructor
  · intro staysIn c first
    obtain ⟨tail, rfl⟩ : ∃ tail, rest = c :: tail := List.head?_eq_some_iff.mp first
    obtain ⟨turns, more⟩ := Nat.exists_eq_add_of_lt string.front_lt
    obtain ⟨middle, ran, same, _⟩ := @strtoull_digits behind base scan str digits (c :: tail) string
      numeral.valid inTable [] (turns + 1)
    rw [← Nat.add_assoc, ← more] at ran
    have here : middle.memory (str + UInt32.ofNat digits.length).toNat = c := by
      rw [same]
      exact string.drop.2.2.1
    have looked := @strtoull_loop_looks behind base turns
      ⟨str + UInt32.ofNat digits.length, UInt64.ofNat (textValue base ([] ++ digits))⟩ middle
    rw [here, ← ran] at looked
    by_contra wide
    exact Scan.not_inTable_of_mem looked wide ((strtoull_state string.ne_zero).mp staysIn)
  · intro ascii
    obtain ⟨after, ran, _, kept⟩ := @strtoull_inTable behind base scan str digits rest string
      numeral.valid ends ascii inTable endptr
    rw [ran]
    exact kept

/-- On characters of seven bits the conversion is the one that knows nothing of what stands
behind the table. -/
theorem strtoull_agrees (string : CString scan.memory str text) (ascii : ∀ c ∈ text, c < 128)
    (inTable : scan.InTable) (base : Base) (endptr : UInt32) :
    ∃ n after, strtoull behind str endptr base scan = .returned n after ∧
      Libc.strtoull str endptr base scan.memory = .returned n after.memory := by
  obtain ⟨digits, numeral⟩ := exists_longestNumeral base text
  obtain ⟨rest, rfl, ends⟩ := numeral.split
  have narrow : ∀ c ∈ rest.head?, c < 128 := fun c first =>
    ascii c (List.mem_append_right _ (List.mem_of_mem_head? first))
  obtain ⟨after, ran, same, _⟩ := @strtoull_inTable behind base scan str digits rest string
    numeral.valid ends narrow inTable endptr
  refine ⟨_, after, ran, ?_⟩
  rw [same]
  exact strtoull_eq string ascii numeral endptr

/-- `strtoll` looks up what `strtoull` does behind the sign. -/
theorem strtoll_inTable_iff (string : CString scan.memory str text) (inTable : scan.InTable)
    (endptr : UInt32) :
    (strtoll behind str endptr base scan).state.InTable ↔
      EndsInTable base (if text.head? = some minus then text.tail else text) := by
  have signed : scan.memory str.toNat = minus ↔ text.head? = some minus := by
    rw [string.head]
    cases text with
    | nil => exact iff_of_false (by decide) (by simp)
    | cons c rest => simp
  have digitsStand : CString scan.memory (if scan.memory str.toNat = minus then str + 1 else str)
      (if text.head? = some minus then text.tail else text) := by
    by_cases sign : text.head? = some minus
    · rw [if_pos (signed.mpr sign), if_pos sign]
      cases text with
      | nil => cases sign
      | cons c rest => exact string.2.2.2
    · rw [if_neg (sign ∘ signed.mp), if_neg sign]
      exact string
  rw [← strtoull_inTable_iff digitsStand inTable endptr, strtoll, if_neg string.ne_zero]
  dsimp only
  cases strtoull behind (if scan.memory str.toNat = minus then str + 1 else str) endptr base
    scan <;> rfl

end Scans

end Lookup

end Bootloader.Libc
