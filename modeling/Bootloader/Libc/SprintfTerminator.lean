import Bootloader.Libc.PrintfNumbers

/-!
# The terminator behind what `vsprintf` writes

`strcpy` stores no terminator, and so `vsprintf` leaves one only where the last thing it
stores has one of its own. `Tail` follows the byte at the cursor through the stores, and
`Sealed` says of a format whether its end is such a thing.
-/

namespace Bootloader.Libc

open Bootloader.Std

/-- Behind the cursor memory is as it was, and so it is at the cursor, unless a terminator has
been stored there. -/
structure Tail (memory : Memory) (closed : Prop) (sprint : Sprint) : Prop where
  closes : closed → sprint.memory sprint.str.toNat = 0
  opens : ¬ closed → sprint.memory sprint.str.toNat = memory sprint.str.toNat
  beyond : ∀ place, sprint.str.toNat < place → sprint.memory place = memory place

/-- A value after which a terminator is left at the cursor: a character, a `'%'` and a string
without characters. -/
def LeavesTerminator (memory : Memory) : Value → Prop
  | .char _ | .percent => True
  | .string ptr => ptr ≠ 0 ∧ memory ptr.toNat = 0
  | .number _ => False

/-- A format ends with a directive of a value that leaves a terminator. -/
inductive Sealed (args memory : Memory) : List UInt8 → UInt32 → Prop where
  | last {before after : List UInt8} {ap next : UInt32} {value : Value} (first : percent ∉ before)
      (fetched : fetchValue (scan after).1 args ap = some (value, next))
      (leaves : LeavesTerminator memory value) (ends : (scan after).2.tail = []) :
      Sealed args memory (before ++ percent :: after) ap
  | later {before after : List UInt8} {ap next : UInt32} {value : Value} (first : percent ∉ before)
      (fetched : fetchValue (scan after).1 args ap = some (value, next))
      (rest : Sealed args memory (scan after).2.tail next) :
      Sealed args memory (before ++ percent :: after) ap

section Sealing

variable {args memory : Memory} {before after text : List UInt8} {ap : UInt32}

/-- Whether a format is sealed its first directive decides, or the rest. -/
theorem sealed_iff (first : percent ∉ before) :
    Sealed args memory (before ++ percent :: after) ap ↔
      ∃ value next, fetchValue (scan after).1 args ap = some (value, next) ∧
        (LeavesTerminator memory value ∧ (scan after).2.tail = [] ∨
          Sealed args memory (scan after).2.tail next) := by
  constructor
  · intro isSealed
    generalize whole : before ++ percent :: after = text at isSealed
    cases isSealed with
    | last first' fetched leaves ends =>
        obtain ⟨rfl, rfl⟩ := first_percent first first' whole
        exact ⟨_, _, fetched, Or.inl ⟨leaves, ends⟩⟩
    | later first' fetched rest =>
        obtain ⟨rfl, rfl⟩ := first_percent first first' whole
        exact ⟨_, _, fetched, Or.inr rest⟩
  · rintro ⟨value, next, fetched, ⟨leaves, ends⟩ | rest⟩
    · exact .last first fetched leaves ends
    · exact .later first fetched rest

/-- A format without directives is not sealed. -/
theorem not_sealed (plainText : percent ∉ text) : ¬ Sealed args memory text ap := by
  intro isSealed
  cases isSealed with
  | last _ _ _ _ => exact plainText (List.mem_append_right _ List.mem_cons_self)
  | later _ _ _ => exact plainText (List.mem_append_right _ List.mem_cons_self)

end Sealing

section Stores

variable {memory : Memory} {closed other : Prop} {sprint : Sprint} {start : UInt32} {size : Nat}
  {out bytes : List UInt8}

theorem Tail.iff (tail : Tail memory closed sprint) (same : closed ↔ other) :
    Tail memory other sprint :=
  ⟨fun holds => tail.closes (same.mpr holds), fun fails => tail.opens (mt same.mp fails),
    tail.beyond⟩

theorem tail_nothing (memory : Memory) (start : UInt32) : Tail memory False ⟨memory, start⟩ :=
  ⟨False.elim, fun _ => rfl, fun _ _ => rfl⟩

/-- Only a store of nothing leaves the terminator at the cursor. -/
theorem Tail.store (tail : Tail memory closed sprint) (bytes : List UInt8)
    (fits : sprint.str.toNat + bytes.length < 2 ^ 32) :
    Tail memory (closed ∧ bytes = [])
      ⟨sprint.memory.storeBytes sprint.str.toNat bytes,
        sprint.str + UInt32.ofNat bytes.length⟩ := by
  cases bytes with
  | nil =>
      rw [List.length_nil, offset_zero]
      exact tail.iff (by simp)
  | cons byte rest =>
      have cursor : (sprint.str + UInt32.ofNat (byte :: rest).length).toNat =
          sprint.str.toNat + (byte :: rest).length := toNat_offset fits
      have length : (byte :: rest).length = rest.length + 1 := rfl
      have untouched (place : Nat) (behind : sprint.str.toNat + (byte :: rest).length ≤ place) :
          sprint.memory.storeBytes sprint.str.toNat (byte :: rest) place = memory place :=
        (Memory.storeBytes_outside (Or.inr behind)).trans (tail.beyond place (by omega))
      refine ⟨fun both => absurd both.2 (List.cons_ne_nil _ _),
        fun _ => untouched _ (Nat.le_of_eq cursor.symm), fun place behind => untouched place ?_⟩
      rw [← cursor]
      exact Nat.le_of_lt behind

theorem Tail.terminate (tail : Tail memory closed sprint) :
    Tail memory True (terminate sprint) := by
  refine ⟨fun _ => Memory.store8_same _ _ _, fun fails => absurd trivial fails, ?_⟩
  intro place behind
  exact (Memory.store8_of_ne (Nat.ne_of_gt behind)).trans (tail.beyond place behind)

/-- Bytes behind the cursor fit into memory when they fit into the destination. -/
theorem Wrote.fits (destination : Destination start size)
    (wrote : Wrote start size memory out sprint) (room : out.length + bytes.length ≤ size) :
    sprint.str.toNat + bytes.length < 2 ^ 32 := by
  have cursor := wrote.cursor
  have fits := destination.fits
  omega

/-- `strcpy` of a text, as one store. -/
theorem storeText_eq (text : List UInt8) (sprint : Sprint)
    (fits : sprint.str.toNat + text.length < 2 ^ 32) :
    storeText text sprint = ⟨sprint.memory.storeBytes sprint.str.toNat text,
      sprint.str + UInt32.ofNat text.length⟩ := by
  induction text generalizing sprint with
  | nil =>
      rw [storeText, List.length_nil, offset_zero]
      rfl
  | cons c rest inductionHypothesis =>
      rw [List.length_cons] at fits
      have next : (storeChar c sprint).str.toNat = sprint.str.toNat + 1 :=
        toNat_add_one (by omega)
      rw [storeText, inductionHypothesis _ (by omega), next, List.length_cons, ← offset_succ]
      rfl

theorem storeZeros_eq (count : Nat) (sprint : Sprint) :
    storeZeros count sprint = storeText (List.replicate count digitZero) sprint := by
  induction count generalizing sprint with
  | zero => rfl
  | succ count inductionHypothesis =>
      rw [storeZeros, inductionHypothesis]
      rfl

theorem Tail.storeText (tail : Tail memory closed sprint) (text : List UInt8)
    (fits : sprint.str.toNat + text.length < 2 ^ 32) :
    Tail memory (closed ∧ text = []) (storeText text sprint) := by
  rw [storeText_eq text sprint fits]
  exact tail.store text fits

/-- The zeros in front of a number leave one or the other. -/
theorem Tail.storeFill (tail : Tail memory closed sprint) (directive : Directive)
    (digits : List UInt8)
    (fits : sprint.str.toNat +
      (List.replicate (nbzeros directive digits) digitZero).length < 2 ^ 32) :
    ∃ closed', Tail memory closed'
      (if directive.flagZerofill then
        Libc.terminate (storeZeros (nbzeros directive digits) sprint) else sprint) := by
  by_cases zerofill : directive.flagZerofill = true
  · rw [if_pos zerofill, storeZeros_eq]
    exact ⟨True, (tail.storeText _ fits).terminate⟩
  · rw [if_neg zerofill]
    exact ⟨closed, tail⟩

end Stores

section Turns

variable {args memory : Memory} {directive : Directive} {value : Value} {sprint : Sprint}
  {start ap next : UInt32} {size : Nat} {out shown : List UInt8} {closed : Prop}
  {Text : UInt32 → List UInt8 → Prop}

/-- Only a conversion of a string gives a pointer, and it has no base. -/
theorem fetchValue_string {ptr : UInt32}
    (fetched : fetchValue directive args ap = some (.string ptr, next)) :
    baseText directive = [] := by
  have letter : directive.varFormat = 0x73 := by
    rw [fetchValue] at fetched
    split at fetched
    case h_2 letter => exact letter
    all_goals cases fetched
  rw [baseText, letter]
  split <;> rfl

/-- What a value leaves at the cursor, behind a base. -/
theorem Tail.storeValue
    (texts : ∀ ptr bytes, Text ptr bytes → ptr = 0 ∧ bytes = nullText ∨
      CString memory ptr bytes ∧ Outside start size ptr bytes.length)
    (fetched : fetchValue directive args ap = some (value, next))
    (shows : Shows Text directive value shown) (destination : Destination start size)
    (wrote : Wrote start size memory out sprint)
    (tail : Tail memory (closed ∧ baseText directive = []) sprint)
    (room : out.length + shown.length ≤ size) (isClosed : closed) :
    ∃ stored, storeValue directive value sprint = .returned () stored ∧
      Tail memory (LeavesTerminator memory value) stored := by
  cases value with
  | char c =>
      cases shows
      exact ⟨_, rfl, (tail.store [c] (wrote.fits destination room)).terminate⟩
  | percent =>
      cases shows
      exact ⟨_, rfl, (tail.store [percent] (wrote.fits destination room)).terminate⟩
  | string ptr =>
      have noBase := fetchValue_string fetched
      rw [Libc.storeValue]
      rcases texts ptr shown shows with ⟨null, rfl⟩ | ⟨string, outside⟩
      · rw [if_pos null]
        refine ⟨_, rfl, (tail.storeText nullText (wrote.fits destination room)).iff ?_⟩
        exact iff_of_false (fun both => List.cons_ne_nil _ _ both.2) (fun leaves => leaves.1 null)
      · rw [if_neg string.ne_zero]
        refine ⟨_, wrote.storeString_eq destination string outside room,
          (tail.store shown (wrote.fits destination room)).iff ?_⟩
        rw [LeavesTerminator, string.head, and_iff_right string.ne_zero,
          and_iff_right ⟨isClosed, noBase⟩]
        cases shown with
        | nil => exact iff_of_true rfl rfl
        | cons byte rest => exact iff_of_false (List.cons_ne_nil _ _) string.2.1
  | number digits =>
      cases shows
      obtain ⟨number, text⟩ := fetchValue_digits fetched
      have nonempty : digits ≠ [] := text ▸ argumentText_ne_nil number args ap
      rw [List.length_append, List.length_replicate] at room
      have filled := wrote.storeFill destination directive digits (by omega)
      obtain ⟨closed', further⟩ := tail.storeFill directive digits
        (wrote.fits destination (by rw [List.length_replicate]; omega))
      refine ⟨_, rfl, (further.storeText digits (filled.fits destination ?_)).iff ?_⟩
      · rw [List.length_append, List.length_replicate]
        omega
      · exact iff_of_false (fun both => nonempty both.2) id

/-- What the turn of a directive leaves at the cursor its value decides. -/
theorem vsprintfTurn_tail {before after copied : List UInt8} {strStart : UInt32}
    (texts : ∀ ptr bytes, Text ptr bytes → ptr = 0 ∧ bytes = nullText ∨
      CString memory ptr bytes ∧ Outside start size ptr bytes.length)
    (destination : Destination start size)
    (string : CString memory strStart (before ++ percent :: after)) (first : percent ∉ before)
    (outside : Outside start size strStart (before ++ percent :: after).length)
    (fetched : fetchValue (scan after).1 args ap = some (value, next))
    (shows : Shows Text (scan after).1 value shown)
    (wrote : Wrote start size memory copied sprint) (tail : Tail memory closed sprint)
    (room : copied.length + (before ++ (baseText (scan after).1 ++ shown)).length ≤ size) :
    ∃ last stored, vsprintfTurn args ⟨strStart, ap⟩ sprint =
        .returned (.again ⟨last, next⟩) stored ∧
      Behind memory strStart (before ++ percent :: after) last (scan after).2.tail ∧
      Wrote start size memory (copied ++ (before ++ (baseText (scan after).1 ++ shown)))
        stored ∧
      Tail memory (LeavesTerminator memory value) stored := by
  obtain ⟨last, stored, ran, behind, wrote'⟩ := vsprintfTurn_directive texts destination string
    first outside fetched shows wrote room
  refine ⟨last, stored, ran, behind, wrote', ?_⟩
  obtain ⟨mark, _, found, valid, read, _⟩ :=
    next_directive (wrote.string string outside) first
  simp only [List.length_append] at room
  have delimited := wrote.storeDelim_eq destination string first outside (by omega)
  have wrote₁ := (wrote.store destination before (by omega)).terminate
  have tail₁ := (tail.store before (wrote.fits destination (by omega))).terminate
  have wrote₂ := wrote₁.storeText destination (baseText (scan after).1)
    (by rw [List.length_append]; omega)
  have tail₂ := tail₁.storeText (baseText (scan after).1)
    (wrote₁.fits destination (by rw [List.length_append]; omega))
  obtain ⟨stored', valued, tail₃⟩ := tail₂.storeValue texts fetched shows destination wrote₂
    (by rw [List.length_append, List.length_append]; omega) trivial
  simp only [vsprintfTurn, found, Outcome.returned_within, Outcome.returned_andThen, if_neg valid,
    read, fetched, delimited, valued, Outcome.returned.injEq] at ran
  exact ran.2 ▸ tail₃

/-- What `vsprintf` leaves at the cursor the end of the format decides. -/
theorem vsprintfLoop_tail {text copied : List UInt8} {strStart left : UInt32} {turns : Nat}
    {ending : Ending} (renders : Renders Text args text ap out ending)
    (finished : ending = .finished left)
    (texts : ∀ ptr bytes, Text ptr bytes → ptr = 0 ∧ bytes = nullText ∨
      CString memory ptr bytes ∧ Outside start size ptr bytes.length)
    (destination : Destination start size) (string : CString memory strStart text)
    (outside : Outside start size strStart text.length)
    (wrote : Wrote start size memory copied sprint) (tail : Tail memory closed sprint)
    (room : copied.length + out.length ≤ size) (enough : text.length < turns) :
    ∃ final, vsprintfLoop turns args ⟨strStart, ap⟩ sprint = .returned left final ∧
      Wrote start size memory (copied ++ out) final ∧
      Tail memory (closed ∧ text = [] ∨ Sealed args memory text ap) final := by
  induction renders generalizing strStart copied sprint turns closed with
  | @plain text ap plainText =>
      cases finished
      obtain ⟨turns, rfl⟩ := Nat.exists_eq_succ_of_ne_zero (Nat.ne_zero_of_lt enough)
      have here := wrote.string string outside
      have leaves : vsprintfTurn args ⟨strStart, left⟩ sprint =
          .returned (.leave ⟨strStart, left⟩) sprint := by
        rw [vsprintfTurn, strchr_absent here (by decide) plainText]
        rfl
      refine ⟨_, ?_, wrote.store destination text room,
        (tail.store text (wrote.fits destination room)).iff ?_⟩
      · rw [vsprintfLoop, loop_leave leaves, Outcome.returned_andThen,
          wrote.storeString_eq destination string outside room]
        rfl
      · rw [or_iff_left (not_sealed plainText)]
  | unknown _ _ => cases finished
  | @directive before after shown out ap next value ending first fetched shows _
      inductionHypothesis =>
      obtain ⟨turns, rfl⟩ := Nat.exists_eq_succ_of_ne_zero (Nat.ne_zero_of_lt enough)
      simp only [List.length_append] at room
      obtain ⟨last, stored, again, behind, wrote', tail'⟩ := vsprintfTurn_tail texts destination
        string first outside fetched shows wrote tail
        (by simp only [List.length_append]; omega)
      have fewer := scan_tail_length before after
      obtain ⟨final, further, wrote'', tail''⟩ := inductionHypothesis finished behind.string
        (behind.outside outside (Nat.le_of_lt fewer)) wrote' tail'
        (by simp only [List.length_append]; omega) (show _ < turns by omega)
      refine ⟨final, ?_, ?_, tail''.iff ?_⟩
      · rw [vsprintfLoop, loop_again again, ← vsprintfLoop]
        exact further
      · simpa only [List.append_assoc] using wrote''
      · rw [sealed_iff first, fetched]
        simp

end Turns

/-- What `vsprintf` writes of a format that does not panic is a string exactly when the format
is sealed or a zero stood behind the destination's text already: `strcpy`, which it ends with,
stores no terminator. -/
theorem vsprintf_terminates_iff {format ap str left : UInt32} {args memory : Memory}
    {text : List UInt8} {size : Nat} {console : Console} (string : CString memory format text)
    (strings : ∀ ptr, TakesString args text ap ptr →
      ptr = 0 ∨ ∃ bytes, CString memory ptr bytes ∧ Outside str size ptr bytes.length)
    (prints : vprintf format ap args ⟨memory, []⟩ = .returned left console)
    (room : console.out.length ≤ size) (destination : Destination str size)
    (outside : Outside str size format text.length) :
    ∃ final, vsprintf str format ap args memory = .returned left final ∧
      (final.memory (str.toNat + console.out.length) = 0 ↔
        Sealed args memory text ap ∨ memory (str.toNat + console.out.length) = 0) ∧
      ((∀ c ∈ console.out, c ≠ 0) → (CString final.memory str console.out ↔
        Sealed args memory text ap ∨ memory (str.toNat + console.out.length) = 0)) := by
  obtain ⟨out, ending, renders, printed⟩ := vprintf_renders string strings
  obtain ⟨finished, rfl⟩ : ending = .finished left ∧ console = ⟨memory, out⟩ := by
    rw [prints] at printed
    cases ending with
    | finished ap =>
        cases printed
        exact ⟨rfl, rfl⟩
    | unknown => cases printed
  obtain ⟨final, ran, wrote, tail⟩ := vsprintfLoop_tail renders finished (fun _ _ there => there)
    destination string outside (wrote_nothing memory str size) (tail_nothing memory str)
    (by rw [List.length_nil, Nat.zero_add]; exact room) string.length_lt
  rw [List.nil_append] at wrote
  have cursor := wrote.cursor
  have behind : final.memory (str.toNat + out.length) = 0 ↔
      Sealed args memory text ap ∨ memory (str.toNat + out.length) = 0 := by
    rw [← cursor]
    by_cases isSealed : Sealed args memory text ap
    · exact iff_of_true (tail.closes (Or.inr isSealed)) (Or.inl isSealed)
    · rw [tail.opens (fun either => either.elim And.left isSealed), or_iff_right isSealed]
  refine ⟨final, ran, behind, fun characters => ?_⟩
  rw [← behind]
  have fits : str.toNat + out.length < 2 ^ 32 := cursor ▸ final.str.toNat_lt
  constructor
  · intro written
    have ends := written.terminator
    rwa [← wrote.str_eq destination, cursor] at ends
  · exact CString.of_loadBytes destination.nonNull characters fits wrote.bytes

/-- A format at 0x1000, in a memory of other bytes than zeros. -/
def filledMemory (text : List UInt8) : Memory :=
  Memory.storeBytes (fun _ => 0x78) 0x1000 (text ++ [0])

/-- "%c" of 'A' is sealed. -/
theorem vsprintf_terminates_iff_character :
    ∃ final, vsprintf 0x3000 0x1000 0x100 (wordArgs 0x41) (filledMemory [percent, 0x63]) =
        .returned 0x104 final ∧
      CString final.memory 0x3000 [0x41] := by
  have string : CString (filledMemory [percent, 0x63]) 0x1000 [percent, 0x63] := by
    decide +kernel
  have fetched : fetchValue (scan [0x63]).1 (wordArgs 0x41) 0x100 = some (.char 0x41, 0x104) := by
    decide +kernel
  have plainText : percent ∉ ([] : List UInt8) := List.not_mem_nil
  have isSealed : Sealed (wordArgs 0x41) (filledMemory [percent, 0x63]) [percent, 0x63] 0x100 :=
    .last plainText fetched trivial rfl
  have strings : ∀ ptr, TakesString (wordArgs 0x41) [percent, 0x63] 0x100 ptr →
      ptr = 0 ∨ ∃ bytes, CString (filledMemory [percent, 0x63]) ptr bytes ∧
        Outside 0x3000 1 ptr bytes.length := by
    intro ptr takes
    obtain ⟨value, next, fetched', rfl | later⟩ := (takesString_iff plainText).mp takes
    · cases fetched.symm.trans fetched'
    · exact absurd later (not_takesString (by decide))
  have prints : vprintf 0x1000 0x100 (wordArgs 0x41) ⟨filledMemory [percent, 0x63], []⟩ =
      .returned 0x104 ⟨filledMemory [percent, 0x63], [0x41]⟩ :=
    vprintfLoop_renders (.directive plainText fetched rfl (.plain plainText)) (fun _ _ there => there) string
      (by decide)
  obtain ⟨final, ran, _, written⟩ := vsprintf_terminates_iff string strings prints
    (show 1 ≤ 1 by decide) ⟨by decide, by decide⟩ (Or.inl (by decide))
  exact ⟨final, ran, (written (List.forall_mem_singleton.mpr (by decide))).mpr (Or.inl isSealed)⟩

/-- The format "a" puts one character in front of what stood in the destination. -/
theorem vsprintf_leaves_no_terminator :
    ∃ console final, vprintf 0x1000 0x100 (fun _ => 0) ⟨filledMemory [0x61], []⟩ =
        .returned 0x100 console ∧ console.out = [0x61] ∧
      vsprintf 0x3000 0x1000 0x100 (fun _ => 0) (filledMemory [0x61]) = .returned 0x100 final ∧
      ¬ CString final.memory 0x3000 console.out := by
  have string : CString (filledMemory [0x61]) 0x1000 [0x61] := by decide +kernel
  have prints : vprintf 0x1000 0x100 (fun _ => 0) ⟨filledMemory [0x61], []⟩ =
      .returned 0x100 ⟨filledMemory [0x61], [0x61]⟩ :=
    @vprintfLoop_renders (fun _ _ => False) _ _ _ _ [] _ _ _ _ (.plain (by decide))
      (fun _ _ there => there.elim) string (by decide)
  have copies : (vsprintf 0x3000 0x1000 0x100 (fun _ => 0) (filledMemory [0x61])).passes
      (fun left final => left == 0x100 && final.memory 0x3001 == 0x78) = true := by
    decide +kernel
  obtain ⟨left, final, ran, checked⟩ := Outcome.exists_of_passes copies
  rw [Bool.and_eq_true, beq_iff_eq, beq_iff_eq] at checked
  obtain ⟨rfl, behind⟩ := checked
  refine ⟨_, final, prints, rfl, ran, fun written => ?_⟩
  have ends : final.memory 0x3001 = 0 := written.2.2.2.2
  exact absurd (behind.symm.trans ends) (by decide)

end Bootloader.Libc
