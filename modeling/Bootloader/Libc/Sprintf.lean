import Bootloader.Libc.Printf

/-!
# `vsprintf`

`vsprintf` copies where `vprintf` prints, and stores terminators on its way that the
next bytes overwrite. `Wrote` is what its copies have in common: behind the start of
the destination stand the bytes so far, and nothing outside it has changed.
-/

namespace Bootloader.Libc

open Bootloader.Std

/-- Memory, and the cursor `str`. -/
structure Sprint where
  memory : Memory
  str : UInt32

/-- `*(str++) = c`. -/
def storeChar (c : UInt8) (sprint : Sprint) : Sprint :=
  { memory := sprint.memory.store8 sprint.str.toNat c, str := sprint.str + 1 }

/-- `*str = '\0'`. -/
def terminate (sprint : Sprint) : Sprint :=
  { sprint with memory := sprint.memory.store8 sprint.str.toNat 0 }

/-- `strcpy` of a constant, or of the buffer of a number. -/
def storeText : List UInt8 → Sprint → Sprint
  | [], sprint => sprint
  | c :: rest, sprint => storeText rest (storeChar c sprint)

/-- The zeros in front of a number. -/
def storeZeros : Nat → Sprint → Sprint
  | 0, sprint => sprint
  | count + 1, sprint => storeZeros count (storeChar digitZero sprint)

/-- `str = strcpy(str, src)`. -/
def storeString (src : UInt32) (sprint : Sprint) : Outcome Sprint Unit :=
  ((strcpy sprint.str src sprint.memory).within ({ sprint with memory := · })).andThen
    fun str sprint => .returned () { sprint with str := str }

/-- `str = strcpydelim(str, src, delim)`. -/
def storeDelim (src : UInt32) (delim : UInt8) (sprint : Sprint) : Outcome Sprint Unit :=
  ((strcpydelim sprint.str src delim sprint.memory).within ({ sprint with memory := · })).andThen
    fun str sprint => .returned () { sprint with str := str }

/-- The second switch of `vsprintf`. -/
def storeValue (directive : Directive) : Value → Sprint → Outcome Sprint Unit
  | .char c, sprint => .returned () (terminate (storeChar c sprint))
  | .string ptr, sprint =>
      if ptr = 0 then .returned () (storeText nullText sprint) else storeString ptr sprint
  | .number digits, sprint =>
      let sprint :=
        if directive.flagZerofill then
          terminate (storeZeros (nbzeros directive digits) sprint)
        else sprint
      .returned () (storeText digits sprint)
  | .percent, sprint => .returned () (terminate (storeChar percent sprint))

/-- One turn of the loop in `vsprintf`. -/
def vsprintfTurn (args : Memory) (cursor : FormatCursor) (sprint : Sprint) :
    Outcome Sprint (Turn FormatCursor FormatCursor) :=
  ((strchr cursor.strStart percent sprint.memory).within ({ sprint with memory := · })).andThen
    fun mark sprint =>
      if mark = 0 then .returned (.leave cursor) sprint
      else
        ((readDirective mark sprint.memory).within ({ sprint with memory := · })).andThen
          fun read sprint =>
            match fetchValue read.1 args cursor.ap with
            | none => .panicked unknownSymbol sprint
            | some (value, ap) =>
                (storeDelim cursor.strStart percent sprint).andThen fun _ sprint =>
                  (storeValue read.1 value (storeText (baseText read.1) sprint)).andThen
                    fun _ sprint => .returned (.again ⟨read.2 + 1, ap⟩) sprint

/-- The loop of `vsprintf`, and what it copies after it. -/
def vsprintfLoop (turns : Nat) (args : Memory) (cursor : FormatCursor) (sprint : Sprint) :
    Outcome Sprint UInt32 :=
  (loop (vsprintfTurn args) turns cursor sprint).andThen fun cursor sprint =>
    (storeString cursor.strStart sprint).andThen fun _ sprint => .returned cursor.ap sprint

/-- `vsprintf`, with the arguments from `ap` on in a memory of their own: the arguments
left over. -/
def vsprintf (str format ap : UInt32) (args memory : Memory) : Outcome Sprint UInt32 :=
  vsprintfLoop stringTurns args ⟨format, ap⟩ ⟨memory, str⟩

/-- The bytes between the start of the destination and the cursor. -/
def Sprint.written (sprint : Sprint) (start : UInt32) : List UInt8 :=
  sprint.memory.loadBytes start.toNat (sprint.str.toNat - start.toNat)

/-- A destination that is not NULL, with room for `size` bytes and a terminator. -/
structure Destination (start : UInt32) (size : Nat) : Prop where
  nonNull : start ≠ 0
  fits : start.toNat + size < 2 ^ 32

/-- A string of this length lies outside the destination. -/
def Outside (start : UInt32) (size : Nat) (address : UInt32) (length : Nat) : Prop :=
  address.toNat + length < start.toNat ∨ start.toNat + size < address.toNat

/-- After these bytes. -/
structure Wrote (start : UInt32) (size : Nat) (memory : Memory) (out : List UInt8)
    (sprint : Sprint) : Prop where
  room : out.length ≤ size
  cursor : sprint.str.toNat = start.toNat + out.length
  bytes : sprint.memory.loadBytes start.toNat out.length = out
  frame : ∀ place, place < start.toNat ∨ start.toNat + size < place →
    sprint.memory place = memory place

section Writes

variable {start : UInt32} {size : Nat} {memory : Memory} {out bytes : List UInt8}
  {sprint : Sprint} {c : UInt8} {address : UInt32}

theorem wrote_nothing (memory : Memory) (start : UInt32) (size : Nat) :
    Wrote start size memory [] ⟨memory, start⟩ :=
  ⟨Nat.zero_le _, rfl, rfl, fun _ _ => rfl⟩

theorem Wrote.written (wrote : Wrote start size memory out sprint) :
    sprint.written start = out := by
  rw [Sprint.written, wrote.cursor, Nat.add_sub_cancel_left]
  exact wrote.bytes

/-- The cursor is no NULL pointer. -/
theorem Wrote.valid (destination : Destination start size)
    (wrote : Wrote start size memory out sprint) : sprint.str ≠ 0 := by
  have nonNull := destination.nonNull
  have cursor := wrote.cursor
  rw [ne_eq, ← UInt32.toNat_inj, UInt32.toNat_zero] at nonNull ⊢
  omega

/-- The cursor is the start, advanced by the bytes so far. -/
theorem Wrote.str_eq (destination : Destination start size)
    (wrote : Wrote start size memory out sprint) :
    sprint.str = start + UInt32.ofNat out.length := by
  have fits := destination.fits
  have room := wrote.room
  apply UInt32.toNat_inj.mp
  rw [wrote.cursor, toNat_offset (by omega)]

/-- A string outside the destination is still there. -/
theorem Wrote.string (wrote : Wrote start size memory out sprint)
    (string : CString memory address bytes) (outside : Outside start size address bytes.length) :
    CString sprint.memory address bytes := by
  apply string.congr
  intro place above below
  apply wrote.frame
  unfold Outside at outside
  omega

/-- Bytes stored at the cursor. -/
theorem Wrote.store (destination : Destination start size)
    (wrote : Wrote start size memory out sprint) (bytes : List UInt8)
    (room : out.length + bytes.length ≤ size) :
    Wrote start size memory (out ++ bytes)
      ⟨sprint.memory.storeBytes sprint.str.toNat bytes,
        sprint.str + UInt32.ofNat bytes.length⟩ := by
  have cursor := wrote.cursor
  have fits := destination.fits
  refine ⟨?_, ?_, ?_, ?_⟩
  · rw [List.length_append]
    exact room
  · rw [List.length_append, toNat_offset (by omega), cursor, Nat.add_assoc]
  · have kept : (sprint.memory.storeBytes sprint.str.toNat bytes).loadBytes start.toNat
        out.length = out := by
      refine (Memory.loadBytes_congr fun place above below => ?_).trans wrote.bytes
      exact Memory.storeBytes_outside (by omega)
    have added : (sprint.memory.storeBytes sprint.str.toNat bytes).loadBytes
        (start.toNat + out.length) bytes.length = bytes := by
      rw [← cursor]
      exact Memory.loadBytes_storeBytes
    rw [List.length_append, Memory.loadBytes_append, kept, added]
  · intro place outside
    exact (Memory.storeBytes_outside (by omega)).trans (wrote.frame place outside)

/-- A terminator stored at the cursor counts for nothing. -/
theorem Wrote.terminate (wrote : Wrote start size memory out sprint) :
    Wrote start size memory out (terminate sprint) := by
  have cursor := wrote.cursor
  have room := wrote.room
  refine ⟨room, cursor, ?_, ?_⟩
  · refine (Memory.loadBytes_congr fun place above below => ?_).trans wrote.bytes
    exact Memory.store8_of_ne (by omega)
  · intro place outside
    rw [← wrote.frame place outside]
    exact Memory.store8_of_ne (by omega)

theorem Wrote.storeChar (destination : Destination start size)
    (wrote : Wrote start size memory out sprint) (c : UInt8) (room : out.length + 1 ≤ size) :
    Wrote start size memory (out ++ [c]) (storeChar c sprint) :=
  wrote.store destination [c] room

theorem Wrote.storeText (destination : Destination start size)
    (wrote : Wrote start size memory out sprint) (text : List UInt8)
    (room : out.length + text.length ≤ size) :
    Wrote start size memory (out ++ text) (storeText text sprint) := by
  induction text generalizing out sprint with
  | nil =>
      rw [List.append_nil]
      exact wrote
  | cons c rest inductionHypothesis =>
      rw [List.length_cons] at room
      have further := inductionHypothesis (wrote.storeChar destination c (by omega))
        (by rw [List.length_append, List.length_singleton]; omega)
      rwa [List.append_assoc, List.singleton_append] at further

theorem Wrote.storeZeros (destination : Destination start size)
    (wrote : Wrote start size memory out sprint) (count : Nat)
    (room : out.length + count ≤ size) :
    Wrote start size memory (out ++ List.replicate count digitZero)
      (storeZeros count sprint) := by
  induction count generalizing out sprint with
  | zero =>
      rw [List.replicate_zero, List.append_nil]
      exact wrote
  | succ count inductionHypothesis =>
      have further := inductionHypothesis (wrote.storeChar destination digitZero (by omega))
        (by rw [List.length_append, List.length_singleton]; omega)
      rwa [List.append_assoc, List.singleton_append, ← List.replicate_succ] at further

/-- What copying a string to the cursor stores. -/
theorem Wrote.storeString_eq (destination : Destination start size)
    (wrote : Wrote start size memory out sprint) (string : CString memory address bytes)
    (outside : Outside start size address bytes.length)
    (room : out.length + bytes.length ≤ size) :
    storeString address sprint = .returned ()
      ⟨sprint.memory.storeBytes sprint.str.toNat bytes,
        sprint.str + UInt32.ofNat bytes.length⟩ := by
  have cursor := wrote.cursor
  have fits := destination.fits
  have copied := strcpy_eq (wrote.string string outside) (wrote.valid destination) (by omega)
    (by unfold Outside at outside; omega)
  rw [Libc.storeString, copied]
  rfl

/-- A string copied to the cursor. -/
theorem Wrote.storeString (destination : Destination start size)
    (wrote : Wrote start size memory out sprint) (string : CString memory address bytes)
    (outside : Outside start size address bytes.length)
    (room : out.length + bytes.length ≤ size) :
    ∃ final, storeString address sprint = .returned () final ∧
      Wrote start size memory (out ++ bytes) final :=
  ⟨_, wrote.storeString_eq destination string outside room, wrote.store destination bytes room⟩

/-- What copying a string up to a delimiter to the cursor stores. -/
theorem Wrote.storeDelim_eq {before after : List UInt8} {delim : UInt8}
    (destination : Destination start size) (wrote : Wrote start size memory out sprint)
    (string : CString memory address (before ++ delim :: after)) (first : delim ∉ before)
    (outside : Outside start size address (before ++ delim :: after).length)
    (room : out.length + before.length ≤ size) :
    storeDelim address delim sprint = .returned ()
      (Libc.terminate ⟨sprint.memory.storeBytes sprint.str.toNat before,
        sprint.str + UInt32.ofNat before.length⟩) := by
  have cursor := wrote.cursor
  have fits := destination.fits
  have copied := strcpydelim_eq (wrote.string string outside) first (wrote.valid destination)
    (by omega) (by unfold Outside at outside; omega)
  rw [Libc.storeDelim, copied, Libc.terminate, toNat_offset (by omega)]
  rfl

/-- A string copied to the cursor, up to a delimiter. -/
theorem Wrote.storeDelim {before after : List UInt8} {delim : UInt8}
    (destination : Destination start size) (wrote : Wrote start size memory out sprint)
    (string : CString memory address (before ++ delim :: after)) (first : delim ∉ before)
    (outside : Outside start size address (before ++ delim :: after).length)
    (room : out.length + before.length ≤ size) :
    ∃ final, storeDelim address delim sprint = .returned () final ∧
      Wrote start size memory (out ++ before) final :=
  ⟨_, wrote.storeDelim_eq destination string first outside room,
    (wrote.store destination before room).terminate⟩

/-- The zeros in front of a number, and the terminator behind them. -/
theorem Wrote.storeFill (destination : Destination start size)
    (wrote : Wrote start size memory out sprint) (directive : Directive) (digits : List UInt8)
    (room : out.length + nbzeros directive digits ≤ size) :
    Wrote start size memory (out ++ List.replicate (nbzeros directive digits) digitZero)
      (if directive.flagZerofill then
        Libc.terminate (Libc.storeZeros (nbzeros directive digits) sprint) else sprint) := by
  by_cases zerofill : directive.flagZerofill = true
  · rw [if_pos zerofill]
    exact (wrote.storeZeros destination _ room).terminate
  · rw [if_neg zerofill, nbzeros, if_neg zerofill, List.replicate_zero, List.append_nil]
    exact wrote

/-- A value is copied as it shows. -/
theorem Wrote.storeValue {Text : UInt32 → List UInt8 → Prop} {directive : Directive}
    {value : Value} {shown : List UInt8}
    (texts : ∀ ptr bytes, Text ptr bytes → ptr = 0 ∧ bytes = nullText ∨
      CString memory ptr bytes ∧ Outside start size ptr bytes.length)
    (shows : Shows Text directive value shown) (destination : Destination start size)
    (wrote : Wrote start size memory out sprint) (room : out.length + shown.length ≤ size) :
    ∃ final, storeValue directive value sprint = .returned () final ∧
      Wrote start size memory (out ++ shown) final := by
  cases value with
  | char c =>
      cases shows
      exact ⟨_, rfl, (wrote.storeChar destination c room).terminate⟩
  | string ptr =>
      rw [Libc.storeValue]
      rcases texts ptr shown shows with ⟨null, rfl⟩ | ⟨string, outside⟩
      · rw [if_pos null]
        exact ⟨_, rfl, wrote.storeText destination nullText room⟩
      · rw [if_neg string.ne_zero]
        exact wrote.storeString destination string outside room
  | number digits =>
      cases shows
      rw [List.length_append, List.length_replicate] at room
      refine ⟨_, rfl, ?_⟩
      have filled := wrote.storeFill destination directive digits (by omega)
      rw [← List.append_assoc]
      apply filled.storeText destination
      rw [List.length_append, List.length_replicate]
      omega
  | percent =>
      cases shows
      exact ⟨_, rfl, (wrote.storeChar destination percent room).terminate⟩

end Writes

/-- The rest of a string outside the destination is outside it too. -/
theorem Behind.outside {memory : Memory} {mark next start : UInt32} {text rest : List UInt8}
    {size : Nat} (behind : Behind memory mark text next rest)
    (outside : Outside start size mark text.length) (shorter : rest.length ≤ text.length) :
    Outside start size next rest.length := by
  have finish := behind.finish
  unfold Outside at outside ⊢
  omega

/-- The turn of a directive copies what is in front of it, the base and the value. -/
theorem vsprintfTurn_directive {Text : UInt32 → List UInt8 → Prop} {args memory : Memory}
    {before after shown copied : List UInt8} {start strStart ap next : UInt32} {size : Nat}
    {value : Value} {sprint : Sprint}
    (texts : ∀ ptr bytes, Text ptr bytes → ptr = 0 ∧ bytes = nullText ∨
      CString memory ptr bytes ∧ Outside start size ptr bytes.length)
    (destination : Destination start size)
    (string : CString memory strStart (before ++ percent :: after)) (first : percent ∉ before)
    (outside : Outside start size strStart (before ++ percent :: after).length)
    (fetched : fetchValue (scan after).1 args ap = some (value, next))
    (shows : Shows Text (scan after).1 value shown)
    (wrote : Wrote start size memory copied sprint)
    (room : copied.length + (before ++ (baseText (scan after).1 ++ shown)).length ≤ size) :
    ∃ last stored, vsprintfTurn args ⟨strStart, ap⟩ sprint =
        .returned (.again ⟨last, next⟩) stored ∧
      Behind memory strStart (before ++ percent :: after) last (scan after).2.tail ∧
      Wrote start size memory (copied ++ (before ++ (baseText (scan after).1 ++ shown)))
        stored := by
  obtain ⟨mark, last, found, valid, read, behind⟩ :=
    next_directive (wrote.string string outside) first
  obtain ⟨_, last', _, _, _, behind'⟩ := next_directive string first
  have here := behind (fetchValue_known fetched)
  have there := behind' (fetchValue_known fetched)
  -- The parser stops at the same place in the memory the copies have left.
  have same : last' + 1 = last + 1 := by
    apply UInt32.toNat_inj.mp
    have finish := here.finish
    have finish' := there.finish
    omega
  simp only [List.length_append] at room
  obtain ⟨middle, delimited, wrote₁⟩ :=
    wrote.storeDelim destination string first outside (by omega)
  have wrote₂ := wrote₁.storeText destination (baseText (scan after).1)
    (by rw [List.length_append]; omega)
  obtain ⟨stored, ran, wrote₃⟩ := wrote₂.storeValue texts shows destination
    (by rw [List.length_append, List.length_append]; omega)
  refine ⟨last + 1, stored, ?_, same ▸ there, ?_⟩
  · simp only [vsprintfTurn, found, Outcome.returned_within, Outcome.returned_andThen,
      if_neg valid, read, fetched, delimited, ran]
  · simpa only [List.append_assoc] using wrote₃

/-- `vsprintf` copies what its format stands for. -/
theorem vsprintfLoop_renders {Text : UInt32 → List UInt8 → Prop} {args memory : Memory}
    {text out copied : List UInt8} {start strStart ap : UInt32} {size turns : Nat}
    {ending : Ending} {sprint : Sprint} (renders : Renders Text args text ap out ending)
    (texts : ∀ ptr bytes, Text ptr bytes → ptr = 0 ∧ bytes = nullText ∨
      CString memory ptr bytes ∧ Outside start size ptr bytes.length)
    (destination : Destination start size) (string : CString memory strStart text)
    (outside : Outside start size strStart text.length)
    (wrote : Wrote start size memory copied sprint)
    (room : copied.length + out.length ≤ size) (enough : text.length < turns) :
    ∃ final, vsprintfLoop turns args ⟨strStart, ap⟩ sprint = ending.outcome final ∧
      Wrote start size memory (copied ++ out) final := by
  induction renders generalizing strStart copied sprint turns with
  | @plain text ap plainText =>
      obtain ⟨turns, rfl⟩ := Nat.exists_eq_succ_of_ne_zero (Nat.ne_zero_of_lt enough)
      have here := wrote.string string outside
      have left : vsprintfTurn args ⟨strStart, ap⟩ sprint =
          .returned (.leave ⟨strStart, ap⟩) sprint := by
        rw [vsprintfTurn, strchr_absent here (by decide) plainText]
        rfl
      obtain ⟨final, stored, wrote'⟩ := wrote.storeString destination string outside room
      refine ⟨final, ?_, wrote'⟩
      rw [vsprintfLoop, loop_leave left, Outcome.returned_andThen, stored]
      rfl
  | @unknown before after ap first letter =>
      obtain ⟨turns, rfl⟩ := Nat.exists_eq_succ_of_ne_zero (Nat.ne_zero_of_lt enough)
      obtain ⟨mark, last, found, valid, read, _⟩ :=
        next_directive (wrote.string string outside) first
      have panicked : vsprintfTurn args ⟨strStart, ap⟩ sprint =
          .panicked unknownSymbol sprint := by
        simp only [vsprintfTurn, found, Outcome.returned_within, Outcome.returned_andThen,
          if_neg valid, read, letter]
      refine ⟨sprint, ?_, ?_⟩
      · rw [vsprintfLoop, loop_panicked panicked]
        rfl
      · rw [List.append_nil]
        exact wrote
  | @directive before after shown out ap next value ending first fetched shows _
      inductionHypothesis =>
      obtain ⟨turns, rfl⟩ := Nat.exists_eq_succ_of_ne_zero (Nat.ne_zero_of_lt enough)
      simp only [List.length_append] at room
      obtain ⟨last, stored, again, behind, wrote'⟩ := vsprintfTurn_directive texts destination
        string first outside fetched shows wrote (by simp only [List.length_append]; omega)
      have fewer := scan_tail_length before after
      obtain ⟨final, further, wrote''⟩ := inductionHypothesis behind.string
        (behind.outside outside (Nat.le_of_lt fewer)) wrote'
        (by simp only [List.length_append]; omega) (show _ < turns by omega)
      refine ⟨final, ?_, ?_⟩
      · rw [vsprintfLoop, loop_again again, ← vsprintfLoop]
        exact further
      · simpa only [List.append_assoc] using wrote''

/-- What `vprintf` and `vsprintf` agree on: they finish behind the same arguments or
both panic at an unknown letter, and until then have put out the same bytes. -/
def Agree (start : UInt32) : Outcome Console UInt32 → Outcome Sprint UInt32 → Prop
  | .returned ap console, .returned ap' sprint => ap = ap' ∧ sprint.written start = console.out
  | .panicked reason console, .panicked reason' sprint =>
      reason = unknownSymbol ∧ reason' = unknownSymbol ∧ sprint.written start = console.out
  | _, _ => False

/-- A string argument is the NULL pointer or a string apart from the destination. -/
def ApartText (memory : Memory) (start : UInt32) (size : Nat) (ptr : UInt32)
    (bytes : List UInt8) : Prop :=
  ptr = 0 ∧ bytes = nullText ∨ CString memory ptr bytes ∧ Outside start size ptr bytes.length

/-- With such arguments a format stands for something, and `vprintf` prints it. -/
theorem vprintf_renders {format ap start : UInt32} {args memory : Memory} {text : List UInt8}
    {size : Nat} (string : CString memory format text)
    (strings : ∀ ptr, TakesString args text ap ptr →
      ptr = 0 ∨ ∃ bytes, CString memory ptr bytes ∧ Outside start size ptr bytes.length) :
    ∃ out ending, Renders (ApartText memory start size) args text ap out ending ∧
      vprintf format ap args ⟨memory, []⟩ = ending.outcome ⟨memory, out⟩ := by
  have somewhere : ∀ ptr, TakesString args text ap ptr →
      ∃ bytes, ApartText memory start size ptr bytes := by
    intro ptr takes
    rcases strings ptr takes with null | ⟨bytes, there⟩
    · exact ⟨nullText, Or.inl ⟨null, rfl⟩⟩
    · exact ⟨bytes, Or.inr there⟩
  obtain ⟨out, ending, renders⟩ := exists_renders text ap somewhere
  exact ⟨out, ending, renders,
    vprintfLoop_renders renders (fun _ _ there => there.imp_right And.left) string
      string.length_lt⟩

/-- `vsprintf` writes what `vprintf` prints, into a destination with room for it that is
apart from the format and its string arguments. -/
theorem vsprintf_agrees_vprintf {format ap str : UInt32} {args memory : Memory}
    {text : List UInt8} {size : Nat} (string : CString memory format text)
    (strings : ∀ ptr, TakesString args text ap ptr →
      ptr = 0 ∨ ∃ bytes, CString memory ptr bytes ∧ Outside str size ptr bytes.length)
    (printed : (vprintf format ap args ⟨memory, []⟩).state.out.length ≤ size)
    (destination : Destination str size) (outside : Outside str size format text.length) :
    Agree str (vprintf format ap args ⟨memory, []⟩) (vsprintf str format ap args memory) := by
  obtain ⟨out, ending, renders, prints⟩ := vprintf_renders string strings
  have room : out.length ≤ size := by
    rw [prints] at printed
    cases ending <;> exact printed
  obtain ⟨final, copies, wrote⟩ := vsprintfLoop_renders renders (fun _ _ there => there)
    destination string outside (wrote_nothing memory str size)
    (by rw [List.length_nil, Nat.zero_add]; exact room) string.length_lt
  rw [prints, vsprintf, copies]
  cases ending with
  | finished ap => exact ⟨rfl, wrote.written⟩
  | unknown => exact ⟨rfl, rfl, wrote.written⟩

section Example

/-- The format "%s!" at 0x1000 and the string "hi" at 0x2000. -/
def greetingMemory : Memory :=
  (Memory.storeBytes (fun _ => 0) 0x1000 [percent, 0x73, 0x21]).storeBytes 0x2000 [0x68, 0x69]

/-- A pointer to that string. -/
def greetingArgs : Memory := Memory.store32 (fun _ => 0) 0x100 0x2000

theorem vsprintf_agrees_vprintf_greeting :
    Agree 0x3000 (vprintf 0x1000 0x100 greetingArgs ⟨greetingMemory, []⟩)
      (vsprintf 0x3000 0x1000 0x100 greetingArgs greetingMemory) := by
  have format : CString greetingMemory 0x1000 [percent, 0x73, 0x21] := by decide +kernel
  have greeting : CString greetingMemory 0x2000 [0x68, 0x69] := by decide +kernel
  have fetched : fetchValue (scan [0x73, 0x21]).1 greetingArgs 0x100 =
      some (.string 0x2000, 0x104) := by decide +kernel
  have strings : ∀ ptr, TakesString greetingArgs [percent, 0x73, 0x21] 0x100 ptr →
      ptr = 0 ∨ ∃ bytes, CString greetingMemory ptr bytes ∧
        Outside 0x3000 3 ptr bytes.length := by
    intro ptr takes
    have plainText : percent ∉ ([] : List UInt8) := List.not_mem_nil
    obtain ⟨value, next, fetched', rfl | later⟩ := (takesString_iff plainText).mp takes
    · cases fetched.symm.trans fetched'
      exact Or.inr ⟨_, greeting, Or.inl (by decide)⟩
    · exact absurd later (not_takesString (by decide))
  exact vsprintf_agrees_vprintf format strings (by decide +kernel) ⟨by decide, by decide⟩
    (Or.inl (by decide))

end Example

end Bootloader.Libc
