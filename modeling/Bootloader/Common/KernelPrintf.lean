import Bootloader.Common.Itoa
import Bootloader.Common.KernelScreen

/-!
# The example kernel's own `printf`

`printf` of the example kernel knows `%d`, `%u`, `%x` and `%s`, and prints what is passed for any
other directive as a character. `kernelPrintf_prints` says what a call shows on the screen: the
text of its format, piece by piece, as `putchar` would show it, and nothing else in memory
changes but the buffer that numbers are written to.
-/

namespace Bootloader.Common

open Bootloader.Std Bootloader.Libc

/-- `'%'`. -/
def kernelPercent : UInt8 := 0x25

/-- `'s'`. -/
def letterS : UInt8 := 0x73

/-- The letters of the directives that print a number: `'d'`, `'u'` and `'x'`. -/
def numberLetters : List UInt8 := [0x64, 0x75, 0x78]

/-- A call that knows nothing of the screen. -/
def onMemory (call : Memory → Outcome Memory Unit) (screen : KernelScreen) :
    Outcome KernelScreen Unit :=
  match call screen.memory with
  | .returned value memory => .returned value { screen with memory }
  | .panicked reason memory => .panicked reason { screen with memory }
  | .diverged memory => .diverged { screen with memory }

/-- The variables of the loop in `printf`. -/
structure KernelPrintfCursor where
  format : UInt32
  arg : UInt32

/-- What stands behind the label `string` in `printf`. -/
def kernelString (p : UInt32) (screen : KernelScreen) : Outcome KernelScreen Unit :=
  loop kernelStringTurn stringTurns p screen

/-- The `switch` in `printf`, behind a `'%'`: the letter is the one at the cursor. -/
def kernelDirective (buf nullText : UInt32) (cursor : KernelPrintfCursor) (screen : KernelScreen) :
    Outcome KernelScreen Unit :=
  let c := screen.memory cursor.format.toNat
  let word := screen.memory.load32 cursor.arg.toNat
  if c ∈ numberLetters then
    (onMemory (itoa buf (kernelChar c) word.toInt32) screen).andThen fun _ screen =>
      kernelString buf screen
  else if c = letterS then kernelString (if word = 0 then nullText else word) screen
  else
    -- The end of the format is no exception: behind a last '%' the loop misses the terminator.
    .returned () (kernelPutchar screen word.toInt32)

/-- One turn of the loop in `printf`. -/
def kernelPrintfTurn (buf nullText : UInt32) (cursor : KernelPrintfCursor) (screen : KernelScreen) :
    Outcome KernelScreen (Turn KernelPrintfCursor Unit) :=
  let c := screen.memory cursor.format.toNat
  if c = 0 then .returned (.leave ()) screen
  else if c ≠ kernelPercent then
    .returned (.again { cursor with format := cursor.format + 1 }) (kernelPutchar screen (kernelChar c))
  else
    (kernelDirective buf nullText { cursor with format := cursor.format + 1 } screen).andThen
      fun _ screen => .returned (.again ⟨cursor.format + 1 + 1, cursor.arg + 4⟩) screen

/-- `printf`, with its buffer and the text `"(null)"` where the compiler has put them, and the
first argument behind the format. -/
def kernelPrintf (buf nullText format arg : UInt32) (screen : KernelScreen) :
    Outcome KernelScreen Unit :=
  loop (kernelPrintfTurn buf nullText) stringTurns ⟨format, arg⟩ screen

/-- A piece of a format with what is passed for it. A directive that `printf` does not know prints
what is passed as a character. -/
inductive KernelPiece where
  | plain (c : UInt8)
  | number (letter : UInt8) (word : UInt32)
  | string (word : UInt32) (bytes : List UInt8)
  | other (letter : UInt8) (word : UInt32)

namespace KernelPiece

/-- How the piece is written in the format. -/
def format : KernelPiece → List UInt8
  | plain c => [c]
  | number letter _ => [kernelPercent, letter]
  | string _ _ => [kernelPercent, letterS]
  | other letter _ => [kernelPercent, letter]

/-- What is passed for the piece. -/
def args : KernelPiece → List UInt32
  | plain _ => []
  | number _ word => [word]
  | string word _ => [word]
  | other _ word => [word]

/-- What the piece is printed as. -/
def text : KernelPiece → List Int32
  | plain c => [kernelChar c]
  | number letter word => (kernelNumber (kernelChar letter) word.toInt32).map kernelChar
  | string _ bytes => bytes.map kernelChar
  | other _ word => [word.toInt32]

/-- The piece is read as it is meant. -/
def Legible : KernelPiece → Prop
  | plain c => c ≠ kernelPercent
  | number letter _ => letter ∈ numberLetters
  | string _ _ => True
  | other letter _ => letter ∉ numberLetters ∧ letter ≠ letterS

end KernelPiece

/-- A place for the twenty bytes of the buffer. -/
structure PrintfBuffer (buf : UInt32) : Prop where
  valid : buf ≠ 0
  fits : buf.toNat + 20 ≤ 2 ^ 32
  off : ∀ place, buf.toNat ≤ place → place < buf.toNat + 20 → OffScreen place

/-- Everything but the buffer. -/
def OutsideBuffer (buf : UInt32) (place : Nat) : Prop := place < buf.toNat ∨ buf.toNat + 20 ≤ place

/-- An address that `printf` does not write to. -/
def PrintfKeeps (buf : UInt32) (place : Nat) : Prop := OffScreen place ∧ OutsideBuffer buf place

/-- A string that `printf` does not write to. -/
def KeptString (memory : Memory) (buf address : UInt32) (bytes : List UInt8) : Prop :=
  CString memory address bytes ∧ ∀ place, address.toNat ≤ place →
    place ≤ address.toNat + bytes.length → PrintfKeeps buf place

/-- Words that are passed from an address on, where `printf` does not write. -/
def Passed (memory : Memory) (buf : UInt32) : UInt32 → List UInt32 → Prop
  | _, [] => True
  | arg, word :: rest =>
      memory.load32 arg.toNat = word ∧
        (∀ place, arg.toNat ≤ place → place < arg.toNat + 4 → PrintfKeeps buf place) ∧
        Passed memory buf (arg + 4) rest

/-- The strings that are passed for a piece are there. -/
def KernelPiece.Held (memory : Memory) (buf nullText : UInt32) : KernelPiece → Prop
  | .string word bytes => KeptString memory buf (if word = 0 then nullText else word) bytes
  | .plain _ | .number _ _ | .other _ _ => True

/-- A screen while `printf` is at work: the cursor is on it, and what `printf` reads is there. -/
structure KernelScreen.At (memory : Memory) (buf : UInt32) (screen : KernelScreen) : Prop
    extends screen.Inside where
  same : ∀ place, PrintfKeeps buf place → screen.memory place = memory place

section Printf

variable {memory : Memory} {buf nullText : UInt32} {screen other : KernelScreen}
  {cursor : KernelPrintfCursor} {piece : KernelPiece} {bytes : List UInt8}

/-- What has been printed keeps what `printf` reads. -/
theorem KernelScreen.At.puts (here : screen.At memory buf) (text : List Int32) :
    (kernelPuts text screen).At memory buf :=
  ⟨kernelPuts_inside here.toInside, fun place untouched =>
    (kernelPuts_frame here.toInside untouched.1).trans (here.same place untouched)⟩

theorem KernelScreen.At.alike (here : other.At memory buf)
    (alike : screen.Alike (OutsideBuffer buf) other) : screen.At memory buf := by
  obtain ⟨⟨left, right, top, bottom⟩, same⟩ := here
  obtain ⟨xpos, ypos, bytes⟩ := alike
  rw [← xpos] at left right
  rw [← ypos] at top bottom
  exact ⟨⟨left, right, top, bottom⟩, fun place untouched =>
    (bytes place untouched.2).trans (same place untouched)⟩

/-- A string is printed. -/
theorem kernelString_kept {p : UInt32} (here : screen.At memory buf)
    (kept : KeptString memory buf p bytes) :
    kernelString p screen = .returned () (kernelPuts (bytes.map kernelChar) screen) := by
  obtain ⟨string, untouched⟩ := kept
  have held : CString screen.memory p bytes :=
    string.congr fun place above below => here.same place (untouched place above below)
  exact kernelString_prints held here.toInside
    (fun place above below => (untouched place above below).1) stringTurns string.length_lt

/-- A word that is passed is read. -/
theorem KernelScreen.At.load32 {arg word : UInt32} {rest : List UInt32}
    (here : screen.At memory buf) (passed : Passed memory buf arg (word :: rest)) :
    screen.memory.load32 arg.toNat = word := by
  rw [← passed.1, Memory.load32, Memory.load32]
  refine congrArg UInt32.ofNat (Memory.loadLE_congr fun index within => ?_)
  exact here.same _ (passed.2.1 _ (by omega) (by omega))

/-- A number is written to the buffer and printed from it. -/
theorem number_prints (here : screen.At memory buf) (buffer : PrintfBuffer buf) (base d : Int32) :
    ∃ after, ((onMemory (itoa buf base d) screen).andThen fun _ screen =>
        kernelString buf screen) = .returned () after ∧
      after.Alike (OutsideBuffer buf) (kernelPuts ((kernelNumber base d).map kernelChar) screen) := by
  have fits := buffer.fits
  obtain ⟨written, ran, string, few, frame⟩ :=
    itoa_writes base d screen.memory buffer.valid (by omega)
  have alike : KernelScreen.Alike (OutsideBuffer buf) { screen with memory := written } screen := by
    refine ⟨rfl, rfl, fun place outside => frame place ?_⟩
    have outside : place < buf.toNat ∨ buf.toNat + 20 ≤ place := outside
    omega
  have moved : onMemory (itoa buf base d) screen =
      .returned () { screen with memory := written } := by
    rw [onMemory, ran]
  have inside : KernelScreen.Inside { screen with memory := written } :=
    ⟨here.left, here.right, here.top, here.bottom⟩
  have printed := @kernelString_prints { screen with memory := written } _ _ string inside
    (fun place above below => buffer.off place above (by omega)) stringTurns string.length_lt
  refine ⟨_, ?_, kernelPuts_alike alike⟩
  rw [moved, Outcome.returned_andThen, kernelString, printed]

theorem KeptString.next {address : UInt32} {c : UInt8}
    (kept : KeptString memory buf address (c :: bytes)) : KeptString memory buf (address + 1) bytes := by
  obtain ⟨string, untouched⟩ := kept
  have next := string.toNat_next
  refine ⟨string.2.2.2, fun place above below => untouched place (by omega) ?_⟩
  rw [List.length_cons]
  omega

/-- A character of a string is read. -/
theorem KernelScreen.At.head {address : UInt32} (here : screen.At memory buf)
    (kept : KeptString memory buf address bytes) :
    screen.memory address.toNat = bytes.headD 0 :=
  (here.same _ (kept.2 _ (Nat.le_refl _) (Nat.le_add_right _ _))).trans kept.1.head

/-- A directive prints what it stands for: the cases are those of the `switch`. -/
theorem kernelDirective_prints {word : UInt32} {letter : UInt8}
    (here : screen.At memory buf) (buffer : PrintfBuffer buf)
    (shape : piece.format = [kernelPercent, letter]) (passes : piece.args = [word])
    (legible : piece.Legible) (held : piece.Held memory buf nullText)
    (read : screen.memory cursor.format.toNat = letter)
    (found : screen.memory.load32 cursor.arg.toNat = word) :
    ∃ after, kernelDirective buf nullText cursor screen = .returned () after ∧
      after.Alike (OutsideBuffer buf) (kernelPuts piece.text screen) := by
  rw [kernelDirective, read, found]
  cases piece with
  | plain c => cases passes
  | number l w =>
      cases shape
      cases passes
      have number : letter ∈ numberLetters := legible
      rw [if_pos number]
      exact number_prints here buffer _ _
  | string w bytes =>
      cases shape
      cases passes
      rw [if_neg (by decide), if_pos rfl]
      exact ⟨_, kernelString_kept here held, KernelScreen.Alike.refl⟩
  | other l w =>
      cases shape
      cases passes
      rw [if_neg legible.1, if_neg legible.2]
      exact ⟨_, rfl, KernelScreen.Alike.refl⟩

/-- One turn prints one piece of the format. -/
theorem kernelPrintfTurn_prints {rest : List UInt8} {args : List UInt32}
    (here : screen.At memory buf) (buffer : PrintfBuffer buf)
    (kept : KeptString memory buf cursor.format (piece.format ++ rest))
    (passed : Passed memory buf cursor.arg (piece.args ++ args))
    (legible : piece.Legible) (held : piece.Held memory buf nullText) :
    ∃ next after, kernelPrintfTurn buf nullText cursor screen = .returned (.again next) after ∧
      KeptString memory buf next.format rest ∧ Passed memory buf next.arg args ∧
      after.Alike (OutsideBuffer buf) (kernelPuts piece.text screen) := by
  have directive : ∀ letter word, piece.format = [kernelPercent, letter] → piece.args = [word] →
      ∃ next after, kernelPrintfTurn buf nullText cursor screen = .returned (.again next) after ∧
        KeptString memory buf next.format rest ∧ Passed memory buf next.arg args ∧
        after.Alike (OutsideBuffer buf) (kernelPuts piece.text screen) := by
    intro letter word shape passes
    rw [shape] at kept
    rw [passes] at passed
    have percent : screen.memory cursor.format.toNat = kernelPercent := here.head kept
    have behind := kept.next
    obtain ⟨after, ran, alike⟩ := @kernelDirective_prints memory buf nullText screen
      { cursor with format := cursor.format + 1 } piece word letter here buffer shape passes
      legible held (here.head behind) (here.load32 passed)
    refine ⟨⟨cursor.format + 1 + 1, cursor.arg + 4⟩, after, ?_, behind.next, passed.2.2, alike⟩
    rw [kernelPrintfTurn, percent, if_neg (by decide), if_neg (not_not_intro rfl), ran,
      Outcome.returned_andThen]
  cases piece with
  | plain c =>
      have read : screen.memory cursor.format.toNat = c := here.head kept
      refine ⟨{ cursor with format := cursor.format + 1 }, kernelPutchar screen (kernelChar c), ?_,
        kept.next, passed, KernelScreen.Alike.refl⟩
      have plain : c ≠ kernelPercent := legible
      rw [kernelPrintfTurn, read, if_neg kept.1.2.1, if_pos plain]
  | number letter word => exact directive letter word rfl rfl
  | string word bytes => exact directive letterS word rfl rfl
  | other letter word => exact directive letter word rfl rfl

theorem KernelPiece.format_ne_nil (piece : KernelPiece) : 0 < piece.format.length := by
  cases piece <;> exact Nat.succ_pos _

/-- The loop of `printf`: the induction is over the pieces that are left. -/
theorem kernelPrintf_loop {pieces : List KernelPiece} (here : screen.At memory buf)
    (buffer : PrintfBuffer buf)
    (kept : KeptString memory buf cursor.format (pieces.flatMap KernelPiece.format))
    (passed : Passed memory buf cursor.arg (pieces.flatMap KernelPiece.args))
    (legible : ∀ piece ∈ pieces, piece.Legible)
    (held : ∀ piece ∈ pieces, piece.Held memory buf nullText) (turns : Nat)
    (enough : (pieces.flatMap KernelPiece.format).length < turns) :
    ∃ after, loop (kernelPrintfTurn buf nullText) turns cursor screen = .returned () after ∧
      after.Alike (OutsideBuffer buf) (kernelPuts (pieces.flatMap KernelPiece.text) screen) := by
  induction pieces generalizing cursor screen turns with
  | nil =>
      obtain ⟨turns, rfl⟩ := Nat.exists_eq_succ_of_ne_zero (Nat.ne_zero_of_lt enough)
      have terminator : screen.memory cursor.format.toNat = 0 := here.head kept
      refine ⟨screen, loop_leave ?_, KernelScreen.Alike.refl⟩
      rw [kernelPrintfTurn, terminator, if_pos rfl]
  | cons piece pieces inductionHypothesis =>
      obtain ⟨turns, rfl⟩ := Nat.exists_eq_succ_of_ne_zero (Nat.ne_zero_of_lt enough)
      rw [List.flatMap_cons] at kept passed enough
      rw [List.length_append] at enough
      have nonempty := piece.format_ne_nil
      obtain ⟨next, middle, turn, kept, passed, alike⟩ := kernelPrintfTurn_prints here buffer
        kept passed (legible piece List.mem_cons_self) (held piece List.mem_cons_self)
      obtain ⟨after, ran, like⟩ := inductionHypothesis ((here.puts piece.text).alike alike) kept
        passed (fun other member => legible other (List.mem_cons_of_mem _ member))
        (fun other member => held other (List.mem_cons_of_mem _ member)) turns (by omega)
      refine ⟨after, (loop_again turn).trans ran, like.trans ?_⟩
      rw [List.flatMap_cons, kernelPuts_append]
      exact kernelPuts_alike alike

/-- What `printf` shows: its format with the numbers and strings in it, as `putchar` would show
it. The cursor stays on the screen, and but for the buffer nothing else in memory changes. -/
theorem kernelPrintf_prints {format arg : UInt32} {pieces : List KernelPiece}
    (inside : screen.Inside) (buffer : PrintfBuffer buf)
    (kept : KeptString screen.memory buf format (pieces.flatMap KernelPiece.format))
    (passed : Passed screen.memory buf arg (pieces.flatMap KernelPiece.args))
    (legible : ∀ piece ∈ pieces, piece.Legible)
    (held : ∀ piece ∈ pieces, piece.Held screen.memory buf nullText) :
    ∃ after, kernelPrintf buf nullText format arg screen = .returned () after ∧
      after.Alike (OutsideBuffer buf) (kernelPuts (pieces.flatMap KernelPiece.text) screen) ∧
      after.Inside ∧ ∀ place, PrintfKeeps buf place → after.memory place = screen.memory place := by
  have here : screen.At screen.memory buf := ⟨inside, fun _ _ => rfl⟩
  obtain ⟨after, ran, alike⟩ := @kernelPrintf_loop screen.memory buf nullText screen ⟨format, arg⟩
    pieces here buffer kept passed legible held stringTurns kept.1.length_lt
  have there := (here.puts (pieces.flatMap KernelPiece.text)).alike alike
  exact ⟨after, ran, alike, there.toInside, there.same⟩

end Printf

/-- Memory with the format `"%d\n%s"` and the text `"(null)"` in it, and with ninety below zero
and a null pointer as the arguments. -/
def exampleKernelMemory : Memory :=
  Memory.storeBytes (Memory.storeBytes (Memory.storeBytes (fun _ => 0) 0x100000
    [0x25, 0x64, 0x0a, 0x25, 0x73]) 0x100010 [0x28, 0x6e, 0x75, 0x6c, 0x6c, 0x29]) 0x9000
      [0xa6, 0xff, 0xff, 0xff]

/-- The pieces of that format. -/
def exampleKernelPieces : List KernelPiece :=
  [.number 0x64 0xffffffa6, .plain 0x0a, .string 0 [0x28, 0x6e, 0x75, 0x6c, 0x6c, 0x29]]

theorem printfKeeps_example {low high : Nat} (apart : high < 0x9100 ∨ 0x100000 ≤ low) :
    ∀ place, low ≤ place → place ≤ high → PrintfKeeps 0x9100 place := by
  have buf : (0x9100 : UInt32).toNat = 0x9100 := rfl
  intro place above below
  rw [PrintfKeeps, OffScreen, OutsideBuffer, buf]
  omega

theorem kernelPrintf_prints_null : ∃ after,
    kernelPrintf 0x9100 0x100010 0x100000 0x9000 ⟨0, 0, exampleKernelMemory⟩ = .returned () after ∧
      after.Alike (OutsideBuffer 0x9100)
        (kernelPuts (exampleKernelPieces.flatMap KernelPiece.text) ⟨0, 0, exampleKernelMemory⟩) ∧
      after.Inside ∧
      ∀ place, PrintfKeeps 0x9100 place → after.memory place = exampleKernelMemory place := by
  have format : KeptString exampleKernelMemory 0x9100 0x100000
      (exampleKernelPieces.flatMap KernelPiece.format) :=
    ⟨by decide, printfKeeps_example (.inr (by decide))⟩
  have null : KeptString exampleKernelMemory 0x9100 0x100010 [0x28, 0x6e, 0x75, 0x6c, 0x6c, 0x29] :=
    ⟨by decide, printfKeeps_example (.inr (by decide))⟩
  have passed : Passed exampleKernelMemory 0x9100 0x9000
      (exampleKernelPieces.flatMap KernelPiece.args) :=
    ⟨by decide, fun place above below => printfKeeps_example (.inl (by decide)) place above
        (Nat.le_of_lt_succ below),
      by decide, fun place above below => printfKeeps_example (.inl (by decide)) place above
        (Nat.le_of_lt_succ below), trivial⟩
  have inside : KernelScreen.Inside ⟨0, 0, exampleKernelMemory⟩ :=
    ⟨Int.le_refl 0, (by decide : (0 : Int) < 80), Int.le_refl 0, (by decide : (0 : Int) < 24)⟩
  have buffer : PrintfBuffer 0x9100 := by
    have buf : (0x9100 : UInt32).toNat = 0x9100 := rfl
    exact ⟨by decide, by decide, fun place _ below => .inl (by omega)⟩
  refine kernelPrintf_prints inside buffer format passed ?_ ?_
  · simp only [exampleKernelPieces, List.forall_mem_cons, List.not_mem_nil, false_implies,
      implies_true, and_true]
    exact ⟨(by decide : (0x64 : UInt8) ∈ numberLetters), (by decide : (0x0a : UInt8) ≠ kernelPercent),
      trivial⟩
  · simp only [exampleKernelPieces, List.forall_mem_cons, List.not_mem_nil, false_implies,
      implies_true, and_true]
    exact ⟨trivial, trivial, null⟩

end Bootloader.Common
