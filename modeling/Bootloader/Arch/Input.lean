import Bootloader.Std.Trace
import Mathlib.Logic.Function.Iterate

/-!
# Reading the keyboard

The keyboard interrupt leaves a character in `driver_kbd_inputc` and raises
`driver_kbd_inputavailable`; `input_get_char` waits for the flag, copies the
character and lowers the flag, in three steps that the interrupt may come between.
`keystrokes_handed_over_iff` says which arrival loses a character.
-/

namespace Bootloader.Arch

open Bootloader.Std

/-- The variables the keyboard interrupt shares with the reader. -/
structure Mailbox where
  driverKbdInputc : UInt8
  driverKbdInputavailable : Bool
deriving DecidableEq, Repr

/-- What the keyboard interrupt does with a character. -/
def Mailbox.deliver (c : UInt8) (_ : Mailbox) : Mailbox where
  driverKbdInputc := c
  driverKbdInputavailable := true

/-- What `input_get_char` does next. -/
inductive ReaderPoint where
  /-- The software interrupt: wait for `driver_kbd_inputavailable`. -/
  | wait
  /-- `c = driver_kbd_inputc`. -/
  | copy
  /-- `driver_kbd_inputavailable = false`, and the return of the character copied. -/
  | clear (c : UInt8)
deriving DecidableEq, Repr

/-- The mailbox and the reader, which calls `input_get_char` over and over. The
rest is history: the characters typed, those returned so far, and whether the
last one typed has not been copied yet. -/
structure InputState where
  mailbox : Mailbox
  point : ReaderPoint
  typed : List UInt8
  returned : List UInt8
  uncopied : Bool
deriving DecidableEq, Repr

/-- Something that happens to the mailbox. -/
inductive InputEvent where
  | reader
  | keystroke (c : UInt8)
deriving DecidableEq, Repr

namespace InputState

/-- After `input_initialize`. -/
def inputInitialize : InputState where
  mailbox := ⟨0, false⟩
  point := .wait
  typed := []
  returned := []
  uncopied := false

/-- One step of `input_get_char`. -/
def getChar (state : InputState) : InputState :=
  match state.point with
  | .wait => if state.mailbox.driverKbdInputavailable then { state with point := .copy } else state
  | .copy =>
      { state with point := .clear state.mailbox.driverKbdInputc, uncopied := false }
  | .clear c =>
      { state with
        mailbox := { state.mailbox with driverKbdInputavailable := false }
        point := .wait
        returned := state.returned ++ [c] }

/-- The keyboard interrupt. -/
def keystroke (c : UInt8) (state : InputState) : InputState :=
  { state with
    mailbox := state.mailbox.deliver c
    typed := state.typed ++ [c]
    uncopied := true }

/-- The reader may take a step at any time, and a key may be hit once the
character before it has been copied. -/
inductive Step : InputState → InputEvent → InputState → Prop
  | reader (state : InputState) : Step state .reader state.getChar
  | keystroke {state : InputState} (c : UInt8) (copied : state.uncopied = false) :
      Step state (.keystroke c) (state.keystroke c)

/-- A key is hit between the copy and the clearing of the flag. -/
def Overrun (state : InputState) (event : InputEvent) : Prop :=
  (∃ c, state.point = .clear c) ∧ ∃ c, event = .keystroke c

/-- Left alone with what has been typed, the reader returns every character of it
once and in order. -/
def HandsOver (state : InputState) : Prop :=
  ∃ turns, (getChar^[turns] state).returned = state.typed

/-- Nothing has been lost: what is typed and not yet returned is where the reader
looks for it. -/
def InOrder (state : InputState) : Prop :=
  match state.point with
  | .wait =>
      state.uncopied = state.mailbox.driverKbdInputavailable ∧
        state.typed = state.returned ++
          if state.mailbox.driverKbdInputavailable then [state.mailbox.driverKbdInputc] else []
  | .copy =>
      state.uncopied = true ∧ state.typed = state.returned ++ [state.mailbox.driverKbdInputc]
  | .clear c => state.uncopied = false ∧ state.typed = state.returned ++ [c]

/-- A character has been typed that the reader will never look for: the keyboard
waits for it to be copied, and the reader for the flag. -/
def Lost (state : InputState) : Prop :=
  state.uncopied = true ∧
    match state.point with
    | .wait =>
        state.mailbox.driverKbdInputavailable = false ∧
          state.returned.length < state.typed.length
    | .copy => False
    | .clear _ => state.returned.length + 1 < state.typed.length

section Steps

variable {state next : InputState} {event : InputEvent} {log : List (InputState × InputEvent)}

@[simp] theorem typed_getChar : state.getChar.typed = state.typed := by
  unfold getChar
  split
  · split <;> rfl
  · rfl
  · rfl

@[simp] theorem typed_turns (turns : Nat) : (getChar^[turns] state).typed = state.typed := by
  induction turns generalizing state with
  | zero => rfl
  | succ turns inductionHypothesis =>
      rw [Function.iterate_succ_apply, inductionHypothesis, typed_getChar]

/-- The reader loses nothing by itself. -/
theorem InOrder.getChar (inOrder : state.InOrder) : state.getChar.InOrder := by
  obtain ⟨⟨inputc, available⟩, point, typed, returned, uncopied⟩ := state
  cases point with
  | wait =>
      cases available with
      | false => exact inOrder
      | true => exact inOrder
  | copy => exact ⟨rfl, inOrder.2⟩
  | clear c =>
      refine ⟨inOrder.1, ?_⟩
      simpa [InputState.getChar] using inOrder.2

/-- A key hit after the copy of the one before, and not before the flag is down,
is kept. -/
theorem InOrder.keystroke {c : UInt8} (inOrder : state.InOrder)
    (copied : state.uncopied = false) (clear : ∀ c, state.point ≠ .clear c) :
    (state.keystroke c).InOrder := by
  obtain ⟨⟨inputc, available⟩, point, typed, returned, uncopied⟩ := state
  cases point with
  | wait =>
      have down : available = false := inOrder.1.symm.trans copied
      have drained : typed = returned := by simpa [InOrder, down] using inOrder.2
      exact ⟨rfl, by simp [InputState.keystroke, Mailbox.deliver, drained]⟩
  | copy => exact absurd (inOrder.1.symm.trans copied) (by decide)
  | clear other => exact absurd rfl (clear other)

/-- A key hit before the flag is down is lost. -/
theorem InOrder.overrun {c other : UInt8} (inOrder : state.InOrder)
    (clear : state.point = .clear other) : (state.keystroke c).Lost := by
  obtain ⟨⟨inputc, available⟩, point, typed, returned, uncopied⟩ := state
  subst clear
  have copied : typed = returned ++ [other] := inOrder.2
  refine ⟨rfl, ?_⟩
  simp [InputState.keystroke, copied]

/-- The reader does not find what is lost. -/
theorem Lost.getChar (lost : state.Lost) : state.getChar.Lost := by
  obtain ⟨⟨inputc, available⟩, point, typed, returned, uncopied⟩ := state
  obtain ⟨waiting, behind⟩ := lost
  cases point with
  | wait =>
      obtain rfl : available = false := behind.1
      exact ⟨waiting, behind⟩
  | copy => exact behind.elim
  | clear c =>
      refine ⟨waiting, rfl, ?_⟩
      simpa [InputState.getChar] using behind

/-- Whatever is lost has not been returned. -/
theorem Lost.length_lt (lost : state.Lost) : state.returned.length < state.typed.length := by
  obtain ⟨_, point, _, _, _⟩ := state
  obtain ⟨_, behind⟩ := lost
  cases point with
  | wait => exact behind.2
  | copy => exact behind.elim
  | clear c => exact Nat.lt_of_succ_lt behind

theorem Lost.not_handsOver (lost : state.Lost) : ¬ state.HandsOver := by
  rintro ⟨turns, drained⟩
  have still : (InputState.getChar^[turns] state).Lost := by
    clear drained
    induction turns generalizing state with
    | zero => exact lost
    | succ turns inductionHypothesis =>
        rw [Function.iterate_succ_apply]
        exact inductionHypothesis lost.getChar
  have behind := still.length_lt
  rw [drained, typed_turns] at behind
  exact Nat.lt_irrefl _ behind

/-- With nothing lost, at most one round of the reader returns the rest. -/
theorem InOrder.handsOver (inOrder : state.InOrder) : state.HandsOver := by
  obtain ⟨⟨inputc, available⟩, point, typed, returned, uncopied⟩ := state
  cases point with
  | wait =>
      cases available with
      | false => exact ⟨0, by simpa [InOrder] using inOrder.2.symm⟩
      | true => exact ⟨3, inOrder.2.symm⟩
  | copy => exact ⟨2, inOrder.2.symm⟩
  | clear c => exact ⟨1, inOrder.2.symm⟩

/-- A run of the reader and the keyboard loses nothing unless a key is hit between
the copy and the clearing of the flag, and then it does. -/
theorem inOrder_or_lost (trace : Trace Step inputInitialize log state) :
    (state.InOrder ∧ ∀ entry ∈ log, ¬ Overrun entry.1 entry.2) ∨
      (state.Lost ∧ ∃ entry ∈ log, Overrun entry.1 entry.2) := by
  apply trace.dichotomy
  · exact ⟨rfl, rfl⟩
  · rintro state event next inOrder harmless (_ | ⟨c, copied⟩)
    · exact inOrder.getChar
    · exact inOrder.keystroke copied fun other clear => harmless ⟨⟨other, clear⟩, c, rfl⟩
  · rintro state event next inOrder ⟨⟨other, clear⟩, c, rfl⟩ (_ | ⟨_, copied⟩)
    exact inOrder.overrun clear
  · rintro state event next lost (_ | ⟨c, copied⟩)
    · exact lost.getChar
    · exact absurd (lost.1.symm.trans copied) (by decide)

end Steps

/-- A character is typed and copied, another one typed before the flag is lowered. -/
def overrunState : InputState :=
  ((((inputInitialize.keystroke 0x61).getChar).getChar).keystroke 0x62).getChar

/-- The second of two characters is never returned. -/
theorem second_keystroke_lost :
    ¬ ∀ log state, Trace Step inputInitialize log state → state.HandsOver := by
  intro handsOver
  have trace : Trace Step inputInitialize _ overrunState :=
    ((((Trace.start.extend (.keystroke 0x61 rfl)).extend (.reader _)).extend (.reader _)).extend
      (.keystroke 0x62 rfl)).extend (.reader _)
  have lost : overrunState.Lost := by
    simp [overrunState, Lost, inputInitialize, keystroke, getChar, Mailbox.deliver]
  exact lost.not_handsOver (handsOver _ _ trace)

/-- In a run in which each key is hit after the copy of the one before, the reader
hands every character over exactly when none is hit between the copy of the one
before and the clearing of the flag. -/
theorem keystrokes_handed_over_iff {log : List (InputState × InputEvent)} {state : InputState}
    (trace : Trace Step inputInitialize log state) :
    state.HandsOver ↔ ∀ entry ∈ log, ¬ Overrun entry.1 entry.2 := by
  rcases inOrder_or_lost trace with ⟨inOrder, clean⟩ | ⟨lost, entry, member, overrun⟩
  · exact ⟨fun _ => clean, fun _ => inOrder.handsOver⟩
  · exact ⟨fun handsOver => absurd handsOver lost.not_handsOver,
      fun clean => absurd overrun (clean entry member)⟩

/-- A character is typed and returned, another one typed and copied. -/
def handedState : InputState :=
  (((((((inputInitialize.keystroke 0x61).getChar).getChar).getChar).keystroke
    0x62).getChar).getChar)

/-- The second character is handed over when it comes behind the return of the first, and not
when it comes in front of it. -/
theorem keystrokes_handed_over_iff_two :
    handedState.HandsOver ∧ ¬ overrunState.HandsOver := by
  have handed : Trace Step inputInitialize _ handedState :=
    ((((((Trace.start.extend (.keystroke 0x61 rfl)).extend (.reader _)).extend (.reader _)).extend
      (.reader _)).extend (.keystroke 0x62 rfl)).extend (.reader _)).extend (.reader _)
  have overrun : Trace Step inputInitialize _ overrunState :=
    ((((Trace.start.extend (.keystroke 0x61 rfl)).extend (.reader _)).extend (.reader _)).extend
      (.keystroke 0x62 rfl)).extend (.reader _)
  constructor
  · apply (keystrokes_handed_over_iff handed).mpr
    simp [Overrun, inputInitialize, keystroke, getChar, Mailbox.deliver]
  · intro handsOver
    have clean := (keystrokes_handed_over_iff overrun).mp handsOver
    simp [Overrun, inputInitialize, keystroke, getChar, Mailbox.deliver] at clean

end InputState

end Bootloader.Arch
