import Bootloader.Arch.Input

/-!
# The keyboard driver

`isr_keyboard_int` looks a scan code up in `keyboard_scancode_std`, three numbers to
a row, and keeps the modifiers and locks up to date. The index is the scan code
times three, so that the row it finds is the one the table labels with that code
only as long as the labels are the row numbers.
-/

namespace Bootloader.Arch

open Bootloader.Std

/-- The key codes that are no characters. -/
def keyEscape : UInt32 := 0x1001

def keyF1 : UInt32 := 0x1201

def keyF2 : UInt32 := 0x1202

def keyF3 : UInt32 := 0x1203

def keyF4 : UInt32 := 0x1204

def keyF5 : UInt32 := 0x1205

def keyF6 : UInt32 := 0x1206

def keyF7 : UInt32 := 0x1207

def keyF8 : UInt32 := 0x1208

def keyF9 : UInt32 := 0x1209

def keyF10 : UInt32 := 0x120a

def keyF11 : UInt32 := 0x120b

def keyF12 : UInt32 := 0x120b

def keyKpNumlock : UInt32 := 0x300f

def keyCapslock : UInt32 := 0x4001

def keyLshift : UInt32 := 0x4002

def keyLctrl : UInt32 := 0x4003

def keyLalt : UInt32 := 0x4004

def keyRshift : UInt32 := 0x4006

def keyRctrl : UInt32 := 0x4007

def keyRalt : UInt32 := 0x4008

def keyHome : UInt32 := 0x400c

def keyPageup : UInt32 := 0x400e

def keyScrolllock : UInt32 := 0x4010

def keyUnknown : UInt32 := 0x4012

/-- A character of the table. -/
def ascii (c : Char) : UInt32 := c.val

/-- A row of the table: the scan code in the comment beside it, the key code, and
what the key types without and with shift or capslock. -/
structure ScancodeRow where
  label : Nat
  key : UInt32
  normal : UInt32
  shifted : UInt32
deriving DecidableEq, Repr

/-- The rows of `keyboard_scancode_std`. -/
def scancodeRows : List ScancodeRow :=
  [⟨0x00, keyUnknown, 0, 0⟩, ⟨0x01, keyEscape, keyEscape, keyEscape⟩,
   ⟨0x02, ascii '1', ascii '1', ascii '!'⟩, ⟨0x03, ascii '2', ascii '2', ascii '@'⟩,
   ⟨0x04, ascii '3', ascii '3', ascii '#'⟩, ⟨0x05, ascii '4', ascii '4', ascii '$'⟩,
   ⟨0x06, ascii '5', ascii '5', ascii '%'⟩, ⟨0x07, ascii '6', ascii '6', ascii '^'⟩,
   ⟨0x08, ascii '7', ascii '7', ascii '&'⟩, ⟨0x09, ascii '8', ascii '8', ascii '*'⟩,
   ⟨0x0a, ascii '9', ascii '9', ascii '('⟩, ⟨0x0b, ascii '0', ascii '0', ascii ')'⟩,
   ⟨0x0c, ascii '-', ascii '-', ascii '_'⟩, ⟨0x0d, ascii '=', ascii '=', ascii '+'⟩,
   ⟨0x0e, 0x08, 0x08, 0x08⟩, ⟨0x0f, 0x09, 0x09, 0x09⟩, ⟨0x10, ascii 'q', ascii 'q', ascii 'Q'⟩,
   ⟨0x11, ascii 'w', ascii 'w', ascii 'W'⟩, ⟨0x12, ascii 'e', ascii 'e', ascii 'E'⟩,
   ⟨0x13, ascii 'r', ascii 'r', ascii 'R'⟩, ⟨0x14, ascii 't', ascii 't', ascii 'T'⟩,
   ⟨0x15, ascii 'y', ascii 'y', ascii 'Y'⟩, ⟨0x16, ascii 'u', ascii 'u', ascii 'U'⟩,
   ⟨0x17, ascii 'i', ascii 'i', ascii 'I'⟩, ⟨0x18, ascii 'o', ascii 'o', ascii 'O'⟩,
   ⟨0x19, ascii 'p', ascii 'p', ascii 'P'⟩, ⟨0x1a, ascii '[', ascii '[', 0x7b⟩,
   ⟨0x1b, ascii ']', ascii ']', 0x7d⟩, ⟨0x1c, 0x0d, 0x0d, 0x0d⟩,
   ⟨0x1d, keyLctrl, keyLctrl, keyLctrl⟩, ⟨0x1e, ascii 'a', ascii 'a', ascii 'A'⟩,
   ⟨0x1f, ascii 's', ascii 's', ascii 'S'⟩, ⟨0x20, ascii 'd', ascii 'd', ascii 'D'⟩,
   ⟨0x21, ascii 'f', ascii 'f', ascii 'F'⟩, ⟨0x22, ascii 'g', ascii 'g', ascii 'G'⟩,
   ⟨0x23, ascii 'h', ascii 'h', ascii 'H'⟩, ⟨0x24, ascii 'j', ascii 'j', ascii 'J'⟩,
   ⟨0x25, ascii 'k', ascii 'k', ascii 'K'⟩, ⟨0x26, ascii 'l', ascii 'l', ascii 'L'⟩,
   ⟨0x27, ascii ';', ascii ';', ascii ':'⟩, ⟨0x28, 0x27, 0x27, 0x22⟩,
   ⟨0x29, 0x60, 0x60, ascii '~'⟩, ⟨0x2a, keyLshift, keyLshift, keyLshift⟩,
   ⟨0x2b, 0x5c, 0x5c, ascii '|'⟩, ⟨0x2c, ascii 'z', ascii 'z', ascii 'Z'⟩,
   ⟨0x2d, ascii 'x', ascii 'x', ascii 'X'⟩, ⟨0x2e, ascii 'c', ascii 'c', ascii 'C'⟩,
   ⟨0x2f, ascii 'v', ascii 'v', ascii 'V'⟩, ⟨0x30, ascii 'b', ascii 'b', ascii 'B'⟩,
   ⟨0x31, ascii 'n', ascii 'n', ascii 'N'⟩, ⟨0x32, ascii 'm', ascii 'm', ascii 'M'⟩,
   ⟨0x33, ascii ',', ascii ',', ascii '<'⟩, ⟨0x34, ascii '.', ascii '.', ascii '>'⟩,
   ⟨0x35, ascii '/', ascii '/', ascii '?'⟩, ⟨0x36, keyRshift, keyRshift, keyRshift⟩,
   ⟨0x37, ascii '*', ascii '*', ascii '*'⟩, ⟨0x38, keyRalt, keyRalt, keyRalt⟩,
   ⟨0x39, 0x20, 0x20, 0x20⟩, ⟨0x3a, keyCapslock, keyCapslock, keyCapslock⟩,
   ⟨0x3b, keyF1, keyF1, keyF1⟩, ⟨0x3c, keyF2, keyF2, keyF2⟩, ⟨0x3d, keyF3, keyF3, keyF3⟩,
   ⟨0x3e, keyF4, keyF4, keyF4⟩, ⟨0x3f, keyF5, keyF5, keyF5⟩, ⟨0x40, keyF6, keyF6, keyF6⟩,
   ⟨0x41, keyF7, keyF7, keyF7⟩, ⟨0x42, keyF8, keyF8, keyF8⟩, ⟨0x43, keyF9, keyF9, keyF9⟩,
   ⟨0x44, keyF10, keyF10, keyF10⟩, ⟨0x45, keyKpNumlock, keyKpNumlock, keyKpNumlock⟩,
   ⟨0x46, keyScrolllock, keyScrolllock, keyScrolllock⟩, ⟨0x47, keyHome, keyHome, keyHome⟩,
   ⟨0x48, ascii '8', ascii '8', ascii '8'⟩, ⟨0x49, keyPageup, keyPageup, keyPageup⟩,
   ⟨0x50, ascii '2', ascii '2', ascii '2'⟩, ⟨0x51, ascii '3', ascii '3', ascii '3'⟩,
   ⟨0x52, ascii '0', ascii '0', ascii '0'⟩, ⟨0x53, ascii '.', ascii '.', ascii '.'⟩,
   ⟨0x54, keyUnknown, 0, 0⟩, ⟨0x55, keyUnknown, 0, 0⟩, ⟨0x56, keyUnknown, 0, 0⟩,
   ⟨0x57, keyF11, keyF11, keyF11⟩, ⟨0x58, keyF12, keyF12, keyF12⟩]

/-- `keyboard_scancode_std`: the rows one after the other, without their labels. -/
def keyboardScancodeStd : List UInt32 :=
  scancodeRows.flatMap fun row => [row.key, row.normal, row.shifted]

/-- A number of the table; an index behind it reads what lies `behind` the table in
memory. -/
def scancodeAt (behind : Nat → UInt32) (index : Nat) : UInt32 :=
  keyboardScancodeStd.getD index (behind index)

/-- The three numbers that a scan code finds, as a row. -/
def rowAt (behind : Nat → UInt32) (code : Nat) : ScancodeRow where
  label := code
  key := scancodeAt behind (code * 3 + 0)
  normal := scancodeAt behind (code * 3 + 1)
  shifted := scancodeAt behind (code * 3 + 2)

/-- What the handler does with a key code: the cases of its two switches. -/
inductive KeyRole where
  | ctrl
  | shift
  | alt
  | capslock
  | numlock
  | scrolllock
  | plain
deriving DecidableEq, Repr

/-- The case a key code falls into. -/
def keyRole (key : UInt32) : KeyRole :=
  if key = keyLctrl ∨ key = keyRctrl then .ctrl
  else if key = keyLshift ∨ key = keyRshift then .shift
  else if key = keyLalt ∨ key = keyRalt then .alt
  else if key = keyCapslock then .capslock
  else if key = keyKpNumlock then .numlock
  else if key = keyScrolllock then .scrolllock
  else .plain

/-- An access of the handler to the table, and the scan code it was for. -/
structure ScancodeAccess where
  code : Nat
  index : Nat
deriving DecidableEq, Repr

/-- The variables of the driver, the mailbox it delivers to and the bytes it has
sent to the keyboard. `delivered` and `accesses` are history: the characters
delivered and the accesses to the table so far. -/
structure Keyboard where
  scancode : Nat
  scrolllock : Bool
  numlock : Bool
  capslock : Bool
  shift : Bool
  alt : Bool
  ctrl : Bool
  mailbox : Mailbox
  commands : List UInt8
  delivered : List UInt8
  accesses : List ScancodeAccess
deriving DecidableEq, Repr

namespace Keyboard

/-- `keyboard_enc_send_cmd`, once the keyboard takes the byte. -/
def encSendCmd (cmd : UInt8) (keyboard : Keyboard) : Keyboard :=
  { keyboard with commands := keyboard.commands ++ [cmd] }

/-- `keyboard_setleds`. -/
def setleds (num caps scroll : Bool) (keyboard : Keyboard) : Keyboard :=
  let data : UInt8 := 0x00
  let data := if scroll then data ||| 0x01 else data &&& ~~~0x01
  let data := if num then data ||| 0x02 else data &&& ~~~0x02
  let data := if caps then data ||| 0x04 else data &&& ~~~0x04
  (keyboard.encSendCmd 0xED).encSendCmd data

/-- `keyboard_init`, as far as its own variables and the keyboard go. -/
def init (keyboard : Keyboard) : Keyboard :=
  { keyboard with
    shift := false
    alt := false
    ctrl := false
    numlock := false
    capslock := false
    scrolllock := false }.setleds false false false

/-- The driver as it is linked into the image. -/
def boot : Keyboard where
  scancode := 0
  scrolllock := false
  numlock := false
  capslock := false
  shift := false
  alt := false
  ctrl := false
  mailbox := ⟨0, false⟩
  commands := []
  delivered := []
  accesses := []

/-- `keyboard_scancode_std[code * 3 + column]`. -/
def lookup (behind : Nat → UInt32) (code column : Nat) (keyboard : Keyboard) :
    UInt32 × Keyboard :=
  let index := code * 3 + column
  (scancodeAt behind index, { keyboard with accesses := keyboard.accesses ++ [⟨code, index⟩] })

/-- Hand a character to the reader. -/
def deliver (c : UInt8) (keyboard : Keyboard) : Keyboard :=
  { keyboard with
    mailbox := keyboard.mailbox.deliver c
    delivered := keyboard.delivered ++ [c] }

/-- The switch for a key that has been released. -/
def release (role : KeyRole) (keyboard : Keyboard) : Keyboard :=
  match role with
  | .ctrl => { keyboard with ctrl := false }
  | .shift => { keyboard with shift := false }
  | .alt => { keyboard with alt := false }
  | .capslock | .numlock | .scrolllock | .plain => keyboard

/-- The cases of a key that has been pressed, but the last of them. -/
def press (role : KeyRole) (keyboard : Keyboard) : Keyboard :=
  match role with
  | .ctrl => { keyboard with ctrl := true }
  | .shift => { keyboard with shift := true }
  | .alt => { keyboard with alt := true }
  | .capslock =>
      { keyboard with capslock := !keyboard.capslock }.setleds keyboard.numlock
        (!keyboard.capslock) keyboard.scrolllock
  | .numlock =>
      { keyboard with numlock := !keyboard.numlock }.setleds (!keyboard.numlock)
        keyboard.capslock keyboard.scrolllock
  | .scrolllock =>
      { keyboard with scrolllock := !keyboard.scrolllock }.setleds keyboard.numlock
        keyboard.capslock (!keyboard.scrolllock)
  | .plain => keyboard

/-- `isr_keyboard_int`, for the status and the byte the controller gives. -/
def isrKeyboardInt (behind : Nat → UInt32) (status data : UInt8) (keyboard : Keyboard) :
    Keyboard :=
  if status &&& 0x01 ≠ 0x01 then keyboard
  else if data.toNat ≥ 0x80 then
    let code := data.toNat - 0x80
    let (key, keyboard) := keyboard.lookup behind code 0
    keyboard.release (keyRole key)
  else
    let code := data.toNat
    let (key, keyboard) := { keyboard with scancode := code }.lookup behind code 0
    match keyRole key with
    | .plain =>
        if keyboard.capslock || keyboard.shift then
          let (c, keyboard) := keyboard.lookup behind code 2
          keyboard.deliver c.toUInt8
        else
          let (c, keyboard) := keyboard.lookup behind code 1
          keyboard.deliver c.toUInt8
    | role => keyboard.press role

/-- The driver after the keyboard has sent these bytes, one interrupt each. -/
def run (behind : Nat → UInt32) (codes : List UInt8) : Keyboard :=
  codes.foldl (fun keyboard data => keyboard.isrKeyboardInt behind 0x01 data) boot.init

/-- What a key of a row does, without the history of accesses. -/
def effect (row : ScancodeRow) (data : UInt8) (keyboard : Keyboard) : Keyboard :=
  if data.toNat ≥ 0x80 then keyboard.release (keyRole row.key)
  else
    let keyboard := { keyboard with scancode := data.toNat }
    match keyRole row.key with
    | .plain =>
        keyboard.deliver
          (if keyboard.capslock || keyboard.shift then row.shifted else row.normal).toUInt8
    | role => keyboard.press role

/-- The keyboard without the history of accesses. -/
def forget (keyboard : Keyboard) : Keyboard := { keyboard with accesses := [] }

section Lookup

variable {behind : Nat → UInt32} {code column : Nat} {row : ScancodeRow} {data : UInt8}
  {keyboard : Keyboard}

/-- Three numbers to a row. -/
theorem getElem?_flatMap_row (rows : List ScancodeRow) (small : column < 3) :
    (rows.flatMap fun row => [row.key, row.normal, row.shifted])[code * 3 + column]? =
      rows[code]?.bind fun row => [row.key, row.normal, row.shifted][column]? := by
  induction rows generalizing code with
  | nil => simp
  | cons row rest inductionHypothesis =>
      cases code with
      | zero =>
          rw [List.flatMap_cons, List.getElem?_append_left (by simpa using small)]
          simp
      | succ code =>
          have here : (code + 1) * 3 + column - [row.key, row.normal, row.shifted].length =
              code * 3 + column := by simp only [List.length_cons, List.length_nil]; omega
          rw [List.flatMap_cons, List.getElem?_append_right (by simp; omega), here,
            inductionHypothesis, List.getElem?_cons_succ]

/-- A scan code that is the label of the row at its place finds that row. -/
theorem rowAt_of_known (known : scancodeRows[code]? = some row) (label : row.label = code) :
    rowAt behind code = row := by
  have number (column : Nat) (small : column < 3) :
      scancodeAt behind (code * 3 + column) =
        [row.key, row.normal, row.shifted].getD column (behind (code * 3 + column)) := by
    simp only [scancodeAt, keyboardScancodeStd, List.getD_eq_getElem?_getD]
    rw [getElem?_flatMap_row _ small, known]
    rfl
  rw [rowAt, number 0 (by decide), number 1 (by decide), number 2 (by decide), ← label]
  rfl

theorem lookup_key : (keyboard.lookup behind code 0).1 = (rowAt behind code).key := rfl

theorem lookup_normal : (keyboard.lookup behind code 1).1 = (rowAt behind code).normal := rfl

theorem lookup_shifted : (keyboard.lookup behind code 2).1 = (rowAt behind code).shifted := rfl

@[simp] theorem accesses_lookup : (keyboard.lookup behind code column).2.accesses =
    keyboard.accesses ++ [⟨code, code * 3 + column⟩] := rfl

theorem forget_release (role : KeyRole) :
    (keyboard.release role).forget = keyboard.forget.release role := by
  cases role <;> rfl

theorem accesses_release (role : KeyRole) :
    (keyboard.release role).accesses = keyboard.accesses := by
  cases role <;> rfl

/-- A key that is released. -/
theorem isrKeyboardInt_break (released : 0x80 ≤ data.toNat) :
    keyboard.isrKeyboardInt behind 0x01 data =
      (keyboard.lookup behind (data.toNat - 0x80) 0).2.release
        (keyRole (rowAt behind (data.toNat - 0x80)).key) := by
  rw [isrKeyboardInt, if_neg (by decide), if_pos released, ← lookup_key]

/-- A key that is pressed. -/
theorem isrKeyboardInt_make (pressed : data.toNat < 0x80) :
    keyboard.isrKeyboardInt behind 0x01 data =
      let keyboard := ({ keyboard with scancode := data.toNat }.lookup behind data.toNat 0).2
      match keyRole (rowAt behind data.toNat).key with
      | .plain =>
          if keyboard.capslock || keyboard.shift then
            (keyboard.lookup behind data.toNat 2).2.deliver
              (rowAt behind data.toNat).shifted.toUInt8
          else
            (keyboard.lookup behind data.toNat 1).2.deliver
              (rowAt behind data.toNat).normal.toUInt8
      | role => keyboard.press role := by
  rw [isrKeyboardInt, if_neg (by decide), if_neg (by omega)]
  simp only [lookup_key, lookup_normal, lookup_shifted]

/-- A scan code does what the numbers say that it finds. -/
theorem forget_isrKeyboardInt :
    (keyboard.isrKeyboardInt behind 0x01 data).forget =
      keyboard.forget.effect (rowAt behind (data.toNat % 0x80)) data := by
  have bound := data.toNat_lt
  by_cases released : 0x80 ≤ data.toNat
  · have code : data.toNat % 0x80 = data.toNat - 0x80 := by omega
    rw [isrKeyboardInt_break released, forget_release, effect, if_pos released, code]
    rfl
  · have code : data.toNat % 0x80 = data.toNat := by omega
    rw [isrKeyboardInt_make (by omega), effect, if_neg released, code]
    cases keyRole (rowAt behind data.toNat).key with
    | plain =>
        obtain ⟨_, _, _, capslock, shift, _, _, _, _, _, _⟩ := keyboard
        cases capslock <;> cases shift <;> rfl
    | _ => rfl

/-- A scan code looks its own numbers up, and the first of them always. -/
theorem accesses_isrKeyboardInt (behind : Nat → UInt32) (data : UInt8) (keyboard : Keyboard) :
    ∃ more, (keyboard.isrKeyboardInt behind 0x01 data).accesses =
        keyboard.accesses ++ ⟨data.toNat % 0x80, data.toNat % 0x80 * 3⟩ :: more ∧
      ∀ access ∈ more, access.code = data.toNat % 0x80 ∧ access.index / 3 = access.code := by
  have bound := data.toNat_lt
  by_cases released : 0x80 ≤ data.toNat
  · have code : data.toNat % 0x80 = data.toNat - 0x80 := by omega
    rw [isrKeyboardInt_break released, accesses_release, accesses_lookup, code,
      Nat.add_zero]
    exact ⟨[], rfl, by simp⟩
  · have code : data.toNat % 0x80 = data.toNat := by omega
    rw [isrKeyboardInt_make (by omega), code]
    cases keyRole (rowAt behind data.toNat).key with
    | plain =>
        obtain ⟨_, _, _, capslock, shift, _, _, _, _, _, accesses⟩ := keyboard
        cases loud : capslock || shift with
        | false =>
            refine ⟨[⟨data.toNat, data.toNat * 3 + 1⟩], ?_, ?_⟩
            · simp [lookup, deliver, loud]
            · simp
              omega
        | true =>
            refine ⟨[⟨data.toNat, data.toNat * 3 + 2⟩], ?_, ?_⟩
            · simp [lookup, deliver, loud]
            · simp
              omega
    | _ => exact ⟨[], rfl, by simp⟩

end Lookup

end Keyboard

end Bootloader.Arch
