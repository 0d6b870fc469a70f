import Bootloader.Arch.Keyboard
import Mathlib.Data.List.Induction

/-!
# What a run of scan codes leaves

One flag stands for two shift keys, and it follows them as long as neither is
released while the other one is held (`shift_follows_keys_iff`). The table is read
in bounds and by its labels as long as no scan code from 0x50 on comes in
(`scancode_lookup_labelled_iff`).
-/

namespace Bootloader.Arch

open Bootloader.Std

namespace Keyboard

/-- Whether a key is held after these bytes: its make code has come, and no break
code of it since. -/
def held (key : Nat) (codes : List UInt8) : Bool :=
  codes.foldl
    (fun down data => if data.toNat % 0x80 = key then decide (data.toNat < 0x80) else down) false

/-- Whether either shift key is held. -/
def shiftHeld (codes : List UInt8) : Bool := held 0x2a codes || held 0x36 codes

/-- Whether capslock has been toggled an odd number of times. -/
def capsToggled (codes : List UInt8) : Bool :=
  codes.countP (fun data => data.toNat = 0x3a) % 2 = 1

/-- The codes of the keys up to row 0x49. -/
def MainKeys (codes : List UInt8) : Prop := ∀ data ∈ codes, data.toNat % 0x80 ≤ 0x49

/-- After every byte, `shift` says whether a shift key is held, and a character
that is delivered is the one its key types then. -/
structure FollowsKeys (behind : Nat → UInt32) (codes : List UInt8) : Prop where
  shift : ∀ before data, before ++ [data] <+: codes →
    (run behind (before ++ [data])).shift = shiftHeld (before ++ [data])
  typed : ∀ before data, before ++ [data] <+: codes →
    (run behind (before ++ [data])).delivered ≠ (run behind before).delivered →
      ∃ row ∈ scancodeRows, row.label = data.toNat ∧
        (run behind (before ++ [data])).mailbox.driverKbdInputc =
          (if shiftHeld (before ++ [data]) || capsToggled (before ++ [data]) then row.shifted
            else row.normal).toUInt8

/-- No shift key is released while the other one is held. -/
def NoCrossRelease (codes : List UInt8) : Prop :=
  ∀ before data, before ++ [data] <+: codes →
    (data = 0xAA → held 0x36 before = false) ∧ (data = 0xB6 → held 0x2a before = false)

section History

variable {codes before : List UInt8} {data : UInt8} {key : Nat} {behind : Nat → UInt32}

@[simp] theorem held_append : held key (before ++ [data]) =
    if data.toNat % 0x80 = key then decide (data.toNat < 0x80) else held key before := by
  simp [held]

@[simp] theorem run_append :
    run behind (before ++ [data]) = (run behind before).isrKeyboardInt behind 0x01 data := by
  simp [run]

theorem capsToggled_append : capsToggled (before ++ [data]) =
    if data.toNat = 0x3a then !capsToggled before else capsToggled before := by
  by_cases caps : data.toNat = 0x3a
  · have flip : ∀ count, decide ((count + 1) % 2 = 1) = !decide (count % 2 = 1) := by
      intro count
      rcases Nat.mod_two_eq_zero_or_one count with even | odd
      · simp [even, Nat.add_mod]
      · simp [odd, Nat.add_mod]
    simpa [capsToggled, caps] using flip _
  · simp [capsToggled, caps]

/-- Row by row, the table says what a scan code up to 0x49 is. -/
theorem row_of_code {code : Nat} (main : code ≤ 0x49) :
    ∃ row, scancodeRows[code]? = some row ∧ row.label = code ∧
      (keyRole row.key = .shift ↔ code = 0x2a ∨ code = 0x36) ∧
      (keyRole row.key = .capslock ↔ code = 0x3a) := by
  have table : ∀ code < 0x4a, scancodeRows[code]?.any (fun row =>
      decide (row.label = code ∧ (keyRole row.key = .shift ↔ code = 0x2a ∨ code = 0x36) ∧
        (keyRole row.key = .capslock ↔ code = 0x3a))) = true := by decide +kernel
  have here := table code (Nat.lt_succ_of_le main)
  obtain ⟨row, known, facts⟩ := Option.any_eq_true _ _ |>.mp here
  exact ⟨row, known, of_decide_eq_true facts⟩

end History

section Effects

variable {row : ScancodeRow} {data : UInt8} {keyboard : Keyboard}

/-- A key changes the state of shift, or of caps lock, in its role alone: the one whenever it
moves, the other when it is pressed. -/
theorem modifiers_effect :
    (keyboard.effect row data).shift =
        (if keyRole row.key = .shift then decide (data.toNat < 0x80) else keyboard.shift) ∧
      (keyboard.effect row data).capslock =
        if data.toNat < 0x80 ∧ keyRole row.key = .capslock then !keyboard.capslock
        else keyboard.capslock := by
  rw [effect]
  split
  · have released : ¬ data.toNat < 0x80 := by omega
    cases keyRole row.key <;> simp [release, released]
  · have pressed : data.toNat < 0x80 := by omega
    cases keyRole row.key <;> simp [press, setleds, encSendCmd, deliver, pressed]

theorem shift_effect : (keyboard.effect row data).shift =
    if keyRole row.key = .shift then decide (data.toNat < 0x80) else keyboard.shift :=
  modifiers_effect.1

theorem capslock_effect : (keyboard.effect row data).capslock =
    if data.toNat < 0x80 ∧ keyRole row.key = .capslock then !keyboard.capslock
    else keyboard.capslock :=
  modifiers_effect.2

/-- Only a key without a role of its own delivers a character, when it is pressed. -/
theorem delivered_effect (delivers : (keyboard.effect row data).delivered ≠ keyboard.delivered) :
    data.toNat < 0x80 ∧ keyRole row.key = .plain ∧
      (keyboard.effect row data).mailbox.driverKbdInputc =
        (if keyboard.capslock || keyboard.shift then row.shifted else row.normal).toUInt8 := by
  by_cases released : data.toNat ≥ 0x80
  · rw [effect, if_pos released] at delivers
    cases role : keyRole row.key <;> simp [role, release] at delivers
  · rw [effect, if_neg released] at delivers ⊢
    cases role : keyRole row.key <;>
      simp [role, press, setleds, encSendCmd, deliver] at delivers
    simp only [deliver, Mailbox.deliver, and_true]
    omega

end Effects

section Shift

variable {codes before : List UInt8} {data : UInt8} {keyboard : Keyboard}
  {behind : Nat → UInt32}

/-- The break codes of the shift keys. -/
theorem left_break : data = 0xAA ↔ data.toNat % 0x80 = 0x2a ∧ ¬ data.toNat < 0x80 := by
  have bound := data.toNat_lt
  rw [← UInt8.toNat_inj]
  have value : (0xAA : UInt8).toNat = 0xAA := rfl
  omega

theorem right_break : data = 0xB6 ↔ data.toNat % 0x80 = 0x36 ∧ ¬ data.toNat < 0x80 := by
  have bound := data.toNat_lt
  rw [← UInt8.toNat_inj]
  have value : (0xB6 : UInt8).toNat = 0xB6 := rfl
  omega

/-- A byte of a main key does what the row labelled with it says. -/
theorem isrKeyboardInt_main (behind : Nat → UInt32) (keyboard : Keyboard)
    (main : data.toNat % 0x80 ≤ 0x49) :
    ∃ row ∈ scancodeRows, row.label = data.toNat % 0x80 ∧
      (keyRole row.key = .shift ↔ data.toNat % 0x80 = 0x2a ∨ data.toNat % 0x80 = 0x36) ∧
      (keyRole row.key = .capslock ↔ data.toNat % 0x80 = 0x3a) ∧
      (keyboard.isrKeyboardInt behind 0x01 data).forget = keyboard.forget.effect row data := by
  obtain ⟨row, known, label, shift, caps⟩ := row_of_code main
  have found : rowAt behind (data.toNat % 0x80) = row := rowAt_of_known known label
  exact ⟨row, List.mem_of_getElem? known, label, shift, caps, found ▸ forget_isrKeyboardInt⟩

theorem shift_main (behind : Nat → UInt32) (keyboard : Keyboard)
    (main : data.toNat % 0x80 ≤ 0x49) :
    (keyboard.isrKeyboardInt behind 0x01 data).shift =
      if data.toNat % 0x80 = 0x2a ∨ data.toNat % 0x80 = 0x36 then decide (data.toNat < 0x80)
      else keyboard.shift := by
  obtain ⟨row, _, _, shift, _, same⟩ := isrKeyboardInt_main behind keyboard main
  change (keyboard.isrKeyboardInt behind 0x01 data).forget.shift = _
  rw [same, shift_effect]
  simp only [shift]
  rfl

theorem capslock_main (behind : Nat → UInt32) (keyboard : Keyboard)
    (main : data.toNat % 0x80 ≤ 0x49) :
    (keyboard.isrKeyboardInt behind 0x01 data).capslock =
      if data.toNat = 0x3a then !keyboard.capslock else keyboard.capslock := by
  obtain ⟨row, _, _, _, caps, same⟩ := isrKeyboardInt_main behind keyboard main
  have pressed : data.toNat < 0x80 ∧ data.toNat % 0x80 = 0x3a ↔ data.toNat = 0x3a := by omega
  change (keyboard.isrKeyboardInt behind 0x01 data).forget.capslock = _
  rw [same, capslock_effect]
  simp only [caps, pressed]
  rfl

/-- The flag and the lock follow the keys as long as neither shift key is released
while the other is held. -/
theorem run_follows (behind : Nat → UInt32) (main : MainKeys codes) (clean : NoCrossRelease codes) :
    (run behind codes).shift = shiftHeld codes ∧
      (run behind codes).capslock = capsToggled codes := by
  induction codes using List.reverseRecOn with
  | nil => exact ⟨rfl, rfl⟩
  | append_singleton before data inductionHypothesis =>
      have mainBefore : MainKeys before := fun code member =>
        main code (List.mem_append_left _ member)
      have cleanBefore : NoCrossRelease before := fun earlier code isPrefix =>
        clean earlier code (isPrefix.trans (List.prefix_append _ _))
      obtain ⟨shiftBefore, capsBefore⟩ := inductionHypothesis mainBefore cleanBefore
      obtain ⟨left, right⟩ := clean before data List.prefix_rfl
      have here : data.toNat % 0x80 ≤ 0x49 := main data (by simp)
      rw [run_append, shift_main behind _ here, capslock_main behind _ here, shiftBefore,
        capsBefore, capsToggled_append]
      refine ⟨?_, rfl⟩
      simp only [shiftHeld, held_append]
      by_cases pressed : data.toNat < 0x80
      · by_cases shiftKey : data.toNat % 0x80 = 0x2a ∨ data.toNat % 0x80 = 0x36
        · rcases shiftKey with leftKey | rightKey
          · simp [leftKey, pressed]
          · simp [rightKey, pressed]
        · rw [if_neg shiftKey, if_neg fun leftKey => shiftKey (Or.inl leftKey),
            if_neg fun rightKey => shiftKey (Or.inr rightKey)]
      · by_cases leftKey : data.toNat % 0x80 = 0x2a
        · simp [leftKey, pressed, left (left_break.mpr ⟨leftKey, pressed⟩)]
        · by_cases rightKey : data.toNat % 0x80 = 0x36
          · simp [rightKey, pressed, right (right_break.mpr ⟨rightKey, pressed⟩)]
          · simp [leftKey, rightKey]

/-- The first byte that releases a shift key while the other is held lowers the flag. -/
theorem FollowsKeys.noCrossRelease (main : MainKeys codes) (follows : FollowsKeys behind codes) :
    NoCrossRelease codes := by
  intro before data isPrefix
  have shift := follows.shift before data isPrefix
  rw [run_append, shift_main behind _ (main data (isPrefix.subset (by simp))), shiftHeld,
    held_append, held_append] at shift
  constructor
  · intro isBreak
    obtain ⟨leftKey, released⟩ := left_break.mp isBreak
    simpa [leftKey, released] using shift
  · intro isBreak
    obtain ⟨rightKey, released⟩ := right_break.mp isBreak
    simpa [rightKey, released] using shift

theorem MainKeys.of_prefix (main : MainKeys codes) (isPrefix : before <+: codes) :
    MainKeys before :=
  fun data member => main data (isPrefix.subset member)

theorem NoCrossRelease.of_prefix (clean : NoCrossRelease codes) (isPrefix : before <+: codes) :
    NoCrossRelease before :=
  fun earlier data shorter => clean earlier data (shorter.trans isPrefix)

/-- A key that is neither a shift key nor capslock types by the flag and the lock. -/
theorem run_types (main : MainKeys (before ++ [data])) (clean : NoCrossRelease (before ++ [data]))
    (delivers : (run behind (before ++ [data])).delivered ≠ (run behind before).delivered) :
    ∃ row ∈ scancodeRows, row.label = data.toNat ∧
      (run behind (before ++ [data])).mailbox.driverKbdInputc =
        (if shiftHeld (before ++ [data]) || capsToggled (before ++ [data]) then row.shifted
          else row.normal).toUInt8 := by
  obtain ⟨shift, caps⟩ := run_follows behind main clean
  obtain ⟨row, member, label, _, _, same⟩ :=
    isrKeyboardInt_main behind (run behind before) (main data (by simp))
  rw [run_append] at *
  have delivers' : ((run behind before).forget.effect row data).delivered ≠
      (run behind before).forget.delivered := same ▸ delivers
  obtain ⟨pressed, plain, char⟩ := delivered_effect delivers'
  have shiftKept : ((run behind before).isrKeyboardInt behind 0x01 data).shift =
      (run behind before).shift := by
    change ((run behind before).isrKeyboardInt behind 0x01 data).forget.shift = _
    rw [same, shift_effect, plain, if_neg (by decide)]
    rfl
  have capsKept : ((run behind before).isrKeyboardInt behind 0x01 data).capslock =
      (run behind before).capslock := by
    change ((run behind before).isrKeyboardInt behind 0x01 data).forget.capslock = _
    rw [same, capslock_effect, plain, if_neg fun both => by cases both.2]
    rfl
  have code : data.toNat % 0x80 = data.toNat := by omega
  refine ⟨row, member, label.trans code, ?_⟩
  rw [← shift, ← caps, shiftKept, capsKept, Bool.or_comm]
  rw [← same] at char
  exact char

end Shift

/-- Both shift keys are pressed, and the right one is released. -/
theorem shift_lost_while_held :
    ¬ ∀ behind codes, MainKeys codes → FollowsKeys behind codes := by
  intro follows
  have main : MainKeys [0x2A, 0x36, 0xB6] := by simp [MainKeys]
  have shift := (follows (fun _ => 0) _ main).shift [0x2A, 0x36] 0xB6 List.prefix_rfl
  revert shift
  decide

/-- After every byte from the main keys the flag and the characters follow the keys,
exactly when no shift key is released while the other one is held. -/
theorem shift_follows_keys_iff {behind : Nat → UInt32} {codes : List UInt8}
    (main : MainKeys codes) : FollowsKeys behind codes ↔ NoCrossRelease codes := by
  constructor
  · exact fun follows => follows.noCrossRelease main
  · intro clean
    constructor
    · intro before data isPrefix
      exact (run_follows behind (main.of_prefix isPrefix) (clean.of_prefix isPrefix)).1
    · intro before data isPrefix delivers
      exact run_types (main.of_prefix isPrefix) (clean.of_prefix isPrefix) delivers

/-- Capital A, typed with the left shift key. -/
theorem shift_follows_keys_iff_capital :
    FollowsKeys (fun _ => 0) [0x2A, 0x1E, 0x9E, 0xAA] ↔
      NoCrossRelease [0x2A, 0x1E, 0x9E, 0xAA] :=
  shift_follows_keys_iff (by simp [MainKeys])

/-- The row labelled with a scan code; a code that is no label stands for whatever the
handler finds for it. -/
def labelledRow (behind : Nat → UInt32) (code : Nat) : ScancodeRow :=
  (scancodeRows.find? fun row => row.label = code).getD (rowAt behind code)

/-- Every access is inside the table and, for a scan code that labels a row, to that
row, so that the run does what the labelled keys do. -/
structure LooksUpByLabel (behind : Nat → UInt32) (codes : List UInt8) : Prop where
  inside : ∀ access ∈ (run behind codes).accesses, access.index < keyboardScancodeStd.length
  labelled : ∀ access ∈ (run behind codes).accesses, ∀ row ∈ scancodeRows,
    row.label = access.code → scancodeRows[access.index / 3]? = some row
  effects : (run behind codes).forget = codes.foldl
    (fun keyboard data => keyboard.effect (labelledRow behind (data.toNat % 0x80)) data)
    boot.init.forget

section Labels

variable {codes : List UInt8} {behind : Nat → UInt32} {code : Nat}

/-- A row whose label is below 0x50 is at its place in the table. -/
theorem row_of_label {row : ScancodeRow} (member : row ∈ scancodeRows) (small : row.label < 0x50) :
    scancodeRows[row.label]? = some row := by
  have all : ∀ row ∈ scancodeRows, row.label < 0x50 → scancodeRows[row.label]? = some row := by
    decide +kernel
  exact all row member small

theorem labelledRow_eq (small : code < 0x50) : labelledRow behind code = rowAt behind code := by
  rw [labelledRow]
  cases found : scancodeRows.find? fun row => row.label = code with
  | none => rfl
  | some row =>
      have label : row.label = code := by simpa using List.find?_some found
      have known := row_of_label (List.mem_of_find?_eq_some found) (label ▸ small)
      exact (rowAt_of_known (label ▸ known) label).symm

theorem length_keyboardScancodeStd : keyboardScancodeStd.length = 249 := by decide +kernel

/-- From 0x50 on the rows of the table are not at the places of their labels. -/
theorem row_displaced (known : code < 0x53) (large : 0x50 ≤ code) :
    ∃ row ∈ scancodeRows, row.label = code ∧ scancodeRows[code]? ≠ some row := by
  have all : ∀ code < 0x53, 0x50 ≤ code →
      ∃ row ∈ scancodeRows, row.label = code ∧ scancodeRows[code]? ≠ some row := by
    decide +kernel
  exact all code known large

/-- Every byte looks up the first number of the row at its place, and nothing else
but other numbers of that row. -/
theorem accesses_run (behind : Nat → UInt32) (codes : List UInt8) :
    (∀ data ∈ codes, ⟨data.toNat % 0x80, data.toNat % 0x80 * 3⟩ ∈ (run behind codes).accesses) ∧
      ∀ access ∈ (run behind codes).accesses, ∃ data ∈ codes,
        access.code = data.toNat % 0x80 ∧ access.index / 3 = access.code := by
  induction codes using List.reverseRecOn with
  | nil =>
      have empty : (run behind []).accesses = [] := rfl
      simp [empty]
  | append_singleton before data inductionHypothesis =>
      obtain ⟨first, only⟩ := inductionHypothesis
      obtain ⟨more, accesses, own⟩ :=
        accesses_isrKeyboardInt behind data (run behind before)
      rw [run_append, accesses]
      constructor
      · intro other member
        rcases List.mem_append.mp member with earlier | here
        · exact List.mem_append_left _ (first other earlier)
        · rw [List.mem_singleton.mp here]
          exact List.mem_append_right _ List.mem_cons_self
      · intro access member
        rcases List.mem_append.mp member with earlier | here
        · obtain ⟨other, sent, place⟩ := only access earlier
          exact ⟨other, List.mem_append_left _ sent, place⟩
        · refine ⟨data, by simp, ?_⟩
          rcases List.mem_cons.mp here with rfl | later
          · exact ⟨rfl, Nat.mul_div_cancel _ (by decide)⟩
          · exact own access later

theorem effects_run (small : ∀ data ∈ codes, data.toNat % 0x80 < 0x50) :
    (run behind codes).forget = codes.foldl
      (fun keyboard data => keyboard.effect (labelledRow behind (data.toNat % 0x80)) data)
      boot.init.forget := by
  induction codes using List.reverseRecOn with
  | nil => rfl
  | append_singleton before data inductionHypothesis =>
      have earlier := inductionHypothesis fun data member =>
        small data (List.mem_append_left _ member)
      rw [run_append, forget_isrKeyboardInt, earlier, List.foldl_append,
        ← labelledRow_eq (small data (by simp))]
      rfl

/-- The first access of a byte from 0x50 on is outside the table or to another row. -/
theorem LooksUpByLabel.below (looksUp : LooksUpByLabel behind codes) (data : UInt8)
    (member : data ∈ codes) : data.toNat % 0x80 < 0x50 := by
  have access := (accesses_run behind codes).1 data member
  have inside : data.toNat % 0x80 * 3 < 249 :=
    length_keyboardScancodeStd ▸ looksUp.inside _ access
  by_contra large
  obtain ⟨row, known, label, elsewhere⟩ :=
    row_displaced (show data.toNat % 0x80 < 0x53 by omega) (Nat.le_of_not_lt large)
  have found := looksUp.labelled _ access row known label
  rw [Nat.mul_div_cancel _ (by decide)] at found
  exact elsewhere found

end Labels

/-- Keypad down: the row found is the one labelled with 0x56. -/
theorem keypad_down_unlabelled : ¬ ∀ behind codes, LooksUpByLabel behind codes := by
  intro looksUp
  have small := (looksUp (fun _ => 0) [0x50]).below 0x50 (List.mem_singleton.mpr rfl)
  exact absurd small (by decide)

/-- The table is read in bounds and by its labels exactly when no make or break code
of a key from 0x50 on comes in. -/
theorem scancode_lookup_labelled_iff (behind : Nat → UInt32) (codes : List UInt8) :
    LooksUpByLabel behind codes ↔ ∀ data ∈ codes, data.toNat % 0x80 < 0x50 := by
  constructor
  · exact LooksUpByLabel.below
  · intro small
    have place : ∀ access ∈ (run behind codes).accesses,
        access.code < 0x50 ∧ access.index / 3 = access.code := by
      intro access member
      obtain ⟨data, sent, code, index⟩ := (accesses_run behind codes).2 access member
      exact ⟨code ▸ small data sent, index⟩
    refine ⟨fun access member => ?_, fun access member row known label => ?_, effects_run small⟩
    · obtain ⟨code, index⟩ := place access member
      rw [length_keyboardScancodeStd]
      omega
    · obtain ⟨code, index⟩ := place access member
      rw [index, ← label]
      exact row_of_label known (label ▸ code)

end Keyboard

end Bootloader.Arch
