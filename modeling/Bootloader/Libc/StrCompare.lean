import Bootloader.Libc.Ctype
import Bootloader.Libc.StrOperations

/-!
# Comparing strings

`strcmp` and `strncmp` walk along two strings up to the first difference.
`compareText` is what they come to on the texts of the strings.
-/

namespace Bootloader.Libc

open Bootloader.Std

/-- Where `strlen` stands, and the characters it has counted. -/
structure LengthCursor where
  str : UInt32
  count : UInt32

/-- One turn of the loop in `strlen`. -/
def strlenTurn (cursor : LengthCursor) (memory : Memory) :
    Outcome Memory (Turn LengthCursor UInt32) :=
  if memory cursor.str.toNat ≠ 0 then
    .returned (.again ⟨cursor.str + 1, cursor.count + 1⟩) memory
  else .returned (.leave cursor.count) memory

/-- `strlen`. -/
def strlen (str : UInt32) (memory : Memory) : Outcome Memory UInt32 :=
  if str = 0 then .panicked "str != NULL" memory
  else loop strlenTurn stringTurns ⟨str, 0⟩ memory

/-- The order of two characters, as `char`: what `strcmp` and `strncmp` return. -/
def compareChars (c1 c2 : UInt8) : Int :=
  if c1 = c2 then 0 else if charInt c1 < charInt c2 then -1 else 1

/-- Where a comparison stands in both strings, and how many characters are passed. -/
structure CompareCursor where
  s1 : UInt32
  s2 : UInt32
  i : UInt32

/-- Both strings go on, with the same character. -/
def SameCharacter (memory : Memory) (s1 s2 : UInt32) : Prop :=
  memory s1.toNat ≠ 0 ∧ memory s2.toNat ≠ 0 ∧ memory s1.toNat = memory s2.toNat

instance (memory : Memory) (s1 s2 : UInt32) : Decidable (SameCharacter memory s1 s2) :=
  inferInstanceAs (Decidable (_ ∧ _ ∧ _))

/-- One turn of the loop in `strcmp`, and the comparison behind it. -/
def strcmpTurn (cursor : CompareCursor) (memory : Memory) :
    Outcome Memory (Turn CompareCursor Int) :=
  if SameCharacter memory cursor.s1 cursor.s2 then
    .returned (.again ⟨cursor.s1 + 1, cursor.s2 + 1, cursor.i⟩) memory
  else .returned (.leave (compareChars (memory cursor.s1.toNat) (memory cursor.s2.toNat))) memory

/-- `strcmp`. -/
def strcmp (s1 s2 : UInt32) (memory : Memory) : Outcome Memory Int :=
  if s1 = 0 then .panicked "s1 != NULL" memory
  else if s2 = 0 then .panicked "s2 != NULL" memory
  else loop strcmpTurn stringTurns ⟨s1, s2, 0⟩ memory

/-- One turn of the loop in `strncmp`, and the comparison behind it. -/
def strncmpTurn (n : UInt32) (cursor : CompareCursor) (memory : Memory) :
    Outcome Memory (Turn CompareCursor Int) :=
  if cursor.i < n ∧ SameCharacter memory cursor.s1 cursor.s2 then
    if cursor.i + 1 < n then
      .returned (.again ⟨cursor.s1 + 1, cursor.s2 + 1, cursor.i + 1⟩) memory
    else .returned (.again ⟨cursor.s1, cursor.s2, cursor.i + 1⟩) memory
  else .returned (.leave (compareChars (memory cursor.s1.toNat) (memory cursor.s2.toNat))) memory

/-- `strncmp`. -/
def strncmp (s1 s2 n : UInt32) (memory : Memory) : Outcome Memory Int :=
  if s1 = 0 then .panicked "s1 != NULL" memory
  else if s2 = 0 then .panicked "s2 != NULL" memory
  else loop (strncmpTurn n) stringTurns ⟨s1, s2, 0⟩ memory

/-- The order of two texts: that of the first characters that differ, where the end of a
text counts as the character 0. -/
def compareText : List UInt8 → List UInt8 → Int
  | [], [] => 0
  | [], c2 :: _ => compareChars 0 c2
  | c1 :: _, [] => compareChars c1 0
  | c1 :: rest1, c2 :: rest2 =>
      if c1 = c2 then compareText rest1 rest2 else compareChars c1 c2

section Texts

variable {c1 c2 : UInt8} {text1 text2 : List UInt8}

theorem compareChars_eq_zero_iff : compareChars c1 c2 = 0 ↔ c1 = c2 := by
  rw [compareChars]
  by_cases same : c1 = c2
  · rw [if_pos same]
    exact iff_of_true rfl same
  · rw [if_neg same]
    refine iff_of_false ?_ same
    split <;> decide

/-- Only equal texts compare equal. -/
theorem compareText_eq_zero_iff (valid1 : ∀ c ∈ text1, c ≠ 0) (valid2 : ∀ c ∈ text2, c ≠ 0) :
    compareText text1 text2 = 0 ↔ text1 = text2 := by
  induction text1 generalizing text2 with
  | nil =>
      cases text2 with
      | nil => exact iff_of_true rfl rfl
      | cons c2 rest2 =>
          rw [compareText, compareChars_eq_zero_iff]
          exact iff_of_false (valid2 c2 List.mem_cons_self).symm (List.cons_ne_nil _ _).symm
  | cons c1 rest1 inductionHypothesis =>
      cases text2 with
      | nil =>
          rw [compareText, compareChars_eq_zero_iff]
          exact iff_of_false (valid1 c1 List.mem_cons_self) (List.cons_ne_nil _ _)
      | cons c2 rest2 =>
          rw [compareText, List.cons.injEq]
          by_cases same : c1 = c2
          · rw [if_pos same, inductionHypothesis (List.forall_mem_cons.mp valid1).2
              (List.forall_mem_cons.mp valid2).2]
            exact (and_iff_right same).symm
          · rw [if_neg same, compareChars_eq_zero_iff]
            exact iff_of_false same fun both => same both.1

/-- Where the first characters differ, they decide. -/
theorem compareText_head
    (different : ¬ ∃ c rest1 rest2, text1 = c :: rest1 ∧ text2 = c :: rest2) :
    compareText text1 text2 = compareChars (text1.headD 0) (text2.headD 0) := by
  cases text1 with
  | nil => cases text2 <;> rfl
  | cons c1 rest1 =>
      cases text2 with
      | nil => rfl
      | cons c2 rest2 =>
          have other : ¬ c1 = c2 := fun same => different ⟨c1, rest1, rest2, rfl, by rw [same]⟩
          rw [compareText, if_neg other]
          rfl

/-- That is so however many characters are looked at. -/
theorem compareText_take_head (count : Nat)
    (different : ¬ ∃ c rest1 rest2, text1 = c :: rest1 ∧ text2 = c :: rest2) :
    compareText (text1.take (count + 1)) (text2.take (count + 1)) =
      compareChars (text1.headD 0) (text2.headD 0) := by
  rw [compareText_head]
  · cases text1 <;> cases text2 <;> rfl
  · rintro ⟨c, rest1, rest2, first, second⟩
    cases text1 with
    | nil => cases first
    | cons c1 more1 =>
        cases text2 with
        | nil => cases second
        | cons c2 more2 =>
            rw [List.take_succ_cons, List.cons.injEq] at first second
            exact different ⟨c, more1, more2, by rw [first.1], by rw [second.1]⟩

end Texts

section Walks

variable {memory : Memory} {str s1 s2 n : UInt32} {text text1 text2 : List UInt8}

/-- `strlen` counts the characters of a string. -/
theorem strlen_eq (string : CString memory str text) :
    strlen str memory = .returned (UInt32.ofNat text.length) memory := by
  have walk : ∀ turns count, text.length < turns →
      loop strlenTurn turns ⟨str, UInt32.ofNat count⟩ memory =
        .returned (UInt32.ofNat (count + text.length)) memory := by
    intro turns count enough
    induction text generalizing str turns count with
    | nil =>
        obtain ⟨turns, rfl⟩ := Nat.exists_eq_add_of_lt enough
        apply loop_leave
        rw [strlenTurn, if_neg fun more => more string.2]
        rfl
    | cons c rest inductionHypothesis =>
        rw [List.length_cons] at enough
        obtain ⟨turns, rfl⟩ := Nat.exists_eq_add_of_lt enough
        have more : memory str.toNat ≠ 0 := by
          rw [show memory str.toNat = c from string.2.2.1]
          exact string.2.1
        have passed : strlenTurn ⟨str, UInt32.ofNat count⟩ memory =
            .returned (.again ⟨str + 1, UInt32.ofNat (count + 1)⟩) memory := by
          rw [strlenTurn, if_pos more, UInt32.ofNat_add]
          rfl
        rw [loop_again passed, inductionHypothesis string.2.2.2 _ _ (by omega), List.length_cons,
          Nat.add_assoc, Nat.add_comm 1]
  have counted := walk stringTurns 0 string.length_lt
  rw [Nat.zero_add] at counted
  rw [strlen, if_neg string.ne_zero]
  exact counted

/-- The first characters of two strings are the same, or the comparison is over. -/
theorem sameCharacter_iff (string1 : CString memory s1 text1) (string2 : CString memory s2 text2) :
    SameCharacter memory s1 s2 ↔
      ∃ c rest1 rest2, text1 = c :: rest1 ∧ text2 = c :: rest2 := by
  rw [SameCharacter, string1.head, string2.head]
  cases text1 with
  | nil => exact iff_of_false (fun same => same.1 rfl) (by simp)
  | cons c1 rest1 =>
      cases text2 with
      | nil => exact iff_of_false (fun same => same.2.1 rfl) (by simp)
      | cons c2 rest2 =>
          constructor
          · rintro ⟨_, _, same⟩
            obtain rfl : c1 = c2 := same
            exact ⟨c1, rest1, rest2, rfl, rfl⟩
          · rintro ⟨c, _, _, first, second⟩
            cases first
            cases second
            exact ⟨string1.2.1, string2.2.1, rfl⟩

/-- Where the characters differ, they decide the order of the texts. -/
theorem compareChars_head (string1 : CString memory s1 text1) (string2 : CString memory s2 text2) :
    compareChars (memory s1.toNat) (memory s2.toNat) =
      compareChars (text1.headD 0) (text2.headD 0) := by
  rw [string1.head, string2.head]

/-- `strcmp` gives the order of the texts. -/
theorem strcmp_eq (string1 : CString memory s1 text1) (string2 : CString memory s2 text2) :
    strcmp s1 s2 memory = .returned (compareText text1 text2) memory := by
  have walk : ∀ turns i, text1.length < turns → loop strcmpTurn turns ⟨s1, s2, i⟩ memory =
      .returned (compareText text1 text2) memory := by
    intro turns i enough
    induction turns generalizing s1 s2 text1 text2 with
    | zero => exact absurd enough (Nat.not_lt_zero _)
    | succ turns inductionHypothesis =>
        by_cases same : SameCharacter memory s1 s2
        · obtain ⟨c, rest1, rest2, rfl, rfl⟩ := (sameCharacter_iff string1 string2).mp same
          have passed : strcmpTurn ⟨s1, s2, i⟩ memory =
              .returned (.again ⟨s1 + 1, s2 + 1, i⟩) memory := by
            rw [strcmpTurn, if_pos same]
          rw [loop_again passed, compareText, if_pos rfl]
          exact inductionHypothesis string1.2.2.2 string2.2.2.2 (Nat.lt_of_succ_lt_succ enough)
        · apply loop_leave
          rw [strcmpTurn, if_neg same, compareChars_head string1 string2,
            compareText_head (same ∘ (sameCharacter_iff string1 string2).mpr)]
  rw [strcmp, if_neg string1.ne_zero, if_neg string2.ne_zero]
  exact walk stringTurns 0 string1.length_lt

/-- `strncmp` gives the order of the first characters of the texts. -/
theorem strncmp_eq (string1 : CString memory s1 text1) (string2 : CString memory s2 text2)
    (nonzero : 0 < n) :
    strncmp s1 s2 n memory =
      .returned (compareText (text1.take n.toNat) (text2.take n.toNat)) memory := by
  have walk : ∀ turns i left, text1.length + 1 < turns → i.toNat + left + 1 = n.toNat →
      loop (strncmpTurn n) turns ⟨s1, s2, i⟩ memory =
        .returned (compareText (text1.take (left + 1)) (text2.take (left + 1))) memory := by
    intro turns i left enough place
    induction turns generalizing s1 s2 text1 text2 i left with
    | zero => exact absurd enough (Nat.not_lt_zero _)
    | succ turns inductionHypothesis =>
        have bound := n.toNat_lt
        have within : i < n := UInt32.lt_iff_toNat_lt.mpr (by omega)
        have next : (i + 1).toNat = i.toNat + 1 := toNat_add_one (by omega)
        by_cases same : SameCharacter memory s1 s2
        · obtain ⟨c, rest1, rest2, rfl, rfl⟩ := (sameCharacter_iff string1 string2).mp same
          rw [List.length_cons] at enough
          rw [List.take_succ_cons, List.take_succ_cons, compareText, if_pos rfl]
          cases left with
          | zero =>
              have last : ¬ i + 1 < n := by
                rw [UInt32.lt_iff_toNat_lt]
                omega
              obtain ⟨turns, rfl⟩ : ∃ fewer, turns = fewer + 1 := ⟨turns - 1, by omega⟩
              have passed : strncmpTurn n ⟨s1, s2, i⟩ memory =
                  .returned (.again ⟨s1, s2, i + 1⟩) memory := by
                rw [strncmpTurn, if_pos ⟨within, same⟩, if_neg last]
              rw [loop_again passed]
              apply loop_leave
              rw [strncmpTurn, if_neg fun both => last both.1, same.2.2,
                compareChars_eq_zero_iff.mpr rfl]
              rfl
          | succ left =>
              have more : i + 1 < n := UInt32.lt_iff_toNat_lt.mpr (by omega)
              have passed : strncmpTurn n ⟨s1, s2, i⟩ memory =
                  .returned (.again ⟨s1 + 1, s2 + 1, i + 1⟩) memory := by
                rw [strncmpTurn, if_pos ⟨within, same⟩, if_pos more]
              rw [loop_again passed]
              exact inductionHypothesis string1.2.2.2 string2.2.2.2 _ _ (by omega) (by omega)
        · apply loop_leave
          rw [strncmpTurn, if_neg fun both => same both.2, compareChars_head string1 string2,
            compareText_take_head left (same ∘ (sameCharacter_iff string1 string2).mpr)]
  have positive : 0 < n.toNat := UInt32.lt_iff_toNat_lt.mp nonzero
  have enough : text1.length + 1 < stringTurns := by
    have fits := string1.fits
    have valid := toNat_pos_iff.mpr string1.ne_zero
    unfold stringTurns
    omega
  obtain ⟨left, whole⟩ := Nat.exists_eq_add_of_lt positive
  rw [Nat.zero_add] at whole
  rw [strncmp, if_neg string1.ne_zero, if_neg string2.ne_zero, whole]
  exact walk stringTurns 0 left enough (by rw [UInt32.toNat_zero]; omega)

end Walks

end Bootloader.Libc
