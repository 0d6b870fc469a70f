import Bootloader.Libc.StrCompare
import Bootloader.Std.ThreeWay
import Mathlib.Data.Int.Order.Basic

/-!
# The order of strings

`strcmp` orders strings by their characters as `char`, which is signed, and takes the terminator for
a character too. That is a linear order of the strings. A prefix comes first in it as long as the
character behind it does not count as negative, which `strcmp_orders_iff` makes precise.
-/

namespace Bootloader.Libc

open Bootloader.Std

/-- What `strcmp` sees of a text, its terminator included. -/
def signedKeys (text : List UInt8) : List Int := (text ++ [0]).map charInt

/-- What an order of strings with a prefix first owes to two of them, and to any third. -/
structure OrdersAs (memory : Memory) (s1 s2 : UInt32) (text1 text2 : List UInt8) (order : Int) :
    Prop where
  returned : strcmp s1 s2 memory = .returned order memory
  equal : order = 0 ↔ text1 = text2
  opposite : ∃ back, strcmp s2 s1 memory = .returned back memory ∧ order.sign = -back.sign
  transitive : ∀ s3 text3, CString memory s3 text3 → ∃ onward across,
    strcmp s2 s3 memory = .returned onward memory ∧
      strcmp s1 s3 memory = .returned across memory ∧
        (order ≤ 0 → onward ≤ 0 → across ≤ 0) ∧ (order < 0 → onward < 0 → across < 0)
  prefixFirst : text1 <+: text2 → text1 ≠ text2 → order < 0

section Characters

variable {c c1 c2 : UInt8} {text1 text2 text3 : List UInt8}

theorem charInt_inj : charInt c1 = charInt c2 ↔ c1 = c2 := by
  constructor
  · intro same
    exact congrArg Int8.toUInt8 (Int8.toInt_inj.mp same)
  · rintro rfl
    rfl

/-- A character from `0x80` on comes before the terminator. -/
theorem charInt_pos_iff (valid : c ≠ 0) : charInt 0 < charInt c ↔ c < 0x80 := by
  have signed := BitVec.toInt_eq_toNat_cond c.toBitVec
  have number : c.toBitVec.toNat = c.toNat := rfl
  have bound := c.toNat_lt
  have positive : c.toNat ≠ 0 := fun nothing => valid (UInt8.toNat_inj.mp nothing)
  rw [number] at signed
  rw [show charInt 0 = 0 from rfl, show charInt c = c.toBitVec.toInt from rfl, signed,
    UInt8.lt_iff_toNat_lt, show (0x80 : UInt8).toNat = 128 from rfl]
  split <;> omega

/-- Characters are compared as numbers. -/
theorem compareChars_eq (c1 c2 : UInt8) :
    compareChars c1 c2 = threeWay (charInt c1) (charInt c2) := by
  rw [compareChars, threeWay]
  rcases Int.lt_trichotomy (charInt c1) (charInt c2) with less | same | more
  · have differ : c1 ≠ c2 := fun same => Int.ne_of_lt less (charInt_inj.mpr same)
    rw [if_neg differ, if_pos less, if_pos less]
  · rw [if_pos (charInt_inj.mp same), same, if_neg (Int.lt_irrefl _), if_pos rfl]
  · have differ : c1 ≠ c2 := fun same => Int.ne_of_gt more (charInt_inj.mpr same)
    rw [if_neg differ, if_neg (Int.lt_asymm more), if_neg (Int.lt_asymm more),
      if_neg (Int.ne_of_gt more)]

/-- The texts are compared as what `strcmp` sees of them. -/
theorem compareText_eq (valid1 : ∀ c ∈ text1, c ≠ 0) (valid2 : ∀ c ∈ text2, c ≠ 0) :
    compareText text1 text2 = threeWay (signedKeys text1) (signedKeys text2) := by
  induction text1 generalizing text2 with
  | nil =>
      cases text2 with
      | nil => rfl
      | cons c2 rest2 =>
          have other : ¬ charInt 0 = charInt c2 := fun same =>
            valid2 c2 List.mem_cons_self (charInt_inj.mp same).symm
          rw [compareText, compareChars_eq]
          exact ((threeWay_cons (charInt 0) (charInt c2) [] (signedKeys rest2)).trans
            (if_neg other)).symm
  | cons c1 rest1 inductionHypothesis =>
      cases text2 with
      | nil =>
          have other : ¬ charInt c1 = charInt 0 := fun same =>
            valid1 c1 List.mem_cons_self (charInt_inj.mp same)
          rw [compareText, compareChars_eq]
          exact ((threeWay_cons (charInt c1) (charInt 0) (signedKeys rest1) []).trans
            (if_neg other)).symm
      | cons c2 rest2 =>
          have keys := threeWay_cons (charInt c1) (charInt c2) (signedKeys rest1) (signedKeys rest2)
          rw [compareText]
          by_cases same : c1 = c2
          · rw [if_pos (charInt_inj.mpr same)] at keys
            rw [if_pos same, inductionHypothesis (List.forall_mem_cons.mp valid1).2
              (List.forall_mem_cons.mp valid2).2]
            exact keys.symm
          · rw [if_neg fun both => same (charInt_inj.mp both)] at keys
            rw [if_neg same, compareChars_eq]
            exact keys.symm

/-- A text comes before a longer one exactly when the character behind it is a 7-bit character. -/
theorem compareText_prefix_neg_iff (rest : List UInt8) (valid : c ≠ 0) :
    compareText text1 (text1 ++ c :: rest) < 0 ↔ c < 0x80 := by
  induction text1 with
  | nil =>
      rw [List.nil_append, compareText, compareChars_eq, threeWay_neg_iff, charInt_pos_iff valid]
  | cons c1 rest1 inductionHypothesis =>
      rw [List.cons_append, compareText, if_pos rfl]
      exact inductionHypothesis

end Characters

section Strings

variable {memory : Memory} {s1 s2 s3 : UInt32} {text1 text2 text3 : List UInt8}

/-- What `strcmp` returns is how the strings compare. -/
theorem strcmp_threeWay (string1 : CString memory s1 text1) (string2 : CString memory s2 text2) :
    strcmp s1 s2 memory =
      .returned (threeWay (signedKeys text1) (signedKeys text2)) memory := by
  rw [strcmp_eq string1 string2, compareText_eq string1.nonzero string2.nonzero]

/-- `strcmp` is a linear order of the strings, and has a prefix first exactly when no character
from `0x80` on is behind it. -/
theorem strcmp_orders_iff (string1 : CString memory s1 text1)
    (string2 : CString memory s2 text2) :
    (∃ order, OrdersAs memory s1 s2 text1 text2 order) ↔
      ∀ c rest, text2 = text1 ++ c :: rest → c < 0x80 := by
  constructor
  · rintro ⟨order, orders⟩ c rest rfl
    have valid : c ≠ 0 := string2.nonzero c (List.mem_append_right _ List.mem_cons_self)
    have returned := orders.returned
    rw [strcmp_eq string1 string2] at returned
    cases returned
    have longer : text1 ≠ text1 ++ c :: rest := by
      intro same
      rw [List.self_eq_append_right] at same
      cases same
    exact (compareText_prefix_neg_iff rest valid).mp
      (orders.prefixFirst (List.prefix_append _ _) longer)
  · intro narrow
    refine ⟨_, strcmp_threeWay string1 string2, ?_, ?_, fun s3 text3 string3 => ?_, ?_⟩
    · rw [← compareText_eq string1.nonzero string2.nonzero]
      exact compareText_eq_zero_iff string1.nonzero string2.nonzero
    · refine ⟨_, strcmp_threeWay string2 string1, ?_⟩
      rw [threeWay_swap, Int.sign_neg]
    · refine ⟨_, _, strcmp_threeWay string2 string3, strcmp_threeWay string1 string3, ?_, ?_⟩
      · simp only [threeWay_nonpos_iff]
        exact le_trans
      · simp only [threeWay_neg_iff]
        exact lt_trans
    · rintro ⟨behind, rfl⟩ differ
      cases behind with
      | nil => exact absurd (List.append_nil text1).symm differ
      | cons c rest =>
          have valid : c ≠ 0 := string2.nonzero c (List.mem_append_right _ List.mem_cons_self)
          rw [← compareText_eq string1.nonzero string2.nonzero]
          exact (compareText_prefix_neg_iff rest valid).mpr (narrow c rest rfl)

/-- Memory with the string of one character `c` at 512, and empty strings around it. -/
def oneCharacter (c : UInt8) : Memory := fun place => if place = 512 then c else 0

theorem strcmp_orders_iff_digit :
    (∃ order, OrdersAs (oneCharacter 0x30) 256 512 [] [0x30] order) ↔
      ∀ (c : UInt8) rest, [0x30] = [] ++ c :: rest → c < 0x80 := by
  have string1 : CString (oneCharacter 0x30) 256 [] := by decide
  have string2 : CString (oneCharacter 0x30) 512 [0x30] := by decide
  exact strcmp_orders_iff string1 string2

/-- The empty string does not come before that of the character `0x80`. -/
theorem strcmp_prefix_last :
    ¬ ∃ order, OrdersAs (oneCharacter 0x80) 256 512 [] [0x80] order := by
  rintro ⟨order, orders⟩
  have string1 : CString (oneCharacter 0x80) 256 [] := by decide
  have string2 : CString (oneCharacter 0x80) 512 [0x80] := by decide
  have returned := orders.returned
  rw [strcmp_eq string1 string2] at returned
  cases returned
  exact absurd (orders.prefixFirst List.nil_prefix (List.cons_ne_nil _ _).symm) (by decide)

end Strings

end Bootloader.Libc
