import Bootloader.Libc.NbToStrBuffer

/-!
# Numbers that are written and read back

What `uinttostring` and `inttostring` leave in a buffer is read back by `strtoull` and
`strtoll` in the same base, up to the terminator. The most negative number passes through
two negations that leave it what it is.
-/

namespace Bootloader.Libc

open Bootloader.Std

section Texts

variable {base : Base} {memory : Memory} {str : UInt32}

theorem longestNumeral_uinttostring (nb : UInt64) (base : Base) :
    LongestNumeral base (uinttostring nb base) (uinttostring nb base) := by
  have numeral := @longestNumeral_append base (uinttostring nb base) []
    (uinttostring_valid nb base) (by simp)
  rwa [List.append_nil] at numeral

theorem uinttostring_ascii (nb : UInt64) (base : Base) : ∀ c ∈ uinttostring nb base, c < 128 :=
  fun c member => (uinttostring_valid nb base c member).ascii

/-- A number is written without a sign. -/
theorem uinttostring_unsigned (nb : UInt64) (base : Base) :
    (uinttostring nb base).head? ≠ some minus :=
  fun first => not_validIn_minus base
    (uinttostring_valid nb base minus (List.mem_of_mem_head? first))

/-- The text of a number is read back. -/
theorem strtoull_uinttostring {nb : UInt64} (string : CString memory str (uinttostring nb base))
    (endptr : UInt32) :
    strtoull str endptr base memory = .returned nb
      (storeEnd endptr (str + UInt32.ofNat (uinttostring nb base).length) memory) := by
  rw [strtoull_eq string (uinttostring_ascii nb base) (longestNumeral_uinttostring nb base),
    textValue_uinttostring, UInt64.ofNat_toNat]

/-- The text of a signed number is read back: negating twice gives every number again, the
most negative one included. -/
theorem strtoll_inttostring {n : Int64} (string : CString memory str (inttostring n base))
    (endptr : UInt32) :
    strtoll str endptr base memory = .returned n
      (storeEnd endptr (str + UInt32.ofNat (inttostring n base).length) memory) := by
  rw [inttostring] at string ⊢
  by_cases negative : n < 0
  · rw [if_pos negative] at string ⊢
    rw [strtoll_minus string (uinttostring_ascii _ base) (longestNumeral_uinttostring _ base),
      textValue_uinttostring, UInt64.ofNat_toNat, Int64.toInt64_toUInt64, Int64.neg_neg,
      List.length_cons]
  · rw [if_neg negative] at string ⊢
    rw [strtoll_eq string (uinttostring_ascii _ base) (uinttostring_unsigned _ base)
      (longestNumeral_uinttostring _ base), textValue_uinttostring, UInt64.ofNat_toNat,
      Int64.toInt64_toUInt64]

end Texts

/-- `uinttostring` writes the numeral of a number: a string of at most 65 bytes with its
terminator, of digits that are valid in the base and without a leading zero, which
`strtoull` reads back up to the terminator. -/
theorem uinttostring_round_trip (nb : UInt64) (base : Base) (memory : Memory) {str : UInt32}
    (valid : str ≠ 0) (fits : str.toNat + (uinttostring nb base).length < 2 ^ 32) :
    ∃ after text, uinttostringInto nb str base memory = .returned () after ∧
      CString after str text ∧ text.length + 1 ≤ 65 ∧
      (∀ place, place < str.toNat ∨ str.toNat + text.length < place →
        after place = memory place) ∧
      (nb ≠ 0 → text.head? ≠ some 0x30) ∧ (∀ c ∈ text, ValidIn base c) ∧
      ∀ endptr, strtoull str endptr base after =
        .returned nb (storeEnd endptr (str + UInt32.ofNat text.length) after) := by
  obtain ⟨after, ran, string, frame⟩ := uinttostringInto_eq nb base memory valid fits
  exact ⟨after, uinttostring nb base, ran, string, Nat.succ_le_succ (uinttostring_length nb base),
    frame, fun nonzero => uinttostring_head nonzero base, uinttostring_valid nb base,
    fun endptr => strtoull_uinttostring string endptr⟩

/-- Base 2. -/
def binary : Base := ⟨2, by decide⟩

/-- The largest number in base 2 takes 65 bytes. -/
theorem uinttostring_round_trip_binary :
    ∃ after text, uinttostringInto 0xFFFFFFFFFFFFFFFF 0x1000 binary (fun _ => 1) =
        .returned () after ∧
      CString after 0x1000 text ∧ text.length + 1 ≤ 65 ∧
      ∀ endptr, strtoull 0x1000 endptr binary after = .returned 0xFFFFFFFFFFFFFFFF
        (storeEnd endptr (0x1000 + UInt32.ofNat text.length) after) := by
  have few := uinttostring_length 0xFFFFFFFFFFFFFFFF binary
  have start : (0x1000 : UInt32).toNat = 0x1000 := rfl
  obtain ⟨after, text, ran, string, short, _, _, _, read⟩ :=
    @uinttostring_round_trip 0xFFFFFFFFFFFFFFFF binary (fun _ => 1) 0x1000 (by decide) (by omega)
  exact ⟨after, text, ran, string, short, read⟩

/-- What `inttostring` writes `strtoll` reads back, for every signed number. -/
theorem inttostring_round_trip (n : Int64) (base : Base) (memory : Memory) {str : UInt32}
    (valid : str ≠ 0) (fits : str.toNat + (inttostring n base).length < 2 ^ 32) :
    ∃ after text, inttostringInto n str base memory = .returned () after ∧
      CString after str text ∧
      ∀ endptr, strtoll str endptr base after =
        .returned n (storeEnd endptr (str + UInt32.ofNat text.length) after) := by
  obtain ⟨after, ran, string, _⟩ := inttostringInto_eq n base memory valid fits
  exact ⟨after, inttostring n base, ran, string, fun endptr => strtoll_inttostring string endptr⟩

/-- The most negative number. -/
theorem inttostring_round_trip_least :
    ∃ after text, inttostringInto Int64.minValue 0x1000 decimal (fun _ => 1) =
        .returned () after ∧
      CString after 0x1000 text ∧
      ∀ endptr, strtoll 0x1000 endptr decimal after = .returned Int64.minValue
        (storeEnd endptr (0x1000 + UInt32.ofNat text.length) after) :=
  inttostring_round_trip Int64.minValue decimal _ (by decide) (by decide +kernel)

end Bootloader.Libc
