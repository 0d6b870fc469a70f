import Bootloader.Libc.NbToStr

/-!
# Characters

The table of `ctype.c` and the tests that look characters up in it. `isdigitinbase_iff`
says what they come to together: a character is a digit in a base when it denotes a
number below it.
-/

namespace Bootloader.Libc

/-- `CT_UP`: upper case. -/
def ctUp : UInt8 := 0x01

/-- `CT_LOW`: lower case. -/
def ctLow : UInt8 := 0x02

/-- `CT_DIG`: digit. -/
def ctDig : UInt8 := 0x04

/-- `CT_CTL`: control. -/
def ctCtl : UInt8 := 0x08

/-- `CT_PUN`: punctuation. -/
def ctPun : UInt8 := 0x10

/-- `CT_WHT`: white space. -/
def ctWht : UInt8 := 0x20

/-- `CT_HEX`: hex digit. -/
def ctHex : UInt8 := 0x40

/-- `CT_SP`: hard space. -/
def ctSp : UInt8 := 0x80

/-- `_ctype`. -/
def ctype : List UInt8 :=
  [ctCtl, ctCtl, ctCtl, ctCtl, ctCtl, ctCtl, ctCtl, ctCtl,
   ctCtl, ctCtl ||| ctWht, ctCtl ||| ctWht, ctCtl, ctCtl, ctCtl ||| ctWht, ctCtl, ctCtl,
   ctCtl, ctCtl, ctCtl, ctCtl, ctCtl, ctCtl, ctCtl, ctCtl,
   ctCtl, ctCtl, ctCtl, ctCtl, ctCtl, ctCtl, ctCtl, ctCtl,
   ctWht ||| ctSp, ctPun, ctPun, ctPun, ctPun, ctPun, ctPun, ctPun,
   ctPun, ctPun, ctPun, ctPun, ctPun, ctPun, ctPun, ctPun,
   ctDig, ctDig, ctDig, ctDig, ctDig, ctDig, ctDig, ctDig,
   ctDig, ctDig, ctPun, ctPun, ctPun, ctPun, ctPun, ctPun,
   ctPun, ctHex ||| ctUp, ctHex ||| ctUp, ctHex ||| ctUp, ctHex ||| ctUp, ctHex ||| ctUp,
   ctHex ||| ctUp, ctUp,
   ctUp, ctUp, ctUp, ctUp, ctUp, ctUp, ctUp, ctUp,
   ctUp, ctUp, ctUp, ctUp, ctUp, ctUp, ctUp, ctUp,
   ctUp, ctUp, ctUp, ctPun, ctPun, ctPun, ctPun, ctPun,
   ctPun, ctHex ||| ctLow, ctHex ||| ctLow, ctHex ||| ctLow, ctHex ||| ctLow, ctHex ||| ctLow,
   ctHex ||| ctLow, ctLow,
   ctLow, ctLow, ctLow, ctLow, ctLow, ctLow, ctLow, ctLow,
   ctLow, ctLow, ctLow, ctLow, ctLow, ctLow, ctLow, ctLow,
   ctLow, ctLow, ctLow, ctPun, ctPun, ctPun, ctPun, ctCtl]

/-- The entry of a character. The table ends with the characters of seven bits, and of
others nothing is said. -/
def ctypeOf (c : UInt8) : UInt8 := ctype.getD c.toNat 0

/-- `isdigit`. -/
def isdigit (c : UInt8) : Bool := ctypeOf c &&& ctDig != 0

/-- `isxdigit`. -/
def isxdigit (c : UInt8) : Bool := ctypeOf c &&& (ctDig ||| ctHex) != 0

/-- `isupper`. -/
def isupper (c : UInt8) : Bool := ctypeOf c &&& ctUp != 0

/-- `tolower`. -/
def tolower (c : UInt8) : UInt8 := if isupper c then c + 0x61 - 0x41 else c

/-- A `char` as an `int`. -/
def charInt (c : UInt8) : Int := c.toInt8.toInt

/-- `isdigitinbase`. -/
def isdigitinbase (c : UInt8) (base : Base) : Bool :=
  if isdigit c then
    if base.val > 10 then true else charInt c - 0x30 < base.val.toNat
  else if isxdigit c then charInt (tolower c) - 0x61 + 10 < base.val.toNat
  else false

/-- The number a character denotes as a digit: `'0'` to `'9'`, and letters of either case
from 10 on. -/
def digitOf (c : UInt8) : Option Nat :=
  if 0x30 ≤ c ∧ c ≤ 0x39 then some (c.toNat - 0x30)
  else if 0x41 ≤ c ∧ c ≤ 0x5A then some (c.toNat - 0x41 + 10)
  else if 0x61 ≤ c ∧ c ≤ 0x7A then some (c.toNat - 0x61 + 10)
  else none

/-- A character is a digit that is valid in a base. -/
def ValidIn (base : Base) (c : UInt8) : Prop := ∃ number ∈ digitOf c, number < base.val.toNat

section Digits

variable {base : Base} {c : UInt8} {number : Nat}

theorem Base.two_le (base : Base) : 2 ≤ base.val.toNat := UInt64.le_iff_toNat_le.mp base.property.1

theorem Base.le_sixteen (base : Base) : base.val.toNat ≤ 16 :=
  UInt64.le_iff_toNat_le.mp base.property.2

/-- What a table of characters has to say is checked character by character. -/
theorem forall_ascii {Holds : UInt8 → Prop} (all : ∀ code < 128, Holds (UInt8.ofNat code))
    (ascii : c < 128) : Holds c := by
  have here := all c.toNat (UInt8.lt_iff_toNat_lt.mp ascii)
  rwa [UInt8.ofNat_toNat] at here

/-- The digits of the table are the decimal digits. -/
theorem isdigit_denotes (ascii : c < 128) (decimal : isdigit c = true) :
    ∃ number < 10, digitOf c = some number ∧ charInt c - 0x30 = number := by
  have all : ∀ code < 128, isdigit (UInt8.ofNat code) = true →
      ∃ number < 10, digitOf (UInt8.ofNat code) = some number ∧
        charInt (UInt8.ofNat code) - 0x30 = number := by
    decide +kernel
  exact @forall_ascii c (fun c => isdigit c = true → ∃ number < 10,
    digitOf c = some number ∧ charInt c - 0x30 = number) all ascii decimal

/-- The other hexadecimal digits of the table are the first six letters. -/
theorem isxdigit_denotes (ascii : c < 128) (letter : isdigit c = false)
    (hex : isxdigit c = true) :
    ∃ number < 16, digitOf c = some number ∧ charInt (tolower c) - 0x61 + 10 = number := by
  have all : ∀ code < 128, isdigit (UInt8.ofNat code) = false →
      isxdigit (UInt8.ofNat code) = true →
      ∃ number < 16, digitOf (UInt8.ofNat code) = some number ∧
        charInt (tolower (UInt8.ofNat code)) - 0x61 + 10 = number := by
    decide +kernel
  exact @forall_ascii c (fun c => isdigit c = false → isxdigit c = true →
    ∃ number < 16, digitOf c = some number ∧ charInt (tolower c) - 0x61 + 10 = number)
      all ascii letter hex

/-- What is no hexadecimal digit denotes nothing below 16. -/
theorem not_isxdigit_denotes (ascii : c < 128) (refused : isxdigit c = false)
    (denotes : digitOf c = some number) : 16 ≤ number := by
  have all : ∀ code < 128, isxdigit (UInt8.ofNat code) = false →
      ∀ number ∈ digitOf (UInt8.ofNat code), 16 ≤ number := by
    decide +kernel
  exact @forall_ascii c (fun c => isxdigit c = false → ∀ number ∈ digitOf c, 16 ≤ number)
    all ascii refused number denotes

/-- A digit is a character of seven bits. -/
theorem ValidIn.ascii (valid : ValidIn base c) : c < 128 := by
  obtain ⟨number, denotes, _⟩ := valid
  rw [digitOf] at denotes
  rw [UInt8.lt_iff_toNat_lt]
  split at denotes
  · next decimal =>
    exact Nat.lt_of_le_of_lt (UInt8.le_iff_toNat_le.mp decimal.2) (by decide)
  · split at denotes
    · next upper =>
      exact Nat.lt_of_le_of_lt (UInt8.le_iff_toNat_le.mp upper.2) (by decide)
    · split at denotes
      · next lower =>
        exact Nat.lt_of_le_of_lt (UInt8.le_iff_toNat_le.mp lower.2) (by decide)
      · cases denotes

/-- The test of the source is whether a character denotes a number below the base. -/
theorem isdigitinbase_iff (ascii : c < 128) : isdigitinbase c base = true ↔ ValidIn base c := by
  have sixteen := base.le_sixteen
  have ten : base.val > 10 ↔ 10 < base.val.toNat := UInt64.lt_iff_toNat_lt
  rw [isdigitinbase]
  cases decimal : isdigit c with
  | true =>
      obtain ⟨number, small, denotes, value⟩ := isdigit_denotes ascii decimal
      have valid : ValidIn base c ↔ number < base.val.toNat := by simp [ValidIn, denotes]
      rw [valid, if_pos rfl, value]
      by_cases large : base.val > 10
      · rw [if_pos large]
        exact iff_of_true rfl (Nat.lt_trans small (ten.mp large))
      · rw [if_neg large, decide_eq_true_iff, Int.ofNat_lt]
  | false =>
      rw [if_neg Bool.false_ne_true]
      cases hex : isxdigit c with
      | true =>
          obtain ⟨number, _, denotes, value⟩ := isxdigit_denotes ascii decimal hex
          rw [if_pos rfl, value, decide_eq_true_iff, Int.ofNat_lt]
          simp [ValidIn, denotes]
      | false =>
          rw [if_neg Bool.false_ne_true]
          refine iff_of_false Bool.false_ne_true ?_
          rintro ⟨number, denotes, below⟩
          have large := not_isxdigit_denotes ascii hex denotes
          omega

end Digits

end Bootloader.Libc
