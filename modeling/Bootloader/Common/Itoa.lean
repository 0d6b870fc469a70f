import Bootloader.Libc.NbToStrBuffer

/-!
# The numbers of the example kernel

The kernel that the bootloader is tested with has a `printf` of its own, and its `itoa` writes a
number into a buffer of twenty bytes. `itoa_writes` says what stands in the buffer, and that it is
never left.
-/

namespace Bootloader.Common

open Bootloader.Std Bootloader.Libc

/-- `'d'`. -/
def letterD : Int32 := 0x64

/-- `'x'`. -/
def letterX : Int32 := 0x78

/-- The character of a digit in `itoa`. -/
def itoaDigit (remainder : UInt32) : UInt8 :=
  (if remainder < 10 then remainder + 0x30 else remainder + 0x61 - 10).toUInt8

/-- The loop variables of `itoa` while it divides. -/
structure ItoaCursor where
  p : UInt32
  ud : UInt32

/-- One turn of the loop in `itoa` that divides. -/
def itoaTurn (divisor : UInt32) (cursor : ItoaCursor) (memory : Memory) :
    Outcome Memory (Turn ItoaCursor UInt32) :=
  let remainder := cursor.ud % divisor
  let memory := memory.store8 cursor.p.toNat (itoaDigit remainder)
  let p := cursor.p + 1
  let ud := cursor.ud / divisor
  if ud ≠ 0 then .returned (.again ⟨p, ud⟩) memory else .returned (.leave p) memory

/-- One turn of the loop in `itoa` that reverses. -/
def itoaReverseTurn (cursor : ReverseCursor) (memory : Memory) :
    Outcome Memory (Turn ReverseCursor Unit) :=
  if cursor.str < cursor.strEnd then
    let tmp := memory cursor.str.toNat
    let memory := memory.store8 cursor.str.toNat (memory cursor.strEnd.toNat)
    .returned (.again ⟨cursor.str + 1, cursor.strEnd - 1⟩)
      (memory.store8 cursor.strEnd.toNat tmp)
  else .returned (.leave ()) memory

/-- No number of 32 bits has more digits. -/
def itoaTurns : Nat := 33

/-- `itoa`, behind the choice of the sign and of the divisor. -/
def itoaDigits (buf ud divisor : UInt32) (memory : Memory) : Outcome Memory Unit :=
  (loop (itoaTurn divisor) itoaTurns ⟨buf, ud⟩ memory).andThen fun p memory =>
    loop itoaReverseTurn itoaTurns ⟨buf, p - 1⟩ (memory.store8 p.toNat 0)

/-- `itoa`. -/
def itoa (buf : UInt32) (base d : Int32) (memory : Memory) : Outcome Memory Unit :=
  if base = letterD ∧ d < 0 then
    -- The smallest number is its own opposite, and its bits are those of its size.
    itoaDigits (buf + 1) (-d).toUInt32 10 (memory.store8 buf.toNat minus)
  else itoaDigits buf d.toUInt32 (if base = letterX then 16 else 10) memory

/-- The text of a number without a sign. -/
def kernelNumeral (divisor number : Nat) : List UInt8 :=
  (numeral divisor number).map fun digit => itoaDigit (UInt32.ofNat digit)

/-- The text of a number: a sign if it is asked for, and the digits with the most significant one
first. -/
def kernelNumber (base d : Int32) : List UInt8 :=
  if base = letterD ∧ d < 0 then minus :: kernelNumeral 10 d.toInt.natAbs
  else kernelNumeral (if base = letterX then 16 else 10) d.toUInt32.toNat

section Digits

variable {divisor ud buf p : UInt32} {memory : Memory} {digits stored : List UInt8}

/-- Both loops that reverse do the same. -/
theorem itoaReverseTurn_eq : itoaReverseTurn = strnrevTurn := by
  funext cursor memory
  rw [itoaReverseTurn, strnrevTurn]
  by_cases less : cursor.str < cursor.strEnd
  · have apart : cursor.str ≠ cursor.strEnd := by
      intro same
      rw [same] at less
      exact absurd less (UInt32.lt_irrefl _)
    rw [if_pos less, if_pos ⟨apart, less⟩]
  · rw [if_neg less, if_neg fun both => less both.2]

/-- The last digit is all there is of a small number. -/
theorem kernelNumeral_of_lt (small : ud.toNat < divisor.toNat) :
    kernelNumeral divisor.toNat ud.toNat = [itoaDigit (ud % divisor)] := by
  have same : ud % divisor = ud := by
    rw [← UInt32.toNat_inj, UInt32.toNat_mod, Nat.mod_eq_of_lt small]
  rw [kernelNumeral, numeral_of_lt small, List.map_singleton, UInt32.ofNat_toNat, same]

/-- The last digit stands behind those of the quotient. -/
theorem kernelNumeral_of_le (wide : 1 < divisor.toNat) (large : divisor.toNat ≤ ud.toNat) :
    kernelNumeral divisor.toNat ud.toNat =
      kernelNumeral divisor.toNat (ud / divisor).toNat ++ [itoaDigit (ud % divisor)] := by
  rw [kernelNumeral, numeral_of_le wide large, List.map_append, List.map_singleton,
    ← UInt32.toNat_div, ← UInt32.toNat_mod, UInt32.ofNat_toNat, kernelNumeral]

/-- The turn of a digit that is not the last one. -/
theorem itoaTurn_again (large : divisor.toNat ≤ ud.toNat) (positive : 0 < divisor.toNat) :
    itoaTurn divisor ⟨p, ud⟩ memory = .returned (.again ⟨p + 1, ud / divisor⟩)
      (memory.store8 p.toNat (itoaDigit (ud % divisor))) := by
  refine if_pos fun zero => ?_
  have quotient := congrArg UInt32.toNat zero
  rw [UInt32.toNat_div, UInt32.toNat_zero] at quotient
  exact Nat.ne_of_gt (Nat.div_pos large positive) quotient

/-- The turn of the last digit. -/
theorem itoaTurn_leave (small : ud.toNat < divisor.toNat) :
    itoaTurn divisor ⟨p, ud⟩ memory = .returned (.leave (p + 1))
      (memory.store8 p.toNat (itoaDigit (ud % divisor))) := by
  refine if_neg (not_not_intro ?_)
  rw [← UInt32.toNat_inj, UInt32.toNat_div, Nat.div_eq_of_lt small, UInt32.toNat_zero]

/-- The loop stores the digits from the least significant one on, behind what it has stored. The
induction is on the turns that are left. -/
theorem itoaTurn_loop (wide : 1 < divisor.toNat) (turns : Nat)
    (held : memory.loadBytes buf.toNat stored.length = stored)
    (left : (kernelNumeral divisor.toNat ud.toNat).reverse = digits)
    (fits : buf.toNat + (stored ++ digits).length < 2 ^ 32) (enough : digits.length ≤ turns) :
    ∃ after, loop (itoaTurn divisor) turns ⟨buf + UInt32.ofNat stored.length, ud⟩ memory =
        .returned (buf + UInt32.ofNat (stored ++ digits).length) after ∧
      after.loadBytes buf.toNat (stored ++ digits).length = stored ++ digits ∧
      ∀ place, place < buf.toNat ∨ buf.toNat + (stored ++ digits).length ≤ place →
        after place = memory place := by
  induction turns generalizing ud stored memory digits with
  | zero =>
      have empty : digits = [] := List.eq_nil_of_length_eq_zero (Nat.le_zero.mp enough)
      rw [empty, List.reverse_eq_nil_iff, kernelNumeral, List.map_eq_nil_iff] at left
      exact absurd left (numeral_ne_nil _ _)
  | succ turns inductionHypothesis =>
      rw [List.length_append] at fits
      by_cases small : ud.toNat < divisor.toNat
      · rw [kernelNumeral_of_lt small, List.reverse_singleton] at left
        subst left
        rw [List.length_singleton] at fits
        have place : (buf + UInt32.ofNat stored.length).toNat = buf.toNat + stored.length :=
          toNat_offset (by omega)
        have ran := @itoaTurn_leave divisor ud (buf + UInt32.ofNat stored.length) memory small
        rw [place, offset_next] at ran
        refine ⟨_, ?_, loadBytes_store8_behind _ held, fun other outside => ?_⟩
        · rw [List.length_append, List.length_singleton]
          exact loop_leave ran
        · rw [List.length_append, List.length_singleton] at outside
          exact Memory.store8_of_ne (by omega)
      · have large : divisor.toNat ≤ ud.toNat := Nat.le_of_not_lt small
        rw [kernelNumeral_of_le wide large, List.reverse_append, List.reverse_singleton,
          List.singleton_append] at left
        subst left
        rw [List.length_cons] at fits enough
        have place : (buf + UInt32.ofNat stored.length).toNat = buf.toNat + stored.length :=
          toNat_offset (by omega)
        have ran := @itoaTurn_again divisor ud (buf + UInt32.ofNat stored.length) memory large
          (by omega)
        rw [place, offset_next] at ran
        have length : (stored ++ [itoaDigit (ud % divisor)]).length = stored.length + 1 := by
          rw [List.length_append, List.length_singleton]
        obtain ⟨after, more, written, frame⟩ := @inductionHypothesis (ud / divisor)
          (memory.store8 (buf.toNat + stored.length) (itoaDigit (ud % divisor)))
          (kernelNumeral divisor.toNat (ud / divisor).toNat).reverse
          (stored ++ [itoaDigit (ud % divisor)])
          (loadBytes_store8_behind (itoaDigit (ud % divisor)) held) rfl
          (by rw [List.length_append, length]; omega) (by omega)
        rw [length] at more
        rw [List.append_assoc, List.singleton_append] at more written frame
        refine ⟨after, (loop_again ran).trans more, written, fun other outside => ?_⟩
        rw [frame other outside]
        rw [List.length_append, List.length_cons] at outside
        exact Memory.store8_of_ne (by omega)

/-- No character of a number is a terminator. -/
theorem kernelNumeral_ne_zero {base number : Nat} (wide : 1 < base) (sixteen : base ≤ 16) :
    ∀ c ∈ kernelNumeral base number, c ≠ 0 := by
  have all : ∀ digit < 16, itoaDigit (UInt32.ofNat digit) ≠ 0 := by decide
  intro c member
  obtain ⟨digit, inside, rfl⟩ := List.mem_map.mp member
  exact all digit (Nat.lt_of_lt_of_le (numeral_lt wide digit inside) sixteen)

/-- A number of 32 bits has at most ten digits. -/
theorem length_kernelNumeral {base number : Nat} (ten : 10 ≤ base) (number_lt : number < 2 ^ 32) :
    (kernelNumeral base number).length ≤ 10 := by
  rw [kernelNumeral, List.length_map]
  refine numeral_length_le (by omega) (by decide) (Nat.lt_of_lt_of_le number_lt ?_)
  exact Nat.le_trans (by decide) (Nat.pow_le_pow_left ten 10)

/-- What `itoa` leaves behind the sign. -/
theorem itoaDigits_eq (ten : 10 ≤ divisor.toNat) (sixteen : divisor.toNat ≤ 16) (valid : buf ≠ 0)
    (fits : buf.toNat + 11 ≤ 2 ^ 32) :
    ∃ after, itoaDigits buf ud divisor memory = .returned () after ∧
      CString after buf (kernelNumeral divisor.toNat ud.toNat) ∧
      ∀ place, place < buf.toNat ∨
          buf.toNat + (kernelNumeral divisor.toNat ud.toNat).length < place →
        after place = memory place := by
  have few := @length_kernelNumeral divisor.toNat ud.toNat ten ud.toNat_lt
  have length : (kernelNumeral divisor.toNat ud.toNat).reverse.length =
      (kernelNumeral divisor.toNat ud.toNat).length := List.length_reverse
  have positive : 0 < (kernelNumeral divisor.toNat ud.toNat).length :=
    List.length_pos_iff.mpr (List.map_eq_nil_iff.not.mpr (numeral_ne_nil _ _))
  obtain ⟨stored, ran, held, frame⟩ := @itoaTurn_loop divisor ud buf memory
    (kernelNumeral divisor.toNat ud.toNat).reverse [] (by omega) itoaTurns rfl rfl
    (by rw [List.nil_append]; omega) (by unfold itoaTurns; omega)
  rw [List.nil_append] at ran held frame
  rw [length] at ran frame
  have finish : (buf + UInt32.ofNat (kernelNumeral divisor.toNat ud.toNat).length).toNat =
      buf.toNat + (kernelNumeral divisor.toNat ud.toNat).length := toNat_offset (by omega)
  have last : (buf + UInt32.ofNat (kernelNumeral divisor.toNat ud.toNat).length - 1).toNat =
      buf.toNat + (kernelNumeral divisor.toNat ud.toNat).length - 1 := by
    rw [UInt32.toNat_sub, UInt32.toNat_one, finish]
    omega
  -- The terminator is there before the digits change places, and stays.
  obtain ⟨after, reversed, turned, frame'⟩ := @strnrev_loop
    (stored.store8 (buf.toNat + (kernelNumeral divisor.toNat ud.toNat).length) 0) buf
    (buf + UInt32.ofNat (kernelNumeral divisor.toNat ud.toNat).length - 1)
    (kernelNumeral divisor.toNat ud.toNat).reverse
    ((Memory.loadBytes_congr fun place _ below => Memory.store8_of_ne (by omega)).trans held)
    (by rw [length, last]; omega) itoaTurns (by unfold itoaTurns; omega)
  rw [length] at turned frame'
  rw [List.reverse_reverse] at turned
  refine ⟨after, ?_, ?_, fun place outside => ?_⟩
  · have started : loop (itoaTurn divisor) itoaTurns ⟨buf, ud⟩ memory =
        .returned (buf + UInt32.ofNat (kernelNumeral divisor.toNat ud.toNat).length) stored := by
      have nothing : buf + UInt32.ofNat ([] : List UInt8).length = buf := UInt32.add_zero _
      rw [← ran, nothing]
    rw [itoaDigits, started, Outcome.returned_andThen, finish, itoaReverseTurn_eq, reversed]
  · refine CString.of_loadBytes valid (kernelNumeral_ne_zero (by omega) sixteen) (by omega)
      turned ?_
    rw [frame' _ (by omega), Memory.store8_same]
  · rw [frame' place (by omega), Memory.store8_of_ne (by omega), frame place (by omega)]

end Digits

/-- The size of a number below zero, the smallest one included. -/
theorem toNat_neg_of_neg {d : Int32} (negative : d < 0) :
    (-d).toUInt32.toNat = d.toInt.natAbs := by
  have below : d.toInt < 0 := Int32.lt_iff_toInt_lt.mp negative
  have bits : d.toInt = if 2 * d.toBitVec.toNat < 2 ^ 32 then (d.toBitVec.toNat : Int)
      else (d.toBitVec.toNat : Int) - (2 ^ 32 : Nat) := BitVec.toInt_eq_toNat_cond d.toBitVec
  have opposite : (-d).toUInt32.toNat = (2 ^ 32 - d.toBitVec.toNat) % 2 ^ 32 :=
    BitVec.toNat_neg d.toBitVec
  rw [opposite]
  by_cases positive : 2 * d.toBitVec.toNat < 2 ^ 32
  · rw [if_pos positive] at bits
    omega
  · rw [if_neg positive] at bits
    omega

/-- A number with its sign has at most eleven characters. -/
theorem length_kernelNumber (base d : Int32) : (kernelNumber base d).length ≤ 11 := by
  rw [kernelNumber]
  by_cases negative : base = letterD ∧ d < 0
  · have few : d.toInt.natAbs < 2 ^ 32 := by
      have low := d.le_toInt
      have high := d.toInt_lt
      omega
    rw [if_pos negative, List.length_cons]
    exact Nat.succ_le_succ (length_kernelNumeral (by omega) few)
  · rw [if_neg negative]
    refine Nat.le_succ_of_le (length_kernelNumeral ?_ d.toUInt32.toNat_lt)
    by_cases hexadecimal : base = letterX
    · rw [if_pos hexadecimal]
      omega
    · rw [if_neg hexadecimal]

/-- What `itoa` leaves in a buffer: the number, a zero behind it, and nothing else. The smallest
number has a text too. -/
theorem itoa_writes {buf : UInt32} (base d : Int32) (memory : Memory) (valid : buf ≠ 0)
    (fits : buf.toNat + 12 ≤ 2 ^ 32) :
    ∃ after, itoa buf base d memory = .returned () after ∧
      CString after buf (kernelNumber base d) ∧ (kernelNumber base d).length ≤ 11 ∧
      ∀ place, place < buf.toNat ∨ buf.toNat + (kernelNumber base d).length < place →
        after place = memory place := by
  have few := length_kernelNumber base d
  rw [itoa]
  rw [kernelNumber] at few ⊢
  by_cases negative : base = letterD ∧ d < 0
  · have next : (buf + 1).toNat = buf.toNat + 1 := toNat_add_one (by omega)
    have size : (-d).toUInt32.toNat = d.toInt.natAbs := toNat_neg_of_neg negative.2
    obtain ⟨after, ran, string, frame⟩ := @itoaDigits_eq 10 (-d).toUInt32 (buf + 1)
      (memory.store8 buf.toNat minus) (by decide) (by decide) (toNat_pos_iff.mp (by omega))
      (by omega)
    have ten : (10 : UInt32).toNat = 10 := rfl
    rw [size, ten, next] at frame
    rw [size, ten] at string
    have sign : after buf.toNat = minus := by
      rw [frame _ (Or.inl (by omega)), Memory.store8_same]
    rw [if_pos negative] at few ⊢
    rw [if_pos negative]
    refine ⟨after, ran, ⟨valid, by decide, sign, string⟩, few, fun place outside => ?_⟩
    rw [List.length_cons] at outside
    rw [frame place (by omega), Memory.store8_of_ne (by omega)]
  · have divisor : (if base = letterX then (16 : UInt32) else 10).toNat =
        if base = letterX then 16 else 10 := apply_ite UInt32.toNat _ _ _
    have ten : 10 ≤ (if base = letterX then (16 : UInt32) else 10).toNat := by
      rw [divisor]
      split <;> omega
    have sixteen : (if base = letterX then (16 : UInt32) else 10).toNat ≤ 16 := by
      rw [divisor]
      split <;> omega
    obtain ⟨after, ran, string, frame⟩ := @itoaDigits_eq (if base = letterX then 16 else 10)
      d.toUInt32 buf memory ten sixteen valid (by omega)
    rw [divisor] at string frame
    rw [if_neg negative] at few ⊢
    rw [if_neg negative]
    exact ⟨after, ran, string, few, frame⟩

/-- Ninety below zero, written from the first mebibyte on. -/
theorem itoa_writes_below_zero : ∃ after,
    itoa 0x100000 letterD (-90) (fun _ => 7) = .returned () after ∧
      CString after 0x100000 [0x2d, 0x39, 0x30] ∧ after 0x100004 = 7 := by
  have text : kernelNumber letterD (-90) = [0x2d, 0x39, 0x30] := by
    rw [kernelNumber, if_pos (by decide), kernelNumeral, numeral, if_neg (by decide),
      show (-90 : Int32).toInt.natAbs = 90 from rfl]
    norm_num
    decide
  obtain ⟨after, ran, string, -, frame⟩ :=
    @itoa_writes 0x100000 letterD (-90) (fun _ => 7) (by decide) (by decide)
  rw [text] at string frame
  exact ⟨after, ran, string, frame _ (Or.inr (by decide))⟩

end Bootloader.Common
