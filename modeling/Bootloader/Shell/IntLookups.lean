import Bootloader.Libc.CtypeLookups
import Bootloader.Shell.Int

/-!
# Lookups of `arg_checkdigits`

Like the conversions, the check of digits looks every character up as it is.
`number_parsing_inTable_iff` says of all three when they stay in the table.
-/

namespace Bootloader.Shell

open Bootloader.Libc Bootloader.Std

namespace Lookup

section Functions

variable (behind : UInt8 → UInt8)

/-- One turn of the loop in `arg_checkdigits`. -/
def argCheckdigitsTurn (str len : UInt32) (base : Base) (cursor : CheckCursor) (scan : Scan) :
    Outcome Scan (Turn CheckCursor Bool) :=
  let digit := Libc.Lookup.isdigitinbase behind (scan.memory (str + cursor.i).toNat) base
  if cursor.valid ∧ cursor.i < len then
    .returned (.again ⟨cursor.i + 1, cursor.valid && digit.value⟩) (scan.look digit.indexes)
  else .returned (.leave cursor.valid) scan

/-- `arg_checkdigits`. -/
def argCheckdigits (str : UInt32) (base : Base) (scan : Scan) : Outcome Scan Bool :=
  ((strlen str scan.memory).within ({ scan with memory := · })).andThen fun len scan =>
    loop (argCheckdigitsTurn behind str len base) stringTurns ⟨2, true⟩ scan

end Functions

section Checks

variable {behind : UInt8 → UInt8} {base : Base} {scan : Scan} {str len : UInt32}
  {text rest : List UInt8} {c : UInt8}

/-- A turn keeps the earlier lookups. -/
theorem argCheckdigitsTurn_keeps {index : Nat} (cursor : CheckCursor) (scan : Scan)
    (member : index ∈ scan.indexes) :
    index ∈ (argCheckdigitsTurn behind str len base cursor scan).state.indexes := by
  rw [argCheckdigitsTurn]
  split
  · exact Scan.mem_look member _
  · exact member

/-- A digit in front does not change where the digits end. -/
theorem endsInTable_cons (valid : ValidIn base c) :
    EndsInTable base (c :: rest) ↔ EndsInTable base rest := by
  obtain ⟨digits, numeral⟩ := exists_longestNumeral base rest
  obtain ⟨behindDigits, rfl, ends⟩ := numeral.split
  have longer : ∀ c' ∈ c :: digits, ValidIn base c' :=
    List.forall_mem_cons.mpr ⟨valid, numeral.valid⟩
  rw [endsInTable_iff numeral.valid ends, ← List.cons_append, endsInTable_iff longer ends]

/-- A character that is no digit ends them. -/
theorem endsInTable_other (other : ¬ ValidIn base c) :
    EndsInTable base (c :: rest) ↔ c < 128 := by
  have vacuous : ∀ c ∈ ([] : List UInt8), ValidIn base c := by simp
  have ends : ∀ c' ∈ (c :: rest).head?, ¬ ValidIn base c' := by simpa using other
  rw [← List.nil_append (c :: rest), endsInTable_iff vacuous ends]
  simp

theorem endsInTable_nil : EndsInTable base [] := ⟨[], [], rfl, by simp, by simp⟩

/-- The loop stays in the table when the digits that are left end in it. -/
theorem argCheckdigits_walk (passed rest : List UInt8)
    (string : CString scan.memory str (passed ++ rest)) (inTable : scan.InTable) :
    ∀ turns, rest.length + 1 < turns →
      ((loop (argCheckdigitsTurn behind str (UInt32.ofNat (passed ++ rest).length) base) turns
          ⟨UInt32.ofNat passed.length, true⟩ scan).state.InTable ↔ EndsInTable base rest) := by
  intro turns enough
  induction rest generalizing passed turns scan with
  | nil =>
      obtain ⟨turns, rfl⟩ := Nat.exists_eq_add_of_lt enough
      refine iff_of_true ?_ endsInTable_nil
      rw [List.append_nil,
        loop_leave (by rw [argCheckdigitsTurn, if_neg fun both => UInt32.lt_irrefl _ both.2])]
      exact inTable
  | cons c rest inductionHypothesis =>
      obtain ⟨turns, rfl⟩ : ∃ fewer, turns = fewer + 2 := ⟨turns - 2, by omega⟩
      obtain ⟨more, looked, next⟩ := index_here string
      let digit := Libc.Lookup.isdigitinbase behind c base
      have turn : argCheckdigitsTurn behind str (UInt32.ofNat (passed ++ c :: rest).length) base
          ⟨UInt32.ofNat passed.length, true⟩ scan =
            .returned (.again ⟨UInt32.ofNat (passed ++ [c]).length, digit.value⟩)
              (scan.look digit.indexes) := by
        rw [argCheckdigitsTurn, looked, if_pos ⟨rfl, more⟩, next]
        rfl
      by_cases ascii : c < 128
      · have kept := inTable.look (@Libc.Lookup.isdigitinbase_only behind base c) ascii
        have value : digit.value = true ↔ ValidIn base c := by
          rw [← isdigitinbase_iff ascii, ← Libc.Lookup.isdigitinbase_value ascii]
        rw [loop_again turn]
        by_cases valid : ValidIn base c
        · rw [endsInTable_cons valid, value.mpr valid]
          have there : CString (scan.look digit.indexes).memory str (passed ++ c :: rest) := string
          rw [List.append_cons] at there ⊢
          rw [List.length_cons] at enough
          exact inductionHypothesis (passed ++ [c]) there kept (turns + 1) (by omega)
        · rw [endsInTable_other valid]
          refine iff_of_true ?_ ascii
          have stops : ¬ digit.value = true := valid ∘ value.mp
          rw [loop_leave (by rw [argCheckdigitsTurn, if_neg fun both => stops both.1])]
          exact kept
      · have other : ¬ ValidIn base c := fun valid => ascii valid.ascii
        rw [endsInTable_other other]
        refine iff_of_false (Scan.not_inTable_of_mem ?_ ascii) ascii
        refine @loop_keeps _ _ _ _ _ _ (fun after => c.toNat ∈ after.indexes)
          (fun current before member => argCheckdigitsTurn_keeps current before member) _ ?_
        rw [turn]
        exact List.mem_append_right _ Libc.Lookup.mem_isdigitinbase

/-- `arg_checkdigits` stays in the table exactly when the digits from the third character on
end in it. -/
theorem argCheckdigits_inTable_iff (string : CString scan.memory str text)
    (inTable : scan.InTable) :
    (argCheckdigits behind str base scan).state.InTable ↔ EndsInTable base (text.drop 2) := by
  rw [argCheckdigits, strlen_eq string, Outcome.returned_within, Outcome.returned_andThen]
  by_cases short : text.length < 2
  · rw [List.drop_eq_nil_of_le (Nat.le_of_lt short)]
    refine iff_of_true ?_ endsInTable_nil
    have left : argCheckdigitsTurn behind str (UInt32.ofNat text.length) base ⟨2, true⟩ scan =
        .returned (.leave true) scan := by
      rw [argCheckdigitsTurn, if_neg fun both => index_short short both.2]
    obtain ⟨turns, positive⟩ := Nat.exists_eq_add_of_lt stringTurns_pos
    rw [positive, loop_leave left]
    exact inTable
  · have two : (text.take 2).length = 2 := by
      rw [List.length_take]
      omega
    have enough := string.length_lt
    have walked := @argCheckdigits_walk behind base scan str (text.take 2) (text.drop 2)
      (by rwa [List.take_append_drop]) inTable stringTurns (by
        rw [List.length_drop]
        omega)
    rw [List.take_append_drop, two] at walked
    exact walked

/-- The characters of a string, one by one. -/
theorem char_ascii {memory : Memory} (string : CString memory str text)
    (ascii : ∀ c ∈ text, c < 128) {i : UInt32} (within : i.toNat < text.length) :
    memory (str + i).toNat < 128 := by
  have split : text = text.take i.toNat ++ text[i.toNat] :: text.drop (i.toNat + 1) := by simp
  rw [split] at string
  have here := string.drop.2.2.1
  rw [List.length_take, Nat.min_eq_left (Nat.le_of_lt within), UInt32.ofNat_toNat] at here
  rw [here]
  exact ascii _ (List.getElem_mem within)

/-- The scan is where the check is, with the same memory. -/
def Follows {Value : Type} (memory : Memory) (value : Value) (before : Memory) (value' : Value)
    (after : Scan) : Prop :=
  value' = value ∧ before = memory ∧ after.memory = memory

theorem argCheckdigitsTurn_follows {memory : Memory} (string : CString memory str text)
    (ascii : ∀ c ∈ text, c < 128) (length : len.toNat = text.length) (cursor : CheckCursor)
    (before : Memory) (cursor' : CheckCursor) (before' : Scan)
    (follows : Follows memory cursor before cursor' before') :
    Agrees (Follows memory) (Follows memory) (Shell.argCheckdigitsTurn str len base cursor before)
      (argCheckdigitsTurn behind str len base cursor' before') := by
  obtain ⟨rfl, rfl, same⟩ := follows
  rw [Shell.argCheckdigitsTurn, argCheckdigitsTurn, same]
  by_cases goesOn : cursor'.valid ∧ cursor'.i < len
  · have within : cursor'.i.toNat < text.length := length ▸ UInt32.lt_iff_toNat_lt.mp goesOn.2
    rw [if_pos goesOn, if_pos goesOn,
      Libc.Lookup.isdigitinbase_value (char_ascii string ascii within)]
    exact ⟨rfl, rfl, same⟩
  · rw [if_neg goesOn, if_neg goesOn]
    exact ⟨rfl, rfl, same⟩

/-- On characters of seven bits the check is the one that knows nothing of what stands
behind the table. -/
theorem argCheckdigits_agrees (string : CString scan.memory str text)
    (ascii : ∀ c ∈ text, c < 128) :
    ∃ valid after, argCheckdigits behind str base scan = .returned valid after ∧
      Shell.argCheckdigits str base scan.memory = .returned valid after.memory := by
  have checked := argCheckdigits_eq string base
  have length : (UInt32.ofNat text.length).toNat = text.length := by
    have fits := string.fits
    rw [UInt32.toNat_ofNat']
    omega
  rw [checked]
  rw [Shell.argCheckdigits, strlen_eq string, Outcome.returned_andThen] at checked
  rw [argCheckdigits, strlen_eq string, Outcome.returned_within, Outcome.returned_andThen]
  have start : Follows scan.memory (⟨2, true⟩ : CheckCursor) scan.memory ⟨2, true⟩ scan :=
    ⟨rfl, rfl, rfl⟩
  obtain ⟨valid, after, ran, rfl, _, same⟩ := loop_simulation
    (@argCheckdigitsTurn_follows behind base str _ text _ string ascii length) start checked
  exact ⟨_, after, ran, by rw [same]⟩

/-- `strtoull`, `strtoll` and `arg_checkdigits` look nothing up behind the table exactly when
the digits that each of them reads end with the string, or with a character of seven bits. -/
theorem number_parsing_inTable_iff {memory : Memory} (string : CString memory str text)
    (behind : UInt8 → UInt8) (base : Base) (endptr : UInt32) :
    ((Libc.Lookup.strtoull behind str endptr base ⟨memory, []⟩).state.InTable ↔
      EndsInTable base text) ∧
    ((Libc.Lookup.strtoll behind str endptr base ⟨memory, []⟩).state.InTable ↔
      EndsInTable base (if text.head? = some minus then text.tail else text)) ∧
    ((argCheckdigits behind str base ⟨memory, []⟩).state.InTable ↔
      EndsInTable base (text.drop 2)) := by
  have nothing : (⟨memory, []⟩ : Scan).InTable := fun _ member => absurd member List.not_mem_nil
  exact ⟨Libc.Lookup.strtoull_inTable_iff string nothing endptr,
    Libc.Lookup.strtoll_inTable_iff string nothing endptr,
    argCheckdigits_inTable_iff string nothing⟩

/-- The string "00" with a character of eight bits behind it. -/
def wideMemory : Memory := Memory.storeBytes (fun _ => 0) 0x1000 [0x30, 0x30, 0x80]

theorem number_parsing_inTable_iff_wide :
    ((Libc.Lookup.strtoull (fun _ => 0) 0x1000 0 decimal ⟨wideMemory, []⟩).state.InTable ↔
      EndsInTable decimal [0x30, 0x30, 0x80]) ∧
    ((Libc.Lookup.strtoll (fun _ => 0) 0x1000 0 decimal ⟨wideMemory, []⟩).state.InTable ↔
      EndsInTable decimal [0x30, 0x30, 0x80]) ∧
    ((argCheckdigits (fun _ => 0) 0x1000 decimal ⟨wideMemory, []⟩).state.InTable ↔
      EndsInTable decimal [0x80]) :=
  number_parsing_inTable_iff (by decide +kernel : CString wideMemory 0x1000 [0x30, 0x30, 0x80])
    (fun _ => 0) decimal 0

/-- None of the three stays in the table on that string. -/
theorem number_parsing_leaves_table :
    ¬ (Libc.Lookup.strtoull (fun _ => 0) 0x1000 0 decimal ⟨wideMemory, []⟩).state.InTable ∧
    ¬ (Libc.Lookup.strtoll (fun _ => 0) 0x1000 0 decimal ⟨wideMemory, []⟩).state.InTable ∧
    ¬ (argCheckdigits (fun _ => 0) 0x1000 decimal ⟨wideMemory, []⟩).state.InTable := by
  unfold Scan.InTable
  decide +kernel

end Checks

end Lookup

end Bootloader.Shell
