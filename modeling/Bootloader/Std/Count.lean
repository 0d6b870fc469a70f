import Bootloader.Std.Program

/-!
# Counting loops

A counting loop runs its body for every value of a signed counter of 16 bits up to a bound, the
bound included. The two are compared as numbers, so the bound may lie beyond the counter:
`countUp_appends` says what a loop collects whose counter gets past the bound, and
`countUp_endless` that no other loop comes back.
-/

namespace Bootloader.Std

variable {State Item : Type}

/-- One turn of a counting loop. -/
def countTurn (bound : Int) (step : Int16) (body : Int16 → State → Outcome State Unit)
    (counter : Int16) (before : State) : Outcome State (Turn Int16 Unit) :=
  if counter.toInt ≤ bound then
    (body counter before).andThen fun _ after => .returned (.again (counter + step)) after
  else .returned (.leave ()) before

/-- `for (int16_t counter = start; counter <= bound; counter += step)`. -/
def countUp (turns : Nat) (start : Int16) (bound : Int) (step : Int16)
    (body : Int16 → State → Outcome State Unit) (before : State) : Outcome State Unit :=
  loop (countTurn bound step body) turns start before

/-- The values that the counter takes. -/
def counters (start : Int16) (bound : Int) (step : Int16) : List Int16 :=
  (List.range ((bound - start.toInt) / step.toInt + 1).toNat).map
    fun count : Nat => Int16.ofInt (start.toInt + count * step.toInt)

/-- A routine puts items at the end of a list, whatever is in it. -/
def Appends (routine : List Item → Outcome (List Item) Unit) (items : List Item) : Prop :=
  ∀ before, routine before = .returned () (before ++ items)

/-- A routine does so when its loops may take enough turns. -/
def Produces (routine : Nat → List Item → Outcome (List Item) Unit) (items : List Item) : Prop :=
  ∃ enough, ∀ turns, enough ≤ turns → Appends (routine turns) items

theorem Appends.unique {routine : List Item → Outcome (List Item) Unit} {items items' : List Item}
    (appends : Appends routine items) (appends' : Appends routine items') : items = items' := by
  have same := appends []
  rw [appends' []] at same
  cases same
  rfl

theorem Produces.unique {routine : Nat → List Item → Outcome (List Item) Unit}
    {items items' : List Item} (produces : Produces routine items)
    (produces' : Produces routine items') : items = items' := by
  obtain ⟨enough, appends⟩ := produces
  obtain ⟨enough', appends'⟩ := produces'
  exact (appends _ (Nat.le_max_left enough enough')).unique
    (appends' _ (Nat.le_max_right enough enough'))

section Counters

variable {start step counter : Int16} {bound : Int}

theorem toInt_add_of_le {value : Int16} (up : 0 < step.toInt)
    (room : value.toInt + step.toInt ≤ 32767) :
    (value + step).toInt = value.toInt + step.toInt := by
  have lower := value.le_toInt
  rw [Int16.toInt_add]
  exact Int.bmod_eq_of_le (by omega) (by omega)

/-- A counter takes the values in steps from its start that do not exceed its bound. -/
theorem mem_counters (up : 0 < step.toInt) (room : bound + step.toInt ≤ 32767) :
    counter ∈ counters start bound step ↔
      counter.toInt ≤ bound ∧ ∃ count : Nat, counter.toInt = start.toInt + count * step.toInt := by
  have within (count : Nat) :
      count < ((bound - start.toInt) / step.toInt + 1).toNat ↔
        start.toInt + count * step.toInt ≤ bound := by
    rw [Int.lt_toNat, Int.lt_add_one_iff, Int.le_ediv_iff_mul_le up]
    omega
  have number (count : Nat) (atMost : start.toInt + count * step.toInt ≤ bound) :
      (Int16.ofInt (start.toInt + count * step.toInt)).toInt =
        start.toInt + count * step.toInt := by
    have lower := start.le_toInt
    have onward : 0 ≤ count * step.toInt := Int.mul_nonneg (Int.natCast_nonneg _) (Int.le_of_lt up)
    exact Int16.toInt_ofInt_of_le (by omega) (by omega)
  rw [counters, List.mem_map]
  constructor
  · rintro ⟨count, taken, rfl⟩
    have atMost := (within count).mp (List.mem_range.mp taken)
    rw [number count atMost]
    exact ⟨atMost, count, rfl⟩
  · rintro ⟨atMost, count, value⟩
    rw [value] at atMost
    refine ⟨count, List.mem_range.mpr ((within count).mpr atMost), ?_⟩
    rw [← value, Int16.ofInt_toInt]

/-- A counter takes its first value, and then those from the second on. -/
theorem counters_cons (up : 0 < step.toInt) (room : bound + step.toInt ≤ 32767)
    (atMost : start.toInt ≤ bound) :
    counters start bound step = start :: counters (start + step) bound step := by
  have next := toInt_add_of_le up (show start.toInt + step.toInt ≤ 32767 by omega)
  have fewer : (bound - start.toInt) / step.toInt =
      (bound - (start + step).toInt) / step.toInt + 1 := by
    rw [next, ← Int.add_mul_ediv_right _ 1 (Int.ne_of_gt up)]
    congr 1
    omega
  have positive : 0 ≤ (bound - start.toInt) / step.toInt :=
    Int.ediv_nonneg (by omega) (Int.le_of_lt up)
  have length : ((bound - start.toInt) / step.toInt + 1).toNat =
      ((bound - (start + step).toInt) / step.toInt + 1).toNat + 1 := by omega
  rw [counters, length, List.range_succ_eq_map, List.map_cons, List.map_map, counters]
  congr 1
  · rw [Int.natCast_zero, Int.zero_mul, Int.add_zero, Int16.ofInt_toInt]
  · refine List.map_congr_left (fun count _ => congrArg Int16.ofInt ?_)
    rw [next, Int.natCast_succ, Int.add_mul, Int.one_mul]
    omega

/-- A counter that starts past its bound takes no value. -/
theorem counters_nil (up : 0 < step.toInt) (past : bound < start.toInt) :
    counters start bound step = [] := by
  have negative : (bound - start.toInt) / step.toInt < 0 := Int.ediv_neg_of_neg_of_pos (by omega) up
  have nothing : ((bound - start.toInt) / step.toInt + 1).toNat = 0 := by omega
  rw [counters, nothing]
  rfl

/-- By ones, a counter takes every value between its start and its bound. -/
theorem mem_counters_one (below : bound < 32767) :
    counter ∈ counters start bound 1 ↔ start.toInt ≤ counter.toInt ∧ counter.toInt ≤ bound := by
  have one : (1 : Int16).toInt = 1 := rfl
  rw [mem_counters (by decide) below, one]
  constructor
  · rintro ⟨within, count, value⟩
    omega
  · rintro ⟨onward, within⟩
    exact ⟨within, (counter.toInt - start.toInt).toNat, by omega⟩

/-- A counter takes nothing but its start and its bound exactly when one step leads from the one
to the other, or none has to. -/
theorem counters_ends_iff {last : Int16} (up : 0 < step.toInt)
    (room : last.toInt + step.toInt ≤ 32767) (atMost : start.toInt ≤ last.toInt) :
    (∀ counter, counter ∈ counters start last.toInt step ↔ counter = start ∨ counter = last) ↔
      last = start ∨ last.toInt - start.toInt = step.toInt := by
  constructor
  · intro ends
    by_cases stays : last = start
    · exact Or.inl stays
    · -- the last value is reached, so the second one does not lie behind it
      have differ : last.toInt ≠ start.toInt := fun same => stays (Int16.toInt_inj.mp same)
      have reached := (ends last).mpr (Or.inr rfl)
      rw [counters_cons up room atMost, List.mem_cons, or_iff_right stays,
        mem_counters up room] at reached
      obtain ⟨_, count, value⟩ := reached
      have next := toInt_add_of_le up (show start.toInt + step.toInt ≤ 32767 by omega)
      have more : 0 ≤ count * step.toInt :=
        Int.mul_nonneg (Int.natCast_nonneg _) (Int.le_of_lt up)
      have second : start + step ∈ counters start last.toInt step := by
        rw [counters_cons up room atMost, counters_cons up room (by omega)]
        exact List.mem_cons_of_mem _ List.mem_cons_self
      rcases (ends (start + step)).mp second with first | only
      · rw [first] at next
        omega
      · rw [only] at next
        exact Or.inr (by omega)
  · rintro (rfl | one) counter
    · have next := toInt_add_of_le up room
      rw [counters_cons up room (Int.le_refl _), counters_nil up (by omega), List.mem_singleton,
        or_self]
    · have next := toInt_add_of_le up (show start.toInt + step.toInt ≤ 32767 by omega)
      have second : start + step = last := Int16.toInt_inj.mp (by omega)
      have third := toInt_add_of_le up room
      rw [counters_cons up room atMost, second, counters_cons up room (Int.le_refl _),
        counters_nil up (by omega), List.mem_cons, List.mem_singleton]

end Counters

section Loop

variable {start step : Int16} {bound : Int} {turns : Nat}

/-- A counting loop collects what its body does for each value of the counter. -/
theorem countUp_appends {body : Int16 → List Item → Outcome (List Item) Unit}
    {items : Int16 → List Item} (up : 0 < step.toInt) (room : bound + step.toInt ≤ 32767)
    (each : ∀ counter ∈ counters start bound step, Appends (body counter) (items counter))
    (enough : (bound + 1 - start.toInt).toNat < turns) :
    Appends (countUp turns start bound step body) ((counters start bound step).flatMap items) := by
  intro before
  induction turns generalizing start before with
  | zero => exact absurd enough (Nat.not_lt_zero _)
  | succ turns inductionHypothesis =>
      by_cases within : start.toInt ≤ bound
      · have next := toInt_add_of_le up (show start.toInt + step.toInt ≤ 32767 by omega)
        rw [counters_cons up room within] at each ⊢
        have first := each start List.mem_cons_self before
        rw [countUp, loop, countTurn, if_pos within, first, List.flatMap_cons, ← List.append_assoc]
        exact inductionHypothesis (fun counter later => each counter (List.mem_cons_of_mem _ later))
          (by omega) (before ++ items start)
      · rw [counters_nil up (Int.not_le.mp within), countUp, loop, countTurn, if_neg within,
          List.flatMap_nil, List.append_nil]

/-- No counter gets past a bound from its largest value on: the loop does not come back. -/
theorem countUp_endless {body : Int16 → State → Outcome State Unit} {before : State}
    (beyond : 32767 ≤ bound) (after : State) :
    countUp turns start bound step body before ≠ .returned () after := by
  refine @loop_invariant _ _ _ (countTurn bound step body) start before (fun _ _ => True)
    (fun outcome => outcome ≠ .returned () after) (fun counter middle _ => ?_)
    (fun _ _ _ => nofun) turns trivial
  have within : counter.toInt ≤ bound := Int.le_trans (Int.le_of_lt_add_one counter.toInt_lt) beyond
  rw [countTurn, if_pos within]
  cases body counter middle with
  | returned value after => exact trivial
  | panicked reason after => exact nofun
  | diverged after => exact nofun

/-- A loop by ones comes back exactly when its counter can get past the bound. -/
theorem countUp_ends_iff {body : Int16 → List Item → Outcome (List Item) Unit}
    {items : Int16 → List Item} (each : ∀ counter, Appends (body counter) (items counter))
    (before : List Item) :
    (∃ turns after, countUp turns start bound 1 body before = .returned () after) ↔
      bound < 32767 := by
  constructor
  · rintro ⟨turns, after, ran⟩
    exact Int.not_le.mp (fun beyond => countUp_endless beyond after ran)
  · intro below
    have one : 0 < (1 : Int16).toInt := by decide
    exact ⟨_, _, countUp_appends one below (fun counter _ => each counter) (Nat.lt_succ_self _)
      before⟩

end Loop

end Bootloader.Std
