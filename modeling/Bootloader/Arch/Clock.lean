import Bootloader.Arch.TimerRuns
import Bootloader.Std.Trace
import Mathlib.Data.List.Chain

/-!
# The system clock and its readers

`clock_gettime` loads the seconds and the nanoseconds of the system clock one
after the other, and a clock tick may come between the two. The pair is an instant
of the clock unless that tick completes a second: then the reader has the seconds
before it and the nanoseconds behind it. `readings_ordered_iff` says that this, and
a clock that has run for as long as its seconds have values, is all that can make
the clock run backwards.
-/

namespace Bootloader.Arch

open Bootloader.Std

/-- Times are compared by their seconds, and then by their nanoseconds. -/
instance : LE Timespec where
  le earlier later :=
    earlier.tvSec < later.tvSec ∨
      earlier.tvSec = later.tvSec ∧ earlier.tvNsec ≤ later.tvNsec

/-- `i86_clock_init`. -/
def i86ClockInit (machine : TimerState) : TimerState :=
  { machine with clkTics := 0, sysclock := ⟨0, 0⟩ }

/-- What a reader of the clock does next. -/
inductive ClockPoint where
  /-- The next call, and in it `timestamp->tv_sec = sysclock.tv_sec`. -/
  | loadSec
  /-- `timestamp->tv_nsec = sysclock.tv_nsec`, and the return. -/
  | loadNsec (tvSec : UInt64)
deriving DecidableEq, Repr

/-- The machine, a reader that calls `clock_gettime` over and over, the readings it
has completed, the latest first, and the number of ticks there have been. -/
structure ClockState where
  machine : TimerState
  point : ClockPoint
  readings : List Timespec
  ticks : Nat

/-- Something that happens to the clock or its reader. -/
inductive ClockEvent where
  | tick
  | load
deriving DecidableEq, Repr

namespace ClockState

/-- The clock as it is started, in any state of the timer. -/
def start (machine : TimerState) : ClockState where
  machine := i86ClockInit machine
  point := .loadSec
  readings := []
  ticks := 0

/-- A step of `clock_gettime`. -/
def clockGettime (state : ClockState) : ClockState :=
  match state.point with
  | .loadSec => { state with point := .loadNsec state.machine.sysclock.tvSec }
  | .loadNsec tvSec =>
      { state with
        point := .loadSec
        readings := ⟨tvSec, state.machine.sysclock.tvNsec⟩ :: state.readings }

/-- `isr_clock_int`. -/
def tick (state : ClockState) : ClockState :=
  { state with machine := state.machine.tick, ticks := state.ticks + 1 }

/-- Ticks and loads in any order, for at most `uptime` ticks. Between the two loads
of a call only those ticks come that `between` has, counted from the start. -/
inductive Step (uptime : Nat) (between : Nat → Prop) :
    ClockState → ClockEvent → ClockState → Prop
  | tick {state : ClockState} (soon : state.ticks < uptime)
      (permitted : state.point = .loadSec ∨ between state.ticks) :
      Step uptime between state .tick state.tick
  | load (state : ClockState) : Step uptime between state .load state.clockGettime

/-- No reading is before the one completed before it. -/
def Ordered (state : ClockState) : Prop :=
  state.readings.IsChain fun later earlier => earlier ≤ later

/-- The ticks that a second has no part in: after all but each hundredth one the
clock shows the same second. -/
def WithinSecond (tick : Nat) : Prop := tick % 100 ≠ 99

instance : DecidablePred WithinSecond := fun tick => inferInstanceAs (Decidable (tick % 100 ≠ 99))

/-- The reader has read the seconds of the present time, and none of its readings
is later than that. -/
structure Invariant (uptime : Nat) (state : ClockState) : Prop where
  clock : state.machine.sysclock = Timespec.ofTicks state.ticks
  bound : state.ticks ≤ uptime
  ordered : state.Ordered
  past : ∀ reading ∈ state.readings.head?, reading ≤ Timespec.ofTicks state.ticks
  current : ∀ tvSec, state.point = .loadNsec tvSec → tvSec = (Timespec.ofTicks state.ticks).tvSec

end ClockState

section Times

theorem Timespec.le_def {earlier later : Timespec} :
    earlier ≤ later ↔ earlier.tvSec < later.tvSec ∨
      earlier.tvSec = later.tvSec ∧ earlier.tvNsec ≤ later.tvNsec := Iff.rfl

theorem Timespec.le_refl (time : Timespec) : time ≤ time :=
  Or.inr ⟨rfl, UInt64.le_refl _⟩

theorem Timespec.le_trans {first second third : Timespec} (one : first ≤ second)
    (two : second ≤ third) : first ≤ third := by
  rw [Timespec.le_def] at *
  grind

/-- The clock goes forward as long as its seconds do not wrap. -/
theorem ofTicks_le {ticks later : Nat} (order : ticks ≤ later) (small : later < 100 * 2 ^ 64) :
    Timespec.ofTicks ticks ≤ Timespec.ofTicks later := by
  rw [Timespec.le_def, UInt64.lt_iff_toNat_lt, ← UInt64.toNat_inj, UInt64.le_iff_toNat_le,
    toNat_ofTicks_sec, toNat_ofTicks_sec, toNat_ofTicks_nsec, toNat_ofTicks_nsec]
  omega

/-- From the last value of the seconds the clock goes back to zero. -/
theorem ofTicks_wrap :
    ¬ Timespec.ofTicks (100 * 2 ^ 64 - 1) ≤ Timespec.ofTicks (100 * 2 ^ 64) := by
  rw [Timespec.le_def, UInt64.lt_iff_toNat_lt, ← UInt64.toNat_inj, UInt64.le_iff_toNat_le,
    toNat_ofTicks_sec, toNat_ofTicks_sec, toNat_ofTicks_nsec, toNat_ofTicks_nsec]
  omega

theorem sysclock_tick (machine : TimerState) :
    machine.tick.sysclock = machine.sysclock.tic := by
  cases stop : machine.softtimer0.stop with
  | true => rw [TimerState.tick_stopped stop]
  | false => rw [TimerState.tick_running stop]

end Times

namespace ClockState

variable {uptime : Nat} {between : Nat → Prop} {state next : ClockState} {event : ClockEvent}
  {log : List (ClockState × ClockEvent)} {machine : TimerState}

theorem clockGettime_loadSec (point : state.point = .loadSec) :
    state.clockGettime = { state with point := .loadNsec state.machine.sysclock.tvSec } := by
  rw [clockGettime, point]

theorem clockGettime_loadNsec {tvSec : UInt64} (point : state.point = .loadNsec tvSec) :
    state.clockGettime =
      { state with
        point := .loadSec
        readings := ⟨tvSec, state.machine.sysclock.tvNsec⟩ :: state.readings } := by
  rw [clockGettime, point]

/-- A tick between the loads of a call leaves the second as it is. -/
theorem Invariant.afterTick (invariant : state.Invariant uptime) (soon : state.ticks < uptime)
    (small : uptime < 100 * 2 ^ 64)
    (within : state.point = .loadSec ∨ WithinSecond state.ticks) :
    state.tick.Invariant uptime where
  clock := by
    rw [tick, sysclock_tick, invariant.clock, tic_ofTicks]
  bound := soon
  ordered := invariant.ordered
  past reading member := Timespec.le_trans (invariant.past reading member)
    (ofTicks_le (Nat.le_succ _) (by simp only [tick]; omega))
  current tvSec loaded := by
    have point : state.point = .loadNsec tvSec := loaded
    rw [invariant.current tvSec point]
    rcases within with start | within
    · rw [point] at start
      cases start
    · unfold WithinSecond at within
      simp only [tick, Timespec.ofTicks]
      rw [show (state.ticks + 1) / 100 = state.ticks / 100 by omega]

/-- Both loads of a call read the same instant, which is not before the reading
completed last. -/
theorem Invariant.afterLoad (invariant : state.Invariant uptime) :
    state.clockGettime.Invariant uptime := by
  cases point : state.point with
  | loadSec =>
    rw [clockGettime_loadSec point]
    refine ⟨invariant.clock, invariant.bound, invariant.ordered, invariant.past, ?_⟩
    rintro tvSec ⟨⟩
    rw [invariant.clock]
  | loadNsec tvSec =>
    have present : (⟨tvSec, state.machine.sysclock.tvNsec⟩ : Timespec) =
        Timespec.ofTicks state.ticks := by
      rw [invariant.current tvSec point, invariant.clock]
    rw [clockGettime_loadNsec point, present]
    refine ⟨invariant.clock, invariant.bound, ?_, ?_, fun _ loaded => by cases loaded⟩
    · exact List.isChain_cons.mpr ⟨invariant.past, invariant.ordered⟩
    · rintro reading ⟨⟩
      exact Timespec.le_refl _

theorem start_invariant (machine : TimerState) : (start machine).Invariant uptime where
  clock := ofTicks_zero.symm
  bound := Nat.zero_le _
  ordered := List.IsChain.nil
  past := by rintro reading ⟨⟩
  current := by rintro tvSec ⟨⟩

/-- Runs in which no tick completes a second between the loads of a call. -/
theorem trace_invariant (small : uptime < 100 * 2 ^ 64)
    (within : ∀ tick < uptime, between tick → WithinSecond tick)
    (trace : Trace (Step uptime between) (start machine) log state) :
    state.Invariant uptime := by
  apply trace.always (start_invariant machine)
  rintro state event next invariant (⟨soon, permitted⟩ | _)
  · exact invariant.afterTick soon small (permitted.imp_right (within _ soon))
  · exact invariant.afterLoad

/-- The clock may be left to tick before it is read. -/
theorem exists_ticks (between : Nat → Prop) (machine : TimerState) {ticks : Nat}
    (soon : ticks ≤ uptime) :
    ∃ log state, Trace (Step uptime between) (start machine) log state ∧
      state.point = .loadSec ∧ state.machine.sysclock = Timespec.ofTicks ticks ∧
      state.ticks = ticks := by
  induction ticks with
  | zero => exact ⟨[], _, .start, rfl, ofTicks_zero.symm, rfl⟩
  | succ ticks inductionHypothesis =>
      obtain ⟨log, state, trace, point, clock, rfl⟩ := inductionHypothesis (Nat.le_of_lt soon)
      refine ⟨_, _, trace.extend (.tick soon (Or.inl point)), point, ?_, rfl⟩
      rw [tick, sysclock_tick, clock, tic_ofTicks]

/-- A call that no tick interrupts reads the time at which it is made. -/
theorem exists_reading (between : Nat → Prop) (machine : TimerState) {ticks : Nat}
    (soon : ticks ≤ uptime) :
    ∃ log state, Trace (Step uptime between) (start machine) log state ∧
      state.point = .loadSec ∧ state.machine.sysclock = Timespec.ofTicks ticks ∧
      state.ticks = ticks ∧ ∃ earlier, state.readings = Timespec.ofTicks ticks :: earlier := by
  obtain ⟨log, state, trace, point, clock, counted⟩ :=
    exists_ticks between machine soon
  refine ⟨_, _, (trace.extend (.load _)).extend (.load _), ?_⟩
  rw [clockGettime_loadSec point, clockGettime_loadNsec rfl]
  exact ⟨rfl, clock, counted, state.readings, by rw [← clock]⟩

/-- A call that loads the last second of a second and the nanoseconds of the next
one returns less than a call just before it. -/
theorem exists_torn (machine : TimerState) {ticks : Nat} (soon : ticks < uptime)
    (last : ¬ WithinSecond ticks) (permitted : between ticks) :
    ∃ log state, Trace (Step uptime between) (start machine) log state ∧ ¬ state.Ordered := by
  obtain ⟨log, state, trace, point, clock, rfl, earlier, readings⟩ :=
    exists_reading between machine (Nat.le_of_lt soon)
  have started := trace.extend (.load _)
  rw [clockGettime_loadSec point] at started
  refine ⟨_, _, (started.extend (.tick soon (Or.inr permitted))).extend (.load _), ?_⟩
  rw [clockGettime_loadNsec rfl]
  intro ordered
  simp only [Ordered, tick, readings] at ordered
  obtain ⟨back, _⟩ := List.isChain_cons_cons.mp ordered
  rw [sysclock_tick, clock, tic_ofTicks] at back
  rcases back with later | ⟨_, after⟩
  · exact absurd later (UInt64.lt_irrefl _)
  · simp only [UInt64.le_iff_toNat_le, toNat_ofTicks_nsec] at after
    unfold WithinSecond at last
    omega

/-- A clock that is left running until its seconds wrap goes back to zero. -/
theorem exists_wrapped (between : Nat → Prop) (machine : TimerState)
    (long : 100 * 2 ^ 64 ≤ uptime) :
    ∃ log state, Trace (Step uptime between) (start machine) log state ∧ ¬ state.Ordered := by
  have soon : 100 * 2 ^ 64 - 1 < uptime := by omega
  obtain ⟨log, state, trace, point, clock, counted, earlier, readings⟩ :=
    exists_reading between machine (Nat.le_of_lt soon)
  have ticked := trace.extend (.tick (counted ▸ soon) (Or.inl point))
  have wrapped : state.tick.point = .loadSec := point
  refine ⟨_, _, (ticked.extend (.load _)).extend (.load _), ?_⟩
  rw [clockGettime_loadSec wrapped, clockGettime_loadNsec rfl]
  intro ordered
  simp only [Ordered, tick, readings] at ordered
  obtain ⟨back, _⟩ := List.isChain_cons_cons.mp ordered
  rw [sysclock_tick, clock, tic_ofTicks] at back
  exact ofTicks_wrap back

/-- The clock of a torn call: it has shown 0.99 s, and is read at the tick behind. -/
theorem clock_runs_backwards :
    ¬ ∀ log state, Trace (Step 100 fun _ => True) (start .boot) log state → state.Ordered := by
  intro ordered
  obtain ⟨log, state, trace, back⟩ :=
    @exists_torn 100 (fun _ => True) .boot 99 (by decide) (by decide) trivial
  exact back (ordered log state trace)

/-- Every reader sees the clock go forward, in every run, exactly when no tick that
completes a second may come between the loads of a call, and the clock is not left
running until its seconds wrap. -/
theorem readings_ordered_iff (machine : TimerState) (uptime : Nat) (between : Nat → Prop) :
    (∀ log state, Trace (Step uptime between) (start machine) log state → state.Ordered) ↔
      uptime < 100 * 2 ^ 64 ∧ ∀ tick < uptime, between tick → WithinSecond tick := by
  constructor
  · intro ordered
    have small : uptime < 100 * 2 ^ 64 := by
      by_contra long
      obtain ⟨log, state, trace, back⟩ := exists_wrapped between machine (Nat.le_of_not_lt long)
      exact back (ordered log state trace)
    refine ⟨small, fun tick soon permitted => ?_⟩
    by_contra last
    obtain ⟨log, state, trace, back⟩ := exists_torn machine soon last permitted
    exact back (ordered log state trace)
  · rintro ⟨small, within⟩ log state trace
    exact (trace_invariant small within trace).ordered

end ClockState

end Bootloader.Arch
