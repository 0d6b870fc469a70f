import Bootloader.Arch.Clock

/-!
# What the clock counts

The clock and the timer that counts along with it add up nanoseconds and carry where
these come to a whole second. `clock_arithmetic_exact` says that the sums are exact, for
the clock from its start and for the timer from each reset on, whatever else is done to
the timer in between.
-/

namespace Bootloader.Arch

/-- What is done to the clock and to the timer. `timer_start` and `timer_rewind` are a
reset and an arming, and ticks may come between the two. -/
inductive ClockCall where
  /-- `isr_clock_int`. -/
  | isrClockInt
  /-- `timer_wind`. -/
  | timerWind (type : TimerFeature) (wait : Timespec)
  /-- The reset of `spent`. -/
  | reset
  /-- `stop = false`. -/
  | arm
  /-- `timer_disarm`. -/
  | timerDisarm
deriving DecidableEq, Repr

/-- `spent = 0`, both fields of it. -/
def TimerState.reset (machine : TimerState) : TimerState := machine.clearSec.clearNsec

/-- The machine with the number of calls of `isr_clock_int` since `i86_clock_init`, and
that of the ticks received with `stop` false since the timer was last reset. -/
structure ClockHistory where
  machine : TimerState
  calls : Nat
  received : Nat

namespace ClockHistory

/-- The machine after `i86_clock_init`. -/
def start : ClockHistory where
  machine := i86ClockInit .boot
  calls := 0
  received := 0

/-- One more call. -/
def extend (history : ClockHistory) : ClockCall → ClockHistory
  | .isrClockInt =>
      { machine := history.machine.tick
        calls := history.calls + 1
        received :=
          if history.machine.softtimer0.stop then history.received else history.received + 1 }
  | .timerWind type wait =>
      { history with machine := history.machine.wind type wait, received := 0 }
  | .reset => { history with machine := history.machine.reset, received := 0 }
  | .arm => { history with machine := history.machine.arm }
  | .timerDisarm => { history with machine := history.machine.disarm }

/-- The history that calls make, one after the other. -/
def ofCalls (calls : List ClockCall) : ClockHistory := calls.foldl extend start

/-- What the fields are in step with. -/
structure Counted (history : ClockHistory) : Prop where
  clkTics : history.machine.clkTics = UInt64.ofNat history.calls
  sysclock : history.machine.sysclock = Timespec.ofTicks history.calls
  spent : history.machine.softtimer0.spent = Timespec.ofTicks history.received

end ClockHistory

/-- A time is that of a number of ticks, in nanoseconds. -/
structure Timespec.Measures (time : Timespec) (ticks : Nat) : Prop where
  normal : time.tvNsec.toNat < 10 ^ 9
  exact : time.tvSec.toNat * 10 ^ 9 + time.tvNsec.toNat = ticks * 10 ^ 7

/-- The time after a number of ticks is theirs, as long as its seconds do not wrap. -/
theorem measures_ofTicks {ticks : Nat} (small : ticks < 100 * 2 ^ 64) :
    (Timespec.ofTicks ticks).Measures ticks := by
  constructor
  · rw [toNat_ofTicks_nsec]
    omega
  · rw [toNat_ofTicks_sec, toNat_ofTicks_nsec]
    omega

namespace TimerState

variable {machine : TimerState}

theorem clkTics_tick (machine : TimerState) : machine.tick.clkTics = machine.clkTics + 1 := by
  cases stop : machine.softtimer0.stop with
  | true => rw [tick_stopped stop]
  | false => rw [tick_running stop]

/-- The timer receives a tick unless it is stopped. -/
theorem spent_tick (machine : TimerState) :
    machine.tick.softtimer0.spent =
      if machine.softtimer0.stop then machine.softtimer0.spent
      else machine.softtimer0.spent.tic := by
  cases stop : machine.softtimer0.stop with
  | true => rw [tick_stopped stop, if_pos rfl]
  | false => rw [tick_running stop, if_neg Bool.false_ne_true]

end TimerState

namespace ClockHistory

variable {history : ClockHistory}

/-- Every call keeps the fields in step. -/
theorem Counted.extend (counted : history.Counted) (call : ClockCall) :
    (history.extend call).Counted := by
  cases call with
  | isrClockInt =>
      refine ⟨?_, ?_, ?_⟩
      · simp only [ClockHistory.extend, TimerState.clkTics_tick, counted.clkTics]
        rw [UInt64.ofNat_add]
        rfl
      · simp only [ClockHistory.extend, sysclock_tick, counted.sysclock, tic_ofTicks]
      · simp only [ClockHistory.extend, TimerState.spent_tick, counted.spent]
        split
        · rfl
        · exact tic_ofTicks _
  | timerWind type wait => exact ⟨counted.clkTics, counted.sysclock, ofTicks_zero.symm⟩
  | reset => exact ⟨counted.clkTics, counted.sysclock, ofTicks_zero.symm⟩
  | arm => exact ⟨counted.clkTics, counted.sysclock, counted.spent⟩
  | timerDisarm => exact ⟨counted.clkTics, counted.sysclock, counted.spent⟩

theorem counted_start : start.Counted := ⟨rfl, ofTicks_zero.symm, ofTicks_zero.symm⟩

theorem counted_ofCalls (calls : List ClockCall) : (ofCalls calls).Counted := by
  have extended : ∀ history : ClockHistory, history.Counted →
      (calls.foldl ClockHistory.extend history).Counted := by
    induction calls with
    | nil => exact fun _ counted => counted
    | cons call calls inductionHypothesis =>
        exact fun history counted => inductionHypothesis _ (counted.extend call)
  exact extended start counted_start

/-- The clock shows the ticks since its start, and the timer those it has received since
it was last reset, after any calls whatsoever. -/
theorem clock_arithmetic_exact (calls : List ClockCall) :
    let history := ofCalls calls
    (history.calls < 2 ^ 64 →
      history.machine.clkTics.toNat = history.calls ∧
        history.machine.sysclock.Measures history.calls) ∧
    (history.received < 2 ^ 64 →
      history.machine.softtimer0.spent.Measures history.received) := by
  have counted := counted_ofCalls calls
  refine ⟨fun small => ⟨?_, ?_⟩, fun small => ?_⟩
  · rw [counted.clkTics, UInt64.toNat_ofNat']
    exact Nat.mod_eq_of_lt small
  · rw [counted.sysclock]
    exact measures_ofTicks (by omega)
  · rw [counted.spent]
    exact measures_ofTicks (by omega)

/-- Forty ticks with the timer stopped, and 130 more once it has been started. -/
def carryCalls : List ClockCall :=
  List.replicate 40 .isrClockInt ++
    [.timerWind .autoRewind ⟨2, 0⟩, .reset, .arm] ++ List.replicate 130 .isrClockInt

/-- Both the clock and the timer carry a second. -/
theorem clock_arithmetic_exact_carry :
    (ofCalls carryCalls).machine.clkTics.toNat = 170 ∧
      (ofCalls carryCalls).machine.sysclock.Measures 170 ∧
      (ofCalls carryCalls).machine.softtimer0.spent.Measures 130 := by
  have calls : (ofCalls carryCalls).calls = 170 := by decide +kernel
  have received : (ofCalls carryCalls).received = 130 := by decide +kernel
  obtain ⟨clock, timer⟩ := clock_arithmetic_exact carryCalls
  rw [calls] at clock
  rw [received] at timer
  obtain ⟨tics, time⟩ := clock (by decide)
  exact ⟨tics, time, timer (by decide)⟩

end ClockHistory

end Bootloader.Arch
