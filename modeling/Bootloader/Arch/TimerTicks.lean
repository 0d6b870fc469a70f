import Bootloader.Arch.TimerRuns
import Bootloader.Std.Reach

/-!
# How many ticks a timer waits

The service routine of the timer halts the processor between its looks at the time
spent, and any interrupt wakes it. `Processor` is the machine with the halting and the
handler. `timer_expires_on_tick` counts the ticks up to each call of the handler: they are
as many as the time to wait for has, unless one comes where the routine has looked for the
last time and not halted yet, or before the call when the time is up already.
-/

namespace Bootloader.Arch

open Bootloader.Std

/-- The ticks that a time has, the last of them begun. -/
def Timespec.dueTicks (wait : Timespec) : Nat :=
  (wait.tvSec.toNat * 10 ^ 9 + wait.tvNsec.toNat + (10 ^ 7 - 1)) / 10 ^ 7

/-- The machine with the handler of the timer, whether the processor is halted, and
whether it has jumped to address 0. `elapsed` and `calls` are history: the clock ticks since
the timer was last armed, by `timer_start` or by `timer_rewind`, and the calls of the
handler since `timer_start`. -/
structure Processor where
  machine : TimerState
  handler : UInt32
  halted : Bool
  lost : Bool
  elapsed : Nat
  calls : Nat
deriving DecidableEq, Repr

/-- What the processor does next, or what is done to it. -/
inductive ProcessorEvent where
  | execute
  | tick
  /-- An interrupt of another device. -/
  | interrupt
deriving DecidableEq, Repr

namespace Processor

/-- `timer_wind`, and the call of `timer_start`. -/
def launch (type : TimerFeature) (wait : Timespec) (handler : UInt32) (machine : TimerState) :
    Processor where
  machine := (machine.wind type wait).start
  handler := handler
  halted := false
  lost := false
  elapsed := 0
  calls := 0

/-- The next step of `timer_start` and `isr_timer_int`. The handler is called through its
pointer, whatever that is; of what a processor does from address 0 on nothing is known. -/
def execute (processor : Processor) : Processor :=
  if processor.lost then processor
  else
    match processor.machine.point with
    | .halted => { processor with halted := true }
    | .call =>
        if processor.handler = 0 then { processor with lost := true }
        else
          { processor with
            machine := processor.machine.advance
            calls := processor.calls + 1 }
    | .startArm | .rewindArm =>
        { processor with machine := processor.machine.advance, elapsed := 0 }
    | _ => { processor with machine := processor.machine.advance }

/-- An interrupt ends `hlt`. -/
def wake (processor : Processor) : Processor :=
  if processor.halted then
    { processor with machine := processor.machine.advance, halted := false }
  else processor

/-- A clock tick. -/
def tick (processor : Processor) : Processor :=
  wake { processor with machine := processor.machine.tick, elapsed := processor.elapsed + 1 }

/-- What an event does. -/
def on (processor : Processor) : ProcessorEvent → Processor
  | .execute => processor.execute
  | .tick => processor.tick
  | .interrupt => processor.wake

/-- Events one after the other. -/
def run (processor : Processor) (events : List ProcessorEvent) : Processor :=
  events.foldl on processor

/-- The timer has been armed, and its handler is not called yet. -/
def Pending (processor : Processor) : Prop :=
  processor.machine.softtimer0.stop = false ∨ processor.machine.point = .call

/-- A tick that the wait does not end with: it comes when the time is up already, or it is
the last one and comes between the last look at the time and the halting. The last look is
at the nanoseconds, and where they have just been carried to the seconds, that look comes
too late as well. -/
def Late (processor : Processor) (event : ProcessorEvent) : Prop :=
  let due := processor.machine.softtimer0.wait.dueTicks
  event = .tick ∧ processor.Pending ∧ processor.halted = false ∧
    (due ≤ processor.elapsed ∨
      processor.elapsed + 1 = due ∧
        (processor.machine.point = .halted ∨
          processor.machine.point = .testNsec ∧ due % 100 = 0))

/-- None of these events comes late. -/
def NoneLate : Processor → List ProcessorEvent → Prop
  | _, [] => True
  | processor, event :: events => ¬ processor.Late event ∧ NoneLate (processor.on event) events

instance (processor : Processor) : Decidable processor.Pending :=
  inferInstanceAs (Decidable (_ ∨ _))

instance (processor : Processor) (event : ProcessorEvent) : Decidable (processor.Late event) :=
  inferInstanceAs (Decidable (_ ∧ _ ∧ _ ∧ _))

/-- Whether an event comes late is decided by running the processor up to it. -/
instance NoneLate.decidable :
    (processor : Processor) → (events : List ProcessorEvent) →
      Decidable (processor.NoneLate events)
  | _, [] => inferInstanceAs (Decidable True)
  | processor, event :: events =>
      have := NoneLate.decidable (processor.on event) events
      inferInstanceAs (Decidable (_ ∧ _))

/-- A step of the processor, as a relation. -/
def Executes (processor next : Processor) : Prop := processor.execute = next

/-- What there is to say of the timer at every point: its handler is called after as many
ticks as its time has, and the handler of a timer that fires once is called once. A timer
that counts is on its way to the call, or the processor is halted and ticks are missing; a
timer that does not count is on its way to the next arming, or has fired once. -/
structure Punctual (type : TimerFeature) (wait : Timespec) (processor : Processor) : Prop where
  exact : processor.machine.point = .call → processor.elapsed = wait.dueTicks
  once : type = .oneShot →
    processor.calls ≤ 1 ∧ (processor.machine.point = .call → processor.calls = 0)
  called : processor.machine.softtimer0.stop = false →
    ComesTo Executes
      (fun next => next.elapsed = processor.elapsed ∧
        (next.machine.point = .call ∨ next.halted = true ∧ next.elapsed < wait.dueTicks))
      processor
  rearmed : processor.machine.softtimer0.stop = true →
    ComesTo Executes
      (fun next => next.machine.softtimer0.stop = false ∧ next.elapsed = 0 ∨
        type = .oneShot ∧ next.machine.point = .idle ∧ next.calls = 1)
      processor

/-- The timer counts, and not for too long yet. -/
structure Waiting (type : TimerFeature) (wait : Timespec) (softtimer0 : SoftwareTime)
    (elapsed calls : Nat) : Prop where
  running : softtimer0.stop = false
  spent : softtimer0.spent = Timespec.ofTicks elapsed
  early : elapsed ≤ wait.dueTicks
  first : type = .oneShot → calls = 0

/-- What holds at each point as long as no tick comes late. -/
def Here (type : TimerFeature) (wait : Timespec) (softtimer0 : SoftwareTime)
    (elapsed calls : Nat) (point : Point) : Prop :=
  let waiting := Waiting type wait softtimer0 elapsed calls
  match point with
  | .unset => False
  | .idle => softtimer0.stop = true ∧ type = .oneShot ∧ calls = 1
  | .startSec => softtimer0.stop = true ∧ calls = 0
  | .startNsec => softtimer0.stop = true ∧ calls = 0 ∧ softtimer0.spent.tvSec = 0
  | .startArm => softtimer0.stop = true ∧ calls = 0 ∧ softtimer0.spent = ⟨0, 0⟩
  | .launch | .testStop | .testSecAbove => waiting
  | .testSecEqual => waiting ∧ wait.tvSec.toNat ≤ elapsed / 100
  | .testNsec => waiting ∧ wait.tvSec.toNat = elapsed / 100
  | .halted => waiting ∧ elapsed < wait.dueTicks
  | .expire => waiting ∧ elapsed = wait.dueTicks
  | .call =>
      softtimer0.stop = true ∧ elapsed = wait.dueTicks ∧
        (type = .oneShot → calls = 0)
  | .handler | .testRewind => softtimer0.stop = true ∧ (type = .oneShot → calls = 1)
  | .rewindSec => softtimer0.stop = true ∧ type = .autoRewind
  | .rewindNsec => softtimer0.stop = true ∧ type = .autoRewind ∧ softtimer0.spent.tvSec = 0
  | .rewindArm => softtimer0.stop = true ∧ type = .autoRewind ∧ softtimer0.spent = ⟨0, 0⟩
  | .testStopped =>
      softtimer0.stop = true ∧ type = .oneShot ∧ calls = 1 ∨
        type = .autoRewind ∧ waiting
  | .testType => type = .autoRewind ∧ waiting

/-- The invariant of a timer with a handler that no tick comes late for. -/
structure OnTime (type : TimerFeature) (wait : Timespec) (processor : Processor) : Prop where
  handler : processor.handler ≠ 0
  kept : processor.lost = false
  type_eq : processor.machine.softtimer0.type = type
  wait_eq : processor.machine.softtimer0.wait = wait
  awake : processor.machine.point ≠ .halted → processor.halted = false
  here : Here type wait processor.machine.softtimer0 processor.elapsed processor.calls
    processor.machine.point

section Looks

variable {wait : Timespec} {ticks : Nat}

/-- Enough ticks have come when the time spent is not below the time to wait for. -/
theorem dueTicks_le (normal : wait.tvNsec.toNat < 10 ^ 9) :
    wait.dueTicks ≤ ticks ↔ wait.tvSec.toNat < ticks / 100 ∨
      wait.tvSec.toNat = ticks / 100 ∧ wait.tvNsec.toNat ≤ ticks % 100 * 10000000 := by
  unfold Timespec.dueTicks
  omega

theorem lt_dueTicks (normal : wait.tvNsec.toNat < 10 ^ 9)
    (missing : ticks / 100 < wait.tvSec.toNat ∨
      wait.tvSec.toNat = ticks / 100 ∧ ticks % 100 * 10000000 < wait.tvNsec.toNat) :
    ticks < wait.dueTicks := by
  rw [← Nat.not_le, dueTicks_le normal]
  omega

/-- The seconds that are looked at are those of the ticks, as long as they do not wrap. -/
theorem sec_above (small : ticks < 100 * 2 ^ 64) :
    wait.tvSec > (Timespec.ofTicks ticks).tvSec ↔ ticks / 100 < wait.tvSec.toNat := by
  rw [gt_iff_lt, UInt64.lt_iff_toNat_lt, toNat_ofTicks_sec, Nat.mod_eq_of_lt (by omega)]

theorem sec_equal (small : ticks < 100 * 2 ^ 64) :
    wait.tvSec = (Timespec.ofTicks ticks).tvSec ↔ wait.tvSec.toNat = ticks / 100 := by
  rw [← UInt64.toNat_inj, toNat_ofTicks_sec, Nat.mod_eq_of_lt (by omega)]

theorem nsec_above :
    wait.tvNsec > (Timespec.ofTicks ticks).tvNsec ↔
      ticks % 100 * 10000000 < wait.tvNsec.toNat := by
  rw [gt_iff_lt, UInt64.lt_iff_toNat_lt, toNat_ofTicks_nsec]

end Looks

section Steps

variable {type : TimerFeature} {wait : Timespec} {processor : Processor}

/-- The processor goes on. -/
theorem OnTime.execute (onTime : processor.OnTime type wait)
    (normal : wait.tvNsec.toNat < 10 ^ 9) (small : wait.dueTicks < 100 * 2 ^ 64) :
    processor.execute.OnTime type wait := by
  obtain ⟨⟨⟨wait', spent, type', stop⟩, clkTics, sysclock, point, disarmed, ticks⟩, handler,
    halted, lost, elapsed, calls⟩ := processor
  obtain ⟨valid, kept, sameType, sameWait, awake, here⟩ := onTime
  obtain rfl : lost = false := kept
  obtain rfl : type' = type := sameType
  obtain rfl : wait' = wait := sameWait
  by_cases atHalt : point = .halted
  · subst atHalt
    exact ⟨valid, rfl, rfl, rfl, fun other => absurd rfl other, here⟩
  obtain rfl : halted = false := awake atHalt
  have calm {next : Point} : next ≠ .halted → false = false := fun _ => rfl
  cases point with
  | unset => exact here.elim
  | halted => exact absurd rfl atHalt
  | idle => exact ⟨valid, rfl, rfl, rfl, calm, here⟩
  | startSec => exact ⟨valid, rfl, rfl, rfl, calm, here.1, here.2, rfl⟩
  | startNsec =>
      exact ⟨valid, rfl, rfl, rfl, calm, here.1, here.2.1, congrArg (Timespec.mk · 0) here.2.2⟩
  | startArm =>
      exact ⟨valid, rfl, rfl, rfl, calm, rfl, here.2.2.trans ofTicks_zero.symm, Nat.zero_le _,
        fun _ => here.2.1⟩
  | launch => exact ⟨valid, rfl, rfl, rfl, calm, here⟩
  | testStop =>
      have running : stop = false := Waiting.running here
      simp only [Processor.execute, TimerState.advance, running, Bool.false_eq_true, if_false]
      exact ⟨valid, rfl, rfl, rfl, calm, running ▸ here⟩
  | testSecAbove =>
      have look : wait'.tvSec > spent.tvSec ↔ elapsed / 100 < wait'.tvSec.toNat := by
        rw [show spent = Timespec.ofTicks elapsed from Waiting.spent here]
        exact sec_above (Nat.lt_of_le_of_lt (Waiting.early here) small)
      by_cases above : elapsed / 100 < wait'.tvSec.toNat
      · have notDue : elapsed < wait'.dueTicks := lt_dueTicks normal (Or.inl above)
        simp only [Processor.execute, TimerState.advance, if_pos (look.mpr above)]
        exact ⟨valid, rfl, rfl, rfl, fun other => absurd rfl other, here, notDue⟩
      · simp only [Processor.execute, TimerState.advance, if_neg fun more => above (look.mp more)]
        exact ⟨valid, rfl, rfl, rfl, calm, here, Nat.not_lt.mp above⟩
  | testSecEqual =>
      obtain ⟨waiting, below⟩ := here
      have look : wait'.tvSec = spent.tvSec ↔ wait'.tvSec.toNat = elapsed / 100 := by
        rw [show spent = Timespec.ofTicks elapsed from waiting.spent]
        exact sec_equal (Nat.lt_of_le_of_lt waiting.early small)
      by_cases same : wait'.tvSec.toNat = elapsed / 100
      · simp only [Processor.execute, TimerState.advance, if_pos (look.mpr same)]
        exact ⟨valid, rfl, rfl, rfl, calm, waiting, same⟩
      · have due : wait'.dueTicks ≤ elapsed :=
          (dueTicks_le normal).mpr (Or.inl (Nat.lt_of_le_of_ne below same))
        simp only [Processor.execute, TimerState.advance, if_neg fun equal => same (look.mp equal)]
        exact ⟨valid, rfl, rfl, rfl, calm, waiting, Nat.le_antisymm waiting.early due⟩
  | testNsec =>
      obtain ⟨waiting, same⟩ := here
      simp only at same
      have look : wait'.tvNsec > spent.tvNsec ↔
          elapsed % 100 * 10000000 < wait'.tvNsec.toNat := by
        rw [show spent = Timespec.ofTicks elapsed from waiting.spent]
        exact nsec_above
      by_cases above : elapsed % 100 * 10000000 < wait'.tvNsec.toNat
      · have notDue : elapsed < wait'.dueTicks := lt_dueTicks normal (Or.inr ⟨same, above⟩)
        simp only [Processor.execute, TimerState.advance, if_pos (look.mpr above)]
        exact ⟨valid, rfl, rfl, rfl, fun other => absurd rfl other, waiting, notDue⟩
      · have due : wait'.dueTicks ≤ elapsed :=
          (dueTicks_le normal).mpr (Or.inr ⟨same, Nat.not_lt.mp above⟩)
        simp only [Processor.execute, TimerState.advance, if_neg fun more => above (look.mp more)]
        exact ⟨valid, rfl, rfl, rfl, calm, waiting, Nat.le_antisymm waiting.early due⟩
  | expire => exact ⟨valid, rfl, rfl, rfl, calm, rfl, here.2, here.1.first⟩
  | call =>
      simp only [Processor.execute, if_neg valid]
      exact ⟨valid, rfl, rfl, rfl, calm, here.1, fun once => congrArg (· + 1) (here.2.2 once)⟩
  | handler => exact ⟨valid, rfl, rfl, rfl, calm, here⟩
  | testRewind =>
      obtain ⟨stopped, once⟩ := here
      cases type' with
      | oneShot => exact ⟨valid, rfl, rfl, rfl, calm, Or.inl ⟨stopped, rfl, once rfl⟩⟩
      | autoRewind => exact ⟨valid, rfl, rfl, rfl, calm, stopped, rfl⟩
  | rewindSec => exact ⟨valid, rfl, rfl, rfl, calm, here.1, here.2, rfl⟩
  | rewindNsec =>
      exact ⟨valid, rfl, rfl, rfl, calm, here.1, here.2.1, congrArg (Timespec.mk · 0) here.2.2⟩
  | rewindArm =>
      obtain ⟨stopped, again, cleared⟩ := here
      refine ⟨valid, rfl, rfl, rfl, calm, Or.inr ⟨again, rfl, cleared.trans ofTicks_zero.symm,
        Nat.zero_le _, fun once => ?_⟩⟩
      rw [again] at once
      cases once
  | testStopped =>
      rcases here with ⟨stopped, once, called⟩ | ⟨again, waiting⟩
      · simp only at stopped
        simp only [Processor.execute, TimerState.advance, stopped, if_true]
        exact ⟨valid, rfl, rfl, rfl, calm, rfl, once, called⟩
      · have running : stop = false := waiting.running
        simp only [Processor.execute, TimerState.advance, running, Bool.false_eq_true, if_false]
        exact ⟨valid, rfl, rfl, rfl, calm, again, running ▸ waiting⟩
  | testType =>
      obtain ⟨again, waiting⟩ := here
      simp only [Processor.execute, TimerState.advance, again, if_true]
      exact ⟨valid, rfl, rfl, rfl, calm, again ▸ waiting⟩

/-- A timer that counts is not stopped. -/
theorem not_stopped {softtimer0 : SoftwareTime} (running : softtimer0.stop = false) :
    ¬ softtimer0.stop = true := by
  rw [running]
  exact Bool.false_ne_true

theorem Waiting.not_stopped {softtimer0 : SoftwareTime} {elapsed calls : Nat}
    (waiting : Waiting type wait softtimer0 elapsed calls) : ¬ softtimer0.stop = true :=
  Processor.not_stopped waiting.running

/-- A tick that the timer receives. -/
theorem Waiting.tick {softtimer0 : SoftwareTime} {elapsed calls : Nat}
    (waiting : Waiting type wait softtimer0 elapsed calls) (missing : elapsed < wait.dueTicks) :
    Waiting type wait { softtimer0 with spent := softtimer0.spent.tic } (elapsed + 1) calls := by
  have counted : softtimer0.spent.tic = Timespec.ofTicks (elapsed + 1) := by
    rw [waiting.spent, tic_ofTicks]
  rw [counted]
  exact ⟨waiting.running, rfl, missing, waiting.first⟩

/-- The last look at the time is not overtaken by a tick that does not come late. -/
theorem same_second {elapsed : Nat} (normal : wait.tvNsec.toNat < 10 ^ 9)
    (same : wait.tvSec.toNat = elapsed / 100) (missing : elapsed < wait.dueTicks)
    (prompt : ¬ (elapsed + 1 = wait.dueTicks ∧ wait.dueTicks % 100 = 0)) :
    wait.tvSec.toNat = (elapsed + 1) / 100 := by
  by_contra carried
  have due : wait.dueTicks ≤ elapsed + 1 := (dueTicks_le normal).mpr (Or.inl (by omega))
  have last : elapsed + 1 = wait.dueTicks := Nat.le_antisymm missing due
  exact prompt ⟨last, by omega⟩

/-- A processor that is awake everywhere else is only halted where the service routine
halts it. -/
theorem halted_atHalt (awake : processor.machine.point ≠ .halted → processor.halted = false)
    (asleep : processor.halted = true) : processor.machine.point = .halted := by
  by_contra other
  rw [awake other] at asleep
  exact Bool.false_ne_true asleep

/-- A tick that the processor is awake for. -/
theorem tick_awake (awake : processor.halted = false) :
    processor.tick =
      { processor with machine := processor.machine.tick, elapsed := processor.elapsed + 1 } := by
  rw [Processor.tick, Processor.wake, awake, if_neg Bool.false_ne_true]

/-- A tick that wakes the processor. -/
theorem tick_asleep (asleep : processor.halted = true) :
    processor.tick =
      { processor with
        machine := processor.machine.tick.advance
        halted := false
        elapsed := processor.elapsed + 1 } := by
  rw [Processor.tick, Processor.wake, if_pos asleep]

/-- The return from `hlt`. -/
theorem advance_halted {machine : TimerState} (atHalt : machine.point = .halted) :
    machine.advance = machine.goto .testStop := by
  rw [TimerState.advance, atHalt]

/-- What a tick does to the timer. -/
theorem softtimer0_tick {machine : TimerState} (running : machine.softtimer0.stop = false) :
    machine.tick.softtimer0 =
      { machine.softtimer0 with spent := machine.softtimer0.spent.tic } := by
  rw [TimerState.tick_running running]

theorem softtimer0_tick_stopped {machine : TimerState}
    (stopped : machine.softtimer0.stop = true) : machine.tick.softtimer0 = machine.softtimer0 := by
  rw [TimerState.tick_stopped stopped]

/-- A tick that the processor has waited for. -/
theorem OnTime.tick_halted (onTime : processor.OnTime type wait)
    (asleep : processor.halted = true) : processor.tick.OnTime type wait := by
  have atHalt := halted_atHalt onTime.awake asleep
  obtain ⟨valid, kept, sameType, sameWait, _, here⟩ := onTime
  obtain ⟨_, type_tick, wait_tick, point_tick, _, _⟩ := processor.machine.tick_frame
  rw [atHalt] at here point_tick
  obtain ⟨waiting, missing⟩ := here
  have received := waiting.tick missing
  rw [← softtimer0_tick waiting.running] at received
  rw [tick_asleep asleep, advance_halted point_tick]
  exact ⟨valid, kept, type_tick.trans sameType, wait_tick.trans sameWait, fun _ => rfl, received⟩

/-- A timer that does not count has nothing to wait for, and ticks do not matter to it. -/
theorem Here.stopped {softtimer0 : SoftwareTime} {elapsed calls : Nat} {point : Point}
    (here : Here type wait softtimer0 elapsed calls point) (stopped : softtimer0.stop = true)
    (uncalled : point ≠ .call) : Here type wait softtimer0 (elapsed + 1) calls point := by
  cases point with
  | unset => exact here.elim
  | idle | startSec | startNsec | startArm | handler | testRewind | rewindSec | rewindNsec
  | rewindArm => exact here
  | call => exact absurd rfl uncalled
  | launch | testStop | testSecAbove => exact absurd stopped (Waiting.not_stopped here)
  | testSecEqual | testNsec | halted | expire => exact absurd stopped here.1.not_stopped
  | testStopped => exact Or.inl (here.resolve_right fun again => again.2.not_stopped stopped)
  | testType => exact absurd stopped here.2.not_stopped

/-- A timer that counts takes a tick that does not come late. -/
theorem Here.counts {softtimer0 : SoftwareTime} {elapsed calls : Nat} {point : Point}
    (here : Here type wait softtimer0 elapsed calls point) (normal : wait.tvNsec.toNat < 10 ^ 9)
    (running : softtimer0.stop = false) (missing : elapsed < wait.dueTicks)
    (prompt : ¬ (elapsed + 1 = wait.dueTicks ∧
      (point = .halted ∨ point = .testNsec ∧ wait.dueTicks % 100 = 0))) :
    Here type wait { softtimer0 with spent := softtimer0.spent.tic } (elapsed + 1) calls point := by
  have counting : ¬ softtimer0.stop = true := not_stopped running
  cases point with
  | unset => exact here.elim
  | idle | startSec | startNsec | startArm | call | handler | testRewind | rewindSec
  | rewindNsec | rewindArm => exact absurd here.1 counting
  | launch | testStop | testSecAbove => exact Waiting.tick here missing
  | testSecEqual =>
      exact ⟨here.1.tick missing,
        Nat.le_trans here.2 (Nat.div_le_div_right (Nat.le_succ elapsed))⟩
  | testNsec =>
      exact ⟨here.1.tick missing, same_second normal here.2 missing fun last =>
        prompt ⟨last.1, Or.inr ⟨rfl, last.2⟩⟩⟩
  | halted =>
      exact ⟨here.1.tick missing,
        Nat.lt_of_le_of_ne missing fun last => prompt ⟨last, Or.inl rfl⟩⟩
  | expire => exact absurd here.2 (Nat.ne_of_lt missing)
  | testStopped =>
      rcases here with ⟨stopped, _⟩ | ⟨again, waiting⟩
      · exact absurd stopped counting
      · exact Or.inr ⟨again, waiting.tick missing⟩
  | testType => exact ⟨here.1, here.2.tick missing⟩

/-- A tick that does not come late. -/
theorem OnTime.tick (onTime : processor.OnTime type wait) (normal : wait.tvNsec.toNat < 10 ^ 9)
    (prompt : ¬ processor.Late .tick) : processor.tick.OnTime type wait := by
  by_cases asleep : processor.halted = true
  · exact onTime.tick_halted asleep
  have awake : processor.halted = false := Bool.not_eq_true _ ▸ asleep
  obtain ⟨valid, kept, sameType, sameWait, _, here⟩ := onTime
  have early (pending : processor.Pending) : processor.elapsed < wait.dueTicks ∧
      ¬ (processor.elapsed + 1 = wait.dueTicks ∧
        (processor.machine.point = .halted ∨
          processor.machine.point = .testNsec ∧ wait.dueTicks % 100 = 0)) := by
    rw [← sameWait]
    constructor
    · by_contra late
      exact prompt ⟨rfl, pending, awake, Or.inl (Nat.not_lt.mp late)⟩
    · exact fun last => prompt ⟨rfl, pending, awake, Or.inr last⟩
  obtain ⟨_, type_tick, wait_tick, point_tick, _, _⟩ := processor.machine.tick_frame
  rw [tick_awake awake]
  refine ⟨valid, kept, type_tick.trans sameType, wait_tick.trans sameWait, fun _ => awake, ?_⟩
  rw [point_tick]
  by_cases running : processor.machine.softtimer0.stop = false
  · obtain ⟨missing, punctual⟩ := early (Or.inl running)
    rw [softtimer0_tick running]
    exact here.counts normal running missing punctual
  · have stopped : processor.machine.softtimer0.stop = true := Bool.not_eq_false _ ▸ running
    have uncalled : processor.machine.point ≠ .call := by
      intro atCall
      have called := (early (Or.inr atCall)).1
      rw [atCall] at here
      exact absurd here.2.1 (Nat.ne_of_lt called)
    rw [softtimer0_tick_stopped stopped]
    exact here.stopped stopped uncalled

/-- An interrupt of another device only wakes the processor. -/
theorem OnTime.wake (onTime : processor.OnTime type wait) : processor.wake.OnTime type wait := by
  by_cases asleep : processor.halted = true
  · have atHalt := halted_atHalt onTime.awake asleep
    obtain ⟨valid, kept, sameType, sameWait, _, here⟩ := onTime
    rw [atHalt] at here
    rw [Processor.wake, if_pos asleep, advance_halted atHalt]
    exact ⟨valid, kept, sameType, sameWait, fun _ => rfl, here.1⟩
  · rwa [Processor.wake, if_neg asleep]

/-- Every event that does not come late. -/
theorem OnTime.on (onTime : processor.OnTime type wait) (normal : wait.tvNsec.toNat < 10 ^ 9)
    (small : wait.dueTicks < 100 * 2 ^ 64) {event : ProcessorEvent}
    (prompt : ¬ processor.Late event) : (processor.on event).OnTime type wait := by
  cases event with
  | execute => exact onTime.execute normal small
  | tick => exact onTime.tick normal prompt
  | interrupt => exact onTime.wake

theorem OnTime.run (onTime : processor.OnTime type wait) (normal : wait.tvNsec.toNat < 10 ^ 9)
    (small : wait.dueTicks < 100 * 2 ^ 64) {events : List ProcessorEvent}
    (prompt : processor.NoneLate events) : (processor.run events).OnTime type wait := by
  induction events generalizing processor with
  | nil => exact onTime
  | cons event events inductionHypothesis =>
      exact inductionHypothesis (onTime.on normal small prompt.1) prompt.2

theorem onTime_launch {handler : UInt32} (valid : handler ≠ 0) (machine : TimerState) :
    (launch type wait handler machine).OnTime type wait :=
  ⟨valid, rfl, rfl, rfl, fun _ => rfl, rfl, rfl⟩

end Steps

section Progress

variable {type : TimerFeature} {wait : Timespec} {processor : Processor}

/-- The steps from each point of a timer that counts to the call of the handler, or to the
halting. -/
def toCall : Point → Nat
  | .testStopped => 7
  | .testType | .launch => 6
  | .testStop => 5
  | .testSecAbove => 4
  | .testSecEqual => 3
  | .testNsec => 2
  | .halted | .expire => 1
  | _ => 0

/-- The steps from each point of a timer that does not count to the next arming, or to
the end. -/
def toArm : Point → Nat
  | .call => 7
  | .handler => 6
  | .testRewind => 5
  | .startSec | .rewindSec => 4
  | .startNsec | .rewindNsec => 3
  | .startArm | .rewindArm => 2
  | .testStopped => 1
  | _ => 0

/-- The way to the call, of which the halting is the end as well. -/
def remaining (processor : Processor) : Nat :=
  if processor.halted then 0 else toCall processor.machine.point

/-- Wherever a look at the time leads to, it is nearer. -/
theorem toCall_look (bound : Nat) {near far : Point} (condition : Prop) [Decidable condition]
    (first : toCall near < bound) (second : toCall far < bound) :
    toCall (if condition then near else far) < bound := by
  split
  · exact first
  · exact second

/-- The points at which a timer counts, those behind a rewinding apart. -/
def InWait : Point → Prop
  | .launch | .testStop | .testSecAbove | .testSecEqual | .testNsec | .halted | .expire => True
  | _ => False

/-- A timer that waits gets nearer to its call or to the halting. -/
theorem remaining_execute (kept : processor.lost = false)
    (running : processor.machine.softtimer0.stop = false) (awake : processor.halted = false)
    (inWait : InWait processor.machine.point) :
    processor.execute.Pending ∧ processor.execute.elapsed = processor.elapsed ∧
      processor.execute.remaining < processor.remaining := by
  obtain ⟨⟨⟨wait', spent, type', stop⟩, clkTics, sysclock, point, disarmed, ticks⟩, handler,
    halted, lost, elapsed, calls⟩ := processor
  obtain rfl : lost = false := kept
  obtain rfl : stop = false := running
  obtain rfl : halted = false := awake
  cases point with
  | unset | idle | startSec | startNsec | startArm | call | handler | testRewind | rewindSec
  | rewindNsec | rewindArm | testStopped | testType => exact inWait.elim
  | launch => exact ⟨Or.inl rfl, rfl, (by decide : 5 < 6)⟩
  | testStop => exact ⟨Or.inl rfl, rfl, (by decide : 4 < 5)⟩
  | testSecAbove => exact ⟨Or.inl rfl, rfl, toCall_look 4 _ (by decide) (by decide)⟩
  | testSecEqual => exact ⟨Or.inl rfl, rfl, toCall_look 3 _ (by decide) (by decide)⟩
  | testNsec => exact ⟨Or.inl rfl, rfl, toCall_look 2 _ (by decide) (by decide)⟩
  | halted => exact ⟨Or.inl rfl, rfl, (by decide : 0 < 1)⟩
  | expire => exact ⟨Or.inr rfl, rfl, (by decide : 0 < 1)⟩

/-- A timer that counts gets nearer to its call or to the halting. -/
theorem OnTime.remaining_execute (onTime : processor.OnTime type wait)
    (running : processor.machine.softtimer0.stop = false) (awake : processor.halted = false) :
    processor.execute.Pending ∧ processor.execute.elapsed = processor.elapsed ∧
      processor.execute.remaining < processor.remaining := by
  by_cases inWait : InWait processor.machine.point
  · exact Processor.remaining_execute onTime.kept running awake inWait
  obtain ⟨⟨⟨wait', spent, type', stop⟩, clkTics, sysclock, point, disarmed, ticks⟩, handler,
    halted, lost, elapsed, calls⟩ := processor
  obtain ⟨_, kept, sameType, _, _, here⟩ := onTime
  obtain rfl : lost = false := kept
  obtain rfl : stop = false := running
  obtain rfl : halted = false := awake
  obtain rfl : type' = type := sameType
  cases point with
  | unset => exact here.elim
  | idle | startSec | startNsec | startArm | call | handler | testRewind | rewindSec | rewindNsec
  | rewindArm => exact absurd here.1 Bool.false_ne_true
  | launch | testStop | testSecAbove | testSecEqual | testNsec | halted | expire =>
      exact absurd trivial inWait
  | testStopped => exact ⟨Or.inl rfl, rfl, (by decide : 6 < 7)⟩
  | testType =>
      obtain ⟨again, _⟩ := here
      subst again
      exact ⟨Or.inl rfl, rfl, (by decide : 5 < 6)⟩

/-- A timer that counts is on its way to the call, or ticks are missing. -/
theorem OnTime.called (onTime : processor.OnTime type wait) (normal : wait.tvNsec.toNat < 10 ^ 9)
    (small : wait.dueTicks < 100 * 2 ^ 64)
    (running : processor.machine.softtimer0.stop = false) :
    ComesTo Executes
      (fun next => next.elapsed = processor.elapsed ∧
        (next.machine.point = .call ∨ next.halted = true ∧ next.elapsed < wait.dueTicks))
      processor := by
  refine @comesTo_of_rank _ _ _ _
    (fun next => next.OnTime type wait ∧ next.Pending ∧ next.elapsed = processor.elapsed)
    remaining ?_ ⟨onTime, Or.inl running, rfl⟩
  rintro next ⟨kept, pending, same⟩
  by_cases atCall : next.machine.point = .call
  · exact Or.inl ⟨same, Or.inl atCall⟩
  by_cases asleep : next.halted = true
  · have here := kept.here
    rw [halted_atHalt kept.awake asleep] at here
    exact Or.inl ⟨same, Or.inr ⟨asleep, here.2⟩⟩
  · obtain ⟨pending', same', nearer⟩ :=
      kept.remaining_execute (pending.resolve_right atCall) (Bool.not_eq_true _ ▸ asleep)
    exact Or.inr ⟨_, rfl, ⟨kept.execute normal small, pending', same'.trans same⟩, nearer⟩

/-- A timer that does not count gets nearer to its next arming or to its end. -/
theorem OnTime.toArm_execute (onTime : processor.OnTime type wait)
    (stopped : processor.machine.softtimer0.stop = true) :
    type = .oneShot ∧ processor.machine.point = .idle ∧ processor.calls = 1 ∨
      (processor.execute.machine.softtimer0.stop = true ∨
          processor.execute.machine.softtimer0.stop = false ∧ processor.execute.elapsed = 0) ∧
        toArm processor.execute.machine.point < toArm processor.machine.point := by
  obtain ⟨⟨⟨wait', spent, type', stop⟩, clkTics, sysclock, point, disarmed, ticks⟩, handler,
    halted, lost, elapsed, calls⟩ := processor
  obtain ⟨valid, kept, sameType, _, _, here⟩ := onTime
  obtain rfl : lost = false := kept
  obtain rfl : stop = true := stopped
  obtain rfl : type' = type := sameType
  cases point with
  | unset => exact here.elim
  | launch | testStop | testSecAbove => exact (Waiting.not_stopped here rfl).elim
  | testSecEqual | testNsec | halted | expire => exact (here.1.not_stopped rfl).elim
  | testType => exact (here.2.not_stopped rfl).elim
  | idle => exact Or.inl ⟨here.2.1, rfl, here.2.2⟩
  | startSec => exact Or.inr ⟨Or.inl rfl, (by decide : 3 < 4)⟩
  | startNsec => exact Or.inr ⟨Or.inl rfl, (by decide : 2 < 3)⟩
  | startArm => exact Or.inr ⟨Or.inr ⟨rfl, rfl⟩, (by decide : 0 < 2)⟩
  | call =>
      simp only [Processor.execute, if_neg valid]
      exact Or.inr ⟨Or.inl rfl, (by decide : 6 < 7)⟩
  | handler => exact Or.inr ⟨Or.inl rfl, (by decide : 5 < 6)⟩
  | testRewind =>
      cases type' with
      | oneShot => exact Or.inr ⟨Or.inl rfl, (by decide : 1 < 5)⟩
      | autoRewind => exact Or.inr ⟨Or.inl rfl, (by decide : 4 < 5)⟩
  | rewindSec => exact Or.inr ⟨Or.inl rfl, (by decide : 3 < 4)⟩
  | rewindNsec => exact Or.inr ⟨Or.inl rfl, (by decide : 2 < 3)⟩
  | rewindArm => exact Or.inr ⟨Or.inr ⟨rfl, rfl⟩, (by decide : 1 < 2)⟩
  | testStopped => exact Or.inr ⟨Or.inl rfl, (by decide : 0 < 1)⟩

/-- A timer that does not count is on its way to the next arming, or has fired once. -/
theorem OnTime.rearmed (onTime : processor.OnTime type wait) (normal : wait.tvNsec.toNat < 10 ^ 9)
    (small : wait.dueTicks < 100 * 2 ^ 64)
    (stopped : processor.machine.softtimer0.stop = true) :
    ComesTo Executes
      (fun next => next.machine.softtimer0.stop = false ∧ next.elapsed = 0 ∨
        type = .oneShot ∧ next.machine.point = .idle ∧ next.calls = 1)
      processor := by
  refine @comesTo_of_rank _ _ _ _
    (fun next => next.OnTime type wait ∧ (next.machine.softtimer0.stop = true ∨
      next.machine.softtimer0.stop = false ∧ next.elapsed = 0))
    (fun next => toArm next.machine.point) ?_ ⟨onTime, Or.inl stopped⟩
  rintro next ⟨kept, stopped | armed⟩
  · rcases kept.toArm_execute stopped with ended | ⟨goesOn, nearer⟩
    · exact Or.inl (Or.inr ended)
    · exact Or.inr ⟨_, rfl, ⟨kept.execute normal small, goesOn⟩, nearer⟩
  · exact Or.inl (Or.inl armed)

/-- A timer that fires once has not fired yet, or is behind its call. -/
theorem Here.calls_eq {softtimer0 : SoftwareTime} {elapsed calls : Nat} {point : Point}
    (here : Here type wait softtimer0 elapsed calls point) (once : type = .oneShot) :
    calls = 0 ∨ calls = 1 ∧ point ≠ .call := by
  have rewinds : ¬ type = .autoRewind := by
    rw [once]
    decide
  cases point with
  | unset => exact here.elim
  | idle => exact Or.inr ⟨here.2.2, by decide⟩
  | startSec => exact Or.inl here.2
  | startNsec | startArm => exact Or.inl here.2.1
  | launch | testStop | testSecAbove => exact Or.inl (Waiting.first here once)
  | testSecEqual | testNsec | halted | expire => exact Or.inl (here.1.first once)
  | call => exact Or.inl (here.2.2 once)
  | handler | testRewind => exact Or.inr ⟨here.2 once, by decide⟩
  | rewindSec => exact absurd here.2 rewinds
  | rewindNsec | rewindArm => exact absurd here.2.1 rewinds
  | testStopped =>
      exact Or.inr ⟨(here.resolve_right fun again => rewinds again.1).2.2, by decide⟩
  | testType => exact absurd here.1 rewinds

theorem OnTime.punctual (onTime : processor.OnTime type wait)
    (normal : wait.tvNsec.toNat < 10 ^ 9) (small : wait.dueTicks < 100 * 2 ^ 64) :
    processor.Punctual type wait where
  exact atCall := by
    have here := onTime.here
    rw [atCall] at here
    exact here.2.1
  once once := by
    rcases onTime.here.calls_eq once with never | ⟨one, behind⟩
    · exact ⟨by omega, fun _ => never⟩
    · exact ⟨by omega, fun atCall => absurd atCall behind⟩
  called := onTime.called normal small
  rearmed := onTime.rearmed normal small

/-- A timer with a handler that nobody disarms fires on the tick its time is up with, once
or over and over, in every run in which no tick comes late. -/
theorem timer_expires_on_tick {handler : UInt32} (valid : handler ≠ 0) (machine : TimerState)
    (normal : wait.tvNsec.toNat < 10 ^ 9) (small : wait.dueTicks < 100 * 2 ^ 64)
    (events : List ProcessorEvent)
    (prompt : (launch type wait handler machine).NoneLate events) :
    ((launch type wait handler machine).run events).Punctual type wait :=
  ((onTime_launch valid machine).run normal small prompt).punctual normal small

/-- A timer of one tick, and that tick while the processor is halted. -/
theorem timer_expires_on_tick_single :
    ((launch .oneShot ⟨0, 10000000⟩ 1 .boot).run
      (List.replicate 9 .execute ++ .tick :: List.replicate 5 .execute)).Punctual .oneShot
        ⟨0, 10000000⟩ :=
  timer_expires_on_tick (by decide) .boot (by decide) (by decide) _ (by decide +kernel)

/-- The same timer fires on the second tick when the first one comes just before the
processor is halted. -/
theorem timer_expires_a_tick_late :
    ¬ ∀ events : List ProcessorEvent,
      ((launch .oneShot ⟨0, 10000000⟩ 1 .boot).run events).Punctual .oneShot ⟨0, 10000000⟩ := by
  intro punctual
  have atCall := (punctual (List.replicate 8 .execute ++ [.tick, .execute, .tick] ++
    List.replicate 5 .execute)).exact (by decide +kernel)
  exact absurd atCall (by decide +kernel)

end Progress

end Processor

end Bootloader.Arch
