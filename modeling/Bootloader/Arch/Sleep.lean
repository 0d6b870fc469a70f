import Bootloader.Arch.TimerTicks

/-!
# Sleeping

`sleep` and `nanosleep` start a timer with `NULL` for a handler, and `isr_timer_int` calls
the handler of every timer whose time is up. `sleep_never_returns` says where that leads to:
no run comes back from sleeping, and once the ticks have come that were slept for, the
processor jumps to address 0.
-/

namespace Bootloader.Arch

open Bootloader.Std

namespace Processor

/-- `nanosleep`: its caller comes next where the point is `idle` again. -/
def nanosleep (duration : Timespec) (machine : TimerState) : Processor :=
  launch .oneShot duration 0 machine

/-- `sleep`. -/
def sleep (seconds : UInt64) (machine : TimerState) : Processor :=
  launch .oneShot { tvSec := seconds, tvNsec := 0 } 0 machine

/-- The caller goes on, after the time it wanted to sleep. -/
def SleptThrough (duration : Timespec) (processor : Processor) : Prop :=
  processor.machine.point = .idle ∧ duration.dueTicks ≤ processor.elapsed ∧
    processor.lost = false

/-- What holds at each point of a timer without a handler. -/
def HereAsleep (softtimer0 : SoftwareTime) (elapsed : Nat) (point : Point) : Prop :=
  match point with
  | .startSec => softtimer0.stop = true
  | .startNsec => softtimer0.stop = true ∧ softtimer0.spent.tvSec = 0
  | .startArm => softtimer0.stop = true ∧ softtimer0.spent = ⟨0, 0⟩
  | .launch | .testStop | .testSecAbove | .testSecEqual | .testNsec | .halted | .expire =>
      softtimer0.stop = false ∧ softtimer0.spent = Timespec.ofTicks elapsed
  | .call => softtimer0.stop = true
  | _ => False

/-- The invariant of a timer without a handler, whatever happens to it. -/
structure Asleep (duration : Timespec) (processor : Processor) : Prop where
  handler : processor.handler = 0
  wait_eq : processor.machine.softtimer0.wait = duration
  awake : processor.machine.point ≠ .halted → processor.halted = false
  here : HereAsleep processor.machine.softtimer0 processor.elapsed processor.machine.point

section Steps

variable {duration : Timespec} {processor : Processor}

/-- The processor goes on, up to the call. -/
theorem Asleep.execute (asleep : processor.Asleep duration) :
    processor.execute.Asleep duration := by
  obtain ⟨⟨⟨wait, spent, type, stop⟩, clkTics, sysclock, point, disarmed, ticks⟩, handler,
    halted, lost, elapsed, calls⟩ := processor
  obtain ⟨null, sameWait, awake, here⟩ := asleep
  cases lost with
  | true => exact ⟨null, sameWait, awake, here⟩
  | false =>
      by_cases atHalt : point = .halted
      · subst atHalt
        exact ⟨null, sameWait, fun other => absurd rfl other, here⟩
      obtain rfl : halted = false := awake atHalt
      have calm {next : Point} : next ≠ .halted → false = false := fun _ => rfl
      cases point with
      | unset | idle | handler | testRewind | rewindSec | rewindNsec | rewindArm | testStopped
      | testType => exact here.elim
      | halted => exact absurd rfl atHalt
      | startSec => exact ⟨null, sameWait, calm, here, rfl⟩
      | startNsec =>
          exact ⟨null, sameWait, calm, here.1, congrArg (Timespec.mk · 0) here.2⟩
      | startArm => exact ⟨null, sameWait, calm, rfl, here.2.trans ofTicks_zero.symm⟩
      | launch => exact ⟨null, sameWait, calm, here⟩
      | testStop =>
          have running : stop = false := here.1
          simp only [Processor.execute, TimerState.advance, running, Bool.false_eq_true,
            if_false]
          exact ⟨null, sameWait, calm, running ▸ here⟩
      | testSecAbove =>
          by_cases above : wait.tvSec > spent.tvSec
          · simp only [Processor.execute, TimerState.advance, if_pos above]
            exact ⟨null, sameWait, fun other => absurd rfl other, here⟩
          · simp only [Processor.execute, TimerState.advance, if_neg above]
            exact ⟨null, sameWait, calm, here⟩
      | testSecEqual =>
          by_cases same : wait.tvSec = spent.tvSec
          · simp only [Processor.execute, TimerState.advance, if_pos same]
            exact ⟨null, sameWait, calm, here⟩
          · simp only [Processor.execute, TimerState.advance, if_neg same]
            exact ⟨null, sameWait, calm, here⟩
      | testNsec =>
          by_cases above : wait.tvNsec > spent.tvNsec
          · simp only [Processor.execute, TimerState.advance, if_pos above]
            exact ⟨null, sameWait, fun other => absurd rfl other, here⟩
          · simp only [Processor.execute, TimerState.advance, if_neg above]
            exact ⟨null, sameWait, calm, here⟩
      | expire => exact ⟨null, sameWait, calm, rfl⟩
      | call =>
          simp only [Processor.execute, if_pos (show handler = 0 from null)]
          exact ⟨null, sameWait, calm, here⟩

/-- The way back from `hlt`. -/
theorem Asleep.wake (asleep : processor.Asleep duration) : processor.wake.Asleep duration := by
  by_cases halted : processor.halted = true
  · have atHalt := halted_atHalt asleep.awake halted
    obtain ⟨null, sameWait, _, here⟩ := asleep
    rw [atHalt] at here
    rw [Processor.wake, if_pos halted, advance_halted atHalt]
    exact ⟨null, sameWait, fun _ => rfl, here⟩
  · rwa [Processor.wake, if_neg halted]

/-- A tick is counted where the timer counts, and nowhere else does it matter. -/
theorem HereAsleep.tick {machine : TimerState} {elapsed : Nat} {point : Point}
    (here : HereAsleep machine.softtimer0 elapsed point) :
    HereAsleep machine.tick.softtimer0 (elapsed + 1) point := by
  cases point with
  | unset | idle | handler | testRewind | rewindSec | rewindNsec | rewindArm | testStopped
  | testType => exact here.elim
  | startSec | call =>
      rw [softtimer0_tick_stopped here]
      exact here
  | startNsec | startArm =>
      rw [softtimer0_tick_stopped here.1]
      exact here
  | launch | testStop | testSecAbove | testSecEqual | testNsec | halted | expire =>
      rw [softtimer0_tick here.1]
      refine ⟨here.1, ?_⟩
      rw [show machine.softtimer0.spent = Timespec.ofTicks elapsed from here.2, tic_ofTicks]

theorem Asleep.tick (asleep : processor.Asleep duration) : processor.tick.Asleep duration := by
  obtain ⟨null, sameWait, awake, here⟩ := asleep
  obtain ⟨_, _, wait_tick, point_tick, _, _⟩ := processor.machine.tick_frame
  apply Asleep.wake
  refine ⟨null, wait_tick.trans sameWait, fun other => awake (point_tick ▸ other), ?_⟩
  rw [show processor.machine.tick.point = processor.machine.point from point_tick]
  exact here.tick

theorem Asleep.on (asleep : processor.Asleep duration) (event : ProcessorEvent) :
    (processor.on event).Asleep duration := by
  cases event with
  | execute => exact asleep.execute
  | tick => exact asleep.tick
  | interrupt => exact asleep.wake

theorem Asleep.run (asleep : processor.Asleep duration) (events : List ProcessorEvent) :
    (processor.run events).Asleep duration := by
  induction events generalizing processor with
  | nil => exact asleep
  | cons event events inductionHypothesis => exact inductionHypothesis (asleep.on event)

theorem asleep_launch (machine : TimerState) :
    (launch .oneShot duration 0 machine).Asleep duration :=
  ⟨rfl, rfl, fun _ => rfl, rfl⟩

/-- No run ends with the caller going on. -/
theorem Asleep.not_sleptThrough (asleep : processor.Asleep duration) :
    ¬ processor.SleptThrough duration := by
  rintro ⟨atEnd, _⟩
  have here := asleep.here
  rw [atEnd] at here
  exact here

end Steps

section Progress

variable {duration : Timespec} {processor : Processor}

/-- The steps that a run makes, one after the other. -/
theorem run_append (events later : List ProcessorEvent) :
    processor.run (events ++ later) = (processor.run events).run later :=
  List.foldl_append

/-- What the processor comes to by itself, it comes to in a number of steps. -/
theorem exists_steps {Last : Processor → Prop} (comes : ComesTo Executes Last processor) :
    ∃ steps, Last (processor.run (List.replicate steps .execute)) := by
  obtain ⟨last, path, isLast⟩ := comes
  have steps : ∃ steps, processor.run (List.replicate steps .execute) = last := by
    clear isLast
    induction path using Relation.ReflTransGen.head_induction_on with
    | refl => exact ⟨0, rfl⟩
    | head first _ inductionHypothesis =>
        obtain ⟨steps, same⟩ := inductionHypothesis
        cases first
        exact ⟨steps + 1, same⟩
  obtain ⟨steps, same⟩ := steps
  exact ⟨steps, same ▸ isLast⟩

/-- Where a timer counts. -/
theorem Asleep.inWait (asleep : processor.Asleep duration)
    (running : processor.machine.softtimer0.stop = false) : InWait processor.machine.point := by
  have here := asleep.here
  have counting : ¬ processor.machine.softtimer0.stop = true := not_stopped running
  cases atPoint : processor.machine.point with
  | launch | testStop | testSecAbove | testSecEqual | testNsec | halted | expire => trivial
  | unset | idle | handler | testRewind | rewindSec | rewindNsec | rewindArm | testStopped
  | testType =>
      rw [atPoint] at here
      exact here.elim
  | startSec | call =>
      rw [atPoint] at here
      exact absurd here counting
  | startNsec | startArm =>
      rw [atPoint] at here
      exact absurd here.1 counting

/-- Only the call can lead out of the routine. -/
theorem lost_execute (uncalled : processor.machine.point ≠ .call) :
    processor.execute.lost = processor.lost := by
  rw [Processor.execute]
  split
  · rfl
  · cases atPoint : processor.machine.point with
    | call => exact absurd atPoint uncalled
    | _ => rfl

/-- The call, without a handler. -/
theorem execute_call (null : processor.handler = 0) (kept : processor.lost = false)
    (atCall : processor.machine.point = .call) :
    processor.execute = { processor with lost := true } := by
  simp only [Processor.execute, kept, Bool.false_eq_true, if_false, atCall, null, if_true]

/-- A timer that counts comes to its call, or to the halting. -/
theorem Asleep.comesTo_call (asleep : processor.Asleep duration) (pending : processor.Pending)
    (kept : processor.lost = false) :
    ComesTo Executes
      (fun next => next.Asleep duration ∧ next.lost = false ∧
        next.elapsed = processor.elapsed ∧
        (next.machine.point = .call ∨ next.halted = true))
      processor := by
  refine @comesTo_of_rank _ _ _ _
    (fun next => next.Asleep duration ∧ next.Pending ∧ next.lost = false ∧
      next.elapsed = processor.elapsed)
    remaining ?_ ⟨asleep, pending, kept, rfl⟩
  rintro next ⟨still, pending, kept, same⟩
  by_cases atCall : next.machine.point = .call
  · exact Or.inl ⟨still, kept, same, Or.inl atCall⟩
  by_cases halted : next.halted = true
  · exact Or.inl ⟨still, kept, same, Or.inr halted⟩
  · have running := pending.resolve_right atCall
    obtain ⟨pending', same', nearer⟩ :=
      remaining_execute kept running (Bool.not_eq_true _ ▸ halted) (still.inWait running)
    refine Or.inr ⟨_, rfl, ⟨still.execute, pending', ?_, same'.trans same⟩, nearer⟩
    rw [lost_execute atCall]
    exact kept

/-- The points from which the looks at the time lead to the call, once the time is up. -/
def OnTheWay (duration : Timespec) (elapsed : Nat) : Point → Prop
  | .launch | .testStop | .testSecAbove | .testSecEqual | .expire | .call => True
  | .testNsec => duration.tvSec.toNat = elapsed / 100
  | _ => False

/-- A step on the way to the call, or through it. -/
theorem Asleep.onTheWay_execute (asleep : processor.Asleep duration)
    (kept : processor.lost = false) (due : duration.dueTicks ≤ processor.elapsed)
    (normal : duration.tvNsec.toNat < 10 ^ 9) (small : processor.elapsed < 100 * 2 ^ 64)
    (onTheWay : OnTheWay duration processor.elapsed processor.machine.point) :
    processor.execute.lost = true ∨
      processor.execute.lost = false ∧ processor.execute.elapsed = processor.elapsed ∧
        OnTheWay duration processor.elapsed processor.execute.machine.point ∧
        toCall processor.execute.machine.point < toCall processor.machine.point := by
  obtain ⟨⟨⟨wait, spent, type, stop⟩, clkTics, sysclock, point, disarmed, ticks⟩, handler,
    halted, lost, elapsed, calls⟩ := processor
  obtain ⟨null, sameWait, _, here⟩ := asleep
  obtain rfl : lost = false := kept
  obtain rfl : wait = duration := sameWait
  simp only at due small
  have looks := (dueTicks_le normal).mp due
  cases point with
  | unset | idle | startSec | startNsec | startArm | halted | handler | testRewind | rewindSec
  | rewindNsec | rewindArm | testStopped | testType => exact onTheWay.elim
  | launch => exact Or.inr ⟨rfl, rfl, trivial, (by decide : 5 < 6)⟩
  | testStop =>
      obtain rfl : stop = false := here.1
      exact Or.inr ⟨rfl, rfl, trivial, (by decide : 4 < 5)⟩
  | testSecAbove =>
      obtain rfl : spent = Timespec.ofTicks elapsed := here.2
      have notAbove : ¬ wait.tvSec > (Timespec.ofTicks elapsed).tvSec := by
        rw [sec_above small]
        omega
      simp only [Processor.execute, TimerState.advance, if_neg notAbove]
      exact Or.inr ⟨rfl, rfl, trivial, (by decide : 3 < 4)⟩
  | testSecEqual =>
      obtain rfl : spent = Timespec.ofTicks elapsed := here.2
      by_cases same : wait.tvSec = (Timespec.ofTicks elapsed).tvSec
      · simp only [Processor.execute, TimerState.advance, if_pos same]
        exact Or.inr ⟨rfl, rfl, (sec_equal small).mp same, (by decide : 2 < 3)⟩
      · simp only [Processor.execute, TimerState.advance, if_neg same]
        exact Or.inr ⟨rfl, rfl, trivial, (by decide : 1 < 3)⟩
  | testNsec =>
      obtain rfl : spent = Timespec.ofTicks elapsed := here.2
      have same : wait.tvSec.toNat = elapsed / 100 := onTheWay
      have notAbove : ¬ wait.tvNsec > (Timespec.ofTicks elapsed).tvNsec := by
        rw [nsec_above]
        omega
      simp only [Processor.execute, TimerState.advance, if_neg notAbove]
      exact Or.inr ⟨rfl, rfl, trivial, (by decide : 1 < 2)⟩
  | expire => exact Or.inr ⟨rfl, rfl, trivial, (by decide : 0 < 1)⟩
  | call =>
      rw [execute_call null rfl rfl]
      exact Or.inl rfl

/-- On the way to the call the processor jumps to address 0. -/
theorem Asleep.comesTo_lost (asleep : processor.Asleep duration) (kept : processor.lost = false)
    (due : duration.dueTicks ≤ processor.elapsed) (normal : duration.tvNsec.toNat < 10 ^ 9)
    (small : processor.elapsed < 100 * 2 ^ 64)
    (onTheWay : OnTheWay duration processor.elapsed processor.machine.point) :
    ComesTo Executes (fun next => next.lost = true) processor := by
  refine @comesTo_of_rank _ _ _ _
    (fun next => next.Asleep duration ∧ (next.lost = true ∨ next.lost = false ∧
      next.elapsed = processor.elapsed ∧
      OnTheWay duration processor.elapsed next.machine.point))
    (fun next => if next.lost then 0 else toCall next.machine.point + 1) ?_
    ⟨asleep, Or.inr ⟨kept, rfl, onTheWay⟩⟩
  rintro next ⟨still, lost | ⟨kept, same, onTheWay⟩⟩
  · exact Or.inl lost
  have step := still.onTheWay_execute kept (same ▸ due) normal (same ▸ small) (same ▸ onTheWay)
  refine Or.inr ⟨_, rfl, ⟨still.execute, ?_⟩, ?_⟩
  · rcases step with lost | ⟨kept, same', onTheWay', _⟩
    · exact Or.inl lost
    · exact Or.inr ⟨kept, same'.trans same, same ▸ onTheWay'⟩
  · rcases step with lost | ⟨kept', _, _, nearer⟩
    · simp only [kept, lost, if_true, Bool.false_eq_true, if_false]
      exact Nat.succ_pos _
    · simp only [kept, kept', Bool.false_eq_true, if_false]
      exact Nat.succ_lt_succ nearer

/-- Once the time is up, the next tick leads from the halting, or from the call, to address
0. -/
theorem Asleep.tick_comesTo_lost (asleep : processor.Asleep duration)
    (kept : processor.lost = false) (due : duration.dueTicks ≤ processor.elapsed)
    (normal : duration.tvNsec.toNat < 10 ^ 9) (small : processor.elapsed + 1 < 100 * 2 ^ 64)
    (waits : processor.machine.point = .call ∨ processor.halted = true) :
    ComesTo Executes (fun next => next.lost = true) processor.tick := by
  obtain ⟨_, _, _, point_tick, _, _⟩ := processor.machine.tick_frame
  rcases waits with atCall | halted
  · have awake : processor.halted = false := asleep.awake (by simp [atCall])
    refine asleep.tick.comesTo_lost ?_ ?_ normal ?_ ?_ <;> rw [tick_awake awake]
    · exact kept
    · exact Nat.le_succ_of_le due
    · exact small
    · rw [show processor.machine.tick.point = .call from point_tick.trans atCall]
      trivial
  · have atHalt := halted_atHalt asleep.awake halted
    have tested := advance_halted (point_tick.trans atHalt)
    refine asleep.tick.comesTo_lost ?_ ?_ normal ?_ ?_ <;> rw [tick_asleep halted]
    · exact kept
    · exact Nat.le_succ_of_le due
    · exact small
    · rw [tested]
      trivial

/-- Whoever sleeps long enough jumps to address 0, at the next tick or before. -/
theorem Asleep.jumps (asleep : processor.Asleep duration) (pending : processor.Pending)
    (kept : processor.lost = false) (due : duration.dueTicks ≤ processor.elapsed)
    (normal : duration.tvNsec.toNat < 10 ^ 9) (small : processor.elapsed + 1 < 100 * 2 ^ 64) :
    ∃ before after,
      (processor.run (List.replicate before .execute ++
        .tick :: List.replicate after .execute)).lost = true := by
  obtain ⟨before, still, kept', same, waits⟩ := exists_steps (asleep.comesTo_call pending kept)
  have comes := still.tick_comesTo_lost kept' (same ▸ due) normal (same ▸ small) waits
  obtain ⟨after, lost⟩ := exists_steps comes
  refine ⟨before, after, ?_⟩
  rw [run_append]
  exact lost

/-- What comes of sleeping: the caller never goes on, and once the time is up, however long
ago, the processor is on its way to address 0 and wants for one tick at most. -/
structure NeverReturns (duration : Timespec) (start : Processor) : Prop where
  sleeps : ∀ events, ¬ (start.run events).SleptThrough duration
  jumps : ∀ events, (start.run events).Pending → (start.run events).lost = false →
    duration.dueTicks ≤ (start.run events).elapsed →
    (start.run events).elapsed + 1 < 100 * 2 ^ 64 →
    ∃ before after,
      ((start.run events).run (List.replicate before .execute ++
        .tick :: List.replicate after .execute)).lost = true

theorem neverReturns_launch (normal : duration.tvNsec.toNat < 10 ^ 9) (machine : TimerState) :
    NeverReturns duration (launch .oneShot duration 0 machine) where
  sleeps events := ((asleep_launch machine).run events).not_sleptThrough
  jumps events pending kept due small :=
    ((asleep_launch machine).run events).jumps pending kept due normal small

/-- Neither `sleep` nor `nanosleep` ever comes back. -/
theorem sleep_never_returns (seconds : UInt64) {duration : Timespec}
    (normal : duration.tvNsec.toNat < 10 ^ 9) (machine : TimerState) :
    NeverReturns ⟨seconds, 0⟩ (sleep seconds machine) ∧
      NeverReturns duration (nanosleep duration machine) := by
  have noNsec : (⟨seconds, 0⟩ : Timespec).tvNsec.toNat < 10 ^ 9 := show 0 < 10 ^ 9 by decide
  exact ⟨neverReturns_launch noNsec machine, neverReturns_launch normal machine⟩

/-- A second, and a hundredth of a second. -/
theorem sleep_never_returns_hundredth :
    NeverReturns ⟨1, 0⟩ (sleep 1 .boot) ∧
      NeverReturns ⟨0, 10000000⟩ (nanosleep ⟨0, 10000000⟩ .boot) :=
  sleep_never_returns 1 (by decide) .boot

/-- The tick that a sleeper has waited for leads to address 0, and so does a sleep of no
time at all without any tick. -/
theorem nanosleep_jumps :
    (¬ ∀ events, ((nanosleep ⟨0, 10000000⟩ .boot).run events).lost = false) ∧
      ¬ ∀ events, ((sleep 0 .boot).run events).lost = false := by
  constructor <;> intro kept
  · exact absurd (kept (List.replicate 9 .execute ++ .tick :: List.replicate 6 .execute))
      (by decide +kernel)
  · exact absurd (kept (List.replicate 10 .execute)) (by decide +kernel)

end Progress

end Processor

end Bootloader.Arch
