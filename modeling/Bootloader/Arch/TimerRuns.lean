import Mathlib.Algebra.Group.Nat.Defs
import Mathlib.Logic.Function.Iterate
import Bootloader.Arch.Timer

/-!
# When the software timer fires

`TimerState.Invariant` says what holds at each point of the timer's run as long as
the timer is only disarmed where that is harmless. It speaks of the ticks counted,
not of `spent`, so that reading seconds and nanoseconds one after the other, with
ticks between the reads, needs no argument of its own.
-/

namespace Bootloader.Arch

section Ticks

theorem toNat_ofTicks_sec (ticks : Nat) :
    (Timespec.ofTicks ticks).tvSec.toNat = ticks / 100 % 2 ^ 64 :=
  UInt64.toNat_ofNat'

theorem toNat_ofTicks_nsec (ticks : Nat) :
    (Timespec.ofTicks ticks).tvNsec.toNat = ticks % 100 * 10000000 := by
  rw [Timespec.ofTicks, UInt64.toNat_ofNat']
  omega

theorem ofTicks_zero : Timespec.ofTicks 0 = ⟨0, 0⟩ := by decide

/-- A tick adds a tick, and the hundredth one completes a second. -/
theorem tic_ofTicks (ticks : Nat) :
    (Timespec.ofTicks ticks).tic = Timespec.ofTicks (ticks + 1) := by
  have resolution : sysClockResolutionTicNs.toNat = 10000000 := rfl
  have second : (1000000000 : UInt64).toNat = 1000000000 := rfl
  have sum : ((Timespec.ofTicks ticks).tvNsec + sysClockResolutionTicNs).toNat =
      ticks % 100 * 10000000 + 10000000 := by
    rw [UInt64.toNat_add, toNat_ofTicks_nsec, resolution]
    omega
  have full : ((Timespec.ofTicks ticks).tvNsec + sysClockResolutionTicNs) % 1000000000 = 0 ↔
      ticks % 100 = 99 := by
    rw [← UInt64.toNat_inj, UInt64.toNat_mod, sum, second, UInt64.toNat_zero]
    omega
  rw [Timespec.tic]
  by_cases last : ticks % 100 = 99
  · rw [if_pos (full.mpr last), Timespec.ofTicks, Timespec.ofTicks, Timespec.mk.injEq]
    constructor
    · apply UInt64.toNat_inj.mp
      rw [UInt64.toNat_add, UInt64.toNat_ofNat', UInt64.toNat_ofNat', UInt64.toNat_one]
      omega
    · rw [show (ticks + 1) % 100 = 0 by omega]
      rfl
  · rw [if_neg fun zero => last (full.mp zero)]
    rw [Timespec.mk.injEq]
    constructor
    · simp only [Timespec.ofTicks]
      rw [show (ticks + 1) / 100 = ticks / 100 by omega]
    · have next : (ticks + 1) % 100 = ticks % 100 + 1 := by omega
      apply UInt64.toNat_inj.mp
      rw [sum, toNat_ofTicks_nsec, next, Nat.succ_mul]

end Ticks

namespace TimerState

variable {machine : TimerState} {allowed : TimerFeature → Point → Prop}

/-- The timer is counting, and has not been disarmed. -/
structure Counting (softtimer0 : SoftwareTime) (disarmed : Bool) (ticks : Nat) : Prop where
  running : softtimer0.stop = false
  armed : disarmed = false
  spent : softtimer0.spent = Timespec.ofTicks ticks

/-- What holds at each point. -/
def Invariant (machine : TimerState) : Prop :=
  let softtimer0 := machine.softtimer0
  let counting := Counting softtimer0 machine.disarmed machine.ticks
  match machine.point with
  | .unset => True
  | .idle | .startSec => softtimer0.stop = true
  | .startNsec => softtimer0.stop = true ∧ softtimer0.spent.tvSec = 0
  | .startArm => softtimer0.stop = true ∧ softtimer0.spent = ⟨0, 0⟩
  | .launch | .testStop | .testSecAbove | .halted => counting
  | .testSecEqual | .testNsec => counting ∧ softtimer0.wait.tvSec.toNat ≤ machine.ticks / 100
  | .expire => machine.disarmed = false ∧ machine.Due
  | .call => softtimer0.stop = true ∧ machine.disarmed = false ∧ machine.Due
  | .handler | .testRewind =>
      softtimer0.stop = true ∧ (softtimer0.type = .autoRewind → machine.disarmed = false)
  | .rewindSec =>
      softtimer0.type = .autoRewind ∧ softtimer0.stop = true ∧ machine.disarmed = false
  | .rewindNsec =>
      softtimer0.type = .autoRewind ∧ softtimer0.stop = true ∧ machine.disarmed = false ∧
        softtimer0.spent.tvSec = 0
  | .rewindArm =>
      softtimer0.type = .autoRewind ∧ softtimer0.stop = true ∧ machine.disarmed = false ∧
        softtimer0.spent = ⟨0, 0⟩
  | .testStopped => softtimer0.stop = true ∨ softtimer0.type = .autoRewind ∧ counting
  | .testType => softtimer0.type = .autoRewind ∧ counting

section Reads

variable {softtimer0 : SoftwareTime} {disarmed : Bool} {ticks : Nat}

/-- Seconds read not to be below the time to wait for. -/
theorem Counting.sec_of_le (counting : Counting softtimer0 disarmed ticks)
    (enough : ¬ softtimer0.wait.tvSec > softtimer0.spent.tvSec) :
    softtimer0.wait.tvSec.toNat ≤ ticks / 100 := by
  rw [gt_iff_lt, UInt64.not_lt, UInt64.le_iff_toNat_le, counting.spent,
    toNat_ofTicks_sec] at enough
  exact Nat.le_trans enough (Nat.mod_le _ _)

/-- Seconds read later not to be equal to the time to wait for are above it. -/
theorem Counting.sec_of_ne (counting : Counting softtimer0 disarmed ticks)
    (below : softtimer0.wait.tvSec.toNat ≤ ticks / 100)
    (different : ¬ softtimer0.wait.tvSec = softtimer0.spent.tvSec) :
    softtimer0.wait.tvSec.toNat < ticks / 100 := by
  apply Nat.lt_of_le_of_ne below
  intro same
  apply different
  apply UInt64.toNat_inj.mp
  have bound := softtimer0.wait.tvSec.toNat_lt
  rw [counting.spent, toNat_ofTicks_sec]
  omega

/-- Nanoseconds read not to be below the time to wait for. -/
theorem Counting.nsec_of_le (counting : Counting softtimer0 disarmed ticks)
    (enough : ¬ softtimer0.wait.tvNsec > softtimer0.spent.tvNsec) :
    softtimer0.wait.tvNsec.toNat ≤ ticks % 100 * 10000000 := by
  rw [gt_iff_lt, UInt64.not_lt, UInt64.le_iff_toNat_le, counting.spent,
    toNat_ofTicks_nsec] at enough
  exact enough

end Reads

/-- A step of the timer's routine. -/
theorem Invariant.advance (holds : machine.Invariant) : machine.advance.Invariant := by
  obtain ⟨softtimer0, clkTics, sysclock, point, disarmed, ticks⟩ := machine
  cases point with
  | unset | idle | launch | halted | handler => exact holds
  | startSec => exact ⟨holds, rfl⟩
  | startNsec => exact ⟨holds.1, congrArg (Timespec.mk · 0) holds.2⟩
  | startArm => exact ⟨rfl, rfl, holds.2.trans ofTicks_zero.symm⟩
  | testStop =>
      have running : softtimer0.stop = false := Counting.running holds
      simp only [TimerState.advance, running, Bool.false_eq_true, if_false]
      exact holds
  | testSecAbove =>
      by_cases above : softtimer0.wait.tvSec > softtimer0.spent.tvSec
      · simp only [TimerState.advance, if_pos above]
        exact holds
      · simp only [TimerState.advance, if_neg above]
        exact ⟨holds, Counting.sec_of_le holds above⟩
  | testSecEqual =>
      obtain ⟨counting, below⟩ := holds
      by_cases same : softtimer0.wait.tvSec = softtimer0.spent.tvSec
      · simp only [TimerState.advance, if_pos same]
        exact ⟨counting, below⟩
      · simp only [TimerState.advance, if_neg same]
        exact ⟨counting.armed, Or.inl (counting.sec_of_ne below same)⟩
  | testNsec =>
      obtain ⟨counting, below⟩ := holds
      by_cases above : softtimer0.wait.tvNsec > softtimer0.spent.tvNsec
      · simp only [TimerState.advance, if_pos above]
        exact counting
      · simp only [TimerState.advance, if_neg above]
        refine ⟨counting.armed, ?_⟩
        rcases Nat.lt_or_eq_of_le below with more | same
        · exact Or.inl more
        · exact Or.inr ⟨same, counting.nsec_of_le above⟩
  | expire => exact ⟨rfl, holds⟩
  | call => exact ⟨holds.1, fun _ => holds.2.1⟩
  | testRewind =>
      obtain ⟨stopped, rewinds⟩ := holds
      by_cases again : softtimer0.type = .autoRewind
      · simp only [TimerState.advance, if_pos again]
        exact ⟨again, stopped, rewinds again⟩
      · simp only [TimerState.advance, if_neg again]
        exact Or.inl stopped
  | rewindSec =>
      obtain ⟨again, stopped, armed⟩ := holds
      exact ⟨again, stopped, armed, rfl⟩
  | rewindNsec =>
      obtain ⟨again, stopped, armed, cleared⟩ := holds
      exact ⟨again, stopped, armed, congrArg (Timespec.mk · 0) cleared⟩
  | rewindArm =>
      obtain ⟨again, _, armed, cleared⟩ := holds
      exact Or.inr ⟨again, rfl, armed, cleared.trans ofTicks_zero.symm⟩
  | testStopped =>
      rcases holds with stopped | ⟨again, counting⟩
      · simp only at stopped
        simp only [TimerState.advance, stopped, if_true]
        exact stopped
      · have running : softtimer0.stop = false := counting.running
        simp only [TimerState.advance, running, Bool.false_eq_true, if_false]
        exact ⟨again, counting⟩
  | testType =>
      obtain ⟨again, counting⟩ := holds
      simp only at again
      simp only [TimerState.advance, again, if_true]
      exact ⟨counting.running, counting.armed, counting.spent⟩

section Tick

/-- A tick of a timer that does not count. -/
theorem tick_stopped (stopped : machine.softtimer0.stop = true) :
    machine.tick =
      { machine with clkTics := machine.clkTics + 1, sysclock := machine.sysclock.tic } := by
  simp only [tick, stopped, if_true]

/-- A tick of a timer that counts. -/
theorem tick_running (running : machine.softtimer0.stop = false) :
    machine.tick =
      { machine with
        softtimer0 := { machine.softtimer0 with spent := machine.softtimer0.spent.tic }
        clkTics := machine.clkTics + 1
        sysclock := machine.sysclock.tic
        ticks := machine.ticks + 1 } := by
  simp only [tick, running, Bool.false_eq_true, if_false]

theorem Counting.tick (counting : Counting machine.softtimer0 machine.disarmed machine.ticks) :
    Counting machine.tick.softtimer0 machine.tick.disarmed machine.tick.ticks := by
  have spent : machine.softtimer0.spent.tic = Timespec.ofTicks (machine.ticks + 1) := by
    rw [counting.spent, tic_ofTicks]
  rw [tick_running counting.running, spent]
  exact ⟨counting.running, counting.armed, rfl⟩

/-- What a tick leaves as it is. -/
theorem tick_frame (machine : TimerState) :
    machine.tick.softtimer0.stop = machine.softtimer0.stop ∧
      machine.tick.softtimer0.type = machine.softtimer0.type ∧
      machine.tick.softtimer0.wait = machine.softtimer0.wait ∧
      machine.tick.point = machine.point ∧ machine.tick.disarmed = machine.disarmed ∧
      machine.ticks ≤ machine.tick.ticks := by
  cases running : machine.softtimer0.stop with
  | true => simp [tick_stopped running, running]
  | false => simp [tick_running running, running]

theorem Due.tick (due : machine.Due) : machine.tick.Due := by
  obtain ⟨_, _, wait, _, _, counted⟩ := machine.tick_frame
  unfold Due at due ⊢
  rw [wait]
  omega

theorem Invariant.tick (holds : machine.Invariant) : machine.tick.Invariant := by
  by_cases stopped : machine.softtimer0.stop = true
  · rw [tick_stopped stopped]
    exact holds
  obtain ⟨_, type, wait, point, disarmed, counted⟩ := machine.tick_frame
  unfold Invariant at holds ⊢
  rw [point]
  cases here : machine.point with
  | unset => trivial
  | idle | startSec =>
      rw [here] at holds
      exact absurd holds stopped
  | startNsec | startArm | call | handler | testRewind =>
      rw [here] at holds
      exact absurd holds.1 stopped
  | rewindSec | rewindNsec | rewindArm =>
      rw [here] at holds
      exact absurd holds.2.1 stopped
  | launch | testStop | testSecAbove | halted =>
      rw [here] at holds
      exact Counting.tick holds
  | testSecEqual | testNsec =>
      rw [here] at holds
      refine ⟨Counting.tick holds.1, ?_⟩
      rw [wait]
      exact Nat.le_trans holds.2 (Nat.div_le_div_right counted)
  | expire =>
      rw [here] at holds
      exact ⟨disarmed.trans holds.1, Due.tick holds.2⟩
  | testStopped =>
      rw [here] at holds
      have counting := (holds.resolve_left stopped).2
      exact Or.inr ⟨type.trans (holds.resolve_left stopped).1, counting.tick⟩
  | testType =>
      rw [here] at holds
      exact ⟨type.trans holds.1, Counting.tick holds.2⟩

end Tick

/-- A call of `timer_disarm` where it is harmless. -/
theorem Invariant.disarm (holds : machine.Invariant)
    (harmless : Harmless machine.softtimer0.type machine.point) : machine.disarm.Invariant := by
  obtain ⟨⟨wait, spent, type, stop⟩, clkTics, sysclock, point, disarmed, ticks⟩ := machine
  cases point with
  | unset => trivial
  | idle | startSec => exact rfl
  | startNsec | startArm => exact ⟨rfl, holds.2⟩
  | launch | testStop | testSecAbove | testSecEqual | testNsec | halted | expire | call =>
      cases type <;> exact harmless.elim
  | handler | testRewind =>
      cases type with
      | oneShot => exact ⟨rfl, fun again => nomatch again⟩
      | autoRewind => exact harmless.elim
  | rewindSec | rewindNsec | rewindArm | testType =>
      cases type with
      | oneShot => exact nomatch holds.1
      | autoRewind => exact harmless.elim
  | testStopped => exact Or.inl rfl

/-- As long as the timer is only disarmed where that is harmless, the invariant holds. -/
theorem Reachable.invariant
    (harmless : ∀ type point, allowed type point → Harmless type point)
    (reached : Reachable allowed machine) : machine.Invariant := by
  induction reached with
  | boot => trivial
  | wind _ _ type wait _ => exact rfl
  | @start machine _ wound inductionHypothesis =>
      unfold Invariant at inductionHypothesis
      rw [wound] at inductionHypothesis
      exact inductionHypothesis
  | advance _ inductionHypothesis => exact inductionHypothesis.advance
  | tick _ inductionHypothesis => exact inductionHypothesis.tick
  | disarm _ permitted inductionHypothesis =>
      exact inductionHypothesis.disarm (harmless _ _ permitted)

/-- The handler is only called when the timer has not been disarmed since it was
started, and its time is up. -/
def FiresWhenDue (allowed : TimerFeature → Point → Prop) : Prop :=
  ∀ machine, Reachable allowed machine → machine.point = .call →
    machine.disarmed = false ∧ machine.Due

theorem Reachable.iterate (reached : Reachable allowed machine) (steps : Nat) :
    Reachable allowed (TimerState.advance^[steps] machine) := by
  induction steps generalizing machine with
  | zero => exact reached
  | succ steps inductionHypothesis => exact inductionHypothesis reached.advance

/-- A timer that has just been started. -/
def started (type : TimerFeature) (wait : Timespec) : TimerState := (boot.wind type wait).start

/-- Disarmed at any other point, the timer may fire nevertheless. -/
theorem exists_firing_disarmed {type : TimerFeature} {point : Point}
    (harmful : ¬ Harmless type point) :
    ∃ wait before after,
      let here := TimerState.advance^[before] (started type wait)
      here.softtimer0.type = type ∧ here.point = point ∧
        (TimerState.advance^[after] here.disarm).point = .call ∧
        (TimerState.advance^[after] here.disarm).disarmed = true := by
  cases point with
  | unset | idle | startSec | startNsec | startArm | testStopped =>
      cases type <;> exact absurd trivial harmful
  | launch => exact ⟨⟨0, 0⟩, 3, 3, by cases type <;> decide⟩
  | testStop => exact ⟨⟨0, 0⟩, 4, 2, by cases type <;> decide⟩
  | testSecAbove => exact ⟨⟨0, 0⟩, 5, 4, by cases type <;> decide⟩
  | testSecEqual => exact ⟨⟨0, 0⟩, 6, 3, by cases type <;> decide⟩
  | testNsec => exact ⟨⟨0, 0⟩, 7, 2, by cases type <;> decide⟩
  | halted => exact ⟨⟨1, 0⟩, 6, 3, by cases type <;> decide⟩
  | expire => exact ⟨⟨0, 0⟩, 8, 1, by cases type <;> decide⟩
  | call => exact ⟨⟨0, 0⟩, 9, 0, by cases type <;> decide⟩
  | handler =>
      cases type with
      | oneShot => exact absurd trivial harmful
      | autoRewind => exact ⟨⟨0, 0⟩, 10, 12, by decide⟩
  | testRewind =>
      cases type with
      | oneShot => exact absurd trivial harmful
      | autoRewind => exact ⟨⟨0, 0⟩, 11, 11, by decide⟩
  | rewindSec =>
      cases type with
      | oneShot => exact absurd trivial harmful
      | autoRewind => exact ⟨⟨0, 0⟩, 12, 10, by decide⟩
  | rewindNsec =>
      cases type with
      | oneShot => exact absurd trivial harmful
      | autoRewind => exact ⟨⟨0, 0⟩, 13, 9, by decide⟩
  | rewindArm =>
      cases type with
      | oneShot => exact absurd trivial harmful
      | autoRewind => exact ⟨⟨0, 0⟩, 14, 8, by decide⟩
  | testType =>
      cases type with
      | oneShot => exact absurd trivial harmful
      | autoRewind => exact ⟨⟨0, 0⟩, 16, 3, by decide⟩

/-- The timer fires only when due and never after being disarmed, in every run, exactly
when it is disarmed only where that is harmless. -/
theorem timer_fires_when_due_iff (allowed : TimerFeature → Point → Prop) :
    FiresWhenDue allowed ↔ ∀ type point, allowed type point → Harmless type point := by
  constructor
  · intro fires type point permitted
    by_contra harmful
    obtain ⟨wait, before, after, sameType, samePoint, fired, disarmed⟩ :=
      exists_firing_disarmed harmful
    have launched : Reachable allowed (started type wait) :=
      (Reachable.boot.wind (Or.inl rfl) type wait).start rfl
    have here := launched.iterate before
    rw [← sameType, ← samePoint] at permitted
    have there := (here.disarm permitted).iterate after
    rw [(fires _ there fired).1] at disarmed
    cases disarmed
  · intro harmless machine reached fired
    have holds := reached.invariant harmless
    unfold Invariant at holds
    rw [fired] at holds
    exact holds.2

/-- A one-shot timer of an hour that is disarmed while it waits fires there and then. -/
theorem timer_fires_when_disarmed : ¬ FiresWhenDue fun _ _ => True := by
  intro fires
  have launched : Reachable (fun _ _ => True) (started .oneShot ⟨3600, 0⟩) :=
    (Reachable.boot.wind (Or.inl rfl) .oneShot ⟨3600, 0⟩).start rfl
  have halted := (launched.iterate 6).disarm trivial
  have fired := fires _ (halted.iterate 3) (by decide)
  exact absurd fired.1 (by decide)

end TimerState

end Bootloader.Arch
