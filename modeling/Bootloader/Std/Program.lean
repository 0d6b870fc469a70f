/-!
# Routines over an explicit machine state

A freestanding routine called in a given machine state comes back, stops the
machine in a panic, or never comes back. `Outcome` records which of the three
happened together with the state it left, and `Outcome.andThen` sequences
routines by that outcome. `loop` is the one source of divergence: it carries the
number of turns it may take, so that termination is a statement about how many
turns are enough and every other property holds for any number of them.
-/

namespace Bootloader.Std

variable {State Value Result Local : Type}

/-- What a call did, with the machine state at that point. -/
inductive Outcome (State Value : Type) where
  | returned (value : Value) (state : State)
  | panicked (reason : String) (state : State)
  | diverged (state : State)

namespace Outcome

/-- The machine state an outcome leaves, however the call ended. -/
def state : Outcome State Value → State
  | .returned _ state => state
  | .panicked _ state => state
  | .diverged state => state

@[simp] theorem state_returned (value : Value) (after : State) :
    (returned value after).state = after := rfl

@[simp] theorem state_diverged (after : State) :
    (diverged after : Outcome State Value).state = after := rfl

/-- Whether a call came back. -/
def returns : Outcome State Value → Bool
  | .returned _ _ => true
  | .panicked _ _ | .diverged _ => false

theorem eq_returned {outcome : Outcome State Unit} (comesBack : outcome.returns = true) :
    outcome = .returned () outcome.state := by
  cases outcome with
  | returned value after => rfl
  | panicked reason after => cases comesBack
  | diverged after => cases comesBack

/-- Whether a call came back with a value and a state that pass a test. -/
def passes (test : Value → State → Bool) : Outcome State Value → Bool
  | .returned value state => test value state
  | .panicked _ _ | .diverged _ => false

theorem exists_of_passes {outcome : Outcome State Value} {test : Value → State → Bool}
    (passed : outcome.passes test = true) :
    ∃ value after, outcome = .returned value after ∧ test value after = true := by
  cases outcome with
  | returned value after => exact ⟨value, after, rfl, passed⟩
  | panicked reason after => cases passed
  | diverged after => cases passed

/-- Whether a call comes back or panics. -/
def ends : Outcome State Value → Bool
  | .returned _ _ | .panicked _ _ => true
  | .diverged _ => false

/-- Go on from a return; a panic or a divergence ends the sequence there. -/
def andThen (first : Outcome State Value) (next : Value → State → Outcome State Result) :
    Outcome State Result :=
  match first with
  | .returned value after => next value after
  | .panicked reason after => .panicked reason after
  | .diverged after => .diverged after

@[simp] theorem returned_andThen (value : Value) (after : State)
    (next : Value → State → Outcome State Result) :
    (returned value after).andThen next = next value after := rfl

@[simp] theorem panicked_andThen (reason : String) (after : State)
    (next : Value → State → Outcome State Result) :
    (panicked reason after).andThen next = .panicked reason after := rfl

/-- A sequence returns only through a return of its first part. -/
theorem andThen_eq_returned {first : Outcome State Value}
    {next : Value → State → Outcome State Result} {result : Result} {final : State}
    (ran : first.andThen next = .returned result final) :
    ∃ value middle, first = .returned value middle ∧
      next value middle = .returned result final := by
  cases first with
  | returned value middle => exact ⟨value, middle, rfl, ran⟩
  | panicked reason middle => cases ran
  | diverged middle => cases ran

/-- A sequence ends when its first part does, and what follows each return of that. -/
theorem ends_andThen {first : Outcome State Value}
    {next : Value → State → Outcome State Result} (firstEnds : first.ends = true)
    (nextEnds : ∀ value middle, first = .returned value middle →
      (next value middle).ends = true) : (first.andThen next).ends = true := by
  cases first with
  | returned value middle => exact nextEnds value middle rfl
  | panicked reason middle => rfl
  | diverged middle => cases firstEnds

/-- The outcome of a routine that owns part of a larger machine state. -/
def within {Part : Type} (outcome : Outcome Part Value) (embed : Part → State) :
    Outcome State Value :=
  match outcome with
  | .returned value part => .returned value (embed part)
  | .panicked reason part => .panicked reason (embed part)
  | .diverged part => .diverged (embed part)

@[simp] theorem returned_within {Part : Type} (value : Value) (part : Part)
    (embed : Part → State) :
    (returned value part).within embed = .returned value (embed part) := rfl

@[simp] theorem panicked_within {Part : Type} (reason : String) (part : Part)
    (embed : Part → State) :
    (panicked reason part : Outcome Part Value).within embed =
      .panicked reason (embed part) := rfl

/-- A routine seen on a larger state returns only where it does. -/
theorem within_eq_returned {Part : Type} {outcome : Outcome Part Value} {embed : Part → State}
    {value : Value} {final : State} (ran : outcome.within embed = .returned value final) :
    ∃ part, outcome = .returned value part ∧ final = embed part := by
  cases outcome with
  | returned value part =>
      cases ran
      exact ⟨part, rfl, rfl⟩
  | panicked reason part => cases ran
  | diverged part => cases ran

theorem ends_within {Part : Type} {outcome : Outcome Part Value} {embed : Part → State} :
    (outcome.within embed).ends = outcome.ends := by
  cases outcome <;> rfl

end Outcome

/-- One turn of a loop either goes round again with new loop variables or
leaves the loop with a value. -/
inductive Turn (Local Value : Type) where
  | again (next : Local)
  | leave (value : Value)

/-- Run a loop for at most `turns` turns; a loop that needs more of them has not
come back, and its outcome is the state it had reached. -/
def loop (body : Local → State → Outcome State (Turn Local Value)) :
    Nat → Local → State → Outcome State Value
  | 0, _, before => .diverged before
  | turns + 1, current, before =>
      match body current before with
      | .returned (.again next) after => loop body turns next after
      | .returned (.leave value) after => .returned value after
      | .panicked reason after => .panicked reason after
      | .diverged after => .diverged after

section Loop

variable {body : Local → State → Outcome State (Turn Local Value)} {current next : Local}
  {turns : Nat} {before middle after : State} {value : Value}

theorem loop_again (ran : body current before = .returned (.again next) middle) :
    loop body (turns + 1) current before = loop body turns next middle := by
  rw [loop, ran]

theorem loop_leave (ran : body current before = .returned (.leave value) after) :
    loop body (turns + 1) current before = .returned value after := by
  rw [loop, ran]

theorem loop_panicked {reason : String}
    (ran : body current before = .panicked reason after) :
    loop body (turns + 1) current before = .panicked reason after := by
  rw [loop, ran]

/-- A loop that has come back does the same when it may take more turns. -/
theorem loop_more (ran : loop body turns current before = .returned value after) (extra : Nat) :
    loop body (turns + extra) current before = .returned value after := by
  induction turns generalizing current before with
  | zero => cases ran
  | succ turns inductionHypothesis =>
      rw [Nat.succ_add]
      rw [loop] at ran ⊢
      cases turn : body current before with
      | returned outcome middle =>
          rw [turn] at ran
          cases outcome with
          | again next => exact inductionHypothesis ran
          | leave result => exact ran
      | panicked reason middle =>
          rw [turn] at ran
          cases ran
      | diverged middle =>
          rw [turn] at ran
          cases ran

/-- Two numbers of turns that are both enough give the same. -/
theorem loop_unique {turns' : Nat} {value' : Value} {after' : State}
    (ran : loop body turns current before = .returned value after)
    (ran' : loop body turns' current before = .returned value' after') :
    value = value' ∧ after = after' := by
  have longer := loop_more ran turns'
  rw [Nat.add_comm, loop_more ran' turns] at longer
  cases longer
  exact ⟨rfl, rfl⟩

/-- What a turn has to establish: the invariant when the loop goes round again, and
the postcondition when it ends there. -/
def Establishes (Invariant : Local → State → Prop) (Post : Outcome State Value → Prop) :
    Outcome State (Turn Local Value) → Prop
  | .returned (.again next) after => Invariant next after
  | .returned (.leave value) after => Post (.returned value after)
  | .panicked reason after => Post (.panicked reason after)
  | .diverged after => Post (.diverged after)

/-- The invariant rule: what every turn preserves holds wherever the loop ends,
also at the point where its turns run out. -/
theorem loop_invariant {Invariant : Local → State → Prop} {Post : Outcome State Value → Prop}
    (turn : ∀ current before, Invariant current before →
      Establishes Invariant Post (body current before))
    (exhausted : ∀ current before, Invariant current before → Post (.diverged before))
    (turns : Nat) (holds : Invariant current before) : Post (loop body turns current before) := by
  induction turns generalizing current before with
  | zero => exact exhausted current before holds
  | succ turns inductionHypothesis =>
      have established := turn current before holds
      rw [loop]
      cases ran : body current before with
      | returned outcome after =>
          rw [ran] at established
          cases outcome with
          | again next => exact inductionHypothesis established
          | leave value => exact established
      | panicked reason after =>
          rw [ran] at established
          exact established
      | diverged after =>
          rw [ran] at established
          exact established

/-- What every turn keeps of the state, the loop keeps from its first turn on. -/
theorem loop_keeps {Holds : State → Prop}
    (keeps : ∀ current before, Holds before → Holds (body current before).state) (turns : Nat)
    (holds : Holds (body current before).state) :
    Holds (loop body (turns + 1) current before).state := by
  induction turns generalizing current before with
  | zero =>
      rw [loop]
      revert holds
      cases body current before with
      | returned outcome after => cases outcome <;> exact id
      | panicked reason after => exact id
      | diverged after => exact id
  | succ turns inductionHypothesis =>
      rw [loop]
      revert holds
      cases body current before with
      | returned outcome after =>
          cases outcome with
          | again next => exact fun holds => inductionHypothesis (keeps next after holds)
          | leave value => exact id
      | panicked reason after => exact id
      | diverged after => exact id

/-- The rule of total correctness: a loop whose turns shrink a measure ends within more turns
than that. -/
theorem loop_total {Invariant : Local → State → Prop} {Post : Outcome State Value → Prop}
    (measure : Local → Nat)
    (turn : ∀ current before, Invariant current before →
      Establishes (fun next after => Invariant next after ∧ measure next < measure current) Post
        (body current before))
    (enough : measure current < turns) (holds : Invariant current before) :
    Post (loop body turns current before) := by
  induction turns generalizing current before with
  | zero => exact absurd enough (Nat.not_lt_zero _)
  | succ turns inductionHypothesis =>
      have established := turn current before holds
      rw [loop]
      cases ran : body current before with
      | returned outcome after =>
          rw [ran] at established
          cases outcome with
          | again next =>
              have fewer : measure next < turns :=
                Nat.lt_of_lt_of_le established.2 (Nat.le_of_lt_succ enough)
              exact inductionHypothesis fewer established.1
          | leave value => exact established
      | panicked reason after =>
          rw [ran] at established
          exact established
      | diverged after =>
          rw [ran] at established
          exact established

/-- Two turns that agree: both go round again, or both leave, as the relations want. -/
def Agrees {Local' State' Value' : Type} (Again : Local → State → Local' → State' → Prop)
    (Leave : Value → State → Value' → State' → Prop) :
    Outcome State (Turn Local Value) → Outcome State' (Turn Local' Value') → Prop
  | .returned (.again next) after, .returned (.again next') after' =>
      Again next after next' after'
  | .returned (.leave value) after, .returned (.leave value') after' =>
      Leave value after value' after'
  | .panicked _ _, .panicked _ _ => True
  | .diverged _, .diverged _ => True
  | _, _ => False

/-- The simulation rule: where related turns agree, a loop that comes back is matched by
the loop it simulates, in as many turns. -/
theorem loop_simulation {Local' State' Value' : Type}
    {body' : Local' → State' → Outcome State' (Turn Local' Value')}
    {Again : Local → State → Local' → State' → Prop}
    {Leave : Value → State → Value' → State' → Prop} {current' : Local'} {before' : State'}
    (turn : ∀ current before current' before', Again current before current' before' →
      Agrees Again Leave (body current before) (body' current' before'))
    (related : Again current before current' before')
    (ran : loop body turns current before = .returned value after) :
    ∃ value' after', loop body' turns current' before' = .returned value' after' ∧
      Leave value after value' after' := by
  induction turns generalizing current before current' before' with
  | zero => cases ran
  | succ turns inductionHypothesis =>
      have agrees := turn current before current' before' related
      rw [loop] at ran ⊢
      revert ran agrees
      cases body current before with
      | returned outcome middle =>
          cases body' current' before' with
          | returned outcome' middle' =>
              cases outcome with
              | again next =>
                  cases outcome' with
                  | again next' => exact fun ran agrees => inductionHypothesis agrees ran
                  | leave value' => exact fun _ agrees => agrees.elim
              | leave result =>
                  cases outcome' with
                  | again next' => exact fun _ agrees => agrees.elim
                  | leave value' =>
                      intro ran agrees
                      cases ran
                      exact ⟨value', middle', rfl, agrees⟩
          | panicked reason' middle' => cases outcome <;> exact fun _ agrees => agrees.elim
          | diverged middle' => cases outcome <;> exact fun _ agrees => agrees.elim
      | panicked reason middle => exact fun ran => nomatch ran
      | diverged middle => exact fun ran => nomatch ran

end Loop

end Bootloader.Std
