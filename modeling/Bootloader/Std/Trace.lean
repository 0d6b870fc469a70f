/-!
# Runs of a system

A system is a relation between a state, an event and the next state. A trace is
a run of it from its start, and remembers each event with the state it found.
The rules say what holds at the end of a trace: `Trace.always` where every event is
harmless, `Trace.lasting` for what single events establish, `Trace.dichotomy` where
a harmful one does lasting damage, and `Trace.follows` for a smaller system that the events
alone move.
-/

namespace Bootloader.Std

variable {State Event : Type}

/-- A run from `start`, with the log of its events and the states they found. -/
inductive Trace (step : State → Event → State → Prop) (start : State) :
    List (State × Event) → State → Prop
  | start : Trace step start [] start
  | extend {log : List (State × Event)} {state next : State} {event : Event}
      (before : Trace step start log state) (last : step state event next) :
      Trace step start (log ++ [(state, event)]) next

namespace Trace

variable {step : State → Event → State → Prop} {start state : State}
  {log : List (State × Event)}

/-- A property of the start that no event breaks holds at the end of every run. -/
theorem always {Invariant : State → Prop} (initial : Invariant start)
    (preserved : ∀ {state event next}, Invariant state → step state event next → Invariant next)
    (trace : Trace step start log state) : Invariant state := by
  induction trace with
  | start => exact initial
  | extend before last inductionHypothesis => exact preserved inductionHypothesis last

/-- Every event of a log was a step. -/
theorem step_of_mem (trace : Trace step start log state) {entry : State × Event}
    (member : entry ∈ log) : ∃ next, step entry.1 entry.2 next := by
  induction trace with
  | start => exact absurd member List.not_mem_nil
  | extend before last inductionHypothesis =>
      rcases List.mem_append.mp member with earlier | here
      · exact inductionHypothesis earlier
      · rw [List.mem_singleton] at here
        subst here
        exact ⟨_, last⟩

/-- What an allowed event establishes and no event undoes still holds at the end of a
run, for every allowed event of it. -/
theorem lasting (Holds : Event → State → Prop) (Allowed : State → Event → Prop)
    (established : ∀ {state event next}, Allowed state event → step state event next →
      Holds event next)
    (persists : ∀ {event state later next}, Holds event state → step state later next →
      Holds event next)
    (trace : Trace step start log state) :
    ∀ entry ∈ log, Allowed entry.1 entry.2 → Holds entry.2 state := by
  induction trace with
  | start => exact fun entry member => absurd member List.not_mem_nil
  | extend before last inductionHypothesis =>
      intro entry member allowed
      rcases List.mem_append.mp member with earlier | here
      · exact persists (inductionHypothesis entry earlier allowed) last
      · rw [List.mem_singleton] at here
        subst here
        exact established allowed last

/-- Either no event of a run was harmful and the good property holds at its end,
or one was and the damage lasts. -/
theorem dichotomy {Good Damaged : State → Prop} {Harmful : State → Event → Prop}
    (initial : Good start)
    (harmless : ∀ {state event next}, Good state → ¬ Harmful state event →
      step state event next → Good next)
    (harm : ∀ {state event next}, Good state → Harmful state event →
      step state event next → Damaged next)
    (lasting : ∀ {state event next}, Damaged state → step state event next → Damaged next)
    (trace : Trace step start log state) :
    (Good state ∧ ∀ entry ∈ log, ¬ Harmful entry.1 entry.2) ∨
      (Damaged state ∧ ∃ entry ∈ log, Harmful entry.1 entry.2) := by
  induction trace with
  | start => exact Or.inl ⟨initial, fun entry member => absurd member List.not_mem_nil⟩
  | @extend log state next event before last inductionHypothesis =>
      rcases inductionHypothesis with ⟨good, clean⟩ | ⟨damaged, entry, member, harmful⟩
      · by_cases harmful : Harmful state event
        · exact Or.inr ⟨harm good harmful last, _,
            List.mem_append_right _ (List.mem_singleton.mpr rfl), harmful⟩
        · refine Or.inl ⟨harmless good harmful last, fun entry member => ?_⟩
          rcases List.mem_append.mp member with earlier | here
          · exact clean entry earlier
          · rwa [List.mem_singleton.mp here]
      · exact Or.inr ⟨lasting damaged last, entry, List.mem_append_left _ member, harmful⟩

/-- A description of the state that every event moves on still fits at the end of a run. -/
theorem follows {Description : Type} {act : Description → Event → Description}
    {Fits : Description → State → Prop} {description : Description}
    (initial : Fits description start)
    (moved : ∀ {description state event next}, Fits description state → step state event next →
      Fits (act description event) next)
    (trace : Trace step start log state) :
    Fits ((log.map Prod.snd).foldl act description) state := by
  induction trace with
  | start => exact initial
  | extend before last inductionHypothesis =>
      rw [List.map_append, List.foldl_append]
      exact moved inductionHypothesis last

end Trace

end Bootloader.Std
